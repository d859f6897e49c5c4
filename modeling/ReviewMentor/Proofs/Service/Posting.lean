import ReviewMentor.Proofs.Json.Forms
import ReviewMentor.Proofs.Service.Inside

/-!
# Sending an issue back

An issue that a client was shown can be sent back as it is, to have it explained or fixed.
-/

namespace ReviewMentor

open Json

variable {α : Type} {w : Issue → Json} {i : Issue} {user code : String} {useAi : Bool}

/-- A question about an issue, as a client sends it. -/
def Question.sent (issue : Json) (user : String) (useAi : Bool) : Json :=
  .object [("issue", issue), ("user_id", .string user), ("use_ai", .bool useAi)]

/-- Code with an issue in it, as a client sends it. -/
def sentCodeIssue (code : String) (issue : Json) : Json :=
  .object [("code", .string code), ("issue", issue)]

theorem Question.read_sent (hw : w ∈ Issue.forms) (hfits : i.Fits) :
    Question.read (draftOf (sent (w i) user useAi)) = .ok ⟨i, user, useAi⟩ := by
  have hstart := Record.gives_start Question.mk [("issue", w i), ("user_id", .string user),
    ("use_ai", .bool useAi)]
  have hissue := hstart.need "issue" (by simp) (by simp) (Issue.read_form hw hfits)
  have huser := hissue.need "user_id" (by simp) (by simp) (text_string user)
  have hai := huser.defaults "use_ai" false (by simp) (by simp)
    (truth_bool useAi)
  exact hai.read_object

theorem readCodeIssue_sent (hw : w ∈ Issue.forms) (hfits : i.Fits) :
    readCodeIssue (draftOf (sentCodeIssue code (w i))) = .ok (code, i) := by
  have hstart := Record.gives_start (Prod.mk (α := String) (β := Issue))
    [("code", .string code), ("issue", w i)]
  have hcode := hstart.need "code" (by simp) (by simp) (text_string code)
  have hissue := hcode.need "issue" (by simp) (by simp) (Issue.read_form hw hfits)
  exact hissue.read_object

theorem Question.decodeFront_sent {text : String} (hw : w ∈ Issue.forms) (hfits : i.Fits)
    (ht : (sent (w i) user useAi).IsText text) :
    Json.decodeFront Question.read text.toUTF8 = .ok ⟨i, user, useAi⟩ := by
  have hplain : (sent (w i) user useAi).isPlain = true := by
    simp [sent, isPlain, membersPlain, Issue.isPlain_form hw hfits]
  rw [decodeFront_written Question.read hplain ht, read_sent hw hfits]

theorem decodeFront_sentCodeIssue {text : String} (hw : w ∈ Issue.forms) (hfits : i.Fits)
    (ht : (sentCodeIssue code (w i)).IsText text) :
    Json.decodeFront readCodeIssue text.toUTF8 = .ok (code, i) := by
  have hplain : (sentCodeIssue code (w i)).isPlain = true := by
    simp [sentCodeIssue, isPlain, membersPlain, Issue.isPlain_form hw hfits]
  rw [decodeFront_written readCodeIssue hplain ht, readCodeIssue_sent hw hfits]

/-- A request with a value as its body is read as that value. -/
theorem Service.readJson_ok {s : Service} {r : Http.Request} {read : Decode α} {a : α}
    {bytes : ByteArray} (hjson : r.isJson) (hbody : s.body r = .ok bytes)
    (hread : Json.decodeFront read bytes = .ok a) : s.readJson read r = .ok a := by
  simp [Service.readJson, hjson, hbody, hread, bind, Except.bind, pure, Except.pure]

/-! ### All forms -/

/-- **Every written form is read back.** An issue is the same after it was written, shown or sent
back under either name of its category; so are the reports and reviews that it is part of, and the
requests that ask about it. -/
theorem forms_read_back {w : Issue → Json} (hw : w ∈ Issue.forms) :
    (∀ i : Issue, i.Fits → ∀ text, (w i).IsText text → Json.decode Issue.read text = .ok i) ∧
    (∀ r : Report, r.Fits → ∀ text, (r.encode w).IsText text →
      Json.decode Report.read text = .ok r) ∧
    (∀ r : Review, r.Fits → ∀ text, (Json.object (r.members w)).IsText text →
      Json.decode Review.read text = .ok r) ∧
    (∀ p : Profile, p.Storable → ∀ text, p.toJson.IsText text →
      Json.decode Profile.read text = .ok p) ∧
    ∀ i : Issue, i.Fits → ∀ (s : Service) (r : Http.Request) (text : String), r.isJson →
      s.body r = .ok text.toUTF8 →
      (∀ user useAi, (Question.sent (w i) user useAi).IsText text →
        s.readJson Question.read r = .ok ⟨i, user, useAi⟩) ∧
      ∀ code, (sentCodeIssue code (w i)).IsText text →
        s.readJson readCodeIssue r = .ok (code, i) := by
  refine ⟨fun i hi text ht => ?_, fun r hr text ht => ?_, fun r hr text ht => ?_,
    fun p hp text ht => Profile.decode_toJson hp ht, fun i hi s r text hjson hbody => ⟨?_, ?_⟩⟩
  · rw [decode_written Issue.read (Issue.isPlain_form hw hi) ht, Issue.read_form hw hi]
  · rw [decode_written Report.read (Report.isPlain_encode hw hr) ht, Report.read_encode hw hr]
  · rw [decode_written Review.read (Review.isPlain_members hw hr) ht, Review.read_members hw hr]
  · exact fun user useAi ht =>
      Service.readJson_ok hjson hbody (Question.decodeFront_sent hw hi ht)
  · exact fun code ht => Service.readJson_ok hjson hbody (decodeFront_sentCodeIssue hw hi ht)

/-- An issue whose texts need escapes of every kind. -/
def awkward : Issue :=
  ⟨.error, "a\"b\\.py", 4294967295, "tab\t, bell\u0007 and clef 𝄞", "F401", .ruff, some "\n", none,
    some "", some 0⟩

/-- A learner who met one rule and found its explanation helpful. -/
def helped : Profile :=
  ⟨"ana", .beginner, ["lists"], [], [("E501", 1)], -5, ["code_master", "quick_learner"], true,
    [⟨"E501", true, .beginner, ⟨1700000000, 123000000⟩⟩]⟩

/-- A question about the awkward issue as it was shown, its category under the other name. -/
def awkwardQuestion : Http.Request :=
  ⟨"POST", "/api/v1/explanations/explain", "", [("content-type", "application/json")],
    (Question.sent (retyped awkward.view) "ana" true).compact.toUTF8⟩

theorem fits_awkward : awkward.Fits :=
  ⟨by decide, fun n hn => by simp [awkward] at hn; omega⟩

theorem storable_helped : helped.Storable where
  concepts := by decide
  weakAreas := by decide
  achievements := by decide
  seen := by decide
  counts := by decide
  points := by decide
  times := by decide +kernel

theorem forms_read_back_awkward : (fun i => retyped i.view) ∈ Issue.forms ∧ awkward.Fits ∧
    helped.Storable ∧ Json.decode Issue.read (retyped awkward.view).compact = .ok awkward ∧
    Json.decode Report.read ((Report.ok [awkward]).encode fun i => retyped i.view).pretty =
      .ok (.ok [awkward]) ∧
    Json.decode Profile.read helped.toJson.pretty = .ok helped ∧
    quietService.readJson Question.read awkwardQuestion = .ok ⟨awkward, "ana", true⟩ := by
  have hform : (fun i => retyped i.view) ∈ Issue.forms := by simp [Issue.forms]
  obtain ⟨hissue, hreport, -, hprofile, hposted⟩ := forms_read_back hform
  have hreportFits : (Report.ok [awkward]).Fits := by
    simp [Report.Fits, Report.ok, fits_awkward]
  have hbody : quietService.body awkwardQuestion =
      .ok (Question.sent (retyped awkward.view) "ana" true).compact.toUTF8 := by
    have hsmall : ¬ quietService.settings.server.uploadLimit < awkwardQuestion.body.size := by
      decide +kernel
    rw [Service.body, if_neg hsmall, awkwardQuestion]
  have hjson : awkwardQuestion.isJson := by decide +kernel
  exact ⟨hform, fits_awkward, storable_helped, hissue _ fits_awkward _ (.inl rfl),
    hreport _ hreportFits _ (.inr rfl), hprofile _ storable_helped _ (.inr rfl),
    (hposted _ fits_awkward quietService _ _ hjson hbody).1 "ana" true (.inl rfl)⟩

end ReviewMentor
