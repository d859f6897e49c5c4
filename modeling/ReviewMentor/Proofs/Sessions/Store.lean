import ReviewMentor.Proofs.Effects
import ReviewMentor.Service.Analysis

/-!
# The store of sessions

What a store knows of a session after another review was stored, and what recording a new look at a
file does to a workplace.
-/

namespace ReviewMentor

open Effect

namespace SessionStore

variable {s : SessionStore} {id other : String} {r : Review} {x : Session}

theorem mem_of_find? (h : s.find? id = some x) : x ∈ s.live ∧ x.id = id :=
  ⟨List.mem_of_find?_eq_some h, by simpa using List.find?_some h⟩

theorem find_eq_ok : s.find id = .ok x ↔ s.find? id = some x := by
  unfold find
  rcases s.find? id with _ | y <;> simp

theorem find?_setResult :
    (s.setResult id r).find? other =
      (s.find? other).map fun x => if x.id = id then { x with result := some r } else x := by
  unfold find? setResult
  rw [List.find?_map]
  congr 1
  apply congrArg (fun p => s.live.find? p)
  funext x
  by_cases hx : x.id = id <;> simp [hx]

theorem find?_setResult_of_ne (h : other ≠ id) :
    (s.setResult id r).find? other = s.find? other := by
  rw [find?_setResult]
  rcases hx : s.find? other with _ | x
  · rfl
  · have hne : x.id ≠ id := (mem_of_find? hx).2 ▸ h
    simp [hne]

theorem result_eq_ok {known? : Option Review} :
    s.result id = .ok known? ↔ ∃ x, s.find? id = some x ∧ x.result = known? := by
  unfold result find
  rcases s.find? id with _ | x <;> simp [Except.map]

theorem result_setResult (h : s.find? id = some x) :
    (s.setResult id r).result id = .ok (some r) := by
  have hid : x.id = id := (mem_of_find? h).2
  rw [result_eq_ok]
  exact ⟨{ x with result := some r }, by simp [find?_setResult, h, hid], rfl⟩

end SessionStore

/-! ### Recording -/

namespace SessionWork

variable {α : Type} {p : Workplace} {id : String}

theorem after_ask (f : SessionStore → Except SessionError α) : after (ask f) p = p := rfl

theorem outcome_ask (f : SessionStore → Except SessionError α) :
    outcome (ask f) p = f p.sessions := rfl

theorem after_attach (r : Review) {x : Session} (h : p.sessions.find? id = some x) :
    after (attach id r) p = { p with sessions := p.sessions.setResult id r } ∧
      outcome (attach id r) p = .ok () := by
  have hfind : outcome (ask (·.find id)) p = .ok x := by
    rw [outcome_ask, SessionStore.find, h]
  unfold attach
  rw [after_bind_ok hfind, outcome_bind_ok hfind]
  exact ⟨rfl, rfl⟩

/-- A review is changed where it is known; nothing else is changed. -/
theorem after_update (change : Review → Review) :
    after (update id change) p =
      match p.sessions.result id with
      | .ok (some r) => { p with sessions := p.sessions.setResult id (change r) }
      | _ => p := by
  unfold update
  rcases hx : p.sessions.find? id with _ | x
  · have hfind : outcome (ask (·.find id)) p = .error (.notFound id) := by
      rw [outcome_ask, SessionStore.find, hx]
    rw [after_bind_error hfind, SessionStore.result, SessionStore.find, hx]
    rfl
  · have hfind : outcome (ask (·.find id)) p = .ok x := by
      rw [outcome_ask, SessionStore.find, hx]
    rw [after_bind_ok hfind, SessionStore.result, SessionStore.find, hx]
    rcases hr : x.result with _ | r
    · simp [Except.map, hr, after_ask]
    · obtain ⟨hafter, houtcome⟩ := after_attach (change r) hx
      simp only [after_ask, Except.map, hr]
      rw [after_bind_ok houtcome, hafter]
      rfl

end SessionWork

/-- A new look at a file that succeeded changes the review of its session where there is one; one
that failed changes nothing. -/
theorem Service.after_record (session file : String) (level : Level) (report : Report)
    (p : Workplace) :
    after (Service.record session file level report) p =
      match report.success, p.sessions.result session with
      | true, .ok (some r) =>
        { p with sessions :=
          p.sessions.setResult session (r.replaceFileIssues file report.issues) }
      | _, _ => p := by
  unfold Service.record
  rcases hs : report.success with _ | _
  · simp only [Bool.false_eq_true, if_false]
    rcases hr : p.sessions.result session with e | known?
    · rw [after_bind_error (by rw [SessionWork.outcome_ask, hr]), SessionWork.after_ask]
    · rw [after_bind_ok (by rw [SessionWork.outcome_ask, hr]), SessionWork.after_ask]
      rfl
  · simp only [if_true]
    rw [after_bind]
    split <;> simp only [after_pure, SessionWork.after_update] <;>
      rcases p.sessions.result session with e | (_ | r) <;> rfl

end ReviewMentor
