import ReviewMentor.Learner.Profile
import ReviewMentor.Proofs.Json.Records
import ReviewMentor.Proofs.Sorted
import ReviewMentor.Review

/-!
# Written issues, reports, reviews and profiles

Issues, reports and reviews are read from what is written of them, with or without the summaries
that clients are shown and with either name of the category, and profiles are read from what is
stored of them.
-/

namespace ReviewMentor

open Json

variable {α β : Type}

/-! ### Words -/

theorem Category.named?_name (c : Category) : Category.named? c.name = some c := by
  cases c <;> decide

theorem Analyzer.named?_name (a : Analyzer) : Analyzer.named? a.name = some a := by
  cases a <;> decide

theorem ProjectKind.named?_name (k : ProjectKind) : ProjectKind.named? k.name = some k := by
  cases k <;> decide

theorem Level.named?_name (l : Level) : Level.named? l.name = some l := by
  cases l <;> decide

theorem read_category (c : Category) : Category.read (draftOf c.toJson) = .ok c :=
  word_string c.named?_name

theorem read_analyzer (a : Analyzer) : Analyzer.read (draftOf a.toJson) = .ok a :=
  word_string a.named?_name

theorem read_kind (k : ProjectKind) : ProjectKind.read (draftOf k.toJson) = .ok k :=
  word_string k.named?_name

theorem read_level (l : Level) : Level.read (draftOf l.toJson) = .ok l :=
  word_string l.named?_name

/-! ### Issues -/

/-- The other name of the category in the place of `category`. -/
def retypedName (name : String) : String := if name = "category" then "type" else name

/-- An object with its category under the other name. -/
def retyped : Json → Json
  | .object members => .object (members.map fun m => (retypedName m.1, m.2))
  | j => j

namespace Issue

/-- The numbers of an issue have 32 bits. -/
structure Fits (i : Issue) : Prop where
  line : i.line < 2 ^ 32
  complexity : ∀ n ∈ i.complexity, n < 2 ^ 32

/-- The forms in which an issue is written and sent back. -/
def forms : List (Issue → Json) :=
  [Issue.toJson, Issue.view, fun i => retyped i.toJson, fun i => retyped i.view]

/-- The members that only some issues have. -/
def extras (i : Issue) : List (String × Json) :=
  optionalMember "severity" .string i.severity ++
    optionalMember "confidence" .string i.confidence ++
    optionalMember "url" .string i.url ++ optionalMember "complexity" .nat i.complexity

/-- The members of an issue whose category has the given name. -/
def membersAs (name : String) (i : Issue) : List (String × Json) :=
  [(name, i.category.toJson), ("file", .string i.file), ("line", .nat i.line),
    ("message", .string i.message), ("code", .string i.code),
    ("source_tool", i.analyzer.toJson)] ++ i.extras

variable {encode : α → Json} {o : Option α} {name : String} {names : List String} {i : Issue}
  {more : List (String × Json)}

theorem map_optionalMember (h : name ≠ "category") :
    (optionalMember name encode o).map (fun m => (retypedName m.1, m.2)) =
      optionalMember name encode o := by
  cases o <;> simp [optionalMember, retypedName, h]

theorem retyped_members (i : Issue) :
    i.members.map (fun m => (retypedName m.1, m.2)) = i.membersAs "type" := by
  simp only [Issue.members, membersAs, extras, List.map_append, map_optionalMember, ne_eq,
    String.reduceEq, not_false_eq_true, List.append_assoc]
  simp [retypedName]

theorem members_eq (i : Issue) : i.members = i.membersAs "category" := by
  simp [Issue.members, membersAs, extras]

/-- Every form has the members of an issue, the category under one of its names, and perhaps the
summary. -/
theorem exists_membersAs {w : Issue → Json} (h : w ∈ forms) (i : Issue) :
    ∃ name more, (name = "category" ∨ name = "type") ∧
      (more = [] ∨ more = [("flamingo_message", .string i.summary)]) ∧
      w i = .object (i.membersAs name ++ more) := by
  simp only [forms, List.mem_cons, List.not_mem_nil, or_false] at h
  rcases h with rfl | rfl | rfl | rfl
  · exact ⟨"category", [], .inl rfl, .inl rfl, by simp [Issue.toJson, members_eq]⟩
  · exact ⟨"category", _, .inl rfl, .inr rfl, by rw [Issue.view, members_eq]⟩
  · refine ⟨"type", [], .inr rfl, .inl rfl, ?_⟩
    simp only [Issue.toJson, retyped, retyped_members, List.append_nil]
  · refine ⟨"type", _, .inr rfl, .inr rfl, ?_⟩
    simp only [Issue.view, retyped, List.map_append, retyped_members]
    rfl

theorem filter_optionalMember : (optionalMember name encode o).filter (·.1 ∈ names) =
    if name ∈ names then optionalMember name encode o else [] := by
  cases o <;> simp [optionalMember, List.filter_cons]

/-- The members of the required fields and of the others, whatever else a form has. -/
theorem filter_membersAs (name : String) (names : List String) (i : Issue)
    (hmore : more = [] ∨ more = [("flamingo_message", .string i.summary)])
    (hnames : "flamingo_message" ∉ names) : (i.membersAs name ++ more).filter (·.1 ∈ names) =
      [(name, i.category.toJson), ("file", .string i.file), ("line", .nat i.line),
        ("message", .string i.message), ("code", .string i.code),
        ("source_tool", i.analyzer.toJson)].filter (·.1 ∈ names) ++
      (if "severity" ∈ names then optionalMember "severity" .string i.severity else []) ++
      (if "confidence" ∈ names then optionalMember "confidence" .string i.confidence else []) ++
      (if "url" ∈ names then optionalMember "url" .string i.url else []) ++
      (if "complexity" ∈ names then optionalMember "complexity" .nat i.complexity else []) := by
  have hnone : more.filter (·.1 ∈ names) = [] := by
    rcases hmore with rfl | rfl <;> simp [hnames]
  simp only [membersAs, extras, List.filter_append, filter_optionalMember, hnone, List.append_nil,
    List.append_assoc]

end Issue

/-- A field that is left out where it has no value. -/
theorem Json.Record.Gives.optional {r : Record (Option α → β)} {f : Option α → β}
    {members : List (String × Json)} {read : Decode α} {encode : α → Json} (name : String)
    (o : Option α) (hr : r.Gives members f) (hfree : r.Ignores name)
    (hmember : members.filter (·.1 ∈ [name]) = Issue.optionalMember name encode o)
    (hread : ∀ a ∈ o, read (draftOf (encode a)) = .ok a)
    (hvalue : ∀ a ∈ o, draftOf (encode a) ≠ .null) :
    (r.defaults name (Draft.nullable read) none).Gives members (f o) := by
  cases o with
  | none => exact hr.missing name none hfree hmember
  | some a => exact hr.defaults name none hfree hmember (nullable_some (hread a rfl) (hvalue a rfl))

namespace Issue

theorem gives_membersAs {i : Issue} {name : String} {more : List (String × Json)} (hfits : i.Fits)
    (hname : name = "category" ∨ name = "type")
    (hmore : more = [] ∨ more = [("flamingo_message", .string i.summary)]) :
    Issue.record.Gives (i.membersAs name ++ more) i := by
  have hfilter (names : List String) := filter_membersAs name names i hmore
  have hapart : name ≠ "file" ∧ name ≠ "line" ∧ name ≠ "message" ∧ name ≠ "code" ∧
      name ≠ "source_tool" ∧ name ≠ "severity" ∧ name ≠ "confidence" ∧ name ≠ "url" ∧
      name ≠ "complexity" := by
    rcases hname with rfl | rfl <;> decide
  have hstart := Record.gives_start Issue.mk (i.membersAs name ++ more)
  have hcategory := hstart.needs ["category", "type"] name (by simp)
    (by rw [hfilter _ (by simp)]; rcases hname with rfl | rfl <;> simp) (read_category i.category)
  have hfile := hcategory.need "file" (by simp)
    (by rw [hfilter _ (by simp)]; simp [hapart]) (text_string i.file)
  have hline := hfile.defaults "line" 0 (by simp)
    (by rw [hfilter _ (by simp)]; simp [hapart]) (natural_nat hfits.line)
  have hmessage := hline.need "message" (by simp)
    (by rw [hfilter _ (by simp)]; simp [hapart]) (text_string i.message)
  have hcode := hmessage.need "code" (by simp)
    (by rw [hfilter _ (by simp)]; simp [hapart]) (text_string i.code)
  have htool := hcode.need "source_tool" (by simp)
    (by rw [hfilter _ (by simp)]; simp [hapart]) (read_analyzer i.analyzer)
  have hseverity := htool.optional "severity" i.severity (by simp)
    (by rw [hfilter _ (by simp)]; simp [hapart]) (fun s _ => text_string s) (by simp [draftOf])
  have hconfidence := hseverity.optional "confidence" i.confidence (by simp)
    (by rw [hfilter _ (by simp)]; simp [hapart]) (fun s _ => text_string s) (by simp [draftOf])
  have hurl := hconfidence.optional "url" i.url (by simp)
    (by rw [hfilter _ (by simp)]; simp [hapart]) (fun s _ => text_string s) (by simp [draftOf])
  exact hurl.optional "complexity" i.complexity (by simp)
    (by rw [hfilter _ (by simp)]; simp [hapart]) (fun n hn => natural_nat (hfits.complexity n hn))
    (by simp [draftOf, nat, int])

variable {w : Issue → Json}

/-- An issue is read from every one of its forms. -/
theorem read_form (hw : w ∈ forms) (hfits : i.Fits) : Issue.read (draftOf (w i)) = .ok i := by
  obtain ⟨name, more, hname, hmore, hform⟩ := exists_membersAs hw i
  rw [hform]
  exact (gives_membersAs hfits hname hmore).read_object

theorem membersPlain_append (members others : List (String × Json)) :
    membersPlain (members ++ others) = (membersPlain members && membersPlain others) := by
  induction members with
  | nil => rfl
  | cons m members ih => simp [membersPlain, ih, Bool.and_assoc]

theorem isPlain_nat {n : Nat} (h : n < 2 ^ 32) : (Json.nat n).isPlain = true :=
  decide_eq_true (isWhole_ofNat (by omega))

theorem membersPlain_optionalMember (h : ∀ a ∈ o, (encode a).isPlain = true) :
    membersPlain (optionalMember name encode o) = true := by
  cases o with
  | none => rfl
  | some a => simp [optionalMember, membersPlain, h a rfl]

theorem isPlain_form (hw : w ∈ forms) (hfits : i.Fits) : (w i).isPlain = true := by
  obtain ⟨name, more, -, hmore, hform⟩ := exists_membersAs hw i
  have hextras : membersPlain i.extras = true := by
    simp only [extras, membersPlain_append, Bool.and_eq_true]
    exact ⟨⟨⟨membersPlain_optionalMember fun _ _ => rfl,
      membersPlain_optionalMember fun _ _ => rfl⟩, membersPlain_optionalMember fun _ _ => rfl⟩,
      membersPlain_optionalMember fun n hn => isPlain_nat (hfits.complexity n hn)⟩
  have hline := isPlain_nat hfits.line
  rw [hform]
  rcases hmore with rfl | rfl <;>
    simp [isPlain, membersAs, membersPlain_append, membersPlain, hextras, hline, Category.toJson,
      Analyzer.toJson]

end Issue

/-! ### Reports and reviews -/

variable {w : Issue → Json}

/-- All issues of a report fit. -/
def Report.Fits (r : Report) : Prop := ∀ i ∈ r.issues, i.Fits

theorem Report.read_encode {r : Report} (hw : w ∈ Issue.forms) (hfits : r.Fits) :
    Report.read (draftOf (r.encode w)) = .ok r := by
  have hstart := Record.gives_start Report.mk [("success", .bool r.success),
    ("issues", .array (r.issues.map w)), ("error", .optional .string r.error)]
  have hsuccess := hstart.need "success" (by simp) (by simp) (truth_bool r.success)
  have hissues := hsuccess.defaults "issues" [] (by simp) (by simp)
    (list_array fun i hi => Issue.read_form hw (hfits i hi))
  have herror := hissues.defaults "error" none (by simp) (by simp)
    (nullable_optional r.error (fun s _ => text_string s) (by simp [draftOf]))
  exact herror.read_object

theorem allPlain_map {encode : α → Json} {as : List α}
    (h : ∀ a ∈ as, (encode a).isPlain = true) : allPlain (as.map encode) = true := by
  induction as with
  | nil => rfl
  | cons a as ih => simp [allPlain, h a (by simp), ih fun b hb => h b (by simp [hb])]

theorem Report.isPlain_encode {r : Report} (hw : w ∈ Issue.forms) (hfits : r.Fits) :
    (r.encode w).isPlain = true := by
  have hissues : allPlain (r.issues.map w) = true :=
    allPlain_map fun i hi => Issue.isPlain_form hw (hfits i hi)
  have herror : (Json.optional .string r.error).isPlain = true := by
    cases r.error <;> rfl
  simp [Report.encode, isPlain, membersPlain, hissues, herror]

/-- All issues of a review fit. -/
structure Review.Fits (r : Review) : Prop where
  security : r.security.Fits
  main : r.main.Fits
  complexity : r.complexity.Fits

theorem Review.read_members {r : Review} (hw : w ∈ Issue.forms) (hfits : r.Fits) :
    Review.read (draftOf (.object (r.members w))) = .ok r := by
  have hstart := Record.gives_start Review.mk (r.members w)
  have hkind := hstart.need "project_type" (by simp) (by simp [members])
    (read_kind r.kind)
  have hlinter := hkind.need "linter" (by simp) (by simp [members])
    (read_analyzer r.linter)
  have htool := hlinter.need "complexity" (by simp) (by simp [members])
    (read_analyzer r.complexityTool)
  have hlevel := htool.need "experience_level" (by simp) (by simp [members])
    (read_level r.level)
  have hsecurity := hlevel.need "security_scan" (by simp) (by simp [members])
    (Report.read_encode hw hfits.security)
  have hmain := hsecurity.need "main_analysis" (by simp) (by simp [members])
    (Report.read_encode hw hfits.main)
  have hcomplexity := hmain.need "complexity_analysis" (by simp) (by simp [members])
    (Report.read_encode hw hfits.complexity)
  exact hcomplexity.read_object

theorem Review.isPlain_members {r : Review} (hw : w ∈ Issue.forms) (hfits : r.Fits) :
    (Json.object (r.members w)).isPlain = true := by
  simp [isPlain, members, membersPlain, Report.isPlain_encode hw hfits.security,
    Report.isPlain_encode hw hfits.main, Report.isPlain_encode hw hfits.complexity,
    ProjectKind.toJson, Analyzer.toJson, Level.toJson]

/-! ### Profiles -/

/-- What can be stored of a profile: its sets and counters are in order, its numbers fit, and its
moments are read as they are written. -/
structure Profile.Storable (p : Profile) : Prop where
  concepts : Ordered.Sorted p.concepts
  weakAreas : Ordered.Sorted p.weakAreas
  achievements : Ordered.Sorted p.achievements
  seen : Ordered.Sorted (Ordered.keys p.seen)
  counts : ∀ s ∈ p.seen, s.2 < 2 ^ 32
  points : -2 ^ 63 ≤ p.points ∧ p.points < 2 ^ 63
  times : ∀ f ∈ p.feedback, Timestamp.parse? f.time.render = some f.time

theorem Feedback.read_toJson {f : Feedback} (h : Timestamp.parse? f.time.render = some f.time) :
    Feedback.record.read (draftOf f.toJson) = .ok f := by
  have htime : Feedback.readTime (draftOf (.string f.time.render)) = .ok f.time := by
    simp [Feedback.readTime, text_string, bind, Except.bind, h, pure, Except.pure]
  have hstart := Record.gives_start Feedback.mk [("issue_code", .string f.code),
    ("helpful", .bool f.helpful), ("level", f.level.toJson), ("timestamp", .string f.time.render)]
  have hcode := hstart.need "issue_code" (by simp) (by simp) (text_string f.code)
  have hhelpful := hcode.need "helpful" (by simp) (by simp) (truth_bool f.helpful)
  have hlevel := hhelpful.need "level" (by simp) (by simp) (read_level f.level)
  have htimes := hlevel.need "timestamp" (by simp) (by simp) htime
  exact htimes.read_object

namespace Profile

theorem readSet_strings {names : List String} (h : Ordered.Sorted names) :
    readSet (draftOf (.strings names)) = .ok names := by
  rw [readSet, list_strings, Except.map, h.ofList_eq]

theorem readSeen_object {p : Profile} (h : p.Storable) :
    readSeen (draftOf (.object (p.seen.map fun s => (s.1, .nat s.2)))) = .ok p.seen := by
  rw [readSeen, table_object fun s hs => natural_nat (h.counts s hs), Except.map,
    h.seen.ofPairs_eq]

/-- The members of a stored profile. -/
def stored (p : Profile) : List (String × Json) :=
  [("user_id", .string p.user), ("experience_level", p.level.toJson),
    ("known_concepts", .strings p.concepts), ("weak_areas", .strings p.weakAreas),
    ("seen_issues", .object (p.seen.map fun s => (s.1, .nat s.2))),
    ("flamingo_points", .int p.points), ("achievements", .strings p.achievements),
    ("quiz_completed", .bool p.quizDone), ("feedback_log", .array (p.feedback.map Feedback.toJson))]

theorem isWhole_points {p : Profile} (h : p.Storable) : IsWhole p.points := by
  have hpoints := h.points
  simp only [IsWhole, wholeRange]
  omega

theorem read_toJson {p : Profile} (h : p.Storable) : Profile.read (draftOf p.toJson) = .ok p := by
  have hstart := Record.gives_start Profile.mk p.stored
  have huser := hstart.defaults "user_id" "" (by simp) (by simp [stored])
    (text_string p.user)
  have hlevel := huser.defaults "experience_level" Level.default (by simp)
    (by simp [stored]) (read_level p.level)
  have hconcepts := hlevel.defaults "known_concepts" [] (by simp)
    (by simp [stored]) (readSet_strings h.concepts)
  have hweak := hconcepts.defaults "weak_areas" [] (by simp)
    (by simp [stored]) (readSet_strings h.weakAreas)
  have hseen := hweak.defaults "seen_issues" [] (by simp)
    (by simp [stored]) (readSeen_object h)
  have hpoints := hseen.defaults "flamingo_points" 0 (by simp)
    (by simp [stored]) (whole_int (isWhole_points h) h.points.1 (Int.le_sub_one_of_lt h.points.2))
  have hachievements := hpoints.defaults "achievements" [] (by simp)
    (by simp [stored]) (readSet_strings h.achievements)
  have hquiz := hachievements.defaults "quiz_completed" false (by simp)
    (by simp [stored]) (truth_bool p.quizDone)
  have hfeedback := hquiz.defaults "feedback_log" [] (by simp)
    (by simp [stored]) (list_array fun f hf => Feedback.read_toJson (h.times f hf))
  exact hfeedback.read_object

theorem membersPlain_map {encode : α → Json} {entries : List (String × α)}
    (h : ∀ e ∈ entries, (encode e.2).isPlain = true) :
    membersPlain (entries.map fun e => (e.1, encode e.2)) = true := by
  induction entries with
  | nil => rfl
  | cons e entries ih => simp [membersPlain, h e (by simp), ih fun d hd => h d (by simp [hd])]

theorem isPlain_toJson {p : Profile} (h : p.Storable) : p.toJson.isPlain = true := by
  have hseen : membersPlain (p.seen.map fun s => (s.1, .nat s.2)) = true :=
    membersPlain_map fun s hs => Issue.isPlain_nat (h.counts s hs)
  have hstrings (names : List String) : (Json.strings names).isPlain = true :=
    allPlain_map fun _ _ => rfl
  have hpoints : (Json.int p.points).isPlain = true := decide_eq_true (isWhole_points h)
  have hfeedback : allPlain (p.feedback.map Feedback.toJson) = true :=
    allPlain_map fun f _ => by simp [Feedback.toJson, isPlain, membersPlain, Level.toJson]
  simp [toJson, isPlain, membersPlain, hseen, hstrings, hpoints, hfeedback, Level.toJson]

/-- **A stored profile is read back.** -/
theorem decode_toJson {p : Profile} {text : String} (h : p.Storable) (ht : p.toJson.IsText text) :
    Json.decode Profile.read text = .ok p := by
  rw [decode_written Profile.read (isPlain_toJson h) ht, read_toJson h]

end Profile

end ReviewMentor
