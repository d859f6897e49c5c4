import ReviewMentor.Findings.Basic
import ReviewMentor.Proofs.Effects

/-!
# What analyzers say

The documents that the analyzers print, told on their own: which fields a record has to have and of
what kind, where the records stand in a document, and which issue a record is about.
-/

namespace ReviewMentor

open Effect

/-! ### Fields -/

/-- What a field has to hold: a text, or a whole number of at most 32 bits with a lower bound. -/
inductive FieldKind where
  | text
  | whole (least : Nat)
deriving DecidableEq, Repr

/-- Whether a value is of a kind. -/
def FieldKind.holds : FieldKind → Json → Bool
  | text, .string _ => true
  | whole least, .number (.int n) => least ≤ n && n < 2 ^ 32
  | _, _ => false

namespace Json

/-- The value that names lead to, one below the other. -/
def at? : List String → Json → Option Json
  | [], value => some value
  | name :: rest, value => (value.member? name).bind (at? rest)

/-- The text of a field, or another text if the field holds none. -/
def textOr (name otherwise : String) (record : Json) : String :=
  match record.at? [name] with
  | some (.string s) => s
  | _ => otherwise

/-- The number of a field, or zero if the field holds none of at most 32 bits. -/
def wholeOr0 (name : String) (record : Json) : Nat :=
  match record.at? [name] with
  | some (.number (.int n)) => if 0 ≤ n ∧ n < 2 ^ 32 then n.toNat else 0
  | _ => 0

/-- The text of a field, if it holds one that is not empty. -/
def link? (name : String) (record : Json) : Option String :=
  if record.textOr name "" = "" then none else some (record.textOr name "")

end Json

namespace Analyzer

/-- The fields that a record of an analyzer has to have, each where names lead to. A block of
complexity one is trivial. -/
def required : Analyzer → List (List String × FieldKind)
  | ruff =>
    [(["filename"], .text), (["location", "row"], .whole 0), (["code"], .text),
      (["message"], .text)]
  | pylint =>
    [(["type"], .text), (["path"], .text), (["line"], .whole 0), (["message"], .text),
      (["message-id"], .text)]
  | bandit =>
    [(["filename"], .text), (["line_number"], .whole 0), (["issue_text"], .text),
      (["test_id"], .text), (["issue_severity"], .text), (["issue_confidence"], .text)]
  | radon => [(["complexity"], .whole 2)]

/-- Whether a record has all fields that it has to have. -/
def accepts (a : Analyzer) (record : Json) : Bool :=
  a.required.all fun f => (record.at? f.1).any f.2.holds

end Analyzer

/-! ### Documents -/

/-- What an analyzer found: a record, and the file that it stands under in the document, if records
stand under files there. -/
structure Finding where
  file : String
  record : Json

namespace Finding

/-- The findings of an array of records. -/
def listed (records : List Json) : List Finding := records.map fun record => ⟨"", record⟩

/-- The findings of an object of files; a file without an array has none. -/
def filed (files : List (String × Json)) : List Finding :=
  files.flatMap fun f => match f.2 with
    | .array blocks => blocks.map fun block => ⟨f.1, block⟩
    | _ => []

end Finding

namespace Analyzer

/-- The documents of an analyzer, and what it found. -/
inductive Prints : Analyzer → Json → List Finding → Prop where
  | ruff (records : List Json) : Prints ruff (.array records) (Finding.listed records)
  | pylint (records : List Json) : Prints pylint (.array records) (Finding.listed records)
  | bandit {members : List (String × Json)} {records : List Json}
      (results : (Json.object members).at? ["results"] = some (.array records)) :
      Prints bandit (.object members) (Finding.listed records)
  | radon (files : List (String × Json)) : Prints radon (.object files) (Finding.filed files)
  | encoded {text : String} {files : List (String × Json)}
      (inner : Json.parse? text = some (.object files)) :
      Prints radon (.string text) (Finding.filed files)

/-- An analyzer printed a document of its shape. -/
def Printed (a : Analyzer) (output : String) (findings : List Finding) : Prop :=
  ∃ document, Json.parse? output = some document ∧ a.Prints document findings

/-- The category of a rule of style or errors, told by its letter. -/
def letterCategory (code : String) : Category :=
  if code.toList.head? = some 'E' ∨ code.toList.head? = some 'F' then .error else .warning

/-- The categories of kinds of messages. -/
def kindCategories : List (String × Category) :=
  [("fatal", .error), ("error", .error), ("warning", .warning), ("convention", .convention),
    ("refactor", .refactor)]

/-- The issue that a finding is about, field by field. -/
inductive Tells (root : Root) : Analyzer → Finding → Issue → Prop where
  | ruff {f : Finding} {file code message : String} {line : Nat}
      (hfile : f.record.at? ["filename"] = some (.string file))
      (hline : f.record.at? ["location", "row"] = some (.nat line))
      (hcode : f.record.at? ["code"] = some (.string code))
      (hmessage : f.record.at? ["message"] = some (.string message)) :
      Tells root ruff f
        { category := letterCategory code, file := root.relative file, line, message, code
          analyzer := ruff, severity := none, confidence := none, url := f.record.link? "url"
          complexity := none }
  | pylint {f : Finding} {kind file message code : String} {line : Nat}
      (hkind : f.record.at? ["type"] = some (.string kind))
      (hfile : f.record.at? ["path"] = some (.string file))
      (hline : f.record.at? ["line"] = some (.nat line))
      (hmessage : f.record.at? ["message"] = some (.string message))
      (hcode : f.record.at? ["message-id"] = some (.string code)) :
      Tells root pylint f
        { category := (kindCategories.lookup (Text.lower kind)).getD .info
          file := root.relative file, line, message, code, analyzer := pylint, severity := none
          confidence := none, url := none, complexity := none }
  | bandit {f : Finding} {file message code severity confidence : String} {line : Nat}
      (hfile : f.record.at? ["filename"] = some (.string file))
      (hline : f.record.at? ["line_number"] = some (.nat line))
      (hmessage : f.record.at? ["issue_text"] = some (.string message))
      (hcode : f.record.at? ["test_id"] = some (.string code))
      (hseverity : f.record.at? ["issue_severity"] = some (.string severity))
      (hconfidence : f.record.at? ["issue_confidence"] = some (.string confidence)) :
      Tells root bandit f
        { category := .security, file := root.relative file, line, message, code
          analyzer := bandit, severity := some (Text.lower severity)
          confidence := some (Text.lower confidence), url := f.record.link? "more_info"
          complexity := none }
  | radon {f : Finding} {complexity : Nat}
      (hcomplexity : f.record.at? ["complexity"] = some (.nat complexity)) :
      Tells root radon f
        { category := .complexity, file := root.relative f.file
          line := f.record.wholeOr0 "lineno"
          message := Text.title (f.record.textOr "type" "item") ++ " '" ++
            f.record.textOr "name" "" ++ "' (complexity: " ++ toString complexity ++ ")"
          code := "RADON-" ++ f.record.textOr "rank" "U", analyzer := radon
          severity := some (if 10 < complexity then "high" else "medium")
          confidence := none, url := none, complexity := some complexity }

end Analyzer

/-! ### Reading fields -/

section Fields

variable {record : Json} {name s : String} {n : Nat} {way : List String}

@[simp] theorem Json.at?_single (name : String) (record : Json) :
    record.at? [name] = record.member? name := by
  cases h : record.member? name <;> simp [at?, h]

@[simp] theorem Json.at?_pair (outer inner : String) (record : Json) :
    record.at? [outer, inner] = (record.member? outer).bind (·.member? inner) := by
  rw [at?]
  exact congrArg _ (funext fun value => at?_single inner value)

theorem any_holds_text :
    (record.at? way).any FieldKind.text.holds = true ↔ ∃ s, record.at? way = some (.string s) := by
  rcases record.at? way with _ | value
  · simp
  · cases value <;> simp [FieldKind.holds]

theorem any_holds_whole (least : Nat) : (record.at? way).any (FieldKind.whole least).holds = true ↔
    ∃ n : Nat, record.at? way = some (.nat n) ∧ least ≤ n ∧ n < 2 ^ 32 := by
  constructor
  · intro h
    rcases hvalue : record.at? way with _ | value
    · rw [hvalue] at h
      exact absurd h (by simp)
    have hholds : (FieldKind.whole least).holds value = true := by simpa [hvalue] using h
    unfold FieldKind.holds at hholds
    split at hholds
    · contradiction
    · next m k hkind =>
      obtain rfl := FieldKind.whole.inj hkind
      rw [Bool.and_eq_true, decide_eq_true_eq, decide_eq_true_eq] at hholds
      obtain ⟨n, rfl⟩ := Int.eq_ofNat_of_zero_le (by omega : 0 ≤ k)
      exact ⟨n, rfl, by omega, by omega⟩
    · exact absurd hholds (by decide)
  · rintro ⟨n, hvalue, hleast, hn⟩
    rw [hvalue, Option.any_some, Json.nat, Json.int, FieldKind.holds, Bool.and_eq_true,
      decide_eq_true_eq, decide_eq_true_eq]
    omega

namespace Json

theorem small?_int (n : Int) :
    small? (.number (.int n)) = if 0 ≤ n ∧ n < 2 ^ 32 then some n.toNat else none := by
  by_cases hpos : 0 ≤ n
  · obtain ⟨n, rfl⟩ := Int.eq_ofNat_of_zero_le hpos
    have hnat : nat? (.number (.int n)) = some n := rfl
    rw [small?, hnat, Int.toNat_natCast, Option.filter_some]
    exact if_congr (by rw [decide_eq_true_eq]; omega) rfl rfl
  · obtain ⟨n, rfl⟩ := Int.eq_negSucc_of_lt_zero (Int.not_le.mp hpos)
    rw [if_neg (by omega)]
    rfl

theorem small?_eq_some {value : Json} : value.small? = some n ↔ value = .nat n ∧ n < 2 ^ 32 := by
  constructor
  · intro h
    rcases value with _ | _ | (m | _) | _ | _ | _
    case number.int =>
      rw [small?_int, Option.ite_none_right_eq_some, Option.some.injEq] at h
      obtain ⟨⟨hpos, hlt⟩, rfl⟩ := h
      exact ⟨by rw [nat, int, Int.toNat_of_nonneg hpos], by omega⟩
    all_goals exact absurd h (by simp [small?, nat?])
  · rintro ⟨rfl, hn⟩
    rw [nat, int, small?_int, if_pos ⟨by omega, by omega⟩, Int.toNat_natCast]

theorem field_eq_ok {value : Json} :
    record.field name = .ok value ↔ record.member? name = some value ∧ value ≠ .null := by
  unfold field
  split
  · next h => simp [h]
  · next h => simp +contextual [h, eq_comm]
  · next v hne h =>
    rw [h, Except.ok.injEq, Option.some.injEq]
    exact ⟨fun heq => ⟨heq, heq ▸ hne⟩, And.left⟩

theorem textField_eq_ok :
    record.textField name = .ok s ↔ record.member? name = some (.string s) := by
  constructor
  · intro h
    obtain ⟨value, hvalue, h⟩ := ok_of_bind h
    obtain ⟨hmember, -⟩ := field_eq_ok.mp hvalue
    rcases value with _ | _ | _ | text | _ | _
    case string =>
      obtain rfl := Except.ok.inj h
      exact hmember
    all_goals exact absurd h (by simp [text?])
  · intro h
    have hfield := field_eq_ok.mpr ⟨h, by simp⟩
    rw [textField, hfield]
    rfl

theorem smallField_eq_ok :
    record.smallField name = .ok n ↔ record.member? name = some (.nat n) ∧ n < 2 ^ 32 := by
  constructor
  · intro h
    obtain ⟨value, hvalue, h⟩ := ok_of_bind h
    obtain ⟨hmember, -⟩ := field_eq_ok.mp hvalue
    split at h
    · next m hsmall =>
      obtain rfl := Except.ok.inj h
      obtain ⟨rfl, hm⟩ := small?_eq_some.mp hsmall
      exact ⟨hmember, hm⟩
    · exact absurd h (by simp)
  · rintro ⟨hmember, hn⟩
    have hfield := field_eq_ok.mpr ⟨hmember, by simp [nat, int]⟩
    have hsmall := small?_eq_some.mpr ⟨rfl, hn⟩
    rw [smallField, hfield]
    simp only [bind, Except.bind, hsmall]

theorem textOr_eq (name otherwise : String) (record : Json) :
    ((record.member? name).bind text?).getD otherwise = record.textOr name otherwise := by
  rw [textOr, at?_single]
  rcases record.member? name with _ | value
  · rfl
  · cases value <;> rfl

theorem link?_eq (name : String) (record : Json) :
    record.textField? name = record.link? name := by
  rw [textField?, link?, ← textOr_eq]
  rcases (record.member? name).bind text? with _ | s
  · rfl
  · by_cases hs : s = "" <;> simp [hs]

theorem wholeOr0_eq (name : String) (record : Json) :
    ((record.member? name).bind small?).getD 0 = record.wholeOr0 name := by
  rw [wholeOr0, at?_single]
  rcases record.member? name with _ | value
  · rfl
  rw [Option.bind_some]
  rcases value with _ | _ | (n | _) | _ | _ | _
  case number.int =>
    rw [small?_int]
    dsimp only
    split <;> rfl
  all_goals rfl

end Json

end Fields

/-! ### Records -/

section Records

variable {a : Analyzer} {root : Root} {f : Finding} {i : Issue} {record : Json}
  {way : List String} {n : Nat}

namespace Analyzer

theorem accepts_iff : a.accepts record = true ↔
    ∀ f ∈ a.required, (record.at? f.1).any f.2.holds = true :=
  List.all_eq_true

theorem text_of_accepts (way : List String) (h : a.accepts record = true)
    (hway : (way, FieldKind.text) ∈ a.required) : ∃ s, record.at? way = some (.string s) :=
  any_holds_text.mp (accepts_iff.mp h _ hway)

theorem whole_of_accepts (way : List String) (least : Nat) (h : a.accepts record = true)
    (hway : (way, FieldKind.whole least) ∈ a.required) :
    ∃ n : Nat, record.at? way = some (.nat n) ∧ least ≤ n ∧ n < 2 ^ 32 :=
  (any_holds_whole least).mp (accepts_iff.mp h _ hway)

/-- A number in a record that is accepted keeps to the bounds of its field. -/
theorem bounds_of_accepts (least : Nat) (h : a.accepts record = true)
    (hn : record.at? way = some (.nat n)) (hway : (way, FieldKind.whole least) ∈ a.required) :
    least ≤ n ∧ n < 2 ^ 32 := by
  obtain ⟨m, hm, hbounds⟩ := whole_of_accepts way least h hway
  obtain rfl : n = m := by
    rw [hn, Option.some.injEq, Json.nat, Json.int, Json.nat, Json.int] at hm
    injection hm with hm
    injection hm with hm
    exact Int.ofNat.inj hm
  exact hbounds

end Analyzer

theorem Ruff.category_eq (code : String) : category code = Analyzer.letterCategory code := by
  unfold category Analyzer.letterCategory
  rcases code.toList with _ | ⟨letter, rest⟩
  · rfl
  · split <;> simp_all

theorem Pylint.category_eq (kind : String) :
    category kind = (Analyzer.kindCategories.lookup (Text.lower kind)).getD .info := by
  unfold category
  generalize Text.lower kind = word
  split <;> first | rfl | skip
  next hfatal herror hwarning hconvention hrefactor =>
    have hnone : Analyzer.kindCategories.lookup word = none := by
      simpa [Analyzer.kindCategories, List.lookup_eq_none_iff] using
        ⟨hfatal, herror, hwarning, hconvention, hrefactor⟩
    rw [hnone]
    rfl

/-- A record of ruff becomes an issue just if it is accepted. -/
theorem Ruff.issue_eq_ok : Ruff.issue root f.record = .ok i ↔
    Analyzer.ruff.accepts f.record = true ∧ Analyzer.ruff.Tells root f i := by
  constructor
  · intro h
    unfold Ruff.issue at h
    obtain ⟨file, hfile, h⟩ := ok_of_bind h
    split at h
    · next location hlocation =>
      obtain ⟨line, hline, h⟩ := ok_of_bind h
      obtain ⟨code, hcode, h⟩ := ok_of_bind h
      obtain ⟨message, hmessage, h⟩ := ok_of_bind h
      obtain rfl := Except.ok.inj h
      obtain ⟨hrow, hlt⟩ := Json.smallField_eq_ok.mp hline
      have hway : f.record.at? ["location", "row"] = some (.nat line) := by
        rw [Json.at?_pair, hlocation, Option.bind_some, hrow]
      rw [Json.textField_eq_ok, ← Json.at?_single] at hfile hcode hmessage
      rw [category_eq, Json.link?_eq, Analyzer.accepts_iff]
      refine ⟨?_, .ruff hfile hway hcode hmessage⟩
      simp only [Analyzer.required, List.forall_mem_cons, any_holds_text, any_holds_whole]
      exact ⟨⟨_, hfile⟩, ⟨line, hway, by omega, hlt⟩, ⟨_, hcode⟩, ⟨_, hmessage⟩, by simp⟩
    · exact absurd h (by simp)
  · rintro ⟨haccepts, htells⟩
    cases htells with
    | @ruff _ file code message line hfile hline hcode hmessage =>
      obtain ⟨-, hlt⟩ := Analyzer.bounds_of_accepts 0 haccepts hline (by decide)
      rw [Json.at?_pair] at hline
      obtain ⟨location, hlocation, hrow⟩ := Option.bind_eq_some_iff.mp hline
      rw [Json.at?_single, ← Json.textField_eq_ok] at hfile hcode hmessage
      rw [Ruff.issue]
      simp only [hfile, hlocation, Json.smallField_eq_ok.mpr ⟨hrow, hlt⟩, hcode, hmessage, bind,
        Except.bind, pure, Except.pure, category_eq, Json.link?_eq]

/-- A record of pylint becomes an issue just if it is accepted. -/
theorem Pylint.issue_eq_ok : Pylint.issue root f.record = .ok i ↔
    Analyzer.pylint.accepts f.record = true ∧ Analyzer.pylint.Tells root f i := by
  constructor
  · intro h
    unfold Pylint.issue at h
    obtain ⟨kind, hkind, h⟩ := ok_of_bind h
    obtain ⟨file, hfile, h⟩ := ok_of_bind h
    obtain ⟨line, hline, h⟩ := ok_of_bind h
    obtain ⟨message, hmessage, h⟩ := ok_of_bind h
    obtain ⟨code, hcode, h⟩ := ok_of_bind h
    obtain rfl := Except.ok.inj h
    rw [Json.smallField_eq_ok, ← Json.at?_single] at hline
    rw [Json.textField_eq_ok, ← Json.at?_single] at hkind hfile hmessage hcode
    rw [category_eq, Analyzer.accepts_iff]
    refine ⟨?_, .pylint hkind hfile hline.1 hmessage hcode⟩
    simp only [Analyzer.required, List.forall_mem_cons, any_holds_text, any_holds_whole]
    exact ⟨⟨_, hkind⟩, ⟨_, hfile⟩, ⟨line, hline.1, by omega, hline.2⟩, ⟨_, hmessage⟩, ⟨_, hcode⟩,
      by simp⟩
  · rintro ⟨haccepts, htells⟩
    cases htells with
    | @pylint _ kind file message code line hkind hfile hline hmessage hcode =>
      obtain ⟨-, hlt⟩ := Analyzer.bounds_of_accepts 0 haccepts hline (by decide)
      rw [Json.at?_single] at hline
      rw [Json.at?_single, ← Json.textField_eq_ok] at hkind hfile hmessage hcode
      rw [Pylint.issue]
      simp only [hkind, hfile, Json.smallField_eq_ok.mpr ⟨hline, hlt⟩, hmessage, hcode, bind,
        Except.bind, pure, Except.pure, category_eq]

/-- A record of bandit becomes an issue just if it is accepted. -/
theorem Bandit.issue_eq_ok : Bandit.issue root f.record = .ok i ↔
    Analyzer.bandit.accepts f.record = true ∧ Analyzer.bandit.Tells root f i := by
  constructor
  · intro h
    unfold Bandit.issue at h
    obtain ⟨file, hfile, h⟩ := ok_of_bind h
    obtain ⟨line, hline, h⟩ := ok_of_bind h
    obtain ⟨message, hmessage, h⟩ := ok_of_bind h
    obtain ⟨code, hcode, h⟩ := ok_of_bind h
    obtain ⟨severity, hseverity, h⟩ := ok_of_bind h
    obtain ⟨confidence, hconfidence, h⟩ := ok_of_bind h
    obtain rfl := Except.ok.inj h
    rw [Json.smallField_eq_ok, ← Json.at?_single] at hline
    rw [Json.textField_eq_ok, ← Json.at?_single] at hfile hmessage hcode hseverity hconfidence
    rw [Json.link?_eq, Analyzer.accepts_iff]
    refine ⟨?_, .bandit hfile hline.1 hmessage hcode hseverity hconfidence⟩
    simp only [Analyzer.required, List.forall_mem_cons, any_holds_text, any_holds_whole]
    exact ⟨⟨_, hfile⟩, ⟨line, hline.1, by omega, hline.2⟩, ⟨_, hmessage⟩, ⟨_, hcode⟩,
      ⟨_, hseverity⟩, ⟨_, hconfidence⟩, by simp⟩
  · rintro ⟨haccepts, htells⟩
    cases htells with
    | @bandit _ file message code severity confidence line hfile hline hmessage hcode hseverity
        hconfidence =>
      obtain ⟨-, hlt⟩ := Analyzer.bounds_of_accepts 0 haccepts hline (by decide)
      rw [Json.at?_single] at hline
      rw [Json.at?_single, ← Json.textField_eq_ok] at hfile hmessage hcode hseverity hconfidence
      rw [Bandit.issue]
      simp only [hfile, Json.smallField_eq_ok.mpr ⟨hline, hlt⟩, hmessage, hcode, hseverity,
        hconfidence, bind, Except.bind, pure, Except.pure, Json.link?_eq]

/-- A block of radon becomes an issue just if it is accepted: it has a complexity, and one above
that of a trivial block. -/
theorem Radon.issue?_eq_ok : Radon.issue? (root.relative f.file) f.record = .ok (some i) ↔
    Analyzer.radon.accepts f.record = true ∧ Analyzer.radon.Tells root f i := by
  constructor
  · intro h
    unfold Radon.issue? at h
    obtain ⟨complexity, hcomplexity, h⟩ := ok_of_bind h
    rw [Json.smallField_eq_ok, ← Json.at?_single] at hcomplexity
    split at h
    · exact absurd (Except.ok.inj h) (by simp)
    · next hhard =>
      obtain rfl := Option.some.inj (Except.ok.inj h)
      dsimp only
      rw [Json.wholeOr0_eq, Json.textOr_eq, Json.textOr_eq, Json.textOr_eq, Analyzer.accepts_iff]
      refine ⟨?_, .radon hcomplexity.1⟩
      simp only [Analyzer.required, List.forall_mem_cons, any_holds_whole]
      exact ⟨⟨complexity, hcomplexity.1, Nat.not_le.mp hhard, hcomplexity.2⟩, by simp⟩
  · rintro ⟨haccepts, htells⟩
    cases htells with
    | @radon _ complexity hcomplexity =>
      obtain ⟨hhard, hlt⟩ := Analyzer.bounds_of_accepts 2 haccepts hcomplexity (by decide)
      rw [Json.at?_single] at hcomplexity
      rw [Radon.issue?]
      simp only [Json.smallField_eq_ok.mpr ⟨hcomplexity, hlt⟩, bind, Except.bind, pure,
        Except.pure, Json.wholeOr0_eq, Json.textOr_eq]
      exact if_neg (Nat.not_le.mpr hhard)

end Records

end ReviewMentor
