import Mathlib.Data.List.Nodup
import ReviewMentor.Proofs.Json.Forms
import ReviewMentor.Proofs.Json.Parsed
import ReviewMentor.Proofs.Settings.Ini
import ReviewMentor.Proofs.Toml.Tables
import ReviewMentor.Settings.Rules

/-!
# Files of rules

The files for analyzers say what the rules say: the file for ruff is read back as TOML and the file
for bandit as JSON, whatever strings stand in the rules. The file for pylint has no quotes, so that
its lists are read back if their names can stand between commas on one line.
-/

namespace ReviewMentor

/-! ### Ruff -/

namespace RuffRules

open Toml

/-- The lists that stand in the table itself. -/
def lists (r : RuffRules) : List (List Char × List (List Char)) :=
  [("select".toList, r.select.map String.toList), ("ignore".toList, r.ignore.map String.toList)]

/-- The lists that stand in the table of patterns. -/
def patterns (r : RuffRules) : List (List Char × List (List Char)) :=
  r.perFile.map fun p => (p.1.toList, p.2.map String.toList)

/-- What the file says: one table with the three parts of the rules. -/
def toToml (r : RuffRules) : Toml :=
  .table [("lint".toList, .table
    [("select".toList, strings (r.select.map String.toList)),
      ("ignore".toList, strings (r.ignore.map String.toList)),
      ("per-file-ignores".toList, .table (r.perFile.map fun p =>
        (p.1.toList, strings (p.2.map String.toList))))])]

theorem configText_eq (r : RuffRules) : r.configText.toList =
    '[' :: (writeKey "lint".toList ++ (dotted [] ++ ']' :: '\n' ::
      (r.lists.flatMap (fun p => writeMember p.1 p.2) ++ '\n' ::
        ('[' :: (writeKey "lint".toList ++ (dotted ["per-file-ignores".toList] ++ ']' :: '\n' ::
          (r.patterns.flatMap (fun p => writeMember p.1 p.2) ++ []))))))) := by
  have hlint : "[lint]\n".toList =
      '[' :: (writeKey "lint".toList ++ (dotted [] ++ [']', '\n'])) := by
    decide
  have hfiles : "\n[lint.per-file-ignores]\n".toList = '\n' :: ('[' :: (writeKey "lint".toList ++
      (dotted ["per-file-ignores".toList] ++ [']', '\n']))) := by
    decide
  unfold configText
  rw [String.toList_ofList, hlint, hfiles]
  unfold lists patterns
  rw [List.flatMap_cons, List.flatMap_cons, List.flatMap_nil, List.flatMap_map]
  generalize writeKey "lint".toList = lint
  generalize dotted ["per-file-ignores".toList] = files
  simp only [List.append_assoc, List.cons_append, List.nil_append, List.append_nil]

/-- **The file for ruff is read back as the rules**, which have each pattern once. -/
theorem parse?_configText (r : RuffRules) (h : (r.perFile.map Prod.fst).Nodup) :
    Toml.parse? r.configText = some r.toToml := by
  have hlists : Fresh [("lint".toList, ([] : Members))] := by simp [Fresh]
  have hpatterns : Fresh [("lint".toList, ([] : Members)),
      ("per-file-ignores".toList, r.lists.map fun p => (p.1, .value (strings p.2)))] := by
    simp [Fresh, lists]
  have hkeys : (r.patterns.map Prod.fst).Nodup := by
    have hnames : r.patterns.map Prod.fst = (r.perFile.map Prod.fst).map String.toList := by
      simp [patterns]
    rw [hnames]
    exact List.Nodup.map (fun _ _ => String.toList_inj.mp) h
  -- a header, the lists, a blank line, a header and the patterns
  have hreads : Reads .empty r.configText.toList (.within
      [("lint".toList, []),
        ("per-file-ignores".toList, r.lists.map fun p => (p.1, .value (strings p.2)))]
      (r.patterns.map fun p => (p.1, .value (strings p.2)))) := by
    rw [configText_eq]
    refine .table (by decide) (openHeader_within [] [] (by simp [Fresh]) (by simp) _) ?_
    refine .members hlists (by simp [lists]) (.blank ?_)
    refine .table (by decide)
      (openHeader_within [("lint".toList, [])] _ hlists (by simp [lists]) _) ?_
    exact .members hpatterns (by simpa using hkeys) (.nil _)
  rw [parse?_of_reads hreads (by rw [configText_eq]; simp)]
  have hvalues := membersToToml_values r.patterns
  simp only [Document.within, nested, List.nil_append, lists, List.map_cons, List.map_nil,
    List.cons_append, Node.membersToToml, Node.toToml, hvalues]
  simp only [patterns, List.map_map]
  rfl

end RuffRules

/-! ### Bandit -/

namespace Json

theorem isPlain_strings (items : List String) : (strings items).isPlain = true :=
  allPlain_map fun _ _ => rfl

theorem depth_strings (items : List String) : (strings items).depth = 1 := by
  have hitems : itemsDepth (items.map .string) = 0 := by
    induction items with
    | nil => rfl
    | cons s items ih => simp [itemsDepth, depth, ih]
  rw [strings, depth, hitems]

theorem ordered_strings (items : List String) : (strings items).ordered = strings items := by
  have hitems : orderedItems (items.map .string) = items.map .string := by
    induction items with
    | nil => rfl
    | cons s items ih => simp [orderedItems, ordered, ih]
  rw [strings, ordered, hitems]

end Json

namespace BanditRules

open Json

/-- What the file says: one object, whose members a reader has in the order of their names. -/
def toObject (r : BanditRules) : Json :=
  .object [("confidence", .string r.confidence), ("recursive", .bool r.recursive),
    ("severity", .string r.severity), ("skips", .strings r.skips),
    ("target", .strings r.targets), ("tests", .strings r.tests)]

/-- **The file for bandit is read back as the rules.** -/
theorem parse?_configText (r : BanditRules) : Json.parse? r.configText = some r.toObject := by
  have hplain : (Json.object (r.members "target")).isPlain = true := by
    simp [members, isPlain, membersPlain, isPlain_strings]
  have hdepth : (Json.object (r.members "target")).depth ≤ depthLimit := by
    simp [members, depth, membersDepth, depth_strings, depthLimit]
  have hordered : orderedMembers (r.members "target") = r.members "target" := by
    simp [members, orderedMembers, ordered, ordered_strings]
  have hsorted : sortMembers (r.members "target") =
      [("confidence", .string r.confidence), ("recursive", .bool r.recursive),
        ("severity", .string r.severity), ("skips", .strings r.skips),
        ("target", .strings r.targets), ("tests", .strings r.tests)] := by
    simp only [members, sortMembers, Ordered.ofPairs, List.foldl_cons, List.foldl_nil, Ordered.put,
      String.reduceLT, String.reduceEq, if_true, if_false]
  rw [BanditRules.configText, parse?_written hplain hdepth (.inr rfl), ordered, hordered, hsorted]
  rfl

end BanditRules

/-! ### Lists between commas -/

/-- A name that may stand in a list with commas. -/
structure Listable (name : String) : Prop where
  nonempty : name ≠ ""
  comma : ',' ∉ name.toList
  lineFeed : '\n' ∉ name.toList
  carriageReturn : '\r' ∉ name.toList
  trimmed : Text.trim name = name

instance {name : String} : Decidable (Listable name) :=
  decidable_of_iff (name ≠ "" ∧ ',' ∉ name.toList ∧ '\n' ∉ name.toList ∧ '\r' ∉ name.toList ∧
      Text.trim name = name)
    ⟨fun ⟨h₁, h₂, h₃, h₄, h₅⟩ => ⟨h₁, h₂, h₃, h₄, h₅⟩, fun ⟨h₁, h₂, h₃, h₄, h₅⟩ =>
      ⟨h₁, h₂, h₃, h₄, h₅⟩⟩

/-- A value lists names: cut at commas it gives them in their order, and for none it is empty. -/
def Lists (value : String) (names : List String) : Prop :=
  if names = [] then value = "" else Text.cut ',' value = names

/-- A text that is not empty and neither begins nor ends with a blank. -/
def Framed (cs : List Char) : Prop :=
  cs ≠ [] ∧ (∀ c ∈ cs.head?, Text.isBlank c = false) ∧ ∀ c ∈ cs.getLast?, Text.isBlank c = false

section Lists

variable {name : String} {names : List String}

theorem Framed.append {cs ds : List Char} (hcs : Framed cs) (between : List Char)
    (hds : Framed ds) : Framed (cs ++ between ++ ds) := by
  obtain ⟨hne, hfirst, -⟩ := hcs
  obtain ⟨hne', -, hlast⟩ := hds
  obtain ⟨c, more, rfl⟩ := List.exists_cons_of_ne_nil hne
  refine ⟨by simp, hfirst, fun d hd => hlast d ?_⟩
  rwa [List.getLast?_append, List.getLast?_eq_some_getLast hne', Option.some_or,
    ← List.getLast?_eq_some_getLast hne'] at hd

theorem Listable.framed (h : Listable name) : Framed name.toList := by
  have htrim : Text.trimChars name.toList = name.toList := by
    have hchars := congrArg String.toList h.trimmed
    rwa [Text.trim, String.toList_ofList] at hchars
  have hends := Text.ends_trimChars name.toList
  rw [htrim] at hends
  exact ⟨fun hnil => h.nonempty (String.toList_inj.mp hnil), hends⟩

variable (h : ∀ name ∈ names, Listable name)
include h

theorem framed_join (hne : names ≠ []) : Framed (Text.join "," names).toList := by
  induction names with
  | nil => exact absurd rfl hne
  | cons name names ih =>
    obtain ⟨hname, hnames⟩ := List.forall_mem_cons.mp h
    by_cases hnil : names = []
    · rw [hnil, Text.join, String.intercalate_singleton]
      exact hname.framed
    · have hmore := ih hnames hnil
      rw [Text.join] at hmore ⊢
      rw [String.intercalate_cons_of_ne_nil hnil, String.toList_append, String.toList_append]
      exact hname.framed.append _ hmore

/-- Only the blank in front of joined names is a blank around them. -/
theorem trimChars_join :
    Text.trimChars (' ' :: (Text.join "," names).toList) = (Text.join "," names).toList := by
  have hspace : ∀ c ∈ [' '], Text.isBlank c = true := by
    intro c hc
    rw [List.mem_singleton.mp hc]
    rfl
  have hleft : Text.trimChars ([' '] ++ (Text.join "," names).toList ++ []) =
      Text.trimChars (Text.join "," names).toList :=
    Text.trimChars_around hspace (List.forall_mem_nil _)
  rw [List.append_nil] at hleft
  refine hleft.trans ?_
  by_cases hne : names = []
  · rw [hne]
    rfl
  · obtain ⟨-, hfirst, hlast⟩ := framed_join h hne
    exact Text.trimChars_eq_self hfirst hlast

theorem lists_join : Lists (Text.join "," names) names := by
  unfold Lists
  split
  · next hnil => rw [hnil]; rfl
  · next hne => exact Text.cut_join_separator rfl hne fun name hname => (h name hname).comma

theorem not_mem_join {c : Char} (hc : c ≠ ',') (hnames : ∀ name ∈ names, c ∉ name.toList) :
    c ∉ (Text.join "," names).toList := by
  by_cases hne : names = []
  · rw [hne]
    exact List.not_mem_nil
  · rw [← Text.mem_cut hc, Text.cut_join_separator rfl hne fun name hname => (h name hname).comma]
    rintro ⟨name, hname, hmem⟩
    exact hnames name hname hmem

end Lists

/-! ### Pylint -/

namespace Ini

variable {names : List String} (h : ∀ name ∈ names, Listable name)
include h

/-- A line with listable names is one line. -/
theorem breakLines_join {key : List Char} (hn : '\n' ∉ key) (hr : '\r' ∉ key) (rest : List Char) :
    breakLines ((key ++ '=' :: ' ' :: (Text.join "," names).toList) ++ '\n' :: rest) =
      (key ++ '=' :: ' ' :: (Text.join "," names).toList) :: breakLines rest := by
  have hfeed := not_mem_join h (c := '\n') (by decide) fun name hname => (h name hname).lineFeed
  have hreturn := not_mem_join h (c := '\r') (by decide) fun name hname =>
    (h name hname).carriageReturn
  exact breakLines_append (by simp [hn, hfeed]) (by simp [hr, hreturn]) rest

/-- Such a line gives an option the names. -/
theorem line?_join (c : Char) (key : List Char) (hfirst : c ∉ ['#', ';', '['])
    (hblank : Text.isBlank c = false) (hkey : (c :: key).any isMark = false) :
    line? (c :: key ++ '=' :: ' ' :: (Text.join "," names).toList) =
      some (.option (Text.trimEndChars (c :: key)) (Text.join "," names).toList) := by
  rw [line?_option hfirst hblank hkey, trimChars_join h]

end Ini

namespace PylintRules

open Ini

theorem configText_eq (r : PylintRules) : r.configText.toList =
    "[MASTER]".toList ++ '\n' ::
      (("load-plugins ".toList ++ '=' :: ' ' :: (Text.join "," r.plugins).toList) ++ '\n' ::
        ([] ++ '\n' :: ("[MESSAGES CONTROL]".toList ++ '\n' ::
          (("disable ".toList ++ '=' :: ' ' :: (Text.join "," r.disable).toList) ++ '\n' ::
            [])))) := by
  have hmaster : "[MASTER]\nload-plugins = ".toList =
      "[MASTER]".toList ++ '\n' :: ("load-plugins ".toList ++ ['=', ' ']) := by
    decide +kernel
  have hcontrol : "\n\n[MESSAGES CONTROL]\ndisable = ".toList = '\n' :: '\n' ::
      ("[MESSAGES CONTROL]".toList ++ '\n' :: ("disable ".toList ++ ['=', ' '])) := by
    decide +kernel
  unfold configText
  rw [String.toList_append, String.toList_append, String.toList_append, String.toList_append,
    hmaster, hcontrol]
  generalize "[MASTER]".toList = master
  generalize "[MESSAGES CONTROL]".toList = control
  generalize "load-plugins ".toList = plugins
  generalize "disable ".toList = disable
  simp

/-- **The file for pylint has two sections with one option each.** -/
theorem read?_configText (r : PylintRules) (hplugins : ∀ name ∈ r.plugins, Listable name)
    (hdisable : ∀ name ∈ r.disable, Listable name) :
    Ini.read? r.configText = some
      [⟨"MASTER", [("load-plugins", Text.join "," r.plugins)]⟩,
        ⟨"MESSAGES CONTROL", [("disable", Text.join "," r.disable)]⟩] := by
  have hlines : breakLines r.configText.toList = ["[MASTER]".toList,
      "load-plugins ".toList ++ '=' :: ' ' :: (Text.join "," r.plugins).toList, [],
      "[MESSAGES CONTROL]".toList,
      "disable ".toList ++ '=' :: ' ' :: (Text.join "," r.disable).toList, []] := by
    rw [configText_eq, breakLines_append (by decide) (by decide),
      breakLines_join hplugins (by decide) (by decide),
      breakLines_append List.not_mem_nil List.not_mem_nil,
      breakLines_append (by decide) (by decide),
      breakLines_join hdisable (by decide) (by decide)]
    rfl
  have hmaster : line? "[MASTER]".toList = some (.header "MASTER".toList) := by decide
  have hcontrol : line? "[MESSAGES CONTROL]".toList =
      some (.header "MESSAGES CONTROL".toList) := by
    decide
  have hload : line? ("load-plugins ".toList ++ '=' :: ' ' :: (Text.join "," r.plugins).toList) =
      some (.option "load-plugins".toList (Text.join "," r.plugins).toList) :=
    line?_join hplugins 'l' "oad-plugins ".toList (by decide) rfl rfl
  have hoff : line? ("disable ".toList ++ '=' :: ' ' :: (Text.join "," r.disable).toList) =
      some (.option "disable".toList (Text.join "," r.disable).toList) :=
    line?_join hdisable 'd' "isable ".toList (by decide) rfl rfl
  have hnone : line? [] = some .blank := rfl
  rw [read?, hlines]
  simp only [List.mapM_cons, List.mapM_nil, hload, hoff, hmaster, hcontrol, hnone,
    Option.bind_eq_bind, Option.bind_some, Option.pure_def, gather, String.ofList_toList]

end PylintRules

/-! ### All rules -/

namespace LintRules

/-- Readers of the three files have what the rules say. -/
structure ReadBack (r : LintRules) : Prop where
  ruff : ∃ text, r.configText? .ruff = some text ∧ Toml.parse? text = some r.ruff.toToml
  bandit : ∃ text, r.configText? .bandit = some text ∧ Json.parse? text = some r.bandit.toObject
  pylint : (∀ name ∈ r.pylint.plugins ++ r.pylint.disable, Listable name) →
    ∃ text plugins disable, r.configText? .pylint = some text ∧
      Ini.read? text = some
        [⟨"MASTER", [("load-plugins", plugins)]⟩, ⟨"MESSAGES CONTROL", [("disable", disable)]⟩] ∧
      Lists plugins r.pylint.plugins ∧ Lists disable r.pylint.disable

/-- **The files of rules say what the rules say**, whatever strings stand in them. The patterns of
ruff are the keys of a map, which has each of them once. -/
theorem rule_files_read_back (r : LintRules) (h : (r.ruff.perFile.map Prod.fst).Nodup) :
    r.ReadBack where
  ruff := ⟨r.ruff.configText, rfl, r.ruff.parse?_configText h⟩
  bandit := ⟨r.bandit.configText, rfl, r.bandit.parse?_configText⟩
  pylint := fun hnames => by
    obtain ⟨hplugins, hdisable⟩ := List.forall_mem_append.mp hnames
    exact ⟨r.pylint.configText, _, _, rfl, r.pylint.read?_configText hplugins hdisable,
      lists_join hplugins, lists_join hdisable⟩

/-- Rules whose strings hold quotes of both kinds, backslashes, line breaks, control characters and
characters beyond ASCII. -/
def awkward : LintRules where
  ruff := ⟨["E\"\"\"", "'''", "C:\\x", "a\nb", "\u0007\u007f", "é🦩", ""], [],
    [("", ["F401"]), ("a b\"'\n.py", []), ("tests/*", ["S101", "\\"])]⟩
  pylint := ⟨["pylint.extensions.mccabe", "a = b"], []⟩
  bandit := ⟨["*", "\"\\\n"], false, "é", "\u0001", [], ["B101"]⟩

/-- The files of awkward rules are read back, that for pylint too. -/
theorem awkward_files_read_back :
    (awkward.ruff.perFile.map Prod.fst).Nodup ∧
      (∀ name ∈ awkward.pylint.plugins ++ awkward.pylint.disable, Listable name) ∧
      awkward.ReadBack ∧
      ∃ text plugins disable, awkward.configText? .pylint = some text ∧
        Ini.read? text = some
          [⟨"MASTER", [("load-plugins", plugins)]⟩, ⟨"MESSAGES CONTROL", [("disable", disable)]⟩] ∧
        Lists plugins ["pylint.extensions.mccabe", "a = b"] ∧ Lists disable [] := by
  have hpatterns : (awkward.ruff.perFile.map Prod.fst).Nodup := by decide +kernel
  have hnames : ∀ name ∈ awkward.pylint.plugins ++ awkward.pylint.disable, Listable name := by
    decide +kernel
  have hread := rule_files_read_back awkward hpatterns
  exact ⟨hpatterns, hnames, hread, hread.pylint hnames⟩

end LintRules

end ReviewMentor
