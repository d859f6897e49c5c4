import Mathlib.Data.Set.Card
import ReviewMentor.Classify
import ReviewMentor.Proofs.Files.Paving
import ReviewMentor.Proofs.Files.Sweeping
import ReviewMentor.Proofs.Findings.Relative
import ReviewMentor.Proofs.Text.Lowering

/-!
# How projects are classified

The score of a kind of project is the number of files with a marker of the kind in their paths below
the project. Which files there are is all that counts: the place of the project, what its own path
holds and the order in which the files are found do not enter. The kind with the greatest score
wins, the first of those that have it, and a further file that hints at no other kind leaves the
winner alone.

A file counts only if the system can be asked for its directory, so a project with a very long path
may seem to lack files.
-/

namespace ReviewMentor

/-! ### Paths below a project -/

namespace Path

variable {root : Path} {names front : List String} {name : String}

theorem components_child (hroot : root.text ≠ "") (h : IsName name) :
    (root.child name).components = root.components ++ [.name name] := by
  have hparts : (Path.mk name).parts = [name] := by
    simp [parts, Text.cut_of_not_mem h.noSlash, h.ne_empty]
  rw [child, components_join hroot (not_isAbsolute_of_not_mem h.noSlash), hparts]
  simp [component?_of_isName h]

/-- Names after a path are components of their own. -/
theorem components_descend (hroot : root.text ≠ "") (h : ∀ name ∈ names, IsName name) :
    (root.descend names).components = root.components ++ names.map .name := by
  induction names using List.reverseRecOn with
  | nil => simp [descend]
  | append_singleton names name ih =>
    have hnames : ∀ n ∈ names, IsName n := fun n hn => h n (List.mem_append_left _ hn)
    have hne : (root.descend names).text ≠ "" := by
      have hsize : root.text.utf8ByteSize ≤ (root.descend names).text.utf8ByteSize :=
        size_descend_le hnames
      intro hempty
      rw [hempty, String.utf8ByteSize_empty] at hsize
      exact hroot (String.utf8ByteSize_eq_zero_iff.mp (Nat.le_zero.mp hsize))
    rw [descend_concat, components_child hne (h name (by simp)), ih hnames, List.append_assoc,
      List.map_append]
    rfl

theorem below?_descend (hroot : root.text ≠ "") (h : ∀ name ∈ names, IsName name) :
    (root.descend names).below? root = some (names.map .name) :=
  below?_eq_some.mpr (components_descend hroot h)

theorem fileName?_descend (hroot : root.text ≠ "") (h : ∀ n ∈ names ++ [name], IsName n) :
    (root.descend (names ++ [name])).fileName? = some name := by
  rw [fileName?, components_descend hroot h, List.map_append, ← List.append_assoc,
    List.map_singleton, List.getLast?_concat]

end Path

/-! ### Markers -/

/-- Whether the path of a file below the project, in lower case, holds a marker of a kind. -/
def ProjectKind.Marks (kind : ProjectKind) (names : List String) : Prop :=
  ∃ marker ∈ kind.markers, marker.toList <:+: (Text.lower (Text.join "/" names)).toList

instance (kind : ProjectKind) (names : List String) : Decidable (kind.Marks names) :=
  inferInstanceAs (Decidable (∃ marker ∈ kind.markers,
    marker.toList <:+: (Text.lower (Text.join "/" names)).toList))

namespace Scores

variable {s s' : Scores} {root path : Path} {kind other : ProjectKind} {names : List String}
  {paths paths' : List Path}

/-- What is in the name of a file is in its path. -/
theorem lower_last_isInfix (front : List String) (name : String) :
    (Text.lower name).toList <:+: (Text.lower (Text.join "/" (front ++ [name]))).toList := by
  have hsingle : Text.join "/" [name] = name := by simp [Text.join]
  by_cases hfront : front = []
  · rw [hfront, List.nil_append, hsingle]
  · rw [Text.join_append hfront (by simp), hsingle, Text.lower_append_slash, String.toList_append]
    exact (List.suffix_append _ _).isInfix

/-- A file hints at a kind if its path below the project does. -/
theorem hintedBy_searched (hroot : root.text ≠ "") (h : ∀ name ∈ names, Path.IsName name)
    (hne : names ≠ []) :
    kind.hintedBy (searched root (root.descend names)) = true ↔ kind.Marks names := by
  obtain ⟨front, name, rfl⟩ := (List.eq_nil_or_concat' names).resolve_left hne
  have htexts : searched root (root.descend (front ++ [name])) =
      [Text.lower name, Text.lower (Text.join "/" (front ++ [name]))] := by
    rw [searched, Path.below?_descend hroot h, Path.fileName?_descend hroot h]
    simp only [Path.slashed_names, Option.getD_some]
  rw [ProjectKind.hintedBy, htexts, ProjectKind.Marks]
  simp only [List.any_eq_true, List.any_cons, List.any_nil, Bool.or_false, Bool.or_eq_true,
    Text.contains_iff]
  refine exists_congr fun marker => and_congr_right fun _ => ?_
  exact ⟨fun hin => hin.elim (·.trans (lower_last_isInfix front name)) id, .inr⟩

/-! ### Counting -/

theorem ext_get (h : ∀ kind ∈ ProjectKind.candidates, s.get kind = s'.get kind) : s = s' := by
  obtain ⟨w, e, x⟩ := s
  obtain ⟨w', e', x'⟩ := s'
  simpa [ProjectKind.candidates, get] using h

/-- One file adds one to each kind that it hints at. -/
theorem get_count : (count root s path).get kind =
    s.get kind + if kind.hintedBy (searched root path) then 1 else 0 := by
  simp only [count, ProjectKind.candidates, List.foldl_cons, List.foldl_nil]
  cases kind with
  | web => split_ifs <;> simp [get, bump]
  | embedded => split_ifs <;> simp [get, bump]
  | security => split_ifs <;> simp [get, bump]
  | unknown => simp [get, ProjectKind.hintedBy, ProjectKind.markers]

theorem get_foldl_count : (paths.foldl (count root) s).get kind =
    s.get kind + paths.countP fun path => kind.hintedBy (searched root path) := by
  induction paths generalizing s with
  | nil => rfl
  | cons path paths ih =>
    rw [List.foldl_cons, ih, get_count, List.countP_cons]
    omega

/-- The score of a kind is the number of paths that hint at it. -/
theorem get_ofPaths : (ofPaths root paths).get kind =
    paths.countP fun path => kind.hintedBy (searched root path) := by
  rw [ofPaths, get_foldl_count]
  cases kind <;> exact Nat.zero_add _

/-- The order of the paths is of no account. -/
theorem ofPaths_perm (h : paths.Perm paths') : ofPaths root paths = ofPaths root paths' :=
  ext_get fun kind _ => by rw [get_ofPaths, get_ofPaths, h.countP_eq]

/-! ### Winning -/

/-- What makes a kind the winner: no score is greater, and a known kind has a score, which no
earlier kind reaches. -/
structure Wins (s : Scores) (kind : ProjectKind) : Prop where
  greatest : ∀ other ∈ ProjectKind.candidates, s.get other ≤ s.get kind
  positive : kind ≠ .unknown → 0 < s.get kind
  first : kind ≠ .unknown →
    ∀ earlier ∈ ProjectKind.candidates.takeWhile (· ≠ kind), s.get earlier < s.get kind

theorem mem_candidates : kind ∈ ProjectKind.candidates ↔ kind ≠ .unknown := by
  cases kind <;> decide

/-- Going through kinds changes the best one only for a better one, the first that is found. -/
theorem foldl_better {kinds : List ProjectKind} {best winner : ProjectKind}
    (h : kinds.foldl s.better best = winner) :
    s.get best ≤ s.get winner ∧ (∀ kind ∈ kinds, s.get kind ≤ s.get winner) ∧
    (winner ≠ best → s.get best < s.get winner ∧
      ∀ earlier ∈ kinds.takeWhile (· ≠ winner), s.get earlier < s.get winner) := by
  induction kinds generalizing best with
  | nil =>
    obtain rfl : best = winner := h
    simp
  | cons kind kinds ih =>
    obtain ⟨hbest, hkinds, hfirst⟩ := ih h
    unfold better at hbest hfirst
    split_ifs at hbest hfirst with hbetter
    · refine ⟨by omega, List.forall_mem_cons.mpr ⟨hbest, hkinds⟩, fun _ => ⟨by omega, ?_⟩⟩
      by_cases hkind : kind = winner
      · simp [hkind]
      · obtain ⟨hless, hearlier⟩ := hfirst (Ne.symm hkind)
        rw [List.takeWhile_cons_of_pos (by simpa using hkind)]
        exact List.forall_mem_cons.mpr ⟨hless, hearlier⟩
    · refine ⟨hbest, List.forall_mem_cons.mpr ⟨by omega, hkinds⟩, fun hne => ?_⟩
      obtain ⟨hless, hearlier⟩ := hfirst hne
      refine ⟨hless, ?_⟩
      by_cases hkind : kind = winner
      · simp [hkind]
      · rw [List.takeWhile_cons_of_pos (by simpa using hkind)]
        exact List.forall_mem_cons.mpr ⟨by omega, hearlier⟩

theorem wins_winner (s : Scores) : s.Wins s.winner := by
  obtain ⟨-, hgreatest, hfirst⟩ := foldl_better (s := s) (rfl : _ = s.winner)
  exact ⟨hgreatest, fun hknown => (hfirst hknown).1, fun hknown => (hfirst hknown).2⟩

/-- Of two known kinds one comes first. -/
theorem earlier_or_later (hkind : kind ≠ .unknown) (hother : other ≠ .unknown)
    (hne : kind ≠ other) :
    kind ∈ ProjectKind.candidates.takeWhile (· ≠ other) ∨
      other ∈ ProjectKind.candidates.takeWhile (· ≠ kind) := by
  cases kind <;> cases other <;> first | contradiction | decide

/-- There is one winner. -/
theorem Wins.unique (h : s.Wins kind) (h' : s.Wins other) : kind = other := by
  by_contra hne
  by_cases hkind : kind = .unknown
  · have hother : other ≠ .unknown := fun heq => hne (hkind.trans heq.symm)
    have hpos := h'.positive hother
    have hle := h.greatest other (mem_candidates.mpr hother)
    rw [hkind, get] at hle
    omega
  have hle := h'.greatest kind (mem_candidates.mpr hkind)
  have hpos := h.positive hkind
  by_cases hother : other = .unknown
  · rw [hother, get] at hle
    omega
  have hge := h.greatest other (mem_candidates.mpr hother)
  rcases earlier_or_later hkind hother hne with hearlier | hearlier
  · have hless := h'.first hother kind hearlier
    omega
  · have hless := h.first hkind other hearlier
    omega

theorem Wins.eq_winner (h : s.Wins kind) : s.winner = kind := s.wins_winner.unique h

/-- Nothing wins where nothing has a score. -/
theorem winner_eq_unknown :
    s.winner = .unknown ↔ ∀ kind ∈ ProjectKind.candidates, s.get kind = 0 := by
  have h := s.wins_winner
  constructor
  · intro hwinner kind hkind
    have hle := h.greatest kind hkind
    rw [hwinner, get] at hle
    exact Nat.le_zero.mp hle
  · intro hzero
    by_contra hwinner
    have hpos := h.positive hwinner
    rw [hzero _ (mem_candidates.mpr hwinner)] at hpos
    exact absurd hpos (by simp)

/-- The winner stays the winner when only its own score grows. -/
theorem winner_of_grown (hown : s.get s.winner ≤ s'.get s.winner)
    (hothers : ∀ other ∈ ProjectKind.candidates, other ≠ s.winner → s'.get other = s.get other) :
    s'.winner = s.winner := by
  have h := s.wins_winner
  refine Wins.eq_winner ⟨fun other hother => ?_, fun hknown => ?_,
    fun hknown earlier hearlier => ?_⟩
  · by_cases hsame : other = s.winner
    · rw [hsame]
    · rw [hothers other hother hsame]
      exact (h.greatest other hother).trans hown
  · exact (h.positive hknown).trans_le hown
  · have hmem : earlier ∈ ProjectKind.candidates := (List.takeWhile_prefix _).subset hearlier
    have hsame : earlier ≠ s.winner := by simpa using List.mem_takeWhile_imp hearlier
    rw [hothers earlier hmem hsame]
    exact (h.first hknown earlier hearlier).trans_le hown

end Scores

/-! ### Projects as directories -/

/-- A directory with the path under which it is found. -/
structure Folder where
  tree : FileTree
  start : Place
  root : Path
  place : Place
  sound : tree.Sound
  found : tree.find start true root = .ok place
  isDirectory : tree.lookup? place = some .directory

namespace Folder

variable {p q : Folder} {names : List String}

/-- The files of a project in directories whose paths, written from that of the project, are
accepted by the system; each file by the names that lead to it from the project. -/
def reached (p : Folder) : Set (List String) := p.tree.swept p.place p.root

/-- How many files of a project hint at each kind. -/
abbrev scores (p : Folder) : Scores := p.tree.scores p.start p.root

/-- What a project is about. -/
abbrev topic (p : Folder) : ProjectKind := p.tree.classify p.start p.root

theorem text_root_ne_empty (p : Folder) : p.root.text ≠ "" :=
  (FileTree.passable_of_locate (FileTree.find_ok p.found)).nonempty

theorem isName_of_reached (h : names ∈ p.reached) : ∀ name ∈ names, Path.IsName name := by
  obtain ⟨⟨content, hcontent⟩, -⟩ := h
  exact fun name hname => (p.sound.storable hcontent hname).isName

theorem ne_nil_of_reached (h : names ∈ p.reached) : names ≠ [] := by
  obtain ⟨⟨content, hcontent⟩, -⟩ := h
  obtain ⟨mode, hfile⟩ := FileTree.contents_eq_some.mp hcontent
  rintro rfl
  rw [List.append_nil, p.isDirectory] at hfile
  exact absurd hfile (by simp)

theorem projectPaths_eq (p : Folder) :
    p.tree.projectPaths p.start p.root = (p.tree.sweep p.place p.root).map p.root.descend := by
  simp only [FileTree.projectPaths, p.found, p.isDirectory]

theorem mem_reached (p : Folder) : names ∈ p.reached ↔ names ∈ p.tree.sweep p.place p.root :=
  (p.sound.mem_sweep p.isDirectory).symm

/-- The score of a kind is the number of reached files that it marks. -/
theorem get_scores (p : Folder) (kind : ProjectKind) :
    (p.scores.get kind : ℕ∞) = {names ∈ p.reached | kind.Marks names}.encard := by
  have hmarks : ∀ names ∈ p.tree.sweep p.place p.root,
      (kind.hintedBy (Scores.searched p.root (p.root.descend names)) = true ↔
        kind.Marks names) := by
    intro names hmem
    have hreached : names ∈ p.reached := p.mem_reached.mpr hmem
    exact Scores.hintedBy_searched p.text_root_ne_empty (isName_of_reached hreached)
      (ne_nil_of_reached hreached)
  have hset : {names ∈ p.reached | kind.Marks names} =
      ((p.tree.sweep p.place p.root).filter fun names =>
        kind.hintedBy (Scores.searched p.root (p.root.descend names))).toFinset := by
    ext names
    simp only [Set.mem_ofPred_eq, List.coe_toFinset, List.mem_filter, mem_reached]
    exact and_congr_right fun hmem => (hmarks names hmem).symm
  have hscores : p.scores.get kind = (Scores.ofPaths p.root
      ((p.tree.sweep p.place p.root).map p.root.descend)).get kind := by
    rw [← projectPaths_eq]
    rfl
  rw [hset, Set.encard_coe_eq_coe_finsetCard,
    List.toFinset_card_of_nodup (p.sound.nodup_sweep.filter _), hscores, Scores.get_ofPaths,
    List.countP_map, List.countP_eq_length_filter]
  rfl

/-- Projects of which the same files are reached have the same scores. -/
theorem scores_eq_of_reached_eq (h : q.reached = p.reached) : q.scores = p.scores :=
  Scores.ext_get fun kind _ => by
    have hget := q.get_scores kind
    rw [h, ← p.get_scores kind] at hget
    exact_mod_cast hget

section Adding

variable (h : q.reached = insert names p.reached)

include h

/-- A further file lowers no score. -/
theorem get_scores_le (kind : ProjectKind) : p.scores.get kind ≤ q.scores.get kind := by
  have hsub : {names ∈ p.reached | kind.Marks names} ⊆ {names ∈ q.reached | kind.Marks names} :=
    fun other hother => ⟨h ▸ Set.mem_insert_of_mem _ hother.1, hother.2⟩
  have hle := Set.encard_le_encard hsub
  rw [← p.get_scores, ← q.get_scores] at hle
  exact_mod_cast hle

/-- A further file without markers of a kind leaves its score as it is. -/
theorem get_scores_eq {kind : ProjectKind} (hmarks : ¬ kind.Marks names) :
    q.scores.get kind = p.scores.get kind := by
  have hset : {names ∈ q.reached | kind.Marks names} = {names ∈ p.reached | kind.Marks names} := by
    rw [h]
    ext other
    simp only [Set.mem_ofPred_eq, Set.mem_insert_iff]
    constructor
    · rintro ⟨rfl | hold, hother⟩
      · exact absurd hother hmarks
      · exact ⟨hold, hother⟩
    · exact fun ⟨hold, hother⟩ => ⟨.inr hold, hother⟩
  have hget := q.get_scores kind
  rw [hset, ← p.get_scores] at hget
  exact_mod_cast hget

/-- A further file that hints at no other kind than the winner leaves the answer as it is. -/
theorem topic_eq_of_added
    (hmarks : ∀ other ∈ ProjectKind.candidates, other.Marks names → other = p.topic) :
    q.topic = p.topic :=
  Scores.winner_of_grown (get_scores_le h _) fun other hother hne =>
    get_scores_eq h fun hmarked => hne (hmarks other hother hmarked)

end Adding

end Folder

/-- A project with one file. -/
def flaskTree : FileTree :=
  ⟨[(["p"], .directory), (["p", "app"], .directory),
    (["p", "app", "flask.py"], .file .empty 0o644)]⟩

theorem sound_flaskTree : flaskTree.Sound :=
  .of_entries (by decide) (by decide) (by simp [flaskTree])

def flaskFolder : Folder where
  tree := flaskTree
  start := []
  root := ⟨"/p"⟩
  place := ["p"]
  sound := sound_flaskTree
  found := by decide
  isDirectory := rfl

/-- A copy of that project in another place, with one more file. -/
def grownTree : FileTree :=
  ⟨[(["home"], .directory), (["home", "auth"], .directory), (["home", "auth", "app"], .directory),
    (["home", "auth", "Django.py"], .file .empty 0o644),
    (["home", "auth", "app", "flask.py"], .file .empty 0o644)]⟩

def grownFolder : Folder where
  tree := grownTree
  start := ["home"]
  root := ⟨"auth"⟩
  place := ["home", "auth"]
  sound := .of_entries (by decide) (by decide) (by simp [grownTree])
  found := by decide
  isDirectory := rfl

theorem reached_grownFolder :
    grownFolder.reached = insert ["Django.py"] flaskFolder.reached := by
  have hgrown : grownFolder.tree.sweep grownFolder.place grownFolder.root =
      [["app", "flask.py"], ["Django.py"]] := by decide
  have hflask : flaskFolder.tree.sweep flaskFolder.place flaskFolder.root =
      [["app", "flask.py"]] := by decide
  ext names
  simp only [Set.mem_insert_iff, Folder.mem_reached, hgrown, hflask, List.mem_cons,
    List.not_mem_nil, or_false]
  exact or_comm

/-- A path with dots behind it, which lead nowhere else. -/
def Path.dotted (root : Path) (n : Nat) : Path := root.descend (List.replicate n ".")

namespace Path

variable {root : Path}

theorem dotted_succ (root : Path) (n : Nat) : root.dotted (n + 1) = (root.dotted n).child "." := by
  rw [dotted, List.replicate_succ', descend_concat, dotted]

theorem parts_dotted (root : Path) (n : Nat) :
    (root.dotted n).parts = root.parts ++ List.replicate n "." := by
  induction n with
  | zero => simp [dotted, descend]
  | succ n ih =>
    rw [dotted_succ, child, parts_join (by decide), ih, List.replicate_succ', List.append_assoc]
    rfl

theorem isAbsolute_dotted (root : Path) (n : Nat) :
    (root.dotted n).isAbsolute = root.isAbsolute := by
  induction n with
  | zero => rfl
  | succ n ih =>
    rw [dotted_succ, child, isAbsolute_join, ih, show (Path.mk ".").isAbsolute = false by decide,
      Bool.or_false]

/-- Each dot comes with a slash. -/
theorem text_dotted_succ {n : Nat} (hroot : root.text ≠ "") (hslash : root.endsWithSlash = false) :
    (root.dotted (n + 1)).text = (root.dotted n).text ++ "/" ++ "." := by
  have hdot : (Path.mk ".").isAbsolute = false := by decide
  have hbare : (root.dotted n).text ≠ "" ∧ (root.dotted n).endsWithSlash = false := by
    cases n with
    | zero => exact ⟨hroot, hslash⟩
    | succ n =>
      rw [dotted_succ]
      refine ⟨fun hempty => ?_, ?_⟩
      · have hsize := size_add_le_child (p := root.dotted n) hdot
        rw [hempty, String.utf8ByteSize_empty, show ".".utf8ByteSize = 1 by decide] at hsize
        omega
      · rw [child, endsWithSlash_join (by decide)]
        decide
  rw [dotted_succ, child, join, hdot, if_neg (by simp), if_neg (by simp [hbare])]

theorem size_dotted (hroot : root.text ≠ "") (hslash : root.endsWithSlash = false) (n : Nat) :
    (root.dotted n).text.utf8ByteSize = root.text.utf8ByteSize + 2 * n := by
  induction n with
  | zero => rfl
  | succ n ih =>
    rw [text_dotted_succ hroot hslash, String.utf8ByteSize_append, String.utf8ByteSize_append, ih,
      show "/".utf8ByteSize = 1 by decide, show ".".utf8ByteSize = 1 by decide]
    omega

end Path

namespace FileTree

variable {t : FileTree} {start d : Place} {root : Path} {n : Nat}

/-- A directory is found behind dots as well, as long as the path is not too long. -/
theorem find_dotted (hfind : t.find start true root = .ok d) (hdir : t.lookup? d = some .directory)
    (hroot : root.text ≠ "") (hslash : root.endsWithSlash = false)
    (hshort : (root.dotted n).text.utf8ByteSize < pathLimit) :
    t.find start true (root.dotted n) = .ok d := by
  by_cases hn : n = 0
  · subst hn
    exact hfind
  have hnul : Char.ofNat 0 ∉ (root.dotted n).text.toList := by
    clear hn hshort
    induction n with
    | zero => exact (passable_of_locate (find_ok hfind)).noNul
    | succ n ih =>
      rw [Path.text_dotted_succ hroot hslash]
      simp [ih]
  have hne : (root.dotted n).text ≠ "" := by
    intro hempty
    have hsize := Path.size_dotted hroot hslash n
    rw [hempty, String.utf8ByteSize_empty] at hsize
    omega
  have horigin : origin start (root.dotted n) = origin start root := by
    rw [origin, origin, Path.isAbsolute_dotted]
  have hpass : Passable (root.dotted n) := ⟨hnul, hne, hshort⟩
  rw [find, hpass.locate_eq, Path.parts_dotted, horigin,
    followLinks_append hdir (by simpa using hn)
      (fun _ => follow_dots fun _ => List.eq_of_mem_replicate) (locate_ok (find_ok hfind))]

end FileTree

/-- A path that is nearly too long. -/
def dottedRoot : Path := Path.dotted ⟨"/p"⟩ 2046

theorem size_dottedRoot : dottedRoot.text.utf8ByteSize = 4094 :=
  (Path.size_dotted (by decide) (by decide) 2046).trans (by decide)

/-- The same project under that path. -/
def dottedFolder : Folder where
  tree := flaskTree
  start := []
  root := dottedRoot
  place := ["p"]
  sound := sound_flaskTree
  found := FileTree.find_dotted (by decide) rfl (by decide) (by decide)
    (size_dottedRoot.trans_lt (by decide))
  isDirectory := rfl

/-- The directory in it would have too long a path. -/
theorem sweep_dottedFolder :
    dottedFolder.tree.sweep dottedFolder.place dottedFolder.root = [] := by
  refine List.eq_nil_iff_forall_not_mem.mpr fun names hmem => ?_
  obtain ⟨⟨content, hcontent⟩, hshort⟩ := dottedFolder.mem_reached.mpr hmem
  obtain ⟨mode, hfile⟩ := FileTree.contents_eq_some.mp hcontent
  have hentry := FileTree.mem_of_lookup? (by simp [dottedFolder]) hfile
  obtain ⟨rfl, -, -⟩ : names = ["app", "flask.py"] ∧ content = .empty ∧ mode = 0o644 := by
    simpa [dottedFolder, flaskTree] using hentry
  have hchild : ∀ root : Path, root.descend ["app", "flask.py"].dropLast = root.child "app" :=
    fun _ => rfl
  have hsize : dottedRoot.text.utf8ByteSize + "app".utf8ByteSize ≤
      (dottedRoot.child "app").text.utf8ByteSize := Path.size_add_le_child (by decide)
  rw [size_dottedRoot, show "app".utf8ByteSize = 3 by decide] at hsize
  have hroot : dottedFolder.root = dottedRoot := by rw [dottedFolder]
  rw [hroot, hchild, FileTree.pathLimit] at hshort
  omega

end ReviewMentor
