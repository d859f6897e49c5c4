import ReviewMentor.Proofs.Fixes.Replacing
import ReviewMentor.Proofs.Service.Edits
import ReviewMentor.Proofs.Service.Refusals

/-!
# A fix changes one line

Replacing a line of a text leaves every character outside that line, line breaks and carriage
returns of other lines included. A fix of a file reads its text, replaces the line and writes what
comes of that, so that the file holds what was answered, or what it held before.
-/

namespace ReviewMentor

open FileTree Effect

/-! ### Files -/

namespace FileTree

variable {t u : FileTree} {start : Place} {p : Path} {old content : ByteArray} {text : String}

/-- A file that can be read can be written, and is read then as it was written. -/
theorem writeBytes_of_readBytes (hread : t.readBytes start p = .ok old) (content : ByteArray) :
    ∃ u, t.writeBytes start p content = .ok u ∧ u.readBytes start p = .ok content := by
  unfold readBytes at hread
  obtain ⟨place, hfind, hentry⟩ := ok_of_bind hread
  split at hentry
  · next old' mode hfile =>
    have hne : place ≠ [] := ne_nil_of_lookup?_ne_directory (t := t) (by simp [hfile])
    have hwrite : t.writeBytes start p content = .ok (t.set place (.file content mode)) := by
      simp [writeBytes, find_ok hfind, hfile, bind, Except.bind]
    have hafter : (t.set place (.file content mode)).lookup? place = some (.file content mode) :=
      lookup?_set_self hne
    have hfind' := (waysStay_writeBytes hwrite).find (fun _ _ _ => ⟨_, _, hafter⟩) hfind
    exact ⟨_, hwrite, by simp [readBytes, hfind', hafter, bind, Except.bind]⟩
  · exact absurd hentry (by simp)
  · exact absurd hentry (by simp)

theorem isFile_of_readBytes (hread : t.readBytes start p = .ok old) : t.isFile start p = true := by
  unfold readBytes at hread
  obtain ⟨place, hfind, hentry⟩ := ok_of_bind hread
  split at hentry
  · next hfile => simp [isFile, entry?, hfind, hfile]
  · exact absurd hentry (by simp)
  · exact absurd hentry (by simp)

theorem readText_eq_ok : t.readText start p = .ok text ↔
    t.readBytes start p = .ok text.toUTF8 := by
  unfold readText
  constructor
  · intro h
    split at h
    · exact absurd h (by simp)
    · next bytes hbytes =>
      split at h
      · next hvalid =>
        obtain rfl := Except.ok.inj h
        rw [hbytes, toUTF8_of_fromUTF8? hvalid]
      · exact absurd h (by simp)
  · intro h
    rw [h]
    dsimp only
    rw [fromUTF8?_toUTF8]

/-- **A file that holds a text can be fixed**, and holds then the text with the line replaced. -/
theorem fixLine_of_readText (hread : t.readText start p = .ok text) (line : Nat) (new : String) :
    ∃ u, t.fixLine start p line new = .ok (u, Text.replaceLine text line new) ∧
      u.readText start p = .ok (Text.replaceLine text line new) := by
  have hbytes := readText_eq_ok.mp hread
  have hfile := isFile_of_readBytes hbytes
  by_cases hsame : Text.replaceLine text line new = text
  · exact ⟨t, by simp [fixLine, hfile, hread, hsame], by rw [hsame, hread]⟩
  · obtain ⟨u, hwrite, hafter⟩ :=
      writeBytes_of_readBytes hbytes (Text.replaceLine text line new).toUTF8
    refine ⟨u, ?_, readText_eq_ok.mpr hafter⟩
    simp only [fixLine, hfile, hread, hsame, writeText, hwrite, Bool.not_true, Bool.false_eq_true,
      if_false]

end FileTree

/-! ### Fixes -/

section Fixing

variable {s : Service} {t : FileTree} {q : Path} {order : FixOrder} {text : String}

/-- A fix of a file that holds a text is made. -/
theorem fixing_of_readText (order : FixOrder) (hread : t.readText s.here q = .ok text) :
    outcome (s.fixing q order) t =
        .ok (Text.replaceLine text (order.line.getD 0) order.fix) ∧
      (after (s.fixing q order) t).readText s.here q =
        .ok (Text.replaceLine text (order.line.getD 0) order.fix) := by
  obtain ⟨u, hfix, hafter⟩ := fixLine_of_readText hread (order.line.getD 0) order.fix
  unfold Service.fixing
  rw [Disk.outcome_of, Disk.after_of, hfix]
  exact ⟨rfl, hafter⟩

theorem readText_of_fixing (hdone : outcome (s.fixing q order) t = .ok text) :
    ∃ old, t.readText s.here q = .ok old := by
  unfold Service.fixing at hdone
  rw [Disk.outcome_of] at hdone
  split at hdone
  · next hfix =>
    obtain ⟨old, hread, -⟩ := fixLine_ok hfix
    exact ⟨old, hread⟩
  · exact absurd hdone (by simp)

end Fixing

/-- A text whose lines end in two ways, and whose last line does not end. -/
def mixedEnds : String := "a\r\nb\n\nc"

/-- A file with that text, beside a directory. -/
def mixedTree : FileTree :=
  ⟨[(["a.py"], .file mixedEnds.toUTF8 defaultMode), (["b.py"], .directory)]⟩

/-- Replacing the last line of a file. -/
def lastFix (file : String) : FixOrder := ⟨file, some 4, "d", ""⟩

end ReviewMentor
