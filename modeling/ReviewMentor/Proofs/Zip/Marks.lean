import Mathlib.Data.List.Basic
import ReviewMentor.Zip.Directory

/-!
# Marks in lists of bytes

The marks of an archive are found one position at a time, and each look at a position goes through
the bytes before it. If the bytes are a list, one pass over the list finds the same marks. This is
how archives that are written out are read in proofs.
-/

namespace ReviewMentor.Zip

/-- The number that the first bytes of a list give, the lowest one first. -/
def firstWord? : Nat → List UInt8 → Option Nat
  | 0, _ => some 0
  | _ + 1, [] => none
  | count + 1, low :: rest => (firstWord? count rest).map (low.toNat + 256 * ·)

/-- The positions of a list where a mark stands, found in one pass. -/
def marksIn (mark : Nat) : Nat → List UInt8 → List Nat
  | _, [] => []
  | position, low :: rest =>
    let marks := marksIn mark (position + 1) rest
    if firstWord? 4 (low :: rest) = some mark then position :: marks else marks

theorem wordAt?_eq (bytes : List UInt8) (position count : Nat) :
    wordAt? ⟨bytes.toArray⟩ position count = firstWord? count (bytes.drop position) := by
  induction count generalizing position with
  | zero => rfl
  | succ count ih =>
    rw [wordAt?, ih]
    rcases hdrop : bytes.drop position with _ | ⟨low, rest⟩
    · have hnone : (⟨bytes.toArray⟩ : ByteArray)[position]? = none :=
        getElem?_neg _ _ (Nat.not_lt.mpr (List.drop_eq_nil_iff.mp hdrop))
      rw [hnone]
      rfl
    · obtain ⟨hlt, hget⟩ := List.getElem?_eq_some_iff.mp
        (show bytes[position]? = some low by rw [← List.head?_drop, hdrop]; rfl)
      have hlow : (⟨bytes.toArray⟩ : ByteArray)[position]? = some low :=
        (getElem?_pos _ _ (by exact hlt)).trans (congrArg some hget)
      have hrest : bytes.drop (position + 1) = rest := by
        rw [← List.tail_drop, hdrop, List.tail_cons]
      rw [hlow, hrest, firstWord?]
      cases firstWord? count rest <;> rfl

theorem marksIn_eq (mark position : Nat) (bytes : List UInt8) :
    marksIn mark position bytes = ((List.range bytes.length).filter fun offset =>
      firstWord? 4 (bytes.drop offset) = some mark).map (position + ·) := by
  induction bytes generalizing position with
  | nil => rfl
  | cons low rest ih =>
    have hrest : marksIn mark (position + 1) rest = (((List.range rest.length).map (· + 1)).filter
        fun offset => firstWord? 4 ((low :: rest).drop offset) = some mark).map (position + ·) := by
      rw [ih, List.filter_map, List.map_map]
      exact List.map_congr_left fun offset _ => by simp; omega
    rw [List.length_cons, List.range_succ_eq_map, List.filter_cons, List.drop_zero, marksIn, hrest]
    split <;> rename_i h <;> simp [h]

theorem findMarks_eq (mark : Nat) (bytes : List UInt8) :
    findMarks ⟨bytes.toArray⟩ mark 0 bytes.length = marksIn mark 0 bytes := by
  rw [marksIn_eq, findMarks, show (⟨bytes.toArray⟩ : ByteArray).size = bytes.length from rfl]
  simp [wordAt?_eq]

theorem directory?_eq (bytes : List UInt8) : directory? ⟨bytes.toArray⟩ =
    ((marksIn endMark 0 bytes).reverse.findSome? (recordsFrom? ⟨bytes.toArray⟩)).map
      (·.foldl putRecord []) := by
  rw [← findMarks_eq]
  exact (Option.map_eq_bind ..).symm

end ReviewMentor.Zip
