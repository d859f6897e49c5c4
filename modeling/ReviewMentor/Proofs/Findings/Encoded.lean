import ReviewMentor.Proofs.Findings.Normalized
import ReviewMentor.Proofs.Json.Literals

/-!
# Documents in literals

Radon's document may come as a string literal that holds its text. Then it says what the text says
by itself: taking the literal off gives back the text, and both ways to read it end alike. Just one
literal is taken off.
-/

namespace ReviewMentor

variable {text output : String} {root : Root}

namespace Radon

/-- A document in a literal has the files that it has by itself, unless it is a literal again. -/
theorem files?_string (h : ∀ inner, Json.parse? text ≠ some (.string inner)) :
    files? (.string text) = (Json.parse? text).bind files? := by
  rcases hparse : Json.parse? text with _ | document
  · rw [files?, hparse]
    rfl
  cases document with
  | string inner => exact absurd hparse (h inner)
  | _ =>
    rw [files?, hparse]
    rfl

/-- What is neither an object nor a literal has no files. -/
theorem files?_eq_none {document : Json} (hstring : ∀ inner, document ≠ .string inner)
    (hobject : ∀ files, document ≠ .object files) : files? document = none := by
  cases document with
  | string inner => exact absurd rfl (hstring inner)
  | object files => exact absurd rfl (hobject files)
  | _ => rfl

/-- The issues of an output are those of the files that its document has. Blanks make no difference
to that, since they are no document. -/
theorem normalize_eq (output : String) (root : Root) : Analyzer.radon.normalize output root =
    (((Json.parse? output).bind files?).getD []).flatMap fun f => fileIssues root f.1 f.2 := by
  unfold Analyzer.normalize
  split
  · next hblank => rw [Json.parse?_of_isAllBlank hblank, Option.bind_none]; rfl
  · rcases Json.parse? output with _ | document
    · rfl
    · rw [Option.bind_some]
      rfl

/-- Of two literals around a document only one is taken off, so a document that is encoded twice has
no issues. -/
theorem normalize_encoded_twice {literal inner : String} (hliteral : Json.IsLiteralOf literal text)
    (h : Json.parse? text = some (.string inner)) (root : Root) :
    Analyzer.radon.normalize literal root = [] := by
  have hnone : files? (.string text) = none := by rw [files?, h]
  rw [normalize_eq, Json.parse?_of_isLiteralOf hliteral, Option.bind_some, hnone]
  rfl

end Radon

/-- **Radon's output means the same in a literal.** Whatever text is encoded, and whichever of its
literals is printed, the issues are those of the text itself; there are none if it is no object. The
one exception is a text that is a literal already. -/
theorem encoded_output_means_the_same (text : String) (root : Root)
    (h : ∀ inner, Json.parse? text ≠ some (.string inner)) :
    (∀ literal, Json.IsLiteralOf literal text →
      Analyzer.radon.normalize literal root = Analyzer.radon.normalize text root) ∧
    Json.IsLiteralOf (Json.string text).compact text ∧
    ((∀ files, Json.parse? text ≠ some (.object files)) →
      Analyzer.radon.normalize text root = []) := by
  refine ⟨fun literal hliteral => ?_, Json.isLiteralOf_compact text, fun hobject => ?_⟩
  · rw [Radon.normalize_eq, Radon.normalize_eq, Json.parse?_of_isLiteralOf hliteral,
      Option.bind_some, Radon.files?_string h]
  · have hnone : (Json.parse? text).bind Radon.files? = none := by
      rcases hparse : Json.parse? text with _ | document
      · rfl
      · exact Radon.files?_eq_none (fun inner e => h inner (hparse.trans (congrArg some e)))
          fun files e => hobject files (hparse.trans (congrArg some e))
    rw [Radon.normalize_eq, hnone]
    rfl

/-- A document of one hard block, as it is and in a literal that starts with a code unit. -/
theorem encoded_output_means_the_same_block :
    let text := (Json.object [hardFile]).compact
    let literal := "\"\\u007b" ++ String.ofList (text.toList.tail.flatMap Json.escapeChar) ++ "\""
    (∀ inner, Json.parse? text ≠ some (.string inner)) ∧ Json.IsLiteralOf literal text ∧
    Analyzer.radon.normalize literal ⟨⟨"/p"⟩, none⟩ =
      Analyzer.radon.normalize text ⟨⟨"/p"⟩, none⟩ ∧
    (Analyzer.radon.normalize text ⟨⟨"/p"⟩, none⟩).map Issue.message =
      ["Item 'f' (complexity: 11)"] ∧
    Analyzer.radon.normalize "[]" ⟨⟨"/p"⟩, none⟩ = [] := by
  intro text literal
  have hparse : Json.parse? text = some (.object [("b.py", .array [hardBlock])]) :=
    Json.parse?_written (by decide) (by decide) (.inl rfl)
  have harray : Json.parse? "[]" = some (.array []) :=
    Json.parse?_written (j := .array []) (by decide) (by decide) (.inl (by decide +kernel))
  have hno : ∀ inner, Json.parse? text ≠ some (.string inner) := fun inner => by simp [hparse]
  have hliteral : Json.IsLiteralOf literal text := by
    have hbrace : text.toList = '\x7b' :: text.toList.tail := by decide +kernel
    have hunit : Json.Writes '\x7b' "\\u007b".toList := .unit ⟨0, 0, 7, 11, by decide, by decide⟩
    refine ⟨"\\u007b".toList :: text.toList.tail.map Json.escapeChar, ?_, ?_⟩
    · rw [hbrace]
      exact .cons hunit (List.forall₂_map_right_iff.mpr
        (List.forall₂_same.mpr fun c _ => Json.writes_escapeChar c))
    · simp [literal, List.flatMap_def]
  refine ⟨hno, hliteral, (encoded_output_means_the_same text _ hno).1 literal hliteral, ?_,
    (encoded_output_means_the_same "[]" _ (by simp [harray])).2.2 (by simp [harray])⟩
  rw [Radon.normalize_eq, hparse]
  decide +kernel

end ReviewMentor
