import Mathlib.Tactic.Common
import ReviewMentor.Http.Form
import ReviewMentor.Proofs.Text.Cutting

/-!
# Plain texts in forms

A text without the characters that forms and escapes use stands for itself in a form.
-/

namespace ReviewMentor.Http

/-! ### Bytes -/

theorem toList_loop (bytes : ByteArray) (i : Nat) (read : List UInt8) :
    ByteArray.toList.loop bytes i read = read.reverse ++ bytes.data.toList.drop i := by
  fun_induction ByteArray.toList.loop bytes i read with
  | case1 i read hi ih =>
    rw [ih]
    have hi' : i < bytes.data.toList.length := hi
    rw [List.drop_eq_getElem_cons hi']
    simp [ByteArray.get!, hi]
  | case2 i read hi =>
    rw [List.drop_eq_nil_of_le (by simpa using Nat.not_lt.mp hi), List.append_nil]

theorem toList_bytes (bytes : ByteArray) : bytes.toList = bytes.data.toList := by
  rw [ByteArray.toList, toList_loop]
  rfl

/-- A byte below 128 only stands for its own character. -/
theorem toNat_of_mem_encode {b : UInt8} {c : Char} (hb : b.toNat < 128)
    (h : b ∈ String.utf8EncodeChar c) : c.toNat = b.toNat := by
  have hbyte : ∀ n, b = UInt8.ofNat n → b.toNat = n % 256 := by
    rintro n rfl
    exact UInt8.toNat_ofNat'
  have hc : c.val.toNat = c.toNat := rfl
  unfold String.utf8EncodeChar at h
  dsimp only at h
  -- All bytes of a character with several bytes are 128 at least.
  split_ifs at h with h1 h2 h3 <;> simp only [List.mem_cons, List.not_mem_nil, or_false] at h
  · have := hbyte _ h
    omega
  · rcases h with h | h <;> have := hbyte _ h <;> omega
  · rcases h with h | h | h <;> have := hbyte _ h <;> omega
  · rcases h with h | h | h | h <;> have := hbyte _ h <;> omega

theorem not_mem_toUTF8 {s : String} (h : '%' ∉ s.toList) : 0x25 ∉ s.toUTF8.toList := by
  intro hmem
  have hbytes : s.toUTF8 = (s.toList.flatMap String.utf8EncodeChar).toByteArray := by
    conv_lhs => rw [← String.ofList_toList (s := s)]
    exact String.toByteArray_ofList
  rw [toList_bytes, hbytes, List.data_toByteArray] at hmem
  obtain ⟨c, hc, hb⟩ := List.mem_flatMap.mp hmem
  have hpercent : c.toNat = '%'.toNat := toNat_of_mem_encode (by decide) hb
  exact h (Char.toNat_inj.mp hpercent ▸ hc)

/-! ### Texts -/

theorem unescapeBytes_of_not_mem {bytes : List UInt8} (h : 0x25 ∉ bytes) :
    unescapeBytes bytes = bytes := by
  induction bytes with
  | nil => rfl
  | cons b rest ih =>
    obtain ⟨hb, hrest⟩ := not_or.mp (List.mem_cons.not.mp h)
    rw [unescapeBytes, ih hrest]
    rintro high low more rfl
    exact absurd rfl hb

/-- A text without the characters that forms and escapes use. -/
structure Plain (s : String) : Prop where
  noPercent : '%' ∉ s.toList
  noPlus : '+' ∉ s.toList
  noAnd : '&' ∉ s.toList
  noEquals : '=' ∉ s.toList

variable {name value s t : String}

theorem Plain.append (hs : Plain s) (ht : Plain t) : Plain (s ++ t) := by
  refine ⟨?_, ?_, ?_, ?_⟩ <;> rw [String.toList_append, List.mem_append, not_or]
  · exact ⟨hs.noPercent, ht.noPercent⟩
  · exact ⟨hs.noPlus, ht.noPlus⟩
  · exact ⟨hs.noAnd, ht.noAnd⟩
  · exact ⟨hs.noEquals, ht.noEquals⟩

theorem formText_of_plain (h : Plain s) : formText s = s := by
  have hmap : (s.toList.map fun c => if c = '+' then ' ' else c) = s.toList := by
    refine (List.map_congr_left fun c hc => ?_).trans (List.map_id _)
    have hne : c ≠ '+' := fun hplus => h.noPlus (hplus ▸ hc)
    exact if_neg hne
  have hunescape : unescape s = s.toUTF8 := by
    rw [unescape, unescapeBytes_of_not_mem (not_mem_toUTF8 h.noPercent), toList_bytes]
  rw [formText, hmap, String.ofList_toList, hunescape, Text.ofBytesLossy,
    show String.fromUTF8? s.toUTF8 = some s from dif_pos s.isValidUTF8]

theorem formField_of_plain (hname : Plain name) (hvalue : Plain value) :
    formField (name ++ "=" ++ value) = (name, value) := by
  have hcs : (name ++ "=" ++ value).toList = name.toList ++ '=' :: value.toList := by simp
  have htake : (name.toList ++ '=' :: value.toList).takeWhile (· ≠ '=') = name.toList := by
    rw [List.takeWhile_append_of_pos fun c hc => by
      simpa using fun heq : c = '=' => hname.noEquals (heq ▸ hc)]
    simp
  unfold formField
  dsimp only
  rw [hcs, htake]
  simp [formText_of_plain hname, formText_of_plain hvalue]

theorem formFields_single (hname : Plain name) (hvalue : Plain value) :
    formFields (name ++ "=" ++ value) = [(name, value)] := by
  have hand : '&' ∉ (name ++ "=" ++ value).toList := by
    simp [hname.noAnd, hvalue.noAnd]
  have hne : name ++ "=" ++ value ≠ "" := fun h => by
    simpa using congrArg String.toList h
  rw [formFields, Text.cut_of_not_mem hand]
  simp [hne, formField_of_plain hname hvalue]

/-- A field before others is read by itself. -/
theorem formFields_cons (hname : Plain name) (hvalue : Plain value) (rest : String) :
    formFields (name ++ "=" ++ value ++ "&" ++ rest) = (name, value) :: formFields rest := by
  have hcut : Text.cut '&' (name ++ "=" ++ value ++ "&" ++ rest) =
      Text.cut '&' (name ++ "=" ++ value) ++ Text.cut '&' rest := by
    have hmark : (name ++ "=" ++ value ++ "&" ++ rest).toList =
        (name ++ "=" ++ value).toList ++ '&' :: rest.toList := by simp
    rw [Text.cut, hmark, Text.cutAt_append_mark, List.map_append]
    rfl
  rw [formFields, hcut, List.filter_append, List.map_append]
  exact congrArg (· ++ _) (formFields_single hname hvalue)

end ReviewMentor.Http
