import ByteMachine.Text.Half
import Mathlib.Data.List.TakeWhile

/-!
What texts stand for.  Every sequence of codes is that of a text, halves and private characters
included; and a text that is made of characters has no stray half and is written as these characters
are.
-/

namespace ByteMachine.Text

variable {c : Char} {code : Nat} {rest : List Char}

theorem codesOf_unmarked (hc : c ≠ mark) (rest : List Char) :
    codesOf (c :: rest) = unmarkedCode c :: codesOf rest := by
  cases rest with
  | nil => rfl
  | cons next rest =>
    rw [codesOf, if_neg fun h => hc h.1]

theorem codesOf_marked (hc : isMarked c) (rest : List Char) :
    codesOf (mark :: c :: rest) = c.toNat :: codesOf rest := by
  rw [codesOf, if_pos ⟨rfl, hc⟩]

theorem codesOf_ofChar (c : Char) (rest : List Char) :
    codesOf (ofChar c ++ rest) = c.toNat :: codesOf rest := by
  unfold ofChar
  split
  · next hc => exact codesOf_marked hc rest
  · next hc =>
    rw [isMarked, Bool.or_eq_true, not_or] at hc
    have hmark : c ≠ mark := by simpa using hc.2
    rw [List.singleton_append, codesOf_unmarked hmark, unmarkedCode, if_neg hc.1]

theorem toNat_ofNat (h : code.isValidChar) : (Char.ofNat code).toNat = code := by
  rw [Char.ofNat, dif_pos h]
  rfl

theorem toNat_ofHalf (h : isHalfCode code) :
    (Char.ofNat (code + halfDistance)).toNat = code + halfDistance := by
  simp only [isHalfCode, Bool.and_eq_true, decide_eq_true_eq] at h
  apply toNat_ofNat
  unfold Nat.isValidChar halfDistance
  omega

theorem codesOf_ofCode {text : List Char} (h : ofCode? code = some text) (rest : List Char) :
    codesOf (text ++ rest) = code :: codesOf rest := by
  unfold ofCode? at h
  split at h
  · next hhalf =>
    cases h
    have hcode := toNat_ofHalf hhalf
    have hmark : Char.ofNat (code + halfDistance) ≠ mark := by
      intro hm
      rw [hm] at hcode
      simp only [isHalfCode, Bool.and_eq_true, decide_eq_true_eq] at hhalf
      have hlast : mark.toNat = 0x10ffff := by rfl
      unfold halfDistance at hcode
      omega
    rw [List.singleton_append, codesOf_unmarked hmark, unmarkedCode, hcode, Nat.add_sub_cancel,
      if_pos hhalf]
  · next hhalf =>
    split at h
    · obtain rfl := Option.some.inj h
      have hvalid : code.isValidChar := by
        simp only [isHalfCode, Bool.and_eq_true, decide_eq_true_eq] at hhalf
        unfold Nat.isValidChar
        omega
      rw [codesOf_ofChar, toNat_ofNat hvalid]
    · cases h

theorem ofCode_some (h : code < 0x110000) : ∃ text, ofCode? code = some text := by
  unfold ofCode?
  split
  · exact ⟨_, rfl⟩
  · exact ⟨_, rfl⟩

/-- Every sequence of codes is that of a text. -/
theorem exists_text (list : List Nat) (h : ∀ code ∈ list, code < 0x110000) :
    ∃ text : String, codes text = list := by
  have hchars : ∃ chars, codesOf chars = list := by
    induction list with
    | nil => exact ⟨[], rfl⟩
    | cons code rest ih =>
      obtain ⟨chars, hc⟩ := ih fun other ho => h other (List.mem_cons_of_mem _ ho)
      obtain ⟨front, hfront⟩ := ofCode_some (h code List.mem_cons_self)
      exact ⟨front ++ chars, by rw [codesOf_ofCode hfront, hc]⟩
  obtain ⟨chars, hc⟩ := hchars
  exact ⟨String.ofList chars, by rw [codes, String.toList_ofList, hc]⟩

theorem codes_ofString (text : String) : codes (ofString text) = text.toList.map Char.toNat := by
  rw [codes, ofString, String.toList_ofList]
  induction text.toList with
  | nil => rfl
  | cons c rest ih => rw [List.flatMap_cons, codesOf_ofChar, ih, List.map_cons]

theorem toNat_not_half (c : Char) : isHalfCode c.toNat = false := by
  have hvalid := c.valid
  simp only [isHalfCode, Bool.and_eq_false_iff, decide_eq_false_iff_not]
  change (c.toNat < 0xd800 ∨ 0xdfff < c.toNat ∧ c.toNat < 0x110000) at hvalid
  omega

theorem firstStray?_ofString (text : String) : firstStray? (ofString text) = none := by
  have hplain : (codes (ofString text)).dropWhile (!isStray ·) = [] := by
    rw [codes_ofString, List.dropWhile_eq_nil_iff]
    intro code hcode
    obtain ⟨c, -, rfl⟩ := List.mem_map.mp hcode
    rw [isStray, toNat_not_half]
    rfl
  rw [firstStray?, hplain]

theorem bytes_ofString (text : String) :
    bytes (ofString text) = text.toList.flatMap String.utf8EncodeChar := by
  rw [bytes, codes_ofString, List.flatMap_map]
  congr 1
  funext c
  have hnot := toNat_not_half c
  simp only [isHalfCode, Bool.and_eq_false_iff, decide_eq_false_iff_not] at hnot
  rw [halfByte?, if_neg (by omega), Char.ofNat_toNat]

end ByteMachine.Text
