import ByteMachine.Numeral
import Mathlib.Data.List.TakeWhile

/-!
Integers read back from the texts that they are written as.  Digits may have zeros in front of them,
and letters among them may be small or capital.
-/

namespace ByteMachine

theorem eq_toLower_or (c : Char) : c = c.toLower ∨ c = c.toLower.toUpper := by
  by_cases hc : 'A'.val ≤ c.val ∧ c.val ≤ 'Z'.val
  · have hlower : c.toLower.val = c.val + 32 := by
      delta Char.toLower
      rw [dif_pos hc]
      rfl
    have hsmall : 'a'.val ≤ c.toLower.val ∧ c.toLower.val ≤ 'z'.val := by
      obtain ⟨hlow, hhigh⟩ := hc
      rw [UInt32.le_iff_toNat_le] at hlow hhigh
      rw [hlower, UInt32.le_iff_toNat_le, UInt32.le_iff_toNat_le, UInt32.toNat_add]
      simp only [Char.reduceVal, UInt32.reduceToNat] at hlow hhigh ⊢
      omega
    have hback : c.toLower.toUpper.val = c.toLower.val + ('A'.val - 'a'.val) := by
      delta Char.toUpper
      rw [dif_pos hsmall]
    right
    apply Char.ext
    rw [hback, hlower, UInt32.add_assoc]
    exact (UInt32.add_zero c.val).symm
  · left
    delta Char.toLower
    rw [dif_neg hc]

theorem Text.trim_of_solid {text : List Char} (h : ∀ c ∈ text, isBlank c = false) :
    trim text = text := by
  have hkeep : ∀ part : List Char, (∀ c ∈ part, isBlank c = false) →
      part.dropWhile isBlank = part := fun part hp =>
    List.dropWhile_eq_self_iff.mpr fun hl => by simp [hp _ (List.getElem_mem hl)]
  rw [trim, hkeep text h, hkeep _ (by simpa using h), List.reverse_reverse]

namespace Numeral

variable {base n d value : Nat} {digits : List Char} {c : Char} {text : String}

/-- The digits are those of the number, perhaps with zeros in front of them. -/
def Digits (base : Nat) (digits : List Char) (n : Nat) : Prop :=
  ∃ zeros, digits.map Char.toLower = List.replicate zeros '0' ++ Nat.toDigits base n

/-- The ways of writing a number: decimal, with or without a sign, and hexadecimal. -/
inductive Spells : String → Int → Prop where
  | decimal {digits : List Char} {n : Nat} (h : Digits 10 digits n) :
      Spells (String.ofList digits) n
  | positive {digits : List Char} {n : Nat} (h : Digits 10 digits n) :
      Spells (String.ofList ('+' :: digits)) n
  | negative {digits : List Char} {n : Nat} (h : Digits 10 digits n) :
      Spells (String.ofList ('-' :: digits)) (-n)
  | hexadecimal {mark : Char} {digits : List Char} {n : Nat} (hm : mark = 'x' ∨ mark = 'X')
      (h : Digits 16 digits n) : Spells (String.ofList ('0' :: mark :: digits)) n

theorem hexDigit_digitChar : ∀ d < 16,
    Text.hexDigit? (Nat.digitChar d) = some d ∧ Text.isBlank (Nat.digitChar d) = false := by
  decide

theorem hexDigit_capital : ∀ d < 16, Text.hexDigit? (Nat.digitChar d).toUpper = some d ∧
    Text.isBlank (Nat.digitChar d).toUpper = false := by
  decide

theorem hexDigit_of_toLower (hd : d < 16) (hc : c.toLower = Nat.digitChar d) :
    Text.hexDigit? c = some d ∧ Text.isBlank c = false := by
  have hcase := eq_toLower_or c
  rw [hc] at hcase
  obtain rfl | rfl := hcase
  · exact hexDigit_digitChar d hd
  · exact hexDigit_capital d hd

theorem digit_of_toLower (hb : base ≤ 16) (hd : d < base) (hc : c.toLower = Nat.digitChar d) :
    digit? base c = some d := by
  rw [digit?, (hexDigit_of_toLower (by omega) hc).1]
  exact Option.filter_some_pos (by simpa using hd)

def Digital (base : Nat) (text : List Char) : Prop := ∀ c ∈ text, (digit? base c).isSome

def valueFrom (base value : Nat) (digits : List Char) : Nat :=
  digits.foldl (fun value c => value * base + (digit? base c).getD 0) value

structure Denotes (base : Nat) (digits : List Char) (n : Nat) : Prop where
  digital : Digital base digits
  solid : ∀ c ∈ digits, Text.isBlank c = false
  value : valueFrom base 0 digits = n

theorem digit_ne {mark : Char} (h : (digit? base c).isSome) (hm : Text.hexDigit? mark = none) :
    c ≠ mark := by
  rintro rfl
  rw [digit?, hm] at h
  exact nomatch h

theorem hexDigit_underscore : Text.hexDigit? '_' = none := by decide

theorem foldDigits_digital (h : Digital base digits) :
    foldDigits base value digits = some (valueFrom base value digits) := by
  induction digits generalizing value with
  | nil => rfl
  | cons c digits ih =>
    obtain ⟨hc, hrest⟩ := List.forall_mem_cons.mp h
    obtain ⟨d, hd⟩ := Option.isSome_iff_exists.mp hc
    have hmark : c ≠ '_' := digit_ne hc hexDigit_underscore
    rw [foldDigits]
    · simp only [hd, ih hrest, valueFrom, List.foldl_cons, Option.getD_some]
    · intro _ _ h _
      exact hmark h

section Denotes

theorem denotes_digit (hb : base ≤ 16) (hd : d < base) (hc : c.toLower = Nat.digitChar d) :
    Denotes base [c] d where
  digital := List.forall_mem_singleton.mpr (by rw [digit_of_toLower hb hd hc]; rfl)
  solid := List.forall_mem_singleton.mpr (hexDigit_of_toLower (by omega) hc).2
  value := by simp [valueFrom, digit_of_toLower hb hd hc]

theorem Denotes.snoc (h : Denotes base digits n) (hc : Denotes base [c] d) :
    Denotes base (digits ++ [c]) (n * base + d) where
  digital := List.forall_mem_append.mpr ⟨h.digital, hc.digital⟩
  solid := List.forall_mem_append.mpr ⟨h.solid, hc.solid⟩
  value := by
    have hn := h.value
    have hd := hc.value
    simp only [valueFrom, List.foldl_cons, List.foldl_nil, Nat.zero_mul, Nat.zero_add] at hn hd
    rw [valueFrom, List.foldl_append, hn, List.foldl_cons, hd, List.foldl_nil]

theorem Denotes.zero_cons (h : Denotes base digits n) (hc : Denotes base [c] 0) :
    Denotes base (c :: digits) n where
  digital := List.forall_mem_append.mpr ⟨hc.digital, h.digital⟩
  solid := List.forall_mem_append.mpr ⟨hc.solid, h.solid⟩
  value := by
    have hzero := hc.value
    simp only [valueFrom, List.foldl_cons, List.foldl_nil] at hzero
    rw [valueFrom, List.foldl_cons, hzero]
    exact h.value

theorem denotes_toDigits (hb : 1 < base) (hle : base ≤ 16)
    (h : digits.map Char.toLower = Nat.toDigits base n) : Denotes base digits n := by
  induction n using Nat.strongRecOn generalizing digits with
  | ind n ih =>
    by_cases hn : n < base
    · rw [Nat.toDigits_of_lt_base hn, List.map_eq_singleton_iff] at h
      obtain ⟨c, rfl, hc⟩ := h
      exact denotes_digit hle hn hc
    · rw [Nat.toDigits_of_base_le hb (by omega), List.map_eq_append_iff] at h
      obtain ⟨front, last, rfl, hfront, hlast⟩ := h
      rw [List.map_eq_singleton_iff] at hlast
      obtain ⟨c, rfl, hc⟩ := hlast
      have hless : n / base < n := Nat.div_lt_self (by omega) hb
      have hsnoc := (ih _ hless hfront).snoc
        (denotes_digit hle (Nat.mod_lt n (by omega)) hc)
      rwa [Nat.div_add_mod'] at hsnoc

theorem Digits.denotes (hb : 1 < base) (hle : base ≤ 16) (h : Digits base digits n) :
    Denotes base digits n := by
  obtain ⟨zeros, h⟩ := h
  induction zeros generalizing digits with
  | zero => exact denotes_toDigits hb hle h
  | succ zeros ih =>
    rw [List.replicate_succ, List.cons_append, List.map_eq_cons_iff] at h
    obtain ⟨c, rest, rfl, hc, hrest⟩ := h
    exact (ih hrest).zero_cons (denotes_digit hle (by omega) hc)

theorem Digits.ne_nil (h : Digits base digits n) : digits ≠ [] := by
  rintro rfl
  obtain ⟨zeros, h⟩ := h
  exact Nat.toDigits_ne_nil (List.append_eq_nil_iff.mp h.symm).2

end Denotes

section Parsing

variable {rest : List Char}

theorem magnitude_eq (hw : withoutMark base rest = digits) (hne : digits ≠ [])
    (h : Denotes base digits n) : magnitude? base rest = some n := by
  obtain ⟨c, digits, rfl⟩ := List.exists_cons_of_ne_nil hne
  have hmark : c ≠ '_' := digit_ne (h.digital c List.mem_cons_self) hexDigit_underscore
  rw [magnitude?, hw]
  split
  · contradiction
  · next heq => exact absurd (List.cons.inj heq).1 hmark
  · rw [foldDigits_digital h.digital, h.value]

theorem withoutMark_ten (text : List Char) : withoutMark 10 text = text := by
  unfold withoutMark
  split
  · exact if_neg (fun h => nomatch h.2)
  · rfl

theorem magnitude_ten (h : Digits 10 digits n) : magnitude? 10 digits = some n :=
  magnitude_eq (withoutMark_ten digits) h.ne_nil (h.denotes (by decide) (by decide))

theorem magnitude_sixteen {mark : Char} (hm : mark = 'x' ∨ mark = 'X') (h : Digits 16 digits n) :
    magnitude? 16 ('0' :: mark :: digits) = some n := by
  have hdenotes := h.denotes (by decide) (by decide)
  refine magnitude_eq ?_ h.ne_nil hdenotes
  have hzero : digit? 16 '0' = some 0 ∧ mark? 16 = some mark.toLower := by
    obtain rfl | rfl := hm <;> decide
  rw [withoutMark, if_pos hzero]
  rintro rest rfl
  exact digit_ne (hdenotes.digital '_' List.mem_cons_self) hexDigit_underscore rfl

theorem parse_decimal {text : List Char} (h : ∀ mark rest, text = '0' :: mark :: rest →
    mark ≠ 'x' ∧ mark ≠ 'X') : parse? (String.ofList text) = inBase? 10 text := by
  rw [parse?, String.toList_ofList]
  split
  · next rest => exact absurd rfl (h 'x' rest rfl).1
  · next rest => exact absurd rfl (h 'X' rest rfl).2
  · rfl

theorem solid_cons (hs : Text.isBlank c = false) (h : Denotes base digits n) :
    Text.trim (c :: digits) = c :: digits :=
  Text.trim_of_solid (List.forall_mem_cons.mpr ⟨hs, h.solid⟩)

theorem parse_spelled {number : Int} (h : Spells text number) : parse? text = some number := by
  cases h with
  | @decimal digits n h =>
    have hd := h.denotes (by decide) (by decide)
    have hnot : ∀ mark rest, digits = '0' :: mark :: rest → mark ≠ 'x' ∧ mark ≠ 'X' := by
      rintro mark rest rfl
      have hmark := hd.digital mark (by simp)
      exact ⟨digit_ne hmark (by decide), digit_ne hmark (by decide)⟩
    rw [parse_decimal hnot, inBase?, Text.trim_of_solid hd.solid]
    split
    · exact absurd rfl (digit_ne (hd.digital '-' List.mem_cons_self) (by decide))
    · exact absurd rfl (digit_ne (hd.digital '+' List.mem_cons_self) (by decide))
    · rw [magnitude_ten h]
      rfl
  | positive h =>
    rw [parse_decimal (fun _ _ h => absurd (List.cons.inj h).1 (by decide)), inBase?,
      solid_cons (by decide) (h.denotes (by decide) (by decide))]
    simp [magnitude_ten h]
  | negative h =>
    rw [parse_decimal (fun _ _ h => absurd (List.cons.inj h).1 (by decide)), inBase?,
      solid_cons (by decide) (h.denotes (by decide) (by decide))]
    simp [magnitude_ten h]
  | @hexadecimal mark digits n hm h =>
    have hd := h.denotes (by decide) (by decide)
    have htext : parse? (String.ofList ('0' :: mark :: digits)) =
        inBase? 16 ('0' :: mark :: digits) := by
      rw [parse?, String.toList_ofList]
      obtain rfl | rfl := hm <;> rfl
    have hsolid : Text.trim ('0' :: mark :: digits) = '0' :: mark :: digits := by
      refine Text.trim_of_solid (List.forall_mem_cons.mpr ⟨by decide, ?_⟩)
      refine List.forall_mem_cons.mpr ⟨?_, hd.solid⟩
      obtain rfl | rfl := hm <;> decide
    rw [htext, inBase?, hsolid]
    simp [magnitude_sixteen hm h]

theorem toLower_digitChar : ∀ d < 16, (Nat.digitChar d).toLower = Nat.digitChar d := by decide

theorem toLower_toDigits (hb : 1 < base) (hle : base ≤ 16) (n : Nat) :
    (Nat.toDigits base n).map Char.toLower = Nat.toDigits base n := by
  induction n using Nat.strongRecOn with
  | ind n ih =>
    by_cases hn : n < base
    · rw [Nat.toDigits_of_lt_base hn, List.map_singleton, toLower_digitChar n (by omega)]
    · have hless : n / base < n := Nat.div_lt_self (by omega) hb
      have hlast : n % base < base := Nat.mod_lt n (by omega)
      rw [Nat.toDigits_of_base_le hb (by omega), List.map_append, ih _ hless, List.map_singleton,
        toLower_digitChar _ (by omega)]

theorem digits_toDigits (hb : 1 < base) (hle : base ≤ 16) (n : Nat) :
    Digits base (Nat.toDigits base n) n :=
  ⟨0, toLower_toDigits hb hle n⟩

theorem spells_toString (number : Int) : Spells (toString number) number := by
  rw [Int.toString_eq_repr, Int.repr_eq_if]
  split
  · next h =>
    have hspells := Spells.decimal (digits_toDigits (by decide) (by decide) number.toNat)
    rwa [Int.toNat_of_nonneg h] at hspells
  · next h =>
    have hspells := Spells.negative (digits_toDigits (by decide) (by decide) (-number).toNat)
    rw [Int.toNat_of_nonneg (by omega), Int.neg_neg] at hspells
    rwa [Nat.repr_eq_ofList_toDigits, show "-" = String.ofList ['-'] from rfl,
      ← String.ofList_append, List.singleton_append]

theorem repr_inj {a b : Int} : a.repr = b.repr ↔ a = b := by
  constructor
  · intro h
    have ha := parse_spelled (spells_toString a)
    rw [Int.toString_eq_repr, h, ← Int.toString_eq_repr, parse_spelled (spells_toString b)] at ha
    exact (Option.some.inj ha).symm
  · intro h
    rw [h]

end Parsing

end Numeral

end ByteMachine
