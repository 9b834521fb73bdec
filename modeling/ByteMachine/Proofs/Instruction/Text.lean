import ByteMachine.Instruction
import ByteMachine.Proofs.Hex
import ByteMachine.Proofs.Numeral
import Mathlib.Data.List.TakeWhile

/-!
Texts of instructions.  A blank ends the mnemonic and a comma every operand but the last, and none
of them contains the mark that ends it; so no two instructions have the same text.
-/

namespace ByteMachine

theorem number_chars {n : Int} {c : Char} (hc : c ∈ n.repr.toList) : c.isDigit ∨ c = '-' := by
  have hdigits : ∀ m : Nat, c ∈ Nat.toDigits 10 m → c.isDigit := fun m =>
    Nat.isDigit_of_mem_toDigits (by decide) (by decide)
  cases n with
  | ofNat n =>
    have hc : c ∈ n.repr.toList := hc
    exact .inl (hdigits n (by simpa using hc))
  | negSucc n =>
    have hc : c ∈ "-".toList ++ (n + 1).repr.toList := by simpa [Int.repr] using hc
    rcases List.mem_append.mp hc with hc | hc
    · exact .inr (by simpa using hc)
    · exact .inl (hdigits (n + 1) (by simpa using hc))

theorem comma_not_mem_number (n : Int) : ',' ∉ n.repr.toList := by
  intro hc
  rcases number_chars hc with h | h
  · exact absurd h (by decide)
  · exact absurd h (by decide)

namespace Hex

theorem upperByte_injective : Function.Injective upperByte := by
  intro a b h
  have hdigits : (upperByte a).toList = (upperByte b).toList := congrArg String.toList h
  rw [upperByte_digits, upperByte_digits] at hdigits
  obtain ⟨hhigh, hlow⟩ : upperDigit (a.toNat / 16) = upperDigit (b.toNat / 16) ∧
      upperDigit (a.toNat % 16) = upperDigit (b.toNat % 16) := by simpa using hdigits
  have hpair := pair_upperDigits a
  rw [hhigh, hlow, pair_upperDigits] at hpair
  exact (Option.some.inj hpair).symm

theorem comma_not_mem_upperByte (byte : UInt8) : ',' ∉ (upperByte byte).toList := by
  have hall : ∀ n < 16, upperDigit n ≠ ',' := by decide
  have hb := byte.toNat_lt
  rw [upperByte_digits]
  simp only [List.mem_cons, List.not_mem_nil, or_false, not_or]
  exact ⟨(hall _ (by omega)).symm, (hall _ (by omega)).symm⟩

end Hex

namespace Operand

theorem text_literal (n : Int) : (literal n).text = "#" ++ n.repr := rfl

theorem text_register {n : Int} (hn : n < registerCount) : (reference n).text = "R" ++ n.repr := by
  rw [text, if_pos hn]
  rfl

theorem text_cell {n : Int} (hn : ¬n < registerCount) :
    (reference n).text = "[" ++ n.repr ++ "]" := by
  rw [text, if_neg hn]
  rfl

theorem text_injective : Function.Injective Operand.text := by
  intro a b h
  have hhead := congrArg (fun text : String => text.toList.head?) h
  cases a with
  | literal n =>
    cases b with
    | literal m =>
      rw [text_literal, text_literal, String.append_right_inj, Numeral.repr_inj] at h
      rw [h]
    | reference m =>
      by_cases hm : m < registerCount
      · simp [text_literal, text_register hm] at hhead
      · simp [text_literal, text_cell hm] at hhead
  | reference n =>
    cases b with
    | literal m =>
      by_cases hn : n < registerCount
      · simp [text_literal, text_register hn] at hhead
      · simp [text_literal, text_cell hn] at hhead
    | reference m =>
      by_cases hn : n < registerCount
      · by_cases hm : m < registerCount
        · rw [text_register hn, text_register hm, String.append_right_inj, Numeral.repr_inj] at h
          rw [h]
        · simp [text_register hn, text_cell hm] at hhead
      · by_cases hm : m < registerCount
        · simp [text_cell hn, text_register hm] at hhead
        · rw [text_cell hn, text_cell hm, String.append_left_inj, String.append_right_inj,
            Numeral.repr_inj] at h
          rw [h]

theorem comma_not_mem_text (operand : Operand) : ',' ∉ operand.text.toList := by
  cases operand with
  | literal n => simp [text_literal, comma_not_mem_number]
  | reference n =>
    by_cases hn : n < registerCount
    · simp [text_register hn, comma_not_mem_number]
    · simp [text_cell hn, comma_not_mem_number]

end Operand

namespace Argument

theorem text_head (operand : Operand) : operand.text.toList.head? ≠ some '$' := by
  cases operand with
  | literal n => simp [Operand.text_literal]
  | reference n =>
    by_cases hn : n < registerCount
    · simp [Operand.text_register hn]
    · simp [Operand.text_cell hn]

theorem text_injective : Function.Injective Argument.text := by
  have hraw : ∀ byte, (raw byte).text.toList.head? = some '$' := fun byte => by simp [text]
  intro a b h
  have hhead := congrArg (fun text : String => text.toList.head?) h
  cases a with
  | operand o =>
    cases b with
    | operand p => rw [Operand.text_injective h]
    | raw byte => exact absurd (hhead.trans (hraw byte)) (text_head o)
  | raw byte =>
    cases b with
    | operand p => exact absurd (hhead.symm.trans (hraw byte)) (text_head p)
    | raw other => rw [Hex.upperByte_injective ((String.append_right_inj "$").mp h)]

theorem comma_not_mem_text (argument : Argument) : ',' ∉ argument.text.toList := by
  cases argument with
  | operand o => exact o.comma_not_mem_text
  | raw byte => simp [text, Hex.comma_not_mem_upperByte]

end Argument

theorem split_at_mark {mark : Char} {x y xs ys : List Char} (hx : mark ∉ x) (hy : mark ∉ y)
    (h : x ++ mark :: xs = y ++ mark :: ys) : x = y ∧ xs = ys := by
  have hfront : ∀ z zs : List Char, mark ∉ z → (z ++ mark :: zs).takeWhile (· ≠ mark) = z := by
    intro z zs hz
    rw [List.takeWhile_append_of_pos fun c hc => decide_eq_true (ne_of_mem_of_not_mem hc hz)]
    simp
  have hsame : x = y := by rw [← hfront x xs hx, h, hfront y ys hy]
  subst hsame
  exact ⟨rfl, (List.cons.inj (List.append_cancel_left h)).2⟩

theorem intercalate_injective {xs ys : List String} (hx : ∀ x ∈ xs, ',' ∉ x.toList)
    (hy : ∀ y ∈ ys, ',' ∉ y.toList) (hxs : xs ≠ []) (hys : ys ≠ [])
    (h : ", ".intercalate xs = ", ".intercalate ys) : xs = ys := by
  induction xs generalizing ys with
  | nil => exact absurd rfl hxs
  | cons x xs ih =>
    cases ys with
    | nil => exact absurd rfl hys
    | cons y ys =>
      have hx0 := hx x (List.mem_cons_self ..)
      have hy0 := hy y (List.mem_cons_self ..)
      have hlist := congrArg String.toList h
      cases xs with
      | nil =>
        cases ys with
        | nil => simpa using h
        | cons y' ys =>
          rw [String.intercalate_singleton] at hlist
          refine absurd ?_ hx0
          rw [hlist]
          simp [String.intercalate_cons_cons]
      | cons x' xs =>
        cases ys with
        | nil =>
          rw [String.intercalate_singleton] at hlist
          refine absurd ?_ hy0
          rw [← hlist]
          simp [String.intercalate_cons_cons]
        | cons y' ys =>
          have hsplit : ∀ (t t' : String) (ts : List String),
              (", ".intercalate (t :: t' :: ts)).toList =
                t.toList ++ ',' :: ' ' :: (", ".intercalate (t' :: ts)).toList := by
            intro t t' ts
            simp [String.intercalate_cons_cons]
          rw [hsplit, hsplit] at hlist
          obtain ⟨hfirst, hrest⟩ := split_at_mark hx0 hy0 hlist
          have hrest := String.toList_inj.mp (List.cons.inj hrest).2
          rw [String.toList_inj.mp hfirst, ih (fun z hz => hx z (.tail _ hz))
            (fun z hz => hy z (.tail _ hz)) (List.cons_ne_nil _ _) (List.cons_ne_nil _ _) hrest]

namespace Instruction

variable {a b : Instruction}

theorem blank_not_mem_mnemonic (instruction : Instruction) :
    ' ' ∉ instruction.mnemonic.toList := by
  cases instruction <;> simp [mnemonic]

theorem mnemonic_short (instruction : Instruction) : instruction.mnemonic.length ≤ 4 := by
  cases instruction <;> (simp only [mnemonic]; decide)

theorem eq_of_parts (hm : a.mnemonic = b.mnemonic) (ha : a.arguments = b.arguments) : a = b := by
  cases a <;> cases b <;> simp_all [mnemonic, arguments]

theorem text_bare (h : a.arguments = []) : a.text = a.mnemonic := by
  rw [text, h]

theorem text_arguments (h : a.arguments ≠ []) :
    a.text.toList =
      a.mnemonic.toList ++ ' ' :: (", ".intercalate (a.arguments.map Argument.text)).toList := by
  unfold text
  split
  · exact absurd ‹_› h
  · simp

theorem text_front (instruction : Instruction) :
    instruction.text.toList.takeWhile (· ≠ ' ') = instruction.mnemonic.toList := by
  have hall : ∀ c ∈ instruction.mnemonic.toList, decide (c ≠ ' ') = true := fun c hc =>
    decide_eq_true (ne_of_mem_of_not_mem hc instruction.blank_not_mem_mnemonic)
  by_cases ha : instruction.arguments = []
  · rw [text_bare ha, List.takeWhile_eq_self_iff]
    exact hall
  · rw [text_arguments ha, List.takeWhile_append_of_pos hall]
    simp

theorem mnemonic_ofBytes {opcode : Int} {x y : List UInt8} (hl : x.length = y.length) :
    (ofBytes opcode x).mnemonic = (ofBytes opcode y).mnemonic := by
  match x, y, hl with
  | [], [], _ => rfl
  | [a], [b], _ | [a, a'], [b, b'], _ | a :: a' :: a'' :: as, b :: b' :: b'' :: bs, _ =>
    rw [ofBytes.eq_def, ofBytes.eq_def]
    split <;> first | rfl | simp_all

/-- No other instruction has the same text. -/
theorem text_injective : Function.Injective Instruction.text := by
  intro a b h
  have hlist := congrArg String.toList h
  have hcomma : ∀ (arguments : List Argument), ∀ text ∈ arguments.map Argument.text,
      ',' ∉ text.toList := by
    intro arguments text ht
    obtain ⟨argument, -, rfl⟩ := List.mem_map.mp ht
    exact argument.comma_not_mem_text
  by_cases ha : a.arguments = []
  · by_cases hb : b.arguments = []
    · rw [text_bare ha, text_bare hb] at h
      exact eq_of_parts h (ha.trans hb.symm)
    · rw [text_bare ha, text_arguments hb] at hlist
      refine absurd ?_ (blank_not_mem_mnemonic a)
      simp [hlist]
  · by_cases hb : b.arguments = []
    · rw [text_arguments ha, text_bare hb] at hlist
      refine absurd ?_ (blank_not_mem_mnemonic b)
      simp [← hlist]
    · rw [text_arguments ha, text_arguments hb] at hlist
      obtain ⟨hm, hrest⟩ :=
        split_at_mark (blank_not_mem_mnemonic a) (blank_not_mem_mnemonic b) hlist
      have hmap := intercalate_injective (hcomma a.arguments) (hcomma b.arguments)
        (by simpa using ha) (by simpa using hb) (String.toList_inj.mp hrest)
      exact eq_of_parts (String.toList_inj.mp hm)
        (List.map_injective_iff.mpr Argument.text_injective hmap)

end Instruction

end ByteMachine
