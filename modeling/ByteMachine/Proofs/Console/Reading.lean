import ByteMachine.Console
import Mathlib.Data.List.TakeWhile

/-!
Reading from the console as reading from one list of bytes, the pushed-back ones in front.  Every
reader takes bytes off that list and leaves the rest of the console alone.
-/

namespace ByteMachine.Console

variable {console next last : Console} {rest left : List UInt8}

/-- A reader has gone from one console to the next, and this is left to read. -/
structure Leaves (console next : Console) (rest : List UInt8) : Prop where
  remaining : next.remaining = rest
  interactive : next.interactive = console.interactive
  output : next.output = console.output
  journal : next.journal = console.journal

theorem Leaves.refl (console : Console) : console.Leaves console console.remaining :=
  ⟨rfl, rfl, rfl, rfl⟩

theorem Leaves.trans (h : console.Leaves next rest) (k : next.Leaves last left) :
    console.Leaves last left :=
  ⟨k.remaining, k.interactive.trans h.interactive, k.output.trans h.output,
    k.journal.trans h.journal⟩

theorem getByte_fst (console : Console) : console.getByte.1 = console.remaining.head? := by
  rcases console with ⟨_ | ⟨byte, pushback⟩, _ | ⟨first, unread⟩, interactive, output, journal⟩ <;>
    rfl

theorem getByte_leaves (console : Console) :
    console.Leaves console.getByte.2 console.remaining.tail := by
  rcases console with ⟨_ | ⟨byte, pushback⟩, _ | ⟨first, unread⟩, interactive, output, journal⟩ <;>
    exact ⟨rfl, rfl, rfl, rfl⟩

theorem ungetByte_leaves (console : Console) (byte : Option UInt8) :
    console.Leaves (console.ungetByte byte) (byte.toList ++ console.remaining) := by
  cases byte <;> exact ⟨rfl, rfl, rfl, rfl⟩

theorem getByte_cases (console : Console) :
    (console.remaining = [] ∧ console.getByte = (none, console)) ∨
      ∃ byte next, console.getByte = (some byte, next) ∧
        console.remaining = byte :: next.remaining ∧ console.Leaves next next.remaining := by
  have hfst := console.getByte_fst
  have hsnd := console.getByte_leaves
  cases hr : console.remaining with
  | nil =>
    refine Or.inl ⟨rfl, ?_⟩
    rcases console with ⟨_ | ⟨byte, pushback⟩, _ | ⟨first, unread⟩, interactive, output, journal⟩
    · rfl
    all_goals simp [remaining] at hr
  | cons byte rest =>
    rw [hr] at hfst hsnd
    refine Or.inr ⟨byte, console.getByte.2, Prod.ext hfst rfl, ?_, ?_⟩
    · rw [hsnd.remaining]
      rfl
    · rw [hsnd.remaining]
      exact hsnd

theorem takeWhile_leaves (keep : UInt8 → Bool) (console : Console) :
    (console.takeWhile keep).1 = console.remaining.takeWhile keep ∧
      console.Leaves (console.takeWhile keep).2 (console.remaining.dropWhile keep) := by
  induction hn : console.remaining.length using Nat.strong_induction_on generalizing console with
  | h n ih =>
    rw [takeWhile]
    rcases console.getByte_cases with ⟨hr, hg⟩ | ⟨byte, next, hg, hr, hl⟩
    · split
      · next hg' =>
        cases hg.symm.trans hg'
        rw [hr]
        exact ⟨rfl, by simpa [hr] using Leaves.refl console⟩
      · next hg' => simp [hg] at hg'
    · split
      · next hg' => simp [hg] at hg'
      · next byte' next' hg' =>
        cases hg.symm.trans hg'
        rw [hr]
        cases hk : keep byte with
        | true =>
          obtain ⟨hbytes, hrest⟩ := ih next.remaining.length (by simp [← hn, hr]) next rfl
          simp only [if_true, List.takeWhile_cons, List.dropWhile_cons, hk, hbytes]
          exact ⟨trivial, hl.trans hrest⟩
        | false =>
          simp only [Bool.false_eq_true, if_false, List.takeWhile_cons, List.dropWhile_cons, hk]
          exact ⟨trivial, hl.trans (next.ungetByte_leaves (some byte))⟩

def unsigned : List UInt8 → List UInt8
  | [] => []
  | byte :: rest => if isSign byte then rest else byte :: rest

/-- The decimal number at the start of a list of bytes, and what comes after it.  Blanks in front
are skipped, one sign may follow; without a digit there is no number, and only the blanks go. -/
def scanNumber (input : List UInt8) : Option Int × List UInt8 :=
  let text := input.dropWhile isBlank
  let digits := (unsigned text).takeWhile isDigit
  if digits = [] then (none, text)
  else
    let value : Int := decimalValue digits
    (some (if text.head? = some minusSign then -value else value),
      (unsigned text).dropWhile isDigit)

theorem readSign_leaves (console : Console) :
    console.readSign.1 = console.remaining.head?.filter isSign ∧
      console.Leaves console.readSign.2 (unsigned console.remaining) := by
  unfold readSign
  rcases console.getByte_cases with ⟨hr, hg⟩ | ⟨byte, next, hg, hr, hl⟩
  · rw [hg, hr]
    exact ⟨rfl, by simpa [hr, unsigned] using Leaves.refl console⟩
  · rw [hg, hr]
    cases hs : isSign byte with
    | true =>
      simp only [if_true, unsigned, hs, List.head?_cons, Option.filter_some]
      exact ⟨trivial, hl⟩
    | false =>
      simp only [Bool.false_eq_true, if_false, unsigned, hs, List.head?_cons, Option.filter_some]
      exact ⟨trivial, hl.trans (next.ungetByte_leaves (some byte))⟩

theorem sign_unsigned (text : List UInt8) :
    (text.head?.filter isSign).toList ++ unsigned text = text := by
  cases text with
  | nil => rfl
  | cons byte rest => cases hs : isSign byte <;> simp [unsigned, hs, Option.filter_some]

theorem readNumber_eq (console : Console) :
    console.readNumber =
      let sign := (console.takeWhile isBlank).2.readSign
      let digits := sign.2.takeWhile isDigit
      if digits.1.isEmpty then (none, digits.2.ungetByte sign.1)
      else
        let value : Int := decimalValue digits.1
        (some (if sign.1 = some minusSign then -value else value), digits.2) := rfl

theorem sign_is_minus (text : List UInt8) :
    text.head?.filter isSign = some minusSign ↔ text.head? = some minusSign := by
  rw [Option.filter_eq_some_iff]
  exact and_iff_left rfl

theorem readNumber_leaves (console : Console) :
    console.readNumber.1 = (scanNumber console.remaining).1 ∧
      console.Leaves console.readNumber.2 (scanNumber console.remaining).2 := by
  obtain ⟨-, hblank⟩ := console.takeWhile_leaves isBlank
  rw [readNumber_eq, scanNumber]
  generalize (console.takeWhile isBlank).2 = afterBlanks at hblank ⊢
  generalize console.remaining.dropWhile isBlank = text at hblank ⊢
  obtain ⟨hsign, hunsigned⟩ := afterBlanks.readSign_leaves
  rw [hblank.remaining] at hsign hunsigned
  obtain ⟨hdigits, hrest⟩ := afterBlanks.readSign.2.takeWhile_leaves isDigit
  rw [hunsigned.remaining] at hdigits hrest
  simp only [hsign, hdigits, List.isEmpty_iff, sign_is_minus]
  by_cases hd : (unsigned text).takeWhile isDigit = []
  · have hback := (afterBlanks.readSign.2.takeWhile isDigit).2.ungetByte_leaves
      (text.head?.filter isSign)
    have hall := List.takeWhile_append_dropWhile (p := isDigit) (l := unsigned text)
    rw [hd, List.nil_append] at hall
    rw [hrest.remaining, hall, sign_unsigned] at hback
    rw [if_pos hd, if_pos hd]
    exact ⟨rfl, ((hblank.trans hunsigned).trans hrest).trans hback⟩
  · rw [if_neg hd, if_neg hd]
    exact ⟨rfl, (hblank.trans hunsigned).trans hrest⟩

inductive Reads : Console → List Int → Console → Prop where
  | nothing (console : Console) : Reads console [] console
  | number {console next last : Console} {n : Int} {numbers : List Int}
      (h : console.readNumber = (some n, next)) (k : Reads next numbers last) :
      Reads console (n :: numbers) last

inductive Numbers : List UInt8 → List Int → List UInt8 → Prop where
  | nothing (input : List UInt8) : Numbers input [] input
  | number {input rest left : List UInt8} {n : Int} {numbers : List Int}
      (h : scanNumber input = (some n, rest)) (k : Numbers rest numbers left) :
      Numbers input (n :: numbers) left

theorem Reads.numbers {numbers : List Int} (h : Reads console numbers last) :
    Numbers console.remaining numbers last.remaining := by
  induction h with
  | nothing console => exact .nothing console.remaining
  | @number console next last n numbers h _ ih =>
    obtain ⟨hvalue, hrest⟩ := console.readNumber_leaves
    rw [h] at hvalue hrest
    exact .number (Prod.ext hvalue.symm hrest.remaining.symm) ih

theorem Numbers.reads {input left : List UInt8} {numbers : List Int}
    (h : Numbers input numbers left) (hc : console.remaining = input) :
    ∃ last, Reads console numbers last ∧ last.remaining = left := by
  induction h generalizing console with
  | nothing input => exact ⟨console, .nothing console, hc⟩
  | @number input rest left n numbers h _ ih =>
    obtain ⟨hvalue, hrest⟩ := console.readNumber_leaves
    rw [hc, h] at hvalue hrest
    obtain ⟨last, hreads, hlast⟩ := ih hrest.remaining
    exact ⟨last, .number (Prod.ext hvalue rfl) hreads, hlast⟩

end ByteMachine.Console
