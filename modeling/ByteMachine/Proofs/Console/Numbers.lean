import ByteMachine.Proofs.Console.Ports
import Mathlib.Data.List.Induction
import Mathlib.Data.Nat.Digits.Defs

/-!
The grammar of the numbers that can be read: blanks, an optional sign, and as many decimal digits as
there are.  Reading a number is this grammar; whatever does not belong to it stays in the input.
-/

namespace ByteMachine.Console

variable {blanks text digits rest input : List UInt8} {sign : Option UInt8} {number : Option Int}

def blankBytes : List UInt8 := [32, 9, 10, 13, 11, 12]

def digitsValue (digits : List UInt8) : Nat :=
  Nat.ofDigits 10 (digits.reverse.map fun digit => digit.toNat - 48)

/-- A digit follows, or a sign and then a digit. -/
def StartsNumber (text : List UInt8) : Prop :=
  ∃ (sign : Option UInt8) (digit : UInt8) (rest : List UInt8),
    (∀ byte ∈ sign, byte = plusSign ∨ byte = minusSign) ∧ (48 ≤ digit ∧ digit ≤ 57) ∧
      text = sign.toList ++ digit :: rest

/-- The number that is read from the start of the input, or nothing, and what is left of the
input. -/
inductive Reading : List UInt8 → Option Int → List UInt8 → Prop where
  | number {blanks digits rest : List UInt8} {sign : Option UInt8}
      (hb : ∀ byte ∈ blanks, byte ∈ blankBytes)
      (hs : ∀ byte ∈ sign, byte = plusSign ∨ byte = minusSign)
      (hd : ∀ digit ∈ digits, 48 ≤ digit ∧ digit ≤ 57) (hne : digits ≠ [])
      (hr : ∀ next ∈ rest.head?, ¬(48 ≤ next ∧ next ≤ 57)) :
      Reading (blanks ++ (sign.toList ++ (digits ++ rest)))
        (some (if sign = some minusSign then -digitsValue digits else digitsValue digits)) rest
  | nothing {blanks rest : List UInt8} (hb : ∀ byte ∈ blanks, byte ∈ blankBytes)
      (hr : ∀ next ∈ rest.head?, next ∉ blankBytes) (hn : ¬StartsNumber rest) :
      Reading (blanks ++ rest) none rest

theorem isBlank_iff (byte : UInt8) : isBlank byte = true ↔ byte ∈ blankBytes := by
  simp only [isBlank, blankBytes, List.mem_cons, List.not_mem_nil, or_false, Bool.or_eq_true,
    Bool.and_eq_true, decide_eq_true_eq, UInt8.le_iff_toNat_le, ← UInt8.toNat_inj,
    UInt8.reduceToNat]
  omega

theorem isDigit_iff (byte : UInt8) : isDigit byte = true ↔ 48 ≤ byte ∧ byte ≤ 57 := by
  simp only [isDigit, Bool.and_eq_true, decide_eq_true_eq]

theorem isSign_iff (byte : UInt8) : isSign byte = true ↔ byte = plusSign ∨ byte = minusSign := by
  simp only [isSign, Bool.or_eq_true, decide_eq_true_eq]

theorem decimalValue_eq (digits : List UInt8) : decimalValue digits = digitsValue digits := by
  induction digits using List.reverseRecOn with
  | nil => rfl
  | append_singleton digits digit ih =>
    unfold decimalValue digitsValue at *
    rw [List.foldl_append, ih, List.reverse_append]
    simp [Nat.ofDigits_cons, Nat.add_comm]

theorem dropWhile_head {keep : UInt8 → Bool} (h : ∀ next ∈ rest.head?, ¬keep next) :
    rest.dropWhile keep = rest ∧ rest.takeWhile keep = [] := by
  cases rest with
  | nil => exact ⟨rfl, rfl⟩
  | cons next rest =>
    have hk : ¬keep next = true := h next rfl
    exact ⟨List.dropWhile_cons_of_neg hk, List.takeWhile_cons_of_neg hk⟩

theorem takeWhile_run {keep : UInt8 → Bool} (ha : ∀ byte ∈ text, keep byte)
    (hr : ∀ next ∈ rest.head?, ¬keep next) :
    (text ++ rest).takeWhile keep = text ∧ (text ++ rest).dropWhile keep = rest := by
  obtain ⟨hdrop, htake⟩ := dropWhile_head hr
  rw [List.takeWhile_append_of_pos ha, List.dropWhile_append_of_pos ha, hdrop, htake,
    List.append_nil]
  exact ⟨rfl, rfl⟩

section Sign

variable {digit : UInt8} (hs : ∀ byte ∈ sign, byte = plusSign ∨ byte = minusSign)
  (hd : 48 ≤ digit ∧ digit ≤ 57)

include hd in
theorem digit_plain : ¬isSign digit ∧ ¬isBlank digit ∧ digit ≠ minusSign := by
  simp only [isSign_iff, isBlank_iff, plusSign, minusSign, blankBytes, List.mem_cons,
    List.not_mem_nil, or_false, ne_eq, ← UInt8.toNat_inj, UInt8.le_iff_toNat_le,
    UInt8.reduceToNat] at *
  omega

include hs hd

theorem unsigned_signed (rest : List UInt8) :
    unsigned (sign.toList ++ digit :: rest) = digit :: rest ∧
      ((sign.toList ++ digit :: rest).head? = some minusSign ↔ sign = some minusSign) := by
  obtain ⟨hsign, -, hminus⟩ := digit_plain hd
  cases sign with
  | none => exact ⟨if_neg hsign, by simpa using hminus⟩
  | some byte =>
    have hb : isSign byte := (isSign_iff byte).mpr (hs byte rfl)
    exact ⟨if_pos hb, Iff.rfl⟩

theorem signed_not_blank (rest : List UInt8) :
    ∀ next ∈ (sign.toList ++ digit :: rest).head?, ¬isBlank next := by
  intro next hn
  cases sign with
  | none =>
    cases hn
    exact (digit_plain hd).2.1
  | some byte =>
    cases hn
    rcases hs next rfl with rfl | rfl
    · decide
    · decide

end Sign

theorem startsNumber_iff (text : List UInt8) :
    StartsNumber text ↔ (unsigned text).takeWhile isDigit ≠ [] := by
  constructor
  · rintro ⟨sign, digit, rest, hs, hd, rfl⟩
    rw [(unsigned_signed hs hd rest).1, List.takeWhile_cons_of_pos ((isDigit_iff digit).mpr hd)]
    exact List.cons_ne_nil _ _
  · intro hne
    have htext := sign_unsigned text
    cases hu : unsigned text with
    | nil =>
      rw [hu] at hne
      exact absurd rfl hne
    | cons digit rest =>
      rw [hu] at hne htext
      refine ⟨text.head?.filter isSign, digit, rest, ?_, ?_, htext.symm⟩
      · intro byte hb
        exact (isSign_iff byte).mp (Option.filter_eq_some_iff.mp hb).2
      · by_contra hd
        rw [← isDigit_iff] at hd
        exact hne (List.takeWhile_cons_of_neg hd)

/-- No other reading of the input is possible. -/
theorem Reading.scanNumber_eq (h : Reading input number rest) :
    scanNumber input = (number, rest) := by
  cases h with
  | @number blanks digits rest sign hb hs hd hne hr =>
    obtain ⟨digit, more, rfl⟩ := List.exists_cons_of_ne_nil hne
    have hfirst := hd digit List.mem_cons_self
    have hblank : ∀ byte ∈ blanks, isBlank byte := fun byte h => (isBlank_iff byte).mpr (hb byte h)
    have hdigit : ∀ byte ∈ digit :: more, isDigit byte :=
      fun byte h => (isDigit_iff byte).mpr (hd byte h)
    have hstop : ∀ next ∈ rest.head?, ¬isDigit next :=
      fun next h hn => hr next h ((isDigit_iff next).mp hn)
    obtain ⟨hunsigned, hminus⟩ := unsigned_signed hs hfirst (more ++ rest)
    obtain ⟨htake, hdrop⟩ := takeWhile_run hdigit hstop
    have htext := (takeWhile_run hblank (signed_not_blank hs hfirst (more ++ rest))).2
    rw [List.cons_append] at htake hdrop ⊢
    simp only [scanNumber, htext, hunsigned, htake, hdrop, hminus, if_neg hne, decimalValue_eq]
  | @nothing blanks rest hb hr hn =>
    have hblank : ∀ byte ∈ blanks, isBlank byte := fun byte h => (isBlank_iff byte).mpr (hb byte h)
    have hstop : ∀ next ∈ rest.head?, ¬isBlank next :=
      fun next h hn => hr next h ((isBlank_iff next).mp hn)
    have htext := (takeWhile_run hblank hstop).2
    rw [startsNumber_iff, not_not] at hn
    simp only [scanNumber, htext, hn, if_true]

theorem scanNumber_reading (input : List UInt8) :
    Reading input (scanNumber input).1 (scanNumber input).2 := by
  have hinput := List.takeWhile_append_dropWhile (p := isBlank) (l := input)
  have hb : ∀ byte ∈ input.takeWhile isBlank, byte ∈ blankBytes :=
    fun byte h => (isBlank_iff byte).mp (List.mem_takeWhile_imp h)
  have hr : ∀ next ∈ (input.dropWhile isBlank).head?, next ∉ blankBytes := by
    intro next hn hm
    have hhead := List.head?_dropWhile_not isBlank input
    rw [Option.mem_def.mp hn] at hhead
    simp [(isBlank_iff next).mpr hm] at hhead
  unfold scanNumber
  generalize input.takeWhile isBlank = blanks at hinput hb
  generalize input.dropWhile isBlank = text at hinput hr ⊢
  subst hinput
  by_cases hd : (unsigned text).takeWhile isDigit = []
  · rw [if_pos hd]
    exact .nothing hb hr (fun h => (startsNumber_iff text).mp h hd)
  · rw [if_neg hd]
    have htext := sign_unsigned text
    have hsplit := List.takeWhile_append_dropWhile (p := isDigit) (l := unsigned text)
    have hsign : ∀ byte ∈ text.head?.filter isSign, byte = plusSign ∨ byte = minusSign :=
      fun byte h => (isSign_iff byte).mp (Option.filter_eq_some_iff.mp h).2
    have hdigits : ∀ digit ∈ (unsigned text).takeWhile isDigit, 48 ≤ digit ∧ digit ≤ 57 :=
      fun digit h => (isDigit_iff digit).mp (List.mem_takeWhile_imp h)
    have hstop : ∀ next ∈ ((unsigned text).dropWhile isDigit).head?, ¬(48 ≤ next ∧ next ≤ 57) := by
      intro next hn hnext
      have hhead := List.head?_dropWhile_not isDigit (unsigned text)
      rw [Option.mem_def.mp hn] at hhead
      simp [(isDigit_iff next).mpr hnext] at hhead
    have hread := Reading.number hb hsign hdigits hd hstop
    rw [hsplit, htext] at hread
    simp only [sign_is_minus] at hread
    simpa only [decimalValue_eq] using hread

theorem reading_iff : Reading input number rest ↔ scanNumber input = (number, rest) := by
  constructor
  · exact Reading.scanNumber_eq
  · intro h
    have hread := scanNumber_reading input
    rwa [h] at hread

theorem Reading.again (h : Reading input none rest) : Reading rest none rest := by
  cases h with
  | nothing hb hr hn => exact @Reading.nothing [] _ (by simp) hr hn

section Port

variable {console next : Console}

/-- The numeric port hands on what has been read as this number.  Where there is no number it gives
a warning and zero.  A terminal that someone sits at is asked first. -/
structure HandsOn (console : Console) (number : Option Int) (rest : List UInt8) (data : Int)
    (next : Console) : Prop where
  data : data = number.getD 0
  exchanges : console.Exchanges next rest (ConsolePort.prompt console)
  journal : next.journal = console.journal ++ if number = none then #[.noNumber] else #[]

theorem numeric_journal (console : Console) :
    (ConsolePort.numeric.read console).2.journal =
      console.journal ++ if (scanNumber console.remaining).1 = none then #[.noNumber] else #[] := by
  let asked := if console.interactive then console.put [63] else console
  have hasked : asked.remaining = console.remaining ∧ asked.journal = console.journal := by
    simp only [asked]
    split <;> exact ⟨rfl, rfl⟩
  obtain ⟨hvalue, hrest⟩ := asked.readNumber_leaves
  have hjournal := hrest.journal.trans hasked.2
  rw [hasked.1] at hvalue
  rw [ConsolePort.read, ← hvalue]
  split
  · next value left hn =>
    rw [hn] at hjournal ⊢
    simpa using hjournal
  · next left hn =>
    rw [hn] at hjournal ⊢
    simpa [report] using congrArg (Array.push · Notice.noNumber) hjournal

theorem Reading.handsOn (h : Reading console.remaining number rest) :
    HandsOn console number rest (ConsolePort.numeric.read console).1
      (ConsolePort.numeric.read console).2 := by
  have hscan := h.scanNumber_eq
  have hjournal := numeric_journal console
  obtain ⟨hdata, hexchanges⟩ := ConsolePort.read_numeric console
  rw [hscan] at hdata hexchanges hjournal
  exact ⟨hdata, hexchanges, hjournal⟩

end Port

/-- Reading a number is the grammar, on whatever is left of the input.  Where there is no number,
reading leaves the input so that no later attempt finds one or takes anything.  The numeric port
hands on what is read, and warns of a number that is not there. -/
theorem numbers_follow_grammar (console : Console) :
    (∀ number rest, Reading console.remaining number rest ↔
      console.readNumber.1 = number ∧ console.readNumber.2.remaining = rest) ∧
    (console.readNumber.1 = none → ∀ later : Console,
      later.remaining = console.readNumber.2.remaining →
        later.readNumber.1 = none ∧ later.readNumber.2.remaining = later.remaining) ∧
    ∀ number rest, Reading console.remaining number rest →
      HandsOn console number rest (ConsolePort.numeric.read console).1
        (ConsolePort.numeric.read console).2 := by
  have hread : ∀ (console : Console) number rest, Reading console.remaining number rest ↔
      console.readNumber.1 = number ∧ console.readNumber.2.remaining = rest := by
    intro console number rest
    obtain ⟨hvalue, hrest⟩ := console.readNumber_leaves
    rw [reading_iff, hvalue, hrest.remaining, Prod.ext_iff]
  refine ⟨hread console, fun hnone later hlater => ?_, fun number rest h => h.handsOn⟩
  have hnothing := (hread console none later.remaining).mpr ⟨hnone, hlater.symm⟩
  exact (hread later none later.remaining).mp hnothing.again

end ByteMachine.Console
