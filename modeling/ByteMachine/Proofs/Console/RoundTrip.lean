import ByteMachine.Proofs.Console.Numbers

/-!
Numbers that one terminal writes and another one reads.  Each number is read back as it was, and the
line feed behind it is left to whoever reads next: the next number skips it, and the character port
hands it on.
-/

namespace ByteMachine.Console

variable {console : Console} {gap rest : List UInt8} {n : Int}

def digitBytes (n : Nat) : List UInt8 := (Nat.toDigits 10 n).map fun c => UInt8.ofNat c.toNat

def numberLine (n : Int) : List UInt8 := asciiBytes (toString n) ++ [lineFeed]

theorem digitByte_range : ∀ d < 10,
    (48 ≤ UInt8.ofNat (Nat.digitChar d).toNat ∧ UInt8.ofNat (Nat.digitChar d).toNat ≤ 57) ∧
      (UInt8.ofNat (Nat.digitChar d).toNat).toNat - 48 = d := by
  decide

theorem digitsValue_snoc (digits : List UInt8) (digit : UInt8) :
    digitsValue (digits ++ [digit]) = 10 * digitsValue digits + (digit.toNat - 48) := by
  simp [digitsValue, Nat.ofDigits_cons, Nat.add_comm]

theorem digitBytes_reads (n : Nat) :
    (∀ digit ∈ digitBytes n, 48 ≤ digit ∧ digit ≤ 57) ∧ digitsValue (digitBytes n) = n := by
  induction n using Nat.strongRecOn with
  | ind n ih =>
    by_cases hn : n < 10
    · obtain ⟨hrange, hvalue⟩ := digitByte_range n hn
      rw [digitBytes, Nat.toDigits_of_lt_base hn]
      constructor
      · simpa using hrange
      · simpa [digitsValue] using hvalue
    · obtain ⟨hfront, hvalue⟩ := ih (n / 10) (by omega)
      obtain ⟨hrange, hlast⟩ := digitByte_range (n % 10) (by omega)
      have hsplit : digitBytes n =
          digitBytes (n / 10) ++ [UInt8.ofNat (Nat.digitChar (n % 10)).toNat] := by
        rw [digitBytes, Nat.toDigits_of_base_le (by decide) (by omega), List.map_append]
        rfl
      rw [hsplit]
      constructor
      · intro digit hd
        rcases List.mem_append.mp hd with hd | hd
        · exact hfront digit hd
        · rw [List.mem_singleton.mp hd]
          exact hrange
      · rw [digitsValue_snoc, hvalue, hlast]
        omega

theorem digitBytes_ne_nil (n : Nat) : digitBytes n ≠ [] := by
  simp [digitBytes, Nat.toDigits_ne_nil]

theorem numberLine_eq (n : Int) :
    numberLine n = (if n < 0 then [minusSign] else []) ++ (digitBytes n.natAbs ++ [lineFeed]) := by
  rw [numberLine, Int.toString_eq_repr, Int.repr_eq_if]
  by_cases hn : n < 0
  · have habs : (-n).toNat = n.natAbs := by omega
    rw [if_neg (by omega), if_pos hn, habs, Nat.repr_eq_ofList_toDigits]
    simp [asciiBytes, digitBytes, minusSign]
  · have habs : n.toNat = n.natAbs := by omega
    rw [if_pos (by omega), if_neg hn, habs, Nat.repr_eq_ofList_toDigits]
    simp [asciiBytes, digitBytes]

theorem reading_numberLine (hg : ∀ byte ∈ gap, byte ∈ blankBytes) (n : Int) (rest : List UInt8) :
    Reading (gap ++ (numberLine n ++ rest)) (some n) (lineFeed :: rest) := by
  obtain ⟨hdigits, hvalue⟩ := digitBytes_reads n.natAbs
  have hend : ∀ next ∈ (lineFeed :: rest).head?, ¬(48 ≤ next ∧ next ≤ 57) := by
    intro next hn
    cases hn
    decide
  rw [numberLine_eq]
  by_cases hn : n < 0
  · have hsign : ∀ byte ∈ some minusSign, byte = plusSign ∨ byte = minusSign := by simp
    have hread := Reading.number hg hsign hdigits (digitBytes_ne_nil _) hend
    rw [if_pos rfl, hvalue, show -(n.natAbs : Int) = n by omega] at hread
    simpa [hn] using hread
  · have hsign : ∀ byte ∈ (none : Option UInt8), byte = plusSign ∨ byte = minusSign := by simp
    have hread := Reading.number hg hsign hdigits (digitBytes_ne_nil _) hend
    rw [if_neg nofun, hvalue, show (n.natAbs : Int) = n by omega] at hread
    simpa [hn] using hread

def writeNumbers (console : Console) (numbers : List Int) : Console :=
  numbers.foldl ConsolePort.numeric.write console

theorem writeNumbers_output (console : Console) (numbers : List Int) :
    (console.writeNumbers numbers).programOutput =
      console.programOutput ++ numbers.flatMap numberLine := by
  induction numbers generalizing console with
  | nil => simp [writeNumbers]
  | cons n numbers ih =>
    have hone := (ConsolePort.write_numeric console n).programOutput
    have hrest := ih (ConsolePort.numeric.write console n)
    rw [hone, List.append_assoc] at hrest
    exact hrest

def readNumbers (console : Console) : List Bool → (List Int × List Int) × Console
  | [] => (([], []), console)
  | marked :: marks =>
    let (n, console) := ConsolePort.numeric.read console
    let (characters, console) :=
      if marked then
        let (character, console) := ConsolePort.character.read console
        ([character], console)
      else ([], console)
    let ((numbers, more), console) := console.readNumbers marks
    ((n :: numbers, characters ++ more), console)

theorem read_numberLine (hr : console.remaining = gap ++ (numberLine n ++ rest))
    (hg : ∀ byte ∈ gap, byte ∈ blankBytes) :
    ∃ next, ConsolePort.numeric.read console = (n, next) ∧ next.remaining = lineFeed :: rest ∧
      next.journal = console.journal := by
  have hread := reading_numberLine hg n rest
  rw [← hr] at hread
  obtain ⟨hdata, hexchanges, hjournal⟩ := hread.handsOn
  refine ⟨_, Prod.ext hdata rfl, hexchanges.remaining, ?_⟩
  simpa using hjournal

theorem read_lineFeed (hr : console.remaining = lineFeed :: rest) :
    ∃ next, ConsolePort.character.read console = (10, next) ∧ next.remaining = rest ∧
      next.journal = console.journal := by
  rcases console.getByte_cases with ⟨hempty, -⟩ | ⟨byte, next, hg, hbyte, hl⟩
  · rw [hr] at hempty
    cases hempty
  · rw [hr] at hbyte
    obtain ⟨rfl, hrest⟩ := List.cons.inj hbyte
    refine ⟨next, ?_, hrest.symm, hl.journal⟩
    rw [ConsolePort.read, hg]
    rfl

theorem read_blanks (hg : ∀ byte ∈ console.remaining, byte ∈ blankBytes) :
    (ConsolePort.numeric.read console).1 = 0 ∧
      (ConsolePort.numeric.read console).2.remaining = [] ∧
      (ConsolePort.numeric.read console).2.journal = console.journal.push .noNumber := by
  have hn : ¬StartsNumber [] := by
    rintro ⟨sign, digit, rest, -, -, he⟩
    simp at he
  have hend : ∀ next ∈ ([] : List UInt8).head?, next ∉ blankBytes := by simp
  have hread := Reading.nothing hg hend hn
  rw [List.append_nil] at hread
  obtain ⟨hdata, hexchanges, hjournal⟩ := hread.handsOn
  refine ⟨hdata, hexchanges.remaining, ?_⟩
  simpa using hjournal

/-- What is left between a number and the next one: its line feed, unless that has been read as a
character. -/
def gapBehind (marked : Bool) : List UInt8 := if marked then [] else [lineFeed]

theorem lineFeed_blank : ∀ byte ∈ [lineFeed], byte ∈ blankBytes := by
  simp [lineFeed, blankBytes]

theorem gapBehind_blank (marked : Bool) : ∀ byte ∈ gapBehind marked, byte ∈ blankBytes := by
  cases marked with
  | false => exact lineFeed_blank
  | true => simp [gapBehind]

theorem readNumbers_cons (hr : console.remaining = gap ++ (numberLine n ++ rest))
    (hg : ∀ byte ∈ gap, byte ∈ blankBytes) (marked : Bool) :
    ∃ next : Console, next.remaining = gapBehind marked ++ rest ∧ next.journal = console.journal ∧
      ∀ {marks : List Bool} {numbers characters : List Int} {last : Console},
        next.readNumbers marks = ((numbers, characters), last) →
        console.readNumbers (marked :: marks) =
          ((n :: numbers, List.replicate (if marked then 1 else 0) 10 ++ characters), last) := by
  obtain ⟨next, hread, hnext, hjournal⟩ := read_numberLine hr hg
  cases marked with
  | false =>
    refine ⟨next, hnext, hjournal, ?_⟩
    intro marks numbers characters last hlast
    simp [readNumbers, hread, hlast]
  | true =>
    obtain ⟨after, hcharacter, hafter, hsame⟩ := read_lineFeed hnext
    refine ⟨after, hafter, hsame.trans hjournal, ?_⟩
    intro marks numbers characters last hlast
    simp [readNumbers, hread, hcharacter, hlast]

theorem readNumbers_lines {numbers : List Int} {marks : List Bool}
    (hm : marks.length = numbers.length) (hg : ∀ byte ∈ gap, byte ∈ blankBytes)
    (hr : console.remaining = gap ++ numbers.flatMap numberLine) :
    ∃ last, console.readNumbers marks =
        ((numbers, List.replicate (marks.count true) 10), last) ∧
      last.remaining = (marks.getLast?.map gapBehind).getD gap ∧
      last.journal = console.journal := by
  induction numbers generalizing console gap marks with
  | nil =>
    rw [List.length_nil, List.length_eq_zero_iff] at hm
    subst hm
    exact ⟨console, rfl, by simpa using hr, rfl⟩
  | cons n numbers ih =>
    obtain ⟨marked, marks, rfl⟩ := List.exists_cons_of_length_eq_add_one hm
    rw [List.flatMap_cons] at hr
    obtain ⟨next, hnext, hjournal, hcons⟩ := readNumbers_cons hr hg marked
    obtain ⟨last, hrest, hlast, hsame⟩ := ih (by simpa using hm) (gapBehind_blank marked) hnext
    refine ⟨last, ?_, ?_, hsame.trans hjournal⟩
    · rw [hcons hrest, List.replicate_append_replicate, List.count_cons, Nat.add_comm]
      simp
    · rw [hlast, List.getLast?_cons]
      cases marks.getLast? <;> rfl

/-- Whatever numbers are written to one terminal, another one that is given the bytes reads the same
numbers, without a warning.  The line feed behind a number can be read as a character, which does
not disturb the numbers that follow; the last one is all that stays.  There is no further number. -/
theorem written_numbers_are_read_back (writer : Console) (numbers : List Int) :
    ∃ bytes, (writer.writeNumbers numbers).programOutput = writer.programOutput ++ bytes ∧
      ∀ reader : Console, reader.remaining = bytes →
        ∀ marks : List Bool, marks.length = numbers.length →
          ∃ last, reader.readNumbers marks =
              ((numbers, List.replicate (marks.count true) 10), last) ∧
            last.journal = reader.journal ∧
            last.remaining = (if marks.getLast? = some false then [lineFeed] else []) ∧
            (ConsolePort.numeric.read last).1 = 0 ∧
            (ConsolePort.numeric.read last).2.journal = last.journal.push .noNumber := by
  refine ⟨numbers.flatMap numberLine, writer.writeNumbers_output numbers, ?_⟩
  intro reader hreader marks hm
  have hnone : ∀ byte ∈ ([] : List UInt8), byte ∈ blankBytes := by simp
  obtain ⟨last, hread, hlast, hjournal⟩ := readNumbers_lines hm hnone hreader
  have hleft : (marks.getLast?.map gapBehind).getD [] =
      if marks.getLast? = some false then [lineFeed] else [] := by
    rcases marks.getLast? with _ | _ | _ <;> rfl
  rw [hleft] at hlast
  have hblank : ∀ byte ∈ last.remaining, byte ∈ blankBytes := by
    rw [hlast]
    split
    · exact lineFeed_blank
    · exact hnone
  obtain ⟨hzero, -, hwarning⟩ := read_blanks hblank
  exact ⟨last, hread, hjournal, hlast, hzero, hwarning⟩

/-- Three numbers, handed to a terminal that someone sits at; the line feed behind the second one is
read as a character. -/
theorem written_numbers_are_read_back_marked :
    ∃ last, Console.readNumbers { unread := asciiBytes "-12\n7\n0\n", interactive := true }
        [false, true, false] = (([-12, 7, 0], [10]), last) ∧
      last.journal = #[] ∧ last.remaining = [lineFeed] ∧
      (ConsolePort.numeric.read last).2.journal = #[.noNumber] := by
  obtain ⟨bytes, hwritten, hread⟩ := written_numbers_are_read_back {} [-12, 7, 0]
  have hbytes : bytes = asciiBytes "-12\n7\n0\n" := by
    have houtput : (writeNumbers {} [-12, 7, 0]).programOutput = asciiBytes "-12\n7\n0\n" := rfl
    exact hwritten.symm.trans houtput
  subst hbytes
  obtain ⟨last, hlast, hjournal, hleft, -, hwarning⟩ :=
    hread { unread := asciiBytes "-12\n7\n0\n", interactive := true } rfl [false, true, false] rfl
  refine ⟨last, hlast, hjournal, hleft, ?_⟩
  rw [hwarning, hjournal]
  rfl

end ByteMachine.Console
