import ByteMachine.Proofs.Hex
import ByteMachine.Proofs.Numeral
import ByteMachine.Trace

/-!
The grid of memory read back.  Behind its title a grid has a line for every sixteen bytes: the
address of the first of them, and for each byte two digits and a mark, with a gap in the middle of
the line.  What is read from the grid of a memory is that memory, and the program counter is the
only place with a mark.
-/

namespace ByteMachine.Trace

/-- A line of a grid: an address, and bytes with their marks. -/
structure Row where
  address : Nat
  cells : List (UInt8 × Bool)
  deriving DecidableEq, Repr

section Reading

def lines? : List Char → Option (List (List Char))
  | [] => some []
  | c :: rest =>
    if c = '\n' then (lines? rest).map ([] :: ·)
    else match lines? rest with
      | some (line :: lines) => some ((c :: line) :: lines)
      | _ => none

def mark? (c : Char) : Option Bool :=
  if c = '<' then some true else if c = ' ' then some false else none

def byte? (high low : Char) : Option UInt8 := do
  return UInt8.ofNat (16 * (← Numeral.digit? 16 high) + (← Numeral.digit? 16 low))

def cells? : List Char → Option (List (UInt8 × Bool))
  | [] => some []
  | high :: low :: mark :: rest => do
    return (← byte? high low, ← mark? mark) :: (← cells? rest)
  | _ => none

/-- Takes out the blank behind eight cells.  Where there are no more cells, there is none. -/
def withoutGap? (text : List Char) : Option (List Char) :=
  match text.drop 24 with
  | [] => some text
  | ' ' :: rest => some (text.take 24 ++ rest)
  | _ => none

def isDigit (c : Char) : Bool := (Numeral.digit? 16 c).isSome

/-- An address of at least four digits, two blanks, and cells. -/
def row? (line : List Char) : Option Row :=
  match line.dropWhile isDigit with
  | ' ' :: ' ' :: text => do
    let digits := line.takeWhile isDigit
    guard (4 ≤ digits.length)
    return ⟨← Numeral.foldDigits 16 0 digits, ← cells? (← withoutGap? text)⟩
  | _ => none

def rows? (text : List Char) : Option (List Row) := (lines? text).bind (List.mapM row?)

/-- The rows behind the title. -/
def grid? (text : List Char) : Option (List Row) :=
  if title.toList <+: text then rows? (text.drop title.toList.length) else none

end Reading

variable {line rest text : List Char} {pc : Int} {bytes : List UInt8} {address count : Nat}

theorem lines_cons (h : '\n' ∉ line) (rest : List Char) :
    lines? (line ++ '\n' :: rest) = (lines? rest).map (line :: ·) := by
  induction line with
  | nil => rfl
  | cons c line ih =>
    obtain ⟨hc, hline⟩ := not_or.mp (List.mem_cons.not.mp h)
    rw [List.cons_append, lines?, if_neg (Ne.symm hc), ih hline]
    cases lines? rest with
    | none => rfl
    | some lines => rfl

section Cells

def cellText (pc : Int) (cell : UInt8 × Nat) : List Char :=
  [Nat.digitChar (cell.1.toNat / 16), Nat.digitChar (cell.1.toNat % 16),
    if (cell.2 : Int) = pc then '<' else ' ']

def marked (pc : Int) (cell : UInt8 × Nat) : UInt8 × Bool := (cell.1, (cell.2 : Int) = pc)

theorem memoryCell_text (pc : Int) (cell : UInt8 × Nat) :
    (memoryCell pc cell.2 cell.1).toList =
      (if cell.2 % 16 = 8 then [' '] else []) ++ cellText pc cell := by
  unfold memoryCell cellText columns
  rw [String.toList_append, String.toList_append, Hex.byte_digits]
  split <;> split <;> rfl

theorem digit_digitChar {d : Nat} (hd : d < 16) : Numeral.digit? 16 (Nat.digitChar d) = some d :=
  Numeral.digit_of_toLower (Nat.le_refl 16) hd (Numeral.toLower_digitChar d hd)

theorem byte_of_digits (byte : UInt8) :
    byte? (Nat.digitChar (byte.toNat / 16)) (Nat.digitChar (byte.toNat % 16)) = some byte := by
  have hb := byte.toNat_lt
  have hsum : 16 * (byte.toNat / 16) + byte.toNat % 16 = byte.toNat := by omega
  rw [byte?, digit_digitChar (by omega), digit_digitChar (by omega)]
  change some (UInt8.ofNat (16 * (byte.toNat / 16) + byte.toNat % 16)) = some byte
  rw [hsum, UInt8.ofNat_toNat]

theorem mark_text (cell : UInt8 × Nat) :
    mark? (if (cell.2 : Int) = pc then '<' else ' ') = some (marked pc cell).2 := by
  by_cases h : (cell.2 : Int) = pc <;> simp [marked, mark?, h]

theorem cells_text (pc : Int) (cells : List (UInt8 × Nat)) :
    cells? (cells.flatMap (cellText pc)) = some (cells.map (marked pc)) := by
  induction cells with
  | nil => rfl
  | cons cell cells ih =>
    rw [List.flatMap_cons, cellText, List.cons_append, List.cons_append, List.cons_append,
      List.nil_append, cells?, byte_of_digits, mark_text, ih]
    rfl

theorem cells_solid (h : ∀ i < bytes.length, (address + i) % 16 ≠ 8) :
    (bytes.zipIdx address).flatMap (fun cell => (memoryCell pc cell.2 cell.1).toList) =
      (bytes.zipIdx address).flatMap (cellText pc) := by
  apply List.flatMap_congr
  intro cell hc
  have hge := List.le_snd_of_mem_zipIdx hc
  have hlt := List.snd_lt_of_mem_zipIdx hc
  have hplace := h (cell.2 - address) (by omega)
  rw [Nat.add_sub_cancel' hge] at hplace
  rw [memoryCell_text, if_neg hplace, List.nil_append]

theorem length_cells (pc : Int) (address : Nat) (bytes : List UInt8) :
    ((bytes.zipIdx address).flatMap (cellText pc)).length = 3 * bytes.length := by
  induction bytes generalizing address with
  | nil => rfl
  | cons byte bytes ih =>
    rw [List.zipIdx_cons, List.flatMap_cons, List.length_append, ih, List.length_cons]
    change 3 + _ = _
    omega

theorem withoutGap_short (h : text.length ≤ 24) : withoutGap? text = some text := by
  rw [withoutGap?, List.drop_eq_nil_of_le h]

theorem withoutGap_long (h : text.length = 24) (rest : List Char) :
    withoutGap? (text ++ ' ' :: rest) = some (text ++ rest) := by
  rw [withoutGap?, ← h, List.drop_left, List.take_left]
  rfl

theorem withoutGap_cells (ha : address % 16 = 0) (hl : bytes.length ≤ 16) :
    withoutGap? ((bytes.zipIdx address).flatMap fun cell => (memoryCell pc cell.2 cell.1).toList) =
      some ((bytes.zipIdx address).flatMap (cellText pc)) := by
  by_cases hshort : bytes.length ≤ 8
  · rw [cells_solid fun i hi => by omega]
    apply withoutGap_short
    rw [length_cells]
    omega
  · have hsplit : bytes.take 8 ++ bytes[8] :: bytes.drop 9 = bytes := by
      rw [List.getElem_cons_drop, List.take_append_drop]
    have hleft : (bytes.take 8).length = 8 := List.length_take_of_le (by omega)
    have hright : (bytes.drop 9).length = bytes.length - 9 := List.length_drop
    rw [← hsplit, List.zipIdx_append, hleft, List.zipIdx_cons, List.flatMap_append,
      List.flatMap_append, List.flatMap_cons, List.flatMap_cons, cells_solid fun i hi => by omega,
      cells_solid fun i hi => by omega, memoryCell_text, if_pos (by dsimp only; omega)]
    apply withoutGap_long
    rw [length_cells, hleft]

end Cells

section Rows

def addressText (address : Nat) : List Char :=
  List.replicate (4 - (Nat.toDigits 16 address).length) '0' ++ Nat.toDigits 16 address

theorem addressText_denotes (address : Nat) : Numeral.Denotes 16 (addressText address) address := by
  have hdigits : Numeral.Digits 16 (addressText address) address := by
    refine ⟨4 - (Nat.toDigits 16 address).length, ?_⟩
    rw [addressText, List.map_append, List.map_replicate,
      Numeral.toLower_toDigits (by decide) (by decide)]
    rfl
  exact hdigits.denotes (by decide) (by decide)

theorem length_addressText (address : Nat) : 4 ≤ (addressText address).length := by
  rw [addressText, List.length_append, List.length_replicate]
  omega

/-- A row without its line feed. -/
def rowText (pc : Int) (address : Nat) (bytes : List UInt8) : List Char :=
  addressText address ++ ' ' :: ' ' ::
    (bytes.zipIdx address).flatMap fun cell => (memoryCell pc cell.2 cell.1).toList

theorem memoryRow_text (pc : Int) (address : Nat) (bytes : List UInt8) :
    (memoryRow pc address bytes).toList = rowText pc address bytes ++ ['\n'] := by
  have haddress : (Hex.padZeros 4 (Hex.lower address)).toList = addressText address := by
    simp [Hex.padZeros, Hex.lower, addressText]
  have hcells : (bytes.mapIdx fun i byte => memoryCell pc (address + i) byte) =
      (bytes.zipIdx address).map fun cell => memoryCell pc cell.2 cell.1 := by
    rw [List.mapIdx_eq_zipIdx_map, List.zipIdx_eq_map_add (i := address), List.map_map]
    rfl
  rw [memoryRow, hcells, String.toList_append, String.toList_append, String.toList_append,
    haddress, String.toList_join, List.flatMap_map, rowText]
  simp only [List.append_assoc]
  rfl

theorem row_text (ha : address % 16 = 0) (hl : bytes.length ≤ 16) :
    row? (rowText pc address bytes) =
      some ⟨address, (bytes.zipIdx address).map (marked pc)⟩ := by
  have hdigits : ∀ c ∈ addressText address, isDigit c := (addressText_denotes address).digital
  have hvalue : Numeral.foldDigits 16 0 (addressText address) = some address := by
    rw [Numeral.foldDigits_digital (addressText_denotes address).digital,
      (addressText_denotes address).value]
  have hlength := length_addressText address
  have htake : (rowText pc address bytes).takeWhile isDigit = addressText address := by
    rw [rowText, List.takeWhile_append_of_pos hdigits]
    exact List.append_nil _
  have hdrop : (rowText pc address bytes).dropWhile isDigit = ' ' :: ' ' :: _ :=
    List.dropWhile_append_of_pos hdigits
  have hguard : (guard (4 ≤ (addressText address).length) : Option Unit) = some () :=
    if_pos hlength
  rw [row?, hdrop, htake]
  dsimp only
  rw [hguard, hvalue]
  simp [withoutGap_cells ha hl, cells_text]

section Marks

variable {c : Char} (hc : Text.hexDigit? c = none)
include hc

theorem not_mem_addressText (address : Nat) : c ∉ addressText address := by
  intro h
  exact Numeral.digit_ne ((addressText_denotes address).digital c h) hc rfl

theorem digitChar_ne {d : Nat} (hd : d < 16) : Nat.digitChar d ≠ c := by
  have hdigit : (Numeral.digit? 16 (Nat.digitChar d)).isSome := by
    rw [digit_digitChar hd]
    rfl
  exact Numeral.digit_ne hdigit hc

theorem count_memoryCell (hb : c ≠ ' ') (cell : UInt8 × Nat) :
    (memoryCell pc cell.2 cell.1).toList.count c =
      if (cell.2 : Int) = pc ∧ '<' = c then 1 else 0 := by
  have hbyte := cell.1.toNat_lt
  have hhigh : Nat.digitChar (cell.1.toNat / 16) ≠ c := digitChar_ne hc (by omega)
  have hlow : Nat.digitChar (cell.1.toNat % 16) ≠ c := digitChar_ne hc (by omega)
  have hgap : (if cell.2 % 16 = 8 then [' '] else []).count c = 0 := by
    split <;> simp [hb.symm]
  rw [memoryCell_text, List.count_append, hgap, cellText, List.count_cons_of_ne hhigh,
    List.count_cons_of_ne hlow]
  by_cases hp : (cell.2 : Int) = pc
  · simp [hp, List.count_singleton]
  · simp [hp, hb.symm]

theorem count_cells (hb : c ≠ ' ') (address : Nat) (bytes : List UInt8) :
    ((bytes.zipIdx address).flatMap fun cell => (memoryCell pc cell.2 cell.1).toList).count c =
      if ((address : Int) ≤ pc ∧ pc < address + bytes.length) ∧ '<' = c then 1 else 0 := by
  induction bytes generalizing address with
  | nil =>
    rw [if_neg (by simp only [List.length_nil]; omega)]
    rfl
  | cons byte bytes ih =>
    rw [List.zipIdx_cons, List.flatMap_cons, List.count_append, count_memoryCell hc hb, ih,
      List.length_cons]
    by_cases hm : '<' = c
    · simp only [hm, and_true]
      split_ifs <;> omega
    · simp only [hm, and_false, if_false]

theorem count_rowText (hb : c ≠ ' ') (address : Nat) (bytes : List UInt8) :
    (rowText pc address bytes).count c =
      if ((address : Int) ≤ pc ∧ pc < address + bytes.length) ∧ '<' = c then 1 else 0 := by
  rw [rowText, List.count_append, List.count_eq_zero_of_not_mem (not_mem_addressText hc address),
    List.count_cons_of_ne hb.symm, List.count_cons_of_ne hb.symm, count_cells hc hb, Nat.zero_add]

end Marks

end Rows

section Grid

variable {rows : List Row}

/-- The rows that are read from a text show these bytes from an address on, and the text marks the
byte at the program counter if it is one of them. -/
structure Depicts (pc : Int) (address : Nat) (bytes : List UInt8) (text : List Char)
    (rows : List Row) : Prop where
  reads : rows? text = some rows
  height : rows.length = (bytes.length + 15) / 16
  places : ∀ k row, rows[k]? = some row →
    row.address = address + 16 * k ∧ row.cells.length = min 16 (bytes.length - 16 * k)
  cells : rows.flatMap Row.cells = (bytes.zipIdx address).map (marked pc)
  marks : text.count '<' = if (address : Int) ≤ pc ∧ pc < address + bytes.length then 1 else 0

theorem Depicts.nothing (pc : Int) (address : Nat) : Depicts pc address [] [] [] where
  reads := rfl
  height := rfl
  places := by
    intro k row hk
    cases hk
  cells := rfl
  marks := by
    rw [if_neg (by simp only [List.length_nil]; omega)]
    rfl

theorem rows_cons (ha : address % 16 = 0) (hl : bytes.length ≤ 16) (h : rows? text = some rows) :
    rows? (rowText pc address bytes ++ '\n' :: text) =
      some (⟨address, (bytes.zipIdx address).map (marked pc)⟩ :: rows) := by
  have hend : '\n' ∉ rowText pc address bytes := by
    rw [← List.count_eq_zero, count_rowText (by decide) (by decide), if_neg (by simp)]
  obtain ⟨lines, hlines, hrows⟩ := Option.bind_eq_some_iff.mp h
  rw [rows?, lines_cons hend, hlines, Option.map_some, Option.bind_some, List.mapM_cons,
    row_text ha hl, hrows]
  rfl

theorem zipIdx_row (address : Nat) (bytes : List UInt8) : bytes.zipIdx address =
    (bytes.take 16).zipIdx address ++ (bytes.drop 16).zipIdx (address + 16) := by
  by_cases hl : bytes.length < 16
  · rw [List.take_of_length_le (by omega), List.drop_eq_nil_of_le (by omega), List.zipIdx_nil,
      List.append_nil]
  · conv_lhs => rw [← List.take_append_drop 16 bytes, List.zipIdx_append]
    rw [List.length_take, Nat.min_eq_left (by omega)]

/-- A row in front of the rows that show the bytes behind it. -/
theorem Depicts.row (hne : bytes ≠ []) (ha : address % 16 = 0)
    (h : Depicts pc (address + 16) (bytes.drop 16) text rows) :
    Depicts pc address bytes (rowText pc address (bytes.take 16) ++ '\n' :: text)
      (⟨address, ((bytes.take 16).zipIdx address).map (marked pc)⟩ :: rows) := by
  have hpos := List.length_pos_iff.mpr hne
  have hdrop : (bytes.drop 16).length = bytes.length - 16 := List.length_drop
  have htake : (bytes.take 16).length = min 16 bytes.length := List.length_take
  constructor
  · exact rows_cons ha (List.length_take_le 16 bytes) h.reads
  · rw [List.length_cons, h.height, hdrop]
    omega
  · intro k row hk
    cases k with
    | zero =>
      cases hk
      exact ⟨rfl, by simp [htake]⟩
    | succ k =>
      obtain ⟨hplace, hwidth⟩ := h.places k row hk
      rw [hplace, hwidth, hdrop]
      omega
  · rw [List.flatMap_cons, h.cells, zipIdx_row address bytes, List.map_append]
  · rw [List.count_append, count_rowText (by decide) (by decide),
      List.count_cons_of_ne (by decide), h.marks, htake, hdrop]
    simp only [and_true]
    split_ifs <;> omega

theorem memoryRows_text (pc : Int) (address count : Nat) (hne : bytes ≠ []) :
    (memoryRows pc address (count + 1) bytes).toList =
      rowText pc address (bytes.take 16) ++ '\n' ::
        (memoryRows pc (address + 16) count (bytes.drop 16)).toList := by
  rw [memoryRows, String.toList_append, columns, memoryRow_text, List.append_assoc]
  · rfl
  · exact hne

theorem memoryRows_depicts (pc : Int) (ha : address % 16 = 0) (hl : bytes.length ≤ count) :
    ∃ rows, Depicts pc address bytes (memoryRows pc address count bytes).toList rows := by
  induction count generalizing address bytes with
  | zero =>
    obtain rfl := List.eq_nil_of_length_eq_zero (Nat.le_zero.mp hl)
    exact ⟨[], .nothing pc address⟩
  | succ count ih =>
    by_cases hne : bytes = []
    · subst hne
      exact ⟨[], .nothing pc address⟩
    · have hpos := List.length_pos_iff.mpr hne
      have hrest : (bytes.drop 16).length ≤ count := by
        rw [List.length_drop]
        omega
      obtain ⟨rows, h⟩ := ih (show (address + 16) % 16 = 0 by omega) hrest
      rw [memoryRows_text pc address count hne]
      exact ⟨_, h.row hne ha⟩

theorem title_unmarked : title.toList.count '<' = 0 := by decide

/-- From the grid of a memory the whole memory is read back, sixteen bytes a row, each row with the
address of its first byte.  The byte at the program counter is marked, and nothing else is. -/
theorem grid_shows_every_byte (pc : Int) (bytes : List UInt8) :
    ∃ rows, grid? (memory pc bytes).toList = some rows ∧
      rows.length = (bytes.length + 15) / 16 ∧
      (∀ k row, rows[k]? = some row →
        row.address = 16 * k ∧ row.cells.length = min 16 (bytes.length - 16 * k)) ∧
      rows.flatMap Row.cells =
        bytes.zipIdx.map (fun (byte, address) => (byte, decide ((address : Int) = pc))) ∧
      (memory pc bytes).toList.count '<' = if 0 ≤ pc ∧ pc < bytes.length then 1 else 0 := by
  obtain ⟨rows, h⟩ := memoryRows_depicts pc (Nat.zero_mod 16) (Nat.le_refl bytes.length)
  have htext : (memory pc bytes).toList =
      title.toList ++ (memoryRows pc 0 bytes.length bytes).toList := String.toList_append
  refine ⟨rows, ?_, h.height, ?_, h.cells, ?_⟩
  · rw [htext, grid?, if_pos (List.prefix_append _ _), List.drop_left]
    exact h.reads
  · intro k row hk
    obtain ⟨hplace, hwidth⟩ := h.places k row hk
    rw [Nat.zero_add] at hplace
    exact ⟨hplace, hwidth⟩
  · rw [htext, List.count_append, title_unmarked, h.marks]
    simp only [Int.ofNat_zero, Int.zero_add, Nat.zero_add]

example : memory 9 [1, 2, 3, 4, 5, 6, 7, 8, 9, 255] =
    title ++ "0000  01 02 03 04 05 06 07 08  09 ff<\n" := by rfl

end Grid

end ByteMachine.Trace
