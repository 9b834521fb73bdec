import ByteMachine.Proofs.Bus.Listing
import ByteMachine.Proofs.Hex

/-!
Listings tile memory.  Every line shows the bytes that start at its address, the next line starts
right behind them, and no byte of the window is left out or shown twice.  An instruction that the
end of memory cuts off is a line of one byte.
-/

namespace ByteMachine

variable {memory : List UInt8} {line : Line} {lines : List Line} {address size stop : Nat}
  {last : Int}

/-- The bytes that the hexadecimal text of a line shows. -/
def Line.bytes? (line : Line) : Option (List UInt8) := Hex.row? line.hexText.toList

def Line.bytes (line : Line) : List UInt8 := line.bytes?.getD []

/-- What is read behind the opcode to list a line, as far as memory goes. -/
def Line.reads (memory : List UInt8) (line : Line) : List Access :=
  match memory[line.address.toNat]? with
  | none => []
  | some opcode => Access.reads (line.address + 1)
      ((memory.drop (line.address.toNat + 1)).take (Instruction.operandCount opcode.toNat))

/-- The instruction at the address needs bytes at or beyond the end of memory. -/
def CutOff (memory : List UInt8) (address : Int) : Prop :=
  ∃ opcode, memory[address.toNat]? = some opcode ∧
    (memory.length : Int) ≤ address + Instruction.operandCount opcode.toNat

structure Line.Covers (line : Line) (memory : List UInt8) (address size : Nat) : Prop where
  start : line.address = address
  bytes : line.bytes? = some ((memory.drop address).take size)
  positive : 0 < size
  inside : address + size ≤ memory.length
  error : line.text = "ERR" ↔ CutOff memory address
  single : line.text = "ERR" → size = 1

/-- Lines that follow each other without a gap, from an address up to the end of a window. -/
inductive Tiles (memory : List UInt8) (last : Int) : Nat → List Line → Nat → Prop where
  | done {address : Nat} (he : last ≤ address) : Tiles memory last address [] address
  | line {line : Line} {lines : List Line} {address size stop : Nat} (hb : address < last)
      (hc : line.Covers memory address size)
      (rest : Tiles memory last (address + size) lines stop) :
      Tiles memory last address (line :: lines) stop

section Decoding

variable {opcode : UInt8}

theorem operandCount_le (opcode : Int) : Instruction.operandCount opcode ≤ 2 := by
  unfold Instruction.operandCount
  split_ifs <;> omega

theorem CutOff.near_end (h : CutOff memory address) : memory.length ≤ address + 2 := by
  obtain ⟨opcode, -, hend⟩ := h
  have hcount := operandCount_le opcode.toNat
  omega

theorem cutOff_iff (hb : memory[address]? = some opcode) :
    CutOff memory address ↔
      memory.length < address + 1 + Instruction.operandCount opcode.toNat := by
  constructor
  · rintro ⟨found, hfound, hend⟩
    rw [Int.toNat_natCast, hb] at hfound
    cases hfound
    omega
  · intro hend
    exact ⟨opcode, hb, by omega⟩

theorem line_reads (hb : memory[address]? = some opcode) (hexText text : String) :
    Line.reads memory ⟨address, hexText, text⟩ = Access.reads (address + 1 : Nat)
      ((memory.drop (address + 1)).take (Instruction.operandCount opcode.toNat)) := by
  simp only [Line.reads, Int.toNat_natCast, hb]
  rfl

theorem covers_whole (hb : memory[address]? = some opcode) {bytes : List UInt8}
    (hl : address + 1 + Instruction.operandCount opcode.toNat ≤ memory.length)
    (hbytes : bytes = (memory.drop (address + 1)).take (Instruction.operandCount opcode.toNat)) :
    let operation : Operation := ⟨opcode.toNat, bytes, .ofBytes opcode.toNat bytes⟩
    Line.Covers ⟨address, operation.hexText, operation.instruction.text⟩ memory address
      operation.length := by
  intro operation
  obtain ⟨hlt, hopcode⟩ := List.getElem?_eq_some_iff.mp hb
  have hlength : bytes.length = Instruction.operandCount opcode.toNat := by
    rw [hbytes, List.length_take, List.length_drop]
    omega
  have hsize : operation.length = Instruction.operandCount opcode.toNat + 1 :=
    congrArg (· + 1) hlength
  have herror : ¬CutOff memory address := by
    rw [cutOff_iff hb]
    omega
  constructor
  · rfl
  · rw [hsize, List.drop_eq_getElem_cons hlt, List.take_succ_cons, hopcode, ← hbytes]
    change Hex.row? operation.hexText.toList = some (opcode :: bytes)
    rw [hexText_bytes]
    exact Hex.row_upperBytes (List.cons_ne_nil opcode bytes)
  · omega
  · omega
  · exact iff_of_false (text_ne_error _) herror
  · intro he
    exact absurd he (text_ne_error _)

theorem covers_short (hb : memory[address]? = some opcode)
    (hl : memory.length < address + 1 + Instruction.operandCount opcode.toNat) :
    Line.Covers ⟨address, Hex.upperByte opcode, "ERR"⟩ memory address 1 := by
  obtain ⟨hlt, hopcode⟩ := List.getElem?_eq_some_iff.mp hb
  constructor
  · rfl
  · rw [List.drop_eq_getElem_cons hlt, List.take_succ_cons, hopcode]
    have hrow := Hex.row_upperBytes (List.cons_ne_nil opcode [])
    rw [List.map_singleton, String.intercalate_singleton] at hrow
    rw [List.take_zero]
    exact hrow
  · omega
  · omega
  · exact iff_of_true rfl ((cutOff_iff hb).mpr hl)
  · intro _
    rfl

end Decoding

namespace Bus

variable {h : Hardware} {bus : Bus h} (hm : bus.Displays memory)
include hm

theorem Displays.listOne_covers (ha : address < memory.length) :
    ∃ line size, Bus.listOne address bus =
        .ok (line, size) { bus with log := bus.log ++ line.reads memory } ∧
      line.Covers memory address size := by
  have hb : memory[address]? = some memory[address] := List.getElem?_eq_getElem ha
  by_cases hl : address + 1 + Instruction.operandCount memory[address].toNat ≤ memory.length
  · have hline := hm.listOne_whole hb hl rfl
    rw [← line_reads hb _ _] at hline
    exact ⟨_, _, hline, covers_whole hb hl rfl⟩
  · have hline := hm.listOne_short hb (by omega) rfl
    rw [← line_reads hb _ _] at hline
    exact ⟨_, _, hline, covers_short hb (by omega)⟩

theorem Displays.listUpTo_tiles (hl : last ≤ memory.length) (count address : Nat)
    (hcount : last ≤ address + count) (log : List Access) :
    ∃ lines stop, Bus.listUpTo last count address { bus with log } =
        .ok lines { bus with log := log ++ lines.flatMap (Line.reads memory) } ∧
      Tiles memory last address lines stop := by
  induction count generalizing address log with
  | zero =>
    refine ⟨[], address, ?_, .done (by omega)⟩
    rw [List.flatMap_nil, List.append_nil]
    rfl
  | succ count ih =>
    rw [Bus.listUpTo]
    by_cases ha : (address : Int) < last
    · have hin : address < memory.length := by omega
      obtain ⟨line, size, hline, hcovers⟩ := (hm.withLog log).listOne_covers hin
      have hpositive := hcovers.positive
      obtain ⟨lines, stop, hrest, htiles⟩ :=
        ih (address + size) (by omega) (log ++ line.reads memory)
      rw [if_pos ha, bind_ok hline]
      refine ⟨line :: lines, stop, ?_, .line ha hcovers htiles⟩
      rw [List.flatMap_cons, ← List.append_assoc]
      exact bind_ok hrest
    · rw [if_neg ha]
      refine ⟨[], address, ?_, .done (by omega)⟩
      rw [List.flatMap_nil, List.append_nil]
      rfl

theorem Displays.window_tiles (address : Nat) (length : Int) :
    ∃ lines stop,
      Bus.listUpTo (min (address + length) memory.length)
          (min (address + length) (memory.length : Int) - address).toNat address bus =
        .ok lines { bus with log := bus.log ++ lines.flatMap (Line.reads memory) } ∧
      Tiles memory (min (address + length) memory.length) address lines stop :=
  hm.listUpTo_tiles (Int.min_le_right (address + length) memory.length)
    (min (address + length) (memory.length : Int) - address).toNat address (by omega) bus.log

/-- Listing from any address that is not negative succeeds, and leaves the bus with an empty log. -/
theorem Displays.disassemble_tiles (address : Nat) (length : Int) :
    ∃ lines stop, Bus.disassemble address length bus = .ok lines { bus with log := [] } ∧
      Tiles memory (min (address + length) memory.length) address lines stop := by
  have hget : (get : BusM h (Bus h)) bus = .ok bus bus := rfl
  have hsize : (bus.memorySize : Int) = memory.length := congrArg Nat.cast hm.size
  obtain ⟨lines, stop, hlist, htiles⟩ := hm.window_tiles address length
  refine ⟨lines, stop, ?_, htiles⟩
  rw [Bus.disassemble, bind_ok hget, hsize]
  exact (bind_ok hlist).trans rfl

end Bus

theorem Line.Covers.bytes_eq (h : line.Covers memory address size) :
    line.bytes = (memory.drop address).take size := by
  rw [Line.bytes, h.bytes]
  rfl

theorem Line.Covers.bytes_length (h : line.Covers memory address size) :
    line.bytes.length = size := by
  have hinside := h.inside
  rw [h.bytes_eq, List.length_take, List.length_drop]
  omega

namespace Tiles

theorem start_le (h : Tiles memory last address lines stop) : address ≤ stop := by
  induction h with
  | done => rfl
  | line _ _ _ ih => omega

theorem last_le (h : Tiles memory last address lines stop) : last ≤ stop := by
  induction h with
  | done he => exact he
  | line _ _ _ ih => exact ih

theorem inside (h : Tiles memory last address lines stop) (ha : address ≤ memory.length) :
    stop ≤ memory.length := by
  induction h with
  | done => exact ha
  | line _ hc _ ih => exact ih hc.inside

theorem whole (h : Tiles memory last address lines stop) :
    lines.flatMap Line.bytes = (memory.drop address).take (stop - address) := by
  induction h with
  | done => simp
  | @line line lines address size stop _ hc rest ih =>
    have hle := rest.start_le
    have hsplit : stop - address = size + (stop - (address + size)) := by omega
    rw [List.flatMap_cons, ih, hc.bytes_eq, hsplit, List.take_add, List.drop_drop]

theorem covered (h : Tiles memory last address lines stop) :
    ∀ line ∈ lines, ∃ address size, line.Covers memory address size := by
  induction h with
  | done => exact fun _ hm => absurd hm List.not_mem_nil
  | @line first lines address size stop _ hc rest ih =>
    intro line hm
    rcases List.mem_cons.mp hm with rfl | hm
    · exact ⟨address, size, hc⟩
    · exact ih line hm

theorem chain (h : Tiles memory last address lines stop) :
    lines.IsChain fun (line next : Line) => next.address = line.address + line.bytes.length := by
  induction h with
  | done => exact .nil
  | line _ hc rest ih =>
    cases rest with
    | done => exact .singleton _
    | line _ hn _ =>
      refine .cons_cons ?_ ih
      rw [hn.start, hc.start, hc.bytes_length]
      omega

theorem last_line (h : Tiles memory last address lines stop) (hb : address < last) :
    ∃ line, lines.getLast? = some line ∧ line.address < last ∧
      (stop : Int) = line.address + line.bytes.length := by
  induction h with
  | done he => omega
  | @line line lines address size stop _ hc rest ih =>
    cases rest with
    | done =>
      refine ⟨line, rfl, ?_, ?_⟩
      · rwa [hc.start]
      · rw [hc.start, hc.bytes_length]
        omega
    | line hn hd more =>
      obtain ⟨final, hfinal, hrest⟩ := ih hn
      exact ⟨final, by rwa [List.getLast?_cons_cons], hrest⟩

theorem head (h : Tiles memory last address lines stop) (hb : address < last) :
    lines.head?.map Line.address = some (address : Int) := by
  cases h with
  | done he => omega
  | line _ hc _ => exact congrArg some hc.start

end Tiles

/-- The lines of a window tile memory from its start to a stop. -/
structure Tiling (memory : List UInt8) (start last : Int) (lines : List Line) (stop : Int) :
    Prop where
  readable : ∀ line ∈ lines, line.bytes? = some line.bytes
  first : lines.head?.map Line.address = some start
  next : lines.IsChain fun (line next : Line) => next.address = line.address + line.bytes.length
  final : ∃ line, lines.getLast? = some line ∧ line.address < last ∧
    stop = line.address + line.bytes.length
  reaches : last ≤ stop
  inside : stop ≤ memory.length
  whole : lines.flatMap Line.bytes = (memory.drop start.toNat).take (stop - start).toNat
  error : ∀ line ∈ lines, line.text = "ERR" ↔ CutOff memory line.address
  single : ∀ line ∈ lines, line.text = "ERR" →
    line.bytes.length = 1 ∧ (memory.length : Int) - 2 ≤ line.address

theorem Tiles.tiling (h : Tiles memory last address lines stop) (hb : address < last)
    (hl : last ≤ memory.length) : Tiling memory address last lines stop where
  readable := by
    intro line hm
    obtain ⟨place, size, hc⟩ := h.covered line hm
    rw [hc.bytes_eq, hc.bytes]
  first := h.head hb
  next := h.chain
  final := h.last_line hb
  reaches := h.last_le
  inside := by
    have hinside := h.inside (by omega)
    omega
  whole := by
    have hcount : ((stop : Int) - address).toNat = stop - address := by omega
    rw [h.whole, hcount]
    rfl
  error := by
    intro line hm
    obtain ⟨place, size, hc⟩ := h.covered line hm
    rw [hc.start]
    exact hc.error
  single := by
    intro line hm he
    obtain ⟨place, size, hc⟩ := h.covered line hm
    have hnear := (hc.error.mp he).near_end
    rw [hc.bytes_length, hc.start]
    exact ⟨hc.single he, by omega⟩

namespace Bus

variable {h : Hardware} {bus : Bus h}

/-- Memory answers at every address below its size.  Regions may share a memory. -/
structure Filled (bus : Bus h) : Prop where
  fits : ∀ region ∈ bus.regions, ∀ memory, bus.devices[region.device]? = some (.ram memory) →
    memory.size = region.last + 1 - region.first
  mapped : ∀ address : Nat, address < bus.memorySize →
    ∃ index memory offset, bus.locate address = some (index, .ram memory, offset)

theorem Filled.byteAt_isSome (hf : bus.Filled) {address : Nat} (ha : address < bus.memorySize) :
    (bus.byteAt address).isSome := by
  obtain ⟨index, memory, offset, hl⟩ := hf.mapped address ha
  obtain ⟨region, hr, hc, rfl, hd, rfl⟩ := locate_eq_some hl
  have hsize := hf.fits region hr memory hd
  have hin : ((address : Int) - region.first).toNat < memory.cells.size := by
    unfold Region.Covers at hc
    unfold Ram.size at hsize
    omega
  rw [byteAt, hl]
  change (memory.cells[((address : Int) - region.first).toNat]?).isSome
  rw [Array.getElem?_eq_getElem hin]
  rfl

theorem Filled.displays (hf : bus.Filled) : bus.Displays bus.cells where
  size := cells_length.symm
  bytes := by
    intro address ha
    rw [cells_length] at ha
    obtain ⟨byte, hb⟩ := Option.isSome_iff_exists.mp (hf.byteAt_isSome ha)
    simp [cells, ha, hb]

/-- A listing of gap-free memory tiles the window that it covers, whatever stands there.  A window
without any address in memory has no lines. -/
theorem listing_tiles_memory (hf : bus.Filled) {start : Int} (hs : 0 ≤ start) (length : Int) :
    ∃ memory lines, Bus.contents bus = .ok memory bus ∧ memory.length = bus.memorySize ∧
      Bus.disassemble start length bus = .ok lines { bus with log := [] } ∧
      (min (start + length) memory.length ≤ start → lines = []) ∧
      (start < min (start + length) memory.length →
        ∃ stop, Tiling memory start (min (start + length) memory.length) lines stop) := by
  have hm := hf.displays
  obtain ⟨address, rfl⟩ := Int.eq_ofNat_of_zero_le hs
  obtain ⟨lines, stop, hlist, htiles⟩ := hm.disassemble_tiles address length
  refine ⟨bus.cells, lines, hm.contents, cells_length, hlist, ?_, ?_⟩
  · intro hempty
    cases htiles with
    | done => rfl
    | line hb _ _ => omega
  · intro hb
    exact ⟨stop, htiles.tiling hb (Int.min_le_right _ _)⟩

def doubled : Bus bench where
  devices := #[.ram ⟨#[1, 5]⟩]
  regions := [⟨0, 1, 0⟩, ⟨2, 3, 0⟩]
  shared := ()

theorem doubled_filled : doubled.Filled where
  fits := by
    intro region hr memory hd
    simp only [doubled, List.mem_cons, List.not_mem_nil, or_false] at hr
    rcases hr with rfl | rfl
    · cases hd
      rfl
    · cases hd
      rfl
  mapped := by
    have hall : ∀ address < 4, ∃ offset,
        doubled.locate (address : Nat) = some (0, .ram ⟨#[1, 5]⟩, offset) := by
      intro address ha
      rcases address with _ | _ | _ | _ | address
      · exact ⟨0, rfl⟩
      · exact ⟨1, rfl⟩
      · exact ⟨0, rfl⟩
      · exact ⟨1, rfl⟩
      · omega
    intro address ha
    obtain ⟨offset, hl⟩ := hall address ha
    exact ⟨0, _, offset, hl⟩

theorem listing_tiles_memory_doubled :
    ∃ lines stop, Bus.disassemble 0 4 doubled = .ok lines { doubled with log := [] } ∧
      Tiling [1, 5, 1, 5] 0 4 lines stop := by
  obtain ⟨memory, lines, hc, -, hl, -, htiling⟩ :=
    listing_tiles_memory doubled_filled (Int.le_refl 0) 4
  have hmemory : Bus.contents doubled = .ok [1, 5, 1, 5] doubled := rfl
  rw [hmemory] at hc
  cases hc
  obtain ⟨stop, htiling⟩ := htiling (by decide)
  exact ⟨lines, stop, hl, htiling⟩

end Bus

end ByteMachine
