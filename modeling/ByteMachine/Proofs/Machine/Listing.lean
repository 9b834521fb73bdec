import ByteMachine.Proofs.Bus.Listing
import ByteMachine.Proofs.Flat.Straight
import ByteMachine.Proofs.Machine.Equipped

/-!
The line at the program counter shows the next step.  The lister and the machine fetch in different
ways and have different notions of an error, but they decode the same bytes, and both meet the end
of memory at the same instructions.
-/

namespace ByteMachine

open Machine

variable {m next : Machine} {snapshot : Snapshot} {instruction : Instruction} {place : Nat}
  {opcode : UInt8} {memory : List UInt8}

theorem operation_hexText (code : UInt8 × List UInt8) :
    (Flat.operation code).hexText =
      " ".intercalate ((code.1 :: code.2).map Hex.upperByte) :=
  hexText_bytes code.1 code.2 _

/-- The line shows the operation, byte by byte as it stands in memory and as a text. -/
structure Line.Shows (line : Line) (memory : List UInt8) (operation : Operation) : Prop where
  text : line.text = operation.instruction.text
  hexText : line.hexText = operation.hexText
  bytes : line.hexText = " ".intercalate
    (((memory.drop line.address.toNat).take operation.length).map Hex.upperByte)
  inside : line.address + operation.length ≤ memory.length

theorem lineShows_whole (hb : memory[place]? = some opcode) {bytes : List UInt8}
    (hl : place + 1 + Flat.operandCount opcode ≤ memory.length)
    (hbytes : bytes = (memory.drop (place + 1)).take (Flat.operandCount opcode)) :
    Line.Shows ⟨place, (Flat.operation (opcode, bytes)).hexText,
      (Flat.operation (opcode, bytes)).instruction.text⟩ memory
      (Flat.operation (opcode, bytes)) := by
  obtain ⟨hlt, hopcode⟩ := List.getElem?_eq_some_iff.mp hb
  have hlength : bytes.length = Flat.operandCount opcode := by
    rw [hbytes, List.length_take, List.length_drop]
    omega
  refine ⟨rfl, rfl, ?_, ?_⟩
  · change (Flat.operation (opcode, bytes)).hexText = " ".intercalate
      (((memory.drop place).take (bytes.length + 1)).map Hex.upperByte)
    rw [operation_hexText, hlength, List.drop_eq_getElem_cons hlt, List.take_succ_cons, hopcode,
      hbytes]
  · change (place : Int) + (bytes.length + 1 : Nat) ≤ memory.length
    omega

/-- The line tells what a step of the machine does.  It shows an error exactly if the step faults
before it has an operation.  Otherwise it shows the operation, and if the step neither faults nor
jumps, it ends right behind what the line shows. -/
structure Line.Announces (line : Line) (memory : List UInt8) (m : Machine) (snapshot : Snapshot)
    (next : Machine) : Prop where
  address : line.address = m.cpu.pc
  error : line.text = "ERR" ↔ snapshot.operation = none ∧
    ∃ report, snapshot.fault = some report ∧ report.fault.kind = .address
  operation : line.text ≠ "ERR" → ∃ operation, snapshot.operation = some operation ∧
    line.Shows memory operation ∧
    (snapshot.fault = none → ¬operation.instruction.Jumps m.cpu.flags →
      next.cpu.pc = m.cpu.pc + operation.length)

theorem jumps_marked (m : Machine) (instruction : Instruction) :
    instruction.Jumps m.marked.flags ↔ instruction.Jumps m.cpu.flags := by
  have hmarked := marked_flags m
  have hmod : (m.marked.flags : Int) % 256 = m.cpu.flags % 256 := by omega
  unfold Instruction.Jumps
  cases instruction <;> simp only [Flags.masked, hmod]

section Step

variable (h : m.Mirrors snapshot next) (hr : m.status = .running)
include h hr

theorem announces_whole (hpc : m.cpu.pc = place) (hb : m.bus.cells[place]? = some opcode)
    (hl : place + 1 + Flat.operandCount opcode ≤ m.bus.cells.length) :
    let operation := Flat.operation (opcode, m.marked.operands place opcode)
    Line.Announces ⟨place, operation.hexText, operation.instruction.text⟩ m.bus.cells m snapshot
      next := by
  intro operation
  obtain ⟨hcode, hstays⟩ := Flat.step_whole (s := m.marked) hr hpc hb hl
  have hlength : (m.marked.operands place opcode).length = Flat.operandCount opcode :=
    Flat.operands_length hl
  have hoperation : snapshot.operation = some operation := by
    rw [h.operation, hcode]
    rfl
  refine ⟨hpc.symm, ?_, fun _ => ⟨operation, hoperation, lineShows_whole hb hl rfl, ?_⟩⟩
  · refine ⟨fun he => absurd he (text_ne_error _), fun hc => ?_⟩
    rw [hoperation] at hc
    exact nomatch hc.1
  · intro hf hj
    rw [h.fault, Option.map_eq_none_iff] at hf
    rw [h.pc, hstays hf (fun hm => hj ((jumps_marked m _).mp hm)), hpc]
    change (place : Int) + 1 + Flat.operandCount opcode =
      place + ((m.marked.operands place opcode).length + 1 : Nat)
    omega

theorem announces_short (hpc : m.cpu.pc = place) (hb : m.bus.cells[place]? = some opcode)
    (hl : m.bus.cells.length < place + 1 + Flat.operandCount opcode) :
    Line.Announces ⟨place, Hex.upperByte opcode, "ERR"⟩ m.bus.cells m snapshot next := by
  obtain ⟨hcode, hfault⟩ := Flat.step_short (s := m.marked) hr hpc hb hl
  have hnone : snapshot.operation = none := by
    rw [h.operation, hcode]
    rfl
  have hreport : snapshot.fault =
      some ⟨.indexOutside m.bus.cells.length m.bus.cells.length, m.cpu.pc⟩ := by
    rw [h.fault, hfault]
    rfl
  exact ⟨hpc.symm, ⟨fun _ => ⟨hnone, _, hreport, rfl⟩, fun _ => rfl⟩, fun hne => absurd rfl hne⟩

theorem step_beyond (hpc : (m.bus.cells.length : Int) ≤ m.cpu.pc) :
    snapshot.operation = none ∧
      snapshot.fault = some ⟨.pcOutside m.cpu.pc m.bus.cells.length, m.cpu.pc⟩ := by
  have hout : ¬(0 ≤ m.marked.pc ∧ m.marked.pc < m.marked.memory.length) := by
    change ¬(0 ≤ m.cpu.pc ∧ m.cpu.pc < m.bus.cells.length)
    omega
  obtain ⟨hcode, hfault⟩ := Flat.step_outside (s := m.marked) hr hout
  rw [h.operation, hcode, h.fault, hfault]
  exact ⟨rfl, rfl⟩

end Step

theorem step_listed (m : Machine) :
    Machine.step { m with bus := { m.bus with log := [] } } = Machine.step m := rfl

/-- The line at the program counter of a running machine announces its next step.  Behind memory
there is nothing to list, and the next step faults when it fetches. -/
theorem listing_announces_the_next_step (h : m.Equipped) (hr : m.status = .running)
    (hpc : 0 ≤ m.cpu.pc) :
    ∃ memory lines listed snapshot next,
      Bus.contents m.bus = .ok memory m.bus ∧ memory.length = m.bus.memorySize ∧
      Machine.onBus (Bus.disassemble m.cpu.pc 1) m = .ok lines listed ∧
      Machine.step listed = .ok snapshot next ∧ Machine.step m = .ok snapshot next ∧
      (m.cpu.pc < memory.length →
        ∃ line, lines = [line] ∧ line.Announces memory m snapshot next) ∧
      (memory.length ≤ m.cpu.pc →
        lines = [] ∧ snapshot.operation = none ∧
          snapshot.fault = some ⟨.pcOutside m.cpu.pc memory.length, m.cpu.pc⟩) := by
  have hm := h.memory.holds.displays
  obtain ⟨snapshot, next, hstep, hmirrors⟩ := h.step_mirrors
  obtain ⟨place, hplace⟩ := Int.eq_ofNat_of_zero_le hpc
  by_cases hin : place < m.bus.cells.length
  · have hb : m.bus.cells[place]? = some m.bus.cells[place] := List.getElem?_eq_getElem hin
    generalize m.bus.cells[place] = opcode at hb
    obtain ⟨line, length, log, hline, hannounces⟩ : ∃ line length log,
        Bus.listOne place m.bus = .ok (line, length) { m.bus with log } ∧
          line.Announces m.bus.cells m snapshot next := by
      by_cases hl : place + 1 + Flat.operandCount opcode ≤ m.bus.cells.length
      · have hline := hm.listOne_whole hb (by rwa [operandCount_eq]) rfl
        rw [operandCount_eq] at hline
        exact ⟨_, _, _, hline, announces_whole hmirrors hr hplace hb hl⟩
      · have hline := hm.listOne_short hb (by rw [operandCount_eq]; omega) rfl
        exact ⟨_, _, _, hline, announces_short hmirrors hr hplace hb (by omega)⟩
    have hlist := hm.disassemble_one hin hline
    rw [← hplace] at hlist
    refine ⟨_, [line], _, snapshot, next, hm.contents, Bus.cells_length, onBus_ok hlist,
      (step_listed m).trans hstep, hstep, fun _ => ⟨line, rfl, hannounces⟩, fun hle => ?_⟩
    omega
  · have hbeyond : (m.bus.cells.length : Int) ≤ m.cpu.pc := by omega
    refine ⟨_, [], _, snapshot, next, hm.contents, Bus.cells_length,
      onBus_ok (hm.disassemble_beyond hbeyond), (step_listed m).trans hstep, hstep,
      fun hlt => ?_, fun _ => ⟨rfl, step_beyond hmirrors hr hbeyond⟩⟩
    omega

/-- The machine is about to read a number into a register. -/
theorem listing_announces_the_next_step_overlapping :
    ∃ line listed snapshot next,
      Machine.onBus (Bus.disassemble 0 1) overlapping = .ok [line] listed ∧
      Machine.step listed = .ok snapshot next ∧
      line.Announces [7, 1, 0, 0] overlapping snapshot next := by
  obtain ⟨memory, lines, listed, snapshot, next, hc, -, hl, hs, -, hin, -⟩ :=
    listing_announces_the_next_step overlapping_regular.equipped rfl (Int.le_refl 0)
  have hmemory : Bus.contents overlapping.bus = .ok [7, 1, 0, 0] overlapping.bus := rfl
  rw [hmemory] at hc
  cases hc
  obtain ⟨line, rfl, hannounces⟩ := hin (by decide)
  exact ⟨line, listed, snapshot, next, hl, hs, hannounces⟩

end ByteMachine
