import ByteMachine.Decode
import ByteMachine.Proofs.Bus.Cells
import ByteMachine.Proofs.Byte

/-!
A bus that acts as one list of bytes.  Its reads, writes and copies are those of the list, whatever
regions the bus is put together from.  Reading asks for less than writing: that memory shows the
list, even if some of its regions share a memory.
-/

namespace ByteMachine.Bus

variable {h : Hardware} {bus next : Bus h} {memory : List UInt8}

structure Holds (bus : Bus h) (memory : List UInt8) : Prop where
  separate : bus.Separate
  size : bus.memorySize = memory.length
  bytes : ∀ address : Nat, address < memory.length → bus.byteAt address = memory[address]?

/-- The bus shows exactly the given memory. -/
structure Displays (bus : Bus h) (memory : List UInt8) : Prop where
  size : bus.memorySize = memory.length
  bytes : ∀ address : Nat, address < memory.length → bus.byteAt address = memory[address]?

theorem Holds.displays (hm : bus.Holds memory) : bus.Displays memory := ⟨hm.size, hm.bytes⟩

def cells (bus : Bus h) : List UInt8 :=
  (List.range bus.memorySize).map fun address : Nat => (bus.byteAt address).getD 0

@[simp] theorem cells_length : bus.cells.length = bus.memorySize := by simp [cells]

theorem GapFree.holds (hg : bus.GapFree) : bus.Holds bus.cells where
  separate := hg.toSeparate
  size := cells_length.symm
  bytes := by
    intro address ha
    rw [cells_length] at ha
    obtain ⟨byte, hb⟩ := Option.isSome_iff_exists.mp (hg.byteAt_isSome ha)
    simp [cells, ha, hb]

theorem byteAt_congr (hr : next.regions = bus.regions) (hd : next.devices = bus.devices)
    (address : Int) : next.byteAt address = bus.byteAt address := by
  simp only [byteAt, locate, hr, hd]

theorem Holds.congr (hm : bus.Holds memory) (hr : next.regions = bus.regions)
    (hd : next.devices = bus.devices) : next.Holds memory := by
  refine ⟨⟨?_, ?_⟩, ?_, ?_⟩
  · rw [hr]
    exact hm.separate.own
  · rw [hr, hd]
    exact hm.separate.memory
  · rw [← hm.size, memorySize, memorySize, hr]
  · intro address ha
    rw [byteAt_congr hr hd]
    exact hm.bytes address ha

section Displays

variable (hm : bus.Displays memory)
include hm

theorem Displays.withLog (log : List Access) : Displays { bus with log } memory :=
  ⟨hm.size, fun address ha => (byteAt_congr rfl rfl address).trans (hm.bytes address ha)⟩

theorem Displays.peek {address : Nat} {byte : UInt8} (hb : memory[address]? = some byte) :
    Bus.peek address bus = .ok byte bus := by
  have ha : address < memory.length := (List.getElem?_eq_some_iff.mp hb).1
  exact peek_byteAt ((hm.bytes address ha).trans hb)

theorem Displays.read {address : Nat} {byte : UInt8} (hb : memory[address]? = some byte) :
    Bus.read address bus = .ok byte (bus.record .read address byte.toNat) :=
  bind_ok (hm.peek hb)

theorem Displays.requireInside_ok {address : Nat} (ha : address < memory.length) :
    Bus.requireInside address bus = .ok () bus := by
  have hin : (0 : Int) ≤ address ∧ (address : Int) < bus.memorySize := by
    rw [hm.size]
    omega
  rw [Bus.requireInside, if_pos hin]

theorem Displays.requireInside_error {address : Nat} (ha : ¬address < memory.length) :
    Bus.requireInside address bus =
      .error (.fault (.indexOutside address memory.length)) bus := by
  have hin : ¬((0 : Int) ≤ address ∧ (address : Int) < bus.memorySize) := by
    rw [hm.size]
    omega
  rw [Bus.requireInside, if_neg hin, hm.size]

theorem Displays.peekRange (count address : Nat) (hc : address + count ≤ memory.length) :
    Bus.peekRange address count bus = .ok ((memory.drop address).take count) bus := by
  induction count generalizing address with
  | zero => rfl
  | succ count ih =>
    have ha : address < memory.length := by omega
    have hb : memory[address]? = some memory[address] := List.getElem?_eq_getElem ha
    have htail := ih (address + 1) (by omega)
    rw [List.drop_eq_getElem_cons ha, List.take_succ_cons]
    rw [Bus.peekRange, bind_ok (hm.peek hb)]
    exact bind_ok htail

theorem Displays.contents : Bus.contents bus = .ok memory bus := by
  have hp := hm.peekRange memory.length 0 (by omega)
  rw [List.drop_zero, List.take_length] at hp
  rw [← hm.size] at hp
  exact hp

end Displays

theorem Holds.read (hm : bus.Holds memory) {address : Nat} {byte : UInt8}
    (hb : memory[address]? = some byte) :
    Bus.read address bus = .ok byte (bus.record .read address byte.toNat) :=
  hm.displays.read hb

theorem Holds.requireInside_ok (hm : bus.Holds memory) {address : Nat}
    (ha : address < memory.length) : Bus.requireInside address bus = .ok () bus :=
  hm.displays.requireInside_ok ha

theorem Holds.requireInside_error (hm : bus.Holds memory) {address : Nat}
    (ha : ¬address < memory.length) :
    Bus.requireInside address bus =
      .error (.fault (.indexOutside address memory.length)) bus :=
  hm.displays.requireInside_error ha

theorem Holds.contents (hm : bus.Holds memory) : Bus.contents bus = .ok memory bus :=
  hm.displays.contents

theorem Holds.load (hm : bus.Holds memory) {address : Nat} (ha : address < memory.length)
    {data : Int} (hd : 0 ≤ data ∧ data ≤ 255) :
    ∃ devices, Bus.load address data bus = .ok () { bus with devices } ∧
      Holds { bus with devices } (memory.set address (UInt8.ofInt data)) := by
  have hb := hm.bytes address ha
  rw [List.getElem?_eq_getElem ha] at hb
  obtain ⟨devices, hl, hs, hbytes⟩ := load_byteAt hm.separate hb hd
  refine ⟨devices, hl, hs, ?_, ?_⟩
  · rw [List.length_set]
    exact hm.size
  · intro place hp
    rw [List.length_set] at hp
    rw [hbytes place, List.getElem?_set]
    by_cases heq : address = place
    · subst heq
      simp [ha]
    · rw [if_neg (by omega), if_neg heq]
      exact hm.bytes place hp

theorem Holds.write (hm : bus.Holds memory) {address : Nat} (ha : address < memory.length)
    {data : Int} (hd : 0 ≤ data ∧ data ≤ 255) :
    ∃ devices, Bus.write address data bus =
        .ok () ({ bus with devices }.record .write address data) ∧
      Holds { bus with devices } (memory.set address (UInt8.ofInt data)) := by
  obtain ⟨devices, hl, hn⟩ := hm.load ha hd
  exact ⟨devices, bind_ok hl, hn⟩

theorem Holds.loadRange (before old bytes after : List UInt8) (hl : old.length = bytes.length)
    (hm : bus.Holds (before ++ old ++ after)) :
    ∃ devices, Bus.loadRange before.length bytes bus = .ok () { bus with devices } ∧
      Holds { bus with devices } (before ++ bytes ++ after) := by
  induction bytes generalizing bus before old with
  | nil =>
    rw [List.length_nil, List.length_eq_zero_iff] at hl
    subst hl
    exact ⟨bus.devices, rfl, hm⟩
  | cons byte rest ih =>
    cases old with
    | nil => simp at hl
    | cons first old =>
      have hin : before.length < (before ++ first :: old ++ after).length := by simp
      obtain ⟨devices, hload, hone⟩ := hm.load hin (byte_range byte)
      have hset : (before ++ first :: old ++ after).set before.length
          (UInt8.ofInt (byte.toNat : Int)) = (before ++ [byte]) ++ old ++ after := by
        simp
      rw [hset] at hone
      obtain ⟨devices', hrest, hall⟩ := ih (before ++ [byte]) old (by simpa using hl) hone
      refine ⟨devices', ?_, by simpa using hall⟩
      rw [Bus.loadRange, bind_ok hload]
      simpa using hrest

end ByteMachine.Bus
