import ByteMachine.Proofs.Instruction.Codec
import ByteMachine.Proofs.Machine.Stores
import Mathlib.Logic.Function.Basic

/-!
Registers and memory as one address space.  An index names a cell: a register below eight, a byte of
memory from there on.  The first bytes of memory have no index.  Reading an index gives what its
cell holds, storing to it changes this cell alone, and without a cell the machine stays as it was.
-/

namespace ByteMachine

open Machine

variable {m next : Machine} {operand : Operand} {index : Nat} {value : Int} {failure : Failure}

namespace Cell

def named (index : Nat) : Cell :=
  if hi : index < registerCount then .register ⟨index, hi⟩ else .memory index

theorem named_register (hi : index < registerCount) : named index = .register ⟨index, hi⟩ :=
  dif_pos hi

theorem named_memory (hi : ¬index < registerCount) : named index = .memory index := dif_neg hi

theorem named_injective : Function.Injective named := by
  intro a b h
  unfold named at h
  split at h <;> split at h <;> simp at h
  · exact h
  · exact h

end Cell

namespace Operand

/-- The operand refers to a register or to a byte of a memory of this size. -/
def RefersTo (operand : Operand) (size index : Nat) : Prop :=
  operand = .reference index ∧ (index < registerCount ∨ index < size)

/-- The operand refers to no cell, and this is the fault that tells why: the encoding of a literal,
or the address of a reference to the outside. -/
inductive Refused (size : Nat) : Operand → Failure → Prop where
  | literal (value : Int) :
      Refused size (.literal value) (.fault (.literalTarget (.literal value)))
  | outside {index : Nat} (hi : registerCount ≤ index) (hs : size ≤ index) :
      Refused size (.reference index) (.fault (.indexOutside index size))

theorem Refused.not_refersTo {size : Nat} (h : operand.Refused size failure) (index : Nat) :
    ¬operand.RefersTo size index := by
  rintro ⟨ho, hc⟩
  cases h with
  | literal value => cases ho
  | outside hi hs =>
    cases ho
    omega

theorem Fits.literal_or_reference (h : operand.Fits) :
    (∃ value, operand = .literal value) ∨ ∃ index : Nat, operand = .reference index := by
  cases operand with
  | literal value => exact .inl ⟨value, rfl⟩
  | reference place =>
    obtain ⟨index, rfl⟩ := Int.eq_ofNat_of_zero_le h.1
    exact .inr ⟨index, rfl⟩

end Operand

namespace Machine

/-- What reading an operand gives. -/
def read? (m : Machine) (operand : Operand) : Option Int := (evaluate operand).run' m

/-- A number has been stored to an index.  Its lowest byte is read there from now on, and at all
other indices what was read there before; no cell without an index has changed either. -/
structure Stored (m : Machine) (index : Nat) (value : Int) (next : Machine) : Prop where
  reads : ∀ other : Nat, next.read? (.reference other) =
    if other = index then some (value % 256) else m.read? (.reference other)
  cells : next.held = Function.update m.held (.named index) (some (value % 256))
  bus : index < registerCount → next.bus = m.bus
  cpu : registerCount ≤ index → next.cpu = m.cpu

section Reading

def looked (m : Machine) (index : Nat) (value : Int) : Machine :=
  if index < registerCount then m else { m with bus := m.bus.record .read index value }

theorem held_nonneg (hr : ∀ register ∈ m.cpu.registers, 0 ≤ register ∧ register ≤ 255)
    {cell : Cell} (hv : m.held cell = some value) : 0 ≤ value := by
  cases cell with
  | register place =>
    cases hv
    exact (hr _ (Vector.getElem_mem place.isLt)).1
  | memory address =>
    obtain ⟨byte, -, rfl⟩ := Option.map_eq_some_iff.mp hv
    exact (byte_range byte).1

theorem held_register (hi : index < registerCount) :
    m.held (.named index) = some m.cpu.registers[index] := by
  rw [Cell.named_register hi]
  rfl

variable (hm : m.bus.GapFree)
include hm

theorem held_isSome :
    (m.held (.named index)).isSome ↔ index < registerCount ∨ index < m.bus.memorySize := by
  by_cases hi : index < registerCount
  · simp [held_register hi, hi]
  · have hb := hm.holds.byteAt_eq index
    simp [Cell.named_memory hi, held, hb, hi]

theorem held_eq_none :
    m.held (.named index) = none ↔ ¬index < registerCount ∧ ¬index < m.bus.memorySize := by
  rw [← not_or, ← held_isSome hm, Option.not_isSome_iff_eq_none]

theorem readCell_ok (hv : m.held (.named index) = some value) :
    readCell index m = .ok value (m.looked index value) := by
  unfold readCell looked
  by_cases hi : index < registerCount
  · rw [held_register hi] at hv
    cases hv
    rw [if_pos (by omega), if_pos hi, readRegister, registerSlot_below hi]
    rfl
  · rw [Cell.named_memory hi] at hv
    obtain ⟨byte, hb, rfl⟩ := Option.map_eq_some_iff.mp hv
    rw [hm.holds.byteAt_eq index] at hb
    obtain ⟨ha, -⟩ := List.getElem?_eq_some_iff.mp hb
    rw [if_neg (by omega), if_neg hi]
    exact onBus_ok ((bind_ok (hm.holds.requireInside_ok ha)).trans (bind_ok (hm.holds.read hb)))

theorem requireInside_refuses (hn : ¬index < m.bus.memorySize) :
    Bus.requireInside index m.bus =
      .error (.fault (.indexOutside index m.bus.memorySize)) m.bus := by
  have hlength : ¬index < m.bus.cells.length := by rwa [Bus.cells_length]
  have hcheck := hm.holds.requireInside_error hlength
  rwa [Bus.cells_length] at hcheck

theorem readCell_outside (hv : m.held (.named index) = none) :
    readCell index m = .error (.fault (.indexOutside index m.bus.memorySize)) m := by
  obtain ⟨hi, hn⟩ := (held_eq_none hm).mp hv
  rw [readCell, if_neg (by omega)]
  exact onBus_error (bind_error (requireInside_refuses hm hn))

theorem read?_reference (index : Nat) : m.read? (.reference index) = m.held (.named index) := by
  change (readCell index).run' m = _
  cases hv : m.held (.named index) with
  | some value => exact run'_ok (readCell_ok hm hv)
  | none => exact run'_error (readCell_outside hm hv)

end Reading

section Storing

theorem writeCell_register (hi : index < registerCount) (m : Machine) (value : Int) :
    writeCell index value m = .ok () { m with
      cpu := { m.cpu with registers := m.cpu.registers.set index (value % 256) } } := by
  rw [writeCell, if_pos (by omega), writeRegister, registerSlot_below hi]

theorem held_setRegister (hi : index < registerCount) (m : Machine) (value : Int) :
    Machine.held { m with
      cpu := { m.cpu with registers := m.cpu.registers.set index value } } =
      Function.update m.held (.named index) (some value) := by
  rw [Cell.named_register hi]
  funext cell
  cases cell with
  | memory address =>
    rw [Function.update_of_ne (by simp)]
    rfl
  | register place =>
    by_cases hp : place = ⟨index, hi⟩
    · subst hp
      rw [Function.update_self]
      exact congrArg some (Vector.getElem_set_self hi)
    · have hne : index ≠ place := by
        rintro rfl
        exact hp rfl
      rw [Function.update_of_ne (by simpa using hp)]
      exact congrArg some (Vector.getElem_set_ne hi place.isLt hne)

variable (hm : m.bus.GapFree)
include hm

theorem writeCell_memory (hi : ¬index < registerCount) (hn : index < m.bus.memorySize)
    (value : Int) : ∃ bus, writeCell index value m = .ok () { m with bus } ∧
      bus.Holds (m.bus.cells.set index (.ofInt (value % 256))) := by
  have ha : index < m.bus.cells.length := by rwa [Bus.cells_length]
  have hbyte : 0 ≤ value % 256 ∧ value % 256 ≤ 255 := by omega
  obtain ⟨devices, hw, hnext⟩ := hm.holds.write ha hbyte
  rw [writeCell, if_neg (by omega)]
  exact ⟨_, onBus_ok ((bind_ok (hm.holds.requireInside_ok ha)).trans hw), hnext.congr rfl rfl⟩

theorem writeCell_outside (hi : ¬index < registerCount) (hn : ¬index < m.bus.memorySize)
    (value : Int) :
    writeCell index value m = .error (.fault (.indexOutside index m.bus.memorySize)) m := by
  rw [writeCell, if_neg (by omega)]
  exact onBus_error (bind_error (requireInside_refuses hm hn))

theorem held_setMemory (hi : ¬index < registerCount) (hn : index < m.bus.memorySize)
    {bus : Bus wiring} (hb : bus.Holds (m.bus.cells.set index (.ofInt (value % 256)))) :
    Machine.held { m with bus } = Function.update m.held (.named index) (some (value % 256)) := by
  rw [Cell.named_memory hi]
  funext cell
  cases cell with
  | register place =>
    rw [Function.update_of_ne (by simp)]
    rfl
  | memory address =>
    change (bus.byteAt address).map _ = _
    rw [hb.byteAt_eq address]
    by_cases ha : address = index
    · subst ha
      have hvalue := toNat_ofInt (value % 256)
      rw [Function.update_self, List.getElem?_set_self (by rwa [Bus.cells_length])]
      exact congrArg some (hvalue.trans (by omega))
    · rw [Function.update_of_ne (by simpa using ha), List.getElem?_set_ne (Ne.symm ha),
        ← hm.holds.byteAt_eq address]
      rfl

theorem reads_of_held (hn : next.bus.GapFree)
    (hh : next.held = Function.update m.held (.named index) (some value)) (other : Nat) :
    next.read? (.reference other) =
      if other = index then some value else m.read? (.reference other) := by
  rw [read?_reference hn, read?_reference hm, hh, Function.update_apply]
  simp only [Cell.named_injective.eq_iff]

theorem writeCell_ok (hc : index < registerCount ∨ index < m.bus.memorySize) (value : Int) :
    ∃ next, writeCell index value m = .ok () next ∧ m.Stored index value next := by
  by_cases hi : index < registerCount
  · have hh := held_setRegister hi m (value % 256)
    refine ⟨_, writeCell_register hi m value, reads_of_held hm hm hh, hh, fun _ => rfl, ?_⟩
    omega
  · have hn := hc.resolve_left hi
    obtain ⟨bus, hw, hb⟩ := writeCell_memory hm hi hn value
    have hh := held_setMemory hm hi hn hb
    refine ⟨_, hw, reads_of_held hm hb.gapFree hh, hh, ?_, fun _ => rfl⟩
    omega

end Storing

section Operands

inductive StoreOutcome (m : Machine) (operand : Operand) (value : Int) :
    EStateM.Result Failure Machine Unit → Prop where
  | stored {index : Nat} {next : Machine} (hr : operand.RefersTo m.bus.memorySize index)
      (hs : m.Stored index value next) : StoreOutcome m operand value (.ok () next)
  | refused {failure : Failure} (hr : operand.Refused m.bus.memorySize failure) :
      StoreOutcome m operand value (.error failure m)

inductive ReadOutcome (m : Machine) (operand : Operand) :
    EStateM.Result Failure Machine Int → Prop where
  | literal {value : Int} (ho : operand = .literal value) : ReadOutcome m operand (.ok value m)
  | cell {index : Nat} {value : Int} (hr : operand.RefersTo m.bus.memorySize index) :
      ReadOutcome m operand (.ok value (m.looked index value))
  | refused {failure : Failure} (ho : ∀ value, operand ≠ .literal value)
      (hr : operand.Refused m.bus.memorySize failure) :
      ReadOutcome m operand (.error failure m)

variable (hm : m.bus.GapFree) (ho : operand.Fits)
include hm ho

theorem store_outcome (value : Int) : m.StoreOutcome operand value (store operand value m) := by
  obtain ⟨literal, rfl⟩ | ⟨index, rfl⟩ := ho.literal_or_reference
  · exact .refused (.literal literal)
  · change m.StoreOutcome (.reference index) value (writeCell index value m)
    by_cases hc : index < registerCount ∨ index < m.bus.memorySize
    · obtain ⟨next, hw, hs⟩ := writeCell_ok hm hc value
      rw [hw]
      exact .stored ⟨rfl, hc⟩ hs
    · obtain ⟨hi, hn⟩ := not_or.mp hc
      rw [writeCell_outside hm hi hn]
      exact .refused (.outside (by omega) (by omega))

theorem evaluate_outcome : m.ReadOutcome operand (evaluate operand m) := by
  obtain ⟨literal, rfl⟩ | ⟨index, rfl⟩ := ho.literal_or_reference
  · exact .literal rfl
  · change m.ReadOutcome (.reference index) (readCell index m)
    cases hv : m.held (.named index) with
    | some value =>
      rw [readCell_ok hm hv]
      exact .cell ⟨rfl, (held_isSome hm).mp (by rw [hv]; rfl)⟩
    | none =>
      obtain ⟨hi, hn⟩ := (held_eq_none hm).mp hv
      rw [readCell_outside hm hv]
      exact .refused (by simp) (.outside (by omega) (by omega))

theorem store_ok_iff (value : Int) : (∃ next, store operand value m = .ok () next) ↔
    ∃ index, operand.RefersTo m.bus.memorySize index := by
  have houtcome := store_outcome hm ho value
  constructor
  · rintro ⟨next, hs⟩
    rw [hs] at houtcome
    cases houtcome with
    | stored hr hstored => exact ⟨_, hr⟩
  · rintro ⟨index, hr⟩
    cases hs : store operand value m with
    | ok done next => exact ⟨next, rfl⟩
    | error failure next =>
      rw [hs] at houtcome
      cases houtcome with
      | refused hf => exact absurd hr (hf.not_refersTo index)

theorem store_stored {index : Nat} (hi : operand = .reference index)
    (hs : store operand value m = .ok () next) : m.Stored index value next := by
  have houtcome := store_outcome hm ho value
  rw [hs] at houtcome
  cases houtcome with
  | stored hr hstored =>
    cases hi.symm.trans hr.1
    exact hstored

theorem store_error (hs : store operand value m = .error failure next) :
    next = m ∧ operand.Refused m.bus.memorySize failure := by
  have houtcome := store_outcome hm ho value
  rw [hs] at houtcome
  cases houtcome with
  | refused hf => exact ⟨rfl, hf⟩

theorem evaluate_ok_iff : (∃ read next, evaluate operand m = .ok read next) ↔
    (∃ literal, operand = .literal literal) ∨
      ∃ index, operand.RefersTo m.bus.memorySize index := by
  have houtcome := evaluate_outcome hm ho
  constructor
  · rintro ⟨read, next, he⟩
    rw [he] at houtcome
    cases houtcome with
    | literal hl => exact .inl ⟨_, hl⟩
    | cell hr => exact .inr ⟨_, hr⟩
  · intro h
    cases he : evaluate operand m with
    | ok read next => exact ⟨read, next, rfl⟩
    | error failure next =>
      rw [he] at houtcome
      cases houtcome with
      | refused hl hf =>
        rcases h with ⟨literal, h⟩ | ⟨index, hr⟩
        · exact absurd h (hl literal)
        · exact absurd hr (hf.not_refersTo index)

theorem evaluate_error (he : evaluate operand m = .error failure next) :
    next = m ∧ operand.Refused m.bus.memorySize failure := by
  have houtcome := evaluate_outcome hm ho
  rw [he] at houtcome
  cases houtcome with
  | refused _ hf => exact ⟨rfl, hf⟩

end Operands

section Pointers

variable (hm : m.bus.GapFree)
include hm

theorem resolve_held (hv : m.held (.named index) = some value) :
    (resolve (.reference index)).run' m =
      if largestOperand < value then none else some (.reference value) := by
  have hr : resolve (.reference index) m = _ := bind_ok (readCell_ok hm hv)
  by_cases ha : largestOperand < value
  · rw [if_pos ha] at hr ⊢
    exact run'_error hr
  · rw [if_neg ha] at hr ⊢
    exact run'_ok hr

theorem resolve_outside (hv : m.held (.named index) = none) :
    (resolve (.reference index)).run' m = none := by
  have hr : resolve (.reference index) m = _ := bind_error (readCell_outside hm hv)
  exact run'_error hr

theorem resolve_iff (hr : ∀ register ∈ m.cpu.registers, 0 ≤ register ∧ register ≤ 255)
    (ho : operand.Fits) {pointed : Operand} :
    (resolve operand).run' m = some pointed ↔ ∃ index place : Nat, operand = .reference index ∧
      m.read? operand = some place ∧ place ≤ largestOperand ∧ pointed = .reference place := by
  obtain ⟨literal, rfl⟩ | ⟨index, rfl⟩ := ho.literal_or_reference
  · constructor
    · intro h
      cases h
    · rintro ⟨_, _, h, -⟩
      cases h
  · rw [read?_reference hm]
    cases hv : m.held (.named index) with
    | none => simp [resolve_outside hm hv]
    | some value =>
      obtain ⟨place, rfl⟩ := Int.eq_ofNat_of_zero_le (held_nonneg hr hv)
      rw [resolve_held hm hv]
      constructor
      · intro h
        split at h
        · cases h
        · cases h
          exact ⟨index, place, rfl, rfl, by omega, rfl⟩
      · rintro ⟨_, _, -, h, hp, rfl⟩
        cases h
        exact if_neg (by omega)

end Pointers

/-- Operands address registers and memory as separate cells.  A number can be stored exactly to the
references to a cell, and after that every reference is read as before, except that the stored one
gives the lowest byte of the number.  Registers and memory do not reach into each other, and where
there is no cell to read or to store to, the machine stays as it was.  A pointer leads to another
reference exactly if its cell holds an index that an operand can hold. -/
theorem cells_are_independent (hm : m.bus.GapFree)
    (hr : ∀ register ∈ m.cpu.registers, 0 ≤ register ∧ register ≤ 255) (ho : operand.Fits)
    (value : Int) :
    ((∃ next, store operand value m = .ok () next) ↔
      ∃ index, operand.RefersTo m.bus.memorySize index) ∧
    (∀ index : Nat, operand = .reference index → ∀ next, store operand value m = .ok () next →
      m.Stored index value next) ∧
    ((∃ read next, evaluate operand m = .ok read next) ↔
      (∃ literal, operand = .literal literal) ∨
        ∃ index, operand.RefersTo m.bus.memorySize index) ∧
    (∀ failure next, store operand value m = .error failure next ∨
      evaluate operand m = .error failure next →
        next = m ∧ operand.Refused m.bus.memorySize failure) ∧
    (∀ pointed, (resolve operand).run' m = some pointed ↔
      ∃ index place : Nat, operand = .reference index ∧ m.read? operand = some place ∧
        place ≤ largestOperand ∧ pointed = .reference place) := by
  refine ⟨store_ok_iff hm ho value, ?_, evaluate_ok_iff hm ho, ?_, ?_⟩
  · intro index hi next hs
    exact store_stored hm ho hi hs
  · rintro failure next (hs | he)
    · exact store_error hm ho hs
    · exact evaluate_error hm ho he
  · intro pointed
    exact resolve_iff hm hr ho

/-- Ten bytes of memory, the last four of them in a region that was registered first. -/
def stacked : Machine where
  cpu := { registers := #v[9, 0, 0, 0, 0, 0, 0, 200] }
  bus := {
    devices := #[.ram ⟨#[16, 0, 3, 7]⟩, .ram ⟨#[1, 2, 3, 4, 5, 6]⟩]
    regions := [⟨6, 9, 0⟩, ⟨0, 5, 1⟩]
    shared := {} }

theorem stacked_gapFree : stacked.bus.GapFree := by
  refine ⟨⟨by decide, ?_⟩, by decide⟩
  intro region hr
  simp only [stacked, List.mem_cons, List.not_mem_nil, or_false] at hr
  rcases hr with rfl | rfl
  · exact ⟨_, rfl, rfl⟩
  · exact ⟨_, rfl, rfl⟩

theorem cells_are_independent_stacked :
    stacked.bus.GapFree ∧ (∀ register ∈ stacked.cpu.registers, 0 ≤ register ∧ register ≤ 255) ∧
    (Operand.reference 9).Fits ∧
    (∃ next, store (.reference 9) (-1) stacked = .ok () next ∧
      next.read? (.reference 9) = some 255 ∧ next.read? (.reference 0) = some 9 ∧
      next.cpu = stacked.cpu) ∧
    (resolve (.reference 9)).run' stacked = some (.reference 7) := by
  have hr : ∀ register ∈ stacked.cpu.registers, 0 ≤ register ∧ register ≤ 255 := by decide
  have ho : (Operand.reference 9).Fits := by decide
  obtain ⟨hstore, hstored, -, -, hresolve⟩ := cells_are_independent stacked_gapFree hr ho (-1)
  obtain ⟨next, hs⟩ := hstore.mpr ⟨9, rfl, .inr (by decide)⟩
  obtain ⟨hreads, -, -, hcpu⟩ := hstored 9 rfl next hs
  refine ⟨stacked_gapFree, hr, ho, ⟨next, hs, hreads 9, ?_, hcpu (by decide)⟩, ?_⟩
  · exact (hreads 0).trans (by decide +kernel)
  · exact (hresolve _).mpr ⟨9, 7, rfl, by decide +kernel, by decide, rfl⟩

end Machine

end ByteMachine
