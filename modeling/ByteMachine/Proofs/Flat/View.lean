import ByteMachine.Proofs.Byte
import ByteMachine.Proofs.Flat.Cycle
import Mathlib.Logic.Function.Basic

/-!
Programs that leave their own code alone.  Such a program sees registers and memory as one row of
cells; a view is what it can know of the machine.  Every instruction leads from view to view.
-/

namespace ByteMachine

def referenceByte (index : Nat) : UInt8 := .ofNat (index * 2)

def literalByte (value : Nat) : UInt8 := .ofNat (value * 2 + 1)

theorem referenceByte_toNat {index : Nat} (hi : index ≤ largestOperand) :
    (referenceByte index).toNat = index * 2 := by
  unfold largestOperand at hi
  exact UInt8.toNat_ofNat_of_lt' (show index * 2 < 256 by omega)

theorem literalByte_toNat {value : Nat} (hv : value ≤ largestOperand) :
    (literalByte value).toNat = value * 2 + 1 := by
  unfold largestOperand at hv
  exact UInt8.toNat_ofNat_of_lt' (show value * 2 + 1 < 256 by omega)

namespace Flat

/-- The byte behind an index: a register below eight, a byte of memory from there on. -/
def cell? (s : Flat) (index : Nat) : Option UInt8 :=
  if hi : index < registerCount then some s.registers[index] else s.memory[index]?

structure View where
  pc : Nat
  flags : Nat
  cells : Nat → Option UInt8
  input : List UInt8

def View.put (v : View) (index : Nat) (byte : UInt8) : View :=
  { v with cells := Function.update v.cells index (some byte) }

/-- The running machine has its code at the start of memory and looks like this otherwise. -/
structure Fits (s : Flat) (code : List UInt8) (v : View) : Prop where
  running : s.status = .running
  pc : s.pc = v.pc
  flags : s.flags = v.flags
  code : s.memory.take code.length = code
  cells : s.cell? = v.cells
  input : s.input = v.input

/-- The action gives this value and leads from the one view to the other. -/
def Reaches {α : Type} (code : List UInt8) (v : View) (action : FlatM α) (a : α) (v' : View) :
    Prop :=
  ∀ s, s.Fits code v → ∃ t, action s = .ok a t ∧ t.Fits code v'

def Free (code : List UInt8) (cells : Nat → Option UInt8) (index : Nat) : Prop :=
  (cells index).isSome ∧ (index < registerCount ∨ code.length ≤ index)

variable {α β : Type} {code : List UInt8} {v v' v'' : View} {s : Flat} {index : Nat} {byte : UInt8}

theorem Reaches.bind {action : FlatM α} {f : α → FlatM β} {a : α} {b : β}
    (h : Reaches code v action a v') (k : Reaches code v' (f a) b v'') :
    Reaches code v (action >>= f) b v'' := by
  intro s hs
  obtain ⟨t, ha, ht⟩ := h s hs
  obtain ⟨u, hb, hu⟩ := k t ht
  exact ⟨u, (bind_ok ha).trans hb, hu⟩

theorem reaches_pure (a : α) : Reaches code v (pure a) a v := fun s hs => ⟨s, rfl, hs⟩

theorem Fits.memory_cell (h : s.Fits code v) (hi : registerCount ≤ index) :
    s.memory[index]? = v.cells index := by
  rw [← h.cells, cell?, dif_neg (by omega)]

theorem Fits.register_cell (h : s.Fits code v) (hi : index < registerCount)
    (hc : v.cells index = some byte) : s.registers[index] = byte := by
  rw [← h.cells, cell?, dif_pos hi] at hc
  exact Option.some.inj hc

theorem Fits.memory_code (h : s.Fits code v) (hi : index < code.length) :
    s.memory[index]? = code[index]? := by
  rw [← h.code, List.getElem?_take, if_pos hi]

theorem Fits.same_memory {t : Flat} (h : s.Fits code v) (k : t.Fits code v')
    (hl : registerCount ≤ code.length)
    (hc : ∀ i, registerCount ≤ i → v'.cells i = v.cells i) : t.memory = s.memory := by
  apply List.ext_getElem?
  intro i
  by_cases hi : i < registerCount
  · rw [h.memory_code (by omega), k.memory_code (by omega)]
  · rw [h.memory_cell (by omega), k.memory_cell (by omega), hc i (by omega)]

theorem Fits.record (h : s.Fits code v) (kind : AccessKind) (address data : Int) :
    (s.record kind address data).Fits code v :=
  ⟨h.running, h.pc, h.flags, h.code, h.cells, h.input⟩

theorem reaches_load (hc : v.cells index = some byte) : Reaches code v (load index) byte v := by
  intro s hs
  have hcell : s.cell? index = some byte := by rw [hs.cells, hc]
  unfold cell? at hcell
  unfold load
  by_cases hi : index < registerCount
  · rw [dif_pos hi] at hcell ⊢
    exact ⟨s, congrArg (EStateM.Result.ok · s) (Option.some.inj hcell), hs⟩
  · rw [dif_neg hi] at hcell ⊢
    exact ⟨_, readByte_ok hcell, hs.record ..⟩

theorem cell?_setRegister (hi : index < registerCount) (s : Flat) (byte : UInt8) :
    cell? { s with registers := s.registers.set index byte } =
      Function.update s.cell? index (some byte) := by
  funext other
  unfold cell?
  by_cases ho : other = index
  · subst ho
    rw [Function.update_self, dif_pos hi, Vector.getElem_set_self]
  · rw [Function.update_of_ne ho]
    by_cases hr : other < registerCount
    · rw [dif_pos hr, dif_pos hr, Vector.getElem_set_ne hi hr (Ne.symm ho)]
    · rw [dif_neg hr, dif_neg hr]

theorem cell?_setMemory (hi : ¬index < registerCount) (ha : index < s.memory.length)
    (byte : UInt8) :
    cell? { s with memory := s.memory.set index byte } =
      Function.update s.cell? index (some byte) := by
  funext other
  unfold cell?
  by_cases ho : other = index
  · subst ho
    rw [Function.update_self, dif_neg hi, List.getElem?_set_self ha]
  · rw [Function.update_of_ne ho]
    by_cases hr : other < registerCount
    · rw [dif_pos hr, dif_pos hr]
    · rw [dif_neg hr, dif_neg hr, List.getElem?_set_ne (Ne.symm ho)]

theorem reaches_store (hf : Free code v.cells index) (byte : UInt8) :
    Reaches code v (store index byte) () (v.put index byte) := by
  intro s hs
  obtain ⟨hsome, hplace⟩ := hf
  rw [← hs.cells] at hsome
  unfold store
  by_cases hi : index < registerCount
  · rw [dif_pos hi]
    refine ⟨_, rfl, hs.running, hs.pc, hs.flags, hs.code, ?_, hs.input⟩
    rw [cell?_setRegister hi, hs.cells]
    rfl
  · have ha : index < s.memory.length := by
      rw [cell?, dif_neg hi] at hsome
      simpa using hsome
    have hbehind : code.length ≤ index := by omega
    rw [dif_neg hi, writeByte, if_pos ha]
    refine ⟨_, rfl, hs.running, hs.pc, hs.flags, ?_, ?_, hs.input⟩
    · dsimp only [Flat.record]
      rw [List.take_set_of_le hbehind, hs.code]
    · change cell? { s with memory := s.memory.set index byte } = _
      rw [cell?_setMemory hi ha, hs.cells]
      rfl

theorem reaches_target (hi : index ≤ largestOperand) :
    Reaches code v (target (referenceByte index)) index v := by
  have hbyte := referenceByte_toNat hi
  have heven : ¬(referenceByte index).toNat % 2 = 1 := by omega
  have hindex : (referenceByte index).toNat / 2 = index := by omega
  rw [target, if_neg heven, hindex]
  exact reaches_pure index

inductive View.Means (v : View) : UInt8 → UInt8 → Prop where
  | literal {value : Nat} (hv : value ≤ largestOperand) : v.Means (literalByte value) (.ofNat value)
  | reference {index : Nat} {byte : UInt8} (hi : index ≤ largestOperand)
      (hc : v.cells index = some byte) : v.Means (referenceByte index) byte

theorem reaches_value {operand : UInt8} (h : v.Means operand byte) :
    Reaches code v (value operand) byte v := by
  cases h with
  | @literal value hv =>
    have hbyte := literalByte_toNat hv
    have hodd : (literalByte value).toNat % 2 = 1 := by omega
    have hvalue : (literalByte value).toNat / 2 = value := by omega
    rw [Flat.value, if_pos hodd, hvalue]
    exact reaches_pure _
  | @reference index byte hi hc =>
    have hbyte := referenceByte_toNat hi
    have heven : ¬(referenceByte index).toNat % 2 = 1 := by omega
    have hindex : (referenceByte index).toNat / 2 = index := by omega
    rw [Flat.value, if_neg heven, hindex]
    exact reaches_load hc

theorem reaches_valueAt (hi : index ≤ largestOperand) (hc : v.cells index = some byte) :
    Reaches code v (valueAt (referenceByte index)) byte v :=
  (reaches_target hi).bind (reaches_load hc)

theorem reaches_pointee {place : Nat} (hi : index ≤ largestOperand)
    (hc : v.cells index = some (.ofNat place)) (hp : place ≤ largestOperand) :
    Reaches code v (pointee (referenceByte index)) place v := by
  have hbyte : (UInt8.ofNat place).toNat = place := by
    unfold largestOperand at hp
    exact UInt8.toNat_ofNat_of_lt' (show place < 256 by omega)
  refine (reaches_valueAt hi hc).bind ?_
  rw [hbyte, if_neg (by omega)]
  exact reaches_pure place

theorem reaches_jump {place : Nat} (hp : place < 256) :
    Reaches code v (jump (UInt8.ofNat place).toNat) () { v with pc := place } := by
  rw [UInt8.toNat_ofNat_of_lt' hp]
  exact fun _ hs => ⟨_, rfl, hs.running, rfl, hs.flags, hs.code, hs.cells, hs.input⟩

theorem reaches_receive {n : Int} {rest : List UInt8}
    (hn : Console.scanNumber v.input = (some n, rest)) :
    Reaches code v (receive 1) (.ofInt n) { v with input := rest } := by
  intro s hs
  unfold receive
  rw [if_neg (by decide), if_pos rfl, hs.input, hn]
  exact ⟨_, rfl, hs.running, hs.pc, hs.flags, hs.code, hs.cells, rfl⟩

section Instructions

variable {a : UInt8} {flags : Nat}

theorem reaches_move (hv : v.Means a byte) (hi : index ≤ largestOperand)
    (hf : Free code v.cells index) :
    Reaches code v (effect 1 [a, referenceByte index]) () (v.put index byte) :=
  (reaches_value hv).bind ((reaches_target hi).bind (reaches_store hf byte))

def flagsOf (past : UInt8 → UInt8 → Bool) (new old : UInt8) : Nat :=
  (if new = 0 then 1 else 0) + (if past new old then 2 else 0)

theorem reaches_combine (operation : UInt8 → UInt8 → UInt8) (past : UInt8 → UInt8 → Bool)
    {old : UInt8} (hv : v.Means a byte) (hi : index ≤ largestOperand)
    (hc : v.cells index = some old) (hf : Free code v.cells index) :
    Reaches code v (combine operation past a (referenceByte index)) ()
      (View.put { v with flags := flagsOf past (operation old byte) old } index
        (operation old byte)) := by
  refine (reaches_valueAt hi hc).bind ((reaches_value hv).bind ?_)
  have hflags : Reaches code v (modify fun s => { s with
      flags := flagsOf past (operation old byte) old } : FlatM Unit) ()
      { v with flags := flagsOf past (operation old byte) old } :=
    fun s hs => ⟨_, rfl, hs.running, hs.pc, rfl, hs.code, hs.cells, hs.input⟩
  have hfree : Free code
      (View.cells { v with flags := flagsOf past (operation old byte) old }) index := hf
  exact hflags.bind ((reaches_target hi).bind (reaches_store hfree _))

theorem reaches_add {old : UInt8} (hv : v.Means a byte) (hi : index ≤ largestOperand)
    (hc : v.cells index = some old) (hf : Free code v.cells index) :
    Reaches code v (effect 2 [a, referenceByte index]) ()
      (View.put { v with flags := flagsOf (· < ·) (old + byte) old } index (old + byte)) :=
  reaches_combine (· + ·) (· < ·) hv hi hc hf

theorem reaches_sub {old : UInt8} (hv : v.Means a byte) (hi : index ≤ largestOperand)
    (hc : v.cells index = some old) (hf : Free code v.cells index) :
    Reaches code v (effect 3 [a, referenceByte index]) ()
      (View.put { v with flags := flagsOf (fun new old => old < new) (old - byte) old } index
        (old - byte)) :=
  reaches_combine (· - ·) (fun new old => old < new) hv hi hc hf

theorem reaches_jumpUnless_taken {place : Nat} (mask : UInt8) (hi : index ≤ largestOperand)
    (hc : v.cells index = some (.ofNat place)) (hp : place < 256)
    (hm : v.flags &&& mask.toNat = 0) :
    Reaches code v (effect 4 [mask, referenceByte index]) () { v with pc := place } := by
  refine (reaches_target hi).bind fun s hs => ?_
  change ∃ t, (if s.flags &&& mask.toNat = 0 then load index >>= fun byte => jump byte.toNat
    else pure () : FlatM Unit) s = .ok () t ∧ _
  rw [hs.flags, if_pos hm]
  exact (reaches_load hc).bind (reaches_jump hp) s hs

theorem reaches_jumpUnless_passed (mask : UInt8) (hi : index ≤ largestOperand)
    (hm : ¬v.flags &&& mask.toNat = 0) :
    Reaches code v (effect 4 [mask, referenceByte index]) () v := by
  refine (reaches_target hi).bind fun s hs => ?_
  change ∃ t, (if s.flags &&& mask.toNat = 0 then load index >>= fun byte => jump byte.toNat
    else pure () : FlatM Unit) s = .ok () t ∧ _
  rw [hs.flags, if_neg hm]
  exact ⟨s, rfl, hs⟩

theorem reaches_jumpTo {place : Nat} (hi : index ≤ largestOperand)
    (hc : v.cells index = some (.ofNat place)) (hp : place < 256) :
    Reaches code v (effect 5 [referenceByte index]) () { v with pc := place } :=
  (reaches_valueAt hi hc).bind (reaches_jump hp)

theorem reaches_storePc (hi : index ≤ largestOperand) (hf : Free code v.cells index) :
    Reaches code v (effect 6 [referenceByte index]) () (v.put index (.ofNat v.pc)) := by
  intro s hs
  have hpc : UInt8.ofInt s.pc = .ofNat v.pc := by
    rw [hs.pc]
    exact ofInt_natCast v.pc
  change ∃ t,
    (target (referenceByte index) >>= fun index => store index (.ofInt s.pc)) s = .ok () t ∧ _
  rw [hpc]
  exact (reaches_target hi).bind (reaches_store hf _) s hs

theorem reaches_input {n : Int} {rest : List UInt8}
    (hn : Console.scanNumber v.input = (some n, rest)) (hi : index ≤ largestOperand)
    (hf : Free code v.cells index) :
    Reaches code v (effect 7 [1, referenceByte index]) ()
      (View.put { v with input := rest } index (.ofInt n)) := by
  have hfree : Free code (View.cells { v with input := rest }) index := hf
  exact (reaches_target hi).bind ((reaches_receive hn).bind (reaches_store hfree _))

theorem reaches_storeAt {place : Nat} (hv : v.Means a byte) (hi : index ≤ largestOperand)
    (hc : v.cells index = some (.ofNat place)) (hp : place ≤ largestOperand)
    (hf : Free code v.cells place) :
    Reaches code v (effect 10 [a, referenceByte index]) () (v.put place byte) :=
  (reaches_pointee hi hc hp).bind ((reaches_value hv).bind (reaches_store hf byte))

end Instructions

end Flat

end ByteMachine
