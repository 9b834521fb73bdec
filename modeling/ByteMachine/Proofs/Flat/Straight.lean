import ByteMachine.Proofs.Byte
import ByteMachine.Proofs.Flat.Step
import ByteMachine.Proofs.Flat.Transition

/-!
Straight steps.  What a step decodes is decided by the bytes at its program counter alone, and
unless it jumps or faults, the program counter ends right behind them.
-/

namespace ByteMachine

def Instruction.Jumps (flags : Int) : Instruction → Prop
  | .jump _ => True
  | .jumpUnless mask _ => Flags.masked flags mask = 0
  | _ => False

instance (flags : Int) (instruction : Instruction) : Decidable (instruction.Jumps flags) := by
  cases instruction <;> unfold Instruction.Jumps <;> infer_instance

namespace Flat

variable {s t : Flat} {opcode : UInt8} {operands : List UInt8} {place : Nat}

def Stays (s t : Flat) : Prop := t.pc = s.pc

theorem stays_reads : AdmitsReads Stays where
  refl _ := rfl
  trans h k := Eq.trans k h
  read _ := rfl

theorem stays_stores : AdmitsStores Stays where
  toAdmitsReads := stays_reads
  register _ _ _ _ := rfl
  write _ _ := rfl
  flags _ _ _ := rfl
  receive := stays_reads.receive fun _ _ _ _ _ => rfl
  send := stays_reads.send fun _ _ _ _ => rfl

theorem masked_natCast (flags : Nat) (mask : UInt8) :
    Flags.masked flags mask = flags &&& mask.toNat := by
  have hmod : ((flags : Int) % 256).toNat = flags % 256 := by omega
  rw [Flags.masked, hmod, mod_and_byte]

theorem effect_passed {mask target : UInt8} (hm : ¬s.flags &&& mask.toNat = 0)
    (he : effect 4 [mask, target] s = .ok () t) : t = s := by
  change (Flat.target target >>= fun index => get >>= fun seen =>
    if seen.flags &&& mask.toNat = 0 then load index >>= fun byte => jump byte.toNat
    else pure () : FlatM Unit) s = .ok () t at he
  obtain ⟨index, same, hindex, hrest⟩ := bind_eq_ok he
  have hsame : same = s := by
    unfold Flat.target at hindex
    split at hindex
    · cases hindex
    · cases hindex
      rfl
  subst hsame
  change (if same.flags &&& mask.toNat = 0 then load index >>= fun byte => jump byte.toNat
    else pure () : FlatM Unit) same = .ok () t at hrest
  rw [if_neg hm] at hrest
  cases hrest
  rfl

theorem effect_stays (hl : operands.length = operandCount opcode)
    (he : effect opcode operands s = .ok () t)
    (hj : ¬(operation (opcode, operands)).instruction.Jumps s.flags) : t.pc = s.pc := by
  by_cases hunless : opcode.toNat = 4
  · obtain rfl : opcode = 4 := UInt8.toNat_inj.mp hunless
    obtain ⟨mask, target, rfl⟩ := List.length_eq_two.mp hl
    have hm : ¬Flags.masked s.flags mask = 0 := hj
    rw [masked_natCast] at hm
    rw [effect_passed hm he]
  by_cases halways : opcode.toNat = 5
  · obtain rfl : opcode = 5 := UInt8.toNat_inj.mp halways
    obtain ⟨target, rfl⟩ := List.length_eq_one_iff.mp hl
    exact absurd trivial hj
  · have hstays := stays_stores.effect hunless halways operands s
    rw [he] at hstays
    exact hstays

theorem step_outside (hr : s.status = .running) (h : ¬(0 ≤ s.pc ∧ s.pc < s.memory.length)) :
    s.step.code = none ∧ s.step.fault = some (.pcOutside s.pc s.memory.length) := by
  rw [step_of_running hr, cycle_fault (fetchCode_outside (s := { s with activity := [] }) h)]
  exact ⟨rfl, rfl⟩

section Step

variable (hr : s.status = .running) (hpc : s.pc = place) (hb : s.memory[place]? = some opcode)
include hr hpc hb

theorem step_short (hl : s.memory.length < place + 1 + operandCount opcode) :
    s.step.code = none ∧
      s.step.fault = some (.indexOutside s.memory.length s.memory.length) := by
  obtain ⟨activity, hf⟩ := fetchCode_short (s := { s with activity := [] }) hpc hb hl
  rw [step_of_running hr, cycle_fault hf]
  exact ⟨rfl, rfl⟩

theorem step_whole (hl : place + 1 + operandCount opcode ≤ s.memory.length) :
    s.step.code = some (opcode, s.operands place opcode) ∧
      (s.step.fault = none →
        ¬(operation (opcode, s.operands place opcode)).instruction.Jumps s.flags →
        s.step.next.pc = place + 1 + operandCount opcode) := by
  have hlength := operands_length hl
  obtain ⟨activity, hf⟩ := fetchCode_ok (s := { s with activity := [] }) hpc hb hl
  rw [step_of_running hr]
  by_cases ho : Stops opcode
  · rw [cycle_performed hf (perform_stops ho _)]
    refine ⟨rfl, fun _ _ => ?_⟩
    change (place : Int) + 1 + (s.operands place opcode).length = _
    rw [hlength]
  · have hp := perform_goes (s := { s with pc := place + 1, activity }) ho
      (s.operands place opcode)
    cases he : effect opcode (s.operands place opcode)
        { s with pc := place + 1 + (s.operands place opcode).length, activity } with
    | ok _ next =>
      rw [cycle_performed hf (hp.trans he)]
      refine ⟨rfl, fun _ hj => ?_⟩
      have hstays := effect_stays hlength he hj
      rw [hlength] at hstays
      exact hstays
    | error fault next =>
      rw [cycle_failed hf (hp.trans he)]
      exact ⟨rfl, fun hnone => nomatch hnone⟩

end Step

end Flat

end ByteMachine
