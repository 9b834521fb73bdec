import ByteMachine.Proofs.Flat.Atomic
import ByteMachine.Proofs.Flat.Invariant

/-!
Steps that fault.  Registers, flags and memory are as they were before the step, and the program
counter tells how far the step has come.  The terminal is as it was, too, unless the instruction has
taken input that is astray.
-/

namespace ByteMachine

/-- How far a step has come when it ends with a fault: the operation that was decoded, if it came so
far, the fault and the program counter after it. -/
inductive FaultStage (memory : List UInt8) (pc : Int) : Option Operation → Fault → Int → Prop where
  | fetch (h : ¬(0 ≤ pc ∧ pc < memory.length)) :
      FaultStage memory pc none (.pcOutside pc memory.length) pc
  | operand {place : Nat} {opcode : UInt8} (hpc : pc = place) (hb : memory[place]? = some opcode)
      (hl : memory.length < place + 1 + Instruction.operandCount opcode.toNat) :
      FaultStage memory pc none (.indexOutside memory.length memory.length) (pc + 1)
  | execution {place : Nat} {opcode : UInt8} {bytes : List UInt8} (hpc : pc = place)
      (hb : memory[place]? = some opcode)
      (hl : place + 1 + Instruction.operandCount opcode.toNat ≤ memory.length)
      (hd : bytes = (memory.drop (place + 1)).take (Instruction.operandCount opcode.toNat))
      (fault : Fault) :
      FaultStage memory pc (some ⟨opcode.toNat, bytes, .ofBytes opcode.toNat bytes⟩) fault
        (pc + (bytes.length + 1))

namespace Flat

variable {s t : Flat} {fault : Fault}

/-- The terminal and memory are as they were, and memory has been read at most. -/
structure Untouched (s t : Flat) : Prop where
  memory : t.memory = s.memory
  input : t.input = s.input
  output : t.output = s.output
  interactive : t.interactive = s.interactive
  reads : ∃ log, t.activity = s.activity ++ log ∧ ∀ access ∈ log, access.kind = .read

theorem untouched_reads : AdmitsReads Untouched where
  refl s := ⟨rfl, rfl, rfl, rfl, notes_nothing rfl⟩
  trans := by
    rintro s t u ⟨hm, hi, ho, hc, hr⟩ ⟨km, ki, ko, kc, kr⟩
    exact ⟨km.trans hm, ki.trans hi, ko.trans ho, kc.trans hc, Notes.trans hr kr⟩
  read _ := ⟨rfl, rfl, rfl, rfl, notes_one rfl rfl⟩

theorem jump_untouched (pc : Int) : Leads Untouched (jump pc) :=
  fun _ => ⟨rfl, rfl, rfl, rfl, notes_nothing rfl⟩

theorem fetchCode_untouched : Leads Untouched fetchCode :=
  untouched_reads.fetchCode jump_untouched

section Step

theorem cycle_unfaulted (hr : s.status = .running) (hf : s.cycle.fault = none) :
    s.cycle.next.status ≠ .faulted := by
  have hc := s.cycle_cases
  generalize s.cycle = outcome at hc hf
  cases hc with
  | outside _ => cases hf
  | short _ _ _ _ => cases hf
  | stop _ _ _ _ =>
    intro h
    cases h
  | @effect place opcode _ _ _ _ activity next he =>
    have hw := effect_confined opcode (s.operands place opcode)
      { s with pc := place + 1 + operandCount opcode, activity }
    rw [he] at hw
    exact hw.unfaulted hr
  | fault _ _ _ _ _ _ => cases hf

theorem cycle_faulted (hf : s.cycle.fault = some fault) :
    s.cycle.next.registers = s.registers ∧ s.cycle.next.flags = s.flags ∧
      s.cycle.next.memory = s.memory ∧ s.cycle.next.stepCount = s.stepCount ∧
      FaultStage s.memory s.pc (s.cycle.code.map operation) fault s.cycle.next.pc := by
  have hc := s.cycle_cases
  generalize s.cycle = outcome at hc hf
  cases hc with
  | outside hout =>
    cases hf
    exact ⟨rfl, rfl, rfl, rfl, .fetch hout⟩
  | @short place opcode hpc hb hl activity =>
    cases hf
    rw [← operandCount_eq] at hl
    have hstage := FaultStage.operand hpc hb hl
    rw [hpc] at hstage
    rw [hpc]
    exact ⟨rfl, rfl, rfl, rfl, hstage⟩
  | stop _ _ _ _ => cases hf
  | effect _ _ _ _ _ _ => cases hf
  | @fault place opcode hpc hb ho hl activity failure next he =>
    cases hf
    have hs : Spared { s with pc := place + 1 + operandCount opcode, activity } next :=
      spared_reads.effect_fails _ _ (fun _ => receive_spares) _ _ _ he
    have hend : next.pc = s.pc + ((s.operands place opcode).length + 1) := by
      rw [hs.pc, hpc, operands_length hl]
      dsimp only
      omega
    refine ⟨hs.registers, hs.flags, hs.memory, hs.stepCount, ?_⟩
    rw [← operandCount_eq] at hl
    dsimp only
    rw [hend]
    refine .execution hpc hb hl ?_ fault
    rw [operands, operandCount_eq]

/-- A step that leaves the machine faulted has changed nothing but the program counter. -/
theorem step_faulted (hr : s.status = .running) (hf : s.step.next.status = .faulted) :
    ∃ fault, s.step.fault = some fault ∧ s.step.next.registers = s.registers ∧
      s.step.next.flags = s.flags ∧ s.step.next.memory = s.memory ∧
      s.step.next.stepCount = s.stepCount + 1 ∧
      FaultStage s.memory s.pc (s.step.code.map operation) fault s.step.next.pc := by
  have hrun := step_of_running hr
  cases hx : (cycle { s with activity := [] }).fault with
  | none =>
    have hu := cycle_unfaulted (s := { s with activity := [] }) hr hx
    rw [hrun] at hf
    dsimp only at hf
    rw [if_pos hx] at hf
    exact absurd hf hu
  | some fault =>
    obtain ⟨hregisters, hflags, hmemory, hcount, hstage⟩ := cycle_faulted hx
    rw [hrun]
    exact ⟨fault, hx, hregisters, hflags, hmemory, congrArg (· + 1) hcount, hstage⟩

theorem perform_fault {code : UInt8 × List UInt8} (h : perform code s = .error fault t) :
    effect code.1 code.2 { s with pc := s.pc + code.2.length } = .error fault t := by
  by_cases ho : Stops code.1
  · rw [perform_stops ho code.2] at h
    cases h
  · rw [← perform_goes ho code.2]
    exact h

theorem cycle_fault_cases (hf : s.cycle.fault = some fault) :
    (∃ t, fetchCode s = .error fault t ∧ s.cycle = ⟨t, none, some fault⟩) ∨
      ∃ code t u, fetchCode s = .ok code t ∧
        effect code.1 code.2 { t with pc := t.pc + code.2.length } = .error fault u ∧
        s.cycle = ⟨u, some code, some fault⟩ := by
  cases hx : fetchCode s with
  | error failure t =>
    rw [cycle_fault hx] at hf ⊢
    cases hf
    exact .inl ⟨t, rfl, rfl⟩
  | ok code t =>
    cases hy : perform code t with
    | ok _ u =>
      rw [cycle_performed hx hy] at hf
      cases hf
    | error failure u =>
      rw [cycle_failed hx hy] at hf ⊢
      cases hf
      exact .inr ⟨code, t, u, rfl, perform_fault hy, rfl⟩

/-- The input of this outcome, if its instruction is one, is astray in a memory of this size. -/
def Outcome.InputAstray (outcome : Outcome) (size : Nat) : Prop :=
  ∃ code, outcome.code = some code ∧ (Instruction.ofBytes code.1.toNat code.2).InputAstray size

theorem cycle_untouched (hf : s.cycle.fault = some fault)
    (hi : ¬s.cycle.InputAstray s.memory.length) : Untouched s s.cycle.next := by
  rcases cycle_fault_cases hf with ⟨t, hx, hcycle⟩ | ⟨code, t, u, hx, he, hcycle⟩
  · rw [hcycle]
    exact fetchCode_untouched.fails _ _ _ hx
  · have hfetched : Untouched s { t with pc := t.pc + code.2.length } :=
      untouched_reads.trans (fetchCode_untouched.ok hx) (jump_untouched _ t)
    rw [hcycle] at hi ⊢
    refine untouched_reads.trans hfetched (untouched_reads.effect_looks ?_ he)
    rw [hfetched.memory]
    exact fun ha => hi ⟨code, rfl, ha⟩

theorem cycle_astray (hf : s.cycle.fault = some fault)
    (hi : s.cycle.InputAstray s.memory.length) :
    ∃ channel place byte t, s.cycle.code = some (7, [channel, place]) ∧
      fault = .indexOutside (place.toNat / 2 : Nat) s.memory.length ∧
      Untouched s t ∧ receive channel t = .ok byte s.cycle.next := by
  obtain ⟨code, hc, ha⟩ := hi
  rcases cycle_fault_cases hf with ⟨t, -, hcycle⟩ | ⟨code, t, u, hx, he, hcycle⟩
  · rw [hcycle] at hc
    cases hc
  · rw [hcycle] at hc ⊢
    cases hc
    obtain ⟨opcode, operands⟩ := code
    obtain ⟨hop, channel, place, hoperands⟩ := astray_input ha
    have hfetched : Untouched s { t with pc := t.pc + operands.length } :=
      untouched_reads.trans (fetchCode_untouched.ok hx) (jump_untouched _ t)
    have ho : opcode = 7 := UInt8.toNat_inj.mp (Int.ofNat.inj hop)
    dsimp only at hoperands he
    subst ho hoperands
    rw [← hfetched.memory] at ha
    obtain ⟨byte, v, hreceive, heffect⟩ := input_astray ha
    cases heffect.symm.trans he
    exact ⟨channel, place, byte, _, rfl, by rw [hfetched.memory], hfetched, hreceive⟩

theorem step_untouched (hr : s.status = .running) (hf : s.step.next.status = .faulted)
    (hi : ¬s.step.InputAstray s.memory.length) :
    s.step.next.input = s.input ∧ s.step.next.output = s.output ∧
      ∀ access ∈ s.step.next.activity, access.kind = .read := by
  obtain ⟨fault, hfault, -⟩ := step_faulted hr hf
  have hrun := step_of_running hr
  unfold Outcome.InputAstray at hi
  rw [hrun] at hfault hi ⊢
  have hu := cycle_untouched (s := { s with activity := [] }) hfault hi
  obtain ⟨log, hlog, hreads⟩ := hu.reads
  refine ⟨hu.input, hu.output, ?_⟩
  intro access ha
  change access ∈ (cycle { s with activity := [] }).next.activity at ha
  rw [hlog] at ha
  exact hreads access ha

theorem step_astray {console : Console} (hr : s.status = .running)
    (hf : s.step.next.status = .faulted) (hi : s.step.InputAstray s.memory.length)
    (hinput : console.remaining = s.input) (houtput : console.programOutput = s.output)
    (hc : console.interactive = s.interactive) :
    ∃ channel place port, s.step.code = some (7, [channel, place]) ∧
      s.step.fault = some (.indexOutside (place.toNat / 2 : Nat) s.memory.length) ∧
      consolePort? channel.toNat = some port ∧
      s.step.next.input = (port.read console).2.remaining ∧
      s.step.next.output = (port.read console).2.programOutput := by
  obtain ⟨fault, hfault, -⟩ := step_faulted hr hf
  have hrun := step_of_running hr
  unfold Outcome.InputAstray at hi
  rw [hrun] at hfault hi ⊢
  obtain ⟨channel, place, byte, t, hcode, hfault', hu, hx⟩ :=
    cycle_astray (s := { s with activity := [] }) hfault hi
  obtain ⟨port, hport, hremaining, hwritten⟩ :=
    receive_console hx (hinput.trans hu.input.symm) (houtput.trans hu.output.symm)
      (hc.trans hu.interactive.symm)
  rw [hfault'] at hfault
  exact ⟨channel, place, port, hcode, hfault, hport, hremaining.symm, hwritten.symm⟩

end Step

end Flat

end ByteMachine
