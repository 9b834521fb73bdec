import ByteMachine.Proofs.Flat.Effect

/-!
A step of a machine is a step of the flat machine that it shows: the same instruction, the same
effect, the same fault, and a snapshot made of nothing but the flat state.
-/

namespace ByteMachine

open Machine

variable {m : Machine} {s : Flat}

theorem onBus_bind {α β : Type} (action : BusM wiring α) (f : α → BusM wiring β) :
    onBus (action >>= f) = onBus action >>= fun a => onBus (f a) := by
  funext m
  cases h : action m.bus with
  | ok a bus =>
    rw [bind_ok (onBus_ok h)]
    simp only [onBus, bind_ok h]
  | error failure bus =>
    rw [bind_error (onBus_error h)]
    simp only [onBus, bind_error h]

theorem readInside_refines (address : Nat) :
    Refines Eq (do onBus (Bus.requireInside address); onBus (Bus.read address))
      (Flat.readByte address) := by
  intro m s h
  by_cases ha : address < s.memory.length
  · have hb : s.memory[address]? = some s.memory[address] := List.getElem?_eq_getElem ha
    rw [bind_ok (onBus_ok (h.memory.requireInside_ok ha)), onBus_ok (h.memory.read hb),
      Flat.readByte_ok hb]
    exact .ok rfl (h.record ..)
  · rw [bind_error (onBus_error (h.memory.requireInside_error ha)), Flat.readByte_fault ha]
    exact .fault h

theorem readBytes_refines (count address : Nat) :
    Refines (fun found bytes => found = bytes ∧ bytes.length = count)
      (onBus (Bus.readOperandBytes address count)) (Flat.readBytes address count) := by
  induction count generalizing address with
  | zero => exact .pure ⟨rfl, rfl⟩
  | succ count ih =>
    have hsplit : onBus (Bus.readOperandBytes address (count + 1)) =
        (do onBus (Bus.requireInside address); onBus (Bus.read address)) >>= fun byte =>
          onBus (Bus.readOperandBytes (address + 1 : Nat) count) >>= fun rest =>
            pure (byte :: rest) := by
      simp only [Bus.readOperandBytes, onBus_bind, bind_assoc]
      rfl
    rw [hsplit]
    refine (readInside_refines address).bind ?_
    rintro byte - rfl
    refine (ih (address + 1)).bind ?_
    rintro found rest ⟨rfl, hl⟩
    exact .pure ⟨rfl, congrArg (· + 1) hl⟩

theorem operandCount_eq (opcode : UInt8) :
    Instruction.operandCount opcode.toNat = Flat.operandCount opcode := by
  unfold Flat.operandCount
  generalize opcode.toNat = n
  rcases n with _ | _ | _ | _ | _ | _ | _ | _ | _ | _ | _ | n
  all_goals try rfl
  unfold Instruction.operandCount
  rw [if_neg (by omega), if_neg (by omega)]
  rfl

def Flat.operation (code : UInt8 × List UInt8) : Operation :=
  ⟨code.1.toNat, code.2, .ofBytes code.1.toNat code.2⟩

def OperationOf (operation : Operation) (code : UInt8 × List UInt8) : Prop :=
  operation = Flat.operation code ∧ code.2.length = Flat.operandCount code.1

theorem decode_refines (opcode : UInt8) (address : Nat) :
    Refines OperationOf (onBus (Bus.decode opcode.toNat address))
      (do return (opcode, ← Flat.readBytes address (Flat.operandCount opcode))) := by
  rw [Bus.decode, onBus_bind, operandCount_eq]
  refine (readBytes_refines _ address).bind ?_
  rintro found operands ⟨rfl, hl⟩
  exact .pure ⟨rfl, hl⟩

theorem fetchOperation_refines : Refines OperationOf fetchOperation Flat.fetchCode := by
  intro m s h
  change Agree OperationOf
    (((if 0 ≤ m.cpu.pc ∧ m.cpu.pc < m.bus.memorySize then do
        let opcode ← onBus (Bus.read m.cpu.pc)
        setPc (m.cpu.pc + 1)
        return opcode
      else throw (.fault (.pcOutside m.cpu.pc m.bus.memorySize)) : MachineM UInt8) >>= fun opcode =>
        readPc >>= fun pc => onBus (Bus.decode opcode.toNat pc)) m)
    ((if 0 ≤ s.pc ∧ s.pc < s.memory.length then do
        let opcode ← Flat.readByte s.pc.toNat
        Flat.jump (s.pc + 1)
        return (opcode, ← Flat.readBytes (s.pc.toNat + 1) (Flat.operandCount opcode))
      else throw (.pcOutside s.pc s.memory.length) : FlatM (UInt8 × List UInt8)) s)
  rw [h.pc, h.memory.size]
  by_cases hin : 0 ≤ s.pc ∧ s.pc < s.memory.length
  · rw [if_pos hin, if_pos hin]
    obtain ⟨n, hn⟩ := Int.eq_ofNat_of_zero_le hin.1
    have hlt : n < s.memory.length := by omega
    have hb : s.memory[n]? = some s.memory[n] := List.getElem?_eq_getElem hlt
    have ht := (h.record .read n s.memory[n].toNat).withCpu (n + 1) s.flags s.registers
    rw [hn, Int.toNat_natCast, bind_assoc, bind_ok (onBus_ok (h.memory.read hb)),
      bind_ok (Flat.readByte_ok hb)]
    change Agree OperationOf
      (onBus (Bus.decode s.memory[n].toNat (n + 1 : Nat))
        { m with
          bus := m.bus.record .read n s.memory[n].toNat
          cpu := { m.cpu with pc := n + 1 } })
      ((do return (s.memory[n], ← Flat.readBytes (n + 1) (Flat.operandCount s.memory[n])) :
        FlatM (UInt8 × List UInt8))
          { s.record .read n s.memory[n].toNat with pc := n + 1 })
    rw [h.cpu]
    exact decode_refines _ _ _ _ ht
  · rw [if_neg hin, if_neg hin]
    exact .fault h

theorem Machine.Tracks.withStatus (h : m.Tracks s) (status : Status) :
    Machine.Tracks { m with status } { s with status } :=
  ⟨⟨h.cpu, h.memory, h.ports, h.input, h.output, h.interactive, rfl, h.stepCount⟩, h.log⟩

theorem Machine.Tracks.reported (h : m.Tracks s) (notice : Notice) :
    Machine.Tracks { m with bus := { m.bus with shared := m.bus.shared.report notice } } s :=
  ⟨⟨h.cpu, h.memory.congr rfl rfl, h.ports, h.input, h.output, h.interactive, h.status,
    h.stepCount⟩, h.log⟩

theorem settle_refines (opcode : UInt8) (operands : List UInt8)
    (hc : operands.length = Flat.operandCount opcode) :
    Refines Unrelated (settle (Flat.operation (opcode, operands)))
      (if Flat.Stops opcode then modify ({ · with status := .halted }) else pure ()) := by
  intro m s h
  have hstop : Flat.Stops opcode ↔ (opcode.toNat = 0 ∨ 10 < opcode.toNat) := by
    rw [toNat_eq_zero_iff]
    rfl
  simp only [hstop]
  unfold Flat.operandCount at hc
  unfold settle Flat.operation
  dsimp only
  generalize opcode.toNat = n at hc ⊢
  rcases n with _ | _ | _ | _ | _ | _ | _ | _ | _ | _ | _ | n
  · obtain rfl := List.eq_nil_of_length_eq_zero hc
    rw [if_pos (by omega)]
    exact .ok trivial (h.withStatus .halted)
  all_goals
    first
    | obtain ⟨a, b, rfl⟩ := List.length_eq_two.mp hc
      rw [if_neg (by omega)]
      exact .ok trivial h
    | obtain ⟨a, rfl⟩ := List.length_eq_one_iff.mp hc
      rw [if_neg (by omega)]
      exact .ok trivial h
    | obtain rfl := List.eq_nil_of_length_eq_zero hc
      rw [if_pos (by omega)]
      exact .ok trivial ((h.reported _).withStatus .halted)

theorem perform_refines (code : UInt8 × List UInt8)
    (hc : code.2.length = Flat.operandCount code.1) :
    Refines Unrelated (executeOperation (Flat.operation code)) (Flat.perform code) := by
  intro m s h
  change Agree Unrelated
    ((execute (Flat.operation code).instruction >>= fun _ => settle (Flat.operation code))
      { m with cpu := { m.cpu with pc := m.cpu.pc + code.2.length } })
    ((Flat.effect code.1 code.2 >>= fun _ =>
      if Flat.Stops code.1 then modify ({ · with status := .halted }) else pure ())
      { s with pc := s.pc + code.2.length })
  refine (effect_refines code.1 code.2 hc).bind (fun _ _ _ => settle_refines code.1 code.2 hc)
    _ _ ?_
  rw [h.cpu]
  exact h.withCpu (s.pc + code.2.length) s.flags s.registers

/-- The snapshot that a step leaves, all of it taken from the flat machine. -/
def Flat.Outcome.snapshot (outcome : Flat.Outcome) (pc : Int) : Snapshot where
  cpu := outcome.next.cpu
  operation := outcome.code.map Flat.operation
  stepCount := outcome.next.stepCount
  status := outcome.next.status
  activity := outcome.next.activity
  memory := outcome.next.memory
  fault := outcome.fault.map (⟨·, pc⟩)

theorem snapshot_ok (h : m.Tracks s) (operation : Option Operation) (fault : Option FaultReport) :
    Machine.snapshot operation fault m =
      .ok ⟨s.cpu, operation, s.stepCount, s.status, s.activity, s.memory, fault⟩
        { m with bus := { m.bus with log := [] } } := by
  have hm : Bus.Holds { m.bus with log := [] } s.memory := h.memory.congr rfl rfl
  have hlog : onBus Bus.takeLog m = .ok s.activity { m with bus := { m.bus with log := [] } } := by
    rw [← h.log]
    rfl
  unfold Machine.snapshot
  rw [bind_ok hlog,
    bind_ok (onBus_ok (m := { m with bus := { m.bus with log := [] } }) hm.contents)]
  change EStateM.Result.ok
    (⟨m.cpu, operation, m.stepCount, m.status, s.activity, s.memory, fault⟩ : Snapshot) _ = _
  rw [h.cpu, h.status, h.stepCount]

theorem Machine.Tracks.shows_quiet (h : m.Tracks s) :
    Machine.Shows { m with bus := { m.bus with log := [] } } s :=
  ⟨h.cpu, h.memory.congr rfl rfl, h.ports, h.input, h.output, h.interactive, h.status, h.stepCount⟩

theorem Machine.Shows.tracks_quiet (h : m.Shows s) :
    Machine.Tracks { m with bus := { m.bus with log := [] } } { s with activity := [] } :=
  ⟨⟨h.cpu, h.memory.congr rfl rfl, h.ports, h.input, h.output, h.interactive, h.status,
    h.stepCount⟩, rfl⟩

section Cycle

variable {α : Type} {action : MachineM α} {next : Machine}

theorem catchFault_ok {value : α} (h : action m = .ok value next) :
    catchFault action m = .ok (.ok value) next := by
  simp only [catchFault, h]

theorem catchFault_fault {fault : Fault} (h : action m = .error (.fault fault) next) :
    catchFault action m = .ok (.error fault) next := by
  simp only [catchFault, h]

end Cycle

/-- A cycle never fails; a fault is part of its result. -/
theorem cycle_tracks (h : m.Tracks s) :
    ∃ next, Machine.cycle m = .ok (s.cycle.code.map Flat.operation, s.cycle.fault) next ∧
      next.Tracks s.cycle.next := by
  unfold Machine.cycle Flat.cycle
  have hf := fetchOperation_refines m s h
  generalize hx : fetchOperation m = x at hf
  generalize Flat.fetchCode s = y at hf ⊢
  cases hf with
  | fault ht =>
    rw [bind_ok (catchFault_fault hx)]
    exact ⟨_, rfl, ht⟩
  | @ok operation code m₁ s₁ hop ht =>
    obtain ⟨rfl, hc⟩ := hop
    rw [bind_ok (catchFault_ok hx)]
    have hp := perform_refines code hc _ _ ht
    dsimp only
    generalize hx : executeOperation (Flat.operation code) m₁ = x at hp
    generalize Flat.perform code s₁ = y at hp ⊢
    cases hp with
    | fault hq =>
      rw [bind_ok (catchFault_fault hx)]
      exact ⟨_, rfl, hq⟩
    | ok _ hq =>
      rw [bind_ok (catchFault_ok hx)]
      exact ⟨_, rfl, hq⟩

theorem Machine.Tracks.counted (h : m.Tracks s) :
    Machine.Tracks { m with stepCount := m.stepCount + 1 }
      { s with stepCount := s.stepCount + 1 } :=
  ⟨⟨h.cpu, h.memory, h.ports, h.input, h.output, h.interactive, h.status,
    congrArg (· + 1) h.stepCount⟩, h.log⟩

/-- One step of a machine is one step of the flat machine that it shows. -/
theorem step_shows (h : m.Shows s) :
    ∃ next, Machine.step m = .ok (s.step.snapshot s.pc) next ∧ next.Shows s.step.next := by
  have ht := h.tracks_quiet
  have hlog : onBus Bus.takeLog m = .ok m.bus.log { m with bus := { m.bus with log := [] } } := rfl
  generalize { m with bus := { m.bus with log := [] } } = quiet at ht hlog
  unfold Machine.step
  rw [bind_ok hlog]
  change ∃ next,
    (if quiet.status = .running then _ else Machine.capture : MachineM Snapshot) quiet =
      .ok (s.step.snapshot s.pc) next ∧ next.Shows s.step.next
  unfold Flat.step
  rw [ht.status]
  dsimp only
  by_cases hr : s.status = .running
  · obtain ⟨next, hc, hn⟩ := cycle_tracks ht
    have hpc : readPc quiet = .ok s.pc quiet := by
      rw [show s.pc = quiet.cpu.pc from ht.pc.symm]
      rfl
    rw [if_pos hr, if_pos hr, bind_ok hpc, bind_ok hc]
    generalize Flat.cycle { s with activity := [] } = outcome at hn
    rcases outcome with ⟨t, code, _ | fault⟩
    · exact ⟨_, snapshot_ok hn.counted _ none, hn.counted.shows_quiet⟩
    · have hend := ((hn.withStatus .faulted).reported (.faulted s.pc fault)).counted
      exact ⟨_, snapshot_ok hend _ _, hend.shows_quiet⟩
  · rw [if_neg hr, if_neg hr]
    exact ⟨_, snapshot_ok ht none none, ht.shows_quiet⟩

end ByteMachine
