import ByteMachine.Machine.Step
import ByteMachine.Proofs.Effect

/-!
Of the flag register only the lowest byte has any influence.  Two machines that are alike but for
the other bits of it take the same step, and stay alike until an addition or a subtraction sets the
register anew.
-/

namespace ByteMachine

open Machine

variable {α β : Type} {m m' : Machine} {f g : Int}

def Machine.withFlags (m : Machine) (flags : Int) : Machine :=
  { m with cpu := { m.cpu with flags } }

/-- Either the flags of both machines are as they were at the start, and nothing else differs, or
the machines are equal, with flags that arithmetic has set. -/
inductive FlagsApart (f g : Int) : Machine → Machine → Prop where
  | kept {m : Machine} (hf : m.cpu.flags = f) : FlagsApart f g m (m.withFlags g)
  | reset {m : Machine} (hf : 0 ≤ m.cpu.flags ∧ m.cpu.flags ≤ 3) : FlagsApart f g m m

inductive EndApart (f g : Int) (related : α → α → Prop) :
    EStateM.Result Failure Machine α → EStateM.Result Failure Machine α → Prop where
  | ok {a b : α} {m m' : Machine} (hr : related a b) (hm : FlagsApart f g m m') :
      EndApart f g related (.ok a m) (.ok b m')
  | error (failure : Failure) {m m' : Machine} (hm : FlagsApart f g m m') :
      EndApart f g related (.error failure m) (.error failure m')

/-- The action does the same on machines that differ in their flags at most. -/
def Indifferent (f g : Int) (related : α → α → Prop) (action : MachineM α) : Prop :=
  ∀ m m', FlagsApart f g m m' → EndApart f g related (action m) (action m')

namespace Indifferent

variable {r : α → α → Prop} {q : β → β → Prop} {action other : MachineM α} {next : α → MachineM β}

theorem pure {a : α} (hr : r a a) : Indifferent f g r (Pure.pure a) := by
  intro m m' h
  exact .ok hr h

theorem throw (failure : Failure) :
    Indifferent f g r (MonadExcept.throw failure : MachineM α) := by
  intro m m' h
  exact .error failure h

theorem bind (ha : Indifferent f g Eq action) (hn : ∀ a, Indifferent f g q (next a)) :
    Indifferent f g q (action >>= next) := by
  intro m m' h
  have hs := ha m m' h
  generalize hx : action m = x at hs
  generalize hy : action m' = y at hs
  cases hs with
  | ok hr hm =>
    subst hr
    rw [bind_ok hx, bind_ok hy]
    exact hn _ _ _ hm
  | error failure hm =>
    rw [bind_error hx, bind_error hy]
    exact .error failure hm

theorem ite {c : Prop} [Decidable c] (ha : Indifferent f g r action)
    (ho : Indifferent f g r other) : Indifferent f g r (if c then action else other) := by
  by_cases hc : c
  · rw [if_pos hc]
    exact ha
  · rw [if_neg hc]
    exact ho

theorem blind
    (hk : ∀ m : Machine, ∀ flags : Int, action (m.withFlags flags) =
      match action m with
      | .ok a next => .ok a (next.withFlags flags)
      | .error failure next => .error failure (next.withFlags flags))
    (hf : ∀ m : Machine, match action m with
      | .ok _ next => next.cpu.flags = m.cpu.flags
      | .error _ next => next.cpu.flags = m.cpu.flags) :
    Indifferent f g Eq action := by
  intro m m' h
  have hflags := hf m
  cases h with
  | kept hm =>
    rw [hk m g]
    cases hx : action m with
    | ok a next =>
      rw [hx] at hflags
      exact .ok rfl (.kept (hflags.trans hm))
    | error failure next =>
      rw [hx] at hflags
      exact .error failure (.kept (hflags.trans hm))
  | reset hm =>
    cases hx : action m with
    | ok a next =>
      rw [hx] at hflags
      exact .ok rfl (.reset (by rw [hflags]; exact hm))
    | error failure next =>
      rw [hx] at hflags
      exact .error failure (.reset (by rw [hflags]; exact hm))

end Indifferent

section Leaves

theorem onBus_indifferent (action : BusM wiring α) : Indifferent f g Eq (onBus action) := by
  apply Indifferent.blind
  · intro m flags
    have hbus : (m.withFlags flags).bus = m.bus := rfl
    unfold onBus
    rw [hbus]
    cases action m.bus <;> rfl
  · intro m
    unfold onBus
    cases action m.bus <;> rfl

theorem readRegister_indifferent (index : Int) : Indifferent f g Eq (readRegister index) := by
  apply Indifferent.blind
  · intro m flags
    unfold readRegister
    cases registerSlot? index <;> rfl
  · intro m
    unfold readRegister
    cases registerSlot? index <;> rfl

theorem writeRegister_indifferent (index value : Int) :
    Indifferent f g Eq (writeRegister index value) := by
  apply Indifferent.blind
  · intro m flags
    unfold writeRegister
    cases registerSlot? index <;> rfl
  · intro m
    unfold writeRegister
    cases registerSlot? index <;> rfl

theorem readPc_indifferent : Indifferent f g Eq readPc :=
  .blind (fun _ _ => rfl) (fun _ => rfl)

theorem setPc_indifferent (pc : Int) : Indifferent f g Eq (setPc pc) :=
  .blind (fun _ _ => rfl) (fun _ => rfl)

theorem setStatus_indifferent (status : Status) : Indifferent f g Eq (setStatus status) :=
  .blind (fun _ _ => rfl) (fun _ => rfl)

theorem report_indifferent (notice : Notice) : Indifferent f g Eq (report notice) :=
  .blind (fun _ _ => rfl) (fun _ => rfl)

theorem countStep_indifferent : Indifferent f g Eq countStep :=
  .blind (fun _ _ => rfl) (fun _ => rfl)

theorem setFlags_indifferent {flags : Int} (hf : 0 ≤ flags ∧ flags ≤ 3) :
    Indifferent f g Eq (setFlags flags) := by
  intro m m' h
  cases h with
  | kept _ => exact .ok rfl (.reset hf)
  | reset _ => exact .ok rfl (.reset hf)

end Leaves

section Instructions

theorem referenceIndex_indifferent (operand : Operand) :
    Indifferent f g Eq (referenceIndex operand) := by
  cases operand with
  | literal value => exact .throw _
  | reference index => exact .pure rfl

theorem readCell_indifferent (index : Int) : Indifferent f g Eq (readCell index) :=
  (readRegister_indifferent index).ite (onBus_indifferent _)

theorem writeCell_indifferent (index value : Int) : Indifferent f g Eq (writeCell index value) :=
  (writeRegister_indifferent index _).ite (onBus_indifferent _)

theorem evaluate_indifferent (operand : Operand) : Indifferent f g Eq (evaluate operand) := by
  cases operand with
  | literal value => exact .pure rfl
  | reference index => exact readCell_indifferent index

theorem readReference_indifferent (operand : Operand) :
    Indifferent f g Eq (readReference operand) :=
  (referenceIndex_indifferent operand).bind readCell_indifferent

theorem store_indifferent (operand : Operand) (value : Int) :
    Indifferent f g Eq (store operand value) :=
  (referenceIndex_indifferent operand).bind fun index => writeCell_indifferent index value

theorem resolve_indifferent (pointer : Operand) : Indifferent f g Eq (resolve pointer) := by
  refine (readReference_indifferent pointer).bind fun index => ?_
  exact ((Indifferent.throw _).bind fun _ => .pure rfl).ite (.pure rfl)

theorem ofBits_range (zero carry : Bool) :
    0 ≤ Flags.ofBits zero carry ∧ Flags.ofBits zero carry ≤ 3 := by
  cases zero <;> cases carry <;> decide

theorem executeArithmetic_indifferent {operation : Int → Int → Arithmetic.Outcome}
    (ho : ∀ old delta, 0 ≤ (operation old delta).flags ∧ (operation old delta).flags ≤ 3)
    (source target : Operand) :
    Indifferent f g Eq (executeArithmetic operation source target) := by
  refine (readReference_indifferent target).bind fun old => ?_
  refine (evaluate_indifferent source).bind fun delta => ?_
  refine (setFlags_indifferent (ho old delta)).bind fun _ => ?_
  exact store_indifferent target _

theorem jumpUnless_indifferent (hfg : f % 256 = g % 256) (mask : UInt8) (target : Operand) :
    Indifferent f g Eq (execute (.jumpUnless mask target)) := by
  refine (referenceIndex_indifferent target).bind fun index => ?_
  have hjump : Indifferent f g Eq (readCell index >>= setPc) :=
    (readCell_indifferent index).bind setPc_indifferent
  intro m m' h
  have htest : Flags.masked m'.cpu.flags mask = Flags.masked m.cpu.flags mask := by
    cases h with
    | kept hf =>
      change Flags.masked g mask = Flags.masked m.cpu.flags mask
      rw [hf, Flags.masked, Flags.masked, hfg]
    | reset _ => rfl
  change EndApart f g Eq
    ((if Flags.masked m.cpu.flags mask = 0 then readCell index >>= setPc else pure ()) m)
    ((if Flags.masked m'.cpu.flags mask = 0 then readCell index >>= setPc else pure ()) m')
  rw [htest]
  exact (hjump.ite (.pure rfl)) m m' h

theorem execute_indifferent (hfg : f % 256 = g % 256) (instruction : Instruction) :
    Indifferent f g Eq (execute instruction) := by
  cases instruction with
  | suspend => exact .pure rfl
  | move source target =>
    exact (evaluate_indifferent source).bind fun value => store_indifferent target value
  | add source target =>
    exact executeArithmetic_indifferent (fun _ _ => ofBits_range _ _) source target
  | sub source target =>
    exact executeArithmetic_indifferent (fun _ _ => ofBits_range _ _) source target
  | jumpUnless mask target => exact jumpUnless_indifferent hfg mask target
  | jump target => exact (readReference_indifferent target).bind setPc_indifferent
  | storePc target => exact readPc_indifferent.bind fun pc => store_indifferent target pc
  | input channel target =>
    refine (referenceIndex_indifferent target).bind fun index => ?_
    exact (onBus_indifferent _).bind fun data => writeCell_indifferent index data
  | output channel source =>
    exact (readReference_indifferent source).bind fun _ => onBus_indifferent _
  | loadAt pointer target =>
    refine (referenceIndex_indifferent target).bind fun index => ?_
    refine (resolve_indifferent pointer).bind fun pointed => ?_
    exact (evaluate_indifferent pointed).bind fun value => writeCell_indifferent index value
  | storeAt source pointer =>
    refine (resolve_indifferent pointer).bind fun target => ?_
    exact (evaluate_indifferent source).bind fun value => store_indifferent target value
  | halt => exact .pure rfl

end Instructions

section Step

theorem Indifferent.get_bind {q : β → β → Prop} {next : Machine → MachineM β}
    (hn : ∀ m flags, next (m.withFlags flags) = next m) (h : ∀ m, Indifferent f g q (next m)) :
    Indifferent f g q (get >>= next) := by
  intro m m' hm
  cases hm with
  | kept hf =>
    change EndApart f g q (next m m) (next (m.withFlags g) (m.withFlags g))
    rw [hn]
    exact h m _ _ (.kept hf)
  | reset hf => exact h m _ _ (.reset hf)

theorem fetchOperation_indifferent : Indifferent f g Eq fetchOperation := by
  have hfetch : Indifferent f g Eq fetch := by
    refine .get_bind (fun _ _ => rfl) fun m => ?_
    refine Indifferent.ite ?_ (.throw _)
    refine (onBus_indifferent _).bind fun opcode => ?_
    exact (setPc_indifferent _).bind fun _ => .pure rfl
  exact hfetch.bind fun opcode => readPc_indifferent.bind fun pc => onBus_indifferent _

theorem settle_indifferent (operation : Operation) : Indifferent f g Eq (settle operation) := by
  unfold settle
  cases operation.instruction with
  | suspend => exact setStatus_indifferent .halted
  | halt => exact (report_indifferent _).bind fun _ => setStatus_indifferent .halted
  | _ => exact .pure rfl

theorem executeOperation_indifferent (hfg : f % 256 = g % 256) (operation : Operation) :
    Indifferent f g Eq (executeOperation operation) := by
  refine readPc_indifferent.bind fun pc => ?_
  refine (setPc_indifferent _).bind fun _ => ?_
  exact (execute_indifferent hfg _).bind fun _ => settle_indifferent operation

theorem catchFault_indifferent {action : MachineM α} (h : Indifferent f g Eq action) :
    Indifferent f g Eq (catchFault action) := by
  intro m m' hm
  have hs := h m m' hm
  unfold catchFault
  generalize action m = x at hs
  generalize action m' = y at hs
  cases hs with
  | ok hr hn =>
    subst hr
    exact .ok rfl hn
  | error failure hn =>
    cases failure
    case fault fault => exact .ok rfl hn
    all_goals exact .error _ hn

theorem cycle_indifferent (hfg : f % 256 = g % 256) : Indifferent f g Eq cycle := by
  refine (catchFault_indifferent fetchOperation_indifferent).bind fun fetched => ?_
  cases fetched with
  | error fault => exact .pure rfl
  | ok operation =>
    refine (catchFault_indifferent (executeOperation_indifferent hfg operation)).bind fun done => ?_
    cases done with
    | error fault => exact .pure rfl
    | ok _ => exact .pure rfl

def Snapshot.AlikeBesideCpu (a b : Snapshot) : Prop := b = { a with cpu := b.cpu }

theorem snapshot_indifferent (operation : Option Operation) (fault : Option FaultReport) :
    Indifferent f g Snapshot.AlikeBesideCpu (snapshot operation fault) := by
  refine (onBus_indifferent _).bind fun activity => ?_
  refine (onBus_indifferent _).bind fun memory => ?_
  intro m m' h
  cases h with
  | kept hf => exact .ok rfl (.kept hf)
  | reset hf => exact .ok rfl (.reset hf)

/-- Machines whose flags agree in the lowest byte take the same step. -/
theorem step_indifferent (hfg : f % 256 = g % 256) :
    Indifferent f g Snapshot.AlikeBesideCpu step := by
  refine (onBus_indifferent _).bind fun _ => ?_
  refine .get_bind (fun _ _ => rfl) fun m => ?_
  refine Indifferent.ite ?_ (snapshot_indifferent none none)
  refine readPc_indifferent.bind fun pc => ?_
  refine (cycle_indifferent hfg).bind fun result => ?_
  obtain ⟨operation, fault⟩ := result
  cases fault with
  | none => exact countStep_indifferent.bind fun _ => snapshot_indifferent operation none
  | some fault =>
    refine (setStatus_indifferent .faulted).bind fun _ => ?_
    refine (report_indifferent _).bind fun _ => ?_
    exact countStep_indifferent.bind fun _ => snapshot_indifferent operation _

end Step

end ByteMachine
