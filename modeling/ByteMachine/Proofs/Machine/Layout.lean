import ByteMachine.Machine.Step
import ByteMachine.Proofs.Bus.Layout

/-!
What instructions have no hold on.  An instruction works on the registers and makes accesses to the
bus; whatever shows neither registers nor more of the bus than its layout stays as it was, even if
the instruction fails halfway.  The status is of that kind, and so is the layout itself, which no
step changes.
-/

namespace ByteMachine

open Machine

variable {α ν : Type} {view : Machine → ν}

structure Overlooks (view : Machine → ν) : Prop where
  cpu : ∀ m cpu, view { m with cpu } = view m
  bus : ∀ m bus, bus.layout = m.bus.layout → view { m with bus } = view m

theorem status_overlooks : Overlooks Machine.status := ⟨fun _ _ => rfl, fun _ _ _ => rfl⟩

theorem layout_overlooks : Overlooks fun m => m.bus.layout := ⟨fun _ _ => rfl, fun _ _ hl => hl⟩

theorem readPc_retains : Retains view readPc := Retains.get.bind fun _ => .pure _

theorem readFlags_retains : Retains view readFlags := Retains.get.bind fun _ => .pure _

theorem referenceIndex_retains (operand : Operand) : Retains view (referenceIndex operand) := by
  cases operand with
  | literal value => exact .throw _
  | reference index => exact .pure _

theorem catchFault_retains {action : MachineM α} (ha : Retains view action) :
    Retains view (catchFault action) := by
  intro m
  have hkept := ha m
  unfold catchFault
  split <;> rename_i hx <;> rw [hx] at hkept <;> exact hkept

namespace Overlooks

section Instructions

variable (hv : Overlooks view)
include hv

theorem onBus {action : BusM wiring α} (ha : Retains Bus.layout action) :
    Retains view (Machine.onBus action) := by
  intro m
  have hlayout := ha m.bus
  unfold Machine.onBus
  cases hx : action m.bus with
  | ok value bus =>
    rw [hx] at hlayout
    exact hv.bus m bus hlayout
  | error failure bus =>
    rw [hx] at hlayout
    exact hv.bus m bus hlayout

theorem modifyCpu (f : Cpu → Cpu) : Retains view (Machine.modifyCpu f) :=
  .modify fun m => hv.cpu m _

theorem readCell (index : Int) : Retains view (Machine.readCell index) := by
  refine .ite ?_ (hv.onBus ?_)
  · intro m
    unfold readRegister
    split <;> rfl
  · exact (Bus.requireInside_retains index).bind fun _ =>
      (Bus.read_retains index).bind fun _ => .pure _

theorem writeCell (index value : Int) : Retains view (Machine.writeCell index value) := by
  refine .ite ?_ (hv.onBus ?_)
  · intro m
    unfold writeRegister
    split
    · exact hv.cpu m _
    · rfl
  · exact (Bus.requireInside_retains index).bind fun _ => Bus.write_retains index _

theorem evaluate (operand : Operand) : Retains view (Machine.evaluate operand) := by
  cases operand with
  | literal value => exact .pure _
  | reference index => exact hv.readCell index

theorem readReference (operand : Operand) : Retains view (Machine.readReference operand) :=
  (referenceIndex_retains operand).bind hv.readCell

theorem store (operand : Operand) (value : Int) : Retains view (Machine.store operand value) :=
  (referenceIndex_retains operand).bind fun index => hv.writeCell index value

theorem resolve (pointer : Operand) : Retains view (Machine.resolve pointer) := by
  refine (hv.readReference pointer).bind fun index => ?_
  exact .ite ((Retains.throw _).bind fun _ => .pure _) (.pure _)

theorem executeArithmetic (operation : Int → Int → Arithmetic.Outcome) (source target : Operand) :
    Retains view (Machine.executeArithmetic operation source target) := by
  refine (hv.readReference target).bind fun old => ?_
  refine (hv.evaluate source).bind fun delta => ?_
  exact (hv.modifyCpu _).bind fun _ => hv.store target _

theorem execute (instruction : Instruction) : Retains view (Machine.execute instruction) := by
  cases instruction with
  | suspend | halt => exact .pure _
  | move source target =>
    exact (hv.evaluate source).bind fun value => hv.store target value
  | add source target | sub source target => exact hv.executeArithmetic _ source target
  | jumpUnless mask target =>
    refine (referenceIndex_retains target).bind fun index => ?_
    refine readFlags_retains.bind fun flags => ?_
    exact .ite ((hv.readCell index).bind fun _ => hv.modifyCpu _) (.pure _)
  | jump target => exact (hv.readReference target).bind fun _ => hv.modifyCpu _
  | storePc target => exact readPc_retains.bind fun pc => hv.store target pc
  | input channel target =>
    refine (referenceIndex_retains target).bind fun index => ?_
    exact (hv.onBus (Bus.receive_retains _)).bind fun data => hv.writeCell index data
  | output channel source =>
    exact (hv.readReference source).bind fun data => hv.onBus (Bus.send_retains _ data)
  | loadAt pointer target =>
    refine (referenceIndex_retains target).bind fun index => ?_
    refine (hv.resolve pointer).bind fun operand => ?_
    exact (hv.evaluate operand).bind fun value => hv.writeCell index value
  | storeAt source pointer =>
    refine (hv.resolve pointer).bind fun target => ?_
    exact (hv.evaluate source).bind fun value => hv.store target value

theorem fetchOperation : Retains view Machine.fetchOperation := by
  refine Retains.bind ?_ fun opcode => readPc_retains.bind fun pc =>
    hv.onBus (Bus.decode_retains _ pc)
  refine Retains.get.bind fun m => .ite ?_ (.throw _)
  exact (hv.onBus (Bus.read_retains _)).bind fun opcode => (hv.modifyCpu _).bind fun _ => .pure _

theorem snapshot (operation : Option Operation) (fault : Option FaultReport) :
    Retains view (Machine.snapshot operation fault) := by
  refine (hv.onBus Bus.takeLog_retains).bind fun activity => ?_
  exact (hv.onBus Bus.contents_retains).bind fun memory => Retains.get.bind fun _ => .pure _

end Instructions

end Overlooks

section Step

theorem modifyConsole_retains (f : Console → Console) :
    Retains (fun m => m.bus.layout) (modifyConsole f) := .modify fun _ => rfl

theorem setStatus_retains (status : Status) :
    Retains (fun m => m.bus.layout) (setStatus status) := .modify fun _ => rfl

theorem settle_retains (operation : Operation) :
    Retains (fun m => m.bus.layout) (settle operation) := by
  unfold settle
  cases operation.instruction with
  | halt => exact (modifyConsole_retains _).bind fun _ => setStatus_retains .halted
  | suspend => exact setStatus_retains .halted
  | _ => exact .pure _

theorem cycle_retains : Retains (fun m => m.bus.layout) cycle := by
  have hv := layout_overlooks
  refine (catchFault_retains hv.fetchOperation).bind fun fetched => ?_
  cases fetched with
  | error fault => exact .pure _
  | ok operation =>
    refine (catchFault_retains ?_).bind fun executed => ?_
    · refine readPc_retains.bind fun pc => (hv.modifyCpu _).bind fun _ => ?_
      exact (hv.execute _).bind fun _ => settle_retains operation
    · cases executed with
      | error fault => exact .pure _
      | ok => exact .pure _

/-- A step leaves the layout of memory, also one that fails. -/
theorem step_retains : Retains (fun m => m.bus.layout) Machine.step := by
  have hv := layout_overlooks
  refine (hv.onBus Bus.takeLog_retains).bind fun log => ?_
  refine Retains.get.bind fun m => .ite ?_ (hv.snapshot none none)
  refine readPc_retains.bind fun pc => cycle_retains.bind fun ⟨operation, fault⟩ => ?_
  have hcount : Retains (fun m => m.bus.layout) countStep := .modify fun _ => rfl
  cases fault with
  | none => exact hcount.bind fun _ => hv.snapshot operation none
  | some fault =>
    refine (setStatus_retains .faulted).bind fun _ => (modifyConsole_retains _).bind fun _ => ?_
    exact hcount.bind fun _ => hv.snapshot operation _

end Step

end ByteMachine
