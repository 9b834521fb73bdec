import ByteMachine.Bus.Wiring
import ByteMachine.Decode
import ByteMachine.Flags

/-!
The machine: registers, flag register and program counter, the bus, and how far it has come.  All
registers are plain integers here; programs only ever store bytes in them.
-/

namespace ByteMachine

abbrev Registers := Vector Int registerCount

structure Cpu where
  pc : Int := 0
  flags : Int := 0
  registers : Registers := Vector.replicate registerCount 0
  deriving DecidableEq, Repr

inductive Status where
  | running
  | halted
  | faulted
  deriving DecidableEq, Repr

def Status.name : Status → String
  | running => "RUNNING"
  | halted => "HALTED"
  | faulted => "FAULTED"

structure Machine where
  cpu : Cpu := {}
  bus : Bus wiring
  status : Status := .running
  stepCount : Nat := 0

abbrev MachineM := EStateM Failure Machine

/-- The register of an index.  Negative indices count back from the last register. -/
def registerSlot? (index : Int) : Option (Fin registerCount) :=
  if h : 0 ≤ index ∧ index < registerCount then
    some ⟨index.toNat, by simp only [registerCount] at h ⊢; omega⟩
  else if h : -registerCount ≤ index ∧ index < 0 then
    some ⟨(index + registerCount).toNat, by simp only [registerCount] at h ⊢; omega⟩
  else none

namespace Machine

def console (machine : Machine) : Console := machine.bus.shared

def onBus {α : Type} (action : BusM wiring α) : MachineM α := fun machine =>
  match action machine.bus with
  | .ok value bus => .ok value { machine with bus }
  | .error failure bus => .error failure { machine with bus }

def modifyCpu (f : Cpu → Cpu) : MachineM Unit :=
  modify fun machine => { machine with cpu := f machine.cpu }

def setPc (pc : Int) : MachineM Unit := modifyCpu ({ · with pc })

def setFlags (flags : Int) : MachineM Unit := modifyCpu ({ · with flags })

def setStatus (status : Status) : MachineM Unit := modify ({ · with status })

def modifyConsole (f : Console → Console) : MachineM Unit :=
  modify fun machine => { machine with bus := { machine.bus with shared := f machine.bus.shared } }

def report (notice : Notice) : MachineM Unit := modifyConsole (·.report notice)

def readRegister (index : Int) : MachineM Int := fun machine =>
  match registerSlot? index with
  | some slot => .ok machine.cpu.registers[slot] machine
  | none => .error (.noSuchRegister false) machine

def writeRegister (index value : Int) : MachineM Unit := fun machine =>
  match registerSlot? index with
  | some slot =>
    let registers := machine.cpu.registers.set slot value
    .ok () { machine with cpu := { machine.cpu with registers } }
  | none => .error (.noSuchRegister true) machine

def reset : MachineM Unit :=
  modify fun machine => { machine with cpu := {}, status := .running, stepCount := 0 }

end Machine

end ByteMachine
