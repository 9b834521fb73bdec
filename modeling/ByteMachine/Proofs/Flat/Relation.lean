import ByteMachine.Proofs.Bus.Memory
import ByteMachine.Proofs.Flat.Basic

/-!
When a machine shows the state of a flat one, and when an action of the machine does the same as an
action of the flat one.  The relation between actions goes through sequences of actions.
-/

namespace ByteMachine

def consolePort? (channel : Int) : Option ConsolePort :=
  if channel = 0 then some .character else if channel = 1 then some .numeric else none

def Bus.HasConsole (bus : Bus wiring) : Prop := ∀ channel, bus.port? channel = consolePort? channel

theorem Bus.hasConsole {bus : Bus wiring} (h : bus.ports = [(1, .numeric), (0, .character)]) :
    bus.HasConsole := by
  intro channel
  rw [Bus.port?, h]
  by_cases h0 : channel = 0
  · subst h0
    rfl
  by_cases h1 : channel = 1
  · subst h1
    rfl
  · rw [List.lookup_cons, beq_false_of_ne h1, List.lookup_cons, beq_false_of_ne h0]
    simp [consolePort?, h0, h1]

def Flat.cpu (s : Flat) : Cpu :=
  ⟨s.pc, s.flags, s.registers.map fun byte => (byte.toNat : Int)⟩

/-- The machine has the state of the flat one behind its bus. -/
structure Machine.Shows (m : Machine) (s : Flat) : Prop where
  cpu : m.cpu = s.cpu
  memory : m.bus.Holds s.memory
  ports : m.bus.HasConsole
  input : m.console.remaining = s.input
  output : m.console.programOutput = s.output
  interactive : m.console.interactive = s.interactive
  status : m.status = s.status
  stepCount : m.stepCount = s.stepCount

/-- Inside a step the logs agree too. -/
structure Machine.Tracks (m : Machine) (s : Flat) : Prop extends m.Shows s where
  log : m.bus.log = s.activity

inductive Agree {α β : Type} (related : α → β → Prop) :
    EStateM.Result Failure Machine α → EStateM.Result Fault Flat β → Prop where
  | ok {a b m s} : related a b → m.Tracks s → Agree related (.ok a m) (.ok b s)
  | fault {fault m s} : m.Tracks s → Agree related (.error (.fault fault) m) (.error fault s)

/-- The action does what the flat action does, wherever the states agree. -/
def Refines {α β : Type} (related : α → β → Prop) (action : MachineM α)
    (meaning : FlatM β) : Prop :=
  ∀ m s, m.Tracks s → Agree related (action m) (meaning s)

def Unrelated {α β : Type} (_ : α) (_ : β) : Prop := True

def ByteValue (data : Int) (byte : UInt8) : Prop := data = byte.toNat

def IndexValue (index : Int) (place : Nat) : Prop := index = place

namespace Refines

variable {α β γ δ : Type} {r : α → β → Prop} {q : γ → δ → Prop}
  {action : MachineM α} {meaning : FlatM β}

theorem bind {f : α → MachineM γ} {g : β → FlatM δ} (h : Refines r action meaning)
    (k : ∀ a b, r a b → Refines q (f a) (g b)) : Refines q (action >>= f) (meaning >>= g) := by
  intro m s hs
  have ha := h m s hs
  generalize hx : action m = x at ha
  generalize hy : meaning s = y at ha
  cases ha with
  | ok hab ht =>
    rw [bind_ok hx, bind_ok hy]
    exact k _ _ hab _ _ ht
  | fault ht =>
    rw [bind_error hx, bind_error hy]
    exact .fault ht

theorem pure {a : α} {b : β} (h : r a b) : Refines r (Pure.pure a) (Pure.pure b) :=
  fun _ _ ht => .ok h ht

theorem throw (fault : Fault) :
    Refines r (MonadExcept.throw (Failure.fault fault)) (MonadExcept.throw fault) :=
  fun _ _ ht => .fault ht

end Refines

namespace Machine.Shows

variable {m : Machine} {s : Flat}

theorem pc (h : m.Shows s) : m.cpu.pc = s.pc := by rw [h.cpu]; rfl

theorem flags (h : m.Shows s) : m.cpu.flags = s.flags := by rw [h.cpu]; rfl

theorem register (h : m.Shows s) (i : Nat) (hi : i < registerCount) :
    m.cpu.registers[i] = (s.registers[i].toNat : Int) := by
  rw [h.cpu]
  exact Vector.getElem_map _ hi

end Machine.Shows

end ByteMachine
