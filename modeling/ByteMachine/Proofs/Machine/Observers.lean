import ByteMachine.Machine.Observer
import ByteMachine.Proofs.Machine.Passes
import ByteMachine.Proofs.Machine.Stores
import ByteMachine.Proofs.Machine.Tracing

/-!
Observers with a name, and the tracer.  None of them fails as long as those with a name write bytes
inside memory and, if there is a tracer, never jump below it.  Only a reset touches the status.
-/

namespace ByteMachine

open Machine

structure Session.Rules where
  tracers : Bool
  resets : Bool

variable {rules : Session.Rules} {session : Session Observer Cast} {m : Machine}

/-- The reaction succeeds on a memory of this size.  A tracer looks up the instruction at the
program counter, so where there is one nobody jumps below memory. -/
def Reaction.Fits (rules : Session.Rules) (size : Nat) : Reaction → Prop
  | .write address data => (0 ≤ address ∧ address < size) ∧ 0 ≤ data ∧ data ≤ 255
  | .jump pc => rules.tracers = true → 0 ≤ pc
  | .reset => rules.resets = true
  | _ => True

def Observer.Serves (rules : Session.Rules) : Observer → Prop
  | .named _ => True
  | .tracer _ => rules.tracers = true

namespace Session

/-- A session whose observers keep to the rules. -/
structure Orderly (rules : Rules) (session : Session Observer Cast) : Prop where
  machine : session.machine.Equipped
  pc : rules.tracers = true → 0 ≤ session.machine.cpu.pc
  observers : ∀ observer ∈ session.observers, observer.Serves rules
  cast : ∀ entry ∈ session.context, entry.2.Fits rules session.machine.bus.memorySize

theorem Orderly.withMachine (h : session.Orderly rules) (hm : m.Equipped)
    (hpc : rules.tracers = true → 0 ≤ m.cpu.pc)
    (hsize : m.bus.memorySize = session.machine.bus.memorySize) :
    Orderly rules { session with machine := m } where
  machine := hm
  pc := hpc
  observers := h.observers
  cast := by
    rw [hsize]
    exact h.cast

theorem Orderly.step (h : session.Orderly rules) {snapshot : Snapshot} {next : Machine}
    (hs : Machine.step session.machine = .ok snapshot next) :
    Orderly rules { session with machine := next } := by
  obtain ⟨_, _, hsame, hmirrors⟩ := h.machine.step_mirrors
  rw [hs] at hsame
  cases hsame
  refine h.withMachine hmirrors.equipped ?_ (hmirrors.restrains h.machine).size
  intro ht
  rw [hmirrors.pc]
  exact Flat.step_pc (s := session.machine.marked) (h.pc ht)

theorem Orderly.snapshot_pc (h : session.Orderly rules) {snapshot : Snapshot} {next : Machine}
    (hs : Machine.step session.machine = .ok snapshot next) :
    rules.tracers = true → 0 ≤ snapshot.cpu.pc := by
  rw [(step_leaves hs).1]
  exact (h.step hs).pc

def Leads (rules : Rules) (session : Session Observer Cast) (action : ObservedM Unit) : Prop :=
  ∃ after, action session = .ok () after ∧ after.Orderly rules ∧
    (rules.resets = false → after.machine.status = session.machine.status)

theorem leads_bind {action : ObservedM Unit} {next : Unit → ObservedM Unit}
    (ha : session.Leads rules action)
    (hn : ∀ middle : Session Observer Cast, middle.Orderly rules → middle.Leads rules (next ())) :
    session.Leads rules (action >>= next) := by
  obtain ⟨middle, hm, hmiddle, hstatus⟩ := ha
  obtain ⟨after, hl, hafter, hsame⟩ := hn middle hmiddle
  exact ⟨after, (bind_ok hm).trans hl, hafter, fun hr => (hsame hr).trans (hstatus hr)⟩

theorem ensure_leads (h : session.Orderly rules) (name : String) :
    session.Leads rules (Observer.ensure name .none) := by
  refine ⟨_, rfl, ?_, ?_⟩
  · dsimp only
    split
    · exact h
    · refine ⟨h.machine, h.pc, h.observers, ?_⟩
      intro entry he
      rcases List.mem_append.mp he with he | he
      · exact h.cast entry he
      · rw [List.mem_singleton.mp he]
        trivial
  · intro _
    dsimp only
    split <;> rfl

theorem subscribe_leads (h : session.Orderly rules) (name : String) :
    session.Leads rules (subscribe (Observer.named name)) := by
  refine ⟨_, rfl, ?_, ?_⟩
  · dsimp only
    split
    · exact h
    · refine ⟨h.machine, h.pc, ?_, h.cast⟩
      intro observer ho
      rcases List.mem_append.mp ho with ho | ho
      · exact h.observers observer ho
      · rw [List.mem_singleton.mp ho]
        trivial
  · intro _
    dsimp only
    split <;> rfl

theorem unsubscribe_leads (h : session.Orderly rules) (observer : Observer) :
    session.Leads rules (unsubscribe observer) := by
  refine ⟨_, rfl, ⟨h.machine, h.pc, ?_, h.cast⟩, fun _ => rfl⟩
  intro other ho
  exact h.observers other (List.mem_of_mem_erase ho)

end Session

theorem Machine.Equipped.write_ok (h : m.Equipped) {address data : Int}
    (ha : 0 ≤ address ∧ address < m.bus.memorySize) (hd : 0 ≤ data ∧ data ≤ 255) :
    ∃ next, onBus (Bus.write address data) m = .ok () next ∧ next.Equipped ∧
      next.cpu = m.cpu ∧ next.status = m.status ∧ next.bus.memorySize = m.bus.memorySize := by
  obtain ⟨place, rfl⟩ := Int.eq_ofNat_of_zero_le ha.1
  have hplace : place < m.bus.cells.length := by
    rw [Bus.cells_length]
    exact Int.ofNat_lt.mp ha.2
  obtain ⟨devices, hwrite, hholds⟩ := h.memory.holds.write hplace hd
  have hafter : ({ m.bus with devices }.record .write place data).Holds
      (m.bus.cells.set place (.ofInt data)) := hholds.congr rfl rfl
  exact ⟨_, onBus_ok hwrite, ⟨hafter.gapFree, h.ports, h.registers⟩, rfl, rfl, rfl⟩

namespace Session

theorem react_leads (h : session.Orderly rules) {reaction : Reaction}
    (hf : reaction.Fits rules session.machine.bus.memorySize) :
    session.Leads rules (Observer.react reaction) := by
  cases reaction with
  | none => exact ⟨session, rfl, h, fun _ => rfl⟩
  | remove name =>
    exact leads_bind (ensure_leads h name) fun _ hm => unsubscribe_leads hm _
  | add name =>
    exact leads_bind (ensure_leads h name) fun _ hm => subscribe_leads hm name
  | write address data =>
    obtain ⟨next, hw, he, hcpu, hstatus, hsize⟩ := h.machine.write_ok hf.1 hf.2
    refine ⟨_, onMachine_ok hw, h.withMachine he ?_ hsize, fun _ => hstatus⟩
    rw [hcpu]
    exact h.pc
  | jump pc =>
    have he : Equipped { session.machine with cpu := { session.machine.cpu with pc } } :=
      ⟨h.machine.memory, h.machine.ports, h.machine.registers⟩
    exact ⟨_, rfl, h.withMachine he hf rfl, fun _ => rfl⟩
  | reset =>
    have hregisters : ∀ register ∈ ({} : Cpu).registers, 0 ≤ register ∧ register ≤ 255 := by decide
    have he : Equipped { bus := session.machine.bus } :=
      ⟨h.machine.memory, h.machine.ports, hregisters⟩
    refine ⟨_, rfl, h.withMachine he (fun _ => Int.le_refl 0) rfl, ?_⟩
    intro hr
    have hallowed : rules.resets = true := hf
    rw [hr] at hallowed
    cases hallowed

theorem notify_leads {layout : Trace.Layout} {observer : Observer} {snapshot : Snapshot}
    (h : session.Orderly rules)
    (ho : observer.Serves rules) (hpc : rules.tracers = true → 0 ≤ snapshot.cpu.pc) :
    session.Leads rules (Observer.notify layout observer snapshot) := by
  cases observer with
  | named name =>
    refine react_leads h ?_
    cases hl : session.context.lookup name with
    | none => trivial
    | some reaction =>
      obtain ⟨front, back, hsplit, -⟩ := List.lookup_eq_some_iff.mp hl
      exact h.cast (name, reaction) (by rw [hsplit]; simp)
  | tracer pause =>
    have ht := Trace.print_shows h.machine.memory (hpc ho) layout pause
    have he := h.machine.withTerminal []
    exact ⟨_, onMachine_ok ht, h.withMachine (he _) h.pc rfl, fun _ => rfl⟩

theorem orderly_calm (layout : Trace.Layout) (rules : Rules) :
    Calm (Observer.notify layout) (Observer.Serves rules) (Orderly rules) where
  machine := fun _ h => h.machine
  observers := fun _ h => h.observers
  step := fun _ _ _ h hs => h.step hs
  call := by
    intro observer snapshot earlier next session ho hearlier hs h
    obtain ⟨after, hc, hafter, -⟩ := notify_leads h ho (hearlier.snapshot_pc hs)
    exact ⟨after, hc, hafter⟩

end Session

end ByteMachine
