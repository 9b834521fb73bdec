import ByteMachine.Proofs.Flat.Faults
import ByteMachine.Proofs.Machine.Equipped
import ByteMachine.Proofs.System.Assembly

/-!
What a fault leaves of the machine: its registers, flags and memory, and a program counter that
tells how far the step has come.  The terminal is left alone but for input that turns out to be
astray.
-/

namespace ByteMachine

open Machine

variable {m next : Machine} {snapshot : Snapshot} {memory : List UInt8} {fault : Fault}

/-- The step has faulted and left everything but the program counter and the count of steps. -/
structure Machine.KeptThroughFault (m : Machine) (snapshot : Snapshot) (next : Machine)
    (memory : List UInt8) (fault : Fault) : Prop where
  registers : next.cpu.registers = m.cpu.registers
  flags : next.cpu.flags = m.cpu.flags
  before : Bus.contents m.bus = .ok memory m.bus
  after : Bus.contents next.bus = .ok memory next.bus
  stepCount : next.stepCount = m.stepCount + 1
  report : snapshot.fault = some ⟨fault, m.cpu.pc⟩
  stage : FaultStage memory m.cpu.pc snapshot.operation fault next.cpu.pc

theorem Machine.Mirrors.keptThroughFault (h : m.Mirrors snapshot next) (he : m.Equipped)
    (hr : m.status = .running) (hf : next.status = .faulted) :
    ∃ memory fault, m.KeptThroughFault snapshot next memory fault := by
  obtain ⟨fault, hfault, hregisters, hflags, hmemory, hcount, hstage⟩ :=
    m.marked.step_faulted hr (h.status.symm.trans hf)
  refine ⟨m.bus.cells, fault, ?_⟩
  constructor
  · rw [h.registers, ← he.marked_registers]
    simp only [Flat.cpu, hregisters]
  · exact h.flags hflags
  · exact he.memory.holds.contents
  · rw [h.contents, h.memory, hmemory]
    rfl
  · exact h.shows.stepCount.trans hcount
  · rw [h.fault, hfault]
    rfl
  · rw [h.operation, h.pc]
    exact hstage

/-- A step that faults leaves registers, flags and memory as they were, for every program counter
and every content of the flag register. -/
theorem faulting_step_keeps_data (h : m.Equipped) (hr : m.status = .running) :
    ∃ snapshot next, Machine.step m = .ok snapshot next ∧
      (next.status = .faulted → ∃ memory fault, m.KeptThroughFault snapshot next memory fault) := by
  obtain ⟨snapshot, next, hstep, hmirrors⟩ := h.step_mirrors
  exact ⟨snapshot, next, hstep, hmirrors.keptThroughFault h hr⟩

def beyond : Machine where
  cpu := { flags := -1 }
  bus := {
    devices := #[.ram ⟨#[2, 3, 200]⟩]
    regions := [⟨0, 2, 0⟩]
    ports := [(1, .numeric), (0, .character)]
    shared := {} }

theorem beyond_equipped : beyond.Equipped where
  memory := by
    refine ⟨⟨by decide, ?_⟩, by decide⟩
    intro region hr
    simp only [beyond, List.mem_singleton] at hr
    subst hr
    exact ⟨_, rfl, rfl⟩
  ports := overlapping_regular.ports
  registers := by decide

theorem faulting_step_keeps_data_beyond :
    beyond.Equipped ∧ beyond.status = .running ∧
      ∃ snapshot next, Machine.step beyond = .ok snapshot next ∧ next.status = .faulted ∧
        ∃ memory fault, beyond.KeptThroughFault snapshot next memory fault := by
  obtain ⟨snapshot, next, hstep, hmirrors⟩ := beyond_equipped.step_mirrors
  obtain ⟨_, _, hsame, hkept⟩ := faulting_step_keeps_data beyond_equipped rfl
  rw [hstep] at hsame
  cases hsame
  have hf : next.status = .faulted := hmirrors.status.trans (by decide +kernel)
  exact ⟨beyond_equipped, rfl, snapshot, next, hstep, hf, hkept hf⟩

section Terminal

/-- The instruction of the step takes input and finds no place for it. -/
def Snapshot.InputAstray (snapshot : Snapshot) : Prop :=
  ∃ operation, snapshot.operation = some operation ∧
    operation.instruction.InputAstray snapshot.memory.length

/-- The step has taken input from a port and lost it.  That can only happen in a memory that is
smaller than the largest one. -/
structure Machine.LostInput (m : Machine) (snapshot : Snapshot) (next : Machine) : Prop where
  small : snapshot.memory.length < Bootstrap.largestMemory
  taken : ∃ operation channel index port, snapshot.operation = some operation ∧
    operation.instruction = .input channel (.reference index) ∧
    snapshot.fault = some ⟨.indexOutside index snapshot.memory.length, m.cpu.pc⟩ ∧
    consolePort? channel.toNat = some port ∧
    next.console.remaining = (port.read m.console).2.remaining ∧
    next.console.programOutput = (port.read m.console).2.programOutput

theorem Machine.Mirrors.inputAstray_iff (h : m.Mirrors snapshot next) :
    snapshot.InputAstray ↔ m.marked.step.InputAstray snapshot.memory.length := by
  unfold Snapshot.InputAstray Flat.Outcome.InputAstray
  rw [h.operation]
  constructor
  · rintro ⟨operation, ho, ha⟩
    obtain ⟨code, hc, rfl⟩ := Option.map_eq_some_iff.mp ho
    exact ⟨code, hc, ha⟩
  · rintro ⟨code, hc, ha⟩
    exact ⟨Flat.operation code, by rw [hc]; rfl, ha⟩

theorem Machine.Mirrors.lostInput (h : m.Mirrors snapshot next) (hr : m.status = .running)
    (hf : next.status = .faulted) (ha : snapshot.InputAstray) : m.LostInput snapshot next := by
  have hstopped := h.status.symm.trans hf
  obtain ⟨fault, -, -, -, hmemory, -⟩ := m.marked.step_faulted hr hstopped
  have hlength : snapshot.memory.length = m.marked.memory.length := by rw [h.memory, hmemory]
  have hastray := h.inputAstray_iff.mp ha
  rw [hlength] at hastray
  obtain ⟨channel, place, port, hcode, hfault, hport, hinput, houtput⟩ :=
    m.marked.step_astray hr hstopped hastray (show m.console.remaining = m.marked.input from rfl)
      rfl rfl
  obtain ⟨code, hc, hinstruction⟩ := hastray
  rw [hcode] at hc
  cases hc
  obtain ⟨-, ho, -, hout⟩ := (Flat.inputAstray_iff _).mp hinstruction
  have hplace := place.toNat_lt
  constructor
  · rw [hlength]
    unfold Bootstrap.largestMemory
    omega
  · refine ⟨Flat.operation (7, [channel, place]), channel, (place.toNat / 2 : Nat), port, ?_, ?_,
      ?_, hport, h.shows.input.trans hinput, h.shows.output.trans houtput⟩
    · rw [h.operation, hcode]
      rfl
    · change Instruction.input channel (.ofByte place) = _
      rw [ofByte_even ho]
    · rw [h.fault, hfault, hlength]
      rfl

theorem Machine.Mirrors.untouched (h : m.Mirrors snapshot next) (hr : m.status = .running)
    (hf : next.status = .faulted) (ha : ¬snapshot.InputAstray) :
    next.console.remaining = m.console.remaining ∧
      next.console.programOutput = m.console.programOutput ∧
      ∀ access ∈ snapshot.activity, access.kind = .read := by
  have hstopped := h.status.symm.trans hf
  obtain ⟨fault, -, -, -, hmemory, -⟩ := m.marked.step_faulted hr hstopped
  rw [h.inputAstray_iff, h.memory, hmemory] at ha
  obtain ⟨hinput, houtput, hreads⟩ := Flat.step_untouched hr hstopped ha
  rw [h.activity]
  exact ⟨h.shows.input.trans hinput, h.shows.output.trans houtput, hreads⟩

/-- A step that faults leaves the terminal as it was and has done nothing to the channels.  The one
exception is an input whose place lies beyond memory: it has been taken from its port by then. -/
theorem faulting_step_spares_terminal (h : m.Equipped) (hr : m.status = .running) :
    ∃ snapshot next, Machine.step m = .ok snapshot next ∧ (next.status = .faulted →
      (¬snapshot.InputAstray → next.console.remaining = m.console.remaining ∧
        next.console.programOutput = m.console.programOutput ∧
        ∀ access ∈ snapshot.activity, access.kind = .read) ∧
      (snapshot.InputAstray → m.LostInput snapshot next)) := by
  obtain ⟨snapshot, next, hstep, hmirrors⟩ := h.step_mirrors
  refine ⟨snapshot, next, hstep, fun hf => ⟨?_, ?_⟩⟩
  · exact hmirrors.untouched hr hf
  · exact hmirrors.lostInput hr hf

theorem built_equipped {config : Config} {files : FileTree} {given : Option Image}
    {console : Console} {machine : Machine} {count : Nat} {snapshots : List Snapshot}
    (hb : (config.build files given console).2 = .ok machine)
    (hs : Machine.steps count machine = .ok snapshots m) : m.Equipped := by
  obtain ⟨image, -, -, -, hshows⟩ := build_shows hb
  obtain ⟨_, last, hsteps, hlast⟩ := hshows.equipped.steps count
  rw [hs] at hsteps
  cases hsteps
  exact hlast

/-- Output to a channel that does not exist. -/
theorem faulting_step_spares_terminal_output :
    ∃ machine snapshot next,
      (Config.build {} { memorySize := 3 } (some ⟨0, [8, 9, 2]⟩) { unread := [65] }).2 =
        .ok machine ∧
      machine.Equipped ∧ machine.status = .running ∧
      Machine.step machine = .ok snapshot next ∧ next.status = .faulted ∧
      (¬snapshot.InputAstray → next.console.remaining = machine.console.remaining ∧
        next.console.programOutput = machine.console.programOutput ∧
        ∀ access ∈ snapshot.activity, access.kind = .read) ∧
      (snapshot.InputAstray → machine.LostInput snapshot next) := by
  obtain ⟨machine, hb, hm⟩ := build_given {} { memorySize := 3 } ⟨0, [8, 9, 2]⟩
    { unread := [65] } rfl rfl
  obtain ⟨next, hstep, hnext⟩ := step_shows hm
  have he : machine.Equipped :=
    built_equipped hb (show Machine.steps 0 machine = .ok [] machine from rfl)
  obtain ⟨snapshot, _, hsame, hspared⟩ := faulting_step_spares_terminal he hm.status
  rw [hstep] at hsame
  cases hsame
  have hf : next.status = .faulted := hnext.status.trans (by decide +kernel)
  exact ⟨machine, _, next, hb, he, hm.status, hstep, hf, hspared hf⟩

/-- Input for cell 100 of a memory of three bytes: the byte that was there to be read is lost. -/
theorem faulting_input_loses_byte :
    ∃ machine snapshot next,
      (Config.build {} { memorySize := 3 } (some ⟨0, [7, 0, 200]⟩) { unread := [65] }).2 =
        .ok machine ∧
      Machine.step machine = .ok snapshot next ∧ next.status = .faulted ∧
      machine.console.remaining = [65] ∧ next.console.remaining = [] := by
  obtain ⟨machine, hb, hm⟩ := build_given {} { memorySize := 3 } ⟨0, [7, 0, 200]⟩
    { unread := [65] } rfl rfl
  obtain ⟨next, hstep, hnext⟩ := step_shows hm
  have hf : next.status = .faulted := hnext.status.trans (by decide +kernel)
  have hafter : next.console.remaining = [] := hnext.input.trans (by decide +kernel)
  exact ⟨machine, _, next, hb, hstep, hf, hm.input, hafter⟩

end Terminal

end ByteMachine
