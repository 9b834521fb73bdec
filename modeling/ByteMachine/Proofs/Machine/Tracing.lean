import ByteMachine.Machine.Observer
import ByteMachine.Proofs.Bus.Tiling
import ByteMachine.Proofs.Console.Stream
import ByteMachine.Proofs.Instruction.Text
import ByteMachine.Proofs.Machine.Course

/-!
Tracing leaves no mark on a run.  The tracer reads the next instruction from the live bus, empties
the log and shares the terminal with the program, yet all that a later step can notice of it is the
line that it reads when it pauses.
-/

namespace ByteMachine

open Machine

variable {m m' : Machine} {console console' : Console} {snapshot : Snapshot}
  {interactive pause : Bool} {layout : Trace.Layout}

namespace Console

theorem Alike.trans {last : Console} (h : console.Alike console') (k : console'.Alike last) :
    console.Alike last :=
  ⟨k.remaining.trans h.remaining, k.output.trans h.output, k.interactive.trans h.interactive⟩

theorem alike_trace (console : Console) (text : String) : console.Alike (console.trace text) := by
  refine ⟨rfl, ?_, rfl⟩
  simp [programOutput, trace]

theorem Alike.readLine (h : console.Alike console') :
    console.readLine.2.Alike console'.readLine.2 := by
  obtain ⟨-, hl⟩ := console.readLine_leaves
  obtain ⟨-, hl'⟩ := console'.readLine_leaves
  constructor
  · rw [hl.remaining, hl'.remaining, h.remaining]
  · rw [programOutput_congr hl.output, programOutput_congr hl'.output, h.output]
  · rw [hl.interactive, hl'.interactive, h.interactive]

def dumped (console : Console) (layout : Trace.Layout) (pause : Bool) (text : String) : Console :=
  if pause && console.interactive then
    ((console.trace text).trace (layout.paragraph Trace.prompt)).readLine.2
  else console.trace text

theorem Alike.dumped_still (h : console.Alike console')
    (hp : (pause && console.interactive) = false) (layout : Trace.Layout) (text : String) :
    console.Alike (console'.dumped layout pause text) := by
  have hp' : ¬(pause && console'.interactive) = true := by
    rw [h.interactive, hp]
    decide
  rw [dumped, if_neg hp']
  exact h.trans (console'.alike_trace text)

theorem Alike.dumped_paused (h : console.Alike console')
    (hp : (pause && console.interactive) = true) (layout : Trace.Layout) (text : String) :
    console.readLine.2.Alike (console'.dumped layout pause text) := by
  rw [← h.interactive] at hp
  rw [dumped, if_pos hp]
  exact ((h.trans (console'.alike_trace text)).trans (alike_trace _ _)).readLine

end Console

namespace Machine

def withTerminal (m : Machine) (log : List Access) (console : Console) : Machine :=
  { m with bus := { m.bus with log, shared := console } }

def glance (m : Machine) : Snapshot :=
  ⟨m.cpu, none, m.stepCount, m.status, m.bus.log, m.bus.cells, none⟩

theorem Equipped.withTerminal (h : m.Equipped) (log : List Access) (console : Console) :
    (m.withTerminal log console).Equipped where
  memory := ⟨⟨h.memory.own, h.memory.memory⟩, h.memory.covered⟩
  ports := h.ports
  registers := h.registers

theorem Poised.withTerminal (h : m.Poised) (log : List Access) (console : Console) :
    (m.withTerminal log console).Poised :=
  ⟨h.toEquipped.withTerminal log console, h.pc⟩

theorem Paired.withTerminal (h : m.Paired interactive m') (log log' : List Access)
    (hc : console.Alike console') (ht : console.interactive = interactive) :
    (m.withTerminal log console).Paired interactive (m'.withTerminal log' console') where
  first := h.first.withTerminal log console
  second := h.second.withTerminal log' console'
  alike := ⟨h.alike.cpu, h.alike.memory, hc, h.alike.status, h.alike.stepCount⟩
  terminal := ht

end Machine

namespace Trace

/-- The mnemonic that memory has at an address, with dashes behind memory and an error where the
end of memory cuts the instruction off. -/
def mnemonicIn (memory : List UInt8) (pc : Int) : String :=
  match memory[pc.toNat]? with
  | none => "----"
  | some opcode =>
    let bytes := (memory.drop (pc.toNat + 1)).take (Instruction.operandCount opcode.toNat)
    if bytes.length < Instruction.operandCount opcode.toNat then "ERR"
    else (Instruction.ofBytes opcode.toNat bytes).mnemonic

theorem mnemonicAt_shows {memory : List UInt8} (hm : m.bus.Displays memory) {pc : Int}
    (hpc : 0 ≤ pc) :
    mnemonicAt pc m = .ok (mnemonicIn memory pc) (m.withTerminal [] m.console) := by
  obtain ⟨place, rfl⟩ := Int.eq_ofNat_of_zero_le hpc
  rw [mnemonicAt, mnemonicIn, Int.toNat_natCast]
  by_cases hin : place < memory.length
  · have hb : memory[place]? = some memory[place] := List.getElem?_eq_getElem hin
    rw [hb]
    dsimp only
    rw [List.length_take, List.length_drop]
    by_cases hl : place + 1 + Instruction.operandCount memory[place].toNat ≤ memory.length
    · have hlist := hm.disassemble_one hin (hm.listOne_whole hb hl rfl)
      rw [bind_ok (onBus_ok hlist), if_neg (by omega)]
      dsimp only
      rw [Instruction.text_front, String.ofList_toList]
      rfl
    · have hlist := hm.disassemble_one hin (hm.listOne_short hb (by omega) rfl)
      have herror : String.ofList ("ERR".toList.takeWhile (· ≠ ' ')) = "ERR" := by simp
      rw [bind_ok (onBus_ok hlist), if_pos (by omega)]
      dsimp only
      rw [herror]
      rfl
  · have hbeyond : (memory.length : Int) ≤ place := by omega
    rw [bind_ok (onBus_ok (hm.disassemble_beyond hbeyond)), List.getElem?_eq_none (by omega)]
    rfl

/-- A dump never fails, and changes nothing but the terminal and the log. -/
theorem print_shows (hm : m.bus.GapFree) (hpc : 0 ≤ snapshot.cpu.pc) (layout : Layout)
    (pause : Bool) :
    print layout pause snapshot m = .ok () (m.withTerminal [] (m.console.dumped layout pause
      (render layout snapshot (mnemonicIn m.bus.cells snapshot.cpu.pc)))) := by
  rw [print, bind_ok (mnemonicAt_shows hm.holds.displays hpc)]
  generalize render layout snapshot (mnemonicIn m.bus.cells snapshot.cpu.pc) = text
  change (if (pause && m.console.interactive) = true then
      modifyConsole fun console => (console.trace (layout.paragraph prompt)).readLine.2
    else pure () : MachineM Unit) (m.withTerminal [] (m.console.trace text)) = _
  unfold Console.dumped
  cases pause && m.console.interactive <;> rfl

theorem capture_ok (h : m.Equipped) :
    Machine.capture m = .ok m.glance (m.withTerminal [] m.console) := by
  have hlog : onBus Bus.takeLog m = .ok m.bus.log (m.withTerminal [] m.console) := rfl
  have hholds : (m.withTerminal [] m.console).bus.Holds m.bus.cells :=
    h.memory.holds.congr rfl rfl
  rw [capture, Machine.snapshot, bind_ok hlog, bind_ok (onBus_ok hholds.contents)]
  rfl

theorem printCurrent_ok (h : m.Poised) (layout : Layout) (pause : Bool) :
    ∃ text, printCurrent layout pause m =
      .ok () (m.withTerminal [] (m.console.dumped layout pause text)) := by
  have hs := capture_ok h.toEquipped
  have hpc : 0 ≤ m.glance.cpu.pc := h.pc
  have ht := print_shows (h.withTerminal [] m.console).memory hpc layout pause
  exact ⟨_, (bind_ok hs).trans ht⟩

/-- What waiting for the user does to the rest of the run: a line is gone. -/
def awaitLine : MachineM Unit := modifyConsole (·.readLine.2)

theorem print_still (h : (pause && interactive) = false) :
    Matches interactive (fun _ => pure ()) (print layout pause) := by
  intro m m' snapshot hm hpc
  have hp : (pause && m.console.interactive) = false := by rw [hm.terminal, h]
  have ht := print_shows hm.second.memory hpc layout pause
  have hc := hm.alike.console.dumped_still hp layout
  exact ⟨m, _, rfl, ht, hm.withTerminal m.bus.log [] (hc _) hm.terminal⟩

theorem print_paused (h : (pause && interactive) = true) :
    Matches interactive (fun _ => awaitLine) (print layout pause) := by
  intro m m' snapshot hm hpc
  have hp : (pause && m.console.interactive) = true := by rw [hm.terminal, h]
  have ht := print_shows hm.second.memory hpc layout pause
  have hc := hm.alike.console.dumped_paused hp layout
  have hi : m.console.readLine.2.interactive = interactive :=
    m.console.readLine_leaves.2.interactive.trans hm.terminal
  exact ⟨_, _, rfl, ht, hm.withTerminal m.bus.log [] (hc _) hi⟩

theorem print_log {told : Machine} (h : print layout pause snapshot m = .ok () told) :
    told.bus.log = [] := by
  obtain ⟨instruction, after, hi, h⟩ := bind_eq_ok h
  obtain ⟨lines, listed, hl, hi⟩ := bind_eq_ok hi
  have hlisted : listed.bus.log = [] := by
    obtain ⟨bus, hd, rfl⟩ := onBus_eq_ok hl
    obtain ⟨same, bus', -, hd⟩ := bind_eq_ok hd
    obtain ⟨lines', bus'', -, hd⟩ := bind_eq_ok hd
    cases hd
    rfl
  have hafter : after = listed := by
    cases lines with
    | nil =>
      cases hi
      rfl
    | cons line rest =>
      cases hi
      rfl
  subst hafter
  change (if (pause && after.console.interactive) = true then
      modifyConsole fun console => (console.trace (layout.paragraph prompt)).readLine.2
    else pure () : MachineM Unit) _ = _ at h
  split at h
  · cases h
    exact hlisted
  · cases h
    exact hlisted

end Trace

namespace Session

/-- A run with a tracer attached, which first shows the state at the start if it is asked to. -/
def tracedRun (layout : Trace.Layout) (pause started : Bool) (limit : Nat) :
    ObservedM (RunSummary Observer) := do
  subscribe (.tracer pause)
  if started then onMachine (Trace.printCurrent layout pause)
  run (Observer.notify layout) limit

/-- A run in which nothing is shown, but a line is read after each step, and first of all one more
if that is asked for. -/
def lineRun (started : Bool) (limit : Nat) : SessionM Unit Unit (RunSummary Unit) := do
  if started then onMachine Trace.awaitLine
  run (fun _ _ => onMachine Trace.awaitLine) limit

variable {started : Bool} {first : Machine} {limit : Nat}

theorem tracedRun_eq
    (hf : (if started then Trace.printCurrent layout pause else pure ()) m = .ok () first)
    (limit : Nat) (context : Cast) :
    tracedRun layout pause started limit ⟨m, [], context⟩ =
      run (Observer.notify layout) limit ⟨first, [.tracer pause], context⟩ := by
  cases started with
  | false =>
    cases hf
    rfl
  | true =>
    have hm : (onMachine (Trace.printCurrent layout pause) : ObservedM Unit)
        ⟨m, [.tracer pause], context⟩ = .ok () ⟨first, [.tracer pause], context⟩ := by
      rw [if_pos rfl] at hf
      exact onMachine_ok hf
    exact bind_ok hm

theorem lineRun_eq (hf : (if started then Trace.awaitLine else pure ()) m = .ok () first)
    (limit : Nat) :
    lineRun started limit ⟨m, [()], ()⟩ =
      run (fun _ _ => onMachine Trace.awaitLine) limit ⟨first, [()], ()⟩ := by
  cases started with
  | false =>
    cases hf
    rfl
  | true =>
    cases hf
    rfl

theorem tracer_amounts (layout : Trace.Layout) (pause : Bool) :
    Amounts (Observer.notify layout) [.tracer pause] (Trace.print layout pause) :=
  single_amounts fun _ => rfl

theorem awaitLine_amounts :
    Amounts (fun _ _ => onMachine Trace.awaitLine : Unit → Snapshot → SessionM Unit Unit Unit) [()]
      fun _ => Trace.awaitLine :=
  single_amounts fun _ => rfl

/-- A tracer that does not pause never fails, and the run goes as it does without it.  Only what was
in the log before the run may be missing, if the tracer was started and no step followed. -/
theorem tracedRun_still (h : m.Poised) (layout : Trace.Layout) (pause : Bool)
    (hp : (pause && m.console.interactive) = false) (started : Bool) (limit : Nat)
    (context : Cast) :
    ∃ snapshots plain traced last last',
      run (Observer.notify layout) limit ⟨m, [], context⟩ = .ok plain ⟨last, [], context⟩ ∧
      tracedRun layout pause started limit ⟨m, [], context⟩ =
        .ok traced ⟨last', [.tracer pause], context⟩ ∧
      plain.Covers [] snapshots last ∧ traced.Covers [.tracer pause] snapshots last' ∧
      Machine.steps snapshots.length m = .ok snapshots last ∧
      last.Paired m.console.interactive last' ∧
      (started = false ∨ snapshots ≠ [] → last'.bus.log = last.bus.log) := by
  have hstart : ∃ first, (if started then Trace.printCurrent layout pause else pure ()) m =
      .ok () first ∧ m.Paired m.console.interactive first ∧ (started = false → first = m) := by
    cases started with
    | false => exact ⟨m, rfl, h.paired, fun _ => rfl⟩
    | true =>
      obtain ⟨text, ht⟩ := Trace.printCurrent_ok h layout pause
      have hc := h.paired.alike.console.dumped_still hp layout text
      exact ⟨_, ht, h.paired.withTerminal m.bus.log [] hc rfl, nofun⟩
  obtain ⟨first, hf, hpaired, hsame⟩ := hstart
  obtain ⟨snapshots, last, last', hc, hc', hlast⟩ := (Trace.print_still hp).courses hpaired limit
  obtain ⟨plain, hrun, hplain⟩ := run_course (nobody_amounts (Observer.notify layout)) hc context
  obtain ⟨traced, hrun', htraced⟩ := run_course (tracer_amounts layout pause) hc' context
  refine ⟨snapshots, plain, traced, last, last', hrun, (tracedRun_eq hf limit context).trans hrun',
    hplain, htraced, hc.steps, hlast, ?_⟩
  intro hl
  by_cases hn : snapshots = []
  · subst hn
    have hfirst : first = m := hsame (hl.resolve_right fun hn => hn rfl)
    rw [hc.nothing, hc'.nothing, hfirst]
  · have hquiet : last.bus.log = [] := by
      refine hc.log ?_ (.inr hn)
      intro snapshot m told hm ht
      cases ht
      exact hm
    rw [hquiet]
    exact hc'.log (fun _ _ _ _ ht => Trace.print_log ht) (.inr hn)

/-- A tracer that pauses never fails either.  The run goes as if nobody traced it and each dump were
the reading of one line. -/
theorem tracedRun_paused (h : m.Poised) (layout : Trace.Layout)
    (hp : (pause && m.console.interactive) = true)
    (started : Bool) (limit : Nat) (context : Cast) :
    ∃ snapshots lined traced last last',
      lineRun started limit ⟨m, [()], ()⟩ = .ok lined ⟨last, [()], ()⟩ ∧
      tracedRun layout pause started limit ⟨m, [], context⟩ =
        .ok traced ⟨last', [.tracer pause], context⟩ ∧
      lined.Covers [()] snapshots last ∧ traced.Covers [.tracer pause] snapshots last' ∧
      last.Alike last' := by
  have hstart : ∃ read first, (if started then Trace.awaitLine else pure ()) m = .ok () read ∧
      (if started then Trace.printCurrent layout pause else pure ()) m = .ok () first ∧
      read.Paired m.console.interactive first := by
    cases started with
    | false => exact ⟨m, m, rfl, rfl, h.paired⟩
    | true =>
      obtain ⟨text, ht⟩ := Trace.printCurrent_ok h layout pause
      have hc := h.paired.alike.console.dumped_paused hp layout text
      have hi := m.console.readLine_leaves.2.interactive
      exact ⟨_, _, rfl, ht, h.paired.withTerminal m.bus.log [] hc hi⟩
  obtain ⟨read, first, hr, hf, hpaired⟩ := hstart
  obtain ⟨snapshots, last, last', hc, hc', hlast⟩ := (Trace.print_paused hp).courses hpaired limit
  obtain ⟨lined, hrun, hlined⟩ := run_course awaitLine_amounts hc ()
  obtain ⟨traced, hrun', htraced⟩ := run_course (tracer_amounts layout pause) hc' context
  exact ⟨snapshots, lined, traced, last, last', (lineRun_eq hr limit).trans hrun,
    (tracedRun_eq hf limit context).trans hrun', hlined, htraced, hlast.alike⟩

end Session

end ByteMachine
