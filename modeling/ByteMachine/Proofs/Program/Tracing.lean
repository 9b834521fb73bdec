import ByteMachine.Program
import ByteMachine.Proofs.Config.Spelling
import ByteMachine.Proofs.Machine.Tracing
import ByteMachine.Proofs.Program.Switches
import ByteMachine.Proofs.System.Resume
import ByteMachine.Trace.Page

/-!
The program with and without dumps of the state.  As long as nobody has to press a key between them,
the dumps are only text among the output: the program ends alike, with the same output of its own
and the same files.
-/

namespace ByteMachine

open Program

variable {m m' : Machine} {config config' : Config} {options : Options} {files : FileTree}
  {console console' : Console} {outcome outcome' : Outcome} {budget : Nat}
  {layout : Trace.Layout} {tools : Tools}

namespace Console

theorem Alike.refl (console : Console) : console.Alike console := ⟨rfl, rfl, rfl⟩

theorem Alike.symm (h : console.Alike console') : console'.Alike console :=
  ⟨h.remaining.symm, h.output.symm, h.interactive.symm⟩

theorem Alike.report (h : console.Alike console') (notice notice' : Notice) :
    (console.report notice).Alike (console'.report notice') :=
  ⟨h.remaining, h.output, h.interactive⟩

theorem Alike.reports (h : console.Alike console') (notices : List Notice) :
    (notices.foldl Console.report console).Alike (notices.foldl Console.report console') := by
  induction notices generalizing console console' with
  | nil => exact h
  | cons notice rest ih => exact ih (h.report notice notice)

end Console

namespace Machine

theorem Alike.symm (h : m.Alike m') : m'.Alike m :=
  ⟨h.cpu.symm, h.memory.symm, h.console.symm, h.status.symm, h.stepCount.symm⟩

theorem Alike.trans {last : Machine} (h : m.Alike m') (k : m'.Alike last) : m.Alike last :=
  ⟨k.cpu.trans h.cpu, k.memory.trans h.memory, h.console.trans k.console, k.status.trans h.status,
    k.stepCount.trans h.stepCount⟩

end Machine

/-- The same for everyone who reads neither dumps nor notices. -/
structure Program.Outcome.Alike (outcome outcome' : Outcome) : Prop where
  ending : outcome'.ending = outcome.ending
  files : outcome'.files = outcome.files
  console : outcome.console.Alike outcome'.console

def Config.dumping (config : Config) (level : String) : Config :=
  { config with traceEnabled := true, tracePause := false, level }

theorem initialImage_dumping (config : Config) (level : String) (files : FileTree) :
    (config.dumping level).initialImage files = config.initialImage files := rfl

theorem assemble_dumping (config : Config) (level : String) :
    (config.dumping level).assemble = config.assemble := rfl

namespace Program

/-- The options make the program wait at its console between dumps. -/
def Pauses (reader : DocumentReader) (options : Options) (files : FileTree) (console : Console) :
    Prop :=
  console.interactive = true ∧ ∃ config threshold,
    configure reader files options = .ok (config, threshold) ∧
    config.traceEnabled = true ∧ config.tracePause = true

/-- The run of the machine never waits for the user. -/
def Still (config : Config) (m : Machine) : Prop :=
  config.traceEnabled = true → (config.tracePause && m.console.interactive) = false

theorem observedRun_traced (h : config.traceEnabled = true) (budget : Nat) :
    observedRun layout config budget =
      Session.tracedRun layout config.tracePause true budget := by
  unfold observedRun
  rw [if_pos h]
  rfl

theorem observedRun_plain (h : ¬config.traceEnabled = true) (budget : Nat) :
    observedRun layout config budget = Session.run (Observer.notify layout) budget := by
  unfold observedRun
  rw [if_neg h]

theorem observedRun_still (h : m.Poised) (hp : Still config m) (layout : Trace.Layout)
    (budget : Nat) :
    ∃ plain result last session,
      Session.run (Observer.notify layout) budget ⟨m, [], []⟩ = .ok plain ⟨last, [], []⟩ ∧
      observedRun layout config budget ⟨m, [], []⟩ = .ok result session ∧
      result.fault = plain.fault ∧ result.status = plain.status ∧
      last.Alike session.machine ∧ session.machine.Poised := by
  by_cases ht : config.traceEnabled = true
  · obtain ⟨snapshots, plain, traced, last, last', hrun, htraced, hplain, hresult, -, hlast, -⟩ :=
      Session.tracedRun_still h layout config.tracePause (hp ht) true budget []
    refine ⟨plain, traced, last, ⟨last', [.tracer config.tracePause], []⟩, hrun, ?_, ?_, ?_,
      hlast.alike, hlast.second⟩
    · rw [observedRun_traced ht, htraced]
    · rw [RunSummary.fault, RunSummary.fault, hplain.last, hresult.last]
    · rw [hplain.status, hresult.status, hlast.alike.status]
  · obtain ⟨snapshots, plain, -, last, last', hrun, -, -, -, -, hlast, -⟩ :=
      Session.tracedRun_still h layout false rfl false budget []
    refine ⟨plain, plain, last, ⟨last, [], []⟩, hrun, ?_, rfl, rfl, .refl last, hlast.first⟩
    rw [observedRun_plain ht, hrun]

theorem observedRun_paused (h : m.Poised) (ht : config.traceEnabled = true)
    (hp : (config.tracePause && m.console.interactive) = true) (layout : Trace.Layout)
    (budget : Nat) :
    ∃ lined result last session,
      Session.lineRun true budget ⟨m, [()], ()⟩ = .ok lined ⟨last, [()], ()⟩ ∧
      observedRun layout config budget ⟨m, [], []⟩ = .ok result session ∧
      result.status = last.status ∧ last.Alike session.machine := by
  obtain ⟨snapshots, lined, traced, last, last', hlined, htraced, -, hresult, hlast⟩ :=
    Session.tracedRun_paused h layout hp true budget []
  refine ⟨lined, traced, last, ⟨last', [.tracer config.tracePause], []⟩, hlined, ?_, ?_, hlast⟩
  · rw [observedRun_traced ht, htraced]
  · rw [hresult.status, hlast.status]

theorem saveHalted_alike (ha : m.Alike m') (h : m.Poised) (h' : m'.Poised)
    (hs : config'.save = config.save) (hf : outcome'.files = outcome.files) :
    (saveHalted config outcome m).Alike (saveHalted config' outcome' m') := by
  have himage := takeImage_holds h.memory.holds
  have himage' := takeImage_holds h'.memory.holds
  rw [ha.memory, ha.cpu] at himage'
  obtain ⟨save, hsave⟩ : ∃ save, save = Image.save := ⟨_, rfl⟩
  unfold saveHalted
  rw [← hsave]
  dsimp only
  rw [hs, hf, himage, himage']
  by_cases ht : config.save.truthy = true
  · rw [if_pos ht, if_pos ht]
    dsimp only
    obtain ⟨notices, result⟩ := save outcome.files config.save ⟨m.cpu.pc, m.bus.cells⟩
    have hc := ha.console.reports notices
    rcases result with (_ | _ | ⟨path, error⟩) | saved
    · exact ⟨rfl, rfl, hc⟩
    · exact ⟨rfl, rfl, hc⟩
    · exact ⟨rfl, rfl, hc.report _ _⟩
    · exact ⟨rfl, rfl, hc⟩
  · rw [if_neg ht, if_neg ht]
    exact ⟨rfl, rfl, ha.console⟩

theorem runMachine_alike (h : m.Poised) (hp : Still config m) (hp' : Still config' m)
    (hs : config'.save = config.save) (hf : outcome'.files = outcome.files) :
    (runMachine layout config budget outcome m).Alike
      (runMachine layout config' budget outcome' m) := by
  obtain ⟨plain, result, last, session, hplain, hrun, hfault, hstatus, hlast, hend⟩ :=
    observedRun_still h hp layout budget
  obtain ⟨plain', result', last', session', hplain', hrun', hfault', hstatus', hlast', hend'⟩ :=
    observedRun_still h hp' layout budget
  rw [hplain] at hplain'
  cases hplain'
  have ha := hlast.symm.trans hlast'
  unfold runMachine
  rw [hrun, hrun']
  dsimp only
  rw [hfault, hfault', hstatus, hstatus']
  cases plain.status with
  | running => exact ⟨rfl, hf, ha.console⟩
  | halted => exact saveHalted_alike ha hend hend' hs hf
  | faulted =>
    cases plain.fault with
    | none => exact ⟨rfl, hf, ha.console⟩
    | some report => exact ⟨rfl, hf, ha.console.report _ _⟩

theorem saveHalted_skipped (h : ¬config.save.truthy = true) (outcome : Outcome) (m : Machine) :
    saveHalted config outcome m =
      { outcome with ending := .exit .success, console := m.console } :=
  if_neg h

theorem runMachine_output {result : RunSummary Observer} {session : Session Observer Cast}
    (hrun : observedRun layout config budget ⟨m, [], []⟩ = .ok result session)
    (hs : result.status = .halted) (hsave : ¬config.save.truthy = true) (outcome : Outcome) :
    (runMachine layout config budget outcome m).console = session.machine.console := by
  unfold runMachine
  rw [hrun]
  dsimp only
  rw [hs]
  dsimp only
  rw [saveHalted_skipped hsave]

theorem assemble_poised {image : Image} (hi : (config.initialImage files).2 = .ok image)
    (ha : config.assemble image console = .ok m) :
    m.Poised ∧ m.console.interactive = console.interactive := by
  have hc := initialImage_check hi
  obtain ⟨built, hb, hs⟩ := assemble_shows hc (assemble_size hc ha) console
  rw [ha] at hb
  cases hb
  exact ⟨hs.poised (initialImage_fits hi).pc.1, hs.interactive⟩

theorem reports_interactive (console : Console) (notices : List Notice) :
    (notices.foldl Console.report console).interactive = console.interactive := by
  induction notices generalizing console with
  | nil => rfl
  | cons notice rest ih => exact ih (console.report notice)

theorem runConfigured_alike (level : String)
    (hp : outcome.console.interactive = true → config.traceEnabled = true →
      config.tracePause = false)
    (hc : outcome'.console = outcome.console) (hf : outcome'.files = outcome.files) :
    (runConfigured layout config budget outcome).Alike
      (runConfigured layout (config.dumping level) budget outcome') := by
  have himage : (config.dumping level).initialImage outcome'.files =
      config.initialImage outcome.files := by
    rw [initialImage_dumping, hf]
  unfold runConfigured
  rw [himage, hc]
  rcases hi : config.initialImage outcome.files with ⟨notices, error | image⟩
  · have hsame := Console.Alike.refl (notices.foldl Console.report outcome.console)
    cases error with
    | image error =>
      cases error with
      | target error => exact ⟨rfl, hf, hsame⟩
      | _ => exact ⟨rfl, hf, hsame.report _ _⟩
    | _ => exact ⟨rfl, hf, hsame.report _ _⟩
  · dsimp only
    rw [assemble_dumping]
    cases ha : config.assemble image (notices.foldl Console.report outcome.console) with
    | error e => exact ⟨rfl, hf, .refl _⟩
    | ok machine =>
      obtain ⟨hpoised, hterminal⟩ := assemble_poised (by rw [hi]) ha
      rw [reports_interactive] at hterminal
      refine runMachine_alike hpoised ?_ (fun _ => rfl) rfl hf
      intro ht
      rw [hterminal]
      cases hi : outcome.console.interactive with
      | false => exact Bool.and_false _
      | true => rw [hp hi ht, Bool.false_and]

theorem adjust_traced (options : Options) (config : Config) :
    options.traced.adjust config =
      (options.adjust config).dumping (options.traced.adjust config).level := by
  have hdebug : (config.traceEnabled || options.traced.debug) = true := Bool.or_true _
  have hpause : (config.tracePause && !options.traced.noPause) = false := Bool.and_false _
  unfold Options.adjust Config.dumping
  rw [hdebug, hpause]
  rfl

theorem run_built {threshold : Nat} {notices : List Notice} {image : Image}
    (hc : configure tools.reader files options = .ok (config, threshold))
    (hi : config.initialImage files = (notices, .ok image))
    (ha : config.assemble image (notices.foldl Console.report console) = .ok m) (budget : Nat) :
    ∃ outcome : Outcome, outcome.files = files ∧
      run tools options files console budget = runMachine tools.layout config budget outcome m := by
  refine ⟨{
    ending := .unfinished
    console := notices.foldl Console.report console
    files, threshold }, rfl, ?_⟩
  simp only [run, hc, runConfigured, hi, ha]

section Built

variable {threshold : Nat} {notices : List Notice} {image : Image} {last : Machine}
  (hc : configure tools.reader files options = .ok (config, threshold))
  (hi : config.initialImage files = (notices, .ok image))
  (ha : config.assemble image (notices.foldl Console.report console) = .ok m)
  (hsave : ¬config.save.truthy = true)
include hc hi ha hsave

theorem run_output_still
    (hp : config.traceEnabled = true → (config.tracePause && console.interactive) = false)
    {plain : RunSummary Observer}
    (hrun : Session.run (Observer.notify tools.layout) budget ⟨m, [], []⟩ =
      .ok plain ⟨last, [], []⟩)
    (hs : plain.status = .halted) :
    (run tools options files console budget).console.programOutput =
      last.console.programOutput := by
  obtain ⟨outcome, -, houtcome⟩ := run_built hc hi ha budget
  obtain ⟨hpoised, hterminal⟩ := assemble_poised (by rw [hi]) ha
  rw [reports_interactive] at hterminal
  have hstill : Still config m := by
    rw [Still, hterminal]
    exact hp
  obtain ⟨plain', result, last', session, hplain, hresult, -, hstatus, halike, -⟩ :=
    observedRun_still hpoised hstill tools.layout budget
  rw [hrun] at hplain
  cases hplain
  rw [houtcome, runMachine_output hresult (hstatus.trans hs) hsave]
  exact halike.console.output

theorem run_output_paused (ht : config.traceEnabled = true)
    (hp : (config.tracePause && console.interactive) = true) {lined : RunSummary Unit}
    (hrun : Session.lineRun true budget ⟨m, [()], ()⟩ = .ok lined ⟨last, [()], ()⟩)
    (hs : last.status = .halted) :
    (run tools options files console budget).console.programOutput =
      last.console.programOutput := by
  obtain ⟨outcome, -, houtcome⟩ := run_built hc hi ha budget
  obtain ⟨hpoised, hterminal⟩ := assemble_poised (by rw [hi]) ha
  rw [reports_interactive] at hterminal
  rw [← hterminal] at hp
  obtain ⟨lined', result, last', session, hlined, hresult, hstatus, halike⟩ :=
    observedRun_paused hpoised ht hp tools.layout budget
  rw [hrun] at hlined
  cases hlined
  rw [houtcome, runMachine_output hresult (hstatus.trans hs) hsave]
  exact halike.console.output

end Built

theorem adjust_traced_level (options : Options) (config : Config) :
    (options.traced.adjust config).level = (options.adjust config).level ∨
      (options.adjust config).level = "WARNING" ∧
        (options.traced.adjust config).level = "INFO" := by
  have hlevel : options.traced.logLevel = options.logLevel := rfl
  have hdebug : options.traced.debug = true := rfl
  simp only [Options.adjust, hlevel, hdebug]
  cases options.logLevel.value? with
  | some name => exact .inl rfl
  | none =>
    dsimp only
    by_cases hw : options.logLevel = .absent ∧ config.level = "WARNING"
    · cases options.debug with
      | true => exact .inl (by simp)
      | false => exact .inr ⟨by simp [hw.2], by simp [hw]⟩
    · refine .inl ?_
      rw [if_neg (by tauto), if_neg (by tauto)]

def leveled (config : Config) : Except ConfigFailure (Config × Nat) :=
  match threshold? config.level with
  | some threshold => .ok (config, threshold)
  | none => .error (.config (.unknownLevel config.level))

inductive DumpsApart : Except ConfigFailure (Config × Nat) → Except ConfigFailure (Config × Nat) →
    Prop where
  | failed (failure : ConfigFailure) : DumpsApart (.error failure) (.error failure)
  | dumping (config : Config) (level : String) (threshold threshold' : Nat) :
      DumpsApart (.ok (config, threshold)) (.ok (config.dumping level, threshold'))

theorem DumpsApart.of_ok {config : Config} (h : DumpsApart (.ok (config, threshold)) configured) :
    ∃ level threshold', configured = .ok (config.dumping level, threshold') := by
  cases h with
  | dumping config level threshold threshold' => exact ⟨level, threshold', rfl⟩

theorem leveled_traced (options : Options) (config : Config) :
    DumpsApart (leveled (options.adjust config)) (leveled (options.traced.adjust config)) := by
  have hwarning : threshold? "WARNING" = some 30 := rfl
  have hinfo : threshold? "INFO" = some 20 := rfl
  have hadjust := adjust_traced options config
  unfold leveled
  rcases adjust_traced_level options config with hl | ⟨hl, hl'⟩
  · rw [hl] at hadjust ⊢
    rw [hadjust]
    cases threshold? (options.adjust config).level with
    | none => exact .failed _
    | some threshold => exact .dumping _ _ threshold threshold
  · rw [hl'] at hadjust ⊢
    rw [hadjust, hl, hwarning, hinfo]
    exact .dumping _ _ 30 20

theorem configure_traced (reader : DocumentReader) (files : FileTree) (options : Options) :
    DumpsApart (configure reader files options) (configure reader files options.traced) := by
  have hsource : options.traced.config.value? = options.config.value? := rfl
  unfold configure
  rw [hsource]
  cases options.config.value? with
  | none => exact leveled_traced options {}
  | some path =>
    dsimp only
    cases Config.ofFile reader files path with
    | error failure => exact .failed failure
    | ok config => exact leveled_traced options config

theorem run_alike (hp : ¬Pauses tools.reader options files console) (budget : Nat) :
    (run tools options files console budget).Alike
      (run tools options.traced files console budget) := by
  have hconfigured := configure_traced tools.reader files options
  unfold run
  generalize hx : configure tools.reader files options = x at hconfigured
  generalize configure tools.reader files options.traced = y at hconfigured
  cases hconfigured with
  | failed failure =>
    cases failure with
    | config error => exact ⟨rfl, rfl, (Console.Alike.refl console).report _ _⟩
    | _ => exact ⟨rfl, rfl, .refl console⟩
  | dumping config level threshold threshold' =>
    refine runConfigured_alike level ?_ rfl rfl
    intro hi ht
    cases hpause : config.tracePause with
    | false => rfl
    | true => exact absurd ⟨hi, config, threshold, hx, ht, hpause⟩ hp

end Program

/-- Tracing does not change what is traced.  As long as nobody has to press a key, a run with a
tracer has the result, the snapshots and the end of a run without one; with pauses it is a run in
which each dump takes one line from the input.  The program itself, told on its command line to dump
without pausing, ends as it does without being told, unless it would pause then. -/
theorem tracing_keeps_execution (h : m.Poised) (tools : Tools) (pause started : Bool) (limit : Nat)
    (context : Cast) (release : Release) (arguments : List String) (options : Options)
    (files : FileTree) (console : Console) (budget : Nat) :
    ((pause && m.console.interactive) = false →
      ∃ snapshots plain traced last last',
        Session.run (Observer.notify tools.layout) limit ⟨m, [], context⟩ =
          .ok plain ⟨last, [], context⟩ ∧
        Session.tracedRun tools.layout pause started limit ⟨m, [], context⟩ =
          .ok traced ⟨last', [.tracer pause], context⟩ ∧
        Machine.steps snapshots.length m = .ok snapshots last ∧
        plain.Covers [] snapshots last ∧ traced.Covers [.tracer pause] snapshots last' ∧
        last.Alike last' ∧
        (started = false ∨ snapshots ≠ [] → last'.bus.log = last.bus.log)) ∧
    ((pause && m.console.interactive) = true →
      ∃ snapshots lined traced last last',
        Session.lineRun started limit ⟨m, [()], ()⟩ = .ok lined ⟨last, [()], ()⟩ ∧
        Session.tracedRun tools.layout pause started limit ⟨m, [], context⟩ =
          .ok traced ⟨last', [.tracer pause], context⟩ ∧
        lined.Covers [()] snapshots last ∧ traced.Covers [.tracer pause] snapshots last' ∧
        last.Alike last') ∧
    Options.ofArguments release ("-d" :: "--no-pause" :: arguments) =
      (Options.ofArguments release arguments).map Options.traced ∧
    (¬Program.Pauses tools.reader options files console →
      (Program.run tools options files console budget).Alike
        (Program.run tools options.traced files console budget)) := by
  refine ⟨?_, fun hp => Session.tracedRun_paused h tools.layout hp started limit context,
    Options.ofArguments_traced release arguments, fun hp => run_alike hp budget⟩
  intro hp
  obtain
    ⟨snapshots, plain, traced, last, last', hrun, htraced, hplain, hcalls, hsteps, hlast, hl⟩ :=
    Session.tracedRun_still h tools.layout pause hp started limit context
  exact ⟨snapshots, plain, traced, last, last', hrun, htraced, hsteps, hplain, hcalls,
    hlast.alike, hl⟩

theorem overlapping_poised : overlapping.Poised := ⟨overlapping_regular.equipped, by decide⟩

namespace Program

def dumpingDocument : Document where
  objects := #[.mapping [(.text "machine", 1), (.text "trace", 3)],
    .mapping [(.text "memory_size", 2)], .scalar (.int 7),
    .mapping [(.text "enabled", 4)], .scalar (.bool true)]
  root := 0

def dumpingTools : Tools := ⟨fun _ => .ok dumpingDocument, Trace.page⟩

/-- The file of the configuration, and an image whose program writes the byte that it reads. -/
def echoFiles : FileTree where
  entries := [([Text.bytes "c"], .file []),
    ([Text.bytes "i"], .file ([0x17, 0x20, 0, 0, 23, 0, 0, 0, 7, 0, 0, 0, 0, 0, 0, 0] ++
      [7, 0, 0, 8, 0, 0, 0]))]

def typedLines : Console := { unread := [49, 10, 50, 10], interactive := true }

def dumpingConfig : Config := { memorySize := 7, traceEnabled := true, load := .text "i" }

theorem configure_dumping :
    configure dumpingTools.reader echoFiles
      { config := .text "c", load := .text "i" } = .ok (dumpingConfig, 30) := by
  have hplain : ¬"c".contains '\x00' := Value.not_contains_null (by decide)
  have hread : echoFiles.read (Text.bytes "c") = .ok [] := by decide +kernel
  have hupper : Text.upper "WARNING" = "WARNING" := Text.upper_ascii (by decide) (by simp)
  have hbase : Config.ofContent dumpingTools.reader "c" [] =
      .ok { memorySize := 7, traceEnabled := true, level := Text.upper "WARNING" } := rfl
  have hfile : Config.ofFile dumpingTools.reader echoFiles "c" =
      .ok { memorySize := 7, traceEnabled := true } := by
    rw [Config.ofFile_read (by decide +kernel) hplain hread, hbase, hupper]
  have hvalue : (Given.text "c").value? = some "c" := rfl
  unfold configure
  rw [hvalue]
  dsimp only
  rw [hfile]
  rfl

theorem initialImage_echo :
    dumpingConfig.initialImage echoFiles =
      ([.loadingImage "i"], .ok ⟨0, [7, 0, 0, 8, 0, 0, 0]⟩) := by
  have ht : dumpingConfig.load.target = .ok (.path (Text.bytes "i")) :=
    Value.text_target (by decide +kernel) (Value.not_contains_null (by decide))
  have hread : echoFiles.read (Text.bytes "i") = .ok ([0x17, 0x20, 0, 0, 23, 0, 0, 0, 7, 0, 0, 0,
      0, 0, 0, 0] ++ [7, 0, 0, 8, 0, 0, 0]) := by decide +kernel
  have hcheck : dumpingConfig.check = .ok () := rfl
  have hnamed : dumpingConfig.load.truthy = true := rfl
  rw [Config.initialImage, hcheck]
  dsimp only
  rw [if_pos hnamed, Image.load_eq ht hread]
  rfl

/-- The machine that this image is built into, at the terminal with the two lines. -/
def awaiting : Machine where
  bus := {
    devices := #[.ram ⟨#[7, 0, 0, 8, 0, 0, 0]⟩]
    regions := [⟨0, 6, 0⟩]
    ports := [(1, .numeric), (0, .character)]
    shared := (typedLines.report (.loadingImage "i")).report (.resuming 0) }

theorem assemble_echo :
    dumpingConfig.assemble ⟨0, [7, 0, 0, 8, 0, 0, 0]⟩
      ([.loadingImage "i"].foldl Console.report typedLines) = .ok awaiting := rfl

theorem lineRun_awaiting :
    ∃ lined last, Session.lineRun true 3 ⟨awaiting, [()], ()⟩ = .ok lined ⟨last, [()], ()⟩ ∧
      last.status = .halted ∧ last.console.programOutput = [50] := by
  obtain ⟨lined, ⟨last, observers, context⟩, hrun, rfl, hs, hout⟩ :
      ∃ lined session, Session.lineRun true 3 ⟨awaiting, [()], ()⟩ = .ok lined session ∧
        [()] = session.observers ∧ session.machine.status = .halted ∧
        session.machine.console.programOutput = [50] := Succeeds.exists_ok (by decide +kernel)
  exact ⟨lined, last, hrun, hs, hout⟩

theorem run_awaiting :
    ∃ plain last, Session.run (Observer.notify Trace.page) 3 ⟨awaiting, [], []⟩ =
        .ok plain ⟨last, [], []⟩ ∧
      plain.status = .halted ∧ last.console.programOutput = [49] := by
  obtain ⟨plain, ⟨last, observers, context⟩, hrun, rfl, rfl, hs, hout⟩ :
      ∃ plain session, Session.run (Observer.notify Trace.page) 3 ⟨awaiting, [], []⟩ =
          .ok plain session ∧ [] = session.observers ∧ [] = session.context ∧
        plain.status = .halted ∧ session.machine.console.programOutput = [49] :=
    Succeeds.exists_ok (by decide +kernel)
  exact ⟨plain, last, hrun, hs, hout⟩

end Program

/-- A program that reads a number, traced at a terminal where nobody has to press a key, and at one
where the first line goes to the tracer. -/
theorem tracing_keeps_execution_overlapping :
    (∃ snapshots plain traced last last',
      Session.run (Observer.notify Trace.page) 5 ⟨overlapping, [], []⟩ =
        .ok plain ⟨last, [], []⟩ ∧
      Session.tracedRun Trace.page false true 5 ⟨overlapping, [], []⟩ =
        .ok traced ⟨last', [.tracer false], []⟩ ∧
      Machine.steps snapshots.length overlapping = .ok snapshots last ∧
      plain.Covers [] snapshots last ∧ traced.Covers [.tracer false] snapshots last' ∧
      last.Alike last' ∧ (true = false ∨ snapshots ≠ [] → last'.bus.log = last.bus.log)) ∧
    (∃ snapshots lined traced last last',
      Session.lineRun true 5
          ⟨overlapping.withTerminal [] { unread := [10, 32, 55, 10], interactive := true },
            [()], ()⟩ = .ok lined ⟨last, [()], ()⟩ ∧
      Session.tracedRun Trace.page true true 5
          ⟨overlapping.withTerminal [] { unread := [10, 32, 55, 10], interactive := true },
            [], []⟩ = .ok traced ⟨last', [.tracer true], []⟩ ∧
      lined.Covers [()] snapshots last ∧ traced.Covers [.tracer true] snapshots last' ∧
      last.Alike last') ∧
    (Program.run dumpingTools {} {} {} 3).Alike
      (Program.run dumpingTools (Options.traced {}) {} {} 3) := by
  have hpauses : ¬Program.Pauses dumpingTools.reader {} {} {} := fun hp => nomatch hp.1
  have hstill := tracing_keeps_execution overlapping_poised dumpingTools false true 5 [] .late []
    {} {} {} 3
  have hpaused := tracing_keeps_execution (overlapping_poised.withTerminal []
    { unread := [10, 32, 55, 10], interactive := true }) dumpingTools true true 5 [] .late []
    {} {} {} 3
  exact ⟨hstill.1 rfl, hpaused.2.1 rfl, hstill.2.2.2 hpauses⟩

/-- With a configuration that pauses at a terminal, the first line goes to the tracer, and the
program gets to read the second one. -/
theorem pauses_take_input :
    ∃ options,
      Options.ofArguments .late ["-c", "c", "i"] = .ok options ∧
      Options.ofArguments .late ["-d", "--no-pause", "-c", "c", "i"] = .ok options.traced ∧
      (Program.run dumpingTools options echoFiles typedLines 3).console.programOutput = [50] ∧
      (Program.run dumpingTools options.traced echoFiles typedLines 3).console.programOutput =
        [49] := by
  have hc := configure_dumping
  have htraced := configure_traced dumpingTools.reader echoFiles
    { config := .text "c", load := .text "i" }
  rw [hc] at htraced
  obtain ⟨level, threshold, hc'⟩ := htraced.of_ok
  have hi := initialImage_echo
  have ha := assemble_echo
  rw [← assemble_dumping dumpingConfig level] at ha
  obtain ⟨lined, last, hlined, hs, hout⟩ := lineRun_awaiting
  obtain ⟨plain, last', hplain, hs', hout'⟩ := run_awaiting
  refine ⟨{ config := .text "c", load := .text "i" }, by decide +kernel, by decide +kernel,
    ?_, ?_⟩
  · rw [run_output_paused hc initialImage_echo assemble_echo Bool.false_ne_true rfl rfl hlined hs,
      hout]
  · rw [← initialImage_dumping dumpingConfig level] at hi
    rw [run_output_still hc' hi ha Bool.false_ne_true (fun _ => rfl) hplain hs', hout']

end ByteMachine
