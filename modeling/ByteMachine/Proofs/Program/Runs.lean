import ByteMachine.Proofs.Machine.Ending
import ByteMachine.Proofs.Program.Tracing

/-!
Preparation and the run.  Either something that the program needs is missing, or a machine is built
that runs without ever failing, whether or not it is dumped between its steps.  The state in which
the run ends decides how the program ends.
-/

namespace ByteMachine

open Program

variable {m last machine started : Machine} {config base : Config} {options : Options}
  {files after : FileTree} {console : Console} {outcome : Outcome} {budget size : Nat}
  {snapshots : List Snapshot} {image : Image} {tools : Tools}

namespace Program

/-- The configuration that the options change. -/
def basis (reader : DocumentReader) (files : FileTree) (options : Options) :
    Except ConfigFailure Config :=
  match options.config.value? with
  | some path => Config.ofFile reader files path
  | none => .ok {}

theorem configure_basis (reader : DocumentReader) (files : FileTree) (options : Options) :
    configure reader files options =
      basis reader files options >>= fun base => leveled (options.adjust base) := by
  unfold configure basis
  cases options.config.value? <;> rfl

/-- The configuration, its level or the initial image is missing or wrong. -/
inductive Unprepared (reader : DocumentReader) (options : Options) (files : FileTree) : Prop where
  | config (failure : ConfigFailure) (h : basis reader files options = .error failure)
  | level {base : Config} (h : basis reader files options = .ok base)
      (hl : threshold? (options.adjust base).level = none)
  | image {base : Config} {threshold : Nat} {error : SystemError}
      (h : basis reader files options = .ok base)
      (hl : threshold? (options.adjust base).level = some threshold)
      (hi : ((options.adjust base).initialImage files).2 = .error error)

/-- All of this is there, and a machine has been built from it. -/
structure Prepared (reader : DocumentReader) (options : Options) (files : FileTree)
    (console : Console) (base : Config) (machine : Machine) : Prop where
  basis : basis reader files options = .ok base
  level : (threshold? (options.adjust base).level).isSome
  built : ((options.adjust base).build files none console).2 = .ok machine

def dumpFirst (layout : Trace.Layout) (config : Config) : MachineM Unit :=
  if config.traceEnabled then Trace.printCurrent layout config.tracePause else pure ()

def dump (layout : Trace.Layout) (config : Config) (snapshot : Snapshot) : MachineM Unit :=
  if config.traceEnabled then Trace.print layout config.tracePause snapshot else pure ()

/-- The program has been prepared from this configuration, and this is where the run of its machine
ends. -/
inductive Runs (tools : Tools) (options : Options) (files : FileTree) (console : Console)
    (budget : Nat) (base : Config) (last : Machine) : Prop where
  | intro {machine started : Machine} {snapshots : List Snapshot}
      (prepared : Prepared tools.reader options files console base machine)
      (first : dumpFirst tools.layout (options.adjust base) machine = .ok () started)
      (course : Course (dump tools.layout (options.adjust base)) budget started snapshots last)

section Preparation

theorem prepared_of_image {threshold : Nat} (hb : basis tools.reader files options = .ok base)
    (hl : threshold? (options.adjust base).level = some threshold)
    (hi : ((options.adjust base).initialImage files).2 = .ok image) (console : Console) :
    ∃ machine, Prepared tools.reader options files console base machine ∧
      machine.Shows (image.start console) := by
  rcases hx : (options.adjust base).initialImage files with ⟨notices, result⟩
  have hfits := initialImage_fits hi
  have hc := initialImage_check hi
  rw [hx] at hi
  cases hi
  obtain ⟨machine, ha, hs⟩ :=
    assemble_shows hc hfits.size (notices.foldl Console.report console)
  rw [start_reported] at hs
  exact ⟨machine, ⟨hb, by rw [hl]; rfl, (build_initial hx console).trans ha⟩, hs⟩

theorem unprepared_or_prepared (tools : Tools) (options : Options) (files : FileTree)
    (console : Console) :
    Unprepared tools.reader options files ∨
      ∃ base machine, Prepared tools.reader options files console base machine := by
  cases hb : basis tools.reader files options with
  | error failure => exact .inl (.config failure hb)
  | ok base =>
    cases hl : threshold? (options.adjust base).level with
    | none => exact .inl (.level hb hl)
    | some threshold =>
      cases hi : ((options.adjust base).initialImage files).2 with
      | error error => exact .inl (.image hb hl hi)
      | ok image =>
        obtain ⟨machine, hp, -⟩ := prepared_of_image hb hl hi console
        exact .inr ⟨base, machine, hp⟩

/-- The program ends with the code for loading, and nothing but notices has been left. -/
structure Refused (files : FileTree) (console : Console) (outcome : Outcome) : Prop where
  ending : outcome.ending = .exit .loadFailure
  console : ∃ journal, outcome.console = { console with journal }
  files : outcome.files = files

theorem refused_failed {problem : String} {journal : Array Notice}
    (hc : outcome.console = { console with journal }) (hf : outcome.files = files) :
    Refused files console (failed outcome problem) := by
  refine ⟨rfl, ?_, hf⟩
  rw [failed, hc]
  exact ⟨_, rfl⟩

theorem configure_leveled {threshold : Nat} (hb : basis tools.reader files options = .ok base)
    (hl : threshold? (options.adjust base).level = some threshold) :
    configure tools.reader files options = .ok (options.adjust base, threshold) := by
  rw [configure_basis, hb]
  change leveled (options.adjust base) = _
  rw [leveled, hl]

theorem run_configured {threshold : Nat} (hb : basis tools.reader files options = .ok base)
    (hl : threshold? (options.adjust base).level = some threshold) (console : Console)
    (budget : Nat) :
    run tools options files console budget =
      runConfigured tools.layout (options.adjust base) budget
        { ending := .unfinished, console, files, threshold } := by
  rw [run, configure_leveled hb hl]

theorem Unprepared.refused (h : Unprepared tools.reader options files) {status : ExitStatus}
    (he : (run tools options files console budget).ending = .exit status) :
    Refused files console (run tools options files console budget) := by
  cases h with
  | config failure hb =>
    have hconfigured : configure tools.reader files options = .error failure := by
      rw [configure_basis, hb]
      rfl
    rw [run, hconfigured] at he ⊢
    cases failure with
    | config error => exact refused_failed rfl rfl
    | _ => cases he
  | @level base hb hl =>
    have hconfigured : configure tools.reader files options =
        .error (.config (.unknownLevel (options.adjust base).level)) := by
      rw [configure_basis, hb]
      change leveled (options.adjust base) = _
      rw [leveled, hl]
    rw [run, hconfigured]
    exact refused_failed rfl rfl
  | @image base threshold error hb hl hi =>
    rw [run_configured hb hl] at he ⊢
    rcases hx : (options.adjust base).initialImage files with ⟨notices, result⟩
    rw [hx] at hi
    cases hi
    obtain ⟨journal, hj⟩ := reports_journal console notices
    unfold runConfigured at he ⊢
    simp only [hx] at he ⊢
    rcases error with error | (error | _) | error
    · exact refused_failed hj rfl
    · cases he
    all_goals exact refused_failed hj rfl

theorem Prepared.run (h : Prepared tools.reader options files console base machine)
    (budget : Nat) :
    ∃ outcome : Outcome, outcome.files = files ∧
      run tools options files console budget =
        runMachine tools.layout (options.adjust base) budget outcome machine := by
  obtain ⟨threshold, hl⟩ := Option.isSome_iff_exists.mp h.level
  obtain ⟨image, hi, -⟩ := build_shows h.built
  have hi := (hi.resolve_left nofun).2
  rcases hx : (options.adjust base).initialImage files with ⟨notices, result⟩
  rw [hx] at hi
  cases hi
  have ha := h.built
  rw [build_initial hx] at ha
  exact run_built (configure_leveled h.basis hl) hx ha budget

end Preparation

section Run

theorem dump_harmless (size : Nat) (layout : Trace.Layout) (config : Config) :
    Harmless size (dump layout config) := by
  unfold dump
  by_cases ht : config.traceEnabled = true
  · simp only [if_pos ht]
    exact print_harmless size layout config.tracePause
  · simp only [if_neg ht]
    exact nothing_harmless size

theorem dumpFirst_ok (layout : Trace.Layout) (config : Config) (h : m.Bounded size) :
    ∃ started, dumpFirst layout config m = .ok () started ∧ started.Bounded size ∧
      started.status = m.status := by
  unfold dumpFirst
  by_cases ht : config.traceEnabled = true
  · obtain ⟨text, hp⟩ := Trace.printCurrent_ok h.poised layout config.tracePause
    rw [if_pos ht]
    exact ⟨_, hp, h.withTerminal _ _, rfl⟩
  · rw [if_neg ht]
    exact ⟨m, rfl, h, rfl⟩

theorem Prepared.bounded (h : Prepared tools.reader options files console base machine) :
    ∃ size : Nat, size ≤ 128 ∧ machine.Bounded size ∧ machine.status = .running := by
  obtain ⟨image, hs, hsound, hz, -⟩ := build_sound h.built nofun
  exact ⟨image.size, hz, ⟨_, hs, hsound⟩, hs.status⟩

/-- Whatever is prepared is run. -/
theorem Prepared.runs (h : Prepared tools.reader options files console base machine)
    (budget : Nat) :
    ∃ last, Runs tools options files console budget base last := by
  obtain ⟨size, hz, hm, -⟩ := h.bounded
  obtain ⟨started, hfirst, hstarted, -⟩ := dumpFirst_ok tools.layout (options.adjust base) hm
  obtain ⟨snapshots, last, hc⟩ :=
    (dump_harmless size tools.layout (options.adjust base)).course (by omega) hstarted budget
  exact ⟨last, .intro h hfirst hc⟩

theorem observedRun_course {layout : Trace.Layout} (hf : dumpFirst layout config m = .ok () started)
    (hc : Course (dump layout config) budget started snapshots last) :
    ∃ result session, observedRun layout config budget ⟨m, [], []⟩ = .ok result session ∧
      session.machine = last ∧ result.status = last.status ∧
      result.fault = snapshots.getLast?.bind Snapshot.fault := by
  by_cases ht : config.traceEnabled = true
  · have hdump : dump layout config = Trace.print layout config.tracePause := by
      funext snapshot
      rw [dump, if_pos ht]
    rw [dumpFirst, if_pos ht] at hf
    rw [hdump] at hc
    obtain ⟨result, hrun, hcovers⟩ :=
      Session.run_course (Session.tracer_amounts layout config.tracePause) hc []
    have hstart : (if true then Trace.printCurrent layout config.tracePause else pure ()) m =
        .ok () started := hf
    refine ⟨result, ⟨last, [.tracer config.tracePause], []⟩, ?_, rfl, hcovers.status,
      congrArg (·.bind Snapshot.fault) hcovers.last⟩
    rw [observedRun_traced ht]
    exact (Session.tracedRun_eq hstart budget []).trans hrun
  · have hdump : dump layout config = fun _ => pure () := by
      funext snapshot
      rw [dump, if_neg ht]
    rw [dumpFirst, if_neg ht] at hf
    cases hf
    rw [hdump] at hc
    obtain ⟨result, hrun, hcovers⟩ :=
      Session.run_course (Session.nobody_amounts (Observer.notify layout)) hc []
    refine ⟨result, ⟨last, [], []⟩, ?_, rfl, hcovers.status,
      congrArg (·.bind Snapshot.fault) hcovers.last⟩
    rw [observedRun_plain ht]
    exact hrun

inductive Settles (files : FileTree) (config : Config) (last : Machine) (outcome : Outcome) :
    Prop where
  | unfinished (hs : last.status = .running) (he : outcome.ending = .unfinished)
  | faulted (hs : last.status = .faulted) (he : outcome.ending = .exit .fault)
      (hf : outcome.files = files)
  | halted (hs : last.status = .halted) (start : Outcome) (hf : start.files = files)
      (he : outcome = saveHalted config start last)

/-- The run never fails, and its last state decides how the program ends. -/
theorem Runs.settles (h : Runs tools options files console budget base last) :
    ∃ size : Nat, size ≤ 128 ∧ last.Bounded size ∧
      Settles files (options.adjust base) last (run tools options files console budget) := by
  obtain @⟨machine, started, snapshots, hp, hfirst, hc⟩ := h
  obtain ⟨size, hz, hm, hr⟩ := hp.bounded
  obtain ⟨first, hf, hstarted, hstatus⟩ := dumpFirst_ok tools.layout (options.adjust base) hm
  rw [hfirst] at hf
  cases hf
  have hunfaulted : started.status ≠ .faulted := by
    rw [hstatus, hr]
    decide
  obtain ⟨hlast, hfault⟩ := hc.ends (dump_harmless size _ _) (by omega) hstarted hunfaulted
  obtain ⟨result, session, hrun, rfl, hend, hshown⟩ := observedRun_course hfirst hc
  obtain ⟨outcome, rfl, houtcome⟩ := hp.run budget
  refine ⟨size, hz, hlast, ?_⟩
  rw [← hshown] at hfault
  rw [houtcome]
  unfold runMachine
  simp only [hrun]
  cases hs : result.status with
  | running => exact .unfinished (hend.symm.trans hs) rfl
  | halted => exact .halted (hend.symm.trans hs) outcome rfl rfl
  | faulted =>
    have hfaulted := hend.symm.trans hs
    obtain ⟨report, hreport⟩ := Option.isSome_iff_exists.mp (hfault.mpr hfaulted)
    rw [hreport]
    exact .faulted hfaulted rfl rfl

end Run

end Program

end ByteMachine
