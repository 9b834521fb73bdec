import ByteMachine.Proofs.Machine.Faults
import ByteMachine.Proofs.Machine.Observers
import ByteMachine.Proofs.Machine.Status
import ByteMachine.Trace.Page

/-!
What a run tells of faults.  The fault in its outcome is that of the last step of this very run, so
it agrees with the status unless the machine had faulted before or an observer has meddled with the
status since.
-/

namespace ByteMachine.Session

open Machine

variable {κ ω : Type} {notify : κ → Snapshot → SessionM κ ω Unit}
  {session after before : Session κ ω} {result : RunSummary κ} {limit : Nat} {snapshot : Snapshot}
  {next : Machine}

/-- The run has ended with this step, which started where the same run gets with one step less, and
with the calls that the step has caused. -/
structure EndsWith (notify : κ → Snapshot → SessionM κ ω Unit) (session : Session κ ω)
    (result : RunSummary κ) (after before : Session κ ω) (snapshot : Snapshot) (next : Machine) :
    Prop where
  steps : 0 < result.steps
  reached : ∃ earlier, run notify (result.steps - 1) session = .ok earlier before
  running : before.machine.status = .running
  step : Machine.step before.machine = .ok snapshot next
  calls : notifyAll notify snapshot before.observers { before with machine := next } = .ok () after
  last : result.last = some snapshot

theorem run_ends (h : run notify limit session = .ok result after) :
    (result.steps = 0 ∧ result.last = none ∧ after = session) ∨
      ∃ before snapshot next, EndsWith notify session result after before snapshot next := by
  obtain ⟨ends, hp, -, -, hsteps, -, hlast⟩ := run_passes h
  rcases List.eq_nil_or_concat' ends with rfl | ⟨front, ended, rfl⟩
  · cases hp
    exact .inl ⟨hsteps, hlast, rfl⟩
  · obtain ⟨before, hb, hr, ht⟩ := hp.last
    obtain ⟨next, hs, -, hc⟩ := tick_eq_ok ht
    rw [List.length_append, List.length_singleton] at hsteps
    rw [List.getLast?_concat] at hlast
    have hreached : ∃ earlier, run notify (result.steps - 1) session = .ok earlier before := by
      rw [hsteps]
      exact ⟨_, hb.runFrom (Nat.le_refl _) (fun hl => absurd hl (Nat.lt_irrefl _)) {}⟩
    exact .inr ⟨before, ended.1, next, by omega, hreached, hr, hs, hc, hlast⟩

namespace EndsWith

variable (h : EndsWith notify session result after before snapshot next)
include h

theorem fault : result.fault = snapshot.fault := by
  rw [RunSummary.fault, h.last]
  rfl

theorem fault_iff : result.fault.isSome ↔ next.status = .faulted := by
  rw [h.fault]
  exact (step_tells h.running h.step).2.1

theorem pc {report : FaultReport} (hf : result.fault = some report) :
    report.pc = before.machine.cpu.pc := by
  rw [h.fault] at hf
  exact (step_tells h.running h.step).2.2 report hf

end EndsWith

theorem run_fault_iff (h : run notify limit session = .ok result after) :
    result.fault.isSome ↔ ∃ before snapshot next,
      EndsWith notify session result after before snapshot next ∧ next.status = .faulted := by
  constructor
  · intro hf
    rcases run_ends h with ⟨-, hlast, -⟩ | ⟨before, snapshot, next, he⟩
    · rw [RunSummary.fault, hlast] at hf
      cases hf
    · exact ⟨before, snapshot, next, he, he.fault_iff.mp hf⟩
  · rintro ⟨before, snapshot, next, he, hf⟩
    exact he.fault_iff.mpr hf

section Agreement

variable {crew : κ → Prop} {kept : Session κ ω → Prop}

/-- Nobody of the crew, told of a step, makes a machine fault or brings one back that has
faulted. -/
def Discreet (notify : κ → Snapshot → SessionM κ ω Unit) (crew : κ → Prop)
    (kept : Session κ ω → Prop) : Prop :=
  ∀ observer snapshot earlier next session after, crew observer → kept earlier →
    Machine.step earlier.machine = .ok snapshot next → kept session →
    notify observer snapshot session = .ok () after →
    (after.machine.status = .faulted ↔ session.machine.status = .faulted)

theorem Discreet.notifyAll (hd : Discreet notify crew kept) (hc : Calm notify crew kept)
    (hk : kept before) (hs : Machine.step before.machine = .ok snapshot next) {told : List κ}
    (ht : ∀ observer ∈ told, crew observer) (hsession : kept session)
    (h : notifyAll notify snapshot told session = .ok () after) :
    after.machine.status = .faulted ↔ session.machine.status = .faulted := by
  induction told generalizing session with
  | nil =>
    cases h
    exact .rfl
  | cons observer rest ih =>
    have hcrew := ht observer List.mem_cons_self
    obtain ⟨_, called, hcall, h⟩ := bind_eq_ok h
    obtain ⟨_, hsame, hcalled⟩ := hc.call observer snapshot before next session hcrew hk hs hsession
    rw [hcall] at hsame
    cases hsame
    have hrest := ih (fun other ho => ht other (List.mem_cons_of_mem _ ho)) hcalled h
    exact hrest.trans (hd observer snapshot before next session called hcrew hk hs hsession hcall)

theorem Discreet.agrees (hd : Discreet notify crew kept) (hc : Calm notify crew kept)
    (hk : kept session) (hf : session.machine.status ≠ .faulted)
    (h : run notify limit session = .ok result after) :
    result.fault.isSome ↔ result.status = .faulted := by
  rw [(run_bounds h).1]
  rcases run_ends h with ⟨-, hlast, rfl⟩ | ⟨before, snapshot, next, he⟩
  · rw [RunSummary.fault, hlast]
    simpa using hf
  · obtain ⟨earlier, hreached⟩ := he.reached
    have hbefore := hc.run_kept hk hreached
    have hnext := hc.step before snapshot next hbefore he.step
    -- The fault is as old as the step, the status is read after the calls.
    have hsame := hd.notifyAll hc hbefore he.step (hc.observers before hbefore) hnext he.calls
    exact he.fault_iff.trans hsame.symm

theorem orderly_discreet {layout : Trace.Layout} {rules : Rules} (hr : rules.resets = false) :
    Discreet (Observer.notify layout) (Observer.Serves rules) (Orderly rules) := by
  intro observer snapshot earlier next session after ho hearlier hs h hcall
  obtain ⟨_, hsame, -, hstatus⟩ := notify_leads h ho (hearlier.snapshot_pc hs)
  rw [hcall] at hsame
  cases hsame
  rw [hstatus hr]

end Agreement

/-- The fault that a run tells of is that of its last step, with the program counter at which that
step has fetched its instruction.  There is one exactly if the run has executed a step and the last
one has left the machine faulted.  A machine that has faulted before executes no step, and its runs
tell of no fault.  On any other machine fault and status agree, as long as no observer makes a
machine fault or brings one back that has; so whoever runs it with tracers, and with observers that
do not reset it, finds a fault whenever the status says that there was one. -/
theorem run_reports_its_last_fault (notify : κ → Snapshot → SessionM κ ω Unit) :
    (∀ limit session result after, run notify limit session = .ok result after →
      result.status = after.machine.status ∧
      (result.fault.isSome ↔ ∃ before snapshot next,
        EndsWith notify session result after before snapshot next ∧ next.status = .faulted) ∧
      (∀ report, result.fault = some report → ∃ before snapshot next,
        EndsWith notify session result after before snapshot next ∧
        snapshot.fault = some report ∧ report.pc = before.machine.cpu.pc) ∧
      (session.machine.status = .faulted →
        result.steps = 0 ∧ result.fault = none ∧ result.status = .faulted)) ∧
    (∀ crew kept, Calm notify crew kept → ∀ session, kept session → ∀ limit,
      ∃ result after, run notify limit session = .ok result after ∧
        (Discreet notify crew kept → session.machine.status ≠ .faulted →
          (result.fault.isSome ↔ result.status = .faulted))) ∧
    ∀ (layout : Trace.Layout) (session : Session Observer Cast), session.Orderly ⟨true, false⟩ →
      session.machine.status ≠ .faulted → ∀ limit,
      ∃ result after, run (Observer.notify layout) limit session = .ok result after ∧
        (result.status = .faulted → ∃ report, result.fault = some report) := by
  refine ⟨?_, ?_, ?_⟩
  · intro limit session result after h
    refine ⟨(run_bounds h).1, run_fault_iff h, ?_, ?_⟩
    · intro report hf
      obtain ⟨before, snapshot, next, he, -⟩ := (run_fault_iff h).mp (by rw [hf]; rfl)
      exact ⟨before, snapshot, next, he, he.fault.symm.trans hf, he.pc hf⟩
    · intro hs
      have hstopped : session.machine.status ≠ .running := by
        rw [hs]
        nofun
      rw [run, runFrom_stopped hstopped] at h
      cases h
      exact ⟨rfl, rfl, hs⟩
  · intro crew kept hc session hk limit
    obtain ⟨result, after, h, -⟩ := hc.run hk limit
    exact ⟨result, after, h, fun hd hf => hd.agrees hc hk hf h⟩
  · intro layout session ho hf limit
    have hc := orderly_calm layout ⟨true, false⟩
    obtain ⟨result, after, h, -⟩ := hc.run ho limit
    have hiff := Discreet.agrees (orderly_discreet rfl) hc ho hf h
    exact ⟨result, after, h, fun hs => Option.isSome_iff_exists.mp (hiff.mpr hs)⟩

def jumping : Session Observer Cast where
  machine := beyond
  observers := [.named "jump"]
  context := [("jump", .jump (-1))]

theorem jumping_orderly : jumping.Orderly ⟨false, false⟩ where
  machine := beyond_equipped
  pc := nofun
  observers := by
    intro observer ho
    rw [List.mem_singleton.mp ho]
    trivial
  cast := by
    intro entry he
    rw [List.mem_singleton.mp he]
    exact nofun

theorem run_reports_its_last_fault_jumping :
    jumping.Orderly ⟨false, false⟩ ∧ ∃ result after report,
      run (Observer.notify Trace.page) 1 jumping = .ok result after ∧ result.status = .faulted ∧
      after.machine.cpu.pc = -1 ∧ result.fault = some report ∧ report.pc = 0 := by
  obtain ⟨htells, hagrees, -⟩ := run_reports_its_last_fault (Observer.notify Trace.page)
  obtain ⟨result, after, h, hiff⟩ :=
    hagrees _ _ (orderly_calm Trace.page ⟨false, false⟩) jumping jumping_orderly 1
  have hruns : ∃ result after, run (Observer.notify Trace.page) 1 jumping = .ok result after ∧
      result.status = .faulted ∧ after.machine.cpu.pc = -1 :=
    Succeeds.exists_ok (by decide +kernel)
  obtain ⟨_, _, hsame, hstatus, hpc⟩ := hruns
  rw [h] at hsame
  cases hsame
  have hfault := (hiff (orderly_discreet rfl) (by decide)).mpr hstatus
  obtain ⟨report, hreport⟩ := Option.isSome_iff_exists.mp hfault
  obtain ⟨-, -, htold, -⟩ := htells _ _ _ _ h
  obtain ⟨before, snapshot, next, he, -, hfetched⟩ := htold report hreport
  obtain ⟨earlier, hreached⟩ := he.reached
  have hone := (run_bounds h).2.1
  rw [Nat.sub_eq_zero_of_le hone] at hreached
  cases hreached
  exact ⟨jumping_orderly, result, after, report, h, hstatus, hpc, hreport, hfetched⟩

/-- The run after the one that has faulted, and a run whose observer resets the machine. -/
theorem fault_and_status_disagree :
    (∃ first middle second last,
      run (Observer.notify Trace.page) 1 ⟨beyond, [], []⟩ = .ok first middle ∧
      first.status = .faulted ∧ first.fault.isSome ∧
      run (Observer.notify Trace.page) 1 middle = .ok second last ∧
      second.status = .faulted ∧ second.fault = none) ∧
    ∃ result after,
      run (Observer.notify Trace.page) 1 ⟨beyond, [.named "reset"], [("reset", .reset)]⟩ =
        .ok result after ∧
      result.status = .running ∧ result.fault.isSome := by
  constructor
  · have hruns : ∃ both last,
        (run (Observer.notify Trace.page) 1 >>= fun first =>
          run (Observer.notify Trace.page) 1 >>= fun second => pure (first, second))
          ⟨beyond, [], []⟩ = .ok both last ∧
        both.1.status = .faulted ∧ both.1.fault.isSome ∧
        both.2.status = .faulted ∧ both.2.fault = none := Succeeds.exists_ok (by decide +kernel)
    obtain ⟨_, last, hruns, hs, hf, hs', hf'⟩ := hruns
    obtain ⟨first, middle, hfirst, hrest⟩ := bind_eq_ok hruns
    obtain ⟨second, _, hsecond, hpair⟩ := bind_eq_ok hrest
    cases hpair
    exact ⟨first, middle, second, last, hfirst, hs, hf, hsecond, hs', hf'⟩
  · exact Succeeds.exists_ok (by decide +kernel)

end ByteMachine.Session
