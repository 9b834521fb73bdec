import ByteMachine.Proofs.Machine.Alike
import ByteMachine.Proofs.Machine.Passes

/-!
Runs under observation.  All that the observers of a run do to the machine is one action after each
step; a course is a run seen in this way.  Two runs whose actions keep alike machines alike take the
same course.
-/

namespace ByteMachine

variable {act act' : Snapshot → MachineM Unit} {m m' last told : Machine} {limit : Nat}
  {snapshots : List Snapshot}

/-- The machine runs to its end, or up to a limit of steps, with an action after every step. -/
inductive Course (act : Snapshot → MachineM Unit) :
    Nat → Machine → List Snapshot → Machine → Prop where
  | limit (m : Machine) : Course act 0 m [] m
  | stopped {limit : Nat} {m : Machine} (h : m.status ≠ .running) : Course act limit m [] m
  | step {limit : Nat} {m next told last : Machine} {snapshot : Snapshot} {rest : List Snapshot}
      (hr : m.status = .running) (hs : Machine.step m = .ok snapshot next)
      (ha : act snapshot next = .ok () told) (hrest : Course act limit told rest last) :
      Course act (limit + 1) m (snapshot :: rest) last

theorem Course.nothing (h : Course act limit m [] last) : last = m := by
  cases h with
  | limit m => rfl
  | stopped h => rfl

theorem Course.length_le (h : Course act limit m snapshots last) : snapshots.length ≤ limit := by
  induction h with
  | limit m => exact Nat.le_refl 0
  | stopped h => exact Nat.zero_le _
  | step hr hs ha hrest ih => exact Nat.succ_le_succ ih

theorem Course.full (h : Course act limit m snapshots last) (hr : last.status = .running) :
    snapshots.length = limit := by
  induction h with
  | limit m => rfl
  | stopped h => exact absurd hr h
  | step _ hs ha hrest ih => exact congrArg (· + 1) (ih hr)

theorem Course.steps (h : Course (fun _ => pure ()) limit m snapshots last) :
    Machine.steps snapshots.length m = .ok snapshots last := by
  induction h with
  | limit m => rfl
  | stopped h => rfl
  | step hr hs ha hrest ih =>
    cases ha
    exact steps_cons hs ih

theorem Course.log (h : Course act limit m snapshots last)
    (hact : ∀ snapshot m told, m.bus.log = [] → act snapshot m = .ok () told → told.bus.log = [])
    (hm : m.bus.log = [] ∨ snapshots ≠ []) : last.bus.log = [] := by
  induction h with
  | limit m => simpa using hm
  | stopped h => simpa using hm
  | step hr hs ha hrest ih => exact ih (.inl (hact _ _ _ (step_leaves hs).2 ha))

structure RunSummary.Covers {κ : Type} (result : RunSummary κ) (observers : List κ)
    (snapshots : List Snapshot) (last : Machine) : Prop where
  status : result.status = last.status
  steps : result.steps = snapshots.length
  last : result.last = snapshots.getLast?
  calls : result.calls.toList = snapshots.flatMap fun snapshot => observers.map (·, snapshot)

namespace Session

variable {κ ω : Type} {notify : κ → Snapshot → SessionM κ ω Unit} {observers : List κ}

/-- All that the observers do, one after the other, is this action of the machine. -/
def Amounts (notify : κ → Snapshot → SessionM κ ω Unit) (observers : List κ)
    (act : Snapshot → MachineM Unit) : Prop :=
  ∀ snapshot m told context, act snapshot m = .ok () told →
    notifyAll notify snapshot observers ⟨m, observers, context⟩ = .ok () ⟨told, observers, context⟩

theorem nobody_amounts (notify : κ → Snapshot → SessionM κ ω Unit) :
    Amounts notify [] fun _ => pure () := by
  intro snapshot m told context h
  cases h
  rfl

theorem single_amounts {observer : κ}
    (h : ∀ snapshot, notify observer snapshot = onMachine (act snapshot)) :
    Amounts notify [observer] act := by
  intro snapshot m told context ha
  have hm : (onMachine (act snapshot) : SessionM κ ω Unit) ⟨m, [observer], context⟩ =
      .ok () ⟨told, [observer], context⟩ := onMachine_ok ha
  rw [notifyAll, h, bind_ok hm]
  rfl

theorem Amounts.passes (ha : Amounts notify observers act) (hc : Course act limit m snapshots last)
    (context : ω) :
    Passes notify ⟨m, observers, context⟩ (snapshots.map (·, observers))
      ⟨last, observers, context⟩ := by
  induction hc with
  | limit m => exact .nothing _
  | stopped h => exact .nothing _
  | step hr hs ht _ ih => exact .step hr (tick_ok hs (ha _ _ _ context ht)) ih

theorem run_course (ha : Amounts notify observers act) (hc : Course act limit m snapshots last)
    (context : ω) :
    ∃ result, run notify limit ⟨m, observers, context⟩ = .ok result ⟨last, observers, context⟩ ∧
      result.Covers observers snapshots last := by
  have hp := ha.passes hc context
  have hlength : (snapshots.map (·, observers)).length = snapshots.length := List.length_map _
  have hl := hlength.trans_le hc.length_le
  have hs : (snapshots.map (·, observers)).length < limit → last.status ≠ .running := by
    intro hshort hr
    rw [hlength, hc.full hr] at hshort
    exact Nat.lt_irrefl limit hshort
  refine ⟨_, hp.runFrom hl hs {}, rfl, ?_, ?_, ?_⟩
  · exact (RunSummary.through_steps _ _).trans ((Nat.zero_add _).trans hlength)
  · refine (RunSummary.through_last _ _).trans ?_
    rw [List.getLast?_map, Option.map_map, Option.or_none]
    exact Option.map_id'
  · refine (RunSummary.through_calls _ _).trans ?_
    simp [List.flatMap_map]

end Session

/-- Two machines that nobody can tell apart, both fit to run, on terminals of the given kind. -/
structure Machine.Paired (interactive : Bool) (m m' : Machine) : Prop where
  first : m.Poised
  second : m'.Poised
  alike : m.Alike m'
  terminal : m.console.interactive = interactive

theorem Machine.Poised.paired (h : m.Poised) : m.Paired m.console.interactive m :=
  ⟨h, h, .refl m, rfl⟩

def Matches (interactive : Bool) (act act' : Snapshot → MachineM Unit) : Prop :=
  ∀ m m' snapshot, m.Paired interactive m' → 0 ≤ snapshot.cpu.pc →
    ∃ told told', act snapshot m = .ok () told ∧ act' snapshot m' = .ok () told' ∧
      told.Paired interactive told'

/-- Paired machines take the same course, step by step. -/
theorem Matches.courses {interactive : Bool} (h : Matches interactive act act')
    (hm : m.Paired interactive m') (limit : Nat) :
    ∃ snapshots last last', Course act limit m snapshots last ∧
      Course act' limit m' snapshots last' ∧ last.Paired interactive last' := by
  induction limit generalizing m m' with
  | zero => exact ⟨[], m, m', .limit m, .limit m', hm⟩
  | succ limit ih =>
    by_cases hr : m.status = .running
    · have hr' : m'.status = .running := hm.alike.status.trans hr
      obtain ⟨snapshot, next, next', hs, hs', halike, hfirst, hsecond, hterminal⟩ :=
        hm.alike.step hm.first hm.second
      have hpc : 0 ≤ snapshot.cpu.pc := by
        rw [(step_leaves hs).1]
        exact hfirst.pc
      have hnext : next.Paired interactive next' :=
        ⟨hfirst, hsecond, halike, hterminal.trans hm.terminal⟩
      obtain ⟨told, told', ha, ha', htold⟩ := h next next' snapshot hnext hpc
      obtain ⟨rest, last, last', hc, hc', hlast⟩ := ih htold
      exact ⟨snapshot :: rest, last, last', .step hr hs ha hc, .step hr' hs' ha' hc', hlast⟩
    · have hr' : m'.status ≠ .running := fun hh => hr (hm.alike.status.symm.trans hh)
      exact ⟨[], m, m', .stopped hr, .stopped hr', hm⟩

theorem nothing_matches (interactive : Bool) :
    Matches interactive (fun _ => pure ()) (fun _ => pure ()) :=
  fun m m' _ hm _ => ⟨m, m', rfl, rfl, hm⟩

theorem Machine.Poised.course (h : m.Poised) (limit : Nat) :
    ∃ snapshots last, Course (fun _ => pure ()) limit m snapshots last := by
  obtain ⟨snapshots, last, -, hc, -⟩ := (nothing_matches _).courses h.paired limit
  exact ⟨snapshots, last, hc⟩

end ByteMachine
