import ByteMachine.Machine.Run
import ByteMachine.Proofs.Machine.Equipped

/-!
Runs with observers that may do anything to the session: change the registry, write to memory, jump,
reset the machine or fail.  A run that returns has gone through a number of steps, each with its
calls.  If no observer fails, every run returns.
-/

namespace ByteMachine

variable {κ ω : Type}

namespace RunSummary

def stepped (result : RunSummary κ) (snapshot : Snapshot) (told : List κ) : RunSummary κ where
  status := result.status
  steps := result.steps + 1
  last := some snapshot
  calls := result.calls ++ told.map (·, snapshot)

def through (result : RunSummary κ) (ends : List (Snapshot × List κ)) : RunSummary κ :=
  ends.foldl (fun result ended => result.stepped ended.1 ended.2) result

theorem through_steps (result : RunSummary κ) (ends : List (Snapshot × List κ)) :
    (result.through ends).steps = result.steps + ends.length := by
  induction ends generalizing result with
  | nil => rfl
  | cons ended rest ih =>
    rw [List.length_cons, Nat.add_comm rest.length, ← Nat.add_assoc]
    exact ih (result.stepped ended.1 ended.2)

theorem through_last (result : RunSummary κ) (ends : List (Snapshot × List κ)) :
    (result.through ends).last = (ends.getLast?.map Prod.fst).or result.last := by
  induction ends generalizing result with
  | nil => rfl
  | cons ended rest ih =>
    rw [List.getLast?_cons]
    refine (ih (result.stepped ended.1 ended.2)).trans ?_
    cases rest.getLast? <;> rfl

theorem through_calls (result : RunSummary κ) (ends : List (Snapshot × List κ)) :
    (result.through ends).calls.toList =
      result.calls.toList ++ ends.flatMap fun ended => ended.2.map (·, ended.1) := by
  induction ends generalizing result with
  | nil => simp [through]
  | cons ended rest ih =>
    refine (ih (result.stepped ended.1 ended.2)).trans ?_
    simp [stepped]

end RunSummary

namespace Session

variable {notify : κ → Snapshot → SessionM κ ω Unit} {session after : Session κ ω}
  {result final : RunSummary κ} {limit : Nat}

section Unfolding

theorem onMachine_ok {α : Type} {action : MachineM α} {value : α} {next : Machine}
    (h : action session.machine = .ok value next) :
    onMachine action session = .ok value { session with machine := next } := by
  simp only [onMachine, h]

theorem onMachine_eq_ok {α : Type} {action : MachineM α} {value : α}
    (h : onMachine action session = .ok value after) :
    ∃ next, action session.machine = .ok value next ∧ after = { session with machine := next } := by
  unfold onMachine at h
  split at h
  · next hok =>
    cases h
    exact ⟨_, hok, rfl⟩
  · cases h

def tick (notify : κ → Snapshot → SessionM κ ω Unit) : SessionM κ ω (Snapshot × List κ) := do
  let snapshot ← onMachine Machine.step
  let told := (← get).observers
  notifyAll notify snapshot told
  return (snapshot, told)

theorem advance_eq (notify : κ → Snapshot → SessionM κ ω Unit) (result : RunSummary κ) :
    advance notify result = (fun ended => result.stepped ended.1 ended.2) <$> tick notify := by
  simp only [advance, tick, map_bind, map_pure]
  rfl

theorem tick_eq_ok {ended : Snapshot × List κ} (h : tick notify session = .ok ended after) :
    ∃ next, Machine.step session.machine = .ok ended.1 next ∧ ended.2 = session.observers ∧
      notifyAll notify ended.1 session.observers { session with machine := next } =
        .ok () after := by
  obtain ⟨snapshot, stepped, hs, h⟩ := bind_eq_ok h
  obtain ⟨_, _, hget, h⟩ := bind_eq_ok h
  cases hget
  obtain ⟨_, told, hcalls, h⟩ := bind_eq_ok h
  cases h
  obtain ⟨next, hstep, rfl⟩ := onMachine_eq_ok hs
  exact ⟨next, hstep, rfl, hcalls⟩

theorem tick_ok {snapshot : Snapshot} {next : Machine}
    (hs : Machine.step session.machine = .ok snapshot next)
    (hc : notifyAll notify snapshot session.observers { session with machine := next } =
      .ok () after) :
    tick notify session = .ok (snapshot, session.observers) after := by
  rw [tick, bind_ok (onMachine_ok hs)]
  exact bind_ok hc

theorem runFrom_running (h : session.machine.status = .running) (limit : Nat)
    (result : RunSummary κ) :
    runFrom notify (limit + 1) result session =
      (tick notify >>= fun ended =>
        runFrom notify limit (result.stepped ended.1 ended.2)) session := by
  have hget : (get : SessionM κ ω (Session κ ω)) session = .ok session session := rfl
  rw [runFrom, bind_ok hget, if_pos h, advance_eq, bind_map_left]

theorem runFrom_stopped (h : session.machine.status ≠ .running) (limit : Nat)
    (result : RunSummary κ) :
    runFrom notify limit result session =
      .ok { result with status := session.machine.status } session := by
  cases limit with
  | zero => rfl
  | succ limit =>
    have hget : (get : SessionM κ ω (Session κ ω)) session = .ok session session := rfl
    rw [runFrom, bind_ok hget, if_neg h]
    rfl

end Unfolding

section Passes

/-- The session goes through these steps, each with the calls that it causes. -/
inductive Passes (notify : κ → Snapshot → SessionM κ ω Unit) :
    Session κ ω → List (Snapshot × List κ) → Session κ ω → Prop where
  | nothing (session : Session κ ω) : Passes notify session [] session
  | step {session told after : Session κ ω} {ended : Snapshot × List κ}
      {rest : List (Snapshot × List κ)} (hr : session.machine.status = .running)
      (ht : tick notify session = .ok ended told) (hrest : Passes notify told rest after) :
      Passes notify session (ended :: rest) after

theorem Passes.last {front : List (Snapshot × List κ)} {ended : Snapshot × List κ}
    (h : Passes notify session (front ++ [ended]) after) :
    ∃ before, Passes notify session front before ∧ before.machine.status = .running ∧
      tick notify before = .ok ended after := by
  induction front generalizing session with
  | nil =>
    cases h with
    | step hr ht hrest =>
      cases hrest
      exact ⟨_, .nothing _, hr, ht⟩
  | cons first front ih =>
    cases h with
    | step hr ht hrest =>
      obtain ⟨before, hb, hlast⟩ := ih hrest
      exact ⟨before, .step hr ht hb, hlast⟩

theorem runFrom_passes (h : runFrom notify limit result session = .ok final after) :
    ∃ ends, Passes notify session ends after ∧ ends.length ≤ limit ∧
      (ends.length < limit → after.machine.status ≠ .running) ∧
      final = { result.through ends with status := after.machine.status } := by
  induction limit generalizing result session with
  | zero =>
    cases h
    exact ⟨[], .nothing _, Nat.le_refl 0, nofun, rfl⟩
  | succ limit ih =>
    by_cases hr : session.machine.status = .running
    · rw [runFrom_running hr] at h
      obtain ⟨ended, told, ht, h⟩ := bind_eq_ok h
      obtain ⟨rest, hp, hl, hs, hf⟩ := ih h
      refine ⟨ended :: rest, .step hr ht hp, Nat.succ_le_succ hl, ?_, hf⟩
      intro hshort
      exact hs (Nat.lt_of_succ_lt_succ hshort)
    · rw [runFrom_stopped hr] at h
      cases h
      exact ⟨[], .nothing _, Nat.zero_le _, fun _ => hr, rfl⟩

theorem run_passes (h : run notify limit session = .ok result after) :
    ∃ ends, Passes notify session ends after ∧ ends.length ≤ limit ∧
      (ends.length < limit → after.machine.status ≠ .running) ∧ result.steps = ends.length ∧
      result.status = after.machine.status ∧ result.last = ends.getLast?.map Prod.fst := by
  obtain ⟨ends, hp, hl, hs, rfl⟩ := runFrom_passes h
  refine ⟨ends, hp, hl, hs, ?_, rfl, ?_⟩
  · exact (RunSummary.through_steps {} ends).trans (Nat.zero_add _)
  · exact (RunSummary.through_last {} ends).trans Option.or_none

/-- A run gets through these steps if its limit does not come before them, and no further than them
if it is their number or the machine has stopped. -/
theorem Passes.runFrom {ends : List (Snapshot × List κ)} (h : Passes notify session ends after)
    (hl : ends.length ≤ limit) (hs : ends.length < limit → after.machine.status ≠ .running)
    (result : RunSummary κ) :
    runFrom notify limit result session =
      .ok { result.through ends with status := after.machine.status } after := by
  induction h generalizing limit result with
  | nothing =>
    cases limit with
    | zero => rfl
    | succ limit => exact runFrom_stopped (hs (Nat.succ_pos limit)) _ _
  | step hr ht _ ih =>
    cases limit with
    | zero => cases hl
    | succ limit =>
      rw [runFrom_running hr, bind_ok ht]
      exact ih (Nat.le_of_succ_le_succ hl) (fun hshort => hs (Nat.succ_lt_succ hshort)) _

theorem run_bounds (h : run notify limit session = .ok result after) :
    result.status = after.machine.status ∧ result.steps ≤ limit ∧
      (result.steps < limit → after.machine.status ≠ .running) := by
  obtain ⟨ends, -, hl, hs, hsteps, hstatus, -⟩ := run_passes h
  rw [hsteps]
  exact ⟨hstatus, hl, hs⟩

end Passes

section Calm

/-- In sessions of this kind nothing fails, and they stay of this kind.  Their machines can be
stepped, all that observe them belong to the crew, and nobody of the crew fails when told of a
step. -/
structure Calm (notify : κ → Snapshot → SessionM κ ω Unit) (crew : κ → Prop)
    (kept : Session κ ω → Prop) : Prop where
  machine : ∀ session, kept session → session.machine.Equipped
  observers : ∀ session, kept session → ∀ observer ∈ session.observers, crew observer
  step : ∀ session snapshot next, kept session →
    Machine.step session.machine = .ok snapshot next → kept { session with machine := next }
  call : ∀ observer snapshot earlier next session, crew observer → kept earlier →
    Machine.step earlier.machine = .ok snapshot next → kept session →
    ∃ after, notify observer snapshot session = .ok () after ∧ kept after

variable {crew : κ → Prop} {kept : Session κ ω → Prop}

theorem Calm.notifyAll (h : Calm notify crew kept) {snapshot : Snapshot} {earlier : Session κ ω}
    {next : Machine} (hk : kept earlier) (hs : Machine.step earlier.machine = .ok snapshot next)
    {told : List κ} (ht : ∀ observer ∈ told, crew observer) (hsession : kept session) :
    ∃ after, notifyAll notify snapshot told session = .ok () after ∧ kept after := by
  induction told generalizing session with
  | nil => exact ⟨session, rfl, hsession⟩
  | cons observer rest ih =>
    have hcrew := ht observer List.mem_cons_self
    have hrest : ∀ other ∈ rest, crew other := fun other ho => ht other (List.mem_cons_of_mem _ ho)
    obtain ⟨called, hc, hcalled⟩ := h.call _ _ _ _ session hcrew hk hs hsession
    obtain ⟨after, hrun, hafter⟩ := ih hrest hcalled
    exact ⟨after, (bind_ok hc).trans hrun, hafter⟩

theorem Calm.tick (h : Calm notify crew kept) (hk : kept session) :
    ∃ ended after, tick notify session = .ok ended after ∧ kept after := by
  obtain ⟨snapshot, next, hs, -⟩ := (h.machine session hk).step_mirrors
  have hnext := h.step session snapshot next hk hs
  obtain ⟨after, hc, hafter⟩ := h.notifyAll hk hs (h.observers session hk) hnext
  exact ⟨_, after, tick_ok hs hc, hafter⟩

theorem Calm.runFrom (h : Calm notify crew kept) (hk : kept session) (limit : Nat)
    (result : RunSummary κ) :
    ∃ final after, runFrom notify limit result session = .ok final after ∧ kept after := by
  induction limit generalizing session result with
  | zero => exact ⟨_, session, rfl, hk⟩
  | succ limit ih =>
    by_cases hr : session.machine.status = .running
    · obtain ⟨ended, told, ht, htold⟩ := h.tick hk
      obtain ⟨final, after, hf, hafter⟩ := ih htold (result.stepped ended.1 ended.2)
      exact ⟨final, after, by rw [runFrom_running hr, bind_ok ht, hf], hafter⟩
    · exact ⟨_, session, runFrom_stopped hr _ _, hk⟩

theorem Calm.run (h : Calm notify crew kept) (hk : kept session) (limit : Nat) :
    ∃ result after, run notify limit session = .ok result after ∧ kept after :=
  h.runFrom hk limit {}

theorem Calm.run_kept (hc : Calm notify crew kept) (hk : kept session)
    (h : Session.run notify limit session = .ok result after) : kept after := by
  obtain ⟨_, _, hsame, hafter⟩ := hc.run hk limit
  rw [h] at hsame
  cases hsame
  exact hafter

end Calm

end Session

end ByteMachine
