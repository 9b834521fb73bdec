import ByteMachine.Proofs.Machine.Observers
import ByteMachine.Proofs.Machine.Registry
import ByteMachine.Trace.Page

/-!
Who is told of a step.  Observers may change the registry while they are being told, so a run is
followed round by round, together with the calls that change the registry.  Independently of that,
every observer can keep a diary of how it has been called.
-/

namespace ByteMachine.Session

variable {κ ω : Type}

/-- One step of a run: what it has shown, who has been told of it, and the calls by which they have
then changed the registry. -/
structure Round (κ : Type) where
  snapshot : Snapshot
  told : List κ
  changes : List (Change κ)

def Round.calls (round : Round κ) : List (κ × Snapshot) := round.told.map (·, round.snapshot)

variable {notify : κ → Snapshot → SessionM κ ω Unit}
  {made : κ → Snapshot → Session κ ω → List (Change κ)} {session middle after : Session κ ω}
  {snapshot : Snapshot} {told : List κ} {changes : List (Change κ)} {rounds : List (Round κ)}
  {ends : List (Snapshot × List κ)} {result : RunSummary κ} {limit : Nat} {failure : Failure}
  {calls : List (κ × Snapshot)}

theorem onMachine_observers {α : Type} {action : MachineM α} {value : α}
    (h : onMachine action session = .ok value after) : after.observers = session.observers := by
  obtain ⟨next, -, rfl⟩ := onMachine_eq_ok h
  rfl

section Rounds

inductive Tells (notify : κ → Snapshot → SessionM κ ω Unit)
    (made : κ → Snapshot → Session κ ω → List (Change κ)) (snapshot : Snapshot) :
    Session κ ω → List κ → List (Change κ) → Session κ ω → Prop where
  | nobody (session : Session κ ω) : Tells notify made snapshot session [] [] session
  | call {session called after : Session κ ω} {observer : κ} {rest : List κ}
      {changes : List (Change κ)} (hc : notify observer snapshot session = .ok () called)
      (hrest : Tells notify made snapshot called rest changes after) :
      Tells notify made snapshot session (observer :: rest)
        (made observer snapshot session ++ changes) after

/-- The session goes through these rounds.  Those who are told of a step are those in the registry
at the moment when the step returns. -/
inductive Rounds (notify : κ → Snapshot → SessionM κ ω Unit)
    (made : κ → Snapshot → Session κ ω → List (Change κ)) :
    Session κ ω → List (Round κ) → Session κ ω → Prop where
  | nothing (session : Session κ ω) : Rounds notify made session [] session
  | step {session returned told after : Session κ ω} {snapshot : Snapshot}
      {changes : List (Change κ)} {rest : List (Round κ)}
      (hr : session.machine.status = .running)
      (hs : onMachine Machine.step session = .ok snapshot returned)
      (ht : Tells notify made snapshot returned returned.observers changes told)
      (hrest : Rounds notify made told rest after) :
      Rounds notify made session (⟨snapshot, returned.observers, changes⟩ :: rest) after

theorem notifyAll_tells (made : κ → Snapshot → Session κ ω → List (Change κ))
    (h : notifyAll notify snapshot told session = .ok () after) :
    ∃ changes, Tells notify made snapshot session told changes after := by
  induction told generalizing session with
  | nil =>
    cases h
    exact ⟨[], .nobody _⟩
  | cons observer rest ih =>
    obtain ⟨_, called, hc, h⟩ := bind_eq_ok h
    obtain ⟨changes, hrest⟩ := ih h
    exact ⟨_, .call hc hrest⟩

theorem Passes.inRounds (h : Passes notify session ends after)
    (made : κ → Snapshot → Session κ ω → List (Change κ)) :
    ∃ rounds : List (Round κ), Rounds notify made session rounds after ∧
      rounds.map (fun round => (round.snapshot, round.told)) = ends := by
  induction h with
  | nothing session => exact ⟨[], .nothing _, rfl⟩
  | @step session told after ended rest hr ht hrest ih =>
    obtain ⟨rounds, hrounds, hmap⟩ := ih
    obtain ⟨next, hs, htold, hc⟩ := tick_eq_ok ht
    obtain ⟨changes, htells⟩ := notifyAll_tells made hc
    refine ⟨_, .step hr (onMachine_ok hs) htells hrounds, ?_⟩
    rw [List.map_cons, hmap, ← htold]

variable [DecidableEq κ]

/-- When it is told of a step, an observer changes the registry by making these calls, and in no
other way. -/
def Makes (notify : κ → Snapshot → SessionM κ ω Unit)
    (made : κ → Snapshot → Session κ ω → List (Change κ)) : Prop :=
  ∀ observer snapshot session after, notify observer snapshot session = .ok () after →
    after.observers = (made observer snapshot session).foldl Change.apply session.observers

theorem Tells.observers (h : Tells notify made snapshot session told changes after)
    (hm : Makes notify made) :
    after.observers = changes.foldl Change.apply session.observers := by
  induction h with
  | nobody session => rfl
  | call hc hrest ih => rw [ih, hm _ _ _ _ hc, List.foldl_append]

theorem Rounds.observers (h : Rounds notify made session rounds after) (hm : Makes notify made) :
    after.observers = (rounds.flatMap Round.changes).foldl Change.apply session.observers := by
  induction h with
  | nothing session => rfl
  | step hr hs ht hrest ih =>
    rw [ih, ht.observers hm, onMachine_observers hs, List.flatMap_cons, List.foldl_append]

theorem Rounds.told_eq {front back : List (Round κ)} {round : Round κ}
    (h : Rounds notify made session (front ++ round :: back) after) (hm : Makes notify made) :
    round.told = (front.flatMap Round.changes).foldl Change.apply session.observers := by
  induction front generalizing session with
  | nil =>
    cases h with
    | step hr hs ht hrest => exact onMachine_observers hs
  | cons first front ih =>
    cases h with
    | step hr hs ht hrest =>
      rw [ih hrest, ht.observers hm, onMachine_observers hs, List.flatMap_cons, List.foldl_append]

/-- What the calls of a round, and those of the rounds after it, mean for a later round. -/
structure Round.LeadsTo (round : Round κ) (middle : List (Round κ)) (later : Round κ) : Prop where
  /-- Who is not removed is told again. -/
  kept : ∀ observer ∈ round.told,
    .remove observer ∉ round.changes ++ middle.flatMap Round.changes → observer ∈ later.told
  /-- Who is removed, and not added again, is not told any more. -/
  removed : ∀ observer earlier since,
    round.changes ++ middle.flatMap Round.changes = earlier ++ .remove observer :: since →
    .add observer ∉ since → observer ∉ later.told
  /-- Who is added without being registered at that time, be it for the first time or again, is told
  from the next step on.  They stand behind those who were registered then and have not been removed
  since, and ahead of all who have been added after them. -/
  added : ∀ observer earlier since,
    round.changes ++ middle.flatMap Round.changes = earlier ++ .add observer :: since →
    observer ∉ earlier.foldl Change.apply round.told → .remove observer ∉ since →
    ∃ ahead behind, later.told = ahead ++ observer :: behind ∧
      ahead.Sublist (earlier.foldl Change.apply round.told) ∧
      (∀ other ∈ earlier.foldl Change.apply round.told, .remove other ∉ since → other ∈ ahead) ∧
      ∀ other ∈ behind, .add other ∈ since

theorem Round.leadsTo_of_told {round later : Round κ} {middle : List (Round κ)}
    (hn : round.told.Nodup)
    (h : later.told =
      (round.changes ++ middle.flatMap Round.changes).foldl Change.apply round.told) :
    round.LeadsTo middle later := by
  constructor
  · intro observer ho hr
    rw [h]
    exact Change.mem_foldl hn ho hr
  · intro observer earlier since hsplit ha
    have hearlier := Change.nodup_foldl hn earlier
    rw [h, hsplit, List.foldl_append, List.foldl_cons]
    exact Change.notMem_foldl (hearlier.erase observer) hearlier.not_mem_erase ha
  · intro observer earlier since hsplit ho hr
    obtain ⟨ahead, behind, hplace, hshifts⟩ := Change.place_foldl _ [] hr
    refine ⟨ahead, behind, ?_, hshifts.sublist, hshifts.kept, fun other hb => ?_⟩
    · rw [h, hsplit, List.foldl_append, List.foldl_cons, Change.apply_add_new ho, hplace]
    · exact (hshifts.behind other hb).resolve_left List.not_mem_nil

theorem Rounds.leadsTo {front mid back : List (Round κ)} {round later : Round κ}
    (h : Rounds notify made session (front ++ round :: (mid ++ later :: back)) after)
    (hm : Makes notify made) (hn : session.observers.Nodup) : round.LeadsTo mid later := by
  have hround := h.told_eq hm
  have hwhole :
      front ++ round :: (mid ++ later :: back) = (front ++ round :: mid) ++ later :: back := by
    rw [List.append_assoc, List.cons_append]
  rw [hwhole] at h
  refine Round.leadsTo_of_told ?_ ?_
  · rw [hround]
    exact Change.nodup_foldl hn _
  · rw [h.told_eq hm, hround, List.flatMap_append, List.foldl_append, List.flatMap_cons]

end Rounds

section Diary

def withDiary (session : Session κ ω) (diary : List (κ × Snapshot)) :
    Session κ (ω × List (κ × Snapshot)) :=
  ⟨session.machine, session.observers, session.context, diary⟩

def noting (notify : κ → Snapshot → SessionM κ ω Unit) (observer : κ) (snapshot : Snapshot) :
    SessionM κ (ω × List (κ × Snapshot)) Unit := fun session =>
  let diary := session.context.2 ++ [(observer, snapshot)]
  match notify observer snapshot ⟨session.machine, session.observers, session.context.1⟩ with
  | .ok () after => .ok () (after.withDiary diary)
  | .error failure after => .error failure (after.withDiary diary)

variable (diary : List (κ × Snapshot))

theorem noting_ok {observer : κ} (h : notify observer snapshot session = .ok () after) :
    noting notify observer snapshot (session.withDiary diary) =
      .ok () (after.withDiary (diary ++ [(observer, snapshot)])) := by
  simp only [noting, withDiary, h]

theorem noting_error {observer : κ} (h : notify observer snapshot session = .error failure after) :
    noting notify observer snapshot (session.withDiary diary) =
      .error failure (after.withDiary (diary ++ [(observer, snapshot)])) := by
  simp only [noting, withDiary, h]

theorem notifyAll_noting (h : notifyAll notify snapshot told session = .ok () after) :
    notifyAll (noting notify) snapshot told (session.withDiary diary) =
      .ok () (after.withDiary (diary ++ told.map (·, snapshot))) := by
  induction told generalizing session diary with
  | nil =>
    cases h
    rw [List.map_nil, List.append_nil]
    rfl
  | cons observer rest ih =>
    obtain ⟨_, called, hc, h⟩ := bind_eq_ok h
    rw [notifyAll, bind_ok (noting_ok diary hc), ih _ h, List.append_assoc]
    rfl

/-- If somebody fails, those ahead of them have been called, and nobody behind them. -/
theorem notifyAll_noting_error (h : notifyAll notify snapshot told session = .error failure after) :
    ∃ ahead observer behind, told = ahead ++ observer :: behind ∧
      notifyAll (noting notify) snapshot told (session.withDiary diary) =
        .error failure (after.withDiary (diary ++ (ahead ++ [observer]).map (·, snapshot))) := by
  induction told generalizing session diary with
  | nil => cases h
  | cons observer rest ih =>
    rcases bind_eq_error h with hc | ⟨_, called, hc, h⟩
    · exact ⟨[], observer, rest, rfl, bind_error (noting_error diary hc)⟩
    · obtain ⟨ahead, last, behind, rfl, hrest⟩ := ih (diary ++ [(observer, snapshot)]) h
      refine ⟨observer :: ahead, last, behind, rfl, ?_⟩
      rw [notifyAll, bind_ok (noting_ok diary hc), hrest, List.append_assoc]
      rfl

theorem tick_noting {ended : Snapshot × List κ} (h : tick notify session = .ok ended after) :
    tick (noting notify) (session.withDiary diary) =
      .ok ended (after.withDiary (diary ++ ended.2.map (·, ended.1))) := by
  obtain ⟨next, hs, htold, hc⟩ := tick_eq_ok h
  have hcalls := notifyAll_noting diary hc
  rw [← htold] at hcalls
  obtain ⟨snapshot, told⟩ := ended
  subst htold
  exact tick_ok hs hcalls

theorem Passes.noting (h : Passes notify session ends after) :
    Passes (noting notify) (session.withDiary diary) ends
      (after.withDiary (diary ++ ends.flatMap fun ended => ended.2.map (·, ended.1))) := by
  induction h generalizing diary with
  | nothing session =>
    rw [List.flatMap_nil, List.append_nil]
    exact .nothing _
  | step hr ht hrest ih =>
    rw [List.flatMap_cons, ← List.append_assoc]
    exact .step hr (tick_noting diary ht) (ih _)

/-- All the calls of a run are those that it tells of. -/
theorem run_noting (h : run notify limit session = .ok result after) :
    run (noting notify) limit (session.withDiary diary) =
      .ok result (after.withDiary (diary ++ result.calls.toList)) := by
  obtain ⟨ends, hp, hl, hs, rfl⟩ := runFrom_passes h
  have hcalls : (RunSummary.through {} ends).calls.toList =
      ends.flatMap fun ended : Snapshot × List κ => ended.2.map (·, ended.1) :=
    RunSummary.through_calls {} ends
  rw [hcalls]
  exact (hp.noting diary).runFrom hl hs {}

/-- The round that a run fails in: either its step fails, and nobody is told, or somebody fails who
is told of it. -/
inductive BreaksOff (notify : κ → Snapshot → SessionM κ ω Unit) (session : Session κ ω)
    (failure : Failure) (after : Session κ ω) : List (κ × Snapshot) → Prop where
  | step (hs : onMachine Machine.step session = .error failure after) :
      BreaksOff notify session failure after []
  | call {snapshot : Snapshot} {returned : Session κ ω} {ahead behind : List κ} {observer : κ}
      (hs : onMachine Machine.step session = .ok snapshot returned)
      (ht : returned.observers = ahead ++ observer :: behind)
      (hc : notifyAll notify snapshot returned.observers returned = .error failure after) :
      BreaksOff notify session failure after ((ahead ++ [observer]).map (·, snapshot))

theorem onMachine_withDiary_error {α : Type} {action : MachineM α}
    (h : onMachine action session = .error failure after) :
    onMachine action (session.withDiary diary) = .error failure (after.withDiary diary) := by
  cases hx : action session.machine with
  | ok value next =>
    rw [onMachine_ok hx] at h
    cases h
  | error failure next =>
    simp only [onMachine, withDiary, hx] at h ⊢
    cases h
    rfl

theorem onMachine_withDiary_ok {α : Type} {action : MachineM α} {value : α}
    (h : onMachine action session = .ok value after) :
    onMachine action (session.withDiary diary) = .ok value (after.withDiary diary) := by
  obtain ⟨next, hx, rfl⟩ := onMachine_eq_ok h
  exact onMachine_ok hx

theorem tick_noting_error (h : tick notify session = .error failure after) :
    ∃ calls, BreaksOff notify session failure after calls ∧
      tick (noting notify) (session.withDiary diary) =
        .error failure (after.withDiary (diary ++ calls)) := by
  rcases bind_eq_error h with hs | ⟨snapshot, returned, hs, h⟩
  · refine ⟨[], .step hs, ?_⟩
    rw [List.append_nil]
    exact bind_error (onMachine_withDiary_error diary hs)
  · rcases bind_eq_error h with hget | ⟨_, _, hget, h⟩
    · cases hget
    cases hget
    rcases bind_eq_error h with hc | ⟨_, _, _, h⟩
    · obtain ⟨ahead, observer, behind, htold, hnoting⟩ := notifyAll_noting_error diary hc
      have hget : (get : SessionM κ (ω × List (κ × Snapshot)) _) (returned.withDiary diary) =
          .ok (returned.withDiary diary) (returned.withDiary diary) := rfl
      refine ⟨_, .call hs htold hc, ?_⟩
      rw [tick, bind_ok (onMachine_withDiary_ok diary hs), bind_ok hget]
      exact bind_error hnoting
    · cases h

theorem runFrom_noting_error (h : runFrom notify limit result session = .error failure after) :
    ∃ ends middle calls, Passes notify session ends middle ∧
      middle.machine.status = .running ∧ BreaksOff notify middle failure after calls ∧
      runFrom (noting notify) limit result (session.withDiary diary) =
        .error failure (after.withDiary
          (diary ++ (ends.flatMap fun ended => ended.2.map (·, ended.1)) ++ calls)) := by
  induction limit generalizing result session diary with
  | zero => cases h
  | succ limit ih =>
    by_cases hr : session.machine.status = .running
    · have hrunning : (session.withDiary diary).machine.status = .running := hr
      rw [runFrom_running hr] at h
      rcases bind_eq_error h with ht | ⟨ended, told, ht, h⟩
      · obtain ⟨calls, hbreaks, hnoting⟩ := tick_noting_error diary ht
        refine ⟨[], session, calls, .nothing _, hr, hbreaks, ?_⟩
        rw [runFrom_running hrunning, bind_error hnoting, List.flatMap_nil, List.append_nil]
      · obtain ⟨ends, middle, calls, hp, hm, hbreaks, hnoting⟩ :=
          ih (diary ++ ended.2.map (·, ended.1)) h
        refine ⟨ended :: ends, middle, calls, .step hr ht hp, hm, hbreaks, ?_⟩
        rw [runFrom_running hrunning, bind_ok (tick_noting diary ht), hnoting, List.flatMap_cons,
          List.append_assoc diary]
    · rw [runFrom_stopped hr] at h
      cases h

end Diary

variable [DecidableEq κ]

/-- What a run that returns has told its observers, from a registry on that this history has
made. -/
structure Notifies (notify : κ → Snapshot → SessionM κ ω Unit)
    (made : κ → Snapshot → Session κ ω → List (Change κ)) (history : List (Change κ))
    (session : Session κ ω) (result : RunSummary κ) (after : Session κ ω)
    (rounds : List (Round κ)) : Prop where
  passes : Rounds notify made session rounds after
  steps : rounds.length = result.steps
  calls : result.calls.toList = rounds.flatMap Round.calls
  registry : after.observers = registered (history ++ rounds.flatMap Round.changes)
  told : ∀ front round back, rounds = front ++ round :: back →
    round.told = registered (history ++ front.flatMap Round.changes)
  leadsTo : ∀ front round middle later back, rounds = front ++ round :: (middle ++ later :: back) →
    round.LeadsTo middle later

/-- Nobody is in the registry twice, and it lists the observers by the calls since when they have
been registered, whatever the calls were that made it.  For every step of a run exactly those are
called who are in the registry when the step returns, one after the other and each of them once,
whatever they do to the registry meanwhile.  What they do counts from the next step on.  The calls
are those that the observers note down themselves; if one of them fails, so does the run, and only
those behind it are not called any more. -/
theorem observers_are_told_once (notify : κ → Snapshot → SessionM κ ω Unit)
    (made : κ → Snapshot → Session κ ω → List (Change κ)) (hm : Makes notify made) :
    (∀ (session : Session κ ω) history, session.observers = [] →
      history.forM Change.perform session =
          .ok () { session with observers := registered history } ∧
        Keeps history (registered history)) ∧
    ∀ (session : Session κ ω) history limit diary, session.observers = registered history →
      (∀ result after, run notify limit session = .ok result after →
        run (noting notify) limit (session.withDiary diary) =
            .ok result (after.withDiary (diary ++ result.calls.toList)) ∧
          ∃ rounds, Notifies notify made history session result after rounds) ∧
      ∀ failure after, run notify limit session = .error failure after →
        ∃ rounds middle calls, Rounds notify made session rounds middle ∧
          middle.machine.status = .running ∧ BreaksOff notify middle failure after calls ∧
          run (noting notify) limit (session.withDiary diary) =
            .error failure (after.withDiary (diary ++ rounds.flatMap Round.calls ++ calls)) := by
  refine ⟨fun session history hs => ⟨?_, registered_keeps history⟩, ?_⟩
  · rw [Change.performAll_ok, hs]
    rfl
  intro session history limit diary hs
  have hends : ∀ rounds : List (Round κ),
      ((rounds.map fun round => (round.snapshot, round.told)).flatMap fun ended =>
        ended.2.map (·, ended.1)) = rounds.flatMap Round.calls := by
    intro rounds
    rw [List.flatMap_map]
    rfl
  constructor
  · intro result after h
    refine ⟨run_noting diary h, ?_⟩
    obtain ⟨ends, hp, -, -, rfl⟩ := runFrom_passes h
    obtain ⟨rounds, hrounds, rfl⟩ := hp.inRounds made
    refine ⟨rounds, hrounds, ?_, ?_, ?_, ?_, ?_⟩
    · have hsteps := RunSummary.through_steps (κ := κ) {}
        (rounds.map fun round => (round.snapshot, round.told))
      rw [List.length_map, Nat.zero_add] at hsteps
      exact hsteps.symm
    · exact (RunSummary.through_calls {} _).trans (hends rounds)
    · rw [hrounds.observers hm, hs, registered_append]
    · rintro front round back rfl
      rw [hrounds.told_eq hm, hs, registered_append]
    · rintro front round middle later back rfl
      exact hrounds.leadsTo hm (by rw [hs]; exact registered_nodup history)
  · intro failure after h
    obtain ⟨ends, middle, calls, hp, hr, hbreaks, hnoting⟩ := runFrom_noting_error diary h
    obtain ⟨rounds, hrounds, rfl⟩ := hp.inRounds made
    rw [hends] at hnoting
    exact ⟨rounds, middle, calls, hrounds, hr, hbreaks, hnoting⟩

section Named

variable {session after : Session Observer Cast}

theorem ensure_observers {name : String} {reaction : Reaction}
    (h : Observer.ensure name reaction session = .ok () after) :
    after.observers = session.observers := by
  cases h
  dsimp only
  split <;> rfl

def changesBy : Reaction → List (Change Observer)
  | .add name => [.add (.named name)]
  | .remove name => [.remove (.named name)]
  | _ => []

theorem react_changes {reaction : Reaction} (h : Observer.react reaction session = .ok () after) :
    after.observers = (changesBy reaction).foldl Change.apply session.observers := by
  cases reaction with
  | none | jump pc | reset =>
    cases h
    rfl
  | remove name =>
    obtain ⟨_, ensured, he, h⟩ := bind_eq_ok h
    have hp : (Change.remove (.named name)).perform ensured = .ok () after := h
    rw [Change.perform_ok] at hp
    cases hp
    rw [ensure_observers he]
    rfl
  | add name =>
    obtain ⟨_, ensured, he, h⟩ := bind_eq_ok h
    have hp : (Change.add (.named name)).perform ensured = .ok () after := h
    rw [Change.perform_ok] at hp
    cases hp
    rw [ensure_observers he]
    rfl
  | write address data => exact onMachine_observers h

def changesOf (observer : Observer) (_ : Snapshot) (session : Session Observer Cast) :
    List (Change Observer) :=
  match observer with
  | .named name => changesBy ((session.context.lookup name).getD .none)
  | .tracer _ => []

theorem observer_makes (layout : Trace.Layout) : Makes (Observer.notify layout) changesOf := by
  intro observer snapshot session after h
  cases observer with
  | named name => exact react_changes h
  | tracer pause => exact onMachine_observers h

end Named

/-- One observer removes the next one, and the last one adds that again. -/
def turning : Session Observer Cast where
  machine := overlapping
  observers := [.named "first", .named "second", .named "third"]
  context := [("first", .remove "second"), ("second", .none), ("third", .add "second")]

theorem observers_are_told_once_turning :
    Makes (Observer.notify Trace.page) changesOf ∧
      turning.observers = registered (turning.observers.map .add) ∧
      ∃ result after rounds, run (Observer.notify Trace.page) 2 turning = .ok result after ∧
        Notifies (Observer.notify Trace.page) changesOf (turning.observers.map .add) turning result
          after rounds ∧
        (rounds.flatMap Round.calls).map Prod.fst =
          [.named "first", .named "second", .named "third",
            .named "first", .named "third", .named "second"] := by
  have hregistry : turning.observers = registered (turning.observers.map .add) := by decide
  have hruns : ∃ result after, run (Observer.notify Trace.page) 2 turning = .ok result after ∧
      result.calls.toList.map Prod.fst =
        [.named "first", .named "second", .named "third",
          .named "first", .named "third", .named "second"] :=
    Succeeds.exists_ok (by decide +kernel)
  obtain ⟨result, after, h, hcalls⟩ := hruns
  obtain ⟨-, htold⟩ :=
    observers_are_told_once (Observer.notify Trace.page) changesOf (observer_makes _)
  obtain ⟨-, rounds, hrounds⟩ := (htold turning _ 2 [] hregistry).1 result after h
  rw [hrounds.calls] at hcalls
  exact ⟨observer_makes _, hregistry, result, after, rounds, h, hrounds, hcalls⟩

end ByteMachine.Session
