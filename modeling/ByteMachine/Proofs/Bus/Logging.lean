import ByteMachine.Proofs.Bus.Cells

/-!
What a bus logs.  An access that succeeds leaves one entry, with the data as they were given or
returned.  Nothing else is logged, and an operation that fails leaves no trace at all: not in the
log, not in the map of memory, not in a port and not in any memory.
-/

namespace ByteMachine.Bus

variable {h : Hardware} {bus next : Bus h} {address : Int} {failure : Failure}

inductive Command (h : Hardware) where
  | addDevice (device : Device h)
  | register (first last : Int) (device : Nat)
  | connect (channel : Int) (port : Option h.Port)
  | peek (address : Int)
  | read (address : Int)
  | load (address data : Int)
  | write (address data : Int)
  | receive (channel : Int)
  | send (channel data : Int)
  | memorySize
  | contents
  | takeLog

inductive Answer where
  | done
  | number (n : Int)
  | bytes (bytes : List UInt8)
  | log (entries : List Access)
  deriving DecidableEq, Repr

namespace Command

def perform : Command h → BusM h Answer
  | addDevice device => return .number (← Bus.addDevice device)
  | register first last device => do
    Bus.register first last device
    return .done
  | connect channel port => do
    Bus.connect channel port
    return .done
  | peek address => return .number (← Bus.peek address).toNat
  | read address => return .number (← Bus.read address).toNat
  | load address data => do
    Bus.load address data
    return .done
  | write address data => do
    Bus.write address data
    return .done
  | receive channel => return .number (← Bus.receive channel)
  | send channel data => do
    Bus.send channel data
    return .done
  | memorySize => return .number (← get).memorySize
  | contents => return .bytes (← Bus.contents)
  | takeLog => return .log (← Bus.takeLog)

/-- What an answered command has to leave in the log: where it went, and the data that it passed or
got. -/
def entry? : Command h → Except Failure Answer → Option Access
  | read address, .ok (.number byte) => some ⟨.read, address, byte⟩
  | write address data, .ok .done => some ⟨.write, address, data⟩
  | receive channel, .ok (.number data) => some ⟨.ioRead, channel, data⟩
  | send channel data, .ok .done => some ⟨.ioWrite, channel, data⟩
  | _, _ => none

end Command

def attempt (bus : Bus h) (command : Command h) : Except Failure Answer × Bus h :=
  match command.perform bus with
  | .ok answer next => (.ok answer, next)
  | .error failure next => (.error failure, next)

def attemptAll (bus : Bus h) : List (Command h) → List (Command h × Except Failure Answer) × Bus h
  | [] => ([], bus)
  | command :: rest =>
    let (answer, next) := bus.attempt command
    let (record, last) := next.attemptAll rest
    ((command, answer) :: record, last)

def entries (record : List (Command h × Except Failure Answer)) : List Access :=
  record.filterMap fun (command, answer) => command.entry? answer

/-- The map of memory, the ports with all that lies behind them, every memory and the log are as
they were. -/
structure Undisturbed (bus next : Bus h) : Prop where
  regions : next.regions = bus.regions
  ports : next.ports = bus.ports
  shared : next.shared = bus.shared
  log : next.log = bus.log
  memory : ∀ (index : Nat) (memory : Ram),
    next.devices[index]? = some (.ram memory) ↔ bus.devices[index]? = some (.ram memory)

theorem Undisturbed.refl (bus : Bus h) : bus.Undisturbed bus :=
  ⟨rfl, rfl, rfl, rfl, fun _ _ => Iff.rfl⟩

theorem Undisturbed.trans {last : Bus h} (hn : bus.Undisturbed next)
    (hl : next.Undisturbed last) : bus.Undisturbed last where
  regions := hl.regions.trans hn.regions
  ports := hl.ports.trans hn.ports
  shared := hl.shared.trans hn.shared
  log := hl.log.trans hn.log
  memory index memory := (hl.memory index memory).trans (hn.memory index memory)

section Looking

theorem undisturbed_setDevice {index : Nat} {device fresh : h.Peripheral}
    (hd : bus.devices[index]? = some (.peripheral device)) :
    bus.Undisturbed (bus.setDevice index (.peripheral fresh)) := by
  refine ⟨rfl, rfl, rfl, rfl, fun place memory => ?_⟩
  by_cases hp : index = place
  · subst hp
    have hslot : index < bus.devices.size := (Array.getElem?_eq_some_iff.mp hd).1
    rw [setDevice, Array.getElem?_setIfInBounds_self_of_lt hslot, hd]
    constructor
    · intro hc
      cases hc
    · intro hc
      cases hc
  · rw [setDevice, Array.getElem?_setIfInBounds_ne hp]

theorem peek_undisturbed {byte : UInt8} (hp : Bus.peek address bus = .ok byte next) :
    bus.Undisturbed next := by
  unfold Bus.peek at hp
  split at hp
  · cases hp
  · split at hp
    · cases hp
      exact .refl bus
    · cases hp
  · rename_i hl
    obtain ⟨region, -, -, -, hd, -⟩ := locate_eq_some hl
    cases hp
    exact undisturbed_setDevice hd

end Looking

section Failing

variable {α β : Type} {action : BusM h α} {f : α → BusM h β}

/-- When the action fails, it has not done anything. -/
def Atomic (action : BusM h α) : Prop :=
  ∀ bus failure next, action bus = .error failure next → next = bus

theorem Atomic.bind (ha : Atomic action)
    (hf : ∀ value bus failure next, f value bus ≠ .error failure next) :
    Atomic (action >>= f) := by
  intro bus failure next he
  rcases bind_eq_error he with he | ⟨value, after, -, he⟩
  · exact ha bus failure next he
  · exact absurd he (hf value after failure next)

theorem Atomic.answer {g : α → Answer} (ha : Atomic action) :
    Atomic (action >>= fun value => pure (g value)) :=
  ha.bind fun _ _ _ _ he => nomatch he

theorem peek_atomic (address : Int) : Atomic (h := h) (Bus.peek address) := by
  intro bus failure next he
  unfold Bus.peek at he
  split at he
  · cases he
    rfl
  · split at he
    · cases he
    · cases he
      rfl
  · cases he

theorem peekRange_undisturbed (count : Nat) (bus : Bus h) (address : Int) :
    match Bus.peekRange address count bus with
    | .ok _ next => bus.Undisturbed next
    | .error _ next => bus.Undisturbed next := by
  induction count generalizing bus address with
  | zero => exact .refl bus
  | succ count ih =>
    rw [peekRange]
    cases hp : Bus.peek address bus with
    | error failure after =>
      rw [bind_error hp, peek_atomic address bus failure after hp]
      exact .refl bus
    | ok byte after =>
      have hafter := peek_undisturbed hp
      have hrest := ih after (address + 1)
      rw [bind_ok hp]
      cases hr : Bus.peekRange (address + 1) count after with
      | error failure last =>
        rw [hr] at hrest
        rw [bind_error hr]
        exact hafter.trans hrest
      | ok bytes last =>
        rw [hr] at hrest
        rw [bind_ok hr]
        exact hafter.trans hrest

theorem load_atomic (address data : Int) : Atomic (h := h) (Bus.load address data) := by
  intro bus failure next he
  unfold Bus.load at he
  split at he
  · cases he
    rfl
  · split at he
    · cases he
    · cases he
      rfl
  · cases he

theorem read_atomic (address : Int) : Atomic (h := h) (Bus.read address) :=
  (peek_atomic address).bind fun _ _ _ _ he => nomatch he

theorem write_atomic (address data : Int) : Atomic (h := h) (Bus.write address data) :=
  (load_atomic address data).bind fun _ _ _ _ he => nomatch he

theorem receive_atomic (channel : Int) : Atomic (h := h) (Bus.receive channel) := by
  intro bus failure next he
  unfold Bus.receive at he
  split at he
  · cases he
    rfl
  · cases he

theorem send_atomic (channel data : Int) : Atomic (h := h) (Bus.send channel data) := by
  intro bus failure next he
  unfold Bus.send at he
  split at he
  · cases he
    rfl
  · cases he

theorem register_atomic (first last : Int) (device : Nat) :
    Atomic (h := h) (Bus.register first last device) := by
  intro bus failure next he
  unfold Bus.register at he
  split at he
  · dsimp only at he
    split at he
    · cases he
      rfl
    · split at he
      · cases he
      · cases he
        rfl
    · cases he
  · cases he
    rfl

theorem connect_atomic (channel : Int) (port : Option h.Port) :
    Atomic (h := h) (Bus.connect channel port) := by
  intro bus failure next he
  cases port with
  | none =>
    cases he
    rfl
  | some port => cases he

theorem perform_undisturbed {command : Command h}
    (he : command.perform bus = .error failure next) : bus.Undisturbed next := by
  have hatomic : Atomic command.perform → bus.Undisturbed next := by
    intro ha
    rw [ha bus failure next he]
    exact .refl bus
  cases command with
  | addDevice device => cases he
  | register first last device => exact hatomic (register_atomic first last device).answer
  | connect channel port => exact hatomic (connect_atomic channel port).answer
  | peek address => exact hatomic (peek_atomic address).answer
  | read address => exact hatomic (read_atomic address).answer
  | load address data => exact hatomic (load_atomic address data).answer
  | write address data => exact hatomic (write_atomic address data).answer
  | receive channel => exact hatomic (receive_atomic channel).answer
  | send channel data => exact hatomic (send_atomic channel data).answer
  | memorySize => cases he
  | contents =>
    rcases bind_eq_error he with he | ⟨bytes, after, -, he⟩
    · have hrange := peekRange_undisturbed bus.memorySize bus 0
      change peekRange 0 bus.memorySize bus = .error failure next at he
      rw [he] at hrange
      exact hrange
    · cases he
  | takeLog => cases he

end Failing

section Logging

variable {α β : Type} {action : BusM h α} {f : α → BusM h β}

/-- When the action succeeds, the log has these entries more. -/
def Logs (action : BusM h α) (entries : α → List Access) : Prop :=
  ∀ bus value next, action bus = .ok value next → next.log = bus.log ++ entries value

theorem Logs.bind {entries : β → List Access} (ha : Logs action fun _ => [])
    (hf : ∀ value, Logs (f value) entries) : Logs (action >>= f) entries := by
  intro bus value next ho
  obtain ⟨first, after, hfirst, ho⟩ := bind_eq_ok ho
  rw [hf first after value next ho, ha bus first after hfirst, List.append_nil]

theorem Logs.answer {entries : α → List Access} {g : α → Answer} {logged : Answer → List Access}
    (ha : Logs action entries) (hl : ∀ value, logged (g value) = entries value) :
    Logs (action >>= fun value => pure (g value)) logged := by
  intro bus answer next ho
  obtain ⟨value, after, hvalue, ho⟩ := bind_eq_ok ho
  cases ho
  rw [hl]
  exact ha bus value next hvalue

theorem peek_logs (address : Int) : Logs (h := h) (Bus.peek address) fun _ => [] := by
  intro bus byte next ho
  rw [(peek_undisturbed ho).log, List.append_nil]

theorem load_logs (address data : Int) : Logs (h := h) (Bus.load address data) fun _ => [] := by
  intro bus _ next ho
  rw [List.append_nil]
  unfold Bus.load at ho
  split at ho
  · cases ho
  · split at ho
    · cases ho
      rfl
    · cases ho
  · cases ho
    rfl

theorem read_logs (address : Int) :
    Logs (h := h) (Bus.read address) fun byte => [⟨.read, address, byte.toNat⟩] := by
  refine (peek_logs address).bind fun byte bus _ next ho => ?_
  cases ho
  rfl

theorem write_logs (address data : Int) :
    Logs (h := h) (Bus.write address data) fun _ => [⟨.write, address, data⟩] := by
  refine (load_logs address data).bind fun _ bus _ next ho => ?_
  cases ho
  rfl

theorem receive_logs (channel : Int) :
    Logs (h := h) (Bus.receive channel) fun data => [⟨.ioRead, channel, data⟩] := by
  intro bus data next ho
  unfold Bus.receive at ho
  split at ho
  · cases ho
  · cases ho
    rfl

theorem send_logs (channel data : Int) :
    Logs (h := h) (Bus.send channel data) fun _ => [⟨.ioWrite, channel, data⟩] := by
  intro bus _ next ho
  unfold Bus.send at ho
  split at ho
  · cases ho
  · cases ho
    rfl

theorem register_logs (first last : Int) (device : Nat) :
    Logs (h := h) (Bus.register first last device) fun _ => [] := by
  intro bus _ next ho
  rw [List.append_nil]
  unfold Bus.register at ho
  split at ho
  · dsimp only at ho
    split at ho
    · cases ho
    · split at ho
      · cases ho
        rfl
      · cases ho
    · cases ho
      rfl
  · cases ho

theorem connect_logs (channel : Int) (port : Option h.Port) :
    Logs (h := h) (Bus.connect channel port) fun _ => [] := by
  intro bus _ next ho
  rw [List.append_nil]
  cases port with
  | none => cases ho
  | some port =>
    cases ho
    rfl

theorem contents_logs : Logs (h := h) Bus.contents fun _ => [] := by
  intro bus bytes next ho
  have hrange := peekRange_undisturbed bus.memorySize bus 0
  change peekRange 0 bus.memorySize bus = .ok bytes next at ho
  rw [ho] at hrange
  rw [hrange.log, List.append_nil]

/-- Every command but the one that takes the log adds to it what its answer asks for. -/
theorem perform_logs {command : Command h} (hc : command ≠ .takeLog) :
    Logs command.perform fun answer => (command.entry? (.ok answer)).toList := by
  cases command with
  | addDevice device =>
    intro bus answer next ho
    cases ho
    exact (List.append_nil bus.log).symm
  | register first last device => exact (register_logs first last device).answer fun _ => rfl
  | connect channel port => exact (connect_logs channel port).answer fun _ => rfl
  | peek address => exact (peek_logs address).answer fun _ => rfl
  | read address => exact (read_logs address).answer fun _ => rfl
  | load address data => exact (load_logs address data).answer fun _ => rfl
  | write address data => exact (write_logs address data).answer fun _ => rfl
  | receive channel => exact (receive_logs channel).answer fun _ => rfl
  | send channel data => exact (send_logs channel data).answer fun _ => rfl
  | memorySize =>
    intro bus answer next ho
    cases ho
    exact (List.append_nil bus.log).symm
  | contents => exact contents_logs.answer fun _ => rfl
  | takeLog => exact absurd rfl hc

end Logging

section Record

variable {command : Command h} {commands : List (Command h)}

theorem attempt_ok {answer : Answer} (ho : command.perform bus = .ok answer next) :
    bus.attempt command = (.ok answer, next) := by
  simp only [attempt, ho]

theorem attempt_error (he : command.perform bus = .error failure next) :
    bus.attempt command = (.error failure, next) := by
  simp only [attempt, he]

theorem attempt_takeLog (bus : Bus h) :
    bus.attempt .takeLog = (.ok (.log bus.log), { bus with log := [] }) := rfl

theorem entry_error (command : Command h) (failure : Failure) :
    command.entry? (.error failure) = none := by
  cases command <;> rfl

theorem attempt_log (hc : command ≠ .takeLog) :
    (bus.attempt command).2.log =
      bus.log ++ (command.entry? (bus.attempt command).1).toList := by
  cases hp : command.perform bus with
  | ok answer next =>
    rw [attempt_ok hp]
    exact perform_logs hc bus answer next hp
  | error failure next =>
    rw [attempt_error hp, (perform_undisturbed hp).log, entry_error]
    exact (List.append_nil bus.log).symm

theorem attemptAll_log (hc : ∀ command ∈ commands, command ≠ .takeLog) :
    (bus.attemptAll commands).2.log = bus.log ++ entries (bus.attemptAll commands).1 := by
  induction commands generalizing bus with
  | nil => exact (List.append_nil bus.log).symm
  | cons command rest ih =>
    rw [List.forall_mem_cons] at hc
    have hrest : (((bus.attempt command).2).attemptAll rest).2.log =
        (bus.attempt command).2.log ++ entries (((bus.attempt command).2).attemptAll rest).1 :=
      ih hc.2
    rw [attempt_log hc.1, List.append_assoc] at hrest
    refine hrest.trans (congrArg (bus.log ++ ·) ?_)
    simp only [entries, attemptAll, List.filterMap_cons]
    cases command.entry? (bus.attempt command).1 <;> rfl

/-- Whatever devices are registered, with any overlap, gap or sharing, and whatever has been done
before, the log that is taken has exactly one entry for each access that has succeeded since the
log was last taken, in order.  Commands that fail leave no entry, and neither do those that only
look, load or register something.  A command that fails has changed nothing: neither the map of
memory nor a port, a memory or the log. -/
theorem log_is_exact (bus : Bus h) :
    (∀ earlier since, (∀ command ∈ since, command ≠ .takeLog) →
      let taken := ((bus.attemptAll earlier).2.attempt .takeLog).2
      ((taken.attemptAll since).2.attempt .takeLog).1 =
        .ok (.log (entries (taken.attemptAll since).1))) ∧
    (∀ commands, (∀ command ∈ commands, command ≠ .takeLog) →
      ((bus.attemptAll commands).2.attempt .takeLog).1 =
        .ok (.log (bus.log ++ entries (bus.attemptAll commands).1))) ∧
    (∀ command failure next, bus.attempt command = (.error failure, next) →
      bus.Undisturbed next) := by
  have hlog : ∀ (bus : Bus h) commands, (∀ command ∈ commands, command ≠ .takeLog) →
      ((bus.attemptAll commands).2.attempt .takeLog).1 =
        .ok (.log (bus.log ++ entries (bus.attemptAll commands).1)) := by
    intro bus commands hc
    rw [attempt_takeLog, attemptAll_log hc]
  refine ⟨fun earlier since hc => ?_, hlog bus, fun command failure next he => ?_⟩
  · exact hlog _ since hc
  · cases hp : command.perform bus with
    | ok answer after =>
      rw [attempt_ok hp] at he
      cases he
    | error _ after =>
      rw [attempt_error hp] at he
      cases he
      exact perform_undisturbed hp

/-- One memory for two regions with a gap between them, and a port that gives more than a byte. -/
def sparse : Bus bench where
  devices := #[.ram ⟨#[1, 5]⟩]
  regions := [⟨0, 1, 0⟩, ⟨4, 5, 0⟩]
  ports := [(7, ⟨[300], []⟩)]
  shared := ()

def accesses : List (Command bench) :=
  [.read 4, .write 1 255, .write 1 256, .receive 7, .contents, .send 7 (-1), .read 3]

theorem log_is_exact_sparse :
    (∀ command ∈ accesses, command ≠ .takeLog) ∧
    ((sparse.attemptAll accesses).2.attempt .takeLog).1 =
      .ok (.log [⟨.read, 4, 1⟩, ⟨.write, 1, 255⟩, ⟨.ioRead, 7, 300⟩, ⟨.ioWrite, 7, -1⟩]) ∧
    sparse.Undisturbed (sparse.attempt (.write 1 256)).2 := by
  obtain ⟨-, hlogged, hfailed⟩ := log_is_exact sparse
  have hc : ∀ command ∈ accesses, command ≠ .takeLog := by simp [accesses]
  have hentries : entries (sparse.attemptAll accesses).1 =
      [⟨.read, 4, 1⟩, ⟨.write, 1, 255⟩, ⟨.ioRead, 7, 300⟩, ⟨.ioWrite, 7, -1⟩] := rfl
  refine ⟨hc, ?_, hfailed (.write 1 256) _ _ rfl⟩
  rw [hlogged accesses hc, hentries]
  rfl

end Record

end ByteMachine.Bus
