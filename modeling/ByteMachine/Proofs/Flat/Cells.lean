import ByteMachine.Proofs.Byte
import ByteMachine.Proofs.Console.Ports
import ByteMachine.Proofs.Flat.Cycle
import ByteMachine.Proofs.Flat.Relation

/-!
Registers, memory and the console channels of a machine behave like those of the flat machine that
it shows.
-/

namespace ByteMachine

open Machine

variable {α : Type} {m : Machine} {s : Flat}

theorem Machine.onBus_ok {action : BusM wiring α} {value : α} {bus : Bus wiring}
    (h : action m.bus = .ok value bus) : onBus action m = .ok value { m with bus } := by
  simp only [onBus, h]

theorem Machine.onBus_eq_ok {action : BusM wiring α} {value : α} {next : Machine}
    (h : Machine.onBus action m = .ok value next) :
    ∃ bus, action m.bus = .ok value bus ∧ next = { m with bus } := by
  unfold Machine.onBus at h
  split at h
  · next found bus ha =>
    cases h
    exact ⟨bus, ha, rfl⟩
  · cases h

theorem Machine.onBus_error {action : BusM wiring α} {failure : Failure} {bus : Bus wiring}
    (h : action m.bus = .error failure bus) : onBus action m = .error failure { m with bus } := by
  simp only [onBus, h]

theorem Machine.Tracks.record (h : m.Tracks s) (kind : AccessKind) (address data : Int) :
    Machine.Tracks { m with bus := m.bus.record kind address data }
      (s.record kind address data) where
  cpu := h.cpu
  memory := h.memory.congr rfl rfl
  ports := h.ports
  input := h.input
  output := h.output
  interactive := h.interactive
  status := h.status
  stepCount := h.stepCount
  log := by simp only [Bus.record, Flat.record, h.log]

theorem Machine.Tracks.withCpu (h : m.Tracks s) (pc : Int) (flags : Nat)
    (registers : Vector UInt8 registerCount) :
    Machine.Tracks
      { m with cpu := ⟨pc, flags, registers.map fun byte => (byte.toNat : Int)⟩ }
      { s with pc, flags, registers } :=
  ⟨⟨rfl, h.memory, h.ports, h.input, h.output, h.interactive, h.status, h.stepCount⟩, h.log⟩

theorem registerSlot_below {index : Nat} (hi : index < registerCount) :
    registerSlot? index = some ⟨index, hi⟩ := by
  have hin : (0 : Int) ≤ index ∧ (index : Int) < registerCount := by omega
  simp only [registerSlot?, dif_pos hin, Int.toNat_natCast]

theorem readCell_refines (index : Nat) :
    Refines ByteValue (readCell index) (Flat.load index) := by
  intro m s h
  unfold readCell Flat.load
  by_cases hi : index < registerCount
  · rw [if_pos (by omega), dif_pos hi, readRegister, registerSlot_below hi]
    exact .ok (h.register index hi) h
  · rw [if_neg (by omega), dif_neg hi]
    by_cases ha : index < s.memory.length
    · have hb : s.memory[index]? = some s.memory[index] := List.getElem?_eq_getElem ha
      rw [Flat.readByte_ok hb, onBus_ok]
      · exact .ok rfl (h.record ..)
      · rw [bind_ok (h.memory.requireInside_ok ha), bind_ok (h.memory.read hb)]
        rfl
    · rw [Flat.readByte_fault ha, onBus_error (bind_error (h.memory.requireInside_error ha))]
      exact .fault h

theorem writeCell_refines (index : Nat) {data : Int} {byte : UInt8}
    (hd : UInt8.ofInt data = byte) :
    Refines Unrelated (writeCell index data) (Flat.store index byte) := by
  intro m s h
  have hv : data % 256 = byte.toNat := by rw [← hd, toNat_ofInt]
  unfold writeCell Flat.store
  rw [hv]
  by_cases hi : index < registerCount
  · rw [if_pos (by omega), dif_pos hi, writeRegister, registerSlot_below hi]
    have ht := h.withCpu s.pc s.flags (s.registers.set index byte)
    rw [Vector.map_set] at ht
    rw [h.cpu]
    exact .ok trivial ht
  · rw [if_neg (by omega), dif_neg hi]
    unfold Flat.writeByte
    by_cases ha : index < s.memory.length
    · obtain ⟨devices, hw, hm⟩ := h.memory.write ha (byte_range byte)
      rw [ofInt_toNat] at hm
      rw [if_pos ha, onBus_ok ((bind_ok (h.memory.requireInside_ok ha)).trans hw)]
      have hn : Machine.Tracks { m with bus := { m.bus with devices } }
          { s with memory := s.memory.set index byte } :=
        ⟨⟨h.cpu, hm, h.ports, h.input, h.output, h.interactive, h.status, h.stepCount⟩, h.log⟩
      exact .ok trivial (hn.record ..)
    · rw [if_neg ha, onBus_error (bind_error (h.memory.requireInside_error ha))]
      exact .fault h

section Ports

theorem lookup_filter_apart {β : Type} {entries : List (Int × β)} {channel other : Int}
    (ho : other ≠ channel) :
    (entries.filter (·.1 ≠ channel)).lookup other = entries.lookup other := by
  induction entries with
  | nil => rfl
  | cons first rest ih =>
    by_cases hf : first.1 = channel
    · have hne : (other == first.1) = false := by
        rw [hf]
        exact beq_false_of_ne ho
      rw [List.filter_cons_of_neg (by simpa using hf), ih, List.lookup_cons, hne]
    · rw [List.filter_cons_of_pos (by simpa using hf), List.lookup_cons, List.lookup_cons, ih]

theorem lookup_setPort {h : Hardware} {ports : List (Int × h.Port)} {channel : Int}
    {port : h.Port} (hp : ports.lookup channel = some port) (other : Int) :
    (Bus.setPort ports channel port).lookup other = ports.lookup other := by
  unfold Bus.setPort
  by_cases ho : other = channel
  · subst ho
    simp [hp]
  · rw [List.lookup_cons, beq_false_of_ne ho]
    exact lookup_filter_apart ho

variable {channel : Int} {port : ConsolePort} {bus : Bus wiring}

theorem receive_ok (hp : bus.port? channel = some port) :
    Bus.receive channel bus = .ok (port.read bus.shared).1
      ({ bus with
        ports := Bus.setPort bus.ports channel port
        shared := (port.read bus.shared).2 }.record .ioRead channel (port.read bus.shared).1) := by
  simp only [Bus.receive, hp]

theorem send_ok (hp : bus.port? channel = some port) (data : Int) :
    Bus.send channel data bus = .ok ()
      ({ bus with
        ports := Bus.setPort bus.ports channel port
        shared := port.write bus.shared data }.record .ioWrite channel data) := by
  simp only [Bus.send, hp]

theorem Machine.Tracks.exchange (h : m.Tracks s) (hp : m.bus.port? channel = some port)
    {next : Console} {rest written : List UInt8} (hx : m.console.Exchanges next rest written) :
    Machine.Tracks
      { m with bus := { m.bus with ports := Bus.setPort m.bus.ports channel port, shared := next } }
      { s with input := rest, output := s.output ++ written } where
  cpu := h.cpu
  memory := h.memory.congr rfl rfl
  ports := fun other => (lookup_setPort hp other).trans (h.ports other)
  input := hx.remaining
  output := hx.programOutput.trans (congrArg (· ++ written) h.output)
  interactive := hx.interactive.trans h.interactive
  status := h.status
  stepCount := h.stepCount
  log := h.log

theorem consolePort_cases (channel : UInt8) :
    (channel = 0 ∧ consolePort? channel.toNat = some .character) ∨
      (channel = 1 ∧ consolePort? channel.toNat = some .numeric) ∨
      (channel ≠ 0 ∧ channel ≠ 1 ∧ consolePort? channel.toNat = none) := by
  by_cases h0 : channel = 0
  · subst h0
    exact Or.inl ⟨rfl, rfl⟩
  by_cases h1 : channel = 1
  · subst h1
    exact Or.inr (Or.inl ⟨rfl, rfl⟩)
  · have hn0 : channel.toNat ≠ 0 := fun h => h0 (UInt8.toNat_inj.mp h)
    have hn1 : channel.toNat ≠ 1 := fun h => h1 (UInt8.toNat_inj.mp h)
    refine Or.inr (Or.inr ⟨h0, h1, ?_⟩)
    unfold consolePort?
    rw [if_neg (by omega), if_neg (by omega)]

theorem receive_refines (channel : UInt8) :
    Refines (fun data byte => UInt8.ofInt data = byte) (onBus (Bus.receive channel.toNat))
      (Flat.receive channel) := by
  intro m s h
  have hp := h.ports channel.toNat
  unfold Flat.receive
  rcases consolePort_cases channel with ⟨rfl, hc⟩ | ⟨rfl, hc⟩ | ⟨h0, h1, hc⟩
  · obtain ⟨hvalue, hx⟩ := ConsolePort.read_character m.console
    rw [h.input] at hvalue hx
    rw [onBus_ok (receive_ok (hp.trans hc)), if_pos rfl, ← hvalue]
    have ht := (h.exchange (hp.trans hc) hx).record .ioRead 0
      (ConsolePort.character.read m.console).1
    rw [List.append_nil] at ht
    exact .ok rfl ht
  · obtain ⟨hvalue, hx⟩ := ConsolePort.read_numeric m.console
    rw [h.input] at hvalue hx
    rw [ConsolePort.prompt, h.interactive] at hx
    rw [onBus_ok (receive_ok (hp.trans hc)), if_neg (by decide), if_pos rfl, ← hvalue]
    exact .ok rfl ((h.exchange (hp.trans hc) hx).record ..)
  · have hn : Bus.receive channel.toNat m.bus =
        .error (.fault (.unsupportedChannel channel.toNat)) m.bus := by
      simp only [Bus.receive, hp, hc]
    rw [if_neg h0, if_neg h1, onBus_error hn]
    exact .fault h

theorem send_refines (channel byte : UInt8) :
    Refines Unrelated (onBus (Bus.send channel.toNat byte.toNat)) (Flat.send channel byte) := by
  intro m s h
  have hp := h.ports channel.toNat
  unfold Flat.send
  rcases consolePort_cases channel with ⟨rfl, hc⟩ | ⟨rfl, hc⟩ | ⟨h0, h1, hc⟩
  · have hx := ConsolePort.write_character m.console byte.toNat
    rw [h.input, ofInt_toNat] at hx
    rw [onBus_ok (send_ok (hp.trans hc) _), if_pos rfl]
    exact .ok trivial ((h.exchange (hp.trans hc) hx).record ..)
  · have hx := ConsolePort.write_numeric m.console byte.toNat
    rw [h.input] at hx
    rw [onBus_ok (send_ok (hp.trans hc) _), if_neg (by decide), if_pos rfl]
    exact .ok trivial ((h.exchange (hp.trans hc) hx).record ..)
  · have hn : Bus.send channel.toNat byte.toNat m.bus =
        .error (.fault (.unsupportedChannel channel.toNat)) m.bus := by
      simp only [Bus.send, hp, hc]
    rw [if_neg h0, if_neg h1, onBus_error hn]
    exact .fault h

end Ports

end ByteMachine
