import ByteMachine.Proofs.Bus.Listing
import ByteMachine.Proofs.Byte
import ByteMachine.Proofs.Flat.Step
import ByteMachine.Proofs.Flat.Transition
import Mathlib.Tactic.Common

/-!
What the log of accesses tells.  From the memory before a step the log leads to the memory after it,
and what the step has written to the terminal can be read off the log.
-/

namespace ByteMachine

namespace Access

/-- Memory after an access.  There is none if the access is not true of this memory: a read that
shows something else, or a write of something that is no byte or has no place in memory. -/
def follow? (memory : List UInt8) (access : Access) : Option (List UInt8) :=
  match access.kind with
  | .read =>
    if 0 ≤ access.address ∧
        (memory[access.address.toNat]?.map fun byte => (byte.toNat : Int)) = some access.data then
      some memory
    else none
  | .write =>
    if (0 ≤ access.address ∧ access.address < memory.length) ∧
        0 ≤ access.data ∧ access.data ≤ 255 then
      some (memory.set access.address.toNat (.ofInt access.data))
    else none
  | .ioRead | .ioWrite => some memory

/-- What an access writes to the terminal: a byte on channel 0, a number in decimal on a line on
channel 1, and a prompt where a number is asked for. -/
def shown (interactive : Bool) (access : Access) : List UInt8 :=
  match access.kind with
  | .ioWrite =>
    if access.address = 0 then [.ofInt access.data]
    else if access.address = 1 then
      Console.asciiBytes (toString access.data) ++ [Console.lineFeed]
    else []
  | .ioRead => if access.address = 1 ∧ interactive then [63] else []
  | .read | .write => []

end Access

namespace Flat

variable {s t u : Flat} {log more : List Access}

/-- The log tells how the one state has become the other. -/
structure Tells (log : List Access) (s t : Flat) : Prop where
  activity : t.activity = s.activity ++ log
  memory : log.foldlM Access.follow? s.memory = some t.memory
  output : t.output = s.output ++ log.flatMap (Access.shown s.interactive)
  interactive : t.interactive = s.interactive

theorem Tells.trans (h : Tells log s t) (k : Tells more t u) : Tells (log ++ more) s u := by
  constructor
  · rw [k.activity, h.activity, List.append_assoc]
  · rw [List.foldlM_append, h.memory]
    exact k.memory
  · rw [k.output, h.output, h.interactive, List.flatMap_append, List.append_assoc]
  · rw [k.interactive, h.interactive]

theorem tells_nothing (ha : t.activity = s.activity) (hm : t.memory = s.memory)
    (ho : t.output = s.output) (hi : t.interactive = s.interactive) : Tells [] s t := by
  constructor
  · rw [ha, List.append_nil]
  · rw [hm]
    rfl
  · rw [ho]
    simp
  · exact hi

/-- The step from the one state to the other has its entries in the log. -/
def Logged (s t : Flat) : Prop := ∃ log, Tells log s t

theorem logged_nothing (ha : t.activity = s.activity) (hm : t.memory = s.memory)
    (ho : t.output = s.output) (hi : t.interactive = s.interactive) : Logged s t :=
  ⟨[], tells_nothing ha hm ho hi⟩

theorem logged_read {address : Nat} {byte : UInt8} (hb : s.memory[address]? = some byte) :
    Logged s (s.record .read address byte.toNat) := by
  refine ⟨[⟨.read, address, byte.toNat⟩], rfl, ?_, ?_, rfl⟩
  · simp [Access.follow?, hb, record]
  · simp [Access.shown, record]

theorem logged_write {address : Nat} (ha : address < s.memory.length) (byte : UInt8) :
    Logged s
      ({ s with memory := s.memory.set address byte }.record .write address byte.toNat) := by
  have hb := byte_range byte
  refine ⟨[⟨.write, address, byte.toNat⟩], rfl, ?_, ?_, rfl⟩
  · simp [Access.follow?, ha, hb, record]
  · simp [Access.shown, record]

theorem logged_exchange (kind : AccessKind) (channel data : Int) (input written : List UInt8)
    (hk : kind = .ioRead ∨ kind = .ioWrite)
    (hw : Access.shown s.interactive ⟨kind, channel, data⟩ = written) :
    Logged s ({ s with input, output := s.output ++ written }.record kind channel data) := by
  refine ⟨[⟨kind, channel, data⟩], rfl, ?_, ?_, rfl⟩
  · rcases hk with rfl | rfl <;> rfl
  · simp [hw, record]

theorem logged_receive (channel : UInt8) : Leads Logged (receive channel) := by
  intro s
  unfold receive
  by_cases h0 : channel = 0
  · rw [if_pos h0]
    have h := logged_exchange (s := s) .ioRead 0
      ((s.input.head?.map fun byte => (byte.toNat : Int)).getD (-1)) s.input.tail []
      (.inl rfl) rfl
    rw [List.append_nil] at h
    exact h
  by_cases h1 : channel = 1
  · rw [if_neg h0, if_pos h1]
    refine logged_exchange .ioRead 1 _ _ _ (.inl rfl) ?_
    simp [Access.shown]
  · rw [if_neg h0, if_neg h1]
    exact logged_nothing rfl rfl rfl rfl

theorem logged_send (channel byte : UInt8) : Leads Logged (send channel byte) := by
  intro s
  unfold send
  by_cases h0 : channel = 0
  · rw [if_pos h0]
    refine logged_exchange .ioWrite 0 byte.toNat s.input [byte] (.inr rfl) ?_
    simp [Access.shown]
  by_cases h1 : channel = 1
  · rw [if_neg h0, if_pos h1]
    refine logged_exchange .ioWrite 1 byte.toNat s.input _ (.inr rfl) ?_
    rfl
  · rw [if_neg h0, if_neg h1]
    exact logged_nothing rfl rfl rfl rfl

theorem logged_effects : AdmitsEffects Logged where
  refl s := logged_nothing rfl rfl rfl rfl
  trans := by
    rintro s t u ⟨log, h⟩ ⟨more, k⟩
    exact ⟨log ++ more, h.trans k⟩
  read := logged_read
  register s _ _ _ := logged_nothing rfl rfl rfl rfl
  write := logged_write
  flags s _ _ := logged_nothing rfl rfl rfl rfl
  jump _ s := logged_nothing rfl rfl rfl rfl
  receive := logged_receive
  send := logged_send

theorem logged_fetchCode : Leads Logged fetchCode :=
  logged_effects.fetchCode fun _ _ => logged_nothing rfl rfl rfl rfl

theorem logged_perform (code : UInt8 × List UInt8) : Leads Logged (perform code) := by
  have h := logged_effects
  refine h.bind h.get fun s => ?_
  refine h.bind (fun s => logged_nothing rfl rfl rfl rfl) fun _ => ?_
  refine h.bind (h.effect code.1 code.2) fun _ => ?_
  exact Leads.ite (fun s => logged_nothing rfl rfl rfl rfl) (h.pure _)

/-- A fault may come between any two accesses; the log is right up to there. -/
theorem cycle_logged (s : Flat) : Logged s s.cycle.next :=
  cycle_leads logged_fetchCode logged_perform id logged_effects.trans s

theorem step_tells (s : Flat) :
    Tells s.step.next.activity { s with activity := [] } s.step.next := by
  by_cases hr : s.status = .running
  · rw [step_of_running hr]
    obtain ⟨log, h⟩ := cycle_logged { s with activity := [] }
    have hlog : (cycle { s with activity := [] }).next.activity = log := h.activity
    rw [← hlog] at h
    exact ⟨h.activity, h.memory, h.output, h.interactive⟩
  · rw [step_of_stopped hr]
    exact tells_nothing rfl rfl rfl rfl

section Fetch

/-- The log has grown by one read for each byte of a stretch of memory, as far as memory goes. -/
def ReadThrough (address count : Nat) (s t : Flat) : Prop :=
  t.activity = s.activity ++ Access.reads address ((s.memory.drop address).take count)

theorem ReadThrough.cons {address count : Nat} {byte : UInt8} (hb : s.memory[address]? = some byte)
    (h : ReadThrough (address + 1) count (s.record .read address byte.toNat) t) :
    ReadThrough address (count + 1) s t := by
  obtain ⟨ha, rfl⟩ := List.getElem?_eq_some_iff.mp hb
  unfold ReadThrough at h ⊢
  rw [h, List.drop_eq_getElem_cons ha, List.take_succ_cons]
  simp [record, Access.reads]

theorem readThrough_end {address : Nat} (ha : s.memory.length ≤ address) (count : Nat) :
    ReadThrough address count s s := by
  unfold ReadThrough
  rw [List.drop_eq_nil_of_le ha]
  simp [Access.reads]

theorem readBytes_through (count address : Nat) :
    Leads (ReadThrough address count) (readBytes address count) := by
  induction count generalizing address with
  | zero =>
    intro s
    change s.activity = s.activity ++ Access.reads address (List.take 0 _)
    simp [Access.reads]
  | succ count ih =>
    intro s
    by_cases ha : address < s.memory.length
    · have hb : s.memory[address]? = some s.memory[address] := List.getElem?_eq_getElem ha
      have hrest := ih (address + 1) (s.record .read address s.memory[address].toNat)
      rw [readBytes, bind_ok (readByte_ok hb)]
      cases hx : readBytes (address + 1) count
          (s.record .read address s.memory[address].toNat) with
      | ok rest t =>
        rw [hx] at hrest
        rw [bind_ok hx]
        exact hrest.cons hb
      | error fault t =>
        rw [hx] at hrest
        rw [bind_error hx]
        exact hrest.cons hb
    · rw [readBytes, bind_error (readByte_fault ha)]
      exact readThrough_end (Nat.le_of_not_lt ha) _

theorem fetchCode_through {place : Nat} {opcode : UInt8} (hpc : s.pc = place)
    (hb : s.memory[place]? = some opcode) :
    match fetchCode s with
    | .ok _ t => ReadThrough place (operandCount opcode + 1) s t
    | .error _ t => ReadThrough place (operandCount opcode + 1) s t := by
  have hread := readBytes_through (operandCount opcode) (place + 1)
    { s.record .read place opcode.toNat with pc := place + 1 }
  rw [fetchCode_inside hpc hb]
  cases hx : readBytes (place + 1) (operandCount opcode)
      { s.record .read place opcode.toNat with pc := place + 1 } with
  | ok bytes t =>
    rw [hx] at hread
    rw [bind_ok hx]
    exact ReadThrough.cons hb hread
  | error fault t =>
    rw [hx] at hread
    rw [bind_error hx]
    exact ReadThrough.cons hb hread

theorem cycle_through {place : Nat} {opcode : UInt8} (hpc : s.pc = place)
    (hb : s.memory[place]? = some opcode) :
    ∃ t rest, ReadThrough place (operandCount opcode + 1) s t ∧
      s.cycle.next.activity = t.activity ++ rest := by
  have hf := fetchCode_through hpc hb
  unfold cycle
  cases hx : fetchCode s with
  | error fault t =>
    rw [hx] at hf
    exact ⟨t, [], hf, by simp⟩
  | ok code t =>
    rw [hx] at hf
    have hp := logged_perform code t
    dsimp only
    cases hy : perform code t with
    | error fault u =>
      rw [hy] at hp
      obtain ⟨rest, hp⟩ := hp
      exact ⟨t, rest, hf, hp.activity⟩
    | ok _ u =>
      rw [hy] at hp
      obtain ⟨rest, hp⟩ := hp
      exact ⟨t, rest, hf, hp.activity⟩

theorem step_activity {place : Nat} {opcode : UInt8} (hr : s.status = .running)
    (hpc : s.pc = place) (hb : s.memory[place]? = some opcode) :
    ∃ rest, s.step.next.activity = ⟨.read, place, opcode.toNat⟩ ::
      Access.reads (place + 1) (s.operands place opcode) ++ rest := by
  obtain ⟨t, rest, ht, hrest⟩ := cycle_through (s := { s with activity := [] }) hpc hb
  obtain ⟨ha, rfl⟩ := List.getElem?_eq_some_iff.mp hb
  refine ⟨rest, ?_⟩
  rw [step_of_running hr]
  change (cycle { s with activity := [] }).next.activity = _
  unfold ReadThrough at ht
  rw [hrest, ht, List.drop_eq_getElem_cons ha, List.take_succ_cons]
  rfl

end Fetch

end Flat

end ByteMachine
