import ByteMachine.Proofs.Effect
import ByteMachine.Proofs.Flat.Basic

/-!
The ways in which a cycle of the flat machine can go.  The accesses that are noted on the way are
left open.
-/

namespace ByteMachine.Flat

variable {s : Flat}

theorem readByte_ok {address : Nat} {byte : UInt8} (hb : s.memory[address]? = some byte) :
    readByte address s = .ok byte (s.record .read address byte.toNat) := by
  simp only [readByte, hb]

theorem readByte_fault {address : Nat} (ha : ¬address < s.memory.length) :
    readByte address s = .error (.indexOutside address s.memory.length) s := by
  simp only [readByte, List.getElem?_eq_none (Nat.le_of_not_lt ha)]

theorem readBytes_ok (count address : Nat) (hc : address + count ≤ s.memory.length) :
    ∃ activity, readBytes address count s =
      .ok ((s.memory.drop address).take count) { s with activity } := by
  induction count generalizing s address with
  | zero => exact ⟨s.activity, rfl⟩
  | succ count ih =>
    have ha : address < s.memory.length := by omega
    have hb : s.memory[address]? = some s.memory[address] := List.getElem?_eq_getElem ha
    obtain ⟨activity, hrest⟩ :=
      ih (s := s.record .read address s.memory[address].toNat) (address + 1)
        (by simp [record]; omega)
    refine ⟨activity, ?_⟩
    rw [readBytes, bind_ok (readByte_ok hb), bind_ok hrest, List.drop_eq_getElem_cons ha,
      List.take_succ_cons]
    rfl

theorem readBytes_short (count address : Nat) (ha : address ≤ s.memory.length)
    (hc : s.memory.length < address + count) :
    ∃ activity, readBytes address count s =
      .error (.indexOutside s.memory.length s.memory.length) { s with activity } := by
  induction count generalizing s address with
  | zero => omega
  | succ count ih =>
    rw [readBytes]
    by_cases hin : address < s.memory.length
    · have hb : s.memory[address]? = some s.memory[address] := List.getElem?_eq_getElem hin
      obtain ⟨activity, hrest⟩ := ih (s := s.record .read address s.memory[address].toNat)
        (address + 1) (by simp [record]; omega) (by simp [record]; omega)
      exact ⟨activity, (bind_ok (readByte_ok hb)).trans (bind_error hrest)⟩
    · have heq : address = s.memory.length := by omega
      have hf := readByte_fault (s := s) hin
      rw [heq] at hf ⊢
      exact ⟨s.activity, bind_error hf⟩

theorem fetchCode_outside (h : ¬(0 ≤ s.pc ∧ s.pc < s.memory.length)) :
    fetchCode s = .error (.pcOutside s.pc s.memory.length) s := by
  change (if 0 ≤ s.pc ∧ s.pc < s.memory.length then _ else throw _ : FlatM _) s = _
  rw [if_neg h]
  rfl

def operands (s : Flat) (place : Nat) (opcode : UInt8) : List UInt8 :=
  (s.memory.drop (place + 1)).take (operandCount opcode)

theorem operands_length {place : Nat} {opcode : UInt8}
    (hl : place + 1 + operandCount opcode ≤ s.memory.length) :
    (s.operands place opcode).length = operandCount opcode := by
  rw [operands, List.length_take, List.length_drop]
  omega

section Inside

variable {place : Nat} {opcode : UInt8}

theorem fetchCode_inside (hpc : s.pc = place) (hb : s.memory[place]? = some opcode) :
    fetchCode s = (do return (opcode, ← readBytes (place + 1) (operandCount opcode)))
      { s.record .read place opcode.toNat with pc := place + 1 } := by
  have hlt : place < s.memory.length := (List.getElem?_eq_some_iff.mp hb).1
  change (if 0 ≤ s.pc ∧ s.pc < s.memory.length then do
      let opcode ← readByte s.pc.toNat
      jump (s.pc + 1)
      return (opcode, ← readBytes (s.pc.toNat + 1) (operandCount opcode))
    else throw (.pcOutside s.pc s.memory.length) : FlatM (UInt8 × List UInt8)) s = _
  rw [if_pos (by omega), hpc, Int.toNat_natCast, bind_ok (readByte_ok hb)]
  rfl

theorem fetchCode_ok (hpc : s.pc = place) (hb : s.memory[place]? = some opcode)
    (hl : place + 1 + operandCount opcode ≤ s.memory.length) :
    ∃ activity, fetchCode s =
      .ok (opcode, s.operands place opcode) { s with pc := place + 1, activity } := by
  obtain ⟨activity, hr⟩ :=
    readBytes_ok (s := { s.record .read place opcode.toNat with pc := place + 1 }) _ _ hl
  rw [fetchCode_inside hpc hb]
  exact ⟨activity, bind_ok hr⟩

theorem fetchCode_short (hpc : s.pc = place) (hb : s.memory[place]? = some opcode)
    (hl : s.memory.length < place + 1 + operandCount opcode) :
    ∃ activity, fetchCode s =
      .error (.indexOutside s.memory.length s.memory.length)
        { s with pc := place + 1, activity } := by
  have hlt : place < s.memory.length := (List.getElem?_eq_some_iff.mp hb).1
  obtain ⟨activity, hr⟩ :=
    readBytes_short (s := { s.record .read place opcode.toNat with pc := place + 1 }) _ _ hlt hl
  rw [fetchCode_inside hpc hb]
  exact ⟨activity, bind_error hr⟩

end Inside

theorem Stops.operandCount {opcode : UInt8} (h : Stops opcode) : operandCount opcode = 0 := by
  rcases h with rfl | h
  · rfl
  · rw [UInt8.lt_iff_toNat_lt] at h
    unfold Flat.operandCount
    split
    all_goals simp_all

theorem Stops.effect {opcode : UInt8} (h : Stops opcode) (operands : List UInt8) :
    effect opcode operands = pure () := by
  rcases h with rfl | h
  · rfl
  · rw [UInt8.lt_iff_toNat_lt] at h
    unfold Flat.effect
    split
    all_goals simp_all

theorem perform_stops {opcode : UInt8} (h : Stops opcode) (operands : List UInt8) :
    perform (opcode, operands) s =
      .ok () { s with pc := s.pc + operands.length, status := .halted } := by
  change (effect opcode operands >>= fun _ =>
    if Stops opcode then modify ({ · with status := .halted }) else pure () : FlatM Unit)
      { s with pc := s.pc + operands.length } = _
  rw [h.effect, if_pos h]
  rfl

theorem perform_goes {opcode : UInt8} (h : ¬Stops opcode) (operands : List UInt8) :
    perform (opcode, operands) s =
      effect opcode operands { s with pc := s.pc + operands.length } := by
  change (effect opcode operands >>= fun _ =>
    if Stops opcode then modify ({ · with status := .halted }) else pure () : FlatM Unit)
      { s with pc := s.pc + operands.length } = _
  rw [if_neg h]
  cases hx : effect opcode operands { s with pc := s.pc + operands.length } with
  | ok a t => rw [bind_ok hx]; rfl
  | error fault t => rw [bind_error hx]

inductive Cycles (s : Flat) : Outcome → Prop where
  | outside (h : ¬(0 ≤ s.pc ∧ s.pc < s.memory.length)) :
      Cycles s ⟨s, none, some (.pcOutside s.pc s.memory.length)⟩
  | short {place : Nat} {opcode : UInt8} (hpc : s.pc = place)
      (hb : s.memory[place]? = some opcode)
      (hl : s.memory.length < place + 1 + operandCount opcode) (activity : List Access) :
      Cycles s ⟨{ s with pc := place + 1, activity }, none,
        some (.indexOutside s.memory.length s.memory.length)⟩
  | stop {place : Nat} {opcode : UInt8} (hpc : s.pc = place)
      (hb : s.memory[place]? = some opcode) (ho : Stops opcode) (activity : List Access) :
      Cycles s ⟨{ s with pc := place + 1, status := .halted, activity }, some (opcode, []), none⟩
  | effect {place : Nat} {opcode : UInt8} (hpc : s.pc = place)
      (hb : s.memory[place]? = some opcode) (ho : ¬Stops opcode)
      (hl : place + 1 + operandCount opcode ≤ s.memory.length) (activity : List Access)
      {next : Flat}
      (he : effect opcode (s.operands place opcode)
        { s with pc := place + 1 + operandCount opcode, activity } = .ok () next) :
      Cycles s ⟨next, some (opcode, s.operands place opcode), none⟩
  | fault {place : Nat} {opcode : UInt8} (hpc : s.pc = place)
      (hb : s.memory[place]? = some opcode) (ho : ¬Stops opcode)
      (hl : place + 1 + operandCount opcode ≤ s.memory.length) (activity : List Access)
      {fault : Fault} {next : Flat}
      (he : Flat.effect opcode (s.operands place opcode)
        { s with pc := place + 1 + operandCount opcode, activity } = .error fault next) :
      Cycles s ⟨next, some (opcode, s.operands place opcode), some fault⟩

theorem cycle_fault {fault : Fault} {next : Flat} (h : fetchCode s = .error fault next) :
    s.cycle = ⟨next, none, some fault⟩ := by
  simp only [cycle, h]

theorem cycle_performed {code : UInt8 × List UInt8} {t next : Flat}
    (h : fetchCode s = .ok code t) (hp : perform code t = .ok () next) :
    s.cycle = ⟨next, some code, none⟩ := by
  simp only [cycle, h, hp]

theorem cycle_failed {code : UInt8 × List UInt8} {fault : Fault} {t next : Flat}
    (h : fetchCode s = .ok code t) (hp : perform code t = .error fault next) :
    s.cycle = ⟨next, some code, some fault⟩ := by
  simp only [cycle, h, hp]

theorem cycle_cases (s : Flat) : s.Cycles s.cycle := by
  by_cases hin : 0 ≤ s.pc ∧ s.pc < s.memory.length
  · obtain ⟨place, hpc⟩ := Int.eq_ofNat_of_zero_le hin.1
    have hlt : place < s.memory.length := by omega
    have hb : s.memory[place]? = some s.memory[place] := List.getElem?_eq_getElem hlt
    generalize s.memory[place] = opcode at hb
    by_cases hl : place + 1 + operandCount opcode ≤ s.memory.length
    · obtain ⟨activity, hf⟩ := fetchCode_ok hpc hb hl
      by_cases ho : Stops opcode
      · have hp := perform_stops (s := { s with pc := place + 1, activity }) ho
          (s.operands place opcode)
        have hnone : s.operands place opcode = [] := by
          rw [operands, ho.operandCount, List.take_zero]
        rw [cycle_performed hf hp, hnone]
        simpa using Cycles.stop hpc hb ho activity
      · have hp := perform_goes (s := { s with pc := place + 1, activity }) ho
          (s.operands place opcode)
        rw [operands_length hl] at hp
        cases he : Flat.effect opcode (s.operands place opcode)
            { s with pc := place + 1 + operandCount opcode, activity } with
        | ok _ next =>
          rw [cycle_performed hf (hp.trans he)]
          exact .effect hpc hb ho hl activity he
        | error fault next =>
          rw [cycle_failed hf (hp.trans he)]
          exact .fault hpc hb ho hl activity he
    · obtain ⟨activity, hf⟩ := fetchCode_short hpc hb (by omega)
      rw [cycle_fault hf]
      exact .short hpc hb (by omega) activity
  · rw [cycle_fault (fetchCode_outside hin)]
    exact .outside hin

theorem step_of_running (hr : s.status = .running) :
    s.step =
      let outcome := cycle { s with activity := [] }
      { outcome with next := { outcome.next with
        status := if outcome.fault = none then outcome.next.status else .faulted
        stepCount := outcome.next.stepCount + 1 } } := by
  rw [step, if_pos hr]

theorem step_stops {place : Nat} {opcode : UInt8} (hr : s.status = .running) (hpc : s.pc = place)
    (hb : s.memory[place]? = some opcode) (ho : Stops opcode) :
    s.step.fault = none ∧ s.step.next.status = .halted ∧ s.step.next.pc = place + 1 ∧
      s.step.next.memory = s.memory := by
  have hlt : place < s.memory.length := (List.getElem?_eq_some_iff.mp hb).1
  have hl : place + 1 + operandCount opcode ≤ s.memory.length := by
    rw [ho.operandCount]
    omega
  obtain ⟨activity, hf⟩ := fetchCode_ok (s := { s with activity := [] }) hpc hb hl
  have hnone : operands { s with activity := [] } place opcode = [] := by
    rw [operands, ho.operandCount, List.take_zero]
  rw [hnone] at hf
  rw [step_of_running hr, cycle_performed hf (perform_stops ho [])]
  exact ⟨rfl, rfl, Int.add_zero _, rfl⟩

theorem step_of_stopped (hr : s.status ≠ .running) :
    s.step = ⟨{ s with activity := [] }, none, none⟩ := by
  rw [step, if_neg hr]

end ByteMachine.Flat
