import ByteMachine.Proofs.Flat.View
import ByteMachine.Proofs.Machine.Steps

/-!
Running known code, from view to view.
-/

namespace ByteMachine.Flat

variable {code : List UInt8} {v v' v'' : View} {s : Flat}

def Executes (code : List UInt8) (v : View) (count : Nat) (v' : View) : Prop :=
  ∀ s : Flat, s.Fits code v →
    (s.after count).Fits code v' ∧ ∀ snapshot ∈ s.snapshots count, snapshot.fault = none

theorem after_add (s : Flat) (count more : Nat) :
    s.after (count + more) = (s.after count).after more := by
  induction count generalizing s with
  | zero => rw [Nat.zero_add]; rfl
  | succ count ih =>
    rw [Nat.succ_add]
    exact ih s.step.next

theorem snapshots_add (s : Flat) (count more : Nat) :
    s.snapshots (count + more) = s.snapshots count ++ (s.after count).snapshots more := by
  induction count generalizing s with
  | zero => rw [Nat.zero_add]; rfl
  | succ count ih =>
    rw [Nat.succ_add, snapshots, snapshots, ih]
    rfl

theorem Executes.trans {count more : Nat} (h : Executes code v count v')
    (k : Executes code v' more v'') : Executes code v (count + more) v'' := by
  intro s hs
  obtain ⟨ht, hfirst⟩ := h s hs
  obtain ⟨hu, hrest⟩ := k _ ht
  rw [after_add, snapshots_add]
  refine ⟨hu, ?_⟩
  intro snapshot hm
  rcases List.mem_append.mp hm with hm | hm
  · exact hfirst snapshot hm
  · exact hrest snapshot hm

section Step

variable {opcode : UInt8} {operands : List UInt8}

theorem Fits.code_at (hs : s.Fits code v) {place : Nat}
    (hc : (code.drop place).take (operands.length + 1) = opcode :: operands) :
    s.memory[place]? = some opcode ∧
      (s.memory.drop (place + 1)).take operands.length = operands ∧
      place + 1 + operands.length ≤ s.memory.length := by
  have hwhole := congrArg List.length hs.code
  have hpart := congrArg List.length hc
  rw [List.length_take] at hwhole
  rw [List.length_take, List.length_drop, List.length_cons] at hpart
  have hmemory : (s.memory.drop place).take (operands.length + 1) = opcode :: operands := by
    rw [← hc, ← hs.code, List.drop_take, List.take_take, Nat.min_eq_left (by omega)]
  have hlt : place < s.memory.length := by omega
  rw [List.drop_eq_getElem_cons hlt, List.take_succ_cons] at hmemory
  obtain ⟨hhead, htail⟩ := List.cons.inj hmemory
  exact ⟨by rw [List.getElem?_eq_getElem hlt, hhead], htail, by omega⟩

theorem executes_one (opcode : UInt8) (operands : List UInt8)
    (hc : (code.drop v.pc).take (operands.length + 1) = opcode :: operands)
    (hn : operands.length = operandCount opcode) (ho : ¬Stops opcode)
    (he : Reaches code { v with pc := v.pc + 1 + operands.length } (effect opcode operands) () v') :
    Executes code v 1 v' := by
  intro s hs
  have hquiet : Fits { s with activity := [] } code v :=
    ⟨hs.running, hs.pc, hs.flags, hs.code, hs.cells, hs.input⟩
  have hrun := step_of_running hs.running
  generalize ({ s with activity := [] } : Flat) = quiet at hquiet hrun
  obtain ⟨hb, hoperands, hl⟩ := hquiet.code_at hc
  rw [hn] at hl
  obtain ⟨activity, hf⟩ := fetchCode_ok hquiet.pc hb hl
  have hcode : quiet.operands v.pc opcode = operands := by
    rw [Flat.operands, ← hn, hoperands]
  rw [hcode] at hf
  obtain ⟨t, heffect, ht⟩ := he { quiet with pc := v.pc + 1 + operands.length, activity }
    ⟨hquiet.running, rfl, hquiet.flags, hquiet.code, hquiet.cells, hquiet.input⟩
  have hp := (perform_goes (s := { quiet with pc := v.pc + 1, activity }) ho operands).trans heffect
  rw [cycle_performed hf hp] at hrun
  constructor
  · change s.step.next.Fits code v'
    rw [hrun]
    exact ⟨ht.running, ht.pc, ht.flags, ht.code, ht.cells, ht.input⟩
  · intro snapshot hm
    rw [snapshots, snapshots, List.mem_singleton] at hm
    rw [hm, hrun]
    rfl

end Step

end ByteMachine.Flat
