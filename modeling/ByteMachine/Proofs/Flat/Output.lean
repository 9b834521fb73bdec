import ByteMachine.Proofs.Machine.Steps

/-!
Output is only ever added to, and never looked at.  From states that differ in what has been written
before, the same steps are taken and the same is written from then on.
-/

namespace ByteMachine.Flat

variable {α β : Type} {action other : FlatM α} {f : α → FlatM β} {s : Flat}

def behind (before : List UInt8) (s : Flat) : Flat := { s with output := before ++ s.output }

def shifted (before : List UInt8) : EStateM.Result Fault Flat α → EStateM.Result Fault Flat α
  | .ok a s => .ok a (s.behind before)
  | .error fault s => .error fault (s.behind before)

def Unseeing (action : FlatM α) : Prop :=
  ∀ before s, action (s.behind before) = shifted before (action s)

namespace Unseeing

theorem pure (a : α) : Unseeing (Pure.pure a) := fun _ _ => rfl

theorem throw (fault : Fault) : Unseeing (MonadExcept.throw fault : FlatM α) := fun _ _ => rfl

theorem bind (ha : Unseeing action) (hf : ∀ a, Unseeing (f a)) : Unseeing (action >>= f) := by
  intro before s
  have hs := ha before s
  cases hx : action s with
  | ok a t =>
    rw [hx] at hs
    rw [bind_ok hs, bind_ok hx]
    exact hf a before t
  | error fault t =>
    rw [hx] at hs
    rw [bind_error hs, bind_error hx]
    rfl

theorem ite {c : Prop} [Decidable c] (ha : Unseeing action) (ho : Unseeing other) :
    Unseeing (if c then action else other) := by
  by_cases hc : c
  · rw [if_pos hc]
    exact ha
  · rw [if_neg hc]
    exact ho

theorem get {f : Flat → FlatM β} (hf : ∀ s, Unseeing (f s))
    (hsame : ∀ before s, f (s.behind before) = f s) : Unseeing (MonadState.get >>= f) := by
  intro before s
  change f (s.behind before) (s.behind before) = shifted before (f s s)
  rw [hsame]
  exact hf s before s

theorem altered {change : Flat → Flat}
    (hc : ∀ before s, change (s.behind before) = (change s).behind before) :
    Unseeing (modify change : FlatM Unit) := by
  intro before s
  exact congrArg (EStateM.Result.ok ()) (hc before s)

end Unseeing

section Operands

theorem readByte_unseeing (address : Nat) : Unseeing (readByte address) := by
  intro before s
  by_cases ha : address < s.memory.length
  · have hb : s.memory[address]? = some s.memory[address] := List.getElem?_eq_getElem ha
    rw [readByte_ok hb, readByte_ok (s := s.behind before) hb]
    rfl
  · rw [readByte_fault ha, readByte_fault (s := s.behind before) ha]
    rfl

theorem load_unseeing (index : Nat) : Unseeing (load index) := by
  intro before s
  unfold load
  by_cases hi : index < registerCount
  · rw [dif_pos hi, dif_pos hi]
    rfl
  · rw [dif_neg hi, dif_neg hi]
    exact readByte_unseeing index before s

theorem store_unseeing (index : Nat) (byte : UInt8) : Unseeing (store index byte) := by
  intro before s
  unfold store writeByte
  by_cases hi : index < registerCount
  · rw [dif_pos hi, dif_pos hi]
    rfl
  · rw [dif_neg hi, dif_neg hi]
    change (if index < s.memory.length then _ else _) = _
    by_cases ha : index < s.memory.length
    · rw [if_pos ha, if_pos ha]
      rfl
    · rw [if_neg ha, if_neg ha]
      rfl

theorem target_unseeing (operand : UInt8) : Unseeing (target operand) :=
  (Unseeing.throw _).ite (.pure _)

theorem value_unseeing (operand : UInt8) : Unseeing (value operand) :=
  (Unseeing.pure _).ite (load_unseeing _)

theorem valueAt_unseeing (operand : UInt8) : Unseeing (valueAt operand) :=
  (target_unseeing operand).bind load_unseeing

theorem pointee_unseeing (operand : UInt8) : Unseeing (pointee operand) :=
  (valueAt_unseeing operand).bind fun _ => (Unseeing.throw _).ite (.pure _)

theorem readBytes_unseeing (count address : Nat) : Unseeing (readBytes address count) := by
  induction count generalizing address with
  | zero => exact .pure []
  | succ count ih =>
    exact (readByte_unseeing address).bind fun _ => (ih (address + 1)).bind fun _ => .pure _

theorem jump_unseeing (pc : Int) : Unseeing (jump pc) := Unseeing.altered fun _ _ => rfl

theorem receive_unseeing (channel : UInt8) : Unseeing (receive channel) := by
  intro before s
  unfold receive
  by_cases h0 : channel = 0
  · rw [if_pos h0, if_pos h0]
    rfl
  by_cases h1 : channel = 1
  · rw [if_neg h0, if_pos h1, if_neg h0, if_pos h1]
    simp only [shifted, behind, record, List.append_assoc]
    rfl
  · rw [if_neg h0, if_neg h1, if_neg h0, if_neg h1]
    rfl

theorem send_unseeing (channel byte : UInt8) : Unseeing (send channel byte) := by
  intro before s
  unfold send
  by_cases h0 : channel = 0
  · rw [if_pos h0, if_pos h0]
    simp only [shifted, behind, record, List.append_assoc]
  by_cases h1 : channel = 1
  · rw [if_neg h0, if_pos h1, if_neg h0, if_pos h1]
    simp only [shifted, behind, record, List.append_assoc]
  · rw [if_neg h0, if_neg h1, if_neg h0, if_neg h1]
    rfl

end Operands

section Step

theorem combine_unseeing (operation : UInt8 → UInt8 → UInt8) (past : UInt8 → UInt8 → Bool)
    (source place : UInt8) : Unseeing (combine operation past source place) := by
  refine (valueAt_unseeing place).bind fun old => ?_
  refine (value_unseeing source).bind fun delta => ?_
  refine (Unseeing.altered fun _ _ => rfl).bind fun _ => ?_
  exact (target_unseeing place).bind fun index => store_unseeing index _

theorem effect_unseeing (opcode : UInt8) (operands : List UInt8) :
    Unseeing (effect opcode operands) := by
  unfold effect
  split
  case h_1 source place _ =>
    exact (value_unseeing source).bind fun data =>
      (target_unseeing place).bind fun index => store_unseeing index data
  case h_2 source place _ => exact combine_unseeing _ _ source place
  case h_3 source place _ => exact combine_unseeing _ _ source place
  case h_4 mask place _ =>
    refine (target_unseeing place).bind fun index => ?_
    refine Unseeing.get (fun s => ?_) fun _ _ => rfl
    exact ((load_unseeing index).bind fun byte => jump_unseeing byte.toNat).ite (.pure _)
  case h_5 place _ =>
    exact (valueAt_unseeing place).bind fun byte => jump_unseeing byte.toNat
  case h_6 place _ =>
    refine Unseeing.get (fun s => ?_) fun _ _ => rfl
    exact (target_unseeing place).bind fun index => store_unseeing index _
  case h_7 channel place _ =>
    refine (target_unseeing place).bind fun index => ?_
    exact (receive_unseeing channel).bind (store_unseeing index)
  case h_8 channel place _ => exact (valueAt_unseeing place).bind (send_unseeing channel)
  case h_9 source place _ =>
    refine (target_unseeing place).bind fun index => ?_
    refine (pointee_unseeing source).bind fun other => ?_
    exact (load_unseeing other).bind (store_unseeing index)
  case h_10 source place _ =>
    refine (pointee_unseeing place).bind fun index => ?_
    exact (value_unseeing source).bind (store_unseeing index)
  case h_11 => exact .pure _

theorem fetchCode_unseeing : Unseeing fetchCode := by
  refine Unseeing.get (fun s => ?_) fun _ _ => rfl
  refine Unseeing.ite ?_ (.throw _)
  refine (readByte_unseeing _).bind fun opcode => ?_
  refine (jump_unseeing _).bind fun _ => ?_
  exact (readBytes_unseeing _ _).bind fun operands => .pure _

theorem perform_unseeing (code : UInt8 × List UInt8) : Unseeing (perform code) := by
  refine Unseeing.get (fun s => ?_) fun _ _ => rfl
  refine (jump_unseeing _).bind fun _ => ?_
  refine (effect_unseeing code.1 code.2).bind fun _ => ?_
  exact (Unseeing.altered fun _ _ => rfl).ite (.pure _)

theorem cycle_behind (before : List UInt8) (s : Flat) :
    (s.behind before).cycle = { s.cycle with next := s.cycle.next.behind before } := by
  unfold cycle
  rw [fetchCode_unseeing before s]
  cases fetchCode s with
  | error fault t => rfl
  | ok code t =>
    dsimp only [shifted]
    rw [perform_unseeing code before t]
    cases perform code t <;> rfl

theorem step_behind (before : List UInt8) (s : Flat) :
    (s.behind before).step = { s.step with next := s.step.next.behind before } := by
  by_cases hr : s.status = .running
  · have hcycle : cycle { s.behind before with activity := [] } = _ :=
      cycle_behind before { s with activity := [] }
    rw [step_of_running hr, step_of_running (s := s.behind before) hr, hcycle]
    rfl
  · rw [step_of_stopped hr, step_of_stopped (s := s.behind before) hr]
    rfl

theorem after_behind (before : List UInt8) (s : Flat) (count : Nat) :
    (s.behind before).after count = (s.after count).behind before := by
  induction count generalizing s with
  | zero => rfl
  | succ count ih =>
    rw [after, step_behind]
    exact ih s.step.next

theorem snapshots_behind (before : List UInt8) (s : Flat) (count : Nat) :
    (s.behind before).snapshots count = s.snapshots count := by
  induction count generalizing s with
  | zero => rfl
  | succ count ih =>
    rw [snapshots, snapshots, step_behind]
    exact congrArg _ (ih s.step.next)

end Step

end ByteMachine.Flat
