import ByteMachine.Proofs.Flat.Straight

/-!
Faults of the fetch.  A running machine faults in the fetch exactly if its program counter lies
outside memory.  No instruction ends with a fault of this kind, so it can be told from the fault
alone whether an instruction had been fetched.
-/

namespace ByteMachine

/-- There was no opcode to be fetched. -/
def Fault.InFetch : Fault → Prop
  | .pcOutside .. => True
  | _ => False

namespace Flat

variable {α β : Type} {s : Flat} {action other : FlatM α} {f : α → FlatM β}

def Fetched (action : FlatM α) : Prop :=
  ∀ s t fault, action s = .error fault t → ¬fault.InFetch

namespace Fetched

theorem bind (ha : Fetched action) (hf : ∀ a, Fetched (f a)) : Fetched (action >>= f) := by
  intro s u fault he
  cases hx : action s with
  | ok a t =>
    rw [bind_ok hx] at he
    exact hf a _ _ _ he
  | error failure t =>
    rw [bind_error hx] at he
    cases he
    exact ha _ _ _ hx

theorem ite {c : Prop} [Decidable c] (ha : Fetched action) (ho : Fetched other) :
    Fetched (if c then action else other) := by
  by_cases hc : c
  · rw [if_pos hc]
    exact ha
  · rw [if_neg hc]
    exact ho

theorem pure (a : α) : Fetched (Pure.pure a) := fun _ _ _ he => nomatch he

theorem modify (g : Flat → Flat) : Fetched (modify g) := fun _ _ _ he => nomatch he

theorem get : Fetched (MonadState.get : FlatM Flat) := fun _ _ _ he => nomatch he

theorem throw {fault : Fault} (h : ¬fault.InFetch) :
    Fetched (MonadExcept.throw fault : FlatM α) := by
  intro s t failure he
  cases he
  exact h

theorem load (index : Nat) : Fetched (load index) := by
  intro s t fault he
  unfold Flat.load readByte at he
  split at he
  · cases he
  · split at he
    · cases he
    · cases he
      exact id

theorem store (index : Nat) (byte : UInt8) : Fetched (store index byte) := by
  intro s t fault he
  unfold Flat.store writeByte at he
  split at he
  · cases he
  · split at he
    · cases he
    · cases he
      exact id

theorem target (operand : UInt8) : Fetched (target operand) := (throw id).ite (pure _)

theorem value (operand : UInt8) : Fetched (value operand) := (pure _).ite (load _)

theorem valueAt (operand : UInt8) : Fetched (valueAt operand) := (target operand).bind load

theorem pointee (operand : UInt8) : Fetched (pointee operand) :=
  (valueAt operand).bind fun _ => (throw id).ite (pure _)

theorem receive (channel : UInt8) : Fetched (receive channel) := by
  intro s t fault he
  unfold Flat.receive at he
  split at he
  · cases he
  · split at he
    · cases he
    · cases he
      exact id

theorem send (channel byte : UInt8) : Fetched (send channel byte) := by
  intro s t fault he
  unfold Flat.send at he
  split at he
  · cases he
  · split at he
    · cases he
    · cases he
      exact id

theorem combine (operation : UInt8 → UInt8 → UInt8) (past : UInt8 → UInt8 → Bool)
    (source place : UInt8) : Fetched (combine operation past source place) := by
  refine (valueAt place).bind fun old => ?_
  refine (value source).bind fun delta => ?_
  refine (modify _).bind fun _ => ?_
  exact (target place).bind fun index => store index _

theorem effect (opcode : UInt8) (operands : List UInt8) : Fetched (effect opcode operands) := by
  unfold Flat.effect
  split
  case h_1 source place _ =>
    exact (value source).bind fun data => (target place).bind fun index => store index data
  case h_2 source place _ => exact combine _ _ source place
  case h_3 source place _ => exact combine _ _ source place
  case h_4 mask place _ =>
    refine (target place).bind fun index => get.bind fun s => ?_
    exact ((load index).bind fun byte => modify _).ite (pure _)
  case h_5 place _ => exact (valueAt place).bind fun byte => modify _
  case h_6 place _ => exact get.bind fun s => (target place).bind fun index => store index _
  case h_7 channel place _ =>
    exact (target place).bind fun index => (receive channel).bind (store index)
  case h_8 channel place _ => exact (valueAt place).bind (send channel)
  case h_9 source place _ =>
    refine (target place).bind fun index => ?_
    exact (pointee source).bind fun source => (load source).bind (store index)
  case h_10 source place _ =>
    exact (pointee place).bind fun index => (value source).bind (store index)
  case h_11 => exact pure _

end Fetched

end Flat

end ByteMachine
