import ByteMachine.Proofs.Flat.Cells

/-!
Every instruction has the effect that its bytes have on the flat machine.
-/

namespace ByteMachine

open Machine

theorem ofByte_odd {byte : UInt8} (h : byte.toNat % 2 = 1) :
    Operand.ofByte byte = .literal (byte.toNat / 2 : Nat) := by
  unfold Operand.ofByte Operand.decode
  rw [if_pos (by omega)]
  congr 1

theorem ofByte_even {byte : UInt8} (h : ¬byte.toNat % 2 = 1) :
    Operand.ofByte byte = .reference (byte.toNat / 2 : Nat) := by
  unfold Operand.ofByte Operand.decode
  rw [if_neg (by omega)]
  congr 1

theorem target_refines (byte : UInt8) :
    Refines IndexValue (referenceIndex (.ofByte byte)) (Flat.target byte) := by
  unfold Flat.target
  by_cases h : byte.toNat % 2 = 1
  · rw [ofByte_odd h, if_pos h]
    exact .throw _
  · rw [ofByte_even h, if_neg h]
    exact .pure rfl

theorem value_refines (byte : UInt8) :
    Refines ByteValue (evaluate (.ofByte byte)) (Flat.value byte) := by
  unfold Flat.value
  by_cases h : byte.toNat % 2 = 1
  · rw [ofByte_odd h, if_pos h]
    refine .pure ?_
    have := byte.toNat_lt
    unfold ByteValue
    rw [UInt8.toNat_ofNat_of_lt' (show byte.toNat / 2 < 256 by omega)]
  · rw [ofByte_even h, if_neg h]
    exact readCell_refines _

theorem readReference_refines (byte : UInt8) :
    Refines ByteValue (readReference (.ofByte byte)) (Flat.valueAt byte) := by
  refine (target_refines byte).bind ?_
  rintro index place rfl
  exact readCell_refines place

theorem store_refines (byte : UInt8) {data : Int} {stored : UInt8}
    (hd : UInt8.ofInt data = stored) :
    Refines Unrelated (store (.ofByte byte) data)
      (do Flat.store (← Flat.target byte) stored) := by
  refine (target_refines byte).bind ?_
  rintro index place rfl
  exact writeCell_refines place hd

theorem ByteValue.ofInt {data : Int} {byte : UInt8} (h : ByteValue data byte) :
    UInt8.ofInt data = byte := by
  rw [h, ofInt_toNat]

theorem resolve_refines (byte : UInt8) :
    Refines (fun operand place => operand = Operand.reference (place : Nat))
      (resolve (.ofByte byte)) (Flat.pointee byte) := by
  unfold resolve Flat.pointee
  refine (readReference_refines byte).bind ?_
  rintro pointed cell rfl
  by_cases h : largestOperand < cell.toNat
  · rw [if_pos h, if_pos (by omega)]
    exact .throw _
  · rw [if_neg h, if_neg (by omega)]
    exact .pure rfl

theorem setPc_refines (pc : Int) : Refines Unrelated (setPc pc) (Flat.jump pc) := by
  intro m s h
  change Agree Unrelated (.ok () { m with cpu := { m.cpu with pc } }) (.ok () { s with pc })
  rw [h.cpu]
  exact .ok trivial (h.withCpu pc s.flags s.registers)

theorem setFlags_refines (flags : Nat) :
    Refines Unrelated (setFlags flags) (modify ({ · with flags }) : FlatM Unit) := by
  intro m s h
  change Agree Unrelated (.ok () { m with cpu := { m.cpu with flags } }) (.ok () { s with flags })
  rw [h.cpu]
  exact .ok trivial (h.withCpu s.pc flags s.registers)

def ByteArithmetic (operation : Int → Int → Arithmetic.Outcome)
    (bytewise : UInt8 → UInt8 → UInt8) (past : UInt8 → UInt8 → Bool) : Prop :=
  ∀ old delta : UInt8, operation old.toNat delta.toNat =
    ⟨(bytewise old delta).toNat,
      ((if bytewise old delta = 0 then 1 else 0) +
        (if past (bytewise old delta) old then 2 else 0) : Nat)⟩

theorem ofBits_toNat (zero carry : Bool) :
    Flags.ofBits zero carry = ((if zero then 1 else 0) + (if carry then 2 else 0) : Nat) := by
  cases zero <;> cases carry <;> rfl

theorem add_bytewise : ByteArithmetic Arithmetic.add (· + ·) (fun new old => new < old) := by
  intro old delta
  have hnew : ((old.toNat : Int) + delta.toNat) % 256 = (old + delta).toNat := by
    rw [UInt8.toNat_add]
    omega
  simp only [Arithmetic.add, hnew, ofBits_toNat, decide_eq_true_eq, Int.natCast_eq_zero,
    toNat_eq_zero_iff, Int.ofNat_lt, UInt8.lt_iff_toNat_lt]

theorem sub_bytewise : ByteArithmetic Arithmetic.sub (· - ·) (fun new old => old < new) := by
  intro old delta
  have hlt := delta.toNat_lt
  have hnew : ((old.toNat : Int) - delta.toNat) % 256 = (old - delta).toNat := by
    rw [UInt8.toNat_sub]
    omega
  simp only [Arithmetic.sub, hnew, ofBits_toNat, decide_eq_true_eq, Int.natCast_eq_zero,
    toNat_eq_zero_iff, Int.ofNat_lt, UInt8.lt_iff_toNat_lt]

theorem combine_refines {operation : Int → Int → Arithmetic.Outcome}
    {bytewise : UInt8 → UInt8 → UInt8} {past : UInt8 → UInt8 → Bool}
    (ho : ByteArithmetic operation bytewise past) (a b : UInt8) :
    Refines Unrelated (executeArithmetic operation (.ofByte a) (.ofByte b))
      (Flat.combine bytewise past a b) := by
  refine (readReference_refines b).bind ?_
  rintro value old rfl
  refine (value_refines a).bind ?_
  rintro delta source rfl
  rw [ho]
  refine (setFlags_refines _).bind fun _ _ _ => ?_
  exact store_refines b (ofInt_toNat _)

theorem move_refines (a b : UInt8) :
    Refines Unrelated (execute (.move (.ofByte a) (.ofByte b))) (Flat.effect 1 [a, b]) := by
  refine (value_refines a).bind ?_
  intro data byte hd
  exact store_refines b hd.ofInt

theorem jumpUnless_refines (mask a : UInt8) :
    Refines Unrelated (execute (.jumpUnless mask (.ofByte a))) (Flat.effect 4 [mask, a]) := by
  refine (target_refines a).bind ?_
  rintro index place rfl
  intro m s h
  have hflags : Flags.masked m.cpu.flags mask = s.flags &&& mask.toNat := by
    have hf : ((s.flags : Int) % 256).toNat = s.flags % 256 := by omega
    rw [h.flags, Flags.masked, hf, mod_and_byte]
  change Agree Unrelated
    ((if Flags.masked m.cpu.flags mask = 0 then readCell place >>= setPc else pure ()) m)
    ((if s.flags &&& mask.toNat = 0 then Flat.load place >>= fun byte => Flat.jump byte.toNat
      else pure ()) s)
  rw [hflags]
  by_cases hz : s.flags &&& mask.toNat = 0
  · rw [if_pos hz, if_pos hz]
    refine (readCell_refines place).bind ?_ m s h
    rintro pc byte rfl
    exact setPc_refines _
  · rw [if_neg hz, if_neg hz]
    exact .ok trivial h

theorem jump_refines (a : UInt8) :
    Refines Unrelated (execute (.jump (.ofByte a))) (Flat.effect 5 [a]) := by
  refine (readReference_refines a).bind ?_
  rintro pc byte rfl
  exact setPc_refines _

theorem storePc_refines (a : UInt8) :
    Refines Unrelated (execute (.storePc (.ofByte a))) (Flat.effect 6 [a]) := by
  intro m s h
  have hpc : UInt8.ofInt m.cpu.pc = .ofInt s.pc := by rw [h.pc]
  have ht := store_refines a hpc
  exact ht m s h

theorem input_refines (channel a : UInt8) :
    Refines Unrelated (execute (.input channel (.ofByte a))) (Flat.effect 7 [channel, a]) := by
  refine (target_refines a).bind ?_
  rintro index place rfl
  refine (receive_refines channel).bind ?_
  intro data byte hd
  exact writeCell_refines place hd

theorem output_refines (channel a : UInt8) :
    Refines Unrelated (execute (.output channel (.ofByte a))) (Flat.effect 8 [channel, a]) := by
  refine (readReference_refines a).bind ?_
  rintro data byte rfl
  exact send_refines channel byte

theorem loadAt_refines (a b : UInt8) :
    Refines Unrelated (execute (.loadAt (.ofByte a) (.ofByte b))) (Flat.effect 9 [a, b]) := by
  refine (target_refines b).bind ?_
  rintro index place rfl
  refine (resolve_refines a).bind ?_
  rintro operand pointed rfl
  refine (readCell_refines pointed).bind ?_
  intro data byte hd
  exact writeCell_refines place hd.ofInt

theorem storeAt_refines (a b : UInt8) :
    Refines Unrelated (execute (.storeAt (.ofByte a) (.ofByte b))) (Flat.effect 10 [a, b]) := by
  refine (resolve_refines b).bind ?_
  rintro operand pointed rfl
  refine (value_refines a).bind ?_
  intro data byte hd
  exact writeCell_refines pointed hd.ofInt

theorem effect_refines (opcode : UInt8) (operands : List UInt8)
    (hc : operands.length = Flat.operandCount opcode) :
    Refines Unrelated (execute (Instruction.ofBytes opcode.toNat operands))
      (Flat.effect opcode operands) := by
  unfold Flat.operandCount at hc
  unfold Flat.effect
  generalize opcode.toNat = n at hc ⊢
  rcases n with _ | _ | _ | _ | _ | _ | _ | _ | _ | _ | _ | n
  · obtain rfl := List.eq_nil_of_length_eq_zero hc
    exact .pure trivial
  · obtain ⟨a, b, rfl⟩ := List.length_eq_two.mp hc
    exact move_refines a b
  · obtain ⟨a, b, rfl⟩ := List.length_eq_two.mp hc
    exact combine_refines add_bytewise a b
  · obtain ⟨a, b, rfl⟩ := List.length_eq_two.mp hc
    exact combine_refines sub_bytewise a b
  · obtain ⟨mask, a, rfl⟩ := List.length_eq_two.mp hc
    exact jumpUnless_refines mask a
  · obtain ⟨a, rfl⟩ := List.length_eq_one_iff.mp hc
    exact jump_refines a
  · obtain ⟨a, rfl⟩ := List.length_eq_one_iff.mp hc
    exact storePc_refines a
  · obtain ⟨channel, a, rfl⟩ := List.length_eq_two.mp hc
    exact input_refines channel a
  · obtain ⟨channel, a, rfl⟩ := List.length_eq_two.mp hc
    exact output_refines channel a
  · obtain ⟨a, b, rfl⟩ := List.length_eq_two.mp hc
    exact loadAt_refines a b
  · obtain ⟨a, b, rfl⟩ := List.length_eq_two.mp hc
    exact storeAt_refines a b
  · obtain rfl := List.eq_nil_of_length_eq_zero hc
    exact .pure trivial

end ByteMachine
