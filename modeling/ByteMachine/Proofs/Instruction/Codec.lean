import ByteMachine.Instruction
import ByteMachine.Proofs.Byte
import Mathlib.Data.List.Forall2

/-!
Bytes of instructions.  An operand that fits beside its tag and its byte determine each other, and
so do an instruction and the bytes that it is assembled from.
-/

namespace ByteMachine

namespace Operand

def Fits : Operand → Prop
  | literal n | reference n => 0 ≤ n ∧ n ≤ largestOperand

instance (operand : Operand) : Decidable operand.Fits := by
  cases operand <;> unfold Fits <;> infer_instance

theorem encode_ofByte (byte : UInt8) : (ofByte byte).encode = .ok byte := by
  have hb := byte_range byte
  unfold ofByte decode
  split
  · rename_i htag
    have hin : 0 ≤ (byte.toNat : Int) / 2 ∧ (byte.toNat : Int) / 2 ≤ largestOperand := by
      unfold largestOperand
      omega
    have hbyte : (byte.toNat : Int) / 2 * 2 + 1 = byte.toNat := by omega
    rw [encode, if_pos hin, hbyte, ofInt_toNat]
  · have hin : 0 ≤ (byte.toNat : Int) / 2 ∧ (byte.toNat : Int) / 2 ≤ largestOperand := by
      unfold largestOperand
      omega
    have hbyte : (byte.toNat : Int) / 2 * 2 = byte.toNat := by omega
    rw [encode, if_pos hin, hbyte, ofInt_toNat]

theorem Fits.encode {operand : Operand} (hf : operand.Fits) :
    ∃ byte, operand.encode = .ok byte ∧ ofByte byte = operand := by
  cases operand with
  | literal n =>
    refine ⟨_, if_pos hf, ?_⟩
    have hbyte := toNat_ofInt (n * 2 + 1)
    have hn : 0 ≤ n ∧ n ≤ 127 := hf
    rw [ofByte, decode, if_pos (by omega)]
    congr 1
    omega
  | reference n =>
    refine ⟨_, if_pos hf, ?_⟩
    have hbyte := toNat_ofInt (n * 2)
    have hn : 0 ≤ n ∧ n ≤ 127 := hf
    rw [ofByte, decode, if_neg (by omega)]
    congr 1
    omega

end Operand

namespace Argument

/-- Every byte can stand untagged. -/
def Fits : Argument → Prop
  | operand o => o.Fits
  | raw _ => True

instance (argument : Argument) : Decidable argument.Fits := by
  cases argument <;> unfold Fits <;> infer_instance

def Encoded (arguments : List Argument) (bytes : List UInt8) : Prop :=
  List.Forall₂ (fun argument byte => argument.encode = .ok byte) arguments bytes

theorem Encoded.mapM {arguments : List Argument} {bytes : List UInt8}
    (h : Encoded arguments bytes) : arguments.mapM encode = .ok bytes := by
  induction h with
  | nil => rfl
  | cons hfirst _ ih =>
    rw [List.mapM_cons, hfirst, ih]
    rfl

end Argument

namespace Instruction

variable {opcode : UInt8} {bytes : List UInt8} {instruction : Instruction}

theorem assemble_encoded (h : Argument.Encoded instruction.arguments bytes) :
    instruction.assemble = .ok (instruction.opcode?.toList ++ bytes) := by
  rw [assemble, h.mapM]
  rfl

theorem ofBytes_spec (hh : ofBytes opcode.toNat bytes ≠ halt) :
    (ofBytes opcode.toNat bytes).opcode? = some opcode ∧
      Argument.Encoded (ofBytes opcode.toNat bytes).arguments bytes := by
  have hcode : ∀ code : UInt8, (opcode.toNat : Int) = code.toNat → some code = some opcode := by
    intro code hc
    rw [UInt8.toNat_inj.mp (Int.ofNat_inj.mp hc)]
  have hoperand : ∀ byte, Argument.encode (.operand (.ofByte byte)) = .ok byte :=
    Operand.encode_ofByte
  have hraw : ∀ byte, Argument.encode (.raw byte) = .ok byte := fun _ => rfl
  unfold ofBytes at hh ⊢
  split
  · exact ⟨hcode 0 ‹_›, .nil⟩
  · exact ⟨hcode 1 ‹_›, .cons (hoperand _) (.cons (hoperand _) .nil)⟩
  · exact ⟨hcode 2 ‹_›, .cons (hoperand _) (.cons (hoperand _) .nil)⟩
  · exact ⟨hcode 3 ‹_›, .cons (hoperand _) (.cons (hoperand _) .nil)⟩
  · exact ⟨hcode 4 ‹_›, .cons (hraw _) (.cons (hoperand _) .nil)⟩
  · exact ⟨hcode 5 ‹_›, .cons (hoperand _) .nil⟩
  · exact ⟨hcode 6 ‹_›, .cons (hoperand _) .nil⟩
  · exact ⟨hcode 7 ‹_›, .cons (hraw _) (.cons (hoperand _) .nil)⟩
  · exact ⟨hcode 8 ‹_›, .cons (hraw _) (.cons (hoperand _) .nil)⟩
  · exact ⟨hcode 9 ‹_›, .cons (hoperand _) (.cons (hoperand _) .nil)⟩
  · exact ⟨hcode 10 ‹_›, .cons (hoperand _) (.cons (hoperand _) .nil)⟩
  · rename_i hnone
    simp_all

theorem assemble_ofBytes (hh : ofBytes opcode.toNat bytes ≠ halt) :
    (ofBytes opcode.toNat bytes).assemble = .ok (opcode :: bytes) := by
  obtain ⟨hopcode, hencoded⟩ := ofBytes_spec hh
  rw [assemble_encoded hencoded, hopcode]
  rfl

/-- It is an instruction, and all that it carries fits into its bytes. -/
structure Fits (instruction : Instruction) : Prop where
  listed : instruction ≠ halt
  arguments : ∀ argument ∈ instruction.arguments, argument.Fits

theorem Fits.operand (hf : instruction.Fits) {operand : Operand}
    (hm : .operand operand ∈ instruction.arguments) :
    ∃ byte, Argument.encode (.operand operand) = .ok byte ∧ .ofByte byte = operand :=
  Operand.Fits.encode (hf.arguments _ hm)

theorem Fits.assemble (hf : instruction.Fits) :
    ∃ opcode bytes, instruction.assemble = .ok (opcode :: bytes) ∧
      bytes.length = operandCount opcode.toNat ∧ ofBytes opcode.toNat bytes = instruction := by
  have hraw : ∀ byte, Argument.encode (.raw byte) = .ok byte := fun _ => rfl
  cases instruction with
  | suspend => exact ⟨0, [], assemble_encoded .nil, rfl, rfl⟩
  | move a b | add a b | sub a b | loadAt a b | storeAt a b =>
    obtain ⟨first, ha, rfl⟩ := hf.operand (List.mem_cons_self ..)
    obtain ⟨second, hb, rfl⟩ := hf.operand (.tail _ (List.mem_cons_self ..))
    exact ⟨_, [first, second], assemble_encoded (.cons ha (.cons hb .nil)), rfl, rfl⟩
  | jumpUnless byte a | input byte a | output byte a =>
    obtain ⟨second, ha, rfl⟩ := hf.operand (.tail _ (List.mem_cons_self ..))
    exact ⟨_, [byte, second], assemble_encoded (.cons (hraw byte) (.cons ha .nil)), rfl, rfl⟩
  | jump a | storePc a =>
    obtain ⟨first, ha, rfl⟩ := hf.operand (List.mem_cons_self ..)
    exact ⟨_, [first], assemble_encoded (.cons ha .nil), rfl, rfl⟩
  | halt => exact absurd rfl hf.listed

end Instruction

end ByteMachine
