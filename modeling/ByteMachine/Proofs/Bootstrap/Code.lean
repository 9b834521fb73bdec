import ByteMachine.Bootstrap
import ByteMachine.Proofs.Flat.View

/-!
The bytes of the bootstrap program, for every size of memory that it accepts.
-/

namespace ByteMachine

theorem encode_reference {index : Nat} (hi : index ≤ largestOperand) :
    Operand.encode (.reference index) = .ok (referenceByte index) := by
  unfold Operand.encode
  dsimp only
  rw [if_pos (by omega)]
  congr 1
  exact ofInt_natCast (index * 2)

theorem encode_literal {value : Nat} (hv : value ≤ largestOperand) :
    Operand.encode (.literal value) = .ok (literalByte value) := by
  unfold Operand.encode
  dsimp only
  rw [if_pos (by omega)]
  congr 1
  exact ofInt_natCast (value * 2 + 1)

namespace Bootstrap

variable {size : Nat}

def scratchCell (size : Nat) : Nat := size - variableCount

def restartCell (size : Nat) : Nat := scratchCell size - restartSize - 1

/-- The sizes of memory that have room for the program. -/
def Roomy (size : Nat) : Prop := 59 ≤ size ∧ size ≤ largestMemory

theorem Roomy.places (hs : Roomy size) :
    scratchCell size + 4 = size ∧ restartCell size + 8 = size ∧ 59 ≤ size ∧ size ≤ 128 := by
  unfold Roomy largestMemory at hs
  unfold restartCell restartSize scratchCell variableCount
  omega

theorem variablesAddress_eq (hlow : 8 ≤ size) : variablesAddress size = scratchCell size := by
  simp only [variablesAddress, scratchCell, variableCount]
  omega

theorem restartAddress_eq (hlow : 8 ≤ size) : restartAddress size = restartCell size := by
  simp only [restartAddress, restartCell, restartSize, variablesAddress, scratchCell, variableCount]
  omega

theorem scratchCell_le (hhigh : size ≤ largestMemory) : scratchCell size ≤ largestOperand := by
  simp only [largestMemory, largestOperand, scratchCell, variableCount] at *
  omega

theorem restartCell_lt (hhigh : size ≤ largestMemory) :
    restartCell size + 1 ≤ largestOperand := by
  simp only [largestMemory, largestOperand, restartCell, restartSize, scratchCell,
    variableCount] at *
  omega

def code (size : Nat) : List UInt8 :=
  [ 7, 1, referenceByte 1,
    7, 1, referenceByte 2,
    1, literalByte (scratchCell size), referenceByte 3,
    10, referenceByte 1, referenceByte 3,
    1, referenceByte 1, referenceByte 7,
    6, referenceByte 4,
    7, 1, referenceByte 5,
    10, referenceByte 5, referenceByte 7,
    2, literalByte 1, referenceByte 7,
    3, literalByte 1, referenceByte 2,
    4, 1, referenceByte 4,
    6, referenceByte (restartCell size),
    1, literalByte (restartCell size + 1), referenceByte 7,
    7, 1, referenceByte 2,
    7, 1, referenceByte 6,
    1, literalByte exitAddress, referenceByte 3,
    5, referenceByte (scratchCell size),
    0,
    5, referenceByte (restartCell size) ]

theorem code_length (size : Nat) : (code size).length = 51 := rfl

theorem program_eq (hlow : 8 ≤ size) (hhigh : size ≤ largestMemory) :
    program size = .ok (code size) := by
  have hv := variablesAddress_eq hlow
  have hr := restartAddress_eq hlow
  have hvl := scratchCell_le hhigh
  have hrl := restartCell_lt hhigh
  have hrl' : restartCell size ≤ largestOperand := by omega
  have hregister : ∀ index ≤ 7, (register index).encode = .ok (referenceByte index) := by
    intro index hi
    exact encode_reference (hi.trans (by decide))
  have hone : (Operand.literal 1).encode = .ok (literalByte 1) := encode_literal (by decide)
  have hexit : (Operand.literal exitAddress).encode = .ok (literalByte exitAddress) :=
    encode_literal (by decide)
  have hbehind : (Operand.literal (restartCell size + 1)).encode =
      .ok (literalByte (restartCell size + 1)) := encode_literal hrl
  simp only [program, instructions, hv, hr, List.mapM_cons, List.mapM_nil, Instruction.assemble,
    Instruction.arguments, Argument.encode, hone, hexit, hbehind, encode_literal hvl,
    encode_reference hvl, encode_reference hrl', Nat.reduceLeDiff, hregister]
  rfl

def memory (size : Nat) : List UInt8 := code size ++ List.replicate (size - 51) 0

theorem image_eq {size pc : Int} {built : Image} (h : image size pc = .ok built) :
    ∃ length : Nat, size = length ∧ Roomy length ∧ built = ⟨pc, memory length⟩ := by
  unfold image at h
  split at h
  · cases h
  next hsize =>
    split at h
    · cases h
    rw [not_not] at hsize
    obtain ⟨length, rfl⟩ := Int.eq_ofNat_of_zero_le (Int.le_of_lt hsize.1)
    have hhigh : length ≤ largestMemory := Int.ofNat_le.mp hsize.2
    split at h
    · cases h
    next bytes hprogram =>
      split at h
      · cases h
      next hroom =>
        unfold restartAddress variablesAddress variableCount restartSize at hroom
        have hlow : 8 ≤ length := by omega
        rw [program_eq hlow hhigh] at hprogram
        cases hprogram
        rw [code_length] at h hroom
        cases h
        exact ⟨length, rfl, ⟨by omega, hhigh⟩, rfl⟩

theorem image_roomy {pc : Int} (hs : Roomy size) (hpc : 0 ≤ pc ∧ pc < size) :
    image size pc = .ok ⟨pc, memory size⟩ := by
  obtain ⟨-, hrestart, hlow, hhigh⟩ := hs.places
  have hsize : 0 < (size : Int) ∧ (size : Int) ≤ largestMemory :=
    ⟨by omega, Int.ofNat_le.mpr hs.2⟩
  have hroom : ¬restartAddress size < (code size).length := by
    rw [restartAddress_eq (by omega), code_length]
    omega
  rw [image, if_neg (not_not.mpr hsize), if_neg (not_not.mpr hpc), program_eq (by omega) hs.2]
  dsimp only
  rw [if_neg hroom, Int.toNat_natCast, code_length]
  rfl

end Bootstrap

end ByteMachine
