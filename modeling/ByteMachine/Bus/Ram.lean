import ByteMachine.Fault

/-!
Memory.  A memory has at least one cell, every cell holds one byte, and all cells start at zero.
-/

namespace ByteMachine

structure Ram where
  cells : Array UInt8
  deriving DecidableEq, Repr

namespace Ram

/-- A size that is no integer at all is refused like one that is not positive. -/
def create (size : Option Int) : Except Failure Ram :=
  match size with
  | some n => if 0 < n then .ok ⟨Array.replicate n.toNat 0⟩ else .error .ramSize
  | none => .error .ramSize

def size (ram : Ram) : Nat := ram.cells.size

def read (ram : Ram) (address : Int) : Except Failure UInt8 :=
  if 0 ≤ address then
    match ram.cells[address.toNat]? with
    | some byte => .ok byte
    | none => .error (.outsideRam address ram.size)
  else .error (.outsideRam address ram.size)

/-- The address is checked before the data. -/
def write (ram : Ram) (address data : Int) : Except Failure Ram :=
  if 0 ≤ address ∧ address < ram.size then
    if 0 ≤ data ∧ data ≤ 255 then
      .ok ⟨ram.cells.setIfInBounds address.toNat (UInt8.ofInt data)⟩
    else .error (.notByte data)
  else .error (.outsideRam address ram.size)

end Ram

end ByteMachine
