/-!
The header of an image file: four words of 32 bits, lowest byte first.
-/

namespace ByteMachine

def encodeWord (n : Int) : Option (List UInt8) :=
  if 0 ≤ n ∧ n < 0x100000000 then
    let n := n.toNat
    some [UInt8.ofNat n, UInt8.ofNat (n / 0x100), UInt8.ofNat (n / 0x10000),
      UInt8.ofNat (n / 0x1000000)]
  else none

def decodeWord (a b c d : UInt8) : Nat :=
  a.toNat + 0x100 * b.toNat + 0x10000 * c.toNat + 0x1000000 * d.toNat

structure Image.Header where
  magic : Int
  size : Int
  memorySize : Int
  pc : Int
  deriving DecidableEq, Repr

namespace Image.Header

def magicNumber : Nat := 0x2017

def byteCount : Nat := 16

def toBytes? (header : Image.Header) : Option (List UInt8) := do
  let magic ← encodeWord header.magic
  let size ← encodeWord header.size
  let memorySize ← encodeWord header.memorySize
  let pc ← encodeWord header.pc
  return magic ++ size ++ memorySize ++ pc

def ofBytes? (bytes : List UInt8) : Option Image.Header :=
  match bytes with
  | [a, b, c, d, e, f, g, h, i, j, k, l, m, n, o, p] =>
    some ⟨decodeWord a b c d, decodeWord e f g h, decodeWord i j k l, decodeWord m n o p⟩
  | _ => none

end Image.Header

end ByteMachine
