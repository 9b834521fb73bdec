import ByteMachine.Hex
import ByteMachine.Operand

/-!
What can go wrong.  A fault says that the running program is malformed; the machine records it and
stops.  Every other failure is an error of whoever drives the machine.
-/

namespace ByteMachine

inductive Fault where
  | pcOutside (pc : Int) (size : Nat)
  | indexOutside (index : Int) (size : Nat)
  | indirectOutside (index : Int)
  | literalTarget (operand : Operand)
  | unsupportedChannel (channel : Int)
  deriving DecidableEq, Repr

inductive Fault.Kind where
  | address
  | encoding
  | channel
  deriving DecidableEq, Repr

def Fault.kind : Fault → Fault.Kind
  | .pcOutside .. | .indexOutside .. | .indirectOutside .. => .address
  | .literalTarget .. => .encoding
  | .unsupportedChannel .. => .channel

def Fault.message : Fault → String
  | .pcOutside pc size => s!"pc {pc} is outside memory of size {size}"
  | .indexOutside index size => s!"address index {index} is outside memory of size {size}"
  | .indirectOutside index => s!"indirect index {index} cannot be encoded as an address"
  | .literalTarget operand => s!"operand {operand.text} must be an address, not a literal"
  | .unsupportedChannel channel => s!"Unsupported I/O channel {channel}"

inductive Failure where
  | fault (fault : Fault)
  | unmapped (address : Int)
  | outsideRam (address : Int) (size : Nat)
  | notByte (data : Int)
  | ramSize
  | invalidRange
  | notDevice
  | sizeMismatch (device range : Nat)
  | notPort
  | noSuchRegister (writing : Bool)
  | imageSize (image memory : Nat)
  deriving DecidableEq, Repr

namespace Failure

def isMisaddressed : Failure → Bool
  | .fault f => f.kind = .address
  | .unmapped _ | .outsideRam .. | .noSuchRegister _ => true
  | _ => false

def message : Failure → String
  | .fault f => f.message
  | .unmapped address => s!"Address {Hex.address address} not mapped to any device."
  | .outsideRam address size => s!"Address {address} out of bounds for RAM of size {size}."
  | .notByte data => s!"Data {data} is not an 8-bit value."
  | .ramSize => "RAM size must be a positive integer."
  | .invalidRange =>
    "Invalid address range: start_address must be <= end_address and non-negative."
  | .notDevice => "Device must be an instance of a class derived from Device."
  | .sizeMismatch device range =>
    s!"Registered RAM device size ({device} bytes) does not match the specified address range " ++
      s!"size ({range} bytes)."
  | .notPort => "I/O device must be an instance of a class derived from IoDevice."
  | .noSuchRegister true => "list assignment index out of range"
  | .noSuchRegister false => "list index out of range"
  | .imageSize image memory =>
    s!"image memory size {image} does not match bus memory size {memory}"

end Failure

end ByteMachine
