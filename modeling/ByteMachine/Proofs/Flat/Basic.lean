import ByteMachine.Machine.Step
import ByteMachine.Proofs.Console.Reading

/-!
The flat machine: eight registers and memory as plain bytes, the terminal as the bytes that are left
to read and the bytes written so far.  It has no bus, no ports and no decoded instructions.  An
opcode and its operand bytes are taken straight from memory.
-/

namespace ByteMachine

structure Flat where
  pc : Int
  flags : Nat
  registers : Vector UInt8 registerCount
  memory : List UInt8
  input : List UInt8
  output : List UInt8
  interactive : Bool
  status : Status
  stepCount : Nat
  activity : List Access

abbrev FlatM := EStateM Fault Flat

namespace Flat

def record (s : Flat) (kind : AccessKind) (address data : Int) : Flat :=
  { s with activity := s.activity ++ [⟨kind, address, data⟩] }

def readByte (address : Nat) : FlatM UInt8 := fun s =>
  match s.memory[address]? with
  | some byte => .ok byte (s.record .read address byte.toNat)
  | none => .error (.indexOutside address s.memory.length) s

def writeByte (address : Nat) (byte : UInt8) : FlatM Unit := fun s =>
  if address < s.memory.length then
    .ok () ({ s with memory := s.memory.set address byte }.record .write address byte.toNat)
  else .error (.indexOutside address s.memory.length) s

def load (index : Nat) : FlatM UInt8 := fun s =>
  if hi : index < registerCount then .ok s.registers[index] s else readByte index s

def store (index : Nat) (byte : UInt8) : FlatM Unit := fun s =>
  if hi : index < registerCount then .ok () { s with registers := s.registers.set index byte }
  else writeByte index byte s

def target (operand : UInt8) : FlatM Nat :=
  if operand.toNat % 2 = 1 then throw (.literalTarget (.literal (operand.toNat / 2 : Nat)))
  else return operand.toNat / 2

def value (operand : UInt8) : FlatM UInt8 :=
  if operand.toNat % 2 = 1 then return .ofNat (operand.toNat / 2) else load (operand.toNat / 2)

def valueAt (operand : UInt8) : FlatM UInt8 := do load (← target operand)

def pointee (operand : UInt8) : FlatM Nat := do
  let index ← valueAt operand
  if largestOperand < index.toNat then throw (.indirectOutside index.toNat)
  else return index.toNat

/-- Channel 0 gives a byte, or -1 at the end of input, channel 1 a number, or 0 if there is none.
All that is stored of it is the lowest byte. -/
def receive (channel : UInt8) : FlatM UInt8 := fun s =>
  if channel = 0 then
    let data : Int := (s.input.head?.map fun byte => (byte.toNat : Int)).getD (-1)
    .ok (.ofInt data) ({ s with input := s.input.tail }.record .ioRead 0 data)
  else if channel = 1 then
    let data := (Console.scanNumber s.input).1.getD 0
    let prompt : List UInt8 := if s.interactive then [63] else []
    .ok (.ofInt data)
      ({ s with
        input := (Console.scanNumber s.input).2
        output := s.output ++ prompt }.record .ioRead 1 data)
  else .error (.unsupportedChannel channel.toNat) s

/-- Channel 0 takes a byte, channel 1 writes it in decimal on a line. -/
def send (channel byte : UInt8) : FlatM Unit := fun s =>
  if channel = 0 then
    .ok () ({ s with output := s.output ++ [byte] }.record .ioWrite 0 byte.toNat)
  else if channel = 1 then
    let line := Console.asciiBytes (toString byte.toNat) ++ [10]
    .ok () ({ s with output := s.output ++ line }.record .ioWrite 1 byte.toNat)
  else .error (.unsupportedChannel channel.toNat) s

def jump (pc : Int) : FlatM Unit := modify ({ · with pc })

/-- Combines the target with the source and sets both flags, the lower one for a zero and the
higher one if the result went past the old value. -/
def combine (operation : UInt8 → UInt8 → UInt8) (past : UInt8 → UInt8 → Bool)
    (source place : UInt8) : FlatM Unit := do
  let old ← valueAt place
  let new := operation old (← value source)
  let flags := (if new = 0 then 1 else 0) + (if past new old then 2 else 0)
  modify ({ · with flags })
  store (← target place) new

/-- What an opcode does with the bytes behind it.  The pc stands behind them already. -/
def effect (opcode : UInt8) (operands : List UInt8) : FlatM Unit :=
  match opcode.toNat, operands with
  | 1, [source, place] => do
    let data ← value source
    store (← target place) data
  | 2, [source, place] => combine (· + ·) (fun new old => new < old) source place
  | 3, [source, place] => combine (· - ·) (fun new old => old < new) source place
  | 4, [mask, place] => do
    let index ← target place
    if (← get).flags &&& mask.toNat = 0 then jump (← load index).toNat
  | 5, [place] => do jump (← valueAt place).toNat
  | 6, [place] => do
    let pc := (← get).pc
    store (← target place) (.ofInt pc)
  | 7, [channel, place] => do
    let index ← target place
    store index (← receive channel)
  | 8, [channel, place] => do send channel (← valueAt place)
  | 9, [source, place] => do
    let index ← target place
    store index (← load (← pointee source))
  | 10, [source, place] => do
    let index ← pointee place
    store index (← value source)
  | _, _ => return ()

def operandCount (opcode : UInt8) : Nat :=
  match opcode.toNat with
  | 5 | 6 => 1
  | 1 | 2 | 3 | 4 | 7 | 8 | 9 | 10 => 2
  | _ => 0

def readBytes (address : Nat) : Nat → FlatM (List UInt8)
  | 0 => return []
  | count + 1 => do
    let byte ← readByte address
    let rest ← readBytes (address + 1) count
    return byte :: rest

/-- The opcode and its operands.  The pc moves past the opcode before the operands are looked at. -/
def fetchCode : FlatM (UInt8 × List UInt8) := do
  let s ← get
  if 0 ≤ s.pc ∧ s.pc < s.memory.length then
    let opcode ← readByte s.pc.toNat
    jump (s.pc + 1)
    let operands ← readBytes (s.pc.toNat + 1) (operandCount opcode)
    return (opcode, operands)
  else throw (.pcOutside s.pc s.memory.length)

/-- The suspend instruction and every byte outside the instruction set. -/
def Stops (opcode : UInt8) : Prop := opcode = 0 ∨ 10 < opcode

instance (opcode : UInt8) : Decidable (Stops opcode) := inferInstanceAs (Decidable (_ ∨ _))

def perform (code : UInt8 × List UInt8) : FlatM Unit := do
  jump ((← get).pc + code.2.length)
  effect code.1 code.2
  if Stops code.1 then modify ({ · with status := .halted })

/-- The machine after a step, the instruction if it could be fetched, and the fault if there was
one. -/
structure Outcome where
  next : Flat
  code : Option (UInt8 × List UInt8)
  fault : Option Fault

def cycle (s : Flat) : Outcome :=
  match fetchCode s with
  | .error fault s => ⟨s, none, some fault⟩
  | .ok code s =>
    match perform code s with
    | .error fault s => ⟨s, some code, some fault⟩
    | .ok () s => ⟨s, some code, none⟩

def step (s : Flat) : Outcome :=
  if s.status = .running then
    let outcome := cycle { s with activity := [] }
    let next := outcome.next
    let status := if outcome.fault = none then next.status else .faulted
    { outcome with next := { next with status, stepCount := next.stepCount + 1 } }
  else ⟨{ s with activity := [] }, none, none⟩

def after (s : Flat) : Nat → Flat
  | 0 => s
  | count + 1 => s.step.next.after count

end Flat

end ByteMachine
