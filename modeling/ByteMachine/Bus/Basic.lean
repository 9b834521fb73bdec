import ByteMachine.Bus.Hardware
import ByteMachine.Bus.Ram

/-!
The bus.  Devices are registered for ranges of addresses, ports for channel numbers.  An address
belongs to the first registered range that covers it.  Successful reads and writes are logged in
order; an operation that fails logs nothing and changes nothing.
-/

namespace ByteMachine

inductive AccessKind where
  | read
  | write
  | ioRead
  | ioWrite
  deriving DecidableEq, Repr

structure Access where
  kind : AccessKind
  address : Int
  data : Int
  deriving DecidableEq, Repr

inductive Device (h : Hardware) where
  | ram (memory : Ram)
  | peripheral (device : h.Peripheral)

structure Region where
  first : Nat
  last : Nat
  device : Nat
  deriving DecidableEq, Repr

def Region.Covers (region : Region) (address : Int) : Prop :=
  region.first ≤ address ∧ address ≤ region.last

instance (region : Region) (address : Int) : Decidable (region.Covers address) :=
  inferInstanceAs (Decidable (_ ∧ _))

structure Bus (h : Hardware) where
  devices : Array (Device h) := #[]
  regions : List Region := []
  ports : List (Int × h.Port) := []
  log : List Access := []
  shared : h.Shared

/-- Bus operations keep the bus when they fail. -/
abbrev BusM (h : Hardware) := EStateM Failure (Bus h)

namespace Bus

variable {h : Hardware}

def addDevice (device : Device h) : BusM h Nat := fun bus =>
  .ok bus.devices.size { bus with devices := bus.devices.push device }

/-- Registers a device for a range.  A memory has to fill its range exactly.  Ranges may overlap. -/
def register (first last : Int) (device : Nat) : BusM h Unit := fun bus =>
  if 0 ≤ first ∧ first ≤ last then
    let region : Region := ⟨first.toNat, last.toNat, device⟩
    let length := region.last - region.first + 1
    match bus.devices[device]? with
    | none => .error .notDevice bus
    | some (.ram memory) =>
      if memory.size = length then .ok () { bus with regions := bus.regions ++ [region] }
      else .error (.sizeMismatch memory.size length) bus
    | some (.peripheral _) => .ok () { bus with regions := bus.regions ++ [region] }
  else .error .invalidRange bus

def setPort (ports : List (Int × h.Port)) (channel : Int) (port : h.Port) :
    List (Int × h.Port) :=
  (channel, port) :: ports.filter (·.1 ≠ channel)

/-- Connects a port in place of the one the channel had before. -/
def connect (channel : Int) (port : Option h.Port) : BusM h Unit := fun bus =>
  match port with
  | none => .error .notPort bus
  | some port => .ok () { bus with ports := setPort bus.ports channel port }

def port? (bus : Bus h) (channel : Int) : Option h.Port := bus.ports.lookup channel

def memorySize (bus : Bus h) : Nat :=
  bus.regions.foldl (fun size region => max size (region.last + 1)) 0

def locate (bus : Bus h) (address : Int) : Option (Nat × Device h × Int) := do
  let region ← bus.regions.find? (·.Covers address)
  let device ← bus.devices[region.device]?
  return (region.device, device, address - region.first)

def setDevice (bus : Bus h) (index : Nat) (device : Device h) : Bus h :=
  { bus with devices := bus.devices.setIfInBounds index device }

def record (bus : Bus h) (kind : AccessKind) (address data : Int) : Bus h :=
  { bus with log := bus.log ++ [⟨kind, address, data⟩] }

def peek (address : Int) : BusM h UInt8 := fun bus =>
  match bus.locate address with
  | none => .error (.unmapped address) bus
  | some (_, .ram memory, offset) =>
    match memory.read offset with
    | .ok byte => .ok byte bus
    | .error e => .error e bus
  | some (index, .peripheral device, offset) =>
    let (byte, device) := h.readPeripheral device offset
    .ok byte (bus.setDevice index (.peripheral device))

def load (address data : Int) : BusM h Unit := fun bus =>
  match bus.locate address with
  | none => .error (.unmapped address) bus
  | some (index, .ram memory, offset) =>
    match memory.write offset data with
    | .ok memory => .ok () (bus.setDevice index (.ram memory))
    | .error e => .error e bus
  | some (index, .peripheral device, offset) =>
    .ok () (bus.setDevice index (.peripheral (h.writePeripheral device offset data)))

def logged (kind : AccessKind) (address data : Int) : BusM h Unit :=
  modify (·.record kind address data)

def read (address : Int) : BusM h UInt8 := do
  let byte ← peek address
  logged .read address byte.toNat
  return byte

def write (address data : Int) : BusM h Unit := do
  load address data
  logged .write address data

def receive (channel : Int) : BusM h Int := fun bus =>
  match bus.port? channel with
  | none => .error (.fault (.unsupportedChannel channel)) bus
  | some port =>
    let (data, port, shared) := h.readPort port bus.shared
    .ok data ({ bus with ports := setPort bus.ports channel port, shared }.record
      .ioRead channel data)

def send (channel data : Int) : BusM h Unit := fun bus =>
  match bus.port? channel with
  | none => .error (.fault (.unsupportedChannel channel)) bus
  | some port =>
    let (port, shared) := h.writePort port bus.shared data
    .ok () ({ bus with ports := setPort bus.ports channel port, shared }.record
      .ioWrite channel data)

def takeLog : BusM h (List Access) := fun bus => .ok bus.log { bus with log := [] }

def peekRange (address : Int) : Nat → BusM h (List UInt8)
  | 0 => return []
  | count + 1 => do
    let byte ← peek address
    let rest ← peekRange (address + 1) count
    return byte :: rest

/-- All of memory; fails at the first gap. -/
def contents : BusM h (List UInt8) := do peekRange 0 (← get).memorySize

def loadRange (address : Int) : List UInt8 → BusM h Unit
  | [] => return ()
  | byte :: rest => do
    load address byte.toNat
    loadRange (address + 1) rest

end Bus

end ByteMachine
