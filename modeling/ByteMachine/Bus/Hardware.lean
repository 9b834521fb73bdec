/-!
The hardware around the bus: devices other than memory, ports, and whatever the ports share.  The
bus is the same for every choice of them.
-/

namespace ByteMachine

structure Hardware where
  Peripheral : Type
  Port : Type
  Shared : Type
  readPeripheral : Peripheral → Int → UInt8 × Peripheral
  writePeripheral : Peripheral → Int → Int → Peripheral
  readPort : Port → Shared → Int × Port × Shared
  writePort : Port → Shared → Int → Port × Shared

structure PatternDevice where
  pattern : Int → UInt8
  written : List (Int × Int) := []

structure ScriptedPort where
  values : List Int
  written : List Int := []
  deriving DecidableEq, Repr

namespace ScriptedPort

def read (port : ScriptedPort) : Int × ScriptedPort :=
  match port.values with
  | [] => (-1, port)
  | value :: rest => (value, { port with values := rest })

def write (port : ScriptedPort) (data : Int) : ScriptedPort :=
  { port with written := port.written ++ [data] }

end ScriptedPort

@[reducible] def bench : Hardware where
  Peripheral := PatternDevice
  Port := ScriptedPort
  Shared := Unit
  readPeripheral device offset := (device.pattern offset, device)
  writePeripheral device offset data :=
    { device with written := device.written ++ [(offset, data)] }
  readPort port shared := let (value, next) := port.read; (value, next, shared)
  writePort port shared data := (port.write data, shared)

end ByteMachine
