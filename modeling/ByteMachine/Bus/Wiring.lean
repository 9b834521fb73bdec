import ByteMachine.Bus.Basic
import ByteMachine.Console

/-!
The bus of the machine: memory only, and ports that all lead to one console.
-/

namespace ByteMachine

@[reducible] def wiring : Hardware where
  Peripheral := Empty
  Port := ConsolePort
  Shared := Console
  readPeripheral device _ := nomatch device
  writePeripheral device _ _ := device
  readPort port console := let (data, console) := port.read console; (data, port, console)
  writePort port console data := (port, port.write console data)

end ByteMachine
