import ConsoleBoard.Pair
import ConsoleBoard.Z80.Flags
import ConsoleBoard.Z80.Registers
import ConsoleBoard.Z80.Alu
import ConsoleBoard.Z80.Bus
import ConsoleBoard.Z80.Cpu
import ConsoleBoard.Z80.Instruction
import ConsoleBoard.Z80.Execute
import ConsoleBoard.Z80.Step
import ConsoleBoard.Z80.Cost
import ConsoleBoard.Z80.Run
import ConsoleBoard.Memory.Hold
import ConsoleBoard.Memory.Flat
import ConsoleBoard.Z80.FetchMap
import ConsoleBoard.Z80.Snapshot
import ConsoleBoard.Json.Reader
import ConsoleBoard.Json.Record
import ConsoleBoard.Z80.Snapshot.Record
import ConsoleBoard.Controller.Hub
import ConsoleBoard.Eeprom.Ports
import ConsoleBoard.Eeprom.Fault
import ConsoleBoard.Eeprom.Record
import ConsoleBoard.Bench.Basic
import ConsoleBoard.Error
import ConsoleBoard.Config.Build
import ConsoleBoard.Config.Record
import ConsoleBoard.Toml.Reader
import ConsoleBoard.Config.Layer
import ConsoleBoard.Config.Text
import ConsoleBoard.Config.File
import ConsoleBoard.Runner.Session
import ConsoleBoard.Main
import ConsoleBoard.Proofs.Z80.Spend
import ConsoleBoard.Proofs.Z80.Exec
import ConsoleBoard.Proofs.Z80.Session
import ConsoleBoard.Proofs.Z80.Requests
import ConsoleBoard.Proofs.Eeprom.Reaction
import ConsoleBoard.Proofs.Eeprom.Write
import ConsoleBoard.Proofs.Eeprom.Master
import ConsoleBoard.Proofs.Eeprom.Byte
import ConsoleBoard.Proofs.Eeprom.Part
import ConsoleBoard.Proofs.Eeprom.Transaction
import ConsoleBoard.Proofs.Eeprom.Host
import ConsoleBoard.Proofs.Eeprom.Confinement
import ConsoleBoard.Proofs.Eeprom.Refusal
import ConsoleBoard.Proofs.Eeprom.Dirty
import ConsoleBoard.Proofs.Eeprom.Standby
import ConsoleBoard.Proofs.Eeprom.Counter
import ConsoleBoard.Proofs.Eeprom.Bounds
import ConsoleBoard.Proofs.Z80.Control
import ConsoleBoard.Proofs.Z80.Reachable
import ConsoleBoard.Proofs.Z80.Restore
import ConsoleBoard.Proofs.Z80.Wake
import ConsoleBoard.Proofs.Z80.Chain
import ConsoleBoard.Proofs.Z80.Windows
import ConsoleBoard.Proofs.Z80.Prefixed
import ConsoleBoard.Proofs.Z80.Timing
import ConsoleBoard.Proofs.Z80.Group
import ConsoleBoard.Proofs.Controller.Acquisition
import ConsoleBoard.Proofs.Controller.SixButton
import ConsoleBoard.Proofs.Z80.Refresh
import ConsoleBoard.Proofs.Controller.Effect
import ConsoleBoard.Proofs.Controller.Rest
import ConsoleBoard.Proofs.Controller.Tristate
import ConsoleBoard.Proofs.Controller.Parallel
import ConsoleBoard.Proofs.Controller.Registers
import ConsoleBoard.Proofs.Controller.Reset
import ConsoleBoard.Proofs.Eeprom.Resume
import ConsoleBoard.Proofs.Eeprom.Edges
import ConsoleBoard.Proofs.Z80.Frame
import ConsoleBoard.Proofs.Config.Layer
import ConsoleBoard.Proofs.Config.Document
import ConsoleBoard.Proofs.Config.RoundTrip
import ConsoleBoard.Proofs.Console.InPlace
import ConsoleBoard.Proofs.Console.Refused
import ConsoleBoard.Proofs.Controller.Wiring
import ConsoleBoard.Proofs.Controller.Given
import ConsoleBoard.Proofs.Controller.Directions
import ConsoleBoard.Proofs.Z80.MemoryForm
import ConsoleBoard.Proofs.Z80.Displaced
import ConsoleBoard.Proofs.Controller.Holding
import ConsoleBoard.Proofs.Eeprom.Lanes
import ConsoleBoard.Proofs.Eeprom.Fault
import ConsoleBoard.Proofs.Z80.Repeat
import ConsoleBoard.Proofs.Z80.Transfer
import ConsoleBoard.Proofs.Z80.Search
import ConsoleBoard.Proofs.Z80.PortBlock
import ConsoleBoard.Proofs.Z80.FlagMasks
import ConsoleBoard.Proofs.Z80.WordSums
import ConsoleBoard.Proofs.Z80.Decimal
import ConsoleBoard.Proofs.Z80.Stack
import ConsoleBoard.Proofs.Z80.Faulted
import ConsoleBoard.Proofs.Z80.Banks
import ConsoleBoard.Proofs.Z80.Lookup
import ConsoleBoard.Proofs.Config.Machine
import ConsoleBoard.Proofs.Controller.Paddle
import ConsoleBoard.Proofs.Controller.Halves
import ConsoleBoard.Proofs.Memory.Stored
