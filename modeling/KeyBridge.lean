import KeyBridge.Wire.Frame
import KeyBridge.Wire.ShiftRegister
import KeyBridge.Command
import KeyBridge.Event
import KeyBridge.Config.Reader
import KeyBridge.Decoder
import KeyBridge.Diagnostic.Log
import KeyBridge.ByteRing
import KeyBridge.Device.AtKeyboard
import KeyBridge.Device
import KeyBridge.Coordinator
import KeyBridge.Bridge
import KeyBridge.Chip.Program
import KeyBridge.Chip.Pins
import KeyBridge.Chip.Request
import KeyBridge.Toml.Reader
import KeyBridge.Build.Script
import KeyBridge.Firmware.Schedule
import KeyBridge.Main
import KeyBridge.Proofs.List
import KeyBridge.Proofs.ByteRing.Invariant
import KeyBridge.Proofs.ByteRing.Queue
import KeyBridge.Proofs.Device.Visible
import KeyBridge.Proofs.Device.Epoch
import KeyBridge.Proofs.Device.Commands
import KeyBridge.Proofs.Port.Ring
import KeyBridge.Proofs.Decoder.Outputs
import KeyBridge.Proofs.Pipeline.Moves
import KeyBridge.Proofs.Bridge.Turn
import KeyBridge.Proofs.Pipeline.History
import KeyBridge.Proofs.Pipeline.Isolation
import KeyBridge.Proofs.Decoder.Keys
import KeyBridge.Proofs.Device.Typing
import KeyBridge.Proofs.Bridge.Delivery
import KeyBridge.Proofs.Text.Pieces
import KeyBridge.Proofs.Config.Plain
import KeyBridge.Proofs.Config.PlainLines
import KeyBridge.Proofs.Config.Ranges
import KeyBridge.Proofs.Config.PlainRead
import KeyBridge.Proofs.Toml.Digits
import KeyBridge.Proofs.Toml.PlainStatements
import KeyBridge.Proofs.Toml.Flat
import KeyBridge.Proofs.Toml.PlainTree
import KeyBridge.Proofs.Build.Pins
import KeyBridge.Proofs.Build.Accepted
import KeyBridge.Proofs.Build.Values
import KeyBridge.Proofs.Build.Agreement
import KeyBridge.Proofs.Bridge.Surroundings
import KeyBridge.Proofs.Device.Watch
import KeyBridge.Proofs.Device.Patience
import KeyBridge.Proofs.Device.Replies
import KeyBridge.Proofs.Device.Silence
import KeyBridge.Proofs.Device.Steps
import KeyBridge.Proofs.Device.Retries
import KeyBridge.Proofs.Device.Repeats
import KeyBridge.Proofs.Device.Requests
import KeyBridge.Proofs.Device.LockLeds
import KeyBridge.Proofs.Device.Reset
import KeyBridge.Proofs.Device.Knock
import KeyBridge.Proofs.Device.CodeSet
import KeyBridge.Proofs.Device.CapsLock
import KeyBridge.Proofs.Decoder.Readings
import KeyBridge.Proofs.Decoder.Items
import KeyBridge.Proofs.Device.AmigaStream
import KeyBridge.Proofs.Port.Polling
import KeyBridge.Proofs.Decoder.Errors
import KeyBridge.Proofs.Decoder.Operators
import KeyBridge.Proofs.Decoder.Packets
import KeyBridge.Proofs.Firmware.Wiring
import KeyBridge.Proofs.Config.Written
import KeyBridge.Proofs.Build.Effective
import KeyBridge.Proofs.Device.Notes
import KeyBridge.Proofs.ByteRing.Ledger
import KeyBridge.Proofs.Port.Records
import KeyBridge.Proofs.Port.Accounts
import KeyBridge.Proofs.Port.Commands
import KeyBridge.Proofs.Port.Tap
import KeyBridge.Proofs.Diagnostic.Conservation
import KeyBridge.Proofs.Firmware.Handoff
import KeyBridge.Proofs.Wire.Line
import KeyBridge.Proofs.Device.ModelQuery
import KeyBridge.Proofs.Decoder.Resync
import KeyBridge.Proofs.Port.FrameErrors
import KeyBridge.Proofs.Chip.Divider
import KeyBridge.Proofs.Build.Report
import KeyBridge.Proofs.Device.StallCount
import KeyBridge.Proofs.Bridge.Operations
import KeyBridge.Proofs.Bridge.Draining
