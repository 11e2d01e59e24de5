import BatchAxpby.Batch.Engine
import BatchAxpby.Batch.Placement
import BatchAxpby.Bench.Accumulate
import BatchAxpby.Bench.Copy
import BatchAxpby.Bench.Flops
import BatchAxpby.Bench.RoundTrip
import BatchAxpby.Bench.StopWatch
import BatchAxpby.Config.Description
import BatchAxpby.Config.Load
import BatchAxpby.Config.Operand
import BatchAxpby.Config.Settings
import BatchAxpby.Decimal.Binary
import BatchAxpby.Decimal.Shortest
import BatchAxpby.Decimal.Text
import BatchAxpby.Device.Bases
import BatchAxpby.Device.Emulator
import BatchAxpby.Device.Geometry
import BatchAxpby.Device.Interface
import BatchAxpby.Device.Lane
import BatchAxpby.Device.Ledger
import BatchAxpby.Device.Recorder
import BatchAxpby.Device.Session
import BatchAxpby.Error
import BatchAxpby.Main
import BatchAxpby.Memory.Budget
import BatchAxpby.Memory.Host
import BatchAxpby.Problem.Basic
import BatchAxpby.Problem.Reference
import BatchAxpby.Proofs.Accounting
import BatchAxpby.Proofs.Batches
import BatchAxpby.Proofs.BlockViews
import BatchAxpby.Proofs.BoundingBox
import BatchAxpby.Proofs.Comparison
import BatchAxpby.Proofs.CopyRuns
import BatchAxpby.Proofs.DeviceRun
import BatchAxpby.Proofs.EmptyBlocks
import BatchAxpby.Proofs.EmptyRuns
import BatchAxpby.Proofs.Engines
import BatchAxpby.Proofs.Faults
import BatchAxpby.Proofs.Holdings
import BatchAxpby.Proofs.HostRun
import BatchAxpby.Proofs.IndexTables
import BatchAxpby.Proofs.Interruptions
import BatchAxpby.Proofs.Kernel
import BatchAxpby.Proofs.KernelContract
import BatchAxpby.Proofs.Lanes
import BatchAxpby.Proofs.Launch
import BatchAxpby.Proofs.LaunchLimits
import BatchAxpby.Proofs.Loading
import BatchAxpby.Proofs.Mismatches
import BatchAxpby.Proofs.Numbers
import BatchAxpby.Proofs.ParallelRuns
import BatchAxpby.Proofs.RepeatedLaunches
import BatchAxpby.Proofs.Reservations
import BatchAxpby.Proofs.RoundTripRuns
import BatchAxpby.Proofs.Rounding
import BatchAxpby.Proofs.Run
import BatchAxpby.Proofs.Schedule
import BatchAxpby.Proofs.Sessions
import BatchAxpby.Proofs.Sizing
import BatchAxpby.Proofs.Slots
import BatchAxpby.Proofs.Storage
import BatchAxpby.Proofs.Surfaces
import BatchAxpby.Proofs.Touch
import BatchAxpby.Proofs.ValidatedRun
import BatchAxpby.Random.Keystream
import BatchAxpby.Random.Seed
import BatchAxpby.Report.Basic
import BatchAxpby.Report.Json
import BatchAxpby.Scalar
import BatchAxpby.Sweep
import BatchAxpby.Text.Utf8
import BatchAxpby.Tool.Basic
import BatchAxpby.Tool.Directory
import BatchAxpby.Tool.Linking
import BatchAxpby.Update.Basic
import BatchAxpby.Update.Kernel
import BatchAxpby.Update.View
import BatchAxpby.Window
import BatchAxpby.Word
import BatchAxpby.Yaml.Cursor
import BatchAxpby.Yaml.Field
import BatchAxpby.Yaml.Lexer
import BatchAxpby.Yaml.Node
import BatchAxpby.Yaml.Scalar
import BatchAxpby.Yaml.Tag
import BatchAxpby.Yaml.Token
