import CanProxy.Contract.Encode
import CanProxy.Contract.Pack
import CanProxy.Contract.Types
import CanProxy.Core.Arguments
import CanProxy.Core.Config
import CanProxy.Core.Consumer
import CanProxy.Core.Daemon
import CanProxy.Core.Dump
import CanProxy.Core.History
import CanProxy.Core.Mapping
import CanProxy.Core.PluginHost
import CanProxy.Core.Process
import CanProxy.Core.Publisher
import CanProxy.Core.Stats
import CanProxy.Emu.History
import CanProxy.Emu.Plugin
import CanProxy.Emu.Profile
import CanProxy.Forza.Plugin
import CanProxy.Forza.Telemetry
import CanProxy.Ice.History
import CanProxy.Ice.Loop
import CanProxy.Ice.Plugin
import CanProxy.Lib.Bits
import CanProxy.Lib.Cycle
import CanProxy.Lib.Double
import CanProxy.Lib.Float32
import CanProxy.Lib.Rank
import CanProxy.Lib.Reading
import CanProxy.Lib.Rounding
import CanProxy.Lib.Run
import CanProxy.Lib.Scan
import CanProxy.Lib.Selection
import CanProxy.Lib.Text
import CanProxy.Lib.Timer
import CanProxy.Obd.Client
import CanProxy.Obd.J1979
import CanProxy.Obd.Poller
import CanProxy.Obd.Trace
import CanProxy.Obd.Traced
import CanProxy.Obd.Uds
import CanProxy.Plugin.Abi
import CanProxy.Plugin.Create
import CanProxy.Plugin.Identity
import CanProxy.Proofs.Contract.Bytes
import CanProxy.Proofs.Contract.Encode
import CanProxy.Proofs.Contract.Pack
import CanProxy.Proofs.Contract.Reencode
import CanProxy.Proofs.Core.Arguments
import CanProxy.Proofs.Core.Availability
import CanProxy.Proofs.Core.Config
import CanProxy.Proofs.Core.Counter
import CanProxy.Proofs.Core.Daemon
import CanProxy.Proofs.Core.Deadlines
import CanProxy.Proofs.Core.Exit
import CanProxy.Proofs.Core.Heartbeat
import CanProxy.Proofs.Core.History
import CanProxy.Proofs.Core.PluginHost
import CanProxy.Proofs.Core.Precision
import CanProxy.Proofs.Core.Process
import CanProxy.Proofs.Core.Punctual
import CanProxy.Proofs.Core.Schedule
import CanProxy.Proofs.Core.Sleep
import CanProxy.Proofs.Core.Stats
import CanProxy.Proofs.Core.Traffic
import CanProxy.Proofs.Core.View
import CanProxy.Proofs.Emu.Agreement
import CanProxy.Proofs.Emu.Capable
import CanProxy.Proofs.Emu.Link
import CanProxy.Proofs.Emu.Moves
import CanProxy.Proofs.Emu.Profile
import CanProxy.Proofs.Emu.Run
import CanProxy.Proofs.Emu.Shown
import CanProxy.Proofs.Emu.State
import CanProxy.Proofs.Emu.Wire
import CanProxy.Proofs.Forza.Finite
import CanProxy.Proofs.Forza.Run
import CanProxy.Proofs.Forza.Shown
import CanProxy.Proofs.Ice.Capable
import CanProxy.Proofs.Ice.Dropped
import CanProxy.Proofs.Ice.Gauge
import CanProxy.Proofs.Ice.Lamps
import CanProxy.Proofs.Ice.Loop
import CanProxy.Proofs.Ice.Moves
import CanProxy.Proofs.Ice.Run
import CanProxy.Proofs.Ice.State
import CanProxy.Proofs.Ice.Streak
import CanProxy.Proofs.Obd.Deadline
import CanProxy.Proofs.Obd.Discovery
import CanProxy.Proofs.Obd.Fairness
import CanProxy.Proofs.Obd.Padding
import CanProxy.Proofs.Obd.Poller
import CanProxy.Proofs.Obd.Request
import CanProxy.Proofs.Obd.Trace
import CanProxy.Proofs.Plugin.Create
import CanProxy.Proofs.Plugin.Fields
import CanProxy.Proofs.Plugin.Identity
import CanProxy.Proofs.Replay.Line
import CanProxy.Proofs.Replay.Recorded
import CanProxy.Proofs.Replay.Respond
import CanProxy.Proofs.Replay.Server
import CanProxy.Proofs.Sim.Bounds
import CanProxy.Proofs.Sim.Power
import CanProxy.Proofs.Sim.Script
import CanProxy.Proofs.Sim.Shown
import CanProxy.Replay.Line
import CanProxy.Replay.Respond
import CanProxy.Replay.Server
import CanProxy.Replay.Session
import CanProxy.Sim.Plugin
