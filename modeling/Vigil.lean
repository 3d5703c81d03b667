import Vigil.Lib.Machine
import Vigil.Lib.Progress
import Vigil.Lib.Timed
import Vigil.Lib.Rust
import Vigil.Lib.Text
import Vigil.Lib.Json
import Vigil.Lib.Codec
import Vigil.Lib.Utf8
import Vigil.Lib.Top
import Vigil.Lib.Counters
import Vigil.Lib.Meter
import Vigil.Lib.Grid
import Vigil.Lib.Table
import Vigil.Snapshot
import Vigil.SnapshotJson
import Vigil.Config
import Vigil.SettingsJson
import Vigil.Startup
import Vigil.Migration
import Vigil.FirstRun
import Vigil.Metrics.Disk
import Vigil.Metrics.System
import Vigil.Metrics.Net
import Vigil.Metrics.Process
import Vigil.Metrics.Groups
import Vigil.Metrics.Pss
import Vigil.Metrics.Detect
import Vigil.Metrics.Representative
import Vigil.Metrics.Rates
import Vigil.Metrics.Topology
import Vigil.Metrics.Overflow
import Vigil.Metrics.Gib
import Vigil.Metrics.Temperature
import Vigil.Metrics.Uptime
import Vigil.Metrics.NetDev
import Vigil.Sampler.State
import Vigil.Sampler.Task
import Vigil.Sampler.Publish
import Vigil.Metrics.Range
import Vigil.Sampler.Invariant
import Vigil.Sampler.Paced
import Vigil.Sampler.Age
import Vigil.Sampler.Served
import Vigil.Sampler.Statics
import Vigil.Sampler.Tiers
import Vigil.Sampler.WellFormed
import Vigil.Sampler.Alive
import Vigil.Sampler.Interfaces
import Vigil.Sampler.Rates
import Vigil.Sampler.Traffic
import Vigil.Server.Worker
import Vigil.Server.Ws
import Vigil.Server.Slots
import Vigil.Server.Probes
import Vigil.Server.Timers
import Vigil.Hub.Protocol
import Vigil.Hub.Flatten
import Vigil.Hub.Client
import Vigil.Hub.Session
import Vigil.Hub.Handshake
import Vigil.Hub.Supervise
import Vigil.Hub.Pacing
import Vigil.Hub.Wire
import Vigil.Hub.Recovery
import Vigil.Runtime
import Vigil.Lifetime
import Vigil.Cli
import Vigil.Hub.OsRelease
import Vigil.Hub.Detour
import Vigil.Hub.Encoding
import Vigil.Hub.Ceiling
import Vigil.Metrics.Diskstats
import Vigil.Metrics.Mounts
