import MiniV.Library.Run
import MiniV.Library.Loop
import MiniV.Library.NodeList
import MiniV.Library.Trim
import MiniV.Library.Recency
import MiniV.Library.CText
import MiniV.Llama.Api
import MiniV.Session.Manager
import MiniV.Session.Unbounded
import MiniV.Session.Invariant
import MiniV.Session.Moves
import MiniV.Session.Calls
import MiniV.Session.Trace
import MiniV.Llama.Contract
import MiniV.Llama.Sim
import MiniV.Session.Representation
import MiniV.Session.Termination
import MiniV.Session.HotLimit
import MiniV.Session.ColdBudget
import MiniV.Session.LruOrder
import MiniV.Session.Activation
import MiniV.Engine.Infer
import MiniV.Engine.Kept
import MiniV.Engine.Mirror
import MiniV.Engine.SwapIn
import MiniV.Library.Lines
import MiniV.Wire.HandleClient
import MiniV.Wire.Framing
import MiniV.Engine.Steps
import MiniV.Daemon.Machine
import MiniV.Daemon.Cancel
import MiniV.Daemon.Contexts
import MiniV.Session.SetHotLimit
import MiniV.Library.Sextets
import MiniV.Wire.Base64
import MiniV.Wire.Streaming
import MiniV.Npu.Engine
import MiniV.Npu.Handles
import MiniV.Npu.Readiness
import MiniV.Npu.OneShot
import MiniV.Engine.Reached
import MiniV.Library.Retain
import MiniV.Engine.SwapOut
import MiniV.Library.Relate
import MiniV.Daemon.FrontEnds
import MiniV.Daemon.Outcome
import MiniV.Engine.Retained
import MiniV.Session.Twins
import MiniV.Session.Renaming
import MiniV.Daemon.Overlap
import MiniV.Engine.Streamed
import MiniV.Wire.Rfc4648
import MiniV.Library.Utf8
import MiniV.Daemon.Delivered
import MiniV.Library.Emission
import MiniV.Daemon.Lengths
import MiniV.Engine.SaveFails
import MiniV.Engine.ActivationFails
import MiniV.Wire.NpuLoad
import MiniV.Engine.Unmoved
import MiniV.Wire.Truncated
import MiniV.Engine.OnDisk
import MiniV.Library.History
import MiniV.Daemon.Protocol
import MiniV.Daemon.Progress
import MiniV.Daemon.TestClient
import MiniV.Daemon.Crash
import MiniV.Daemon.Lifetime
import MiniV.Daemon.Server
import MiniV.Daemon.ServerCrash
import MiniV.Daemon.Terminal
import MiniV.Daemon.Incomplete
import MiniV.Daemon.SwapDirectory
import MiniV.Daemon.LastUsed
import MiniV.Daemon.Remembered
import MiniV.Wire.Accepted
import MiniV.Daemon.RawClient
import MiniV.Daemon.Registry
import MiniV.Daemon.Tools
