import HostBridge.Abi
import HostBridge.Bridge
import HostBridge.Code.Emit
import HostBridge.Code.Function
import HostBridge.Code.Instr
import HostBridge.Code.Run
import HostBridge.Command.Arguments
import HostBridge.Command.FileTree
import HostBridge.Command.Report
import HostBridge.Config
import HostBridge.Config.Request
import HostBridge.Constant
import HostBridge.Control.Action
import HostBridge.Control.Frame
import HostBridge.Control.Region
import HostBridge.Control.Thread
import HostBridge.Dictionary
import HostBridge.Error
import HostBridge.Exit
import HostBridge.Invocation
import HostBridge.Layout.Builtin
import HostBridge.Layout.Member
import HostBridge.Layout.Record
import HostBridge.Layout.Table
import HostBridge.Location
import HostBridge.Main
import HostBridge.Memory
import HostBridge.NativeType
import HostBridge.Service.Catalogue
import HostBridge.Service.Registry
import HostBridge.Session.Program
import HostBridge.Session.Run
import HostBridge.Session.World
import HostBridge.Target
import HostBridge.Text.Json
import HostBridge.Text.Number
import HostBridge.Text.Utf8
import HostBridge.Toml.Document
import HostBridge.Toml.Quoted
import HostBridge.Toml.Scalar
import HostBridge.Toml.Value
import HostBridge.Value
import HostBridge.Proofs.Control.Action
import HostBridge.Proofs.Control.Program
import HostBridge.Proofs.Control.Step
import HostBridge.Proofs.Control.Stack
import HostBridge.Proofs.Control.Execution
import HostBridge.Proofs.Control.Landing
import HostBridge.Proofs.Control.Parking
import HostBridge.Proofs.Layout.Extent
import HostBridge.Proofs.Layout.Placement
import HostBridge.Proofs.Memory
import HostBridge.Proofs.Dictionary
import HostBridge.Proofs.Layout.Table
import HostBridge.Proofs.Service.Registry
import HostBridge.Proofs.Bridge
import HostBridge.Proofs.Code.Accessor
import HostBridge.Proofs.Session.Space
import HostBridge.Proofs.Code.Member
import HostBridge.Proofs.Layout.Resolution
import HostBridge.Proofs.Layout.Declaration
import HostBridge.Proofs.Control.Balance
import HostBridge.Proofs.Control.Context
import HostBridge.Proofs.Code.Emission
import HostBridge.Proofs.Code.RawAccess
import HostBridge.Proofs.Control.Crossing
import HostBridge.Proofs.Code.BlockCall
import HostBridge.Proofs.Control.Outcome
import HostBridge.Proofs.Layout.Naming
import HostBridge.Proofs.Control.Boundary
import HostBridge.Proofs.Code.ExitCheck
import HostBridge.Proofs.Layout.Cell
import HostBridge.Proofs.Layout.Embedding
import HostBridge.Proofs.Layout.Writes
import HostBridge.Proofs.Code.Update
import HostBridge.Proofs.Code.Watch
import HostBridge.Proofs.Session.Trace
import HostBridge.Proofs.Session.Latest
import HostBridge.Proofs.Layout.Arithmetic
import HostBridge.Proofs.Invocation
import HostBridge.Proofs.Toml.Keys
import HostBridge.Proofs.Code.ValueOperation
import HostBridge.Proofs.Config
