import BsitLabs.FileRpc.Impersonation
import BsitLabs.FileRpc.LoginStrings
import BsitLabs.FileRpc.Truthful
import BsitLabs.FileRpc.Concurrent
import BsitLabs.FileRpc.FileStore
import BsitLabs.FileRpc.Transfer
import BsitLabs.Foundation.Transition
import BsitLabs.Foundation.Rest
import BsitLabs.Foundation.Component
import BsitLabs.Foundation.ByteBuffer
import BsitLabs.Foundation.CopyOrder
import BsitLabs.Foundation.KeyStream
import BsitLabs.Foundation.MachineInt
import BsitLabs.Foundation.Region
import BsitLabs.Foundation.CText
import BsitLabs.Foundation.Ledger
import BsitLabs.Foundation.Tokens
import BsitLabs.Foundation.Loop
import BsitLabs.Foundation.Checked
import BsitLabs.Foundation.Acting
import BsitLabs.Foundation.Footprint
import BsitLabs.Foundation.Decimal
import BsitLabs.Foundation.Format
import BsitLabs.CommandLine.Split
import BsitLabs.CommandLine.Dispatch
import BsitLabs.CommandLine.StandardInput
import BsitLabs.CommandLine.CmdLoop
import BsitLabs.CommandLine.ClientMain
import BsitLabs.CommandLine.FileSession
import BsitLabs.CommandLine.InfoSession
import BsitLabs.CommandLine.ManyClients
import BsitLabs.SystemInfo.Win32
import BsitLabs.SystemInfo.Replies
import BsitLabs.SystemInfo.Contents
import BsitLabs.SystemInfo.Stores
import BsitLabs.SystemInfo.Lengths
import BsitLabs.SystemInfo.Uptime
import BsitLabs.SystemInfo.ReadBack
import BsitLabs.InfoRpc.Procedures
import BsitLabs.InfoRpc.Bounds
import BsitLabs.InfoRpc.Framing
import BsitLabs.InfoRpc.Independence
import BsitLabs.Listings.DriveTypes
import BsitLabs.Listings.FreeSpace
import BsitLabs.Listings.AccessRights
import BsitLabs.Listings.ErrorPaths
import BsitLabs.Tcp.Csp
import BsitLabs.Tcp.Context
import BsitLabs.Tcp.Handlers
import BsitLabs.Tcp.Packets
import BsitLabs.Tcp.CompletionPort
import BsitLabs.Tcp.Connect
import BsitLabs.Tcp.Completion
import BsitLabs.Tcp.SlotInvariant
import BsitLabs.Tcp.Exchange
import BsitLabs.Tcp.Outstanding
import BsitLabs.Tcp.Script
import BsitLabs.Tcp.SendRequest
import BsitLabs.Tcp.SendWindow
import BsitLabs.Tcp.KeyHandles
import BsitLabs.Tcp.SlotTable
import BsitLabs.Tcp.Assertions
import BsitLabs.Tcp.Client
import BsitLabs.Tcp.PacketKind
import BsitLabs.Tcp.KeyFraming
import BsitLabs.Tcp.KeyCopies
import BsitLabs.Tcp.RequestHandlers
import BsitLabs.Tcp.PathRequest
import BsitLabs.Tcp.Secrecy
import BsitLabs.Tcp.Iteration
import BsitLabs.Tcp.Network
import BsitLabs.Tcp.Segmentation
import BsitLabs.Tcp.Delivery
import BsitLabs.Tcp.Serving
import BsitLabs.Tcp.Session
import BsitLabs.Tcp.ReplyTexts
import BsitLabs.Tcp.ReplyBounds
import BsitLabs.Tcp.Menu
import BsitLabs.Tcp.Deadlock
import BsitLabs.Tcp.Progress
import BsitLabs.Tcp.Served
import BsitLabs.Tcp.Isolation
import BsitLabs.Tcp.Overlapped
import BsitLabs.Tcp.Reports
