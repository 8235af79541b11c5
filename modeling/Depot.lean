import Depot.Bytes
import Depot.Client.Reply
import Depot.Client.Session
import Depot.CommandLine.Arguments
import Depot.CommandLine.LogFilter
import Depot.CommandLine.Program
import Depot.Config
import Depot.Config.Json
import Depot.Fault
import Depot.Json.Escape
import Depot.Json.Token
import Depot.Json.Value
import Depot.Link.Basic
import Depot.Link.Reader
import Depot.Link.Recorded
import Depot.Link.Socket
import Depot.Link.Writer
import Depot.Main
import Depot.Net.Endpoint
import Depot.Net.Host
import Depot.Net.Ip
import Depot.Node.Basic
import Depot.Node.Close
import Depot.Node.Event
import Depot.Node.Run
import Depot.Peer.Announcement
import Depot.Peer.Directory
import Depot.Peer.Readiness
import Depot.Proofs.Exchange
import Depot.Proofs.Node.Change
import Depot.Proofs.Node.Coherent
import Depot.Proofs.Node.Errand
import Depot.Proofs.Node.History
import Depot.Proofs.Node.Owed
import Depot.Proofs.Node.Phase
import Depot.Proofs.Node.Recorded
import Depot.Proofs.Node.Replies
import Depot.ReplyOrder
import Depot.Startup
import Depot.Store
import Depot.Switchboard
import Depot.Table
import Depot.TagPool
import Depot.Text.Blank
import Depot.Text.CharSet
import Depot.Text.Glyph
import Depot.Text.Letter
import Depot.Text.Lossy
import Depot.Text.Numeral
import Depot.Text.Pattern
import Depot.Text.Pattern.Class
import Depot.Text.Pattern.Group
import Depot.Text.Pattern.Item
import Depot.Text.Quoted
import Depot.Text.Split
import Depot.Wire.Backlog
import Depot.Wire.Buffer
import Depot.Wire.Codec
import Depot.Wire.Deframer
import Depot.Wire.Error
import Depot.Wire.Frame
import Depot.Wire.Message
import Depot.Wire.Opcode
import Depot.Wire.Outlet
import Depot.Wire.Sink
import Depot.Proofs.Wire.Codec
import Depot.Proofs.Wire.Framing
import Depot.Proofs.Link.Reader
import Depot.Proofs.Link.Pipeline
import Depot.Proofs.Node.Said
import Depot.Proofs.Node.Sizes
import Depot.Proofs.Node.Calm
import Depot.Proofs.Pair.Basic
import Depot.Proofs.Pair.Relay
import Depot.Proofs.Pair.Faces
import Depot.Proofs.Pair.Steps
import Depot.Proofs.Pair.Run
import Depot.Proofs.Wire.Cuts
import Depot.Proofs.Store.BoundedMap
import Depot.Proofs.Node.Mapped
import Depot.Proofs.Link.Accepted
import Depot.Proofs.Node.Hops
import Depot.Proofs.Link.Queue
import Depot.Proofs.Node.Due
import Depot.Proofs.Node.Bursts
import Depot.Proofs.Node.KeepsUp
import Depot.Proofs.Store.InPlace
import Depot.Proofs.Client.Receive
import Depot.Proofs.Client.Line
import Depot.Proofs.Client.Calls
import Depot.Proofs.Node.Closed
import Depot.Proofs.Node.Slots
import Depot.Proofs.Node.Refused
import Depot.Proofs.Node.Spared
import Depot.Proofs.Node.Expiry
import Depot.Proofs.Node.Isolation
import Depot.Proofs.Link.Outbox
import Depot.Proofs.Link.Written
import Depot.Proofs.Node.Classed
import Depot.Proofs.Course
import Depot.Proofs.Wire.Drain
import Depot.Proofs.ReplyOrder
import Depot.Proofs.TagPool
import Depot.Proofs.Store.Committed
import Depot.Proofs.Wire.Access
import Depot.Proofs.Wire.CutShort
import Depot.Proofs.Wire.Awaited
import Depot.Proofs.Net.Address
import Depot.Proofs.Startup
import Depot.Proofs.Text.Fields
import Depot.Proofs.Text.Lossy
import Depot.Proofs.Peer.Announcement
import Depot.Proofs.Node.Cascade
import Depot.Proofs.Node.Ends
