/-
  Depot — the client's end of a link.

  A session sends requests and receives replies over one stream.  Replies are
  matched to nothing: the next frame is the reply.  `Session.send` writes to any
  outlet; `Session.receive` reads what has arrived until a frame is complete.
-/
import Depot.Client.Reply
import Depot.Link.Reader
import Depot.Wire.Outlet

namespace Depot

/-- The client's end of a link. -/
structure Session where
  deframer : Deframer := { limit := Deframer.defaultLimit }
  backlog : Backlog := {}
  deriving DecidableEq, Repr

/-- What has arrived and is not read yet. -/
structure Inlet where
  reads : List Bytes := []
  /-- Whether nothing more will arrive. -/
  hasEnded : Bool := false
  deriving DecidableEq, Repr

namespace Inlet

/-- Data arrives, unless the stream has ended. -/
def arrive (i : Inlet) (data : Bytes) : Inlet :=
  if i.hasEnded then i else { i with reads := i.reads ++ readsOf data }

/-- The stream ends. -/
def close (i : Inlet) : Inlet := { i with hasEnded := true }

end Inlet

namespace Session

/-- Send a message. -/
def send [Outlet σ] (s : Session) (out : σ) (m : Message) : Session × σ × Attempt Unit :=
  match (s.backlog.push (Frame.ofMessage m)).writeAll out with
  | (backlog, out, .finished) => ({ s with backlog }, out, .done ())
  | (backlog, out, .waiting) => ({ s with backlog }, out, .blocked)
  | (backlog, out, .failed kind) => ({ s with backlog }, out, .failed (.io kind))

def decoded (payload : Bytes) : Attempt Message :=
  match Message.decode .client payload with
  | .ok m => .done m
  | .error e => .failed (.wire e)

/-- Receive the next message, out of `reads` as far as it is not buffered. -/
def receiveFrom (hasEnded : Bool) : Deframer → List Bytes → Deframer × List Bytes × Attempt Message
  | d, reads =>
    match d.extract with
    | (d, .error e) => (d, reads, .failed (.wire e))
    | (d, .ok (some payload)) => (d, reads, decoded payload)
    | (d, .ok none) =>
      match reads with
      | [] => (d, [], if hasEnded then .failed .closed else .blocked)
      | data :: reads => receiveFrom hasEnded (d.feed data) reads

def receive (s : Session) (inlet : Inlet) : Session × Inlet × Attempt Message :=
  match receiveFrom inlet.hasEnded s.deframer inlet.reads with
  | (deframer, reads, result) => ({ s with deframer }, { inlet with reads }, result)

/-- Send a request and receive the reply. -/
def ask [Outlet σ] (s : Session) (out : σ) (inlet : Inlet) (m : Message) :
    Session × σ × Inlet × Attempt Reply :=
  match s.send out m with
  | (s, out, .failed fault) => (s, out, inlet, .failed fault)
  | (s, out, .blocked) => (s, out, inlet, .blocked)
  | (s, out, .done _) =>
    match s.receive inlet with
    | (s, inlet, .failed fault) => (s, out, inlet, .failed fault)
    | (s, inlet, .blocked) => (s, out, inlet, .blocked)
    | (s, inlet, .done reply) =>
      match Reply.ofMessage reply with
      | .ok reply => (s, out, inlet, .done reply)
      | .error fault => (s, out, inlet, .failed fault)

end Session

end Depot
