/-
  Depot — what a node does on each event.

  A client's requests to the node's own store are answered at once, straight to
  the link.  A request to another shard leaves on the link to that shard under a
  tag, and its reply comes back through the requester's reply order, as does the
  reason why it cannot leave.
-/
import Depot.Node.Close

namespace Depot

/-- What happens to a node. -/
inductive NodeEvent where
  /-- A message came in on a link. -/
  | message (link : LinkId) (m : Message)
  /-- A link has ended, with an error if there was one. -/
  | closed (link : LinkId) (error : Option Fault)
  deriving DecidableEq, Repr

def NodeEvent.link : NodeEvent → LinkId
  | message link _ | closed link _ => link

namespace Node

variable {σ : Type u} [Outbound σ]

/-! ## Links -/

/-- Add a link.  A link to a shard takes the place of the one before.  Returns the
    requests that fail by that. -/
def enter (n : Node σ) (kind : LinkKind) : Node σ × List (Tag × String) :=
  let id := n.nextLink
  let entered := { n with nextLink := id + 1, links := n.links.insert id { id, kind } }
  match kind with
  | .dialed shard =>
    let entered := { entered with peers := n.peers.insert shard id }
    match n.peers.get? shard with
    | some old => entered.detach old
    | none => (entered, [])
  | _ => (entered, [])

/-- Add a link, and fail what waited on the link whose place it takes. -/
def attach (n : Node σ) (kind : LinkKind) : Node σ × LinkId :=
  let entered := n.enter kind
  (entered.1.failAll entered.2, n.nextLink)

/-- Answer on a link at once, and close the link if it refuses. -/
def answer (n : Node σ) (id : LinkId) (m : Message) : Node σ :=
  match n.links.get? id with
  | none => n
  | some l =>
    match l.send n.wires (Frame.ofMessage m) with
    | (wires, none) => { n with wires }
    | (wires, some _) => { n with wires }.close id

/-! ## Forwarding -/

/-- Offer a frame to the link on which requests to a shard leave. -/
def offerTo (n : Node σ) (target : LinkId) (shard : ShardId) (f : Frame) : σ × Option Fault :=
  match n.links.get? target with
  | some l => l.send n.wires f
  | none => (n.wires, some (.noLink shard))

/-- What is said of a request that its link refuses. -/
def severedText (shard : ShardId) (fault : Fault) : String :=
  s!"connection to shard {shard} failed: " ++ fault.message

/-- Send a request to the node of a shard under a fresh tag.  A link that refuses
    it is closed. -/
def issue (n : Node σ) (requester : LinkId × Nat) (shard : ShardId) (request : PeerBody) :
    Node σ × Except Fault Tag :=
  match n.peers.get? shard with
  | none => (n, .error (.noLink shard))
  | some target =>
    match n.tags.draw with
    | .error e => (n, .error (.tag e))
    | .ok (tags, tag) =>
      match n.offerTo target shard (Frame.ofMessage (.peer tag request)) with
      | (wires, none) =>
        let deadline := n.clock + n.timeout
        let o : PendingRequest := { requester := some requester, target, deadline }
        ({ n with tags, wires, waiting := n.waiting.insert tag o }, .ok tag)
      | (wires, some fault) =>
        (({ n with tags, wires }.reclaim tag).close target,
          .error (.invalid (severedText shard fault)))

/-- Forward a client's request to the node of a shard, or answer why not. -/
def forward (n : Node σ) (id : LinkId) (shard : ShardId) (request : PeerBody) : Node σ :=
  match n.links.get? id with
  | none => n
  | some l =>
    let (l, slot) := l.reserve
    let n := { n with links := n.links.modify id fun _ => l }
    match n.issue (id, slot) shard request with
    | (n, .ok _) => n
    | (n, .error fault) => n.tell (some (id, slot)) (Message.failure fault.message)

/-- The request that a reply with this tag on this link answers. -/
def answered? (n : Node σ) (id : LinkId) (tag : Tag) : Option PendingRequest :=
  (n.waiting.get? tag).filter fun o => o.target = id

/-- Hand a peer's reply to the requester.  One that answers nothing is dropped. -/
def settle (n : Node σ) (id : LinkId) (tag : Tag) (m : Message) : Node σ :=
  match n.answered? id tag with
  | none => n
  | some o => (n.release tag).tell o.requester m

/-! ## Messages -/

/-- What a message asks of a node. -/
inductive Duty where
  /-- Take this store, and answer at once. -/
  | answer (store : Store) (reply : Message)
  | forward (shard : ShardId) (request : PeerBody)
  /-- Take this store, and hand the reply to whoever waits under the tag. -/
  | settle (tag : Tag) (store : Store) (reply : Message)

def createdText : String := "made new object"

def deletedText (name : Bytes) : String := "deleted " ++ Text.lossy name

/-- What is said to a request to store an object on another shard. -/
def unsupportedText : String := "LocalRemoteStore is not supported"

/-- What is said to a client that sends a reply. -/
def unexpectedText : String := "unexpected reply message"

def clientReply (result : Except StoreError α) (success : String) : Message :=
  match result with
  | .ok _ => Message.success success
  | .error e => Message.failure e.message

def peerReply (tag : Tag) (result : Except StoreError α) (success : String) : Message :=
  match result with
  | .ok _ => Message.peerSuccess tag success
  | .error e => Message.peerFailure tag e.message

/-- What the store has under a name, for a client. -/
def lookupReply (s : Store) (name : Bytes) : Message :=
  match s.get? name with
  | some found => .client (.store name found.data)
  | none => Message.failure (StoreError.noSuchKey name).message

/-- What the store has under a name, for a peer. -/
def peerLookupReply (s : Store) (tag : Tag) (name : Bytes) : Message :=
  match s.get? name with
  | some found => .peer tag (.store name found.data)
  | none => Message.peerFailure tag (StoreError.noSuchKey name).message

/-- What a client is told of an object that a peer sent. -/
def fetchedReply (result : Except StoreError α) (name object : Bytes) : Message :=
  match result with
  | .ok _ => .client (.store name object)
  | .error e => Message.failure e.message

def clientDuty (s : Store) : ClientBody → Duty
  | .store name object =>
    let result := s.create name object
    .answer (s.orBefore result) (clientReply result createdText)
  | .lookup name => .answer s (lookupReply s name)
  | .delete name =>
    let result := s.erase name
    .answer (s.orBefore result) (clientReply result (deletedText name))
  | .peerLookup name shard => .forward shard (.lookup name)
  | .peerDelete name shard => .forward shard (.delete name)
  | .peerStore .. => .answer s (Message.failure unsupportedText)
  | .success _ | .failure _ => .answer s (Message.failure unexpectedText)

/-- What a peer asks.  An object that a peer sends is stored whether or not
    somebody waits for it. -/
def peerDuty (s : Store) (tag : Tag) : PeerBody → Duty
  | .lookup name => .answer s (peerLookupReply s tag name)
  | .delete name =>
    let result := s.erase name
    .answer (s.orBefore result) (peerReply tag result (deletedText name))
  | .store name object =>
    let result := s.put name object
    .settle tag (s.orBefore (result.map Prod.fst)) (fetchedReply result name object)
  | .success text => .settle tag s (.client (.success text))
  | .failure text => .settle tag s (.client (.failure text))

/-- What a message asks. -/
def duty (s : Store) : Message → Duty
  | .client body => clientDuty s body
  | .peer tag body => peerDuty s tag body

/-- Act on a message.  Messages can trail the end of their link. -/
def receive (n : Node σ) (id : LinkId) (m : Message) : Node σ :=
  if n.links.contains id then
    match duty n.store m with
    | .answer store reply => { n with store }.answer id reply
    | .forward shard request => n.forward id shard request
    | .settle tag store reply => { n with store }.settle id tag reply
  else n

def handle (n : Node σ) : NodeEvent → Node σ
  | .message link m => n.receive link m
  | .closed link _ => n.close link

end Node

end Depot
