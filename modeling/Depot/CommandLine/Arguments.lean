/-
  Depot — the command line.

  `Arguments.parse` reads the words of a command line from left to right; the
  first word that cannot be read, or that asks for help or the version, ends it.
  An option takes the next word or what is attached to it: `--name value`,
  `--name=value`, `-c value`, `-cvalue`, `-c=value`.  A word that starts with a
  minus sign is no value unless it is attached, or the sign alone.  No other
  words are taken.  `Arguments.apply` puts the options over settings.
-/
import Depot.Config.Json

namespace Depot

/-- Why a command line does not run a node. -/
inductive CommandStop where
  /-- It cannot be read. -/
  | usage
  | help
  | version
  deriving DecidableEq, Repr

/-- What a command line asks for. -/
structure Arguments where
  /-- A file of settings. -/
  config : Option String := none
  logLevel : Option String := none
  shard : Option ShardId := none
  clientAddress : Option String := none
  peerPortBase : Option UInt16 := none
  peerHost : Option String := none
  readyAddress : Option String := none
  noReady : Bool := false
  coordinator : Option String := none
  groupSize : Option UInt32 := none
  /-- In the order in which they stand. -/
  peers : List (ShardId × String) := []
  storeBudget : Option Nat := none
  tagCapacity : Option Nat := none
  timeout : Option Nat := none
  deriving DecidableEq, Repr

/-! ## Values -/

/-- A peer as `ID=ADDR`, or what is wrong with it. -/
def peerOption (s : String) : Except String (ShardId × String) :=
  match Text.cut? '=' s.toList with
  | none => .error ("expected ID=ADDR, got " ++ Text.quoted s.toList)
  | some (id, address) =>
    match Text.word32? id with
    | none => .error ("bad shard id " ++ Text.quoted id)
    | some id =>
      if address.isEmpty then .error "empty peer address" else .ok (id, String.ofList address)

/-- A number of up to 32 bits. -/
def word32Option (s : String) : Option UInt32 :=
  (Text.signed? UInt32.size s.toList).map UInt32.ofNat

/-- A number of up to 16 bits. -/
def word16Option (s : String) : Option UInt16 :=
  (Text.signed? UInt16.size s.toList).map UInt16.ofNat

/-- A number of up to 64 bits. -/
def word64Option (s : String) : Option Nat := Text.natural? UInt64.size s.toList

def fileOption (s : String) : Option String := if s.isEmpty then none else some s

namespace Arguments

/-! ## Options -/

/-- Put a value where none stands: an option stands once. -/
def once (old new : Option α) (put : Option α → Arguments) : Option Arguments :=
  match old, new with
  | none, some v => some (put (some v))
  | _, _ => none

/-- The options with a value: their names, and how they take it. -/
def options : List (String × (Arguments → String → Option Arguments)) :=
  [("config", fun a s => once a.config (fileOption s) fun v => { a with config := v }),
    ("log-level", fun a s => once a.logLevel (some s) fun v => { a with logLevel := v }),
    ("shard-id", fun a s => once a.shard (word32Option s) fun v => { a with shard := v }),
    ("client-addr", fun a s =>
      once a.clientAddress (some s) fun v => { a with clientAddress := v }),
    ("peer-port-base", fun a s =>
      once a.peerPortBase (word16Option s) fun v => { a with peerPortBase := v }),
    ("peer-bind-ip", fun a s => once a.peerHost (some s) fun v => { a with peerHost := v }),
    ("ready-addr", fun a s => once a.readyAddress (some s) fun v => { a with readyAddress := v }),
    ("coordinator", fun a s => once a.coordinator (some s) fun v => { a with coordinator := v }),
    ("block-dim", fun a s => once a.groupSize (word32Option s) fun v => { a with groupSize := v }),
    ("peer", fun a s => (peerOption s).toOption.map fun p => { a with peers := a.peers ++ [p] }),
    ("max-store-bytes", fun a s =>
      once a.storeBudget (word64Option s) fun v => { a with storeBudget := v }),
    ("tag-capacity", fun a s =>
      once a.tagCapacity (word64Option s) fun v => { a with tagCapacity := v }),
    ("remote-timeout-ms", fun a s =>
      once a.timeout (word64Option s) fun v => { a with timeout := v })]

def take (a : Arguments) (name value : String) : Except CommandStop Arguments :=
  match (options.lookup name).bind fun put => put a value with
  | some a => .ok a
  | none => .error .usage

/-- Take a word without a value: a switch. -/
def switch (a : Arguments) (name : String) : Except CommandStop Arguments :=
  if name = "help" then .error .help
  else if name = "version" then .error .version
  else if name = "no-ready" ∧ ¬ a.noReady then .ok { a with noReady := true }
  else .error .usage

/-! ## Words -/

/-- What a word is. -/
inductive Word where
  /-- An option of this name with what is attached to it. -/
  | option (name : String) (attached : Option String)
  | switch (name : String)
  /-- The word that ends the options. -/
  | stop
  /-- Any other word. -/
  | plain (text : String)
  deriving DecidableEq, Repr

def Word.named (name : String) (attached : Option String) : Word :=
  if (options.lookup name).isSome then option name attached
  else match attached with
    | some _ => plain name
    | none => switch name

def Word.short : List Char → Word
  | ['c'] => option "config" none
  | 'c' :: '=' :: value => option "config" (some (String.ofList value))
  | 'c' :: value => option "config" (some (String.ofList value))
  | 'h' :: _ => switch "help"
  | 'V' :: _ => switch "version"
  | cs => plain (String.ofList cs)

def Word.of (s : String) : Word :=
  match s.toList with
  | ['-', '-'] => stop
  | '-' :: '-' :: cs =>
    match Text.cut? '=' cs with
    | some (name, value) => named (String.ofList name) (some (String.ofList value))
    | none => named (String.ofList cs) none
  | ['-'] => plain s
  | '-' :: cs => short cs
  | _ => plain s

/-- Whether a word can be the value of the option before it. -/
def isValue (s : String) : Bool :=
  match s.toList with
  | ['-'] => true
  | '-' :: _ => false
  | _ => true

/-- Read words after those that gave `a`. -/
def parseFrom (a : Arguments) : List String → Except CommandStop Arguments
  | [] => .ok a
  | word :: words =>
    match Word.of word with
    | .stop => if words.isEmpty then .ok a else .error .usage
    | .plain _ => .error .usage
    | .switch name =>
      match a.switch name with
      | .ok a => parseFrom a words
      | .error e => .error e
    | .option name (some value) =>
      match a.take name value with
      | .ok a => parseFrom a words
      | .error e => .error e
    | .option name none =>
      match words with
      | [] => .error .usage
      | value :: words =>
        if isValue value then
          match a.take name value with
          | .ok a => parseFrom a words
          | .error e => .error e
        else .error .usage

/-- Whether the options contradict each other, or one lacks another. -/
def isMixed (a : Arguments) : Bool :=
  (a.readyAddress.isSome && a.noReady) ||
    (a.coordinator.isSome && (!a.peers.isEmpty || a.groupSize.isNone))

/-- Read the words of a command line, the name of the program not among them. -/
def parse (words : List String) : Except CommandStop Arguments :=
  match parseFrom {} words with
  | .ok a => if a.isMixed then .error .usage else .ok a
  | .error e => .error e

/-! ## Settings -/

/-- Where the peers come from by the options, by the settings if by none. -/
def source (a : Arguments) (settings : PeerDirectory) : PeerDirectory :=
  match a.coordinator with
  | some address => .coordinator address (a.groupSize.getD 1)
  | none => if a.peers.isEmpty then settings else .fixed (Table.ofList a.peers)

def apply (a : Arguments) (c : Config) : Config :=
  { c with
    shard := a.shard.getD c.shard
    clientAddress := a.clientAddress.getD c.clientAddress
    peerPortBase := a.peerPortBase.getD c.peerPortBase
    peerHost := a.peerHost.getD c.peerHost
    readyAddress := if a.noReady then none else a.readyAddress <|> c.readyAddress
    storeBudget := a.storeBudget.getD c.storeBudget
    tagCapacity := a.tagCapacity.getD c.tagCapacity
    timeout := a.timeout.getD c.timeout
    peers := a.source c.peers }

/-- The settings that the options and the file that they name give. -/
def settings (a : Arguments) (file : Option Bytes) : Except Fault Config :=
  match a.config with
  | none => .ok (a.apply {})
  | some _ => (Config.ofFile file).map a.apply

end Arguments

end Depot
