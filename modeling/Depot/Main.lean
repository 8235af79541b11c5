/-
  Depot — the program on a terminal.

  The command line, the file of settings and the standard streams are read and
  written here; all decisions are `Program.run`'s and the switchboard's.  There
  is no network at hand, so a node that is up serves one client, on the standard
  streams: the ready line goes out first, then replies to the frames that come in.
-/
import Depot.CommandLine.Program
import Depot.Switchboard

namespace Depot.Terminal

/-- The content of a file; `none` if it cannot be read. -/
def content? (path : String) : IO (Option Bytes) := do
  try
    let bytes ← IO.FS.readBinFile path
    return some bytes.data.toList
  catch _ => return none

/-- Write what the far end of the client's link received. -/
def writeSent (output : IO.FS.Stream) (t : Turn) : IO Unit := do
  for (_, bytes) in t.sent do
    output.write ⟨bytes.toArray⟩
  output.flush

/-- Serve the client on the standard streams until it stops writing. -/
partial def serve (input output : IO.FS.Stream) (s : Switchboard) (client : LinkId) :
    IO Unit := do
  let data ← input.read (USize.ofNat maxRead)
  if data.isEmpty then
    writeSent output ((s.farEnd client).turn).2
  else
    let (s, t) := ((s.receive client data.data.toList).1).turn
    writeSent output t
    if t.ended.isEmpty then serve input output s client

/-- Print a line on the error stream. -/
def complain (line : String) : IO Unit := do
  (← IO.getStderr).putStrLn line

/-- Tell how a run ended that did not bring a node up. -/
def explain : Program.Outcome → IO Unit
  | .stopped .help => IO.println Program.helpText
  | .stopped .version => IO.println Program.versionLine
  | .stopped .usage => complain Program.usageLine
  | .failed stage fault true => complain (stage.message ++ ": " ++ fault.message)
  | _ => pure ()

def run (words : List String) : IO UInt32 := do
  let outcome ← match Arguments.parse words with
    | .error stop => pure (Program.Outcome.stopped stop)
    | .ok a => do
      let file ← match a.config with
        | some path => content? path
        | none => pure none
      pure (Program.run .isolated a file)
  match outcome with
  | .up config ready =>
    let output ← IO.getStdout
    output.putStr (ready.text ++ "\n")
    output.flush
    let (s, client) := (Switchboard.ofConfig config).connect .client none true
    serve (← IO.getStdin) output s client
    return 0
  | outcome =>
    explain outcome
    return UInt32.ofNat (outcome.exitCode?.getD 0)

end Depot.Terminal

def main (words : List String) : IO UInt32 := Depot.Terminal.run words
