/-
  Depot — the program.

  A run of the program is a command line, the files that it names and the host
  that it runs on.  `Program.run` says how it ends: a node that is up, or an exit
  with what is logged of the reason.
-/
import Depot.CommandLine.Arguments
import Depot.CommandLine.LogFilter
import Depot.Startup

namespace Depot.Program

def name : String := "shardstore"

def versionLine : String := name ++ " 0.1.0"

def usageLine : String := "Usage: " ++ name ++ " [OPTIONS]"

def helpText : String :=
  let options := Arguments.options.map fun (option, _) => "  --" ++ option ++ " <VALUE>"
  let switches := ["no-ready", "help", "version"].map ("  --" ++ ·)
  String.intercalate "\n"
    (["Sharded in-memory object store server.", "", usageLine, "", "Options:"] ++
      options ++ switches)

/-- The log filter if the command line gives none. -/
def defaultFilter : String := "info"

/-- The fields of the lines that report a failure. -/
def failureFields : List String := ["message", "error"]

/-- At which stage the program failed. -/
inductive Stage where
  /-- The settings could not be read. -/
  | settings
  /-- The node did not come up. -/
  | server
  deriving DecidableEq, Repr

/-- What is logged of the failure. -/
def Stage.message : Stage → String
  | settings => "invalid configuration"
  | server => "server failed"

/-- How a run of the program ends. -/
inductive Outcome where
  | stopped (stop : CommandStop)
  /-- The log filter could not be read. -/
  | aborted
  /-- It failed; the flag says whether that is logged. -/
  | failed (stage : Stage) (fault : Fault) (logged : Bool)
  /-- The node is up. -/
  | up (config : Config) (ready : Readiness)

/-- The exit code; a node that is up goes on. -/
def Outcome.exitCode? : Outcome → Option Nat
  | stopped .usage => some 2
  | stopped _ => some 0
  | aborted => some 101
  | failed .. => some 1
  | up .. => none

/-- Run the program on a command line that has been read, and the file that it
    names. -/
def run (h : Host) (a : Arguments) (file : Option Bytes) : Outcome :=
  match LogFilter.showsFailures? name failureFields (a.logLevel.getD defaultFilter) with
  | none => .aborted
  | some logged =>
    match a.settings file with
    | .error fault => .failed .settings fault logged
    | .ok c =>
      match Startup.run h c with
      | .error fault => .failed .server fault logged
      | .ok ready => .up c ready

end Depot.Program
