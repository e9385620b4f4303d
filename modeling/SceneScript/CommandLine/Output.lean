/-!
# What a run writes

A run writes pieces of text to its standard output and its standard error and lines to its log, and
ends with an exit code: 0 if all scenes are right, 1 if some are not or cannot be read, 2 for a usage
error.
-/

namespace SceneScript.CommandLine

/-- How much a log line matters. -/
inductive LogLevel where
  /-- Only written when the log is to be verbose. -/
  | debug
  | info
  | warn
  deriving DecidableEq

/-- The value of a field of a log line. -/
inductive LogValue where
  | plain (text : String)
  /-- A text that is shown in quotes. -/
  | quoted (text : String)
  | number (value : Nat)
  /-- A number that is measured in the run: a time, or how often something was remembered. -/
  | measured
  deriving DecidableEq

/-- A line of the log. -/
structure LogLine where
  level : LogLevel
  /-- The part of the program that speaks. -/
  speaker : String
  message : String
  /-- What the message is about, if it does not say so itself. -/
  fields : List (String × LogValue)
  deriving DecidableEq

/-- Something that a run writes. -/
inductive Output where
  | out (text : String)
  | err (text : String)
  | log (line : LogLine)
  deriving DecidableEq

/-- How a run ended, and what it has written until then. -/
structure Outcome where
  code : Nat
  /-- What was written, in order. -/
  outputs : List Output
  deriving DecidableEq

namespace Outcome

/-- All that was written to standard output. -/
def stdout (o : Outcome) : String :=
  String.join (o.outputs.filterMap fun output => match output with
    | .out text => some text
    | _ => none)

/-- The lines of the log, but for those that are only written when the log is to be verbose. -/
def log (o : Outcome) : List LogLine :=
  o.outputs.filterMap fun output => match output with
    | .log line => if line.level = .debug then none else some line
    | _ => none

end Outcome

/-! ## Writing -/

/-- What is done while outputs are written, one after the other. -/
abbrev Writing (m : Type → Type) := StateT (List Output) m

variable {m : Type → Type} [Monad m]

/-- Writes outputs behind those that are already written. -/
def emit (outputs : List Output) : Writing m Unit := modify (· ++ outputs)

/-- A line as it is written, or not, to a log that is verbose or not. -/
def logged (verbose : Bool) (line : LogLine) : List Output :=
  if line.level = .debug && !verbose then [] else [.log line]

/-! ## Small facts -/

@[simp] theorem run_emit (outputs written : List Output) :
    (emit outputs : Writing m Unit).run written = pure ((), written ++ outputs) := rfl

end SceneScript.CommandLine
