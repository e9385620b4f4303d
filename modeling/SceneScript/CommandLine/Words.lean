import SceneScript.CommandLine.Arguments

/-!
# Words of the command line

The words are flags that hold for the whole run, the name of a command, and what belongs to the
command.  The flags may also stand behind the command.  An option may have its value attached to it,
short flags may be written together, and after two dashes every word is taken as it is.  Whatever
does not fit is a usage error.

This is the behavior of an argument parser from a library, so far as the program uses it.  The
program itself starts with the arguments.
-/

namespace SceneScript.CommandLine

/-! ## One level of arguments -/

/-- What has been seen of the arguments of one level. -/
structure Seen where
  verbose : Bool
  noColor : Bool
  form : Option DumpForm
  /-- The arguments that are no flags, in order. -/
  operands : List String

namespace Seen

/-- Nothing has been seen so far. -/
def none : Seen := ⟨false, false, .none, []⟩

/-- A flag may be given once. -/
def addVerbose (s : Seen) : Option Seen :=
  if s.verbose then .none else some { s with verbose := true }

/-- The flag against color is seen, which may be given once. -/
def addNoColor (s : Seen) : Option Seen :=
  if s.noColor then .none else some { s with noColor := true }

/-- The form that a word asks for.  It may be asked for once. -/
def addForm (s : Seen) (word : String) : Option Seen :=
  let form : Option DumpForm := match word with
    | "debug" => some .debug
    | "json" => some .json
    | "source" => some .source
    | _ => .none
  match s.form, form with
  | .none, some form => some { s with form := some form }
  | _, _ => .none

/-- An operand is a path, and no path is empty. -/
def addOperand (s : Seen) (operand : String) : Option Seen :=
  if operand.isEmpty then .none else some { s with operands := s.operands ++ [operand] }

end Seen

/-- What follows an argument that has been looked at: the rest as usual, or first the value of an
option. -/
inductive Next where
  | argument (s : Seen)
  | value (s : Seen)

/-- Short flags written together.  An option takes what is left as its value, without an equals
sign, or the next argument if nothing is left. -/
def shortFlags (takesForm : Bool) (s : Seen) : List Char → Option Next
  | [] => some (.argument s)
  | 'v' :: flags => s.addVerbose.bind fun s => shortFlags takesForm s flags
  | 'e' :: attached =>
    if !takesForm then none
    else match attached with
      | [] => some (.value s)
      | '=' :: word => (s.addForm (String.ofList word)).map .argument
      | word => (s.addForm (String.ofList word)).map .argument
  | _ => none

/-- A flag or an option by its long name, with perhaps a value behind an equals sign. -/
def longFlag (takesForm : Bool) (s : Seen) (flag : List Char) : Option Next :=
  let name := String.ofList (flag.takeWhile (· != '='))
  match flag.dropWhile (· != '=') with
  | [] =>
    if name = "verbose" then s.addVerbose.map .argument
    else if name = "no-color" then s.addNoColor.map .argument
    else if name = "emit" && takesForm then some (.value s)
    else none
  | _ :: word =>
    if name = "emit" && takesForm then (s.addForm (String.ofList word)).map .argument else none

/-- An argument that is a flag: a dash with something behind it. -/
def flag (takesForm : Bool) (s : Seen) : List Char → Option Next
  | '-' :: flag => longFlag takesForm s flag
  | flags => shortFlags takesForm s flags

/-- An argument taken as a flag or else as an operand. -/
def argument (takesForm : Bool) (s : Seen) (arg : String) : Option Next :=
  match arg.toList with
  | '-' :: c :: more => flag takesForm s (c :: more)
  | _ => (s.addOperand arg).map .argument

/-- The value of an option.  What looks like a flag is none. -/
def formValue (s : Seen) (arg : String) : Option Seen :=
  match arg.toList with
  | '-' :: _ :: _ => none
  | _ => s.addForm arg

/-- The arguments of a command. -/
def commandArguments (takesForm : Bool) : Seen → List String → Option Seen
  | s, [] => some s
  | s, "--" :: operands => operands.foldlM Seen.addOperand s
  | s, arg :: args =>
    match argument takesForm s arg with
    | none => none
    | some (.argument s) => commandArguments takesForm s args
    | some (.value s) =>
      match args with
      | [] => none
      | word :: args => (formValue s word).bind fun s => commandArguments takesForm s args

/-! ## The whole command line -/

/-- A command by its name and what was seen behind it. -/
def command (name : String) (s : Seen) : Option Request :=
  match name, s.operands with
  | "parse", [] => some (.parse none (s.form.getD .debug))
  | "parse", [file] => some (.parse (some file) (s.form.getD .debug))
  | "check", file :: files => some (.check (file :: files))
  | "tokens", [] => some (.tokens none)
  | "tokens", [file] => some (.tokens (some file))
  | _, _ => none

/-- The flags before the command, and the command. -/
def readFrom (s : Seen) : List String → Option Arguments
  | [] => none
  | arg :: args =>
    match arg.toList with
    | '-' :: c :: more =>
      match flag false s (c :: more) with
      | some (.argument s) => readFrom s args
      | _ => none
    | _ => do
      let inner ← commandArguments (arg = "parse") .none args
      let command ← command arg inner
      return ⟨s.verbose || inner.verbose, s.noColor || inner.noColor, command⟩

/-- The arguments of a run, none for a usage error. -/
def read (args : List String) : Option Arguments := readFrom .none args

end SceneScript.CommandLine
