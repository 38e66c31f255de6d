import VisibilityRules.Command.Invocation
import VisibilityRules.Json.Text

set_option autoImplicit false

/-!
What a command answers: text on the standard output, notes beside it, and an exit code. In JSON
mode every answer is one JSON-RPC response on one line.
-/
namespace VisibilityRules.Command

inductive ExitCode where
  | success
  | failure
  | badArguments
  | badSettings
  | badContent
  -- The rules hide the element, and the exit code was to tell.
  | hidden
  deriving DecidableEq, Repr

def ExitCode.toNat : ExitCode → Nat
  | success => 0
  | failure => 1
  | badArguments => 2
  | badSettings => 3
  | badContent => 4
  | hidden => 5

structure Failure where
  code : ExitCode
  message : String
  deriving DecidableEq, Repr

structure Answer where
  output : String
  notes : String
  verdict : Except Failure ExitCode

namespace Answer

def line (text : String) : String := text ++ "\n"

def lines (texts : List String) : String := String.join (texts.map line)

def ok (output : String) : Answer := ⟨output, "", .ok .success⟩

def fail (failure : Failure) : Answer := ⟨"", "", .error failure⟩

def ofMode (mode : Mode) (text : String) (result : Json.Value) : Answer :=
  -- What is printed in text mode and what in JSON mode; quiet commands print nothing.
  match mode with
  | .quiet => ok ""
  | .text => ok text
  | .json =>
    let response := Json.Value.record
      [("jsonrpc", .text "2.0"), ("result", result), ("id", .null)]
    ok (line response.render)

end Answer

def Failure.response (f : Failure) : Json.Value :=
  .record [("jsonrpc", .text "2.0"),
    ("error", .record
      [("code", .int (-32000 - f.code.toNat)), ("message", .text f.message)]),
    ("id", .null)]

structure Ending where
  code : Nat
  output : String
  errors : String
  deriving DecidableEq, Repr

def Answer.ending (a : Answer) (mode : Mode) : Ending :=
  -- A failure is reported on the output in JSON mode and beside it in the others.
  match a.verdict with
  | .ok code => ⟨code.toNat, a.output, a.notes⟩
  | .error f =>
    if mode = .json then ⟨f.code.toNat, a.output ++ Answer.line f.response.render, a.notes⟩
    else ⟨f.code.toNat, a.output, a.notes ++ Answer.line ("error: " ++ f.message)⟩

namespace Usage

def code : Usage → Nat
  | help | version => 0
  | _ => 2

def synopsis : String := "usage: [OPTIONS] <COMMAND>\ncommands: " ++ ", ".intercalate commandNames

def message : Usage → String
  | unknownArgument => "unexpected argument"
  | invalidSubcommand => "unrecognized subcommand"
  | missingSubcommand => "a subcommand is required"
  | missingRequiredArgument => "a required argument is missing"
  | argumentConflict => "arguments exclude each other"
  | invalidValue => "invalid or missing value"
  | valueValidation => "a value is not a number of 64 bits"
  | tooManyValues => "a value where none is taken"
  | helpForMissing | help => synopsis
  | version => "0.1.0"

end Usage

end VisibilityRules.Command
