import VersionedObjects.Report.Basic
import VersionedObjects.Shell.Command

/-!
# Reports of commands

A command of the shell is reported by its name and its arguments.
-/

namespace VersionedObjects.Report

open Declaration (jsonOption)
open Shell (Command CommandError)

/-- The name of a command. -/
def commandName : Command → String
  | .help => "Help"
  | .quit => "Quit"
  | .quiet => "Quiet"
  | .load _ => "Load"
  | .declare _ => "Declare"
  | .new .. => "New"
  | .open _ => "Open"
  | .commit _ => "Commit"
  | .discard _ => "Discard"
  | .get .. => "Get"
  | .set .. => "Set"
  | .frames => "Frames"
  | .chain _ => "Chain"
  | .gc => "Gc"
  | .classes => "Classes"

/-- The arguments of a command. -/
def commandArgs : Command → List (String × Json)
  | .load path => [("path", .string path)]
  | .declare source => [("source", .string source)]
  | .new var className args =>
    [("var", .string var), ("class", .string className), ("args", texts args)]
  | .open generation | .commit generation | .discard generation =>
    [("generation", jsonOption count generation)]
  | .get var property => [("var", .string var), ("property", jsonOption .string property)]
  | .set var property value =>
    [("var", .string var), ("property", .string property), ("value", .string value)]
  | .chain var => [("var", .string var)]
  | .help | .quit | .quiet | .frames | .gc | .classes => []

/-- A command, or why a line is none. -/
def command : Except CommandError Command → Json
  | .ok c => .object (("command", .string (commandName c)) :: commandArgs c)
  | .error e => errorText "Command" e.text

end VersionedObjects.Report
