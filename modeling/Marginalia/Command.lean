import Marginalia.Data

/-! # Commands

    * **`Command`**: what a user can ask for, with the operands and options of each
      command.
    * **`Invocation`**: a command, with the options that all commands share. -/

namespace Marginalia

/-- What a user asks for. The language of a file is that of its extension, unless
    another one is named. A dry run shows what would be written. -/
inductive Command where
  /-- Tags the lines from `start` to `stop`, which is `start` if it is missing. -/
  | add (file identifier : Text) (start : Nat) (stop : Option Nat) (language : Option Text)
      (dryRun : Bool)
  /-- Removes the tags with an identifier, or with one that matches a pattern. -/
  | remove (file identifier : Text) (isPattern : Bool) (language : Option Text) (dryRun : Bool)
  | clear (file : Text) (language : Option Text) (dryRun : Bool)
  | list (file : Text) (language : Option Text) (json : Bool)
  | languages (json : Bool)
  /-- Writes a settings file, in place of one that is there only with `force`. -/
  | init (force : Bool)
deriving DecidableEq, Repr

/-- A command line. -/
structure Invocation where
  verbose : Bool
  /-- The settings file that is asked for. -/
  config  : Option Text
  command : Option Command
deriving DecidableEq, Repr

end Marginalia
