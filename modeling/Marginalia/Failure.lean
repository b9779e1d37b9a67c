import Marginalia.Format
import Marginalia.Directory.Write
import Marginalia.Placement
import Marginalia.Text.Quoted

/-! # What can go wrong

    * **`FileFailure`**: a file cannot be read or written, or is not what it should
      be.
    * **`Failure`**: any reason why tags cannot be set, removed or listed.
    * **`Failure.isConfig`**: the reason lies in the settings.

    A message that would have to quote the details of somebody else's file or pattern
    ends in `unexplained` instead. -/

namespace Marginalia

/-- Stands for the details of what is wrong inside of a file or pattern. -/
def unexplained : String := "..."

/-! ## Section 1: Files -/

/-- Why a file cannot be used. -/
inductive FileFailure where
  | system (path : List Char) (fault : FileFault)
  /-- The file does not hold data of the right shape. -/
  | malformed (format : Format) (path : List Char)
  /-- The format cannot hold the data. -/
  | unwritable (format : Format) (path : List Char)
  | unknownFormat (extension : String)
deriving DecidableEq, Repr

namespace FileFailure

/-- A fault that was met while writing. -/
def ofWrite (w : Directory.WriteFault) : FileFailure :=
  .system w.path w.fault

/-- The wording of a failure. -/
def message : FileFailure → String
  | .system path fault    => "I/O error at " ++ String.ofList path ++ ": " ++ fault.message
  | .malformed f path     =>
    "Failed to parse " ++ f.name ++ " config at " ++ String.ofList path ++ ": " ++ unexplained
  | .unwritable f path    =>
    "Failed to serialize " ++ f.name ++ " config for " ++ String.ofList path ++ ": " ++ unexplained
  | .unknownFormat e      => "Unsupported config format: " ++ e

end FileFailure

/-! ## Section 2: Tags -/

/-- What has no comment syntax. -/
inductive Subject where
  | language (name : List Char)
  | file (path : List Char)
deriving DecidableEq, Repr

/-- How messages speak of a subject. -/
def Subject.text : Subject → String
  | .language name => "language '" ++ String.ofList name ++ "'"
  | .file path     => "file '" ++ String.ofList path ++ "'"

/-- Why tags cannot be set, removed or listed. -/
inductive Failure where
  | file (f : FileFailure)
  /-- The spelling of tags is refused, perhaps that of a certain language. -/
  | grammar (language : Option (List Char)) (fault : Spelling.Fault)
  | noSettings (path : List Char)
  | noSyntax (subject : Subject)
  | placement (fault : PlacementFault)
  /-- What should match identifiers is no pattern. -/
  | pattern
deriving DecidableEq, Repr

/-- The wording of a fault in the placement of tags. -/
def PlacementFault.message : PlacementFault → String
  | .identifier name fault =>
    "Invalid tag identifier " ++ String.ofList (Text.quoted name) ++ ": " ++ fault.message
  | .range start stop lineCount =>
    "Invalid line range " ++ toString start ++ "..=" ++ toString stop ++ " for a document with " ++
      toString lineCount ++ " lines"

namespace Failure

/-- The wording of a failure. -/
def message : Failure → String
  | .file f            => "Filesystem error: " ++ f.message
  | .grammar none f    => "Invalid tag grammar: " ++ f.message
  | .grammar (some l) f =>
    "Invalid tag grammar: " ++ (Subject.language l).text ++ ": " ++ f.message
  | .noSettings path   => "Configuration not found at " ++ String.ofList path
  | .noSyntax s        => "No comment syntax configured for " ++ s.text
  | .placement f       => f.message
  | .pattern           => "Invalid tag pattern: " ++ unexplained

/-- The failure lies in the settings, and not in a file or in what was asked for. -/
def isConfig : Failure → Bool
  | .grammar ..    => true
  | .noSettings _  => true
  | .noSyntax _    => true
  | _              => false

end Failure

end Marginalia
