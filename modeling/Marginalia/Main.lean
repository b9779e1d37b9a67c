import Marginalia.Command.Run

/-! # The program

    Runs the command line on the files of the computer. All that the program does is
    decided by `runWords`; here the files are read and written that it asks for. -/

namespace Marginalia

/-- The fault that the system reports. -/
def faultOf : IO.Error → FileFault
  | .noFileOrDirectory ..    => .notFound
  | .resourceBusy ..         => .busy
  | .alreadyExists ..        => .exists
  | .inappropriateType _ 20 _ => .notDirectory
  | .inappropriateType _ 21 _ => .isDirectory
  | e                        => .other e.toString

/-- Whether a path leads to a file, or to anything at all. -/
def leadsTo (wanted : IO.FS.FileType → Bool) (p : FilePath) : IO Bool :=
  try
    return wanted (← (← IO.FS.realPath p.toString).metadata).type
  catch _ => return false

/-- The text of a file. -/
def readFile (p : FilePath) : IO (Except FileFault String) :=
  try
    match String.fromUTF8? (← IO.FS.readBinFile p.toString) with
    | some text => return .ok text
    | none      => return .error .notUtf8
  catch e => return .error (faultOf e)

/-- Replaces the text of a file, which keeps its permissions. -/
def writeFile (p : FilePath) (text : String) : IO (Except Directory.WriteFault Unit) :=
  try
    IO.FS.writeFile p.toString text
    return .ok ()
  catch e => return .error ⟨p.chars, faultOf e⟩

/-- Runs a script on the files of the computer. -/
def FileScript.perform {α : Type} : FileScript α → IO α
  | .done a             => pure a
  | .readText p next    => do (next (← readFile p)).perform
  | .writeText p t next => do (next (← writeFile p t)).perform
  | .isFile p next      => do (next (← leadsTo (· == .file) p)).perform
  | .isThere p next     => do (next (← leadsTo (fun _ => true) p)).perform

end Marginalia

open Marginalia in
/-- The program `revmark`. -/
def main (args : List String) : IO UInt32 := do
  let home := (← IO.currentDir).toString.toList
  let environment := (← IO.getEnv "REVMARK_CONFIG").map String.toList
  let e ← (runWords home environment (args.map String.toList)).perform
  IO.print (String.ofList e.output)
  IO.eprint (String.ofList e.errors)
  return e.code.toUInt32
