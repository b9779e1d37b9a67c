import Marginalia.FileScript
import Marginalia.Settings.Record

/-! # Settings files

    * **`loadData`** and **`saveData`**: data in files, in the format that the extension
      of a file stands for.
    * **`Settings.load`**: the settings in a file, with the languages that need no
      settings. They are only used if all languages have a grammar.
    * **`Settings.save`**: writes settings to a file. -/

namespace Marginalia

/-! ## Section 1: Data in files -/

/-- Reads a file and takes its data for what `decode` says. The format has to be known
    before the file is read. -/
def loadData {α : Type} (p : FilePath) (decode : Format → Data → Option α) :
    FileScript (Except FileFailure α) :=
  let extension := Format.extensionOf p
  match Format.ofExtension? extension with
  | none => return .error (.unknownFormat extension)
  | some f => .readText p fun
    | .error fault => return .error (.system p.chars fault)
    | .ok text =>
      match (f.read? text.toList).bind (decode f) with
      | none => return .error (.malformed f p.chars)
      | some a => return .ok a

/-- Writes data to a file. Nothing is written if the format cannot hold the data. -/
def saveData (p : FilePath) (d : Data) : FileScript (Except FileFailure Unit) :=
  let extension := Format.extensionOf p
  match Format.ofExtension? extension with
  | none => return .error (.unknownFormat extension)
  | some f =>
    match f.write? d with
    | none => return .error (.unwritable f p.chars)
    | some text => .writeText p (String.ofList text) fun
      | .error w => return .error (.ofWrite w)
      | .ok () => return .ok ()

/-! ## Section 2: Settings in files -/

namespace Settings

/-- Adds the languages that need no settings, unless there are others of the same
    name. -/
def withBuiltin (s : Settings) : Settings :=
  { s with languages := Languages.builtin.insertAll s.languages.entries }

/-- The settings in a file. -/
def load (p : FilePath) : FileScript (Except Failure Settings) :=
  .isFile p fun
  | false => return .error (.noSettings p.chars)
  | true => do
    match ← loadData p Settings.ofData? with
    | .error f => return .error (.file f)
    | .ok s =>
      let s := s.withBuiltin
      match s.failure? with
      | some f => return .error f
      | none => return .ok s

/-- Writes settings to a file. -/
def save (s : Settings) (p : FilePath) : FileScript (Except Failure Unit) := do
  return (← saveData p s.toData).mapError .file

end Settings

end Marginalia
