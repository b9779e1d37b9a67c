import Marginalia.Directory.Temporary

/-! # Scripts that work on files

    A script says which files to read and write, and what to do with the answers. It
    can be run on a `Directory`, which is a value, as well as on the files of a
    computer.

    * **`FileScript`**: scripts as trees, with one branch for each possible answer.
    * **`FileScript.runWith`**: what a script does to a directory, where it is given how a
      file is replaced.
    * **`FileScript.runThrough`**: each file is replaced through a temporary file.
    * **`FileScript.run`**: each file is replaced in one step. That comes to the same for a
      write that succeeds, as long as nothing is where the temporary file is made. -/

namespace Marginalia

/-- A script that ends with a result. -/
inductive FileScript (α : Type) where
  | done (result : α)
  | readText (p : FilePath) (next : Except FileFault String → FileScript α)
  | writeText (p : FilePath) (text : String)
      (next : Except Directory.WriteFault Unit → FileScript α)
  | isFile (p : FilePath) (next : Bool → FileScript α)
  | isThere (p : FilePath) (next : Bool → FileScript α)

namespace FileScript

variable {α β : Type}

/-- Goes on with the result of a script. -/
def bind (s : FileScript α) (f : α → FileScript β) : FileScript β :=
  match s with
  | .done a              => f a
  | .readText p next     => .readText p fun r => (next r).bind f
  | .writeText p t next  => .writeText p t fun r => (next r).bind f
  | .isFile p next       => .isFile p fun b => (next b).bind f
  | .isThere p next      => .isThere p fun b => (next b).bind f

instance : Monad FileScript where
  pure := .done
  bind := bind

/-- How the text of a file is replaced: what becomes of the directory, and the answer. -/
abbrev Writing :=
  Directory → FilePath → String → Directory × Except Directory.WriteFault Unit

/-- What a script does to a directory in which files are replaced by `write`, and its
    result. -/
def runWith (write : Writing) (d : Directory) : FileScript α → α × Directory
  | .done a             => (a, d)
  | .readText p next    => (next (d.readText p)).runWith write d
  | .writeText p t next =>
    let (d, r) := write d p t
    (next r).runWith write d
  | .isFile p next      => (next (d.isFile p)).runWith write d
  | .isThere p next     => (next (d.exists? p)).runWith write d

/-- What a script does to a directory if each file is replaced in one step. -/
def run (d : Directory) (s : FileScript α) : α × Directory :=
  s.runWith Directory.writeText d

/-- What a script does to a directory in a process with this number, which replaces each file
    through a temporary file. -/
def runThrough (process : Nat) (d : Directory) (s : FileScript α) : α × Directory :=
  s.runWith (fun d p t => d.writeThrough process p t.toUTF8) d

/-- The second part of a script sees what the first part has done. -/
theorem runWith_bind (write : Writing) (s : FileScript α) (f : α → FileScript β)
    (d : Directory) :
    (s >>= f).runWith write d = (f (s.runWith write d).1).runWith write (s.runWith write d).2 := by
  change (s.bind f).runWith write d = _
  induction s generalizing d with
  | done a => rfl
  | readText p next ih => exact ih (d.readText p) d
  | writeText p t next ih => exact ih (write d p t).2 (write d p t).1
  | isFile p next ih => exact ih (d.isFile p) d
  | isThere p next ih => exact ih (d.exists? p) d

theorem run_bind (s : FileScript α) (f : α → FileScript β) (d : Directory) :
    (s >>= f).run d = (f (s.run d).1).run (s.run d).2 :=
  runWith_bind ..

@[simp] theorem runWith_pure (write : Writing) (a : α) (d : Directory) :
    (pure a : FileScript α).runWith write d = (a, d) := rfl

@[simp] theorem run_pure (a : α) (d : Directory) :
    (pure a : FileScript α).run d = (a, d) := rfl

theorem run_readText (p : FilePath) (next : Except FileFault String → FileScript α)
    (d : Directory) : (readText p next).run d = (next (d.readText p)).run d := rfl

theorem run_writeText (p : FilePath) (text : String)
    (next : Except Directory.WriteFault Unit → FileScript α) (d : Directory) :
    (writeText p text next).run d =
      (next (d.writeText p text).2).run (d.writeText p text).1 := rfl

theorem run_isFile (p : FilePath) (next : Bool → FileScript α) (d : Directory) :
    (isFile p next).run d = (next (d.isFile p)).run d := rfl

end FileScript

end Marginalia
