import Marginalia.Directory.Write

/-! # Temporary files

    That a file is replaced as a whole comes from a second file: the bytes are written to a
    temporary file in the same folder, which then takes the place of the one before.

    * **`create`**: opens the temporary file. The name has the number of the process in it,
      but something can stand there already: a file loses what it held, a link is followed,
      and a folder cannot be opened.
    * **`rename`**, **`erase`**: what is done to the temporary file in the end. If it cannot
      be moved, it is taken away.
    * **`writeThrough`**: all that `writeBytes` does, step by step. -/

namespace Marginalia.Directory

/-! ## Section 1: Single files -/

/-- Takes away what is at a location. -/
def erase (d : Directory) (l : Location) : Directory :=
  { d with entries := d.entries.filter fun x => x.1 != l }

/-- Where the entry of a folder is that has a name. The folder may lie behind so many
    links. -/
def entryIn (d : Directory) (links : Nat) (folder : List Name) (n : Name) :
    Except FileFault Location :=
  match d.travel true links [] (folder ++ [here]) with
  | .error f => .error f
  | .ok l =>
    if n = here ∨ n = above then .error .isDirectory
    else if nameLimit < byteLength n then .error .nameTooLong
    else .ok (l ++ [n])

/-- The folder of what a link in another folder leads to, and its name there. A slash at the
    end can only mean the folder itself. -/
def behindLink (d : Directory) (folder : List Name) (target : List Char) :
    Except FileFault (List Name × Name) :=
  let last (t : List Char) := if endsInSlash t then here else ((names t).getLast?).getD here
  match d.inside? target, target with
  | some t, _      => .ok ((names t).dropLast, last t)
  | none, '/' :: _ => .error .notFound
  | none, t        => .ok (folder ++ (names t).dropLast, last t)

/-- Where the file is that an entry of a folder is opened as. Links are followed, also to
    where nothing is yet. -/
def openedAt (d : Directory) : Nat → List Name → Location → Except FileFault Location
  | links, folder, l =>
    match d.get? l with
    | some .folder => .error .isDirectory
    | some (.link target) =>
      match links with
      | 0 => .error .tooManyLinks
      | links + 1 =>
        match d.behindLink folder target with
        | .error f => .error f
        | .ok (folder, n) =>
          match d.entryIn links folder n with
          | .error f => .error f
          | .ok l => d.openedAt links folder l
    | _ => .ok l

/-- Opens the entry of a folder that has a name, and makes a file if there is none: where the
    entry is, and where the file is. -/
def create (d : Directory) (folder : List Name) (n : Name) :
    Except FileFault (Location × Location) :=
  match d.entryIn linkLimit folder n with
  | .error f => .error f
  | .ok l => (d.openedAt linkLimit folder l).map fun m => (l, m)

/-- The bytes of a file are replaced where it is. A file that was there keeps its permission
    bits. -/
def fill (d : Directory) (l : Location) (bytes : ByteArray) : Directory :=
  match d.get? l with
  | some (.file _ mode) => d.set l (.file bytes mode)
  | _ => d.set l (.file bytes none)

/-- Moves what is at a location to where a path leads, in place of a file that is there. -/
def rename (d : Directory) (source : Location) (path : List Char) : Except FileFault Directory :=
  match d.get? source with
  | none   => .error .notFound
  | some e => (d.landing path).map fun l => (d.erase source).set l e

/-! ## Section 2: Writing step by step -/

/-- The name of a temporary file for a file with a name. -/
def temporaryName (process : Nat) (n : Name) : Name :=
  '.' :: n ++ '.' :: Nat.toDigits 10 process ++ ".tmp".toList

/-- The folder of the temporary file and its name. It stands beside what the names lead to,
    or in it if the last one stands for no entry of its folder. -/
def temporary (process : Nat) (ns : List Name) : List Name × Name :=
  match (components ns).getLast? with
  | none   => ([], temporaryName process [])
  | some n =>
    if n = here ∨ n = above then (components ns, temporaryName process [])
    else ((components ns).dropLast, temporaryName process n)

/-- Writes a temporary file and moves it to where a path leads. If it cannot be moved, it is
    taken away. It is given the permission bits of the file that was there, if one `wasThere`. -/
def replaceThrough (d : Directory) (process : Nat) (path : List Char) (bytes : ByteArray)
    (mode : Option Nat) (wasThere : Bool) : Directory × Except WriteFault Unit :=
  match d.route path with
  | .error f => (d, .error ⟨path, f⟩)
  | .ok (ns, _) =>
    let (folder, n) := temporary process ns
    match d.create folder n with
    | .error f => (d, .error ⟨['/'].intercalate (folder ++ [n]), f⟩)
    | .ok (l, m) =>
      let opened := d.fill m .empty
      let written := opened.fill m bytes
      let permitted := if wasThere then written.set m (.file bytes mode) else written
      match permitted.rename l path with
      | .ok d => (d, .ok ())
      | .error f => (permitted.erase l, .error ⟨path, f⟩)

/-- Replaces the file that a path leads to, with all steps on the way. -/
def writeThrough (d : Directory) (process : Nat) (p : FilePath) (bytes : ByteArray) :
    Directory × Except WriteFault Unit :=
  match d.prepare p with
  | (d', .error w) => (d', .error w)
  | (d', .ok (path, mode)) =>
    d'.replaceThrough process path bytes mode (d.find true path).isOk

end Marginalia.Directory
