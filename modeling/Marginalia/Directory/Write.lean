import Marginalia.Directory

/-! # Writing whole files

    A file is replaced as a whole, and through links:

    * **`target`**: the path that is written to. A link at the end is followed first,
      so that the link stays and the file behind it changes.
    * **`makeFolders`**: the folders on the way are made.
    * **`prepare`**: all of it in order, and the permission bits of the file before.
    * **`replace`**: the file takes the place of the one before.
    * **`writeBytes`**: the whole, with the path that a fault is reported at. Folders that
      were made stay, even if the file cannot be put there. -/

namespace Marginalia.Directory

/-- A fault, and the path it is reported at. -/
structure WriteFault where
  path  : List Char
  fault : FileFault
deriving DecidableEq, Repr

/-- The absolute path of a location. -/
def absolute (d : Directory) (l : Location) : List Char :=
  d.home ++ l.flatMap fun n => '/' :: n

/-- The path that is written to. -/
def target (d : Directory) (path : List Char) : Except WriteFault (List Char) :=
  match d.find false path with
  | .ok (_, .link _) =>
    match d.find true path with
    | .ok (l, _) => .ok (d.absolute l)
    | .error f   => .error ⟨path, f⟩
  | _ => .ok path

/-- Makes one folder, in a folder that is there already. -/
def makeFolder (d : Directory) (ns : List Name) : Except FileFault Directory :=
  match ns.getLast? with
  | none => .error .exists
  | some n =>
    match d.travel true linkLimit [] (ns.dropLast ++ [here]) with
    | .error f => .error f
    | .ok l =>
      if n = here ∨ n = above then .error .exists
      else if nameLimit < byteLength n then .error .nameTooLong
      else if (d.get? (l ++ [n])).isSome then .error .exists
      else .ok (d.set (l ++ [n]) .folder)

/-- Whether names lead to a folder. -/
def leadsToFolder (d : Directory) (ns : List Name) : Bool :=
  match d.travel true linkLimit [] ns with
  | .ok l => (d.get? l).any Entry.isFolder
  | .error _ => false

/-- Makes a folder and those above it, as far as they are missing. The names are
    given from the last one up. -/
def makeFolders (d : Directory) : List Name → Directory × Option FileFault
  | [] => (d, none)
  | n :: up =>
    let ns := (n :: up).reverse
    let verdict (d : Directory) (f : FileFault) :=
      (d, if d.leadsToFolder ns then none else some f)
    match d.makeFolder ns with
    | .ok d => (d, none)
    | .error .notFound =>
      match d.makeFolders up with
      | (d, some f) => (d, some f)
      | (d, none) =>
        match d.makeFolder ns with
        | .ok d => (d, none)
        | .error f => verdict d f
    | .error f => verdict d f

/-- The names of a path without those that stand for the folder that they are in. At the
    very beginning such a name stays. -/
def components : List Name → List Name
  | n :: rest => n :: rest.filter (· != here)
  | []        => []

/-- The folders that the last name of a path is in. -/
def parentNames (ns : List Name) : List Name :=
  (components ns).dropLast

/-- The folders on the way that a path leads. -/
def foldersTo (d : Directory) (path : List Char) : List Name :=
  match d.route path with
  | .ok (ns, _) => parentNames ns
  | .error _    => []

/-- Where a file is put that is to be what a path leads to. A file or a link that is there
    makes place for it, a folder does not. -/
def landing (d : Directory) (path : List Char) : Except FileFault Location :=
  match d.route path with
  | .error f => .error f
  | .ok (ns, slash) =>
    match ns.getLast? with
    | none => .error (if slash then .notDirectory else .isDirectory)
    | some n =>
      match d.travel true linkLimit [] (ns.dropLast ++ [here]) with
      | .error f => .error f
      | .ok l =>
        if n = here ∨ n = above then .error .busy
        else if slash then .error .notDirectory
        else if nameLimit < byteLength n then .error .nameTooLong
        else
          match d.get? (l ++ [n]) with
          | some .folder => .error .isDirectory
          | _ => .ok (l ++ [n])

/-- Puts a file where a path leads, in place of a file that is there. -/
def replace (d : Directory) (path : List Char) (bytes : ByteArray) (mode : Option Nat) :
    Except FileFault Directory :=
  (d.landing path).map fun l => d.set l (.file bytes mode)

/-- The permission bits for a file at a path, which are those of the file that is there. -/
def modeAt (d : Directory) (path : List Char) : Except FileFault (Option Nat) :=
  match d.find true path with
  | .ok (_, .file _ mode) => .ok mode
  | .ok _ => .ok none
  | .error .notFound => .ok none
  | .error f => .error f

/-- All that comes before the file itself is written: the path that is written to, the
    permission bits of the file, and the folders on the way, which are made. -/
def prepare (d : Directory) (p : FilePath) :
    Directory × Except WriteFault (List Char × Option Nat) :=
  match d.target p.chars with
  | .error f => (d, .error f)
  | .ok path =>
    match d.modeAt path with
    | .error f => (d, .error ⟨path, f⟩)
    | .ok mode =>
      let ns := d.foldersTo path
      match d.makeFolders ns.reverse with
      | (d, some f) => (d, .error ⟨(['/'].intercalate ns), f⟩)
      | (d, none) => (d, .ok (path, mode))

/-- Replaces the file that a path leads to. -/
def writeBytes (d : Directory) (p : FilePath) (bytes : ByteArray) :
    Directory × Except WriteFault Unit :=
  match d.prepare p with
  | (d, .error w) => (d, .error w)
  | (d, .ok (path, mode)) =>
    match d.replace path bytes mode with
    | .error f => (d, .error ⟨path, f⟩)
    | .ok d => (d, .ok ())

/-- Replaces the text of the file that a path leads to. -/
def writeText (d : Directory) (p : FilePath) (text : String) :
    Directory × Except WriteFault Unit :=
  d.writeBytes p text.toUTF8

end Marginalia.Directory
