import Marginalia.FilePath
import Marginalia.Total

/-! # Directories

    All files that the library works on lie in one directory, which is a value:

    * **`Entry`**: a file with its bytes and permission bits, a symbolic link, or a
      folder.
    * **`Directory`**: entries by location, and the absolute name of the whole.
    * **`Directory.resolve`**: the location that a path leads to, through folders and
      links, of which it may pass forty.
    * **Reading**: whole files, as bytes or as text.

    A location is a list of names from the directory down. Nothing outside of the
    directory can be seen from inside. -/

namespace Marginalia

/-! ## Section 1: Entries -/

/-- The name of an entry inside its folder. -/
abbrev Name := List Char

/-- Where an entry is: the names on the way down to it. -/
abbrev Location := List Name

/-- What a name in a folder stands for. -/
inductive Entry where
  /-- A file, and its permission bits unless they are the usual ones. -/
  | file (bytes : ByteArray) (mode : Option Nat)
  /-- A symbolic link to a path. -/
  | link (target : List Char)
  | folder

/-- The entry is a folder. -/
def Entry.isFolder : Entry → Bool
  | .folder => true
  | _       => false

/-- Why the operating system refuses an operation. -/
inductive FileFault where
  | notFound
  | busy
  | exists
  | notDirectory
  | isDirectory
  | nameTooLong
  | tooManyLinks
  | nulInPath
  | notUtf8
  /-- A fault that does not arise in a `Directory`, such as a lack of permission. -/
  | other (wording : String)
deriving DecidableEq, Repr

/-- The operating system's wording of a fault. -/
def FileFault.message : FileFault → String
  | .notFound     => "No such file or directory (os error 2)"
  | .busy         => "Device or resource busy (os error 16)"
  | .exists       => "File exists (os error 17)"
  | .notDirectory => "Not a directory (os error 20)"
  | .isDirectory  => "Is a directory (os error 21)"
  | .nameTooLong  => "File name too long (os error 36)"
  | .tooManyLinks => "Too many levels of symbolic links (os error 40)"
  | .nulInPath    => "file name contained an unexpected NUL byte"
  | .notUtf8      => "stream did not contain valid UTF-8"
  | .other w      => w

/-- A directory with everything in it. -/
structure Directory where
  /-- Its absolute name. -/
  home    : List Char
  entries : List (Location × Entry)

namespace Directory

/-- What is at a location. The directory itself is a folder. -/
def get? (d : Directory) (l : Location) : Option Entry :=
  if l = [] then some .folder else d.entries.lookup l

/-- Puts an entry at a location, in place of what was there. -/
def set (d : Directory) (l : Location) (e : Entry) : Directory :=
  { d with entries := (l, e) :: d.entries.filter fun x => x.1 != l }

theorem lookup_filter_ne {l m : Location} (h : m ≠ l) (es : List (Location × Entry)) :
    (es.filter fun x => x.1 != l).lookup m = es.lookup m := by
  induction es with
  | nil => rfl
  | cons x es ih =>
    obtain ⟨k, e⟩ := x
    by_cases hk : k = l
    · have hm : (m == k) = false := by simpa [hk] using h
      simp [List.lookup_cons, hk, ih, hk ▸ hm]
    · by_cases hm : m = k <;> simp [List.lookup_cons, hk, hm, ih]

/-- What was put at a location is there, and all else is as before. -/
theorem get?_set (d : Directory) (l m : Location) (e : Entry) (h : l ≠ []) :
    (d.set l e).get? m = if m = l then some e else d.get? m := by
  by_cases hm : m = l
  · subst hm
    simp [get?, set, h]
  · have hb : (m == l) = false := by simpa using hm
    simp [get?, set, hm, List.lookup_cons, hb, lookup_filter_ne hm]

/-! ## Section 2: From paths to locations -/

/-- The longest name that a folder can hold, in bytes. -/
def nameLimit : Nat := 255

/-- How many links may be passed on the way to one entry. -/
def linkLimit : Nat := 40

/-- The entry that stands for the folder itself. -/
def here : Name := ['.']

/-- The entry that stands for the folder above. -/
def above : Name := ['.', '.']

/-- The names of a path. -/
def names (path : List Char) : List Name :=
  (path.splitOnP (· == '/')).filter fun n => !n.isEmpty

/-- Whether a path ends in a slash, so that it can only mean a folder. -/
def endsInSlash (path : List Char) : Bool :=
  path.getLast? == some '/'

/-- What follows the absolute name of the directory in a path, if the path leads into
    it. -/
def inside? (d : Directory) (path : List Char) : Option (List Char) :=
  if d.home.isEmpty then none
  else
    match d.home.isPrefixOf? path with
    | some [] => some []
    | some ('/' :: rest) => some ('/' :: rest)
    | _ => none

/-- The names on the way that a path leads from the directory, and whether it ends in
    a slash. -/
def route (d : Directory) (path : List Char) : Except FileFault (List Name × Bool) :=
  if path.isEmpty then .error .notFound
  else if path.contains (Char.ofNat 0) then .error .nulInPath
  else
    match d.inside? path, path with
    | some rest, _ => .ok (names rest, endsInSlash rest)
    | none, '/' :: _ => .error .notFound
    | none, path => .ok (names path, endsInSlash path)

/-- Where a walk stops. -/
inductive Stop where
  | arrived (l : Location)
  /-- At a link in the folder `l`, with these names still to go. -/
  | link (l : Location) (target : List Char) (rest : List Name)

/-- Walks along names until they end or a link is met. A link at the very end is only
    met with `follow`. -/
def walk (d : Directory) (follow : Bool) : Location → List Name → Except FileFault Stop
  | l, [] => .ok (.arrived l)
  | l, n :: ns =>
    if !(d.get? l).any Entry.isFolder then .error .notDirectory
    else if n = here then d.walk follow l ns
    else if n = above then
      if l = [] then .error .notFound else d.walk follow l.dropLast ns
    else if nameLimit < byteLength n then .error .nameTooLong
    else
      match d.get? (l ++ [n]) with
      | none => .error .notFound
      | some (.link target) =>
        if ns = [] ∧ follow = false then .ok (.arrived (l ++ [n])) else .ok (.link l target ns)
      | some _ => d.walk follow (l ++ [n]) ns

/-- Walks along names and through links, of which at most so many may be passed. -/
def travel (d : Directory) (follow : Bool) : Nat → Location → List Name →
    Except FileFault Location
  | links, l, ns =>
    match d.walk follow l ns with
    | .error f => .error f
    | .ok (.arrived l) => .ok l
    | .ok (.link l target rest) =>
      match links with
      | 0 => .error .tooManyLinks
      | links + 1 =>
        match d.inside? target, target with
        | some t, _ => d.travel follow links [] (names t ++ rest)
        | none, '/' :: _ => .error .notFound
        | none, t =>
          d.travel follow links l (names t ++ (if endsInSlash t then [here] else []) ++ rest)

/-- The location that a path leads to. With `follow`, a link at the end is followed as
    well. -/
def resolve (d : Directory) (follow : Bool) (path : List Char) : Except FileFault Location :=
  match d.route path with
  | .error f => .error f
  | .ok (ns, slash) => d.travel follow linkLimit [] (ns ++ if slash then [here] else [])

/-- What a path leads to. -/
def find (d : Directory) (follow : Bool) (path : List Char) :
    Except FileFault (Location × Entry) :=
  match d.resolve follow path with
  | .error f => .error f
  | .ok l =>
    match d.get? l with
    | some e => .ok (l, e)
    | none   => .error .notFound

/-! ## Section 3: Reading -/

/-- The path leads to something. -/
def exists? (d : Directory) (p : FilePath) : Bool :=
  (d.find true p.chars).isOk

/-- The path leads to a file. -/
def isFile (d : Directory) (p : FilePath) : Bool :=
  match d.find true p.chars with
  | .ok (_, .file ..) => true
  | _ => false

/-- The bytes of the file that a path leads to. -/
def readBytes (d : Directory) (p : FilePath) : Except FileFault ByteArray :=
  match d.find true p.chars with
  | .error f => .error f
  | .ok (_, .file bytes _) => .ok bytes
  | .ok _ => .error .isDirectory

/-- The text of the file that a path leads to. -/
def readText (d : Directory) (p : FilePath) : Except FileFault String :=
  match d.readBytes p with
  | .error f => .error f
  | .ok bytes =>
    match String.fromUTF8? bytes with
    | some text => .ok text
    | none      => .error .notUtf8

end Directory

end Marginalia
