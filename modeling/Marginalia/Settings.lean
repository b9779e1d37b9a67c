import Marginalia.Data
import Marginalia.Failure

/-! # Settings

    * **`Language`**: the comments of a language, and which files are written in it.
    * **`Languages`**: languages by name, in the order of their names.
    * **`Settings`**: the marks of tags and the languages they are used with.
    * **`Settings.grammarFor`** and **`Settings.grammarForPath`**: the grammar for a
      language or for a file. -/

namespace Marginalia

/-! ## Section 1: Languages -/

/-- The marks that tags are written with in every language. -/
structure Markers where
  boundary  : Char
  separator : Char
  cleanup   : Char
deriving DecidableEq, Repr

/-- The comments of a language. -/
structure Language where
  extensions : List Text
  opener     : Text
  closer     : Text
deriving DecidableEq, Repr

/-- Entries with distinct keys, the smallest key first. -/
def IsSorted (es : List (Text × Language)) : Prop :=
  es.Pairwise fun a b => Text.precedes a.1 b.1 = true

/-- Puts a language in its place. It replaces the one with its name. -/
def insertSorted (name : Text) (l : Language) : List (Text × Language) → List (Text × Language)
  | [] => [(name, l)]
  | (n, m) :: es =>
    if Text.precedes name n then (name, l) :: (n, m) :: es
    else if name = n then (name, l) :: es
    else (n, m) :: insertSorted name l es

/-- Inserting brings in nothing but the new entry. -/
theorem mem_insertSorted {name : Text} {l : Language} {es : List (Text × Language)}
    {e : Text × Language} (h : e ∈ insertSorted name l es) : e = (name, l) ∨ e ∈ es := by
  induction es with
  | nil => simpa [insertSorted] using h
  | cons x es ih =>
    obtain ⟨n, m⟩ := x
    unfold insertSorted at h
    split at h
    · simpa using h
    · split at h
      · rcases List.mem_cons.1 h with h | h
        · exact .inl h
        · exact .inr (List.mem_cons_of_mem _ h)
      · rcases List.mem_cons.1 h with h | h
        · exact .inr (h ▸ List.mem_cons_self)
        · exact (ih h).imp id (List.mem_cons_of_mem _)

theorem isSorted_insertSorted {name : Text} {l : Language} {es : List (Text × Language)}
    (h : IsSorted es) : IsSorted (insertSorted name l es) := by
  induction es with
  | nil => simp [insertSorted, IsSorted]
  | cons x es ih =>
    obtain ⟨n, m⟩ := x
    obtain ⟨hn, hs⟩ := List.pairwise_cons.1 h
    unfold insertSorted
    split
    · next hlt =>
      refine List.pairwise_cons.2 ⟨fun e he => ?_, h⟩
      rcases List.mem_cons.1 he with rfl | he
      · exact hlt
      · exact Text.precedes_trans hlt (hn e he)
    · next hlt =>
      split
      · next heq =>
        subst heq
        exact List.pairwise_cons.2 ⟨hn, hs⟩
      · next hne =>
        refine List.pairwise_cons.2 ⟨fun e he => ?_, ih hs⟩
        rcases mem_insertSorted he with rfl | he
        · exact Text.precedes_of_ne hne (by simpa using hlt)
        · exact hn e he

/-- Languages with distinct names, in the order of their names. -/
structure Languages where
  entries : List (Text × Language)
  sorted  : IsSorted entries
deriving DecidableEq

namespace Languages

/-- No languages. -/
def empty : Languages := ⟨[], List.Pairwise.nil⟩

/-- Adds a language, or replaces the one with its name. -/
def insert (ls : Languages) (name : Text) (l : Language) : Languages :=
  ⟨insertSorted name l ls.entries, isSorted_insertSorted ls.sorted⟩

/-- Adds languages one after the other. -/
def insertAll (ls : Languages) (es : List (Text × Language)) : Languages :=
  es.foldl (fun ls e => ls.insert e.1 e.2) ls

/-- Languages in any order. -/
def ofList (es : List (Text × Language)) : Languages :=
  empty.insertAll es

/-- The language with a name. -/
def get? (ls : Languages) (name : Text) : Option Language :=
  ls.entries.lookup name

theorem lookup_cons_eq (k n : Text) (m : Language) (es : List (Text × Language)) :
    ((k, m) :: es).lookup n = if n = k then some m else es.lookup n := by
  by_cases h : n = k
  · simp [h]
  · have hb : (n == k) = false := by simpa using h
    simp [List.lookup_cons, h, hb]

theorem lookup_insertSorted (name n : Text) (l : Language) (es : List (Text × Language)) :
    (insertSorted name l es).lookup n = if n = name then some l else es.lookup n := by
  induction es with
  | nil => simp [insertSorted, lookup_cons_eq]
  | cons x es ih =>
    obtain ⟨k, m⟩ := x
    unfold insertSorted
    split
    · simp [lookup_cons_eq]
    · split
      · next heq =>
        subst heq
        by_cases h : n = name <;> simp [lookup_cons_eq, h]
      · next hne =>
        by_cases hk : n = k
        · subst hk
          simp [Ne.symm hne]
        · simp [lookup_cons_eq, hk, ih]

/-- A language that was added is there, and the others are as before. -/
theorem get?_insert (ls : Languages) (name n : Text) (l : Language) :
    (ls.insert name l).get? n = if n = name then some l else ls.get? n :=
  lookup_insertSorted name n l ls.entries

/-- A language whose files have these extensions. -/
def entry (name : String) (extensions : List String) (opener closer : String) :
    Text × Language :=
  (name.toList, ⟨extensions.map String.toList, opener.toList, closer.toList⟩)

/-- The languages that need no settings. -/
def builtin : Languages := ofList [
  entry "c-family" ["java", "c", "h", "cpp", "hpp", "cc", "cs", "js", "jsx", "ts", "tsx", "go",
    "rs", "kt", "scala", "swift", "css", "php"] "/*" "*/",
  entry "haskell" ["hs"] "\x7b-" "-\x7d",
  entry "lua" ["lua"] "--[[" "]]",
  entry "markup" ["html", "htm", "xml", "xhtml", "svg", "vue"] "<!--" "-->",
  entry "ocaml" ["ml", "mli"] "(*" "*)"]

end Languages

/-! ## Section 2: Settings -/

/-- How tags are written. -/
structure Settings where
  markers   : Markers
  languages : Languages
deriving DecidableEq

namespace Settings

/-- The settings without a settings file. -/
def standard : Settings where
  markers :=
    { boundary  := Grammar.standard.boundary
      separator := Grammar.standard.separator
      cleanup   := Grammar.standard.cleanup }
  languages := .builtin

/-- How tags are spelled in a language. -/
def spelling (s : Settings) (l : Language) : Spelling where
  boundary  := s.markers.boundary
  separator := s.markers.separator
  cleanup   := s.markers.cleanup
  opener    := l.opener
  closer    := l.closer

/-- The grammar for the language with a name. -/
def grammarFor (s : Settings) (name : Text) : Except Failure Grammar :=
  match s.languages.get? name with
  | none => .error (.noSyntax (.language name))
  | some l => (Grammar.ofSpelling (s.spelling l)).mapError (.grammar (some name))

/-- Two extensions that differ at most in the case of ASCII letters. -/
def sameExtension (a b : Text) : Bool :=
  a.map Char.toLower == b.map Char.toLower

/-- The first language that claims an extension. -/
def languageOf? (s : Settings) (extension : Text) : Option Text :=
  (s.languages.entries.find? fun e => e.2.extensions.any (sameExtension extension)).map Prod.fst

/-- The grammar for a file, which is that of the language of its extension. -/
def grammarForPath (s : Settings) (p : FilePath) : Except Failure Grammar :=
  match p.extension?.bind s.languageOf? with
  | none => .error (.noSyntax (.file p.chars))
  | some name => s.grammarFor name

/-- The first failure that some language leads to. -/
def failure? (s : Settings) : Option Failure :=
  s.languages.entries.findSome? fun e =>
    match s.grammarFor e.1 with
    | .ok _ => none
    | .error f => some f

end Settings

end Marginalia
