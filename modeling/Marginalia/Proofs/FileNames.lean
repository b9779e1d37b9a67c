import Mathlib.Data.List.DropRight
import Marginalia.FilePath

/-! # Names and extensions of files

    The extension of a file is found from the end of its path: behind the last dot of what
    is behind the last slash.

    * **`LastName`**: the name that a text ends in, said without looking from the end.
    * **`lastName_iff`**: the name that is found is the only one.
    * **`nameExtension?_eq_some_iff`**: which names have an extension.
    * **`fileName?_and_extension?`**: name and extension of any path. -/

namespace Marginalia.FilePath

/-! ## Section 1: Behind the last separator -/

/-- What is behind a separator is found from the end, if the separator is not in it. -/
theorem takeWhile_reverse_append {c : Char} {s : List Char} (h : c ∉ s) (before : List Char) :
    (before ++ c :: s).reverse.takeWhile (· != c) = s.reverse := by
  have hpass : ∀ a ∈ s.reverse, (a != c) = true := by
    intro a ha
    rw [bne_iff_ne]
    intro heq
    exact h (heq ▸ List.mem_reverse.1 ha)
  rw [List.reverse_append, List.reverse_cons, List.append_assoc,
    List.takeWhile_append_of_pos hpass]
  simp

theorem dropWhile_reverse_append {c : Char} {s : List Char} (h : c ∉ s) (before : List Char) :
    (before ++ c :: s).reverse.dropWhile (· != c) = c :: before.reverse := by
  have hall := List.takeWhile_append_dropWhile (p := (· != c)) (l := (before ++ c :: s).reverse)
  rw [takeWhile_reverse_append h] at hall
  have hreverse : (before ++ c :: s).reverse = s.reverse ++ c :: before.reverse := by simp
  rw [hreverse] at hall ⊢
  exact List.append_cancel_left hall

/-- A text without a separator is found as a whole. -/
theorem takeWhile_reverse_of_not_mem {c : Char} {s : List Char} (h : c ∉ s) :
    s.reverse.takeWhile (· != c) = s.reverse := by
  rw [List.takeWhile_eq_self_iff]
  intro a ha
  rw [bne_iff_ne]
  intro heq
  exact h (heq ▸ List.mem_reverse.1 ha)

/-- What is found from the end does not have the separator in it, and is behind one or is the
    whole text. -/
theorem split_takeWhile_reverse (c : Char) (s : List Char) :
    let found := (s.reverse.takeWhile (· != c)).reverse
    c ∉ found ∧ (s = found ∨ ∃ before, s = before ++ c :: found) := by
  intro found
  refine ⟨?_, ?_⟩
  · intro hmem
    have hp := List.mem_takeWhile_imp (List.mem_reverse.1 hmem)
    exact absurd hp (by simp)
  · have hall := List.takeWhile_append_dropWhile (p := (· != c)) (l := s.reverse)
    have hs : (s.reverse.dropWhile (· != c)).reverse ++ found = s := by
      rw [← List.reverse_append, hall, List.reverse_reverse]
    cases hrest : s.reverse.dropWhile (· != c) with
    | nil =>
      rw [hrest] at hs
      exact .inl hs.symm
    | cons a rest =>
      -- the search stopped at a separator
      have hstop := List.head?_dropWhile_not (· != c) s.reverse
      rw [hrest] at hs hstop
      have ha : a = c := by simpa using hstop
      exact .inr ⟨rest.reverse, by rw [← hs, ha]; simp⟩

/-! ## Section 2: The last name -/

/-- The name stands behind the last slash of a text, or is all of it, apart from the slashes
    that the text ends in. -/
structure LastName (s name : List Char) : Prop where
  noSlash : '/' ∉ name
  split   : ∃ trimmed count, s = trimmed ++ List.replicate count '/' ∧
    trimmed.getLast? ≠ some '/' ∧ (trimmed = name ∨ ∃ before, trimmed = before ++ '/' :: name)

/-- Slashes at the end are dropped, and no others. -/
theorem dropTrailingSlashes_append {trimmed : List Char} (h : trimmed.getLast? ≠ some '/')
    (count : Nat) : dropTrailingSlashes (trimmed ++ List.replicate count '/') = trimmed := by
  have hkept : trimmed.rdropWhile (· == '/') = trimmed := by
    rw [List.rdropWhile_eq_self_iff]
    intro hne hlast
    apply h
    rw [List.getLast?_eq_some_getLast hne, eq_of_beq hlast]
  show (trimmed ++ List.replicate count '/').rdropWhile (· == '/') = trimmed
  induction count with
  | zero => rw [List.replicate_zero, List.append_nil, hkept]
  | succ count ih =>
    rw [List.replicate_succ', ← List.append_assoc, List.rdropWhile_concat_pos _ _ _ rfl, ih]

theorem exists_eq_dropTrailingSlashes_append (s : List Char) :
    ∃ count, s = dropTrailingSlashes s ++ List.replicate count '/' := by
  have hall : dropTrailingSlashes s ++ s.rtakeWhile (· == '/') = s :=
    List.rdropWhile_append_rtakeWhile
  have hslashes : s.rtakeWhile (· == '/') =
      List.replicate (s.rtakeWhile (· == '/')).length '/' := by
    rw [List.eq_replicate_iff]
    refine ⟨rfl, ?_⟩
    intro c hc
    have hslash : (c == '/') = true := List.mem_rtakeWhile_imp (p := (· == '/')) hc
    exact eq_of_beq hslash
  exact ⟨_, by rw [← hslashes, hall]⟩

theorem getLast?_dropTrailingSlashes (s : List Char) :
    (dropTrailingSlashes s).getLast? ≠ some '/' := by
  intro hlast
  have hne : dropTrailingSlashes s ≠ [] := by
    intro hnil
    rw [hnil] at hlast
    exact absurd hlast (by simp)
  have hslash : (dropTrailingSlashes s).getLast hne = '/' := by
    rw [List.getLast?_eq_some_getLast hne] at hlast
    exact Option.some.inj hlast
  have hno := List.rdropWhile_last_not (· == '/') s hne
  exact hno (beq_iff_eq.2 hslash)

/-- What is behind the last slash is the only name that a text ends in. -/
theorem lastName_iff (s name : List Char) :
    LastName s name ↔ name = afterLastSlash (dropTrailingSlashes s) := by
  constructor
  · intro h
    obtain ⟨trimmed, count, rfl, hlast, hname⟩ := h.split
    rw [dropTrailingSlashes_append hlast]
    unfold afterLastSlash
    rcases hname with hname | ⟨before, hname⟩
    · rw [hname, takeWhile_reverse_of_not_mem h.noSlash, List.reverse_reverse]
    · rw [hname, takeWhile_reverse_append h.noSlash, List.reverse_reverse]
  · intro h
    obtain ⟨count, hs⟩ := exists_eq_dropTrailingSlashes_append s
    obtain ⟨hslash, hsplit⟩ := split_takeWhile_reverse '/' (dropTrailingSlashes s)
    rw [h]
    exact ⟨hslash, dropTrailingSlashes s, count, hs, getLast?_dropTrailingSlashes s, hsplit⟩

/-! ## Section 3: Extensions -/

/-- A name has an extension if there is something on both sides of its last dot. -/
theorem nameExtension?_eq_some_iff {name x : List Char} :
    nameExtension? name = some x ↔
      ∃ stem, name = stem ++ '.' :: x ∧ stem ≠ [] ∧ x ≠ [] ∧ '.' ∉ x := by
  constructor
  · intro h
    unfold nameExtension? at h
    simp only at h
    split at h
    · next c cs d ds hx hstem =>
      obtain rfl := Option.some.inj h
      have hall := List.takeWhile_append_dropWhile (p := (· != '.')) (l := name.reverse)
      obtain ⟨hdot, -⟩ := split_takeWhile_reverse '.' name
      rw [hx] at hall hdot
      rw [hstem] at hall
      refine ⟨(d :: ds).reverse, ?_, by simp, by simp, hdot⟩
      rw [← List.reverse_reverse name, ← hall]
      simp
    · exact absurd h (by simp)
  · rintro ⟨stem, rfl, hstem, hx, hdot⟩
    obtain ⟨a, as, hstem⟩ := List.exists_cons_of_ne_nil (List.reverse_ne_nil_iff.2 hstem)
    obtain ⟨c, cs, hx⟩ := List.exists_cons_of_ne_nil (List.reverse_ne_nil_iff.2 hx)
    unfold nameExtension?
    simp only [takeWhile_reverse_append hdot, dropWhile_reverse_append hdot, hstem, hx]
    rw [← hx, List.reverse_reverse]

/-- No backslash is left in a path. -/
theorem backslash_not_mem_ofChars (s : List Char) : '\\' ∉ (ofChars s).chars := by
  intro hmem
  obtain ⟨c, -, hc⟩ := List.mem_map.1 hmem
  split at hc
  · exact absurd hc (by decide)
  · next hne => exact hne hc

theorem ofChars_of_not_mem {s : List Char} (h : '\\' ∉ s) : ofChars s = ⟨s⟩ := by
  have hsame : s.map (fun c => if c = '\\' then '/' else c) = s.map id := by
    apply List.map_congr_left
    intro c hc
    rw [if_neg, id]
    intro heq
    exact h (heq ▸ hc)
  show (⟨s.map _⟩ : FilePath) = ⟨s⟩
  rw [hsame, List.map_id]

theorem LastName.mem {s name : List Char} (h : LastName s name) {c : Char} (hc : c ∈ name) :
    c ∈ s := by
  obtain ⟨trimmed, count, rfl, -, hname⟩ := h.split
  apply List.mem_append_left
  rcases hname with rfl | ⟨before, rfl⟩
  · exact hc
  · exact List.mem_append_right _ (List.mem_cons_of_mem _ hc)

/-- Whatever text a path is made of, its file name is the one name that the text ends in when
    its backslashes are taken for slashes, unless that is empty. The extension is what is
    behind the last dot of that name, if there is something on both sides of the dot, and has
    no separator in it. A path is not changed when it is made again. -/
theorem fileName?_and_extension? (s : List Char) :
    ∃ name, (∀ n, LastName (s.map fun c => if c = '\\' then '/' else c) n ↔ n = name) ∧
      (ofChars s).fileName? = (if name = [] then none else some name) ∧
      (∀ x, (ofChars s).extension? = some x ↔
        ∃ stem, name = stem ++ '.' :: x ∧ stem ≠ [] ∧ x ≠ [] ∧ '.' ∉ x) ∧
      (∀ x, (ofChars s).extension? = some x → '/' ∉ x ∧ '\\' ∉ x) ∧
      ofChars (ofChars s).chars = ofChars s := by
  have hname : ∀ n, LastName (ofChars s).chars n ↔
      n = afterLastSlash (dropTrailingSlashes (ofChars s).chars) := fun n => lastName_iff _ n
  generalize hfound : afterLastSlash (dropTrailingSlashes (ofChars s).chars) = name at hname
  have hfile : (ofChars s).fileName? = if name = [] then none else some name := by
    unfold fileName?
    rw [hfound]
    cases name <;> rfl
  have hextension : ∀ x, (ofChars s).extension? = some x ↔
      ∃ stem, name = stem ++ '.' :: x ∧ stem ≠ [] ∧ x ≠ [] ∧ '.' ∉ x := by
    intro x
    rw [← nameExtension?_eq_some_iff]
    unfold extension?
    rw [hfile]
    by_cases hempty : name = []
    · -- no name, no extension
      rw [if_pos hempty, hempty]
      simp [nameExtension?]
    · rw [if_neg hempty, Option.bind_some]
  refine ⟨name, hname, hfile, hextension, ?_,
    ofChars_of_not_mem (backslash_not_mem_ofChars s)⟩
  intro x hx
  obtain ⟨stem, hstem, -, -, -⟩ := (hextension x).1 hx
  have hlast : LastName (ofChars s).chars name := (hname name).2 rfl
  have hpart : ∀ c ∈ x, c ∈ name := by
    intro c hc
    rw [hstem]
    exact List.mem_append_right _ (List.mem_cons_of_mem _ hc)
  refine ⟨fun hslash => hlast.noSlash (hpart _ hslash), ?_⟩
  intro hback
  exact backslash_not_mem_ofChars s (hlast.mem (hpart _ hback))

/-- Separators of both kinds, doubled ones and dots at either end of a name. -/
example : (ofString "src\\\\lib.d//é.tar.GZ\\").fileName? = some "é.tar.GZ".toList ∧
    (ofString "src\\\\lib.d//é.tar.GZ\\").extension? = some "GZ".toList ∧
    (ofString "lib.d/.bashrc").extension? = none ∧ (ofString "trailing.").extension? = none := by
  decide

end Marginalia.FilePath
