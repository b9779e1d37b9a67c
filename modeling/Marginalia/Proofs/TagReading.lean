import Marginalia.Proofs.InnerPatterns

/-! # Reading the patterns of tags

    The pattern of the tags whose identifier matches another pattern is put together as
    text. This module reads it:

    * **`Reader.ReadsTo`**: so many steps lead from one reader to another.
    * **`readsTo_text`, `readsTo_mark`**: reading an escaped text and an optional mark.
    * **`Grammar.readsTo_inner`**: reading up to the pattern of the identifier.
    * **`Grammar.eq_lastReader`**: reading what follows that pattern.
    * **`TagPattern.spells_of_read?`**: if the pattern of the identifier is a pattern by
      itself, then the whole pattern stands for what it spells. -/

namespace Marginalia

/-! ## Section 1: Names of groups -/

namespace Unicode

theorem inRanges_of_mem {table : Array (Nat × Nat)} {first last : Nat} {c : Char}
    (h : (first, last) ∈ table) (hfirst : first ≤ c.toNat) (hlast : c.toNat ≤ last) :
    inRanges table c = true := by
  rw [inRanges, Array.any_eq_true']
  exact ⟨_, h, by simp [hfirst, hlast]⟩

theorem mem_lowercaseLetter : (97, 122) ∈ CategoryTable.lowercaseLetter := by
  have h : (97, 122) ∈ CategoryTable.lowercaseLetterBlock1 :=
    List.mem_toArray.2 List.mem_cons_self
  simp only [CategoryTable.lowercaseLetter, Array.mem_append, h, true_or]

theorem isAlphabetic_of_isLower {c : Char} (h : c.isLower = true) : isAlphabetic c = true := by
  have hrange : 97 ≤ c.toNat ∧ c.toNat ≤ 122 := by
    exact ⟨of_decide_eq_true (Bool.and_eq_true_iff.1 h).1,
      of_decide_eq_true (Bool.and_eq_true_iff.1 h).2⟩
  have hlower : Category.lowercaseLetter.contains c = true :=
    inRanges_of_mem mem_lowercaseLetter hrange.1 hrange.2
  simp [isAlphabetic, hasCategory, Category.letters, hlower]

end Unicode

namespace Regex.Reader

theorem name?_of_isLower {name : List Char} (hne : name ≠ [])
    (h : name.all Char.isLower = true) (s : List Char) :
    name? (name ++ '>' :: s) = some (name, s) := by
  rw [List.all_eq_true] at h
  have hend : ∀ c ∈ name, (c != '>') = true := by
    intro c hc
    rw [bne_iff_ne]
    rintro rfl
    exact absurd (h _ hc) (by decide)
  have htake : (name ++ '>' :: s).takeWhile (· != '>') = name := by
    rw [List.takeWhile_append_of_pos hend]
    simp
  have hdrop : (name ++ '>' :: s).dropWhile (· != '>') = '>' :: s := by
    rw [List.dropWhile_append_of_pos hend]
    simp
  cases name with
  | nil => exact absurd rfl hne
  | cons c name =>
    unfold name?
    rw [htake, hdrop]
    refine if_pos ?_
    have hname : ∀ c' ∈ c :: name, Unicode.isAlphabetic c' = true :=
      fun c' hc' => Unicode.isAlphabetic_of_isLower (h c' hc')
    rw [Bool.and_eq_true, List.all_eq_true]
    refine ⟨by simp [isNameChar, hname c List.mem_cons_self], fun c' hc' => ?_⟩
    simp [isNameChar, hname c' (List.mem_cons_of_mem _ hc')]

/-! ## Section 2: Steps -/

theorem run?_mono {fuel fuel' : Nat} (hle : fuel ≤ fuel') {st last : Reader}
    (h : st.run? fuel = some last) : st.run? fuel' = some last := by
  induction fuel generalizing fuel' st with
  | zero =>
    rw [run?_eq] at h ⊢
    unfold proceed? at h ⊢
    split at h
    · next hnil => rwa [if_pos hnil]
    · cases h
  | succ fuel ih =>
    obtain ⟨fuel', rfl⟩ : ∃ k, fuel' = k + 1 := ⟨fuel' - 1, by omega⟩
    rw [run?_eq, proceed?] at h ⊢
    split at h
    · next hnil => rwa [if_pos hnil]
    · next hcons =>
      rw [if_neg hcons]
      obtain ⟨st₁, hstep, h⟩ := Option.bind_eq_some_iff.1 h
      rw [hstep]
      exact ih (by omega) h

theorem proceed?_mono {fuel fuel' : Nat} (hle : fuel ≤ fuel') {st last : Reader}
    (h : proceed? fuel st = some last) : proceed? fuel' st = some last := by
  unfold proceed? at h ⊢
  split at h
  · next hnil => rwa [if_pos hnil]
  · next hcons =>
    rw [if_neg hcons]
    cases fuel with
    | zero => cases h
    | succ fuel =>
      obtain ⟨fuel', rfl⟩ : ∃ k, fuel' = k + 1 := ⟨fuel' - 1, by omega⟩
      obtain ⟨st₁, hstep, h⟩ := Option.bind_eq_some_iff.1 h
      rw [hstep]
      exact run?_mono (by omega) h

theorem proceed?_nil {fuel : Nat} {st : Reader} (hrest : st.rest = []) :
    proceed? fuel st = some st := by
  unfold proceed?
  rw [if_pos (by rw [hrest]; rfl)]

/-- The end of the pattern. -/
theorem run?_nil {fuel : Nat} {st : Reader} (hrest : st.rest = []) : st.run? fuel = some st := by
  have hskip : st.skip = st := by
    obtain ⟨m, ps, bs, stack, names, n, s⟩ := st
    obtain rfl : s = [] := hrest
    cases hm : m.verbose <;> simp [skip, Modes.skipBlank, hm, dropBlank]
  rw [run?_eq, hskip, proceed?_nil hrest]

/-- With `k` steps, the reader gets from `st` to `st'`. -/
def ReadsTo (k : Nat) (st st' : Reader) : Prop :=
  ∀ fuel, st.run? (fuel + k) = st'.run? fuel

theorem ReadsTo.trans {k l : Nat} {st₁ st₂ st₃ : Reader} (h : ReadsTo k st₁ st₂)
    (h' : ReadsTo l st₂ st₃) : ReadsTo (k + l) st₁ st₃ := by
  intro fuel
  rw [show fuel + (k + l) = fuel + l + k by omega, h, h']

/-- What is read from `st` on is read from `st'` on. -/
theorem ReadsTo.run {k fuel : Nat} {st st' last : Reader} (h : ReadsTo k st st')
    (hrun : st.run? fuel = some last) : st'.run? fuel = some last := by
  rw [← h]
  exact run?_mono (by omega) hrun

variable {ps bs : List Part} {stack : List OpenGroup} {names : List (List Char × Nat)} {n : Nat}
  {s : List Char}

/-- A step outside of verbose mode. -/
theorem run?_succ_of_command {m : Modes} (hm : m.verbose = false) {c : Char} {cmd : Command}
    {rest : List Char} (hcommand : command? m (c :: s) = some (cmd, rest)) (fuel : Nat) :
    run? (fuel + 1) ⟨m, ps, bs, stack, names, n, c :: s⟩ =
      (obey? ⟨m, ps, bs, stack, names, n, c :: s⟩ rest cmd).bind (run? fuel) := by
  have hskip :
      skip ⟨m, ps, bs, stack, names, n, c :: s⟩ = ⟨m, ps, bs, stack, names, n, c :: s⟩ := by
    simp [skip, Modes.skipBlank, hm]
  rw [run?_eq, hskip, proceed?, if_neg (by simp), step?_eq]
  simp only [hcommand, Option.bind_some]

theorem readsTo_of_command {m : Modes} (hm : m.verbose = false) {c : Char} {cmd : Command}
    {rest : List Char} {st' : Reader} (hcommand : command? m (c :: s) = some (cmd, rest))
    (hobey : obey? ⟨m, ps, bs, stack, names, n, c :: s⟩ rest cmd = some st') :
    ReadsTo 1 ⟨m, ps, bs, stack, names, n, c :: s⟩ st' := by
  intro fuel
  rw [run?_succ_of_command hm hcommand, hobey, Option.bind_some]

/-! ### Texts -/

/-- A character that stands for itself. -/
def charPart (c : Char) : Part :=
  ⟨some (.set (CharSet.single c)), 0, c.utf8Size⟩

theorem escape?_of_isPatternMeta {c : Char} (h : isPatternMeta c = true) (s : List Char) :
    escape? {} (c :: s) = some (.literal c false, s) := by
  simp only [isPatternMeta, List.contains_eq_mem, decide_eq_true_eq] at h
  simp at h
  rcases h with rfl | rfl | rfl | rfl | rfl | rfl | rfl | rfl | rfl | rfl | rfl | rfl | rfl | rfl |
    rfl | rfl | rfl | rfl <;> rfl

theorem command?_escapePattern (c : Char) (s : List Char) :
    command? {} (escapePattern [c] ++ s) = some (.set (CharSet.single c) 0 c.utf8Size, s) := by
  by_cases hc : isPatternMeta c = true
  · have htext : escapePattern [c] ++ s = '\\' :: c :: s := by simp [escapePattern, hc]
    rw [htext]
    simp only [command?, escape?_of_isPatternMeta hc, Option.bind_some]
    rfl
  · have htext : escapePattern [c] ++ s = c :: s := by simp [escapePattern, hc]
    rw [htext]
    unfold command?
    simp only
    split
    all_goals first | exact absurd rfl hc | rfl

theorem readsTo_char (c : Char) :
    ReadsTo 1 ⟨{}, ps, bs, stack, names, n, escapePattern [c] ++ s⟩
      ⟨{}, charPart c :: ps, bs, stack, names, n, s⟩ := by
  have hcommand := command?_escapePattern c s
  cases htext : escapePattern [c] ++ s with
  | nil =>
    rw [htext] at hcommand
    cases hcommand
  | cons d u =>
    rw [htext] at hcommand
    exact readsTo_of_command rfl hcommand rfl

theorem escapePattern_cons (c : Char) (w : List Char) :
    escapePattern (c :: w) = escapePattern [c] ++ escapePattern w := by
  simp [escapePattern]

/-- An escaped text reads as its characters. -/
theorem readsTo_text (w : List Char) :
    ReadsTo w.length ⟨{}, ps, bs, stack, names, n, escapePattern w ++ s⟩
      ⟨{}, (w.map charPart).reverse ++ ps, bs, stack, names, n, s⟩ := by
  -- the parts are kept in a stack, so those of the first characters go to its bottom
  induction w generalizing ps with
  | nil => exact fun fuel => rfl
  | cons c w ih =>
    rw [escapePattern_cons, List.append_assoc, List.length_cons, Nat.add_comm]
    refine (readsTo_char c).trans ?_
    rw [List.map_cons, List.reverse_cons, List.append_assoc]
    exact ih

theorem readsTo_text_nil (w : List Char) :
    ReadsTo w.length ⟨{}, ps, bs, stack, names, n, escapePattern w⟩
      ⟨{}, (w.map charPart).reverse ++ ps, bs, stack, names, n, []⟩ := by
  rw [← List.append_nil (escapePattern w)]
  exact readsTo_text w

/-- An escaped text does not begin with a question mark. -/
theorem head?_escapePattern (w s : List Char) (hs : s.head? ≠ some '?') :
    (escapePattern w ++ s).head? ≠ some '?' := by
  cases w with
  | nil => exact hs
  | cons c w =>
    by_cases hc : isPatternMeta c = true
    · simp [escapePattern, hc]
    · rw [escapePattern_cons, escapePattern, List.flatMap_singleton, if_neg hc]
      intro hhead
      obtain rfl : c = '?' := by simpa using hhead
      exact hc rfl

/-! ### Groups -/

/-- A part that may be missing. -/
def maybePart (p : Part) : Part :=
  ⟨some (maybe p.toRegex), p.depth + 1, 1 * (p.weight + 1)⟩

theorem readsTo_maybe {p : Part} (hp : p.expr.isSome) (hs : s.head? ≠ some '?') :
    ReadsTo 1 ⟨{}, p :: ps, bs, stack, names, n, '?' :: s⟩
      ⟨{}, maybePart p :: ps, bs, stack, names, n, s⟩ := by
  have hcommand : command? {} ('?' :: s) = some (.rep true 0 (some 1), s) := by
    simp only [command?, greed_of_ne hs]
  refine readsTo_of_command rfl hcommand ?_
  obtain ⟨r, hr⟩ := Option.isSome_iff_exists.1 hp
  simp [obey?, repeatLast?, Part.repeated, hr, maybePart, maybe, Part.toRegex]

theorem command?_openNamed {name : List Char} (hne : name ≠ [])
    (hlower : name.all Char.isLower = true) :
    command? {} ("(?P<".toList ++ (name ++ '>' :: s)) = some (.openNamed name, s) := by
  change (name? (name ++ '>' :: s)).map _ = _
  rw [name?_of_isLower hne hlower]
  rfl

theorem readsTo_openNamed {name : List Char} (hne : name ≠ [])
    (hlower : name.all Char.isLower = true) (hfree : names.lookup name = none) :
    ReadsTo 1 ⟨{}, ps, bs, stack, names, n, "(?P<".toList ++ (name ++ '>' :: s)⟩
      ⟨{}, [], [], ⟨some (n + 1), ps, bs, {}⟩ :: stack, (name, n + 1) :: names, n + 1, s⟩ := by
  refine readsTo_of_command rfl (command?_openNamed hne hlower) ?_
  simp [obey?, hfree, openNumbered, openGroup]

/-- A name that is taken already is not read again. -/
theorem lookup_eq_none_of_run? {name : List Char} (hne : name ≠ [])
    (hlower : name.all Char.isLower = true) {fuel : Nat} {last : Reader}
    (hrun : run? fuel ⟨{}, ps, bs, stack, names, n, "(?P<".toList ++ (name ++ '>' :: s)⟩ =
      some last) : names.lookup name = none := by
  have hnext := run?_mono (Nat.le_succ fuel) hrun
  rw [← Option.not_isSome_iff_eq_none]
  intro htaken
  have hstep : run? (fuel + 1) ⟨{}, ps, bs, stack, names, n,
      "(?P<".toList ++ (name ++ '>' :: s)⟩ = none := by
    refine (run?_succ_of_command rfl (command?_openNamed hne hlower) fuel).trans ?_
    rw [obey?, if_pos htaken, Option.bind_none]
  exact absurd (hnext.symm.trans hstep) (Option.some_ne_none _)

theorem readsTo_openPlain :
    ReadsTo 1 ⟨{}, ps, bs, stack, names, n, "(?:".toList ++ s⟩
      ⟨{}, [], [], ⟨none, ps, bs, {}⟩ :: stack, names, n, s⟩ :=
  readsTo_of_command rfl rfl rfl

theorem readsTo_close {index : Option Nat} {qs cs : List Part} :
    ReadsTo 1 ⟨{}, ps, bs, ⟨index, qs, cs, {}⟩ :: stack, names, n, ')' :: s⟩
      ⟨{}, Part.grouped index (Part.choice (Part.sequence ps :: bs)) :: qs, cs, stack, names, n,
        s⟩ :=
  readsTo_of_command rfl rfl rfl

/-- An optional mark in a group of its own. -/
def markPart (index : Nat) (c : Char) : Part :=
  maybePart (Part.grouped (some index) (charPart c))

theorem markPattern_append (name : String) (c : Char) (s : List Char) :
    Grammar.markPattern name c ++ s =
      "(?P<".toList ++ (name.toList ++ '>' :: (escapePattern [c] ++ ')' :: '?' :: s)) := by
  unfold Grammar.markPattern
  rw [List.append_assoc, List.append_assoc, List.append_assoc, List.append_assoc]
  rfl

/-- A mark in a group of its own does not begin with a question mark either. -/
theorem head?_markPattern (name : String) (c : Char) (s : List Char) :
    (Grammar.markPattern name c ++ s).head? ≠ some '?' := by
  rw [markPattern_append]
  exact fun h => absurd (Option.some.inj h) (by decide)

theorem readsTo_mark {name : String} (hne : name.toList ≠ [])
    (hlower : name.toList.all Char.isLower = true) (hfree : names.lookup name.toList = none)
    (c : Char) (hs : s.head? ≠ some '?') :
    ReadsTo 4 ⟨{}, ps, bs, stack, names, n, Grammar.markPattern name c ++ s⟩
      ⟨{}, markPart (n + 1) c :: ps, bs, stack, (name.toList, n + 1) :: names, n + 1, s⟩ := by
  rw [markPattern_append]
  exact (readsTo_openNamed hne hlower hfree).trans <| (readsTo_char c).trans <|
    readsTo_close.trans <| readsTo_maybe rfl hs

theorem lookup_eq_none_of_mark {name : String} (hne : name.toList ≠ [])
    (hlower : name.toList.all Char.isLower = true) {c : Char} {fuel : Nat} {last : Reader}
    (hrun : run? fuel ⟨{}, ps, bs, stack, names, n, Grammar.markPattern name c ++ s⟩ =
      some last) : names.lookup name.toList = none := by
  rw [markPattern_append] at hrun
  exact lookup_eq_none_of_run? hne hlower hrun

end Regex.Reader

/-! ## Section 3: Tag patterns -/

namespace Grammar

open Regex Reader

variable (g : Grammar)

/-- What follows the pattern of an identifier. -/
def behindInner : List Char :=
  ')' :: ')' :: (escapePattern [g.separator] ++ (markPattern "end" g.boundary ++
    (markPattern "cleanup" g.cleanup ++ escapePattern g.closer)))

/-- The parts of a head, the latest first. -/
def headParts : List Part :=
  [charPart g.separator, markPart 1 g.boundary, maybePart (charPart joiner)] ++
    (g.opener.map charPart).reverse

/-- The parts of a tail, the latest first, after `last` groups. -/
def tailParts (last : Nat) : List Part :=
  (g.closer.map charPart).reverse ++
    [markPart (last + 2) g.cleanup, markPart (last + 1) g.boundary, charPart g.separator]

/-- The reader where the pattern of the identifier begins. -/
def innerReader (rest : List Char) : Reader where
  modes    := {}
  parts    := []
  branches := []
  stack    := [⟨none, [], [], {}⟩, ⟨some 2, g.headParts, [], {}⟩]
  names    := [("id".toList, 2), ("start".toList, 1)]
  groups   := 2
  rest

/-- The names of the groups up to the end of an identifier whose pattern left `inner`. -/
def innerNames (inner : Reader) : List (List Char × Nat) :=
  (inner.names.map fun (name, i) => (name, i + 2)) ++ [("id".toList, 2), ("start".toList, 1)]

/-- The part of the group that holds the identifier. -/
def innerPart (inner : Reader) : Part :=
  Part.grouped (some 2) (Part.grouped none (inner.current.shift 2))

/-- The reader behind the separator after an identifier whose pattern left `inner`. -/
def separatorReader (inner : Reader) (rest : List Char) : Reader where
  modes    := {}
  parts    := charPart g.separator :: innerPart inner :: g.headParts
  branches := []
  stack    := []
  names    := innerNames inner
  groups   := inner.groups + 2
  rest

/-- The reader behind the pattern of a tag, if the pattern of its identifier left `inner`. -/
def lastReader (inner : Reader) : Reader where
  modes    := {}
  parts    := g.tailParts (inner.groups + 2) ++ innerPart inner :: g.headParts
  branches := []
  stack    := []
  names    := ("cleanup".toList, inner.groups + 2 + 2) :: ("end".toList, inner.groups + 2 + 1) ::
    innerNames inner
  groups   := inner.groups + 2 + 2
  rest     := []

/-- What follows the group of an identifier. -/
def behindGroup : List Char :=
  escapePattern [g.separator] ++ (markPattern "end" g.boundary ++
    (markPattern "cleanup" g.cleanup ++ escapePattern g.closer))

/-- The reader inside of the group of an identifier, behind some parts of its pattern. -/
def groupReader (ps : List Part) (rest : List Char) : Reader where
  modes    := {}
  parts    := ps
  branches := []
  stack    := [⟨some 2, g.headParts, [], {}⟩]
  names    := [("id".toList, 2), ("start".toList, 1)]
  groups   := 2
  rest

theorem tagPattern_eq (inner : List Char) :
    g.tagPattern inner =
      escapePattern g.opener ++ (escapePattern [joiner] ++ '?' ::
        (markPattern "start" g.boundary ++ (escapePattern [g.separator] ++
          ("(?P<".toList ++ ("id".toList ++ '>' :: (inner ++ ')' :: g.behindGroup)))))) := by
  simp [tagPattern, behindGroup]

/-- Reading up to the group of the identifier. -/
theorem readsTo_group (inner : List Char) :
    ReadsTo (g.opener.length + 8) (start (g.tagPattern inner))
      (g.groupReader [] (inner ++ ')' :: g.behindGroup)) := by
  rw [tagPattern_eq]
  have hseparator : (escapePattern [g.separator] ++ ("(?P<".toList ++ ("id".toList ++ '>' ::
      (inner ++ ')' :: g.behindGroup)))).head? ≠ some '?' :=
    head?_escapePattern _ _ fun h => absurd (Option.some.inj h) (by decide)
  have hparts : g.headParts = charPart g.separator :: markPart 1 g.boundary ::
      maybePart (charPart joiner) :: ((g.opener.map charPart).reverse ++ []) := by
    rw [List.append_nil]
    rfl
  -- each part of a head in its turn, and then the group that is opened
  refine (readsTo_text g.opener).trans (l := 8) ?_
  refine (readsTo_char joiner).trans (l := 7) ?_
  refine (readsTo_maybe rfl (head?_markPattern _ _ _)).trans (l := 6) ?_
  refine (readsTo_mark (by decide) (by decide) rfl g.boundary hseparator).trans (l := 2) ?_
  refine (readsTo_char g.separator).trans (l := 1) ?_
  rw [groupReader, hparts]
  exact readsTo_openNamed (by decide) (by decide) (by decide)

/-- Reading up to the pattern of the identifier. -/
theorem readsTo_inner (pattern : List Char) :
    ReadsTo (g.opener.length + 9) (start (g.tagPattern ("(?:".toList ++ pattern ++ [')'])))
      (g.innerReader (pattern ++ g.behindInner)) := by
  have hrest : ("(?:".toList ++ pattern ++ [')']) ++ ')' :: g.behindGroup =
      "(?:".toList ++ (pattern ++ g.behindInner) := by
    simp [behindInner, behindGroup]
  refine (g.readsTo_group _).trans (l := 1) ?_
  rw [hrest]
  exact readsTo_openPlain

variable {g} {inner last : Reader} {fuel : Nat} {s : List Char}

/-- The groups around an identifier close, whatever the modes of its pattern are. -/
theorem proceed?_within (hstack : inner.stack = []) (fuel : Nat) :
    proceed? (fuel + 3) (inner.within (g.innerReader s) g.behindInner) =
      run? fuel (g.separatorReader inner (markPattern "end" g.boundary ++
        (markPattern "cleanup" g.cleanup ++ escapePattern g.closer))) := by
  have hclose : (inner.within (g.innerReader s) g.behindInner).step? =
      some ⟨{}, [Part.grouped none (inner.current.shift 2)], [],
        [⟨some 2, g.headParts, [], {}⟩], innerNames inner, inner.groups + 2,
        ')' :: (escapePattern [g.separator] ++ (markPattern "end" g.boundary ++
          (markPattern "cleanup" g.cleanup ++ escapePattern g.closer)))⟩ := by
    have hcurrent : (inner.within (g.innerReader s) g.behindInner).current =
        inner.current.shift 2 := current_within
    -- no group of the pattern is open, so it is the one around it that is closed
    change close? _ _ = _
    rw [close?, hcurrent]
    simp only [within, hstack]
    rfl
  rw [proceed?, if_neg (by simp [within, behindInner]), hclose, Option.bind_some]
  exact ((readsTo_close.trans (readsTo_char g.separator)) fuel).trans rfl

/-- The closer is no operator. -/
theorem head?_behindCleanup (g : Grammar) : (escapePattern g.closer).head? ≠ some '?' := by
  simpa using head?_escapePattern g.closer [] (by simp)

/-- Reading what follows the separator behind an identifier. -/
theorem readsTo_tail {names : List (List Char × Nat)} (hend : names.lookup "end".toList = none)
    (hcleanup : names.lookup "cleanup".toList = none) (ps : List Part) (n : Nat) :
    ReadsTo (4 + (4 + g.closer.length))
      ⟨{}, charPart g.separator :: ps, [], [], names, n, markPattern "end" g.boundary ++
        (markPattern "cleanup" g.cleanup ++ escapePattern g.closer)⟩
      ⟨{}, g.tailParts n ++ ps, [], [],
        ("cleanup".toList, n + 2) :: ("end".toList, n + 1) :: names, n + 2, []⟩ := by
  have hcleanup' : (("end".toList, n + 1) :: names).lookup "cleanup".toList = none := by
    rw [List.lookup_cons, show ("cleanup".toList == "end".toList) = false by decide]
    exact hcleanup
  have hparts : g.tailParts n ++ ps = (g.closer.map charPart).reverse ++
      (markPart (n + 2) g.cleanup :: markPart (n + 1) g.boundary :: charPart g.separator :: ps) := by
    simp [tailParts]
  rw [hparts]
  exact (readsTo_mark (by decide) (by decide) hend _ (head?_markPattern _ _ _)).trans <|
    (readsTo_mark (by decide) (by decide) hcleanup' _ g.head?_behindCleanup).trans
      (readsTo_text_nil g.closer)

theorem readsTo_last (hend : (innerNames inner).lookup "end".toList = none)
    (hcleanup : (innerNames inner).lookup "cleanup".toList = none) :
    ReadsTo (4 + (4 + g.closer.length)) (g.separatorReader inner (markPattern "end" g.boundary ++
      (markPattern "cleanup" g.cleanup ++ escapePattern g.closer))) (g.lastReader inner) :=
  readsTo_tail hend hcleanup (innerPart inner :: g.headParts) (inner.groups + 2)

/-- If the pattern of the identifier is left at all, then the whole pattern is read. -/
theorem eq_lastReader (hstack : inner.stack = [])
    (hrun : proceed? fuel (inner.within (g.innerReader s) g.behindInner) = some last) :
    last = g.lastReader inner := by
  have hrun := proceed?_mono (Nat.le_add_right fuel 3) hrun
  rw [proceed?_within hstack] at hrun
  -- the pattern may have named a group like one of those to come, but then nothing is read
  have hend := lookup_eq_none_of_mark (by decide) (by decide) hrun
  have hbehind := (readsTo_mark (by decide) (by decide) hend _ (head?_markPattern _ _ _)).run hrun
  have hcleanup := lookup_eq_none_of_mark (by decide) (by decide) hbehind
  rw [List.lookup_cons, show ("cleanup".toList == "end".toList) = false by decide] at hcleanup
  have hlast := (readsTo_last hend hcleanup).run hrun
  rw [run?_nil rfl] at hlast
  exact (Option.some.inj hlast).symm

/-! ### The text behind an identifier -/

end Grammar

/-- Every closing bracket of the text is escaped. -/
def BracketsEscaped (s : List Char) : Prop :=
  ∀ u v, s = u ++ ']' :: v → u.getLast? = some '\\'

namespace BracketsEscaped

variable {s t : List Char}

theorem of_not_mem (h : ']' ∉ s) : BracketsEscaped s := by
  rintro u v rfl
  exact absurd (by simp) h

theorem append (hs : BracketsEscaped s) (ht : BracketsEscaped t) : BracketsEscaped (s ++ t) := by
  intro u v h
  rcases List.append_eq_append_iff.1 h with ⟨w, rfl, hw⟩ | ⟨w, hw, hv⟩
  · have hlast := ht w v hw
    rw [List.getLast?_append, hlast]
    rfl
  · cases w with
    | nil =>
      have hlast := ht [] v hv.symm
      cases hlast
    | cons c w =>
      rw [List.cons_append] at hv
      obtain ⟨rfl, -⟩ := List.cons.inj hv
      exact hs u w hw

theorem cons (hs : BracketsEscaped s) {c : Char} (hc : c ≠ ']') : BracketsEscaped (c :: s) :=
  append (s := [c]) (of_not_mem (by simpa using hc.symm)) hs

theorem escapePattern (w : List Char) : BracketsEscaped (escapePattern w) := by
  induction w with
  | nil => exact of_not_mem (by simp [Marginalia.escapePattern])
  | cons c w ih =>
    rw [Regex.Reader.escapePattern_cons]
    refine append ?_ ih
    by_cases hc : c = ']'
    · subst hc
      intro u v h
      have htext : Marginalia.escapePattern [']'] = ['\\', ']'] := rfl
      rw [htext] at h
      match u, h with
      | [], h => exact absurd (List.cons.inj h).1 (by decide)
      | [d], h =>
        obtain ⟨rfl, -⟩ := List.cons.inj h
        rfl
      | d :: e :: u, h => exact absurd (List.cons.inj (List.cons.inj h).2).2 (by simp)
    · refine of_not_mem ?_
      rw [Marginalia.escapePattern, List.flatMap_singleton]
      split <;> simp [Ne.symm hc]

theorem not_isInfix (h : BracketsEscaped s) : ¬ [':', ']'] <:+: s := by
  rintro ⟨u, v, rfl⟩
  have hlast := h (u ++ [':']) v (by simp)
  simp at hlast

end BracketsEscaped

theorem not_mem_escapePattern {c : Char} (hc : c ≠ '\\') {w : List Char} (hw : c ∉ w) :
    c ∉ escapePattern w := by
  intro hmem
  obtain ⟨d, hd, hmem⟩ := List.mem_flatMap.1 hmem
  split at hmem
  · rcases List.mem_cons.1 hmem with rfl | hmem
    · exact hc rfl
    · exact hw (List.mem_singleton.1 hmem ▸ hd)
  · exact hw (List.mem_singleton.1 hmem ▸ hd)

namespace Grammar

open Regex Reader

variable {g : Grammar} {inner last : Reader} {fuel : Nat} {s : List Char}

theorem bracketsEscaped_markPattern {name : String} (hname : ']' ∉ name.toList) (c : Char) :
    BracketsEscaped (markPattern name c) :=
  .append (.append (.append (.append (.of_not_mem (by decide)) (.of_not_mem hname))
    (.of_not_mem (by decide))) (.escapePattern [c])) (.of_not_mem (by decide))

theorem not_mem_markPattern {name : String} (hname : '\n' ∉ name.toList) {c : Char}
    (hc : Text.isLineBreak c = false) : '\n' ∉ markPattern name c := by
  have hmark : '\n' ∉ escapePattern [c] := by
    refine not_mem_escapePattern (by decide) ?_
    rw [List.mem_singleton]
    rintro rfl
    exact absurd hc (by decide)
  rw [← List.append_nil (markPattern name c), markPattern_append]
  simp [hname, hmark]

/-- The text behind an identifier closes its group, whatever the marks and the closer are. -/
theorem closes_behindInner (g : Grammar) : Closes g.behindInner where
  closes := ⟨_, rfl⟩
  noClass := by
    refine BracketsEscaped.not_isInfix ?_
    refine .cons (.cons ?_ (by decide)) (by decide)
    exact .append (.escapePattern _) <| .append (bracketsEscaped_markPattern (by decide) _) <|
      .append (bracketsEscaped_markPattern (by decide) _) (.escapePattern _)
  oneLine := by
    obtain ⟨hboundary, hseparator, hcleanup⟩ := g.marks_oneLine
    have hseparator' : '\n' ∉ escapePattern [g.separator] := by
      refine not_mem_escapePattern (by decide) ?_
      rw [List.mem_singleton]
      intro h
      rw [← h] at hseparator
      exact absurd hseparator (by decide)
    have hcloser : '\n' ∉ escapePattern g.closer :=
      not_mem_escapePattern (by decide) fun h =>
        absurd (g.delimiters_oneLine _ (List.mem_append_right _ h)) (by decide)
    have hend : '\n' ∉ markPattern "end" g.boundary := not_mem_markPattern (by decide) hboundary
    have hcleanup' : '\n' ∉ markPattern "cleanup" g.cleanup :=
      not_mem_markPattern (by decide) hcleanup
    simp [behindInner, hseparator', hend, hcleanup', hcloser]

/-! ### The expression -/

end Grammar

namespace Regex

theorem foldl_inRow (rs : List Regex) {xs : List Regex} (hxs : xs ≠ []) :
    rs.foldl (fun acc r => .seq r acc) (inRow xs) = inRow (rs.reverse ++ xs) := by
  induction rs generalizing xs with
  | nil => rfl
  | cons r rs ih =>
    have hcons : Regex.seq r (inRow xs) = inRow (r :: xs) := by
      cases xs with
      | nil => exact absurd rfl hxs
      | cons x xs => rfl
    rw [List.foldl_cons, hcons, ih (List.cons_ne_nil r xs), List.reverse_cons, List.append_assoc]
    rfl

theorem Part.inSequence_eq_inRow (rs : List Regex) : inSequence rs = inRow rs.reverse := by
  cases rs with
  | nil => rfl
  | cons r rs =>
    rw [List.reverse_cons]
    exact foldl_inRow rs (List.cons_ne_nil r [])

theorem Part.toRegex_sequence {ps : List Part} (h : 2 ≤ ps.length) :
    (sequence ps).toRegex = inSequence (ps.filterMap expr) := by
  match ps, h with
  | p :: q :: ps, _ =>
    rw [sequence_cons_cons]
    rfl

end Regex

namespace Grammar

open Regex Reader

theorem filterMap_expr_charPart (w : List Char) :
    (w.map charPart).filterMap Part.expr = literal w := by
  rw [List.filterMap_map, literal, ← List.filterMap_eq_map]
  rfl

variable {g : Grammar} {inner last : Reader} {fuel : Nat} {s : List Char}

theorem filterMap_expr_headParts (g : Grammar) :
    g.headParts.filterMap Part.expr = g.headRow.reverse := by
  have hmarks : [charPart g.separator, markPart 1 g.boundary,
      maybePart (charPart joiner)].filterMap Part.expr =
      [.set (CharSet.single g.separator), maybe (.group 1 (.set (CharSet.single g.boundary))),
        maybe (.set (CharSet.single joiner))] := rfl
  rw [headParts, List.filterMap_append, List.filterMap_reverse, filterMap_expr_charPart, hmarks]
  simp [headRow, literal]

theorem filterMap_expr_tailParts (g : Grammar) (last : Nat) :
    (g.tailParts last).filterMap Part.expr = (g.tailRow last).reverse := by
  have hmarks : [markPart (last + 2) g.cleanup, markPart (last + 1) g.boundary,
      charPart g.separator].filterMap Part.expr =
      [maybe (.group (last + 2) (.set (CharSet.single g.cleanup))),
        maybe (.group (last + 1) (.set (CharSet.single g.boundary))),
        .set (CharSet.single g.separator)] := rfl
  rw [tailParts, List.filterMap_append, List.filterMap_reverse, filterMap_expr_charPart, hmarks]
  simp [tailRow, literal]

/-- The expressions of a whole pattern stand in a row. -/
theorem toRegex_sequence {part : Part} {r : Regex} (hpart : part.expr = some r) (last : Nat) :
    (Part.sequence (g.tailParts last ++ part :: g.headParts)).toRegex =
      inRow (g.headRow ++ r :: g.tailRow last) := by
  have hlen : 2 ≤ (g.tailParts last ++ part :: g.headParts).length := by
    simp [tailParts, headParts]
    omega
  rw [Part.toRegex_sequence hlen, Part.inSequence_eq_inRow, List.filterMap_append,
    List.filterMap_cons_some hpart, filterMap_expr_tailParts, filterMap_expr_headParts]
  simp

theorem toRegex_current_lastReader (g : Grammar) (inner : Reader) :
    (g.lastReader inner).current.toRegex = inRow (g.headRow ++
      .group 2 (inner.current.toRegex.shift 2) :: g.tailRow (inner.groups + 2)) := by
  have hpart : (innerPart inner).expr = some (.group 2 (inner.current.toRegex.shift 2)) := by
    rw [← Part.toRegex_shift]
    rfl
  exact toRegex_sequence hpart _

end Grammar

namespace TagPattern

open Regex Reader Grammar

variable {g : Grammar} {p : TagPattern} {r : Regex} {names : List (List Char × Nat)}
  {pattern : List Char}

/-- The groups before the identifier keep their numbers. -/
theorem lookup_lastReader {inner : Reader} {name : List Char} {i : Nat}
    (hfree : ∀ name, ((g.innerReader []).names.lookup name).isSome → inner.names.lookup name = none)
    (hcleanup : (name == "cleanup".toList) = false) (hend : (name == "end".toList) = false)
    (hname : (g.innerReader []).names.lookup name = some i) :
    (g.lastReader inner).names.lookup name = some i := by
  have hlookup : (innerNames inner).lookup name = some i := by
    change (inner.within (g.innerReader []) []).names.lookup name = some i
    rw [lookup_within]
    rw [hfree name (by rw [hname]; rfl), hname]
    rfl
  rw [lastReader, List.lookup_cons, hcleanup, List.lookup_cons, hend]
  exact hlookup

/-- Reading a pattern leaves no group open, and all groups have numbers that were given
    out. -/
theorem exists_of_read? (hread : Regex.read? pattern = some (r, names)) :
    ∃ inner : Reader, (start pattern).run? pattern.length = some inner ∧ inner.stack = [] ∧
      inner.current.toRegex = r ∧ inner.names = names := by
  simp only [Regex.read?, Option.bind_eq_bind, Option.bind_eq_some_iff] at hread
  obtain ⟨inner, hrun, hread⟩ := hread
  split at hread
  · next hlimits =>
    simp only [Bool.and_eq_true, List.isEmpty_iff] at hlimits
    obtain ⟨rfl, rfl⟩ := Prod.mk.inj (Option.some.inj hread)
    exact ⟨inner, hrun, hlimits.1.1, rfl, rfl⟩
  · cases hread

/-- If the pattern of the identifier is a pattern by itself, then the pattern of the tag
    stands for what it spells. -/
theorem spells_of_read? (hread : Regex.read? pattern = some (r, names))
    (hcompile : compile? g pattern = some p) : ∃ last, p.Spells g (r.shift 2) last := by
  obtain ⟨⟨expr, names'⟩, hwhole, rfl⟩ := Option.map_eq_some_iff.1 hcompile
  obtain ⟨inner, hrun, hstack, rfl, rfl⟩ := exists_of_read? hread
  obtain ⟨last, hrun', hstack', rfl, rfl⟩ := exists_of_read? hwhole
  -- the pattern is read alone and inside of the whole pattern, side by side
  have hinside : Inside (g.innerReader []) g.behindInner (start pattern)
      (g.innerReader (pattern ++ g.behindInner)) :=
    ⟨.append _ _, rfl, fun _ _ => rfl⟩
  have hrun' := (g.readsTo_inner pattern).run hrun'
  obtain ⟨hrest, mid, fuel, hmid, hlast⟩ := hinside.run g.closes_behindInner hrun hrun'
  have hrest' := hmid.rest
  rw [hrest] at hrest'
  have hmid' := hmid.eq
  rcases hrest' with hrest' | ⟨-, hrest'⟩
  · rw [hrest', List.nil_append] at hmid'
    subst hmid'
    obtain rfl := eq_lastReader hstack hlast
    have hnumbered : inner.Numbered := (Numbered.start pattern).run hrun
    refine ⟨inner.groups + 2, toRegex_current_lastReader g inner, ?_, ?_, ?_, ?_, ?_, by omega⟩
    · exact lookup_lastReader hmid.free (by decide) (by decide) rfl
    · exact lookup_lastReader hmid.free (by decide) (by decide) rfl
    · rfl
    · rfl
    · intro i hi
      rw [groupNumbers_shift] at hi
      obtain ⟨j, hj, rfl⟩ := List.mem_map.1 hi
      have := hnumbered.current j hj
      omega
  · -- a comment took the rest of the whole pattern, whose groups were never closed
    rw [hrest'] at hmid'
    subst hmid'
    rw [proceed?_nil rfl] at hlast
    obtain rfl := Option.some.inj hlast
    simp [within, innerReader] at hstack'

/-- A letter is a pattern of identifiers. -/
theorem isSome_compile?_letter : (compile? .standard ['a']).isSome = true := by
  let inner : Reader := ⟨{}, [charPart 'a'], [], [], [], 0, []⟩
  have hletter : ReadsTo 1 (Grammar.standard.innerReader (['a'] ++ Grammar.standard.behindInner))
      (inner.within (Grammar.standard.innerReader []) Grammar.standard.behindInner) :=
    readsTo_char 'a'
  have hlast : (inner.within (Grammar.standard.innerReader [])
      Grammar.standard.behindInner).run? 13 = some (Grammar.standard.lastReader inner) := by
    rw [run?_eq]
    refine (proceed?_within (show inner.stack = [] from rfl) 10).trans ?_
    have hend : (innerNames inner).lookup "end".toList = none := by decide
    have hcleanup : (innerNames inner).lookup "cleanup".toList = none := by decide
    exact (readsTo_last (g := .standard) hend hcleanup 0).trans (run?_nil rfl)
  have hrun : (start (Grammar.standard.tagPattern ("(?:".toList ++ ['a'] ++ [')']))).run? 25 =
      some (Grammar.standard.lastReader inner) :=
    ((Grammar.standard.readsTo_inner ['a']).trans hletter 13).trans hlast
  have hread := run?_mono (show 25 ≤ (Grammar.standard.tagPattern
    ("(?:".toList ++ ['a'] ++ [')'])).length by decide) hrun
  have hlimits : ((Grammar.standard.lastReader inner).stack.isEmpty &&
      (Grammar.standard.lastReader inner).current.depth ≤ depthLimit &&
      (Grammar.standard.lastReader inner).current.weight ≤ weightLimit) = true := by decide
  simp only [compile?, Option.isSome_map, Regex.read?, hread, Option.bind_eq_bind,
    Option.bind_some, hlimits, if_true, Option.isSome_some]

end TagPattern

end Marginalia
