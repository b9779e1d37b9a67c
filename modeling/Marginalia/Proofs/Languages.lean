import Mathlib.Data.List.Sort
import Marginalia.Settings.File

/-! # Languages by name

    Settings are merged with the languages that need no settings, and are refused if a
    language of the merged ones has no grammar.

    * **`Languages.get?_insertAll`**: languages that are added replace those of their names.
    * **`Settings.withBuiltin_eq_iff`**: when nothing is added to settings.
    * **`Settings.failure?_eq_none_iff`**, **`Settings.failure?_eq_some`**: which settings are
      refused, and why.
    * **`Settings.ofData?_toData`**: the tables that settings are written as stand for them, in
      every format. -/

namespace Marginalia

/-! ## Section 1: Languages as a map -/

/-- A name has one entry only. -/
theorem IsSorted.lookup_eq_some_iff {es : List (Text × Language)} (h : IsSorted es) {name : Text}
    {l : Language} : es.lookup name = some l ↔ (name, l) ∈ es := by
  induction es with
  | nil => simp
  | cons x es ih =>
    obtain ⟨n, m⟩ := x
    obtain ⟨hfirst, hrest⟩ := List.pairwise_cons.1 h
    rw [Languages.lookup_cons_eq, List.mem_cons, Prod.mk.injEq]
    by_cases hname : name = n
    · rw [if_pos hname]
      constructor
      · intro hm
        exact .inl ⟨hname, (Option.some.inj hm).symm⟩
      · rintro (⟨-, rfl⟩ | hmem)
        · rfl
        · -- the name would come before itself
          have hbefore := hfirst _ hmem
          rw [hname, Text.precedes_irrefl] at hbefore
          contradiction
    · rw [if_neg hname, ih hrest]
      simp [hname]

namespace Languages

variable {ls ms : Languages} {name : Text} {l : Language}

theorem get?_eq_some_iff : ls.get? name = some l ↔ (name, l) ∈ ls.entries :=
  ls.sorted.lookup_eq_some_iff

/-- Languages are known by what their names stand for. -/
theorem eq_of_get?_eq (h : ∀ name, ls.get? name = ms.get? name) : ls = ms := by
  obtain ⟨es, hes⟩ := ls
  obtain ⟨fs, hfs⟩ := ms
  have hirrefl : Std.Irrefl fun a b : Text × Language => Text.precedes a.1 b.1 = true :=
    ⟨fun a ha => by rw [Text.precedes_irrefl] at ha; contradiction⟩
  have hantisymm : Std.Antisymm fun a b : Text × Language => Text.precedes a.1 b.1 = true := by
    refine ⟨fun a b hab hba => ?_⟩
    rw [Text.precedes_asymm hab] at hba
    contradiction
  have hsame : es = fs := by
    refine List.Pairwise.eq_of_mem_iff hes hfs ?_
    rintro ⟨n, m⟩
    rw [← hes.lookup_eq_some_iff, ← hfs.lookup_eq_some_iff]
    exact iff_of_eq (congrArg (· = some m) (h n))
  subst hsame
  rfl

/-- Languages that are added replace those of their names. -/
theorem get?_insertAll {es : List (Text × Language)} (h : IsSorted es) (ls : Languages)
    (name : Text) : (ls.insertAll es).get? name = (es.lookup name).or (ls.get? name) := by
  induction es generalizing ls with
  | nil => rfl
  | cons x es ih =>
    obtain ⟨n, m⟩ := x
    obtain ⟨hfirst, hrest⟩ := List.pairwise_cons.1 h
    have hstep : ls.insertAll ((n, m) :: es) = (ls.insert n m).insertAll es := rfl
    rw [hstep, ih hrest, get?_insert, lookup_cons_eq]
    by_cases hname : name = n
    · -- no other entry has the name
      have hnone : es.lookup name = none := by
        by_contra hsome
        obtain ⟨k, hk⟩ := Option.ne_none_iff_exists'.1 hsome
        have hbefore := hfirst _ (IsSorted.lookup_eq_some_iff hrest |>.1 hk)
        rw [hname, Text.precedes_irrefl] at hbefore
        contradiction
      rw [if_pos hname, if_pos hname, hnone]
      rfl
    · rw [if_neg hname, if_neg hname]

/-- Languages that are added to none are all there is. -/
theorem ofList_entries (ls : Languages) : ofList ls.entries = ls := by
  apply eq_of_get?_eq
  intro name
  have hempty : empty.get? name = none := rfl
  unfold ofList
  rw [get?_insertAll ls.sorted, hempty, Option.or_none]
  rfl

end Languages

/-! ## Section 2: Merged settings -/

namespace Settings

variable {s : Settings}

/-- A language of the settings is preferred to one that needs none. -/
theorem get?_withBuiltin (s : Settings) (name : Text) :
    s.withBuiltin.languages.get? name =
      (s.languages.get? name).or (Languages.builtin.get? name) :=
  Languages.get?_insertAll s.languages.sorted _ name

/-- Nothing is added to settings that have a language for each name. -/
theorem withBuiltin_eq_iff :
    s.withBuiltin = s ↔
      ∀ name, (Languages.builtin.get? name).isSome = true →
        (s.languages.get? name).isSome = true := by
  constructor
  · intro h name hbuiltin
    rw [← h, get?_withBuiltin, Option.isSome_or, hbuiltin, Bool.or_true]
  · intro h
    have hlanguages : s.withBuiltin.languages = s.languages := by
      apply Languages.eq_of_get?_eq
      intro name
      rw [get?_withBuiltin]
      cases hown : s.languages.get? name with
      | some l => rfl
      | none =>
        cases hbuiltin : Languages.builtin.get? name with
        | none => rfl
        | some l =>
          have hmissing := h name (by rw [hbuiltin]; rfl)
          rw [hown] at hmissing
          contradiction
    have hsame : s.withBuiltin = ⟨s.markers, s.withBuiltin.languages⟩ := rfl
    rw [hsame, hlanguages]

theorem withBuiltin_withBuiltin (s : Settings) : s.withBuiltin.withBuiltin = s.withBuiltin := by
  rw [withBuiltin_eq_iff]
  intro name hbuiltin
  rw [get?_withBuiltin, Option.isSome_or, hbuiltin, Bool.or_true]

/-! ## Section 3: Languages without a grammar -/

theorem grammarFor_of_fault? {name : Text} {l : Language} (h : s.languages.get? name = some l)
    {fault : Spelling.Fault} (hfault : (s.spelling l).fault? = some fault) :
    s.grammarFor name = .error (.grammar (some name) fault) := by
  have hspelling : Grammar.ofSpelling (s.spelling l) = .error fault := by
    unfold Grammar.ofSpelling
    split
    · next haccepted =>
      rw [hfault] at haccepted
      contradiction
    · next f hf =>
      obtain rfl := Option.some.inj (hfault.symm.trans hf)
      rfl
  unfold grammarFor
  rw [h]
  simp only [hspelling, Except.mapError]

theorem grammarFor_of_accepted {name : Text} {l : Language} (h : s.languages.get? name = some l)
    (haccepted : (s.spelling l).fault? = none) : ∃ g, s.grammarFor name = .ok g := by
  have hspelling : Grammar.ofSpelling (s.spelling l) = .ok ⟨s.spelling l, haccepted⟩ := by
    unfold Grammar.ofSpelling
    split
    · rfl
    · next f hf =>
      rw [haccepted] at hf
      contradiction
  unfold grammarFor
  rw [h]
  exact ⟨⟨s.spelling l, haccepted⟩, by simp only [hspelling, Except.mapError]⟩

/-- What is checked of a language is its spelling. -/
theorem grammarFor_check_eq {name : Text} {l : Language} (h : s.languages.get? name = some l) :
    (match s.grammarFor name with
      | .ok _ => none
      | .error f => some f) = (s.spelling l).fault?.map (.grammar (some name)) := by
  cases hfault : (s.spelling l).fault? with
  | none =>
    obtain ⟨g, hg⟩ := grammarFor_of_accepted h hfault
    rw [hg]
    rfl
  | some fault =>
    rw [grammarFor_of_fault? h hfault]
    rfl

/-- Settings are accepted if every language has a grammar. -/
theorem failure?_eq_none_iff :
    s.failure? = none ↔
      ∀ name l, s.languages.get? name = some l → (s.spelling l).fault? = none := by
  unfold failure?
  rw [List.findSome?_eq_none_iff]
  constructor
  · intro h name l hl
    have hcheck := h (name, l) (Languages.get?_eq_some_iff.1 hl)
    exact Option.map_eq_none_iff.1 ((grammarFor_check_eq hl).symm.trans hcheck)
  · rintro h ⟨name, l⟩ hmem
    have hl := Languages.get?_eq_some_iff.2 hmem
    refine (grammarFor_check_eq hl).trans ?_
    rw [h name l hl]
    rfl

/-- Settings are refused for the first language that has no grammar. -/
theorem failure?_eq_some {f : Failure} (h : s.failure? = some f) :
    ∃ name l fault, s.languages.get? name = some l ∧ (s.spelling l).fault? = some fault ∧
      (∀ n m, Text.precedes n name = true → s.languages.get? n = some m →
        (s.spelling m).fault? = none) ∧
      f = .grammar (some name) fault := by
  unfold failure? at h
  obtain ⟨before, ⟨name, l⟩, after, hentries, hfound, hfirst⟩ := List.findSome?_eq_some_iff.1 h
  have hl : s.languages.get? name = some l := by
    rw [Languages.get?_eq_some_iff, hentries]
    simp
  obtain ⟨fault, hfault, rfl⟩ :=
    Option.map_eq_some_iff.1 ((grammarFor_check_eq hl).symm.trans hfound)
  refine ⟨name, l, fault, hl, hfault, ?_, rfl⟩
  intro n m hlt hm
  have hin := Languages.get?_eq_some_iff.1 hm
  rw [hentries, List.mem_append] at hin
  rcases hin with hin | hin
  · exact Option.map_eq_none_iff.1 ((grammarFor_check_eq hm).symm.trans (hfirst _ hin))
  · -- what comes after the language has a name after its own
    have hsorted := s.languages.sorted
    rw [hentries] at hsorted
    obtain ⟨-, htail, -⟩ := List.pairwise_append.1 hsorted
    rcases List.mem_cons.1 hin with heq | hin
    · rw [(Prod.mk.inj heq).1, Text.precedes_irrefl] at hlt
      contradiction
    · have hgt := (List.pairwise_cons.1 htail).1 _ hin
      rw [Text.precedes_asymm hgt] at hlt
      contradiction

/-- Settings that are accepted have no language without a grammar. -/
theorem grammarFor_ne_grammar (h : s.failure? = none) (name : Text) (language : Option Text)
    (fault : Spelling.Fault) : s.grammarFor name ≠ .error (.grammar language fault) := by
  cases hl : s.languages.get? name with
  | none =>
    unfold grammarFor
    rw [hl]
    simp
  | some l =>
    obtain ⟨g, hg⟩ := grammarFor_of_accepted hl (failure?_eq_none_iff.1 h name l hl)
    rw [hg]
    simp

theorem grammarForPath_ne_grammar (h : s.failure? = none) (p : FilePath) (language : Option Text)
    (fault : Spelling.Fault) : s.grammarForPath p ≠ .error (.grammar language fault) := by
  unfold grammarForPath
  split
  · simp
  · next name _ => exact grammarFor_ne_grammar h name language fault

end Settings

/-! ## Section 4: Settings as data -/

namespace Convention

theorem texts?_map_text (c : Convention) (ts : List Text) :
    c.texts? (.list (ts.map .text)) = some ts := by
  unfold texts?
  simp only
  induction ts with
  | nil => rfl
  | cons t ts ih =>
    rw [List.map_cons, List.mapM_cons, ih]
    rfl

theorem markers?_toData (c : Convention) (m : Markers) : c.markers? m.toData = some m := rfl

theorem language?_toData (c : Convention) (l : Language) : c.language? l.toData = some l := by
  have hfields : c.fields? ["extensions", "comment_open", "comment_close"] true l.toData =
      some [some (.list (l.extensions.map .text)), some (.text l.opener),
        some (.text l.closer)] := rfl
  unfold language?
  rw [hfields]
  simp only [Option.bind_eq_bind, Option.bind_some, texts?_map_text]
  rfl

/-- No name comes twice. -/
theorem keyCount_le_one {es : List (Text × Language)} (h : IsSorted es) (key : Text) :
    keyCount key (es.map fun e => (e.1, e.2.toData)) ≤ 1 := by
  unfold keyCount
  induction es with
  | nil => simp
  | cons x es ih =>
    obtain ⟨hfirst, hrest⟩ := List.pairwise_cons.1 h
    rw [List.map_cons]
    by_cases hkey : x.1 = key
    · have hnone : (es.map fun e => (e.1, e.2.toData)).filter (fun e => e.1 = key) = [] := by
        rw [List.filter_eq_nil_iff]
        intro e he heq
        obtain ⟨y, hy, rfl⟩ := List.mem_map.1 he
        have hbefore := hfirst y hy
        rw [hkey, ← of_decide_eq_true heq, Text.precedes_irrefl] at hbefore
        contradiction
      rw [List.filter_cons_of_pos (by simpa using hkey), hnone]
      rfl
    · rw [List.filter_cons_of_neg (by simpa using hkey)]
      exact ih hrest

theorem mapM_language?_toData (c : Convention) (es : List (Text × Language)) :
    (es.map fun e => (e.1, e.2.toData)).mapM (fun e => (c.language? e.2).map (e.1, ·)) =
      some es := by
  induction es with
  | nil => rfl
  | cons x es ih =>
    rw [List.map_cons, List.mapM_cons, ih]
    simp only [language?_toData]
    rfl

theorem languages?_toData (c : Convention) (ls : Languages) :
    c.languages? (.table (ls.entries.map fun e => (e.1, e.2.toData))) = some ls := by
  unfold languages?
  have hdistinct : (ls.entries.map fun e => (e.1, e.2.toData)).any
      (fun e => 1 < keyCount e.1 (ls.entries.map fun e => (e.1, e.2.toData))) = false := by
    rw [List.any_eq_false]
    intro e _
    have hone := keyCount_le_one ls.sorted e.1
    simpa using hone
  simp only [hdistinct, Bool.and_false, Bool.false_eq_true, if_false, mapM_language?_toData,
    Option.map_some, Languages.ofList_entries]

end Convention

/-- The tables that settings are written as stand for them. -/
theorem Settings.ofData?_toData (f : Format) (s : Settings) : ofData? f s.toData = some s := by
  have hfields : f.convention.fields? ["markers", "languages"] false s.toData =
      some [some s.markers.toData,
        some (.table (s.languages.entries.map fun e => (e.1, e.2.toData)))] := rfl
  unfold ofData? Convention.settings?
  rw [hfields]
  simp only [Option.bind_eq_bind, Option.bind_some, Convention.languages?_toData,
    Convention.markers?_toData]
  rfl

end Marginalia
