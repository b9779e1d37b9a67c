import Marginalia.Directory.Temporary
import Marginalia.Proofs.FileTagging
import Marginalia.Proofs.Growth

/-! # Files that are written as a whole

    A write changes what its path leads to and nothing else, apart from the folders that are
    made on the way.

    * **`prepare_eq_ok`**, **`landing_eq_ok`**, **`writeBytes_eq_ok_iff`**: what each step of
      a write does if it succeeds.
    * **`grown_of_writeBytes_error`**: a write that fails leaves all that was there.
    * **`Replaced`**: what a write should do if it succeeds.
    * **`Overlooks`**: the paths on which it does something else. They lead nowhere at first,
      so that there seems to be no link to follow and no permission bits to keep, and to one of
      these once the folders on the way are made.
    * **`replaced_of_writeBytes`**, **`not_replaced_of_overlooks`**: there are no others.
    * **`above_mem_of_overlooks`**: such a path leads up from a folder that is missing. -/

namespace Marginalia.Directory

variable {d d' : Directory}

/-! ## Section 1: The steps of a write -/

/-- Where a file is put there is no folder, and the names before its own lead to the folder
    that it is in. -/
theorem landing_eq_ok {path : List Char} {l : Location} (h : d.landing path = .ok l) :
    ∃ ns n k, d.route path = .ok (ns ++ [n], false) ∧ n ≠ here ∧ n ≠ above ∧
      ¬ nameLimit < byteLength n ∧ d.travel true linkLimit [] (ns ++ [here]) = .ok k ∧
      l = k ++ [n] ∧ d.get? l ≠ some .folder := by
  unfold landing at h
  split at h
  · exact absurd h (by simp)
  next names slash hroute =>
  rcases List.eq_nil_or_concat' names with rfl | ⟨ns, n, rfl⟩
  · exact absurd h (by simp)
  simp only [List.getLast?_concat, List.dropLast_concat] at h
  split at h
  · exact absurd h (by simp)
  next k hparent =>
  by_cases hdots : n = here ∨ n = above
  · rw [if_pos hdots] at h
    exact absurd h (by simp)
  rw [if_neg hdots] at h
  by_cases hslash : slash = true
  · rw [if_pos hslash] at h
    exact absurd h (by simp)
  rw [if_neg hslash] at h
  by_cases hlong : nameLimit < byteLength n
  · rw [if_pos hlong] at h
    exact absurd h (by simp)
  rw [if_neg hlong] at h
  rw [not_or] at hdots
  have hroute' : d.route path = .ok (ns ++ [n], false) := by
    rw [hroute, Bool.eq_false_iff.2 hslash]
  cases hentry : d.get? (k ++ [n]) with
  | none =>
    rw [hentry] at h
    obtain rfl := Except.ok.inj h
    exact ⟨ns, n, k, hroute', hdots.1, hdots.2, hlong, hparent, rfl, by simp [hentry]⟩
  | some e =>
    rw [hentry] at h
    cases e with
    | folder => exact absurd h (by simp)
    | file bytes mode =>
      obtain rfl := Except.ok.inj h
      exact ⟨ns, n, k, hroute', hdots.1, hdots.2, hlong, hparent, rfl, by simp [hentry]⟩
    | link target =>
      obtain rfl := Except.ok.inj h
      exact ⟨ns, n, k, hroute', hdots.1, hdots.2, hlong, hparent, rfl, by simp [hentry]⟩

theorem mem_of_mem_parentNames {ns : List Name} {n : Name} (h : n ∈ parentNames ns) :
    n ∈ ns := by
  unfold parentNames at h
  have hmem : n ∈ components ns := List.dropLast_subset _ h
  cases ns with
  | nil => exact hmem
  | cons m ns =>
    rcases List.mem_cons.1 hmem with rfl | hrest
    · exact List.mem_cons_self
    · exact List.mem_cons_of_mem _ (List.mem_of_mem_filter hrest)

theorem ne_nil_of_landing {path : List Char} {l : Location} (h : d.landing path = .ok l) :
    l ≠ [] := by
  obtain ⟨ns, n, k, -, -, -, -, -, rfl, -⟩ := landing_eq_ok h
  simp

theorem landing_of_travel {path : List Char} {ns : List Name} {n : Name} {k : Location}
    (hroute : d.route path = .ok (ns ++ [n], false)) (hself : n ≠ here) (hup : n ≠ above)
    (hshort : ¬ nameLimit < byteLength n)
    (hparent : d.travel true linkLimit [] (ns ++ [here]) = .ok k)
    (hfolder : d.get? (k ++ [n]) ≠ some .folder) : d.landing path = .ok (k ++ [n]) := by
  rw [landing_eq hroute hself hup hshort hparent]
  split
  · next hentry => exact absurd hentry hfolder
  · rfl

/-- A path that is written to is the path itself, or that of the file behind a link. -/
theorem target_cases {path path' : List Char} (h : d.target path = .ok path') :
    (path' = path ∧ ∀ m target, d.find false path ≠ .ok (m, .link target)) ∨
      ∃ m target l e, d.find false path = .ok (m, .link target) ∧
        d.find true path = .ok (l, e) ∧ path' = d.absolute l := by
  unfold Directory.target at h
  split at h
  · next m target hlink =>
    split at h
    · next l e hfind => exact .inr ⟨m, target, l, e, hlink, hfind, (Except.ok.inj h).symm⟩
    · exact absurd h (by simp)
  · next hno =>
    exact .inl ⟨(Except.ok.inj h).symm, fun m target hlink => hno m target hlink⟩

/-- All that comes before the file is written. -/
theorem prepare_eq_ok {p : FilePath} {path : List Char} {mode : Option Nat}
    (h : d.prepare p = (d', .ok (path, mode))) :
    d.target p.chars = .ok path ∧ d.modeAt path = .ok mode ∧
      d.makeFolders (d.foldersTo path).reverse = (d', none) := by
  unfold prepare at h
  cases htarget : d.target p.chars with
  | error w =>
    simp only [htarget] at h
    exact absurd (congrArg Prod.snd h) (by simp)
  | ok path₁ =>
    simp only [htarget] at h
    cases hmode : d.modeAt path₁ with
    | error f =>
      simp only [hmode] at h
      exact absurd (congrArg Prod.snd h) (by simp)
    | ok mode₁ =>
      simp only [hmode] at h
      split at h
      · exact absurd (congrArg Prod.snd h) (by simp)
      · next d₁ hmake =>
        obtain ⟨rfl, hpair⟩ := Prod.mk.inj h
        obtain ⟨rfl, rfl⟩ := Prod.mk.inj (Except.ok.inj hpair)
        exact ⟨rfl, hmode, hmake⟩

/-- A path that leads nowhere is written to itself, and the file gets the usual permission
    bits. -/
theorem prepare_eq_ok_of_notFound {p : FilePath} {path : List Char} {mode : Option Nat}
    (hmissing : d.find true p.chars = .error .notFound)
    (h : d.prepare p = (d', .ok (path, mode))) :
    path = p.chars ∧ mode = none ∧ (∀ m target, d.find false p.chars ≠ .ok (m, .link target)) ∧
      d.makeFolders (d.foldersTo p.chars).reverse = (d', none) ∧
      Grown d (d.foldersTo p.chars) d' := by
  obtain ⟨htarget, hmode, hmake⟩ := prepare_eq_ok h
  obtain ⟨rfl, hlink⟩ | ⟨m, target, k, e, -, hfind, -⟩ := target_cases htarget
  · have hgrown := grown_makeFolders d (d.foldersTo p.chars).reverse
    rw [hmake, List.reverse_reverse] at hgrown
    unfold modeAt at hmode
    rw [hmissing] at hmode
    exact ⟨rfl, (Except.ok.inj hmode).symm, hlink, hmake, hgrown⟩
  · rw [hmissing] at hfind
    exact absurd hfind (by simp)

/-- Before the file is written, nothing but folders is made. -/
theorem exists_grown_prepare (d : Directory) (p : FilePath) :
    ∃ ns, Grown d ns (d.prepare p).1 := by
  unfold prepare
  cases d.target p.chars with
  | error w => exact ⟨[], .refl d []⟩
  | ok path =>
    simp only
    cases d.modeAt path with
    | error f => exact ⟨[], .refl d []⟩
    | ok mode =>
      have hgrown := grown_makeFolders d (d.foldersTo path).reverse
      rw [List.reverse_reverse] at hgrown
      refine ⟨d.foldersTo path, ?_⟩
      simp only
      cases hmake : d.makeFolders (d.foldersTo path).reverse with
      | mk d₁ r =>
        rw [hmake] at hgrown
        cases r with
        | none => exact hgrown
        | some f => exact hgrown

/-- A write that succeeds puts a file where the path lands. -/
theorem writeBytes_eq_ok_iff {p : FilePath} {bytes : ByteArray} :
    d.writeBytes p bytes = (d', .ok ()) ↔
      ∃ d₁ path mode l, d.prepare p = (d₁, .ok (path, mode)) ∧ d₁.landing path = .ok l ∧
        d' = d₁.set l (.file bytes mode) := by
  constructor
  · intro h
    cases hprepare : d.prepare p with
    | mk d₁ r =>
      cases r with
      | error w =>
        rw [writeBytes_of_prepare_error hprepare] at h
        exact absurd (congrArg Prod.snd h) (by simp)
      | ok r =>
        rw [writeBytes_of_prepare hprepare] at h
        cases hlanding : d₁.landing r.1 with
        | error f =>
          rw [hlanding] at h
          exact absurd (congrArg Prod.snd h) (by simp)
        | ok l =>
          rw [hlanding] at h
          exact ⟨d₁, r.1, r.2, l, rfl, hlanding, (congrArg Prod.fst h).symm⟩
  · rintro ⟨d₁, path, mode, l, hprepare, hlanding, rfl⟩
    rw [writeBytes_of_prepare hprepare, hlanding]

/-- A write that fails leaves all that was there, and makes nothing but folders. -/
theorem grown_of_writeBytes_error {p : FilePath} {bytes : ByteArray} {w : WriteFault}
    (h : d.writeBytes p bytes = (d', .error w)) : ∃ ns, Grown d ns d' := by
  obtain ⟨ns, hgrown⟩ := exists_grown_prepare d p
  refine ⟨ns, ?_⟩
  cases hprepare : d.prepare p with
  | mk d₁ r =>
    rw [hprepare] at hgrown
    have hsame : d₁ = d' := by
      cases r with
      | error w₁ =>
        rw [writeBytes_of_prepare_error hprepare] at h
        exact congrArg Prod.fst h
      | ok r =>
        rw [writeBytes_of_prepare hprepare] at h
        cases hlanding : d₁.landing r.1 with
        | error f =>
          rw [hlanding] at h
          exact congrArg Prod.fst h
        | ok l =>
          rw [hlanding] at h
          exact absurd (congrArg Prod.snd h) (by simp)
    rw [← hsame]
    exact hgrown

/-! ## Section 2: What a write that succeeds does -/

/-- The path leads to a file with the bytes. The file is new, or has the permission bits that
    it had, and if the path led somewhere before, it leads there still. A link that the path
    ends at is the same. All else is as it was, but for new folders that the path leads
    through. -/
structure Replaced (d : Directory) (p : FilePath) (bytes : ByteArray) (d' : Directory) : Prop where
  home : d'.home = d.home
  file : ∃ l mode, d'.find true p.chars = .ok (l, .file bytes mode) ∧
    (d.get? l = none ∧ mode = none ∨ ∃ old, d.get? l = some (.file old mode)) ∧
    (∀ m e, d.find true p.chars = .ok (m, e) → m = l) ∧
    ∀ m, m ≠ l → d'.get? m = d.get? m ∨ d.get? m = none ∧ d'.get? m = some .folder ∧
      ∃ before after, d.foldersTo p.chars = before ++ after ∧
        d'.travel true linkLimit [] before = .ok m
  link : ∀ m target, d.find false p.chars = .ok (m, .link target) →
    d'.find false p.chars = .ok (m, .link target)

/-- The path leads nowhere as long as folders on the way are missing, and to a link or a file
    with permission bits of its own once they are made. A write looks for those too early, and
    puts a new file in their place. -/
def Overlooks (d : Directory) (p : FilePath) : Prop :=
  d.find true p.chars = .error .notFound ∧
    ∃ d₁ path mode l e, d.prepare p = (d₁, .ok (path, mode)) ∧ d₁.landing path = .ok l ∧
      d.get? l = some e ∧ ∀ old, e ≠ .file old none

/-- A file that a path leads to is replaced where it is. -/
theorem replaced_of_find_file {p : FilePath} {l : Location} {old bytes : ByteArray}
    {mode : Option Nat} (h : d.find true p.chars = .ok (l, .file old mode)) :
    Replaced d p bytes (d.set l (.file bytes mode)) := by
  obtain ⟨-, -, -, -, hfile⟩ := find_eq_ok h
  have hne := ne_nil_of_file hfile
  have hshape := sameShape_set hfile bytes mode
  refine ⟨rfl, ⟨l, mode, find_set h bytes mode, .inr ⟨old, hfile⟩, ?_, ?_⟩, ?_⟩
  · intro m e he
    rw [h] at he
    exact (Prod.mk.inj (Except.ok.inj he)).1.symm
  · intro m hm
    rw [get?_set d l m _ hne, if_neg hm]
    exact .inl rfl
  · intro m target hlink
    obtain ⟨ns, slash, hroute, htravel, hentry⟩ := find_eq_ok hlink
    refine find_of_route ((hshape.route_eq _).trans hroute) ((hshape.travel_eq _ _ _ _).trans
      htravel) ?_
    -- the link is not the file
    rw [get?_set d l m _ hne, if_neg, hentry]
    rintro rfl
    rw [hfile] at hentry
    exact absurd hentry (by simp)

/-- What is where a file is to be put is what the path leads to. -/
theorem find_of_landing {path : List Char} {l : Location} (h : d.landing path = .ok l) {e : Entry}
    (he : d.get? l = some e) {follow : Bool}
    (hlink : ∀ target, e = .link target → follow = false) : d.find follow path = .ok (l, e) := by
  obtain ⟨ns, n, k, hroute, hself, hup, hshort, hparent, rfl, -⟩ := landing_eq_ok h
  refine find_of_route hroute ?_ he
  rw [if_neg Bool.false_ne_true, List.append_nil]
  exact travel_concat hparent hself hup hshort he hlink

/-- If nothing is there, the path leads nowhere. -/
theorem find_of_landing_none {path : List Char} {l : Location} (h : d.landing path = .ok l)
    (hnone : d.get? l = none) (follow : Bool) : d.find follow path = .error .notFound := by
  obtain ⟨ns, n, k, hroute, hself, hup, hshort, hparent, rfl, -⟩ := landing_eq_ok h
  obtain ⟨hstop, hfolder⟩ := travel_append_here_iff.1 hparent
  obtain ⟨links, hgo⟩ := exists_travel_append_eq hstop
  have hstep := step_of_name hfolder hself hup hshort
  rw [hnone] at hstep
  have htravel : d.travel follow linkLimit [] (ns ++ [n]) = .error .notFound := by
    rw [hgo follow [n] (.inr (by simp)), travel_of_step_fault hstep]
  unfold find resolve
  simp only [hroute, Bool.false_eq_true, if_false, List.append_nil, htravel]

/-- On a path that leads to something, no folder has to be made. -/
theorem makeFolders_foldersTo {path : List Char} {l : Location} {e : Entry}
    (h : d.find true path = .ok (l, e)) {ns : List Name} {n : Name}
    (hroute : d.route path = .ok (ns ++ [n], false)) (hself : n ≠ here) :
    d.makeFolders (d.foldersTo path).reverse = (d, none) := by
  obtain ⟨names, slash, hroute', htravel, -⟩ := find_eq_ok h
  obtain ⟨rfl, rfl⟩ := Prod.mk.inj (Except.ok.inj (hroute.symm.trans hroute'))
  simp only [Bool.false_eq_true, if_false, List.append_nil] at htravel
  obtain ⟨links, k, -, hstop, hfolder⟩ := travel_append_ok htravel (by simp)
  unfold foldersTo
  rw [hroute]
  exact makeFolders_parentNames hself (travel_append_here_iff.2 ⟨hstop, hfolder⟩)

/-- A write to a path that leads to a folder does not succeed. -/
theorem writeBytes_ne_ok_of_find_folder {p : FilePath} {l : Location}
    (h : d.find true p.chars = .ok (l, .folder)) (bytes : ByteArray) :
    d.writeBytes p bytes ≠ (d', .ok ()) := by
  intro hwrite
  by_cases hlink : ∃ m target, d.find false p.chars = .ok (m, .link target)
  · obtain ⟨m, target, hlink⟩ := hlink
    obtain ⟨w, hfail⟩ := writeBytes_of_link_to_folder hlink h bytes
    rw [hfail] at hwrite
    exact absurd (congrArg Prod.snd hwrite) (by simp)
  obtain ⟨d₁, path, mode, l₁, hprepare, hlanding, -⟩ := writeBytes_eq_ok_iff.1 hwrite
  obtain ⟨htarget, -, hmake⟩ := prepare_eq_ok hprepare
  obtain ⟨rfl, -⟩ | ⟨m, target, -, -, hfalse, -⟩ := target_cases htarget
  · -- the folders on the way are there
    obtain ⟨ns, n, k, hroute, hself, -, -, -, -, hfolder⟩ := landing_eq_ok hlanding
    have hgrown := grown_makeFolders d (d.foldersTo p.chars).reverse
    rw [hmake] at hgrown
    rw [hgrown.includes.route_eq] at hroute
    rw [makeFolders_foldersTo h hroute hself] at hmake
    obtain rfl := congrArg Prod.fst hmake
    cases hentry : d.get? l₁ with
    | none =>
      rw [find_of_landing_none hlanding hentry] at h
      exact absurd h (by simp)
    | some e =>
      have hno : ∀ target, e ≠ .link target := by
        rintro target rfl
        exact hlink ⟨l₁, target, find_of_landing hlanding hentry fun _ _ => rfl⟩
      rw [find_of_landing hlanding hentry fun target he => absurd he (hno target)] at h
      obtain ⟨rfl, rfl⟩ := Prod.mk.inj (Except.ok.inj h)
      exact hfolder hentry
  · exact hlink ⟨m, target, hfalse⟩

/-- Where a file was put that is new, or in place of one, a path to there leads. -/
theorem find_set_of_landing {path : List Char} {l : Location} (hlanding : d.landing path = .ok l)
    (hentry : d.get? l = none ∨ ∃ old mode, d.get? l = some (.file old mode)) (bytes : ByteArray)
    (mode : Option Nat) :
    (d.set l (.file bytes mode)).find true path = .ok (l, .file bytes mode) ∧
      ∀ ns m, d.travel true linkLimit [] ns = .ok m →
        (d.set l (.file bytes mode)).travel true linkLimit [] ns = .ok m := by
  rcases hentry with hnone | ⟨old, mode', hfile⟩
  · obtain ⟨ns, n, k, hroute, hself, hup, hshort, hparent, rfl, -⟩ := landing_eq_ok hlanding
    have hne : k ++ [n] ≠ [] := by simp
    have hincludes : Includes d (d.set (k ++ [n]) (.file bytes mode)) := includes_set hne hnone _
    have hnew : (d.set (k ++ [n]) (.file bytes mode)).get? (k ++ [n]) =
        some (.file bytes mode) := by
      rw [get?_set d _ _ _ hne, if_pos rfl]
    refine ⟨find_of_route ((hincludes.route_eq _).trans hroute) ?_ hnew,
      fun ns m => hincludes.travel⟩
    rw [if_neg Bool.false_ne_true, List.append_nil]
    exact travel_concat (hincludes.travel hparent) hself hup hshort hnew (by simp)
  · have hfind : d.find true path = .ok (l, .file old mode') :=
      find_of_landing hlanding hfile (by simp)
    refine ⟨find_set hfind bytes mode, ?_⟩
    intro ns m htravel
    rw [(sameShape_set hfile bytes mode).travel_eq]
    exact htravel

/-- A write that succeeds on a path that leads nowhere makes a file, if nothing is
    overlooked. -/
theorem replaced_of_find_notFound {p : FilePath} {bytes : ByteArray}
    (h : d.find true p.chars = .error .notFound) (hsees : ¬ d.Overlooks p)
    (hwrite : d.writeBytes p bytes = (d', .ok ())) : Replaced d p bytes d' := by
  obtain ⟨d₁, path, mode, l, hprepare, hlanding, rfl⟩ := writeBytes_eq_ok_iff.1 hwrite
  -- nothing was there, or a file as it is made now
  have hold : d.get? l = none ∨ ∃ old, d.get? l = some (.file old none) := by
    by_contra hother
    rw [not_or, not_exists] at hother
    obtain ⟨e, he⟩ := Option.ne_none_iff_exists'.1 hother.1
    refine hsees ⟨h, d₁, path, mode, l, e, hprepare, hlanding, he, ?_⟩
    rintro old rfl
    exact hother.2 old he
  obtain ⟨rfl, rfl, hlink, -, hgrown⟩ := prepare_eq_ok_of_notFound h hprepare
  have hne := ne_nil_of_landing hlanding
  -- no folder is made where the file is put
  have hthere : d₁.get? l = d.get? l := by
    obtain ⟨-, -, -, -, -, -, -, -, -, hfolder⟩ := landing_eq_ok hlanding
    rcases hgrown.entries l with hsame | ⟨-, hfolder', -⟩
    · exact hsame
    · exact absurd hfolder' hfolder
  have hentry : d₁.get? l = none ∨ ∃ old mode, d₁.get? l = some (.file old mode) := by
    rw [hthere]
    exact hold.imp id fun ⟨old, hfile⟩ => ⟨old, none, hfile⟩
  obtain ⟨hleads, hpass⟩ := find_set_of_landing hlanding hentry bytes none
  refine ⟨hgrown.home, ⟨l, none, hleads, hold.imp (⟨·, rfl⟩) id, ?_, ?_⟩, ?_⟩
  · intro m e hm
    rw [h] at hm
    exact absurd hm (by simp)
  · intro m hm
    rw [get?_set d₁ _ m _ hne, if_neg hm]
    rcases hgrown.entries m with hsame | ⟨hm', hmade, before, after, hns, htravel⟩
    · exact .inl hsame
    · exact .inr ⟨hm', hmade, before, after, hns, hpass _ _ htravel⟩
  · intro m target hfalse
    exact absurd hfalse (hlink m target)

/-- A write that succeeds replaces the file, or makes it, and touches nothing else, unless the
    path overlooks something. -/
theorem replaced_of_writeBytes {p : FilePath} {bytes : ByteArray} (hsees : ¬ d.Overlooks p)
    (hwrite : d.writeBytes p bytes = (d', .ok ())) : Replaced d p bytes d' := by
  cases hfind : d.find true p.chars with
  | ok r =>
    obtain ⟨l, e⟩ := r
    cases e with
    | file old mode =>
      rcases writeBytes_cases_of_find hfind bytes with ⟨w, hfail⟩ | hset
      · rw [hfail] at hwrite
        exact absurd (congrArg Prod.snd hwrite) (by simp)
      · rw [hset] at hwrite
        obtain rfl := congrArg Prod.fst hwrite
        exact replaced_of_find_file hfind
    | link target => exact absurd rfl (ne_link_of_find hfind target)
    | folder => exact absurd hwrite (writeBytes_ne_ok_of_find_folder hfind bytes)
  | error f =>
    by_cases hmissing : f = .notFound
    · rw [hmissing] at hfind
      exact replaced_of_find_notFound hfind hsees hwrite
    · -- any other fault is met again when the permission bits are looked for
      obtain ⟨d₁, path, mode, l, hprepare, -, -⟩ := writeBytes_eq_ok_iff.1 hwrite
      obtain ⟨htarget, hmode, -⟩ := prepare_eq_ok hprepare
      obtain ⟨rfl, -⟩ | ⟨m, target, k, e, -, hok, -⟩ := target_cases htarget
      · unfold modeAt at hmode
        rw [hfind] at hmode
        split at hmode
        · next heq => exact absurd heq (by simp)
        · next heq => exact absurd heq (by simp)
        · next heq => exact absurd (Except.error.inj heq) hmissing
        · exact absurd hmode (by simp)
      · rw [hfind] at hok
        exact absurd hok (by simp)

/-- What was written is read. -/
theorem readText_of_writeText {p : FilePath} {text : String} (hsees : ¬ d.Overlooks p)
    (hwrite : d.writeText p text = (d', .ok ())) : d'.readText p = .ok text := by
  obtain ⟨l, mode, hfind, -⟩ := (replaced_of_writeBytes hsees hwrite).file
  rw [readText_eq_ok_iff]
  unfold readBytes
  rw [hfind]

/-- Where something is overlooked, a link or the permission bits of a file are lost. -/
theorem not_replaced_of_overlooks {p : FilePath} {bytes : ByteArray} (h : d.Overlooks p)
    (hwrite : d.writeBytes p bytes = (d', .ok ())) : ¬ Replaced d p bytes d' := by
  intro hreplaced
  obtain ⟨hmissing, d₁, path, mode, l, e, hprepare, hlanding, he, hother⟩ := h
  rw [writeBytes_of_prepare hprepare, hlanding] at hwrite
  obtain rfl := congrArg Prod.fst hwrite
  obtain ⟨rfl, rfl, -, -, -⟩ := prepare_eq_ok_of_notFound hmissing hprepare
  have hne := ne_nil_of_landing hlanding
  obtain ⟨k, mode, hleads, hentry, -, hrest⟩ := hreplaced.file
  obtain ⟨-, -, -, -, hk⟩ := find_eq_ok hleads
  rw [get?_set d₁ l k _ hne] at hk
  by_cases hsame : k = l
  · -- what was there is no file as it is made now
    rw [if_pos hsame] at hk
    obtain ⟨-, rfl⟩ := Entry.file.inj (Option.some.inj hk)
    rw [hsame, he] at hentry
    rcases hentry with ⟨hnone, -⟩ | ⟨old, hold⟩
    · exact absurd hnone (by simp)
    · exact hother old (Option.some.inj hold)
  · -- what was there would still be there
    rcases hrest l (Ne.symm hsame) with hkept | ⟨hnone, -⟩
    · rw [get?_set d₁ l l _ hne, if_pos rfl, he] at hkept
      exact hother bytes (Option.some.inj hkept).symm
    · rw [he] at hnone
      exact absurd hnone (by simp)

/-- What is overlooked lies behind a name that leads up. -/
theorem above_mem_of_overlooks (htree : d.IsTree) {p : FilePath} (h : d.Overlooks p) :
    ∃ ns slash, d.route p.chars = .ok (ns, slash) ∧ above ∈ ns := by
  obtain ⟨hmissing, d₁, path, mode, l, e, hprepare, hlanding, he, -⟩ := h
  obtain ⟨rfl, rfl, hlink, hmake, hgrown⟩ := prepare_eq_ok_of_notFound hmissing hprepare
  obtain ⟨ns, n, k, hroute, hself, -, -, hparent, rfl, -⟩ := landing_eq_ok hlanding
  rw [hgrown.includes.route_eq] at hroute
  refine ⟨ns ++ [n], false, hroute, ?_⟩
  by_contra hnone
  have hfolders : d.foldersTo p.chars = parentNames (ns ++ [n]) := by
    unfold foldersTo
    rw [hroute]
  have hstraight : above ∉ (d.foldersTo p.chars).reverse := by
    rw [List.mem_reverse, hfolders]
    exact fun hmem => hnone (mem_of_mem_parentNames hmem)
  rcases htree.makeFolders_cases hstraight hmake with hsame | ⟨m, hm, htravel⟩
  · -- the folders were there, so that the path led to it
    rw [hsame] at hlanding
    by_cases hisLink : ∃ target, e = .link target
    · obtain ⟨target, rfl⟩ := hisLink
      exact hlink _ _ (find_of_landing hlanding he fun _ _ => rfl)
    · rw [not_exists] at hisLink
      rw [find_of_landing hlanding he fun target htarget => absurd htarget (hisLink target)]
        at hmissing
      exact absurd hmissing (by simp)
  · -- the last folder is new, so that nothing was in it
    rw [List.reverse_reverse, hfolders] at htravel
    obtain ⟨hstop, -⟩ := travel_append_here_iff.1 (travel_parentNames hself hparent)
    obtain rfl := Except.ok.inj (hstop.symm.trans htravel)
    rw [htree.get?_eq_none hm n] at he
    exact absurd he (by simp)

end Marginalia.Directory
