import Marginalia.Proofs.Files

/-! # Directories that grow

    Before a file is written, the folders on the way are made. All that was in the directory
    stays as it was, and all paths that led somewhere lead there still.

    * **`Includes`**: all that was in one directory is in the other.
    * **`Includes.travel`**: a way through a directory is one through a larger directory.
    * **`Grown`**: only folders are new, and the first names of a path lead to them.
    * **`grown_makeFolders`**: what making folders does, whether it succeeds or not.
    * **`IsTree.makeFolders_cases`**: where nothing leads up, the way goes on in new folders
      only. -/

namespace Marginalia.Directory

variable {d d' d'' : Directory}

/-! ## Section 1: More entries -/

/-- All that is in the first directory is in the second one, as it was. -/
structure Includes (d d' : Directory) : Prop where
  home : d'.home = d.home
  kept : ∀ l e, d.get? l = some e → d'.get? l = some e

namespace Includes

/-- What is nowhere in the second directory is nowhere in the first. -/
theorem get?_eq_none (h : Includes d d') {l : Location} (hl : d'.get? l = none) :
    d.get? l = none := by
  by_contra hsome
  obtain ⟨e, he⟩ := Option.ne_none_iff_exists'.1 hsome
  rw [h.kept l e he] at hl
  exact absurd hl (by simp)

theorem isFolder (h : Includes d d') {l : Location}
    (hl : (d.get? l).any Entry.isFolder = true) : (d'.get? l).any Entry.isFolder = true := by
  cases he : d.get? l with
  | none =>
    rw [he] at hl
    exact absurd hl (by simp)
  | some e =>
    rw [h.kept l e he]
    rwa [he] at hl

theorem inside?_eq (h : Includes d d') (path : List Char) : d'.inside? path = d.inside? path := by
  unfold inside?
  rw [h.home]

theorem route_eq (h : Includes d d') (path : List Char) : d'.route path = d.route path := by
  unfold route
  rw [h.inside?_eq]

theorem jump_eq (h : Includes d d') (m : Location) (target : List Char) :
    d'.jump m target = d.jump m target := by
  unfold jump
  rw [h.inside?_eq]

/-- A step that leads on does so where more is in the directory. -/
theorem step_on (h : Includes d d') {l m : Location} {n : Name} (hstep : d.step l n = .on m) :
    d'.step l n = .on m := by
  obtain ⟨hfolder, hother | hother | ⟨hself, hup, hshort, hm, e, he, hlink⟩⟩ :=
    step_eq_on_iff.1 hstep
  · exact step_eq_on_iff.2 ⟨h.isFolder hfolder, .inl hother⟩
  · exact step_eq_on_iff.2 ⟨h.isFolder hfolder, .inr (.inl hother)⟩
  · exact step_eq_on_iff.2 ⟨h.isFolder hfolder,
      .inr (.inr ⟨hself, hup, hshort, hm, e, h.kept _ e he, hlink⟩)⟩

theorem step_link (h : Includes d d') {l : Location} {n : Name} {target : List Char}
    (hstep : d.step l n = .link target) : d'.step l n = .link target := by
  obtain ⟨hfolder, hself, hup, hshort, hentry⟩ := step_eq_link_iff.1 hstep
  exact step_eq_link_iff.2 ⟨h.isFolder hfolder, hself, hup, hshort, h.kept _ _ hentry⟩

/-- A walk that does not fail is the same where more is in the directory. -/
theorem walk (h : Includes d d') {follow : Bool} {l : Location} {ns : List Name} {stop : Stop}
    (hwalk : d.walk follow l ns = .ok stop) : d'.walk follow l ns = .ok stop := by
  induction ns generalizing l with
  | nil => exact hwalk
  | cons n ns ih =>
    rw [walk_cons] at hwalk ⊢
    cases hstep : d.step l n with
    | on m =>
      rw [hstep] at hwalk
      rw [h.step_on hstep]
      exact ih hwalk
    | link target =>
      rw [hstep] at hwalk
      rw [h.step_link hstep]
      exact hwalk
    | fault f =>
      rw [hstep] at hwalk
      exact absurd hwalk (by simp)

/-- A way that leads somewhere leads there still. -/
theorem travel (h : Includes d d') {follow : Bool} {links : Nat} {l m : Location}
    {ns : List Name} (htravel : d.travel follow links l ns = .ok m) :
    d'.travel follow links l ns = .ok m := by
  induction links generalizing l ns with
  | zero =>
    obtain harrive | ⟨links, _, _, _, _, hzero, -⟩ := travel_cases htravel
    · exact travel_of_walk_arrived (h.walk harrive)
    · exact absurd hzero (by omega)
  | succ links ih =>
    obtain harrive | ⟨links', k, target, rest, next, hlinks, hlink, hjump, hon⟩ :=
      travel_cases htravel
    · exact travel_of_walk_arrived (h.walk harrive)
    · -- the link leads on in the same way
      obtain rfl := Nat.succ.inj hlinks
      rw [travel_succ_of_walk_link (h.walk hlink), h.jump_eq, hjump]
      exact ih hon

end Includes

theorem includes_set {l : Location} (hne : l ≠ []) (h : d.get? l = none) (e : Entry) :
    Includes d (d.set l e) := by
  refine ⟨rfl, ?_⟩
  intro m f hm
  rw [get?_set d l m e hne, if_neg]
  · exact hm
  · intro heq
    rw [heq, h] at hm
    exact absurd hm (by simp)

/-- Names that lead to a folder lead to what is in it, if the name of that follows. -/
theorem travel_concat {follow : Bool} {links : Nat} {l : Location} {ns : List Name} {n : Name}
    {e : Entry} (hparent : d.travel true links [] (ns ++ [here]) = .ok l) (hself : n ≠ here)
    (hup : n ≠ above) (hshort : ¬ nameLimit < byteLength n) (he : d.get? (l ++ [n]) = some e)
    (hlink : ∀ target, e = .link target → follow = false) :
    d.travel follow links [] (ns ++ [n]) = .ok (l ++ [n]) := by
  obtain ⟨hstop, hfolder⟩ := travel_append_here_iff.1 hparent
  obtain ⟨links', hgo⟩ := exists_travel_append_eq hstop
  rw [hgo follow [n] (.inr (by simp))]
  have hstep := step_of_name hfolder hself hup hshort
  rw [he] at hstep
  cases e with
  | file bytes mode => rw [travel_of_step_on hstep, travel_nil]
  | folder => rw [travel_of_step_on hstep, travel_nil]
  | link target =>
    rw [hlink target rfl]
    exact travel_false_of_step_link hstep links'

/-! ## Section 2: New folders -/

/-- Nothing is new but folders to which the first names on a way lead, and all else is as it
    was. -/
structure Grown (d : Directory) (ns : List Name) (d' : Directory) : Prop where
  home    : d'.home = d.home
  entries : ∀ l, d'.get? l = d.get? l ∨ d.get? l = none ∧ d'.get? l = some .folder ∧
    ∃ before after, ns = before ++ after ∧ d'.travel true linkLimit [] before = .ok l

namespace Grown

variable {ns : List Name}

theorem refl (d : Directory) (ns : List Name) : Grown d ns d :=
  ⟨rfl, fun _ => .inl rfl⟩

theorem includes (h : Grown d ns d') : Includes d d' := by
  refine ⟨h.home, ?_⟩
  intro l e he
  rcases h.entries l with hsame | ⟨hnone, -, -⟩
  · rw [hsame, he]
  · rw [he] at hnone
    exact absurd hnone (by simp)

/-- Folders are made on one part of the way, and then on more of it. -/
theorem trans (h : Grown d ns d') {more : List Name} (h' : Grown d' (ns ++ more) d'') :
    Grown d (ns ++ more) d'' := by
  refine ⟨h'.home.trans h.home, ?_⟩
  intro l
  rcases h.entries l with hsame | ⟨hnone, hfolder, before, after, hns, htravel⟩
  · rw [← hsame]
    exact h'.entries l
  · refine .inr ⟨hnone, h'.includes.kept l _ hfolder, before, after ++ more, ?_,
      h'.includes.travel htravel⟩
    rw [hns, List.append_assoc]

end Grown

/-- All that making a folder does: it is where its names lead to. -/
theorem makeFolder_eq_ok {ns : List Name} (h : d.makeFolder ns = .ok d') :
    Grown d ns d' ∧
      ∃ l, d.get? l = none ∧ d'.get? l = some .folder ∧ d'.travel true linkLimit [] ns = .ok l := by
  rcases List.eq_nil_or_concat' ns with rfl | ⟨init, n, rfl⟩
  · exact absurd h (by simp [makeFolder])
  unfold makeFolder at h
  simp only [List.getLast?_concat, List.dropLast_concat] at h
  split at h
  · exact absurd h (by simp)
  next l hparent =>
  by_cases hdots : n = here ∨ n = above
  · rw [if_pos hdots] at h
    exact absurd h (by simp)
  rw [if_neg hdots] at h
  by_cases hlong : nameLimit < byteLength n
  · rw [if_pos hlong] at h
    exact absurd h (by simp)
  rw [if_neg hlong] at h
  by_cases hthere : (d.get? (l ++ [n])).isSome = true
  · rw [if_pos hthere] at h
    exact absurd h (by simp)
  rw [if_neg hthere] at h
  obtain rfl := Except.ok.inj h
  rw [not_or] at hdots
  have hne : l ++ [n] ≠ [] := by simp
  have hnone : d.get? (l ++ [n]) = none := by simpa using hthere
  have hnew : (d.set (l ++ [n]) .folder).get? (l ++ [n]) = some .folder := by
    rw [get?_set d _ _ _ hne, if_pos rfl]
  -- the folder is found where it was made
  have htravel : (d.set (l ++ [n]) .folder).travel true linkLimit [] (init ++ [n]) =
      .ok (l ++ [n]) :=
    travel_concat ((includes_set hne hnone _).travel hparent) hdots.1 hdots.2 hlong hnew
      (by simp)
  refine ⟨⟨rfl, ?_⟩, l ++ [n], hnone, hnew, htravel⟩
  intro m
  by_cases hm : m = l ++ [n]
  · rw [hm]
    exact .inr ⟨hnone, hnew, init ++ [n], [], by simp, htravel⟩
  · rw [get?_set d _ _ _ hne, if_neg hm]
    exact .inl rfl

/-- All that making folders does for the last name: the folder is made, at once or after those
    above it, or nothing is made, or only those above it are. -/
theorem makeFolders_cons_cases {n : Name} {up : List Name} {r : Option FileFault}
    (h : d.makeFolders (n :: up) = (d', r)) :
    (∃ d₁, (d₁ = d ∨ d.makeFolders up = (d₁, none)) ∧
        d₁.makeFolder (n :: up).reverse = .ok d') ∨
      d' = d ∨
      ∃ r', d.makeFolders up = (d', r') ∧
        (r = none → r' = none ∧ d'.leadsToFolder (n :: up).reverse = true) := by
  unfold makeFolders at h
  simp only at h
  cases hfirst : d.makeFolder (n :: up).reverse with
  | ok d₁ =>
    rw [hfirst] at h
    obtain ⟨rfl, -⟩ := Prod.mk.inj h
    exact .inl ⟨d, .inl rfl, hfirst⟩
  | error f =>
    rw [hfirst] at h
    cases f with
    | notFound =>
      -- the folders above come first
      cases habove : d.makeFolders up with
      | mk d₁ r' =>
        rw [habove] at h
        cases r' with
        | some f =>
          obtain ⟨rfl, rfl⟩ := Prod.mk.inj h
          exact .inr (.inr ⟨_, rfl, fun hnone => absurd hnone (by simp)⟩)
        | none =>
          simp only at h
          cases hagain : d₁.makeFolder (n :: up).reverse with
          | ok d₂ =>
            rw [hagain] at h
            obtain ⟨rfl, -⟩ := Prod.mk.inj h
            exact .inl ⟨d₁, .inr rfl, hagain⟩
          | error f =>
            rw [hagain] at h
            obtain ⟨rfl, hr⟩ := Prod.mk.inj h
            refine .inr (.inr ⟨none, rfl, ?_⟩)
            intro hnone
            rw [hnone] at hr
            refine ⟨rfl, ?_⟩
            by_contra hno
            rw [if_neg hno] at hr
            exact absurd hr (by simp)
    | _ => exact .inr (.inl (congrArg Prod.fst h).symm)

/-- Folders are made on the way, as far as that succeeds. -/
theorem grown_makeFolders (d : Directory) (up : List Name) :
    Grown d up.reverse (d.makeFolders up).1 := by
  induction up with
  | nil => exact .refl d _
  | cons n up ih =>
    cases hmake : d.makeFolders (n :: up) with
    | mk d' r =>
      obtain ⟨d₁, rfl | habove, hlast⟩ | rfl | ⟨r', habove, -⟩ := makeFolders_cons_cases hmake
      · exact (makeFolder_eq_ok hlast).1
      · have hgrown := (makeFolder_eq_ok hlast).1
        rw [habove] at ih
        rw [List.reverse_cons] at hgrown ⊢
        exact ih.trans hgrown
      · exact .refl _ _
      · rw [habove] at ih
        rw [List.reverse_cons]
        exact ih.trans (.refl _ _)

/-! ## Section 3: Ways into new folders -/

/-- Everything in the directory lies in a folder. -/
def IsTree (d : Directory) : Prop :=
  ∀ l n e, d.get? (l ++ [n]) = some e → (d.get? l).any Entry.isFolder = true

/-- Nothing lies where nothing is. -/
theorem IsTree.get?_eq_none (h : d.IsTree) {l : Location} (hl : d.get? l = none) (n : Name) :
    d.get? (l ++ [n]) = none := by
  by_contra hsome
  obtain ⟨e, he⟩ := Option.ne_none_iff_exists'.1 hsome
  have hfolder := h l n e he
  rw [hl] at hfolder
  exact absurd hfolder (by simp)

/-- In a new folder, a way that does not lead up leads to a new folder. -/
theorem IsTree.travel_new (h : d.IsTree)
    (hlinks : ∀ l target, d'.get? l = some (.link target) → d.get? l = some (.link target))
    {ns : List Name} {n : Name} (hup : n ≠ above) {l k : Location} (hl : d.get? l = none)
    (hns : d'.travel true linkLimit [] ns = .ok l)
    (hk : d'.travel true linkLimit [] (ns ++ [n]) = .ok k) : d.get? k = none := by
  obtain ⟨links, m, hgo, hstop, hfolder⟩ := travel_append_ok hk (by simp)
  obtain rfl := Except.ok.inj (hstop.symm.trans hns)
  rw [hgo true [n] (.inl rfl)] at hk
  have hnone := h.get?_eq_none hl n
  cases hstep : d'.step m n with
  | fault f =>
    rw [travel_of_step_fault hstep] at hk
    exact absurd hk (by simp)
  | link target =>
    -- all links are old, and nothing old is in a new folder
    obtain ⟨-, -, -, -, hentry⟩ := step_eq_link_iff.1 hstep
    rw [hlinks _ target hentry] at hnone
    exact absurd hnone (by simp)
  | on k' =>
    rw [travel_of_step_on hstep, travel_nil] at hk
    obtain rfl := Except.ok.inj hk
    obtain ⟨-, ⟨-, rfl⟩ | ⟨habove, -⟩ | ⟨-, -, -, rfl, -⟩⟩ := step_eq_on_iff.1 hstep
    · exact hl
    · exact absurd habove hup
    · exact hnone

theorem Grown.link {ns : List Name} (h : Grown d ns d') {l : Location} {target : List Char}
    (hl : d'.get? l = some (.link target)) : d.get? l = some (.link target) := by
  rcases h.entries l with hsame | ⟨-, hfolder, -⟩
  · rw [← hsame, hl]
  · rw [hl] at hfolder
    exact absurd hfolder (by simp)

/-- Where nothing leads up, no folder is made, or the way ends in a new folder. -/
theorem IsTree.makeFolders_cases (h : d.IsTree) {up : List Name} (hup : above ∉ up)
    (hmake : d.makeFolders up = (d', none)) :
    d' = d ∨ ∃ l, d.get? l = none ∧ d'.travel true linkLimit [] up.reverse = .ok l := by
  induction up generalizing d' with
  | nil => exact .inl (congrArg Prod.fst hmake).symm
  | cons n up ih =>
    rw [List.mem_cons, not_or] at hup
    obtain ⟨d₁, hbefore, hlast⟩ | hsame | ⟨r', habove, hleads⟩ := makeFolders_cons_cases hmake
    · obtain ⟨-, l, hnone, -, htravel⟩ := makeFolder_eq_ok hlast
      refine .inr ⟨l, ?_, htravel⟩
      obtain rfl | habove := hbefore
      · exact hnone
      · have hgrown := grown_makeFolders d up
        rw [habove] at hgrown
        exact hgrown.includes.get?_eq_none hnone
    · exact .inl hsame
    · obtain ⟨rfl, hfolder⟩ := hleads rfl
      rcases ih hup.2 habove with hsame | ⟨l, hl, htravel⟩
      · exact .inl hsame
      · -- the last name leads on from a new folder
        obtain ⟨k, hk, -⟩ := leadsToFolder_iff.1 hfolder
        refine .inr ⟨k, ?_, hk⟩
        have hgrown := grown_makeFolders d up
        rw [habove] at hgrown
        rw [List.reverse_cons] at hk
        exact h.travel_new (fun _ _ => hgrown.link) (Ne.symm hup.1) hl htravel hk

end Marginalia.Directory
