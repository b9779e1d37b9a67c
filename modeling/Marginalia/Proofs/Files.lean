import Marginalia.Proofs.Paths

/-! # Files that are written and read

    A file that can be read is replaced where it is: the folders on the way are there, and
    links are followed to it.

    * **`exists_target`**: the path that is written to leads to the file itself.
    * **`makeFolders_of_leadsToFolder`**: folders that are there are not made again.
    * **`writeBytes_of_find`**: all that writing a file does.
    * **`readBytes_writeBytes`**: what was written is read, and can be replaced in turn.
    * **`IsSingle.writeBytes_cases`**: all that writing to a name in the directory itself
      does, whatever stands there. -/

namespace Marginalia.Directory

variable {d d' : Directory}

/-! ## Section 1: The path that is written to -/

/-- A walk that does not follow a link at the end stops at one, or does not get to one. -/
theorem walk_false (d : Directory) (l : Location) (ns : List Name) :
    d.walk false l ns = d.walk true l ns ∨
      ∃ m target, d.walk false l ns = .ok (.arrived m) ∧ d.get? m = some (.link target) := by
  induction ns generalizing l with
  | nil => exact .inl rfl
  | cons n ns ih =>
    simp only [walk_cons]
    cases hstep : d.step l n with
    | on m => exact ih m
    | fault f => exact .inl rfl
    | link target =>
      obtain ⟨-, -, -, -, hlink⟩ := step_eq_link_iff.1 hstep
      by_cases hlast : ns = []
      · exact .inr ⟨l ++ [n], target, by simp [hlast], hlink⟩
      · exact .inl (by simp [hlast])

theorem travel_false (d : Directory) (links : Nat) (l : Location) (ns : List Name) :
    d.travel false links l ns = d.travel true links l ns ∨
      ∃ m target, d.travel false links l ns = .ok m ∧ d.get? m = some (.link target) := by
  induction links generalizing l ns with
  | zero =>
    rcases walk_false d l ns with hsame | ⟨m, target, harrive, hlink⟩
    · refine .inl ?_
      unfold travel
      rw [hsame]
    · exact .inr ⟨m, target, travel_of_walk_arrived harrive, hlink⟩
  | succ links ih =>
    rcases walk_false d l ns with hsame | ⟨m, target, harrive, hlink⟩
    · cases hwalk : d.walk true l ns with
      | error f =>
        rw [travel_of_walk_error hwalk, travel_of_walk_error (hsame.trans hwalk)]
        exact .inl rfl
      | ok stop =>
        cases stop with
        | arrived m =>
          rw [travel_of_walk_arrived hwalk, travel_of_walk_arrived (hsame.trans hwalk)]
          exact .inl rfl
        | link m target rest =>
          -- both ways go on where the link leads
          rw [travel_succ_of_walk_link hwalk, travel_succ_of_walk_link (hsame.trans hwalk)]
          cases d.jump m target with
          | error f => exact .inl rfl
          | ok next => exact ih next.1 (next.2 ++ rest)
    · exact .inr ⟨m, target, travel_of_walk_arrived harrive, hlink⟩

/-- A path leads to the same entry if a link at its end is not followed, unless it is one. -/
theorem find_false_of_find {path : List Char} {l : Location} {e : Entry}
    (h : d.find true path = .ok (l, e)) :
    d.find false path = .ok (l, e) ∨ ∃ m target, d.find false path = .ok (m, .link target) := by
  obtain ⟨ns, slash, hroute, htravel, he⟩ := find_eq_ok h
  rcases travel_false d linkLimit [] (ns ++ if slash then [here] else []) with
    hsame | ⟨m, target, hstop, hlink⟩
  · exact .inl (find_of_route hroute (hsame.trans htravel) he)
  · exact .inr ⟨m, target, find_of_route hroute hstop hlink⟩

/-- The path that is written to leads to the file itself, unless it does not lead into the
    directory. -/
theorem exists_target {path : List Char} {l : Location} {bytes : ByteArray} {mode : Option Nat}
    (h : d.find true path = .ok (l, .file bytes mode)) :
    ∃ path', d.target path = .ok path' ∧ ((∃ f, d.route path' = .error f) ∨
      ∀ follow, d.find follow path' = .ok (l, .file bytes mode)) := by
  rcases find_false_of_find h with hsame | ⟨m, target, hlink⟩
  · refine ⟨path, ?_, .inr ?_⟩
    · unfold Directory.target
      rw [hsame]
    · intro follow
      cases follow with
      | false => exact hsame
      | true => exact h
  · refine ⟨d.absolute l, ?_, ?_⟩
    · unfold Directory.target
      rw [hlink, h]
    · cases hroute : d.route (d.absolute l) with
      | error f => exact .inl ⟨f, rfl⟩
      | ok names =>
        obtain ⟨-, -, -, -, hfile⟩ := find_eq_ok h
        exact .inr ((rooted_of_find h).find_absolute (ne_nil_of_file hfile) hfile hroute)

/-! ## Section 2: Folders that are there -/

theorem leadsToFolder_iff {ns : List Name} :
    d.leadsToFolder ns = true ↔
      ∃ l, d.travel true linkLimit [] ns = .ok l ∧ (d.get? l).any Entry.isFolder = true := by
  unfold leadsToFolder
  cases d.travel true linkLimit [] ns with
  | error f => simp
  | ok l => simp

/-- A folder that is there cannot be made. -/
theorem makeFolder_of_leadsToFolder {ns : List Name} (hne : ns ≠ [])
    (h : d.leadsToFolder ns = true) : ∃ f, f ≠ .notFound ∧ d.makeFolder ns = .error f := by
  obtain ⟨l, htravel, -⟩ := leadsToFolder_iff.1 h
  obtain ⟨init, n, rfl⟩ := (List.eq_nil_or_concat' ns).resolve_left hne
  obtain ⟨links, k, hgo, hstop, hfolder⟩ := travel_append_ok htravel (by simp)
  unfold makeFolder
  simp only [List.getLast?_concat, List.dropLast_concat,
    travel_append_here_iff.2 ⟨hstop, hfolder⟩]
  by_cases hdots : n = here ∨ n = above
  · exact ⟨.exists, by decide, by rw [if_pos hdots]⟩
  by_cases hlong : nameLimit < byteLength n
  · exact ⟨.nameTooLong, by decide, by rw [if_neg hdots, if_pos hlong]⟩
  cases hentry : d.get? (k ++ [n]) with
  | some e => exact ⟨.exists, by decide, by simp [hdots, hlong]⟩
  | none =>
    -- the names would not lead anywhere
    rw [not_or] at hdots
    have hfault : d.step k n = .fault .notFound := by
      rw [step_of_name hfolder hdots.1 hdots.2 hlong, hentry]
    rw [hgo true [n] (.inl rfl), travel_of_step_fault hfault] at htravel
    exact absurd htravel (by simp)

/-- Folders that are there are not made again. -/
theorem makeFolders_of_leadsToFolder {up : List Name} (h : d.leadsToFolder up.reverse = true) :
    d.makeFolders up = (d, none) := by
  cases up with
  | nil => rfl
  | cons n up =>
    obtain ⟨f, hf, hmake⟩ := makeFolder_of_leadsToFolder (by simp) h
    unfold makeFolders
    simp only [hmake, h, if_true]

/-- The folders that the last name of a path is in lead to where all names before it do. -/
theorem travel_parentNames {ns : List Name} {n : Name} (hn : n ≠ here) {l : Location}
    (h : d.travel true linkLimit [] (ns ++ [here]) = .ok l) :
    d.travel true linkLimit [] (parentNames (ns ++ [n]) ++ [here]) = .ok l := by
  cases ns with
  | nil => exact h
  | cons m ns =>
    have hparent : parentNames (m :: ns ++ [n]) = [m] ++ ns.filter (· != here) := by
      unfold parentNames components
      simp [hn, List.filter_append, List.dropLast_cons_of_ne_nil]
    have hcons : d.travel true linkLimit [] ([m] ++ (ns ++ [here])) = .ok l := by simpa using h
    have hfilter := travel_filter_here (List.cons_ne_nil here []) hcons
    rw [← List.append_assoc, ← hparent] at hfilter
    exact hfilter

/-- The folders that the last name of a path is in are there if the names before it lead to
    a folder. -/
theorem leadsToFolder_parentNames {ns : List Name} {n : Name} (hn : n ≠ here) {l : Location}
    (h : d.travel true linkLimit [] (ns ++ [here]) = .ok l) :
    d.leadsToFolder (parentNames (ns ++ [n])) = true := by
  rw [leadsToFolder_iff]
  exact ⟨l, travel_append_here_iff.1 (travel_parentNames hn h)⟩

/-! ## Section 3: Writing -/

/-- A file is put at the last name of a path, unless a folder is there. -/
theorem landing_eq {path : List Char} {ns : List Name} {n : Name} {k : Location}
    (hroute : d.route path = .ok (ns ++ [n], false)) (hself : n ≠ here) (hup : n ≠ above)
    (hshort : ¬ nameLimit < byteLength n)
    (hparent : d.travel true linkLimit [] (ns ++ [here]) = .ok k) :
    d.landing path =
      match d.get? (k ++ [n]) with
      | some .folder => .error .isDirectory
      | _ => .ok (k ++ [n]) := by
  unfold landing
  cases hentry : d.get? (k ++ [n]) with
  | none => simp [hroute, hparent, hself, hup, hshort, hentry]
  | some e => cases e <;> simp [hroute, hparent, hself, hup, hshort, hentry]

/-- A path that leads to a file can be used to replace it. -/
theorem landing_of_find {path : List Char} {l : Location} {bytes : ByteArray}
    {mode : Option Nat} (h : d.find false path = .ok (l, .file bytes mode)) :
    d.landing path = .ok l := by
  obtain ⟨ns, n, k, hroute, hself, hparent, hshort, rfl, hfolder⟩ := exists_last_of_find h
  obtain ⟨-, -, -, -, hfile⟩ := find_eq_ok h
  rw [landing_eq hroute hself hparent hshort hfolder, hfile]

/-- All that comes before the file is written, where no folder has to be made. -/
theorem prepare_eq {p : FilePath} {path : List Char} (htarget : d.target p.chars = .ok path)
    {mode : Option Nat} (hmode : d.modeAt path = .ok mode) {ns : List Name} {slash : Bool}
    (hroute : d.route path = .ok (ns, slash))
    (hmake : d.makeFolders (parentNames ns).reverse = (d, none)) :
    d.prepare p = (d, .ok (path, mode)) := by
  unfold prepare foldersTo
  simp only [htarget, hmode, hroute, hmake]

/-- The file itself is written after all else. -/
theorem writeBytes_of_prepare {p : FilePath} {path : List Char} {mode : Option Nat}
    (h : d.prepare p = (d', .ok (path, mode))) (bytes : ByteArray) :
    d.writeBytes p bytes =
      match d'.landing path with
      | .error f => (d', .error ⟨path, f⟩)
      | .ok l    => (d'.set l (.file bytes mode), .ok ()) := by
  unfold writeBytes replace
  simp only [h]
  cases d'.landing path <;> rfl

theorem writeBytes_of_landing_error {p : FilePath} {path : List Char} {mode : Option Nat}
    (h : d.prepare p = (d', .ok (path, mode))) {f : FileFault}
    (hlanding : d'.landing path = .error f) (bytes : ByteArray) :
    ∃ w, d.writeBytes p bytes = (d', .error w) := by
  rw [writeBytes_of_prepare h, hlanding]
  exact ⟨_, rfl⟩

theorem writeBytes_of_prepare_error {p : FilePath} {w : WriteFault}
    (h : d.prepare p = (d', .error w)) (bytes : ByteArray) :
    d.writeBytes p bytes = (d', .error w) := by
  unfold writeBytes
  rw [h]

/-- Nothing is written to a path that does not lead into the directory. -/
theorem writeBytes_of_route_error {p : FilePath} {path : List Char}
    (htarget : d.target p.chars = .ok path) {f : FileFault} (hroute : d.route path = .error f)
    (bytes : ByteArray) : ∃ w, d.writeBytes p bytes = (d, .error w) := by
  have hlanding : d.landing path = .error f := by
    unfold landing
    rw [hroute]
  have hprepare : d.prepare p =
      (d, (d.modeAt path).mapError (⟨path, ·⟩) |>.map (path, ·)) := by
    unfold prepare foldersTo
    simp only [htarget, hroute]
    cases d.modeAt path <;> rfl
  cases hmode : d.modeAt path with
  | error f' =>
    rw [hmode] at hprepare
    exact ⟨_, writeBytes_of_prepare_error hprepare bytes⟩
  | ok mode =>
    rw [hmode] at hprepare
    exact writeBytes_of_landing_error hprepare hlanding bytes

/-- No folder is made for the last name of a path if the names before it lead to one. -/
theorem makeFolders_parentNames {ns : List Name} {n : Name} (hn : n ≠ here) {l : Location}
    (h : d.travel true linkLimit [] (ns ++ [here]) = .ok l) :
    d.makeFolders (parentNames (ns ++ [n])).reverse = (d, none) := by
  apply makeFolders_of_leadsToFolder
  rw [List.reverse_reverse]
  exact leadsToFolder_parentNames hn h

/-- What comes before a file is written to a path that leads to one: no folder is made, unless
    the path that is written to does not lead into the directory. -/
theorem prepare_of_find {p : FilePath} {l : Location} {bytes : ByteArray}
    {mode : Option Nat} (h : d.find true p.chars = .ok (l, .file bytes mode)) :
    ∃ path, d.target p.chars = .ok path ∧
      ((∃ f, d.route path = .error f) ∨ (∃ r, d.route path = .ok r) ∧
        d.find false path = .ok (l, .file bytes mode) ∧ d.prepare p = (d, .ok (path, mode))) := by
  obtain ⟨path, htarget, hroute | hfind⟩ := exists_target h
  · exact ⟨path, htarget, .inl hroute⟩
  · obtain ⟨ns, n, k, hroute, hself, -, -, -, hfolder⟩ := exists_last_of_find (hfind false)
    have hmode : d.modeAt path = .ok mode := by
      unfold modeAt
      rw [hfind true]
    exact ⟨path, htarget, .inr ⟨⟨_, hroute⟩, hfind false,
      prepare_eq htarget hmode hroute (makeFolders_parentNames hself hfolder)⟩⟩

/-- All that writing to a path does that leads to a file: it replaces the file, unless the
    path that is written to does not lead into the directory. -/
theorem writeBytes_of_find {p : FilePath} {l : Location} {bytes : ByteArray}
    {mode : Option Nat} (h : d.find true p.chars = .ok (l, .file bytes mode)) :
    ∃ path, d.target p.chars = .ok path ∧
      ((∃ f, d.route path = .error f) ∧
          (∀ bytes', ∃ w, d.writeBytes p bytes' = (d, .error w)) ∨
        (∃ r, d.route path = .ok r) ∧
          ∀ bytes', d.writeBytes p bytes' = (d.set l (.file bytes' mode), .ok ())) := by
  obtain ⟨path, htarget, ⟨f, hroute⟩ | ⟨hroute, hfind, hprepare⟩⟩ := prepare_of_find h
  · exact ⟨path, htarget, .inl ⟨⟨f, hroute⟩, writeBytes_of_route_error htarget hroute⟩⟩
  · refine ⟨path, htarget, .inr ⟨hroute, ?_⟩⟩
    intro bytes'
    rw [writeBytes_of_prepare hprepare, landing_of_find hfind]

/-- A file that a path leads to is replaced, or nothing is written. -/
theorem writeBytes_cases_of_find {p : FilePath} {l : Location} {bytes : ByteArray}
    {mode : Option Nat} (h : d.find true p.chars = .ok (l, .file bytes mode))
    (bytes' : ByteArray) :
    (∃ w, d.writeBytes p bytes' = (d, .error w)) ∨
      d.writeBytes p bytes' = (d.set l (.file bytes' mode), .ok ()) := by
  obtain ⟨path, -, ⟨-, hfail⟩ | ⟨-, hset⟩⟩ := writeBytes_of_find h
  · exact .inl (hfail bytes')
  · exact .inr (hset bytes')

/-- A folder cannot be replaced. -/
theorem writeBytes_of_find_folder {p : FilePath} {path : List Char}
    (htarget : d.target p.chars = .ok path) {l k : Location} {ns : List Name} {n : Name}
    (hroute : d.route path = .ok (ns ++ [n], false)) (hself : n ≠ here) (hup : n ≠ above)
    (hparent : d.travel true linkLimit [] (ns ++ [here]) = .ok k)
    (hentry : d.get? (k ++ [n]) = some .folder) (hfind : d.find true path = .ok (l, .folder))
    (bytes : ByteArray) : ∃ w, d.writeBytes p bytes = (d, .error w) := by
  have hmode : d.modeAt path = .ok none := by
    unfold modeAt
    rw [hfind]
  have hprepare := prepare_eq htarget hmode hroute (makeFolders_parentNames hself hparent)
  by_cases hlong : nameLimit < byteLength n
  · have hlanding : d.landing path = .error .nameTooLong := by
      unfold landing
      simp [hroute, hself, hup, hparent, hlong]
    exact writeBytes_of_landing_error hprepare hlanding bytes
  · have hlanding := landing_eq hroute hself hup hlong hparent
    rw [hentry] at hlanding
    exact writeBytes_of_landing_error hprepare hlanding bytes

/-- The directory itself cannot be replaced. -/
theorem writeBytes_of_target_home {p : FilePath} (htarget : d.target p.chars = .ok d.home)
    (bytes : ByteArray) : ∃ w, d.writeBytes p bytes = (d, .error w) := by
  cases hroute : d.route d.home with
  | error f => exact writeBytes_of_route_error htarget hroute bytes
  | ok r =>
    obtain rfl : r = ([], false) := by
      unfold route inside? at hroute
      rw [List.isPrefixOf?_eq_some_iff_append_eq.2 (List.append_nil d.home)] at hroute
      split at hroute
      · exact absurd hroute (by simp)
      split at hroute
      · exact absurd hroute (by simp)
      · exact (Except.ok.inj hroute).symm
    have hfind : d.find true d.home = .ok ([], .folder) :=
      find_of_route hroute (travel_nil _ _ _) rfl
    have hlanding : d.landing d.home = .error .isDirectory := by
      unfold landing
      rw [hroute]
      rfl
    have hmode : d.modeAt d.home = .ok none := by
      unfold modeAt
      rw [hfind]
    exact writeBytes_of_landing_error (prepare_eq htarget hmode hroute rfl) hlanding bytes

/-- In a directory of the same shape a path leads to an entry that is alike. -/
theorem SameShape.find_cases (h : SameShape d d') (follow : Bool) (path : List Char) :
    (∃ f, d.find follow path = .error f ∧ d'.find follow path = .error f) ∨
      ∃ l e e', d.find follow path = .ok (l, e) ∧ d'.find follow path = .ok (l, e') ∧
        Alike e e' := by
  unfold find
  rw [h.resolve_eq]
  cases d.resolve follow path with
  | error f => exact .inl ⟨f, rfl, rfl⟩
  | ok l =>
    have hrel := h.entries l
    cases hbefore : d.get? l with
    | none =>
      cases hafter : d'.get? l with
      | none => exact .inl ⟨.notFound, by simp [hbefore], by simp [hafter]⟩
      | some e' =>
        rw [hbefore, hafter] at hrel
        cases hrel
    | some e =>
      cases hafter : d'.get? l with
      | none =>
        rw [hbefore, hafter] at hrel
        cases hrel
      | some e' =>
        rw [hbefore, hafter] at hrel
        cases hrel with
        | some halike => exact .inr ⟨l, e, e', by simp [hbefore], by simp [hafter], halike⟩

/-- In a directory of the same shape the same path is written to. -/
theorem SameShape.target_eq (h : SameShape d d') (path : List Char) :
    d'.target path = d.target path := by
  unfold Directory.target
  rcases h.find_cases false path with ⟨f, hf, hf'⟩ | ⟨l, e, e', he, he', halike⟩
  · rw [hf, hf']
  · rw [he, he']
    cases halike with
    | file => rfl
    | folder => rfl
    | link target =>
      -- the link leads to the same place
      rcases h.find_cases true path with ⟨f, hf, hf'⟩ | ⟨m, k, k', hk, hk', -⟩
      · rw [hf, hf']
      · rw [hk, hk']
        unfold absolute
        rw [h.home]

theorem exists_find_of_readBytes {p : FilePath} {bytes : ByteArray}
    (h : d.readBytes p = .ok bytes) :
    ∃ l mode, d.find true p.chars = .ok (l, .file bytes mode) := by
  unfold readBytes at h
  split at h
  · exact absurd h (by simp)
  · next l bytes₀ mode hfind =>
    obtain rfl := Except.ok.inj h
    exact ⟨l, mode, hfind⟩
  · exact absurd h (by simp)

/-- A file that can be replaced once can be replaced by anything. -/
theorem writeBytes_of_writeBytes {p : FilePath} {bytes bytes' : ByteArray}
    (hread : d.readBytes p = .ok bytes) (hwrite : (d.writeBytes p bytes').2 = .ok ())
    (bytes'' : ByteArray) : (d.writeBytes p bytes'').2 = .ok () := by
  obtain ⟨l, mode, hfind⟩ := exists_find_of_readBytes hread
  obtain ⟨path, -, ⟨-, hfail⟩ | ⟨-, hset⟩⟩ := writeBytes_of_find hfind
  · obtain ⟨w, hw⟩ := hfail bytes'
    rw [hw] at hwrite
    exact absurd hwrite (by simp)
  · rw [hset bytes'']

/-- A path leads to a file still when that was replaced. -/
theorem find_set {path : List Char} {l : Location} {bytes : ByteArray} {mode : Option Nat}
    (h : d.find true path = .ok (l, .file bytes mode)) (bytes' : ByteArray)
    (mode' : Option Nat) :
    (d.set l (.file bytes' mode')).find true path = .ok (l, .file bytes' mode') := by
  obtain ⟨ns, slash, hroute, htravel, hfile⟩ := find_eq_ok h
  have hshape := sameShape_set hfile bytes' mode'
  refine find_of_route ((hshape.route_eq _).trans hroute) ?_ ?_
  · rw [hshape.travel_eq]
    exact htravel
  · rw [get?_set d l l _ (ne_nil_of_file hfile), if_pos rfl]

/-- What was written to a file is read from it, and it can be replaced again. All else in
    the directory is as it was. -/
theorem readBytes_writeBytes {p : FilePath} {bytes bytes' : ByteArray}
    (hread : d.readBytes p = .ok bytes) (hwrite : d.writeBytes p bytes' = (d', .ok ())) :
    ∃ l mode, d.get? l = some (.file bytes mode) ∧ d' = d.set l (.file bytes' mode) ∧
      d'.readBytes p = .ok bytes' ∧
      ∀ bytes'', d'.writeBytes p bytes'' = (d'.set l (.file bytes'' mode), .ok ()) := by
  obtain ⟨l, mode, hfind⟩ := exists_find_of_readBytes hread
  obtain ⟨-, -, -, -, hfile⟩ := find_eq_ok hfind
  obtain ⟨path, htarget, ⟨-, hfail⟩ | ⟨⟨r, hpath⟩, hset⟩⟩ := writeBytes_of_find hfind
  · obtain ⟨w, hw⟩ := hfail bytes'
    rw [hw] at hwrite
    exact absurd (Prod.mk.inj hwrite).2 (by simp)
  · rw [hset bytes'] at hwrite
    obtain rfl := (Prod.mk.inj hwrite).1
    have hshape := sameShape_set hfile bytes' mode
    have hfind' := find_set hfind bytes' mode
    refine ⟨l, mode, hfile, rfl, ?_, ?_⟩
    · unfold readBytes
      rw [hfind']
    · obtain ⟨path', htarget', ⟨⟨f, hbad⟩, -⟩ | ⟨-, hset'⟩⟩ := writeBytes_of_find hfind'
      · -- the same path is written to, and it leads into the directory
        rw [hshape.target_eq, htarget] at htarget'
        obtain rfl := Except.ok.inj htarget'
        rw [hshape.route_eq, hpath] at hbad
        exact absurd hbad (by simp)
      · exact hset'

/-! ## Section 4: A file that may be missing -/

/-- All links are followed. -/
theorem ne_link_of_find {path : List Char} {l : Location} {e : Entry}
    (h : d.find true path = .ok (l, e)) (target : List Char) : e ≠ .link target := by
  obtain ⟨-, -, -, -, he⟩ := find_eq_ok h
  cases rooted_of_find h with
  | root =>
    rintro rfl
    exact absurd he (by simp [get?])
  | child up folder plain self parent short there =>
    obtain ⟨e', he', hlink⟩ := there
    obtain rfl := Option.some.inj (he.symm.trans he')
    exact hlink target

/-- A folder behind a link cannot be replaced. -/
theorem writeBytes_of_link_to_folder {p : FilePath} {l m : Location} {target : List Char}
    (hlink : d.find false p.chars = .ok (m, .link target))
    (hfind : d.find true p.chars = .ok (l, .folder)) (bytes : ByteArray) :
    ∃ w, d.writeBytes p bytes = (d, .error w) := by
  have htarget : d.target p.chars = .ok (d.absolute l) := by
    unfold Directory.target
    rw [hlink, hfind]
  cases hroute : d.route (d.absolute l) with
  | error f => exact writeBytes_of_route_error htarget hroute bytes
  | ok r =>
    obtain ⟨-, -, -, -, hfolder⟩ := find_eq_ok hfind
    have hrooted := rooted_of_find hfind
    cases rooted_of_find hfind with
    | root =>
      -- the link leads to the directory itself
      have hhome : d.absolute [] = d.home := List.append_nil d.home
      exact writeBytes_of_target_home (hhome ▸ htarget) bytes
    | @child k n up folder plain self parent short there =>
      have hne : k ++ [n] ≠ [] := by simp
      obtain rfl := hrooted.route_absolute hne hroute
      have hparent : d.travel true linkLimit [] (k ++ [here]) = .ok k := by
        refine travel_append_here_iff.2 ⟨travel_of_walk_arrived ?_, folder⟩
        have hwalk := up.walk_append_eq true []
        rwa [List.append_nil] at hwalk
      exact writeBytes_of_find_folder htarget hroute self parent hparent hfolder
        (hrooted.find_absolute hne hfolder hroute true) bytes

/-- The path is a name in the directory itself. -/
structure IsSingle (d : Directory) (p : FilePath) (n : Name) : Prop where
  route : d.route p.chars = .ok ([n], false)
  self  : n ≠ here
  up    : n ≠ above
  short : ¬ nameLimit < byteLength n

namespace IsSingle

variable {p : FilePath} {n : Name}

theorem step_eq (h : d.IsSingle p n) :
    d.step [] n =
      match d.get? [n] with
      | none => .fault .notFound
      | some (.link target) => .link target
      | some _ => .on [n] :=
  step_of_name rfl h.self h.up h.short

end IsSingle

end Marginalia.Directory
