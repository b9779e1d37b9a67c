import Mathlib.Data.List.Basic
import Marginalia.Directory.Write

/-! # Where paths lead

    A path is walked name by name, and each link on the way puts other names in front of
    those that are still to go. What is needed of this for writing files:

    * **`walk_cons`**: a walk takes one step for each name; `step_eq_on_iff` and
      `step_eq_link_iff` say where such a step leads.
    * **`walk_append`, `travel_append`**: what the first names of a path lead to does not
      depend on the names that follow them.
    * **`Rooted`**: a location that a path leads to through all links. Its own names lead
      to it again (`Rooted.find_eq`).
    * **`exists_last_of_find`**: the last name of a path to a file is the name of the file.
    * **`SameShape`**: directories that differ in the contents of files only. All paths
      lead to the same locations in both. -/

namespace Marginalia.Directory

variable {d d' : Directory}

/-! ## Section 1: Names -/

/-- The name can stand between two slashes of a path. -/
def PlainName (n : Name) : Prop :=
  n ≠ [] ∧ '/' ∉ n

theorem not_mem_of_mem_splitOnP {α : Type*} {p : α → Bool} {a : α} (ha : p a = true)
    {l x : List α} (hx : x ∈ l.splitOnP p) : a ∉ x := by
  induction l generalizing x with
  | nil =>
    rw [List.splitOnP_nil, List.mem_singleton] at hx
    simp [hx]
  | cons b l ih =>
    rw [List.splitOnP_cons_eq_if_modifyHead] at hx
    split at hx
    · rcases List.mem_cons.1 hx with rfl | hx
      · simp
      · exact ih hx
    · next hb =>
      obtain ⟨y, ys, hl⟩ := List.exists_cons_of_ne_nil (List.splitOnP_ne_nil p l)
      rw [hl, List.modifyHead_cons] at hx
      rcases List.mem_cons.1 hx with rfl | hx
      · -- the first name is longer by a character that is no separator
        have hy : a ∉ y := ih (by simp [hl])
        rw [List.mem_cons, not_or]
        refine ⟨?_, hy⟩
        rintro rfl
        exact hb ha
      · exact ih (by simp [hl, hx])

theorem plainName_of_mem_names {path : List Char} {n : Name} (h : n ∈ names path) :
    PlainName n := by
  obtain ⟨hmem, hne⟩ := List.mem_filter.1 h
  exact ⟨by simpa using hne, not_mem_of_mem_splitOnP (by simp) hmem⟩

theorem plainName_here : PlainName here := by
  unfold PlainName here
  decide

theorem splitOnP_append_flatMap {n : Name} {l : Location} (hn : '/' ∉ n)
    (hl : ∀ m ∈ l, PlainName m) :
    (n ++ l.flatMap fun m => '/' :: m).splitOnP (· == '/') = n :: l := by
  have hslash : ∀ m : Name, '/' ∉ m → ∀ c ∈ m, (c == '/') = false := by
    intro m hm c hc
    rw [beq_eq_false_iff_ne]
    rintro rfl
    exact hm hc
  induction l generalizing n with
  | nil => simpa using List.splitOnP_eq_singleton (hslash n hn)
  | cons m l ih =>
    have hm := hl m List.mem_cons_self
    rw [List.flatMap_cons, List.cons_append,
      List.splitOnP_append_cons_of_forall_mem (hslash n hn) _ (by simp),
      ih hm.2 fun k hk => hl k (List.mem_cons_of_mem _ hk)]

/-- The path of a location has the names of the location. -/
theorem names_flatMap {l : Location} (hl : ∀ n ∈ l, PlainName n) :
    names (l.flatMap fun n => '/' :: n) = l := by
  have hsplit := splitOnP_append_flatMap (n := []) (by simp) hl
  rw [List.nil_append] at hsplit
  unfold names
  rw [hsplit, List.filter_cons_of_neg (by simp)]
  apply List.filter_eq_self.2
  intro n hn
  simpa using (hl n hn).1

theorem endsInSlash_flatMap {l : Location} (hl : ∀ n ∈ l, PlainName n) :
    endsInSlash (l.flatMap fun n => '/' :: n) = false := by
  rcases List.eq_nil_or_concat' l with rfl | ⟨l, n, rfl⟩
  · rfl
  · obtain ⟨hne, hslash⟩ := hl n (by simp)
    unfold endsInSlash
    rw [List.flatMap_append, List.flatMap_singleton, List.getLast?_append_of_ne_nil _ (by simp),
      List.getLast?_cons_of_ne_nil hne]
    rw [beq_eq_false_iff_ne]
    intro hlast
    exact hslash (List.mem_of_getLast? hlast)

/-! ## Section 2: One name of a walk -/

/-- What one name does on a walk. -/
inductive Step where
  | on (l : Location)
  | link (target : List Char)
  | fault (f : FileFault)

/-- The step from a location by one name. -/
def step (d : Directory) (l : Location) (n : Name) : Step :=
  if !(d.get? l).any Entry.isFolder then .fault .notDirectory
  else if n = here then .on l
  else if n = above then
    if l = [] then .fault .notFound else .on l.dropLast
  else if nameLimit < byteLength n then .fault .nameTooLong
  else
    match d.get? (l ++ [n]) with
    | none => .fault .notFound
    | some (.link target) => .link target
    | some _ => .on (l ++ [n])

/-- A walk takes the steps of its names one after another, up to the first link or fault. -/
theorem walk_cons (d : Directory) (follow : Bool) (l : Location) (n : Name) (ns : List Name) :
    d.walk follow l (n :: ns) =
      match d.step l n with
      | .on m => d.walk follow m ns
      | .link target =>
        if ns = [] ∧ follow = false then .ok (.arrived (l ++ [n])) else .ok (.link l target ns)
      | .fault f => .error f := by
  conv_lhs => rw [walk]
  unfold step
  by_cases hfolder : (!(d.get? l).any Entry.isFolder) = true
  · rw [if_pos hfolder, if_pos hfolder]
  rw [if_neg hfolder, if_neg hfolder]
  by_cases hself : n = here
  · rw [if_pos hself, if_pos hself]
  rw [if_neg hself, if_neg hself]
  by_cases hup : n = above
  · rw [if_pos hup, if_pos hup]
    split <;> rfl
  rw [if_neg hup, if_neg hup]
  by_cases hlong : nameLimit < byteLength n
  · rw [if_pos hlong, if_pos hlong]
  rw [if_neg hlong, if_neg hlong]
  cases d.get? (l ++ [n]) with
  | none => rfl
  | some e => cases e <;> rfl

theorem step_of_not_isFolder {l : Location} (h : ¬ (d.get? l).any Entry.isFolder = true)
    (n : Name) : d.step l n = .fault .notDirectory := by
  unfold step
  rw [if_pos (by simpa using h)]

theorem step_here {l : Location} (h : (d.get? l).any Entry.isFolder = true) :
    d.step l here = .on l := by
  simp [step, h]

/-- A name that is not a word for a folder is looked up. -/
theorem step_of_name {l : Location} {n : Name} (h : (d.get? l).any Entry.isFolder = true)
    (hself : n ≠ here) (hup : n ≠ above) (hshort : ¬ nameLimit < byteLength n) :
    d.step l n =
      match d.get? (l ++ [n]) with
      | none => .fault .notFound
      | some (.link target) => .link target
      | some _ => .on (l ++ [n]) := by
  simp only [step, h, Bool.not_true, Bool.false_eq_true, if_false, if_neg hself, if_neg hup,
    if_neg hshort]

theorem step_of_entry {l : Location} {n : Name} (h : (d.get? l).any Entry.isFolder = true)
    (hself : n ≠ here) (hup : n ≠ above) (hshort : ¬ nameLimit < byteLength n) {e : Entry}
    (he : d.get? (l ++ [n]) = some e) (hlink : ∀ target, e ≠ .link target) :
    d.step l n = .on (l ++ [n]) := by
  rw [step_of_name h hself hup hshort, he]
  cases e with
  | file bytes mode => rfl
  | folder => rfl
  | link target => exact absurd rfl (hlink target)

/-- All the ways in which a walk goes on: it stays, goes up, or goes down to something that is
    no link. -/
theorem step_eq_on_iff {l m : Location} {n : Name} :
    d.step l n = .on m ↔
      (d.get? l).any Entry.isFolder = true ∧
        (n = here ∧ m = l ∨ n = above ∧ l ≠ [] ∧ m = l.dropLast ∨
          n ≠ here ∧ n ≠ above ∧ ¬ nameLimit < byteLength n ∧ m = l ++ [n] ∧
            ∃ e, d.get? m = some e ∧ ∀ target, e ≠ .link target) := by
  by_cases hfolder : (d.get? l).any Entry.isFolder = true
  swap
  · simp [step_of_not_isFolder hfolder, hfolder]
  constructor
  swap
  · intro h
    obtain ⟨-, ⟨rfl, rfl⟩ | ⟨rfl, hroot, rfl⟩ | ⟨hself, hup, hshort, rfl, e, he, hlink⟩⟩ := h
    · exact step_here hfolder
    · simp [step, hfolder, here, above, hroot]
    · exact step_of_entry hfolder hself hup hshort he hlink
  intro h
  refine ⟨hfolder, ?_⟩
  by_cases hself : n = here
  · rw [hself, step_here hfolder] at h
    exact .inl ⟨hself, (Step.on.inj h).symm⟩
  by_cases hup : n = above
  · simp only [step, hfolder, Bool.not_true, Bool.false_eq_true, if_false, if_neg hself,
      if_pos hup] at h
    split at h
    · exact absurd h (by simp)
    · next hroot => exact .inr (.inl ⟨hup, hroot, (Step.on.inj h).symm⟩)
  by_cases hlong : nameLimit < byteLength n
  · simp [step, hfolder, hself, hup, hlong] at h
  rw [step_of_name hfolder hself hup hlong] at h
  split at h
  · exact absurd h (by simp)
  · exact absurd h (by simp)
  · next e hlink he =>
    obtain rfl := Step.on.inj h
    exact .inr (.inr ⟨hself, hup, hlong, rfl, e, he, hlink⟩)

/-- A walk meets a link where the name of one is looked up. -/
theorem step_eq_link_iff {l : Location} {n : Name} {target : List Char} :
    d.step l n = .link target ↔
      (d.get? l).any Entry.isFolder = true ∧ n ≠ here ∧ n ≠ above ∧
        ¬ nameLimit < byteLength n ∧ d.get? (l ++ [n]) = some (.link target) := by
  by_cases hfolder : (d.get? l).any Entry.isFolder = true
  swap
  · simp [step_of_not_isFolder hfolder, hfolder]
  constructor
  swap
  · intro h
    obtain ⟨-, hself, hup, hshort, hentry⟩ := h
    rw [step_of_name hfolder hself hup hshort, hentry]
  intro h
  by_cases hself : n = here
  · rw [hself, step_here hfolder] at h
    exact absurd h (by simp)
  by_cases hup : n = above
  · simp only [step, hfolder, Bool.not_true, Bool.false_eq_true, if_false, if_neg hself,
      if_pos hup] at h
    split at h <;> exact absurd h (by simp)
  by_cases hlong : nameLimit < byteLength n
  · simp [step, hfolder, hself, hup, hlong] at h
  rw [step_of_name hfolder hself hup hlong] at h
  split at h
  · exact absurd h (by simp)
  · next hentry =>
    obtain rfl := Step.link.inj h
    exact ⟨hfolder, hself, hup, hlong, hentry⟩
  · exact absurd h (by simp)

/-! ## Section 3: Names that are appended -/

/-- The last name of the first part of a path is followed if it is a link. -/
def Passes (follow : Bool) (rest : List Name) : Prop :=
  follow = true ∨ rest ≠ []

/-- A walk along some names goes on, meets a link or fails, whatever follows them. -/
theorem walk_append (d : Directory) (l : Location) (ns : List Name) :
    (∃ m, ∀ follow rest, Passes follow rest →
      d.walk follow l (ns ++ rest) = d.walk follow m rest) ∨
    (∃ m target between, ∀ follow rest, Passes follow rest →
      d.walk follow l (ns ++ rest) = .ok (.link m target (between ++ rest))) ∨
    ∃ f, ∀ follow rest, Passes follow rest → d.walk follow l (ns ++ rest) = .error f := by
  induction ns generalizing l with
  | nil => exact .inl ⟨l, fun _ _ _ => rfl⟩
  | cons n ns ih =>
    simp only [List.cons_append, walk_cons]
    cases d.step l n with
    | on m => exact ih m
    | fault f => exact .inr (.inr ⟨f, fun _ _ _ => rfl⟩)
    | link target =>
      refine .inr (.inl ⟨l, target, ns, ?_⟩)
      intro follow rest hpass
      -- the link is not the last name, or it is followed as the last name
      have hgo : ¬ (ns ++ rest = [] ∧ follow = false) := by
        intro hlast
        obtain ⟨hempty, hstay⟩ := hlast
        rcases hpass with hfollow | hrest
        · rw [hfollow] at hstay
          exact absurd hstay (by decide)
        · exact hrest (List.append_eq_nil_iff.1 hempty).2
      simp only [if_neg hgo]

theorem travel_congr {follow : Bool} {links : Nat} {l m : Location} {ns ms : List Name}
    (h : d.walk follow l ns = d.walk follow m ms) :
    d.travel follow links l ns = d.travel follow links m ms := by
  unfold travel
  rw [h]

theorem travel_of_walk_error {follow : Bool} {links : Nat} {l : Location} {ns : List Name}
    {f : FileFault} (h : d.walk follow l ns = .error f) :
    d.travel follow links l ns = .error f := by
  unfold travel
  rw [h]

/-- Where a link leads on to: a location and names to walk from there. -/
def jump (d : Directory) (m : Location) (target : List Char) :
    Except FileFault (Location × List Name) :=
  match d.inside? target, target with
  | some t, _ => .ok ([], names t)
  | none, '/' :: _ => .error .notFound
  | none, t => .ok (m, names t ++ if endsInSlash t then [here] else [])

theorem travel_of_walk_arrived {follow : Bool} {links : Nat} {l m : Location} {ns : List Name}
    (h : d.walk follow l ns = .ok (.arrived m)) : d.travel follow links l ns = .ok m := by
  unfold travel
  rw [h]

theorem travel_zero_of_walk_link {follow : Bool} {l m : Location} {ns rest : List Name}
    {target : List Char} (h : d.walk follow l ns = .ok (.link m target rest)) :
    d.travel follow 0 l ns = .error .tooManyLinks := by
  unfold travel
  rw [h]

theorem travel_succ_of_walk_link {follow : Bool} {l m : Location} {ns rest : List Name}
    {target : List Char} (h : d.walk follow l ns = .ok (.link m target rest)) (links : Nat) :
    d.travel follow (links + 1) l ns =
      match d.jump m target with
      | .error f     => .error f
      | .ok (k, ts) => d.travel follow links k (ts ++ rest) := by
  conv_lhs => unfold travel
  rw [h]
  unfold jump
  simp only
  cases hinside : d.inside? target with
  | some t => rfl
  | none =>
    cases target with
    | nil => simp
    | cons c cs =>
      by_cases hc : c = '/'
      · subst hc
        rfl
      · simp [hc]

theorem travel_of_step_on {l m : Location} {n : Name} (h : d.step l n = .on m) (follow : Bool)
    (links : Nat) (ns : List Name) :
    d.travel follow links l (n :: ns) = d.travel follow links m ns := by
  apply travel_congr
  rw [walk_cons, h]

theorem travel_of_step_fault {l : Location} {n : Name} {f : FileFault}
    (h : d.step l n = .fault f) (follow : Bool) (links : Nat) (ns : List Name) :
    d.travel follow links l (n :: ns) = .error f := by
  apply travel_of_walk_error
  rw [walk_cons, h]

/-- A link that is the last name is not followed without need. -/
theorem travel_false_of_step_link {l : Location} {n : Name} {target : List Char}
    (h : d.step l n = .link target) (links : Nat) :
    d.travel false links l [n] = .ok (l ++ [n]) := by
  apply travel_of_walk_arrived
  rw [walk_cons, h]
  rfl

/-- A way that leads somewhere is walked to its end, or up to a link that leads on. -/
theorem travel_cases {follow : Bool} {links : Nat} {l m : Location} {ns : List Name}
    (h : d.travel follow links l ns = .ok m) :
    d.walk follow l ns = .ok (.arrived m) ∨
      ∃ links' k target rest next, links = links' + 1 ∧
        d.walk follow l ns = .ok (.link k target rest) ∧ d.jump k target = .ok next ∧
        d.travel follow links' next.1 (next.2 ++ rest) = .ok m := by
  cases hwalk : d.walk follow l ns with
  | error f =>
    rw [travel_of_walk_error hwalk] at h
    exact absurd h (by simp)
  | ok stop =>
    cases stop with
    | arrived k =>
      rw [travel_of_walk_arrived hwalk] at h
      exact .inl (congrArg (Except.ok ∘ Stop.arrived) (Except.ok.inj h))
    | link k target rest =>
      cases links with
      | zero =>
        rw [travel_zero_of_walk_link hwalk] at h
        exact absurd h (by simp)
      | succ links =>
        rw [travel_succ_of_walk_link hwalk] at h
        cases hjump : d.jump k target with
        | error f =>
          rw [hjump] at h
          exact absurd h (by simp)
        | ok next =>
          rw [hjump] at h
          exact .inr ⟨links, k, target, rest, next, rfl, rfl, hjump, h⟩

/-- A way along some names leads somewhere or fails, whatever follows them. -/
theorem travel_append (d : Directory) (links : Nat) (l : Location) (ns : List Name) :
    (∃ links' m, ∀ follow rest, Passes follow rest →
      d.travel follow links l (ns ++ rest) = d.travel follow links' m rest) ∨
    ∃ f, ∀ follow rest, Passes follow rest →
      d.travel follow links l (ns ++ rest) = .error f := by
  induction links generalizing l ns with
  | zero =>
    rcases walk_append d l ns with ⟨m, hwalk⟩ | ⟨m, target, between, hwalk⟩ | ⟨f, hwalk⟩
    · exact .inl ⟨0, m, fun _ _ hpass => travel_congr (hwalk _ _ hpass)⟩
    · exact .inr ⟨.tooManyLinks, fun _ _ hpass => travel_zero_of_walk_link (hwalk _ _ hpass)⟩
    · exact .inr ⟨f, fun _ _ hpass => travel_of_walk_error (hwalk _ _ hpass)⟩
  | succ links ih =>
    rcases walk_append d l ns with ⟨m, hwalk⟩ | ⟨m, target, between, hwalk⟩ | ⟨f, hwalk⟩
    · exact .inl ⟨links + 1, m, fun _ _ hpass => travel_congr (hwalk _ _ hpass)⟩
    · -- the names of the link are followed by the names between, and then by the rest
      have hlink := fun follow rest hpass =>
        travel_succ_of_walk_link (hwalk follow rest hpass) links
      cases hjump : d.jump m target with
      | error f =>
        rw [hjump] at hlink
        exact .inr ⟨f, hlink⟩
      | ok next =>
        obtain ⟨l', ts⟩ := next
        simp only [hjump, ← List.append_assoc] at hlink
        rcases ih l' (ts ++ between) with ⟨links', m', hgo⟩ | ⟨f, hgo⟩
        · exact .inl ⟨links', m', fun _ _ hpass => (hlink _ _ hpass).trans (hgo _ _ hpass)⟩
        · exact .inr ⟨f, fun _ _ hpass => (hlink _ _ hpass).trans (hgo _ _ hpass)⟩
    · exact .inr ⟨f, fun _ _ hpass => travel_of_walk_error (hwalk _ _ hpass)⟩

theorem travel_nil (follow : Bool) (links : Nat) (l : Location) :
    d.travel follow links l [] = .ok l :=
  travel_of_walk_arrived rfl

/-- Names that lead somewhere lead there whatever follows them. -/
theorem exists_travel_append_eq {links : Nat} {l m : Location} {ns : List Name}
    (h : d.travel true links l ns = .ok m) :
    ∃ links', ∀ follow rest, Passes follow rest →
      d.travel follow links l (ns ++ rest) = d.travel follow links' m rest := by
  rcases travel_append d links l ns with ⟨links', k, hgo⟩ | ⟨f, hfail⟩
  · have hstop := hgo true [] (.inl rfl)
    rw [List.append_nil, h, travel_nil] at hstop
    obtain rfl := Except.ok.inj hstop
    exact ⟨links', hgo⟩
  · have hstop := hfail true [] (.inl rfl)
    rw [List.append_nil, h] at hstop
    exact absurd hstop (by simp)

/-- Names that lead somewhere if more names follow lead to a folder by themselves. -/
theorem travel_append_ok {follow : Bool} {links : Nat} {l m : Location} {ns rest : List Name}
    (h : d.travel follow links l (ns ++ rest) = .ok m) (hrest : rest ≠ []) :
    ∃ links' k, (∀ follow rest, Passes follow rest →
        d.travel follow links l (ns ++ rest) = d.travel follow links' k rest) ∧
      d.travel true links l ns = .ok k ∧ (d.get? k).any Entry.isFolder = true := by
  rcases travel_append d links l ns with ⟨links', k, hgo⟩ | ⟨f, hgo⟩
  · refine ⟨links', k, hgo, ?_, ?_⟩
    · have hstop := hgo true [] (.inl rfl)
      rw [List.append_nil, travel_nil] at hstop
      exact hstop
    · -- the first of the names that follow is looked for in a folder
      rw [hgo follow rest (.inr hrest)] at h
      obtain ⟨n, ns, rfl⟩ := List.exists_cons_of_ne_nil hrest
      by_contra hno
      rw [travel_of_step_fault (step_of_not_isFolder hno n)] at h
      exact absurd h (by simp)
  · rw [hgo follow rest (.inr hrest)] at h
    exact absurd h (by simp)

theorem travel_here_cons {l : Location} (h : (d.get? l).any Entry.isFolder = true)
    (follow : Bool) (links : Nat) (ns : List Name) :
    d.travel follow links l (here :: ns) = d.travel follow links l ns :=
  travel_of_step_on (step_here h) follow links ns

/-- Names lead to a folder if they lead somewhere with the name of the folder itself
    behind them. -/
theorem travel_append_here_iff {links : Nat} {l m : Location} {ns : List Name} :
    d.travel true links l (ns ++ [here]) = .ok m ↔
      d.travel true links l ns = .ok m ∧ (d.get? m).any Entry.isFolder = true := by
  constructor
  · intro h
    obtain ⟨links', k, hgo, hstop, hfolder⟩ := travel_append_ok h (by simp)
    rw [hgo true [here] (.inl rfl), travel_here_cons hfolder, travel_nil] at h
    obtain rfl := Except.ok.inj h
    exact ⟨hstop, hfolder⟩
  · intro h
    obtain ⟨hstop, hfolder⟩ := h
    obtain ⟨links', hgo⟩ := exists_travel_append_eq hstop
    rw [hgo true [here] (.inl rfl), travel_here_cons hfolder, travel_nil]

/-- The name of the folder itself can be left out on the way. -/
theorem travel_filter_here {follow : Bool} {links : Nat} {l m : Location}
    {ns between rest : List Name} (hrest : rest ≠ [])
    (h : d.travel follow links l (ns ++ (between ++ rest)) = .ok m) :
    d.travel follow links l (ns ++ (between.filter (· != here) ++ rest)) = .ok m := by
  induction between generalizing ns with
  | nil => exact h
  | cons n between ih =>
    by_cases hn : n = here
    · subst hn
      rw [List.filter_cons_of_neg (by simp)]
      apply ih
      -- it is looked for in the folder that it stands for
      obtain ⟨links', k, hgo, -, hfolder⟩ := travel_append_ok h (by simp)
      have hne : between ++ rest ≠ [] := List.append_ne_nil_of_right_ne_nil _ hrest
      rw [hgo _ _ (.inr hne)]
      rw [hgo _ _ (.inr (by simp)), List.cons_append, travel_here_cons hfolder] at h
      exact h
    · rw [List.filter_cons_of_pos (by simpa using hn)]
      have hshift : d.travel follow links l ((ns ++ [n]) ++ (between ++ rest)) = .ok m := by
        simpa using h
      simpa using ih hshift

/-! ## Section 4: Locations that paths lead to -/

/-- The location lies in folders from the directory down, by names that can stand in a
    path, and no link is on the way. -/
inductive Rooted (d : Directory) : Location → Prop where
  | root : Rooted d []
  | child {l : Location} {n : Name} (up : Rooted d l)
      (folder : (d.get? l).any Entry.isFolder = true) (plain : PlainName n) (self : n ≠ here)
      (parent : n ≠ above) (short : ¬ nameLimit < byteLength n)
      (there : ∃ e, d.get? (l ++ [n]) = some e ∧ ∀ target, e ≠ .link target) :
      Rooted d (l ++ [n])

/-- A walk stopped at such a location, with such names still to go. -/
def RootedStop (d : Directory) : Stop → Prop
  | .arrived m     => d.Rooted m
  | .link m _ rest => d.Rooted m ∧ ∀ n ∈ rest, PlainName n

namespace Rooted

variable {l m : Location}

theorem dropLast (h : d.Rooted l) : d.Rooted l.dropLast := by
  cases h with
  | root => exact .root
  | child up folder plain self parent short there =>
    rw [List.dropLast_concat]
    exact up

theorem folder_dropLast (h : d.Rooted l) : (d.get? l.dropLast).any Entry.isFolder = true := by
  cases h with
  | root => rfl
  | child up folder plain self parent short there =>
    rw [List.dropLast_concat]
    exact folder

theorem plainNames (h : d.Rooted l) : ∀ n ∈ l, PlainName n := by
  induction h with
  | root => simp
  | child up folder plain self parent short there ih =>
    intro n hn
    rcases List.mem_append.1 hn with hn | hn
    · exact ih n hn
    · rw [List.mem_singleton.1 hn]
      exact plain

/-- The names of the location lead to it. -/
theorem walk_append_eq (h : d.Rooted l) (follow : Bool) (ns : List Name) :
    d.walk follow [] (l ++ ns) = d.walk follow l ns := by
  induction h generalizing ns with
  | root => rfl
  | @child l n up folder plain self parent short there ih =>
    obtain ⟨e, he, hlink⟩ := there
    rw [List.append_assoc, ih, List.singleton_append, walk_cons,
      step_of_entry folder self parent short he hlink]

/-- A step from the location goes on to such a location. -/
theorem step_on {n : Name} (h : d.Rooted l) (hn : PlainName n) (hstep : d.step l n = .on m) :
    d.Rooted m := by
  obtain ⟨hfolder, ⟨-, rfl⟩ | ⟨-, -, rfl⟩ | ⟨hself, hparent, hshort, rfl, hthere⟩⟩ :=
    step_eq_on_iff.1 hstep
  · exact h
  · exact h.dropLast
  · exact .child h hfolder hn hself hparent hshort hthere

/-- A walk from the location stops at such a location. -/
theorem walk_stop {ns : List Name} (h : d.Rooted l) (hns : ∀ n ∈ ns, PlainName n)
    {stop : Stop} (hwalk : d.walk true l ns = .ok stop) : d.RootedStop stop := by
  induction ns generalizing l with
  | nil =>
    obtain rfl := Except.ok.inj hwalk
    exact h
  | cons n ns ih =>
    have hrest : ∀ m ∈ ns, PlainName m := fun m hm => hns m (List.mem_cons_of_mem _ hm)
    rw [walk_cons] at hwalk
    cases hstep : d.step l n with
    | on m =>
      rw [hstep] at hwalk
      exact ih (h.step_on (hns n List.mem_cons_self) hstep) hrest hwalk
    | link target =>
      -- a link at the very end is followed as well
      simp only [hstep, Bool.true_eq_false, and_false, if_false] at hwalk
      obtain rfl := Except.ok.inj hwalk
      exact ⟨h, hrest⟩
    | fault f =>
      rw [hstep] at hwalk
      exact absurd hwalk (by simp)

theorem jump {target : List Char} {k : Location} {ts : List Name} (h : d.Rooted l)
    (hjump : d.jump l target = .ok (k, ts)) : d.Rooted k ∧ ∀ n ∈ ts, PlainName n := by
  unfold Directory.jump at hjump
  split at hjump
  · obtain ⟨rfl, rfl⟩ := Prod.mk.inj (Except.ok.inj hjump)
    exact ⟨.root, fun n hn => plainName_of_mem_names hn⟩
  · exact absurd hjump (by simp)
  · obtain ⟨rfl, rfl⟩ := Prod.mk.inj (Except.ok.inj hjump)
    refine ⟨h, ?_⟩
    intro n hn
    rcases List.mem_append.1 hn with hn | hn
    · exact plainName_of_mem_names hn
    · split at hn
      · rw [List.mem_singleton.1 hn]
        exact plainName_here
      · simp at hn

/-- A way through all links leads from the location to such a location. -/
theorem travel {links : Nat} {ns : List Name} (h : d.Rooted l) (hns : ∀ n ∈ ns, PlainName n)
    (htravel : d.travel true links l ns = .ok m) : d.Rooted m := by
  induction links generalizing l ns with
  | zero =>
    obtain harrive | ⟨links, _, _, _, _, hzero, -⟩ := travel_cases htravel
    · exact h.walk_stop hns harrive
    · exact absurd hzero (by omega)
  | succ links ih =>
    obtain harrive | ⟨links', k, target, rest, next, hlinks, hlink, hjump, hon⟩ :=
      travel_cases htravel
    · exact h.walk_stop hns harrive
    · -- the way goes on where the link leads, by its names and those that are left
      obtain rfl := Nat.succ.inj hlinks
      obtain ⟨hk, hrest⟩ := h.walk_stop hns hlink
      obtain ⟨hnext, hts⟩ := hk.jump hjump
      refine ih hnext ?_ hon
      intro n hn
      rcases List.mem_append.1 hn with hn | hn
      · exact hts n hn
      · exact hrest n hn

end Rooted

theorem plainName_of_route {path : List Char} {ns : List Name} {slash : Bool}
    (h : d.route path = .ok (ns, slash)) : ∀ n ∈ ns, PlainName n := by
  unfold route at h
  split at h
  · exact absurd h (by simp)
  split at h
  · exact absurd h (by simp)
  split at h
  · obtain ⟨rfl, -⟩ := Prod.mk.inj (Except.ok.inj h)
    exact fun n hn => plainName_of_mem_names hn
  · exact absurd h (by simp)
  · obtain ⟨rfl, -⟩ := Prod.mk.inj (Except.ok.inj h)
    exact fun n hn => plainName_of_mem_names hn

/-- What is known of a path that leads to something. -/
theorem find_eq_ok {follow : Bool} {path : List Char} {l : Location} {e : Entry}
    (h : d.find follow path = .ok (l, e)) :
    ∃ ns slash, d.route path = .ok (ns, slash) ∧
      d.travel follow linkLimit [] (ns ++ if slash then [here] else []) = .ok l ∧
      d.get? l = some e := by
  unfold find resolve at h
  split at h
  · exact absurd h (by simp)
  next k hk =>
  split at hk
  · exact absurd hk (by simp)
  next ns slash hroute =>
  split at h
  · next e' he =>
    obtain ⟨rfl, rfl⟩ := Prod.mk.inj (Except.ok.inj h)
    exact ⟨ns, slash, hroute, hk, he⟩
  · exact absurd h (by simp)

theorem find_of_route {follow : Bool} {path : List Char} {ns : List Name} {slash : Bool}
    {l : Location} {e : Entry} (hroute : d.route path = .ok (ns, slash))
    (htravel : d.travel follow linkLimit [] (ns ++ if slash then [here] else []) = .ok l)
    (he : d.get? l = some e) : d.find follow path = .ok (l, e) := by
  unfold find resolve
  simp only [hroute, htravel, he]

/-- The directory itself is not a file. -/
theorem ne_nil_of_file {l : Location} {bytes : ByteArray} {mode : Option Nat}
    (h : d.get? l = some (.file bytes mode)) : l ≠ [] := by
  rintro rfl
  exact absurd h (by simp [get?])

theorem rooted_of_find {path : List Char} {l : Location} {e : Entry}
    (h : d.find true path = .ok (l, e)) : d.Rooted l := by
  obtain ⟨ns, slash, hroute, htravel, -⟩ := find_eq_ok h
  refine Rooted.root.travel ?_ htravel
  intro n hn
  rcases List.mem_append.1 hn with hn | hn
  · exact plainName_of_route hroute n hn
  · split at hn
    · rw [List.mem_singleton.1 hn]
      exact plainName_here
    · simp at hn

theorem inside?_absolute {l : Location} (hne : l ≠ []) :
    d.inside? (d.absolute l) =
      if d.home.isEmpty then none else some (l.flatMap fun n => '/' :: n) := by
  obtain ⟨n, k, rfl⟩ := List.exists_cons_of_ne_nil hne
  unfold inside? absolute
  rw [List.isPrefixOf?_eq_some_iff_append_eq.2 rfl]
  rfl

/-- The absolute path of a location has the names of the location, if it is a path into the
    directory at all. -/
theorem Rooted.route_absolute {l : Location} (h : d.Rooted l) (hne : l ≠ []) {r : List Name × Bool}
    (hroute : d.route (d.absolute l) = .ok r) : r = (l, false) := by
  have hinside := inside?_absolute (d := d) hne
  unfold route at hroute
  rw [hinside] at hroute
  split at hroute
  · exact absurd hroute (by simp)
  split at hroute
  · exact absurd hroute (by simp)
  cases hhome : d.home with
  | nil =>
    -- the path begins with a slash, but leads out of the directory
    obtain ⟨n, k, rfl⟩ := List.exists_cons_of_ne_nil hne
    simp [absolute, hhome] at hroute
  | cons c home =>
    simp only [hhome, List.isEmpty_cons, Bool.false_eq_true, if_false] at hroute
    rw [names_flatMap h.plainNames, endsInSlash_flatMap h.plainNames] at hroute
    exact (Except.ok.inj hroute).symm

/-- The absolute path of a location leads to it. -/
theorem Rooted.find_absolute {l : Location} {e : Entry} (h : d.Rooted l) (hne : l ≠ [])
    (he : d.get? l = some e) {r : List Name × Bool}
    (hroute : d.route (d.absolute l) = .ok r) (follow : Bool) :
    d.find follow (d.absolute l) = .ok (l, e) := by
  obtain rfl := h.route_absolute hne hroute
  refine find_of_route hroute ?_ he
  have hwalk := h.walk_append_eq follow []
  rw [List.append_nil] at hwalk
  simp only [Bool.false_eq_true, if_false, List.append_nil]
  exact travel_of_walk_arrived hwalk

/-- Names to a file end with the name of the file, and the names before that lead to its
    folder. -/
theorem exists_last_of_travel {links : Nat} {names : List Name}
    (hplain : ∀ n ∈ names, PlainName n) {l : Location}
    (h : d.travel false links [] names = .ok l) {bytes : ByteArray} {mode : Option Nat}
    (hfile : d.get? l = some (.file bytes mode)) :
    ∃ ns n k, names = ns ++ [n] ∧ n ≠ here ∧ n ≠ above ∧ ¬ nameLimit < byteLength n ∧
      l = k ++ [n] ∧ d.travel true links [] (ns ++ [here]) = .ok k := by
  -- a folder is no file
  have hother : (d.get? l).any Entry.isFolder ≠ true := by
    rw [hfile]
    simp [Entry.isFolder]
  rcases List.eq_nil_or_concat' names with rfl | ⟨ns, n, rfl⟩
  · rw [travel_nil] at h
    obtain rfl := Except.ok.inj h
    exact absurd rfl hother
  · obtain ⟨links', k, hgo, hstop, hfolder⟩ := travel_append_ok h (by simp)
    have hrooted : d.Rooted k :=
      Rooted.root.travel (fun m hm => hplain m (List.mem_append_left _ hm)) hstop
    rw [hgo false [n] (.inr (by simp))] at h
    have hlands := travel_append_here_iff.2 ⟨hstop, hfolder⟩
    cases hstep : d.step k n with
    | fault f =>
      rw [travel_of_step_fault hstep] at h
      exact absurd h (by simp)
    | link target =>
      obtain ⟨-, hself, hparent, hshort, -⟩ := step_eq_link_iff.1 hstep
      rw [travel_false_of_step_link hstep] at h
      exact ⟨ns, n, k, rfl, hself, hparent, hshort, (Except.ok.inj h).symm, hlands⟩
    | on m =>
      rw [travel_of_step_on hstep, travel_nil] at h
      obtain rfl := Except.ok.inj h
      -- a word for a folder leads to one
      obtain ⟨-, ⟨-, rfl⟩ | ⟨-, -, rfl⟩ | ⟨hself, hparent, hshort, rfl, -⟩⟩ :=
        step_eq_on_iff.1 hstep
      · exact absurd hfolder hother
      · exact absurd hrooted.folder_dropLast hother
      · exact ⟨ns, n, k, rfl, hself, hparent, hshort, rfl, hlands⟩

/-- The last name of a path to a file is the name of the file, and the names before it
    lead to its folder. -/
theorem exists_last_of_find {path : List Char} {l : Location} {bytes : ByteArray}
    {mode : Option Nat} (h : d.find false path = .ok (l, .file bytes mode)) :
    ∃ ns n k, d.route path = .ok (ns ++ [n], false) ∧ n ≠ here ∧ n ≠ above ∧
      ¬ nameLimit < byteLength n ∧ l = k ++ [n] ∧
      d.travel true linkLimit [] (ns ++ [here]) = .ok k := by
  obtain ⟨names, slash, hroute, htravel, hfile⟩ := find_eq_ok h
  have hplain : ∀ n ∈ names ++ (if slash then [here] else []), PlainName n := by
    intro n hn
    rcases List.mem_append.1 hn with hn | hn
    · exact plainName_of_route hroute n hn
    · split at hn
      · rw [List.mem_singleton.1 hn]
        exact plainName_here
      · simp at hn
  obtain ⟨ns, n, k, hnames, hself, hparent, hshort, hl, hfolder⟩ :=
    exists_last_of_travel hplain htravel hfile
  cases slash with
  | true =>
    -- the path would end with the name of a folder
    obtain ⟨-, hlast⟩ := List.append_inj' hnames rfl
    exact absurd (List.cons.inj hlast).1.symm hself
  | false =>
    have hnames' : names = ns ++ [n] := by simpa using hnames
    exact ⟨ns, n, k, by rw [hroute, hnames'], hself, hparent, hshort, hl, hfolder⟩

/-! ## Section 5: Directories of the same shape -/

/-- The entries differ in the contents of a file only. -/
inductive Alike : Entry → Entry → Prop where
  | file (bytes bytes' : ByteArray) (mode mode' : Option Nat) :
      Alike (.file bytes mode) (.file bytes' mode')
  | link (target : List Char) : Alike (.link target) (.link target)
  | folder : Alike .folder .folder

theorem Alike.refl (e : Entry) : Alike e e := by
  cases e with
  | file bytes mode => exact .file _ _ _ _
  | link target => exact .link target
  | folder => exact .folder

/-- The directories differ in the contents of files only. -/
structure SameShape (d d' : Directory) : Prop where
  home    : d'.home = d.home
  entries : ∀ l, Option.Rel Alike (d.get? l) (d'.get? l)

/-- A file takes the place of another one. -/
theorem sameShape_set {l : Location} {bytes : ByteArray} {mode : Option Nat}
    (h : d.get? l = some (.file bytes mode)) (bytes' : ByteArray) (mode' : Option Nat) :
    SameShape d (d.set l (.file bytes' mode')) := by
  refine ⟨rfl, ?_⟩
  have hne := ne_nil_of_file h
  intro m
  rw [get?_set d l m _ hne]
  split
  · next heq =>
    rw [heq, h]
    exact .some (.file _ _ _ _)
  · cases d.get? m with
    | none => exact .none
    | some e => exact .some (.refl e)

namespace SameShape

theorem any_isFolder (h : SameShape d d') (l : Location) :
    (d'.get? l).any Entry.isFolder = (d.get? l).any Entry.isFolder := by
  have hrel := h.entries l
  generalize d.get? l = before at hrel ⊢
  generalize d'.get? l = after at hrel ⊢
  cases hrel with
  | none => rfl
  | some halike => cases halike <;> rfl

theorem step_eq (h : SameShape d d') (l : Location) (n : Name) : d'.step l n = d.step l n := by
  unfold step
  rw [h.any_isFolder]
  have hrel := h.entries (l ++ [n])
  generalize d.get? (l ++ [n]) = before at hrel ⊢
  generalize d'.get? (l ++ [n]) = after at hrel ⊢
  cases hrel with
  | none => rfl
  | some halike => cases halike <;> rfl

theorem walk_eq (h : SameShape d d') (follow : Bool) (l : Location) (ns : List Name) :
    d'.walk follow l ns = d.walk follow l ns := by
  induction ns generalizing l with
  | nil => rfl
  | cons n ns ih => simp only [walk_cons, h.step_eq, ih]

theorem inside?_eq (h : SameShape d d') (path : List Char) : d'.inside? path = d.inside? path := by
  unfold inside?
  rw [h.home]

theorem route_eq (h : SameShape d d') (path : List Char) : d'.route path = d.route path := by
  unfold route
  rw [h.inside?_eq]

theorem travel_eq (h : SameShape d d') (follow : Bool) (links : Nat) (l : Location)
    (ns : List Name) : d'.travel follow links l ns = d.travel follow links l ns := by
  induction links generalizing l ns with
  | zero =>
    unfold travel
    rw [h.walk_eq]
  | succ links ih =>
    unfold travel
    simp only [h.walk_eq, h.inside?_eq, ih]

theorem resolve_eq (h : SameShape d d') (follow : Bool) (path : List Char) :
    d'.resolve follow path = d.resolve follow path := by
  unfold resolve
  simp only [h.route_eq, h.travel_eq]

end SameShape

end Marginalia.Directory
