import Mathlib.Data.Set.Finite.List
import Marginalia.Directory.Temporary
import Marginalia.Proofs.WholeFiles

/-! # Writes through temporary files

    A temporary file is made beside the file that is written, and moved to its place. None of
    this can be seen when the write is done, whether it succeeds or not, as long as nothing
    was there that has the name of the temporary file.

    * **`erase_set`**: a temporary file that is taken away leaves nothing behind.
    * **`landing_set_iff`**: it does not change where the file lands.
    * **`replaceThrough_eq`**: all steps of a write in one.
    * **`finite_not_spare`**: in every directory, nothing is in the way of all but finitely
      many processes.
    * **`WriteEffect`**: what the answer to a write says about the directory that it leaves.
    * **`writeThrough_cases`**: a write through a temporary file is one in one step, or makes
      no more than folders.
    * **`writeEffect_writeThrough`**: so it is for a write in one step, and for one through a
      temporary file. -/

namespace Marginalia.Directory

variable {d d' : Directory}

/-! ## Section 1: One file more -/

theorem filter_ne_of_get?_eq_none {l : Location} (hne : l ≠ []) (h : d.get? l = none) :
    (d.entries.filter fun x => x.1 != l) = d.entries := by
  unfold get? at h
  rw [if_neg hne, List.lookup_eq_none_iff] at h
  apply List.filter_eq_self.2
  intro x hx
  have hother := h x hx
  rw [bne_iff_ne] at hother ⊢
  exact Ne.symm hother

/-- What was put where nothing was leaves nothing behind. -/
theorem erase_set {l : Location} (hne : l ≠ []) (h : d.get? l = none) (e : Entry) :
    (d.set l e).erase l = d := by
  have hsame := filter_ne_of_get?_eq_none hne h
  unfold erase set
  rw [List.filter_cons_of_neg (by simp), List.filter_filter]
  simp only [Bool.and_self, hsame]

/-- What is put at a location twice is what was put there last. -/
theorem set_set (d : Directory) (l : Location) (e e' : Entry) :
    (d.set l e).set l e' = d.set l e' := by
  unfold set
  rw [List.filter_cons_of_neg (by simp), List.filter_filter]
  simp only [Bool.and_self]

section OneFileMore

variable {f : Location} {bytes : ByteArray} {mode : Option Nat}

/-- A folder is not the file. -/
theorem isFolder_of_set (hne : f ≠ []) {l : Location}
    (h : ((d.set f (.file bytes mode)).get? l).any Entry.isFolder = true) :
    l ≠ f ∧ (d.get? l).any Entry.isFolder = true := by
  rw [get?_set d f l _ hne] at h
  split at h
  · exact absurd h (by simp [Entry.isFolder])
  · next hl => exact ⟨hl, h⟩

/-- With one file more, a step leads on to where it did before, or to the file. -/
theorem step_on_of_set (hne : f ≠ []) {l m : Location} {n : Name}
    (h : (d.set f (.file bytes mode)).step l n = .on m) : m = f ∨ d.step l n = .on m := by
  obtain ⟨hfolder, hother | hother | ⟨hself, hup, hshort, hm, e, he, hlink⟩⟩ :=
    step_eq_on_iff.1 h
  · exact .inr (step_eq_on_iff.2 ⟨(isFolder_of_set hne hfolder).2, .inl hother⟩)
  · exact .inr (step_eq_on_iff.2 ⟨(isFolder_of_set hne hfolder).2, .inr (.inl hother)⟩)
  · by_cases hthere : m = f
    · exact .inl hthere
    · rw [get?_set d f m _ hne, if_neg hthere] at he
      exact .inr (step_eq_on_iff.2 ⟨(isFolder_of_set hne hfolder).2,
        .inr (.inr ⟨hself, hup, hshort, hm, e, he, hlink⟩)⟩)

/-- The file is no link. -/
theorem step_link_of_set (hne : f ≠ []) {l : Location} {n : Name} {target : List Char}
    (h : (d.set f (.file bytes mode)).step l n = .link target) : d.step l n = .link target := by
  obtain ⟨hfolder, hself, hup, hshort, hentry⟩ := step_eq_link_iff.1 h
  rw [get?_set d f _ _ hne] at hentry
  split at hentry
  · exact absurd hentry (by simp)
  · exact step_eq_link_iff.2 ⟨(isFolder_of_set hne hfolder).2, hself, hup, hshort, hentry⟩

/-- With one file more, a walk stops where it did before, or at the file. -/
theorem walk_of_walk_set (hne : f ≠ []) {follow : Bool} {l : Location} {ns : List Name}
    {stop : Stop} (h : (d.set f (.file bytes mode)).walk follow l ns = .ok stop) :
    stop = .arrived f ∨ d.walk follow l ns = .ok stop := by
  induction ns generalizing l with
  | nil => exact .inr h
  | cons n ns ih =>
    rw [walk_cons] at h
    rw [walk_cons]
    cases hstep : (d.set f (.file bytes mode)).step l n with
    | fault fault =>
      rw [hstep] at h
      exact absurd h (by simp)
    | link target =>
      rw [hstep] at h
      rw [step_link_of_set hne hstep]
      exact .inr h
    | on m =>
      rw [hstep] at h
      rcases step_on_of_set hne hstep with rfl | hsame
      · -- nothing lies in a file, so the walk is over
        cases ns with
        | nil => exact .inl (Except.ok.inj h).symm
        | cons k ns =>
          have hfile : ¬ ((d.set m (.file bytes mode)).get? m).any Entry.isFolder = true :=
            fun hfolder => (isFolder_of_set hne hfolder).1 rfl
          simp only [walk_cons, step_of_not_isFolder hfile] at h
          exact absurd h (by simp)
      · rw [hsame]
        exact ih h

/-- With one file more, a way leads where it did before, or to the file. -/
theorem travel_of_travel_set (hne : f ≠ []) (hf : d.get? f = none) {follow : Bool} {links : Nat}
    {l m : Location} {ns : List Name}
    (h : (d.set f (.file bytes mode)).travel follow links l ns = .ok m) :
    m = f ∨ d.travel follow links l ns = .ok m := by
  have harrived : ∀ {links : Nat} {l : Location} {ns : List Name},
      (d.set f (.file bytes mode)).walk follow l ns = .ok (.arrived m) →
        m = f ∨ d.travel follow links l ns = .ok m := by
    intro links l ns hwalk
    rcases walk_of_walk_set hne hwalk with hstop | hsame
    · exact .inl (Stop.arrived.inj hstop)
    · exact .inr (travel_of_walk_arrived hsame)
  induction links generalizing l ns with
  | zero =>
    obtain harrive | ⟨links, _, _, _, _, hzero, -⟩ := travel_cases h
    · exact harrived harrive
    · exact absurd hzero (by omega)
  | succ links ih =>
    obtain harrive | ⟨links', k, target, rest, next, hlinks, hlink, hjump, hon⟩ := travel_cases h
    · exact harrived harrive
    · rcases walk_of_walk_set hne hlink with hstop | hsame
      · exact absurd hstop (by simp)
      · -- the link leads on in the same way
        obtain rfl := Nat.succ.inj hlinks
        rw [(includes_set hne hf (.file bytes mode)).jump_eq] at hjump
        rw [travel_succ_of_walk_link hsame, hjump]
        exact ih hon

end OneFileMore

/-- A file lands where it does without one more file in the directory. -/
theorem landing_set_iff {f l : Location} (hne : f ≠ []) (hf : d.get? f = none) (bytes : ByteArray)
    (mode : Option Nat) (path : List Char) :
    (d.set f (.file bytes mode)).landing path = .ok l ↔ d.landing path = .ok l := by
  have hincludes : Includes d (d.set f (.file bytes mode)) := includes_set hne hf _
  constructor
  · intro h
    obtain ⟨ns, n, k, hroute, hself, hup, hshort, hparent, rfl, hfolder⟩ := landing_eq_ok h
    have hk : k ≠ f := by
      rintro rfl
      obtain ⟨-, hin⟩ := travel_append_here_iff.1 hparent
      rw [get?_set d _ _ _ hne, if_pos rfl] at hin
      exact absurd hin (by simp [Entry.isFolder])
    refine landing_of_travel ((hincludes.route_eq path).symm.trans hroute) hself hup hshort
      ((travel_of_travel_set hne hf hparent).resolve_left hk) ?_
    intro hold
    exact hfolder (hincludes.kept _ _ hold)
  · intro h
    obtain ⟨ns, n, k, hroute, hself, hup, hshort, hparent, rfl, hfolder⟩ := landing_eq_ok h
    refine landing_of_travel ((hincludes.route_eq path).trans hroute) hself hup hshort
      (hincludes.travel hparent) ?_
    rw [get?_set d f _ _ hne]
    split
    · simp
    · exact hfolder

/-! ## Section 2: The steps of a write through a temporary file -/

/-- Where the entry of the temporary file for a path is. -/
def temporaryAt (d : Directory) (process : Nat) (path : List Char) : Except FileFault Location :=
  match d.route path with
  | .error f => .error f
  | .ok (ns, _) => d.entryIn linkLimit (temporary process ns).1 (temporary process ns).2

/-- Nothing stands where the temporary file is made. -/
def Spare (d : Directory) (process : Nat) (p : FilePath) : Prop :=
  ∀ d₁ path mode l, d.prepare p = (d₁, .ok (path, mode)) →
    d₁.temporaryAt process path = .ok l → d₁.get? l = none

theorem spare_of_temporaryAt {process : Nat} {p : FilePath} {d₁ : Directory} {path : List Char}
    {mode : Option Nat} {l : Location} (hprepare : d.prepare p = (d₁, .ok (path, mode)))
    (hat : d₁.temporaryAt process path = .ok l) (hnone : d₁.get? l = none) :
    d.Spare process p := by
  intro d₂ path₂ mode₂ m h hat₂
  rw [hprepare] at h
  obtain ⟨rfl, hpair⟩ := Prod.mk.inj h
  obtain ⟨rfl, -⟩ := Prod.mk.inj (Except.ok.inj hpair)
  obtain rfl := Except.ok.inj (hat.symm.trans hat₂)
  exact hnone

/-- The name of the temporary file is not too long. -/
def Fits (d : Directory) (process : Nat) (p : FilePath) : Prop :=
  ∀ d₁ path mode l n, d.prepare p = (d₁, .ok (path, mode)) → d₁.landing path = .ok (l ++ [n]) →
    ¬ nameLimit < byteLength (temporaryName process n)

theorem fits_of_landing {process : Nat} {p : FilePath} {d₁ : Directory} {path : List Char}
    {mode : Option Nat} {l : Location} {n : Name}
    (hprepare : d.prepare p = (d₁, .ok (path, mode))) (hlanding : d₁.landing path = .ok (l ++ [n]))
    (hshort : ¬ nameLimit < byteLength (temporaryName process n)) : d.Fits process p := by
  intro d₂ path₂ mode₂ k m h hlanding₂
  rw [hprepare] at h
  obtain ⟨rfl, hpair⟩ := Prod.mk.inj h
  obtain ⟨rfl, -⟩ := Prod.mk.inj (Except.ok.inj hpair)
  have hsame := Except.ok.inj (hlanding.symm.trans hlanding₂)
  obtain ⟨-, rfl⟩ := List.concat_inj.1 (by simpa using hsame)
  exact hshort

theorem temporaryAt_eq_ok {process : Nat} {path : List Char} {l : Location}
    (h : d.temporaryAt process path = .ok l) :
    ∃ ns inSlash k, d.route path = .ok (ns, inSlash) ∧ l = k ++ [(temporary process ns).2] := by
  unfold temporaryAt entryIn at h
  split at h
  · exact absurd h (by simp)
  next ns inSlash hroute =>
  split at h
  · exact absurd h (by simp)
  next k hfolder =>
  split at h
  · exact absurd h (by simp)
  split at h
  · exact absurd h (by simp)
  · exact ⟨ns, inSlash, k, hroute, (Except.ok.inj h).symm⟩

theorem ne_nil_of_temporaryAt {process : Nat} {path : List Char} {l : Location}
    (h : d.temporaryAt process path = .ok l) : l ≠ [] := by
  obtain ⟨ns, inSlash, k, -, rfl⟩ := temporaryAt_eq_ok h
  simp

/-- Where nothing is, a new file is made and no link is followed. -/
theorem create_of_get?_eq_none {folder : List Name} {n : Name} {l : Location}
    (h : d.entryIn linkLimit folder n = .ok l) (hnone : d.get? l = none) :
    d.create folder n = .ok (l, l) := by
  unfold create
  simp only [h]
  unfold openedAt
  simp only [hnone]
  rfl

/-- What a new file holds after it was opened and written. -/
theorem fill_fill_of_get?_eq_none {l : Location} (hne : l ≠ []) (h : d.get? l = none)
    (before bytes : ByteArray) :
    (d.fill l before).fill l bytes = d.set l (.file bytes none) := by
  have hnew : d.fill l before = d.set l (.file before none) := by
    unfold fill
    rw [h]
  rw [hnew]
  unfold fill
  rw [get?_set d l l _ hne, if_pos rfl]
  exact set_set d l _ _

/-- A new file that is moved leaves nothing behind. -/
theorem rename_set {l : Location} (hne : l ≠ []) (h : d.get? l = none) (bytes : ByteArray)
    (mode : Option Nat) (path : List Char) :
    (d.set l (.file bytes mode)).rename l path =
      ((d.set l (.file bytes mode)).landing path).map fun m => d.set m (.file bytes mode) := by
  unfold rename
  rw [get?_set d l l _ hne, if_pos rfl, erase_set hne h]

/-- All steps of a write in one, where the temporary file is a new one: the file lands, or
    nothing is done. -/
theorem replaceThrough_eq {process : Nat} {path : List Char}
    (hspare : ∀ l, d.temporaryAt process path = .ok l → d.get? l = none) (bytes : ByteArray)
    {mode : Option Nat} {wasThere : Bool} (hmode : wasThere = false → mode = none) :
    (∃ w, d.replaceThrough process path bytes mode wasThere = (d, .error w) ∧
        (∀ l, d.temporaryAt process path = .ok l → ∃ f, d.landing path = .error f)) ∨
      ∃ l, d.landing path = .ok l ∧
        d.replaceThrough process path bytes mode wasThere =
          (d.set l (.file bytes mode), .ok ()) := by
  unfold replaceThrough
  cases hroute : d.route path with
  | error f =>
    refine .inl ⟨_, rfl, ?_⟩
    intro l hl
    unfold temporaryAt at hl
    rw [hroute] at hl
    exact absurd hl (by simp)
  | ok r =>
    have hat : d.temporaryAt process path =
        d.entryIn linkLimit (temporary process r.1).1 (temporary process r.1).2 := by
      unfold temporaryAt
      rw [hroute]
    simp only
    cases hentry : d.entryIn linkLimit (temporary process r.1).1 (temporary process r.1).2 with
    | error f =>
      have hcreate : d.create (temporary process r.1).1 (temporary process r.1).2 = .error f := by
        unfold create
        rw [hentry]
      rw [hcreate]
      refine .inl ⟨_, rfl, ?_⟩
      intro l hl
      rw [hat, hentry] at hl
      exact absurd hl (by simp)
    | ok t =>
      have ht : d.temporaryAt process path = .ok t := hat.trans hentry
      have hne := ne_nil_of_temporaryAt ht
      have hnone := hspare t ht
      -- the temporary file holds the bytes, and has the permission bits
      have hpermitted : (if wasThere then (d.set t (.file bytes none)).set t (.file bytes mode)
          else d.set t (.file bytes none)) = d.set t (.file bytes mode) := by
        rw [set_set]
        split
        · rfl
        · next hnot => rw [hmode (by simpa using hnot)]
      simp only [create_of_get?_eq_none hentry hnone, fill_fill_of_get?_eq_none hne hnone,
        hpermitted, rename_set hne hnone]
      cases hlanding : (d.set t (.file bytes mode)).landing path with
      | error f =>
        refine .inl ⟨⟨path, f⟩, ?_, ?_⟩
        · simp only [Except.map, erase_set hne hnone]
        · intro l hl
          cases hland : d.landing path with
          | error g => exact ⟨g, rfl⟩
          | ok k =>
            rw [(landing_set_iff hne hnone bytes mode path).2 hland] at hlanding
            exact absurd hlanding (by simp)
      | ok l => exact .inr ⟨l, (landing_set_iff hne hnone bytes mode path).1 hlanding, rfl⟩

theorem length_temporaryName (process : Nat) (n : Name) : 5 < (temporaryName process n).length := by
  simp [temporaryName]
  omega

theorem temporaryName_ne_here (process : Nat) (n : Name) : temporaryName process n ≠ here := by
  intro h
  have hlong := length_temporaryName process n
  rw [h] at hlong
  exact absurd hlong (by decide)

theorem temporaryName_ne_above (process : Nat) (n : Name) : temporaryName process n ≠ above := by
  intro h
  have hlong := length_temporaryName process n
  rw [h] at hlong
  exact absurd hlong (by decide)

/-- The names that different processes give to their temporary files are different. -/
theorem temporaryName_injective (n : Name) :
    Function.Injective fun process => temporaryName process n := by
  intro process process' hsame
  have hdigits : Nat.toDigits 10 process = Nat.toDigits 10 process' := by
    simpa [temporaryName] using hsame
  have hread := congrArg (Nat.ofDigitChars 10 · 0) hdigits
  simpa [Nat.ofDigitChars_toDigits] using hread

theorem exists_temporary_eq (ns : List Name) :
    ∃ folder n, ∀ process, temporary process ns = (folder, temporaryName process n) := by
  unfold temporary
  cases (components ns).getLast? with
  | none => exact ⟨_, _, fun _ => rfl⟩
  | some n =>
    by_cases hn : n = here ∨ n = above
    · exact ⟨_, _, fun _ => if_pos hn⟩
    · exact ⟨_, _, fun _ => if_neg hn⟩

/-- What is in a directory has the names of finitely many temporary files. -/
theorem finite_temporaryAt (d : Directory) (path : List Char) :
    {process | ∃ l, d.temporaryAt process path = .ok l ∧ d.get? l ≠ none}.Finite := by
  cases hroute : d.route path with
  | error f => simp [temporaryAt, hroute]
  | ok r =>
    obtain ⟨folder, n, htemporary⟩ := exists_temporary_eq r.1
    let names := d.entries.filterMap fun x => x.1.getLast?
    -- a process whose temporary file is there has a name from this list, and no other has it
    refine ((List.finite_toSet names).preimage (temporaryName_injective n).injOn).subset ?_
    intro process hthere
    obtain ⟨l, hat, hsome⟩ := hthere
    obtain ⟨ns, inSlash, k, hroute', rfl⟩ := temporaryAt_eq_ok hat
    obtain rfl := Except.ok.inj (hroute.symm.trans hroute')
    obtain ⟨e, he⟩ := Option.ne_none_iff_exists'.1 hsome
    unfold get? at he
    rw [if_neg (by simp)] at he
    obtain ⟨before, after, hentries, -⟩ := List.lookup_eq_some_iff.1 he
    have hmem : (k ++ [(temporary process ns).2], e) ∈ d.entries := by
      rw [hentries]
      exact List.mem_append_right before List.mem_cons_self
    have hname : (k ++ [(temporary process ns).2]).getLast? =
        some (temporaryName process n) := by
      rw [htemporary, List.getLast?_concat]
    exact List.mem_filterMap.2 ⟨_, hmem, hname⟩

/-- Whatever is in a directory, it is in the way of finitely many processes only. -/
theorem finite_not_spare (d : Directory) (p : FilePath) :
    {process | ¬ d.Spare process p}.Finite := by
  by_cases hprepared : ∃ d₁ path mode, d.prepare p = (d₁, .ok (path, mode))
  · obtain ⟨d₁, path, mode, hprepare⟩ := hprepared
    refine (d₁.finite_temporaryAt path).subset fun process htaken => ?_
    by_contra hfree
    refine htaken fun d₂ path₂ mode₂ l h hat => ?_
    rw [hprepare] at h
    obtain ⟨rfl, hpair⟩ := Prod.mk.inj h
    obtain ⟨rfl, -⟩ := Prod.mk.inj (Except.ok.inj hpair)
    by_contra hthere
    exact hfree ⟨l, hat, hthere⟩
  · refine Set.finite_empty.subset fun process htaken => htaken fun d₁ path mode l h => ?_
    exact absurd ⟨d₁, path, mode, h⟩ hprepared

/-- If the name is not too long, a temporary file can be made for a file that lands. -/
theorem exists_temporaryAt {path : List Char} {l : Location} (h : d.landing path = .ok l)
    {process : Nat}
    (hfits : ∀ k n, l = k ++ [n] → ¬ nameLimit < byteLength (temporaryName process n)) :
    ∃ t, d.temporaryAt process path = .ok t := by
  obtain ⟨ns, n, k, hroute, hself, hup, -, hparent, rfl, -⟩ := landing_eq_ok h
  have hlast : (components (ns ++ [n])).getLast? = some n := by
    cases ns with
    | nil => rfl
    | cons m ns => simp [components, List.filter_append, hself, List.getLast?_cons]
  have htemporary : temporary process (ns ++ [n]) =
      (parentNames (ns ++ [n]), temporaryName process n) := by
    unfold temporary
    simp only [hlast, hself, hup, or_self, if_false]
    rfl
  refine ⟨k ++ [temporaryName process n], ?_⟩
  unfold temporaryAt entryIn
  simp only [hroute, htemporary, travel_parentNames hself hparent, if_neg (hfits k n rfl),
    temporaryName_ne_here, temporaryName_ne_above, or_self, if_false]

/-! ## Section 3: What a write does -/

/-- What the answer to a write says about the directory that it leaves: what was written is
    there and all else is as it was, unless something was overlooked; or all is as it was but
    for new folders. -/
structure WriteEffect (d : Directory) (p : FilePath) (bytes : ByteArray)
    (answer : Directory × Except WriteFault Unit) : Prop where
  replaced : ∀ d', answer = (d', .ok ()) → (Replaced d p bytes d' ↔ ¬ d.Overlooks p)
  read : ∀ d', answer = (d', .ok ()) → ¬ d.Overlooks p →
    ∀ text : String, bytes = text.toUTF8 → d'.readText p = .ok text
  failed : ∀ d' w, answer = (d', .error w) → ∃ ns, Grown d ns d'

theorem writeEffect_writeBytes (d : Directory) (p : FilePath) (bytes : ByteArray) :
    WriteEffect d p bytes (d.writeBytes p bytes) := by
  refine ⟨?_, ?_, fun d' w => grown_of_writeBytes_error⟩
  · intro d' hwrite
    constructor
    · intro hreplaced hmissed
      exact not_replaced_of_overlooks hmissed hwrite hreplaced
    · intro hsees
      exact replaced_of_writeBytes hsees hwrite
  · intro d' hwrite hsees text htext
    rw [htext] at hwrite
    exact readText_of_writeText hsees hwrite

/-- Only a file that is there has permission bits to give. -/
theorem mode_of_prepare {p : FilePath} {d₁ : Directory} {path : List Char} {mode : Option Nat}
    (h : d.prepare p = (d₁, .ok (path, mode))) (hmissing : (d.find true path).isOk = false) :
    mode = none := by
  obtain ⟨-, hmode, -⟩ := prepare_eq_ok h
  unfold modeAt at hmode
  cases hfind : d.find true path with
  | ok found =>
    rw [hfind] at hmissing
    exact absurd hmissing (by simp [Except.isOk, Except.toBool])
  | error f =>
    rw [hfind] at hmode
    cases f with
    | notFound => exact (Except.ok.inj hmode).symm
    | _ => exact absurd hmode (by simp)

/-- A write through a temporary file is a write in one step, if it succeeds. If it fails, it
    leaves only the folders that are made first, and a write in one step fails as well, if the
    name of the temporary file is not too long. -/
theorem writeThrough_cases {process : Nat} {p : FilePath} (hspare : d.Spare process p)
    (bytes : ByteArray) :
    (∃ d', d.writeBytes p bytes = (d', .ok ()) ∧
        d.writeThrough process p bytes = (d', .ok ())) ∨
      ∃ w, d.writeThrough process p bytes = ((d.prepare p).1, .error w) ∧
        (d.Fits process p → ∀ d', d.writeBytes p bytes ≠ (d', .ok ())) := by
  cases hprepare : d.prepare p with
  | mk d₁ r =>
    cases r with
    | error w =>
      refine .inr ⟨w, ?_, ?_⟩
      · unfold writeThrough
        rw [hprepare]
      · intro _ d' hwrite
        rw [writeBytes_of_prepare_error hprepare] at hwrite
        exact absurd (congrArg Prod.snd hwrite) (by simp)
    | ok r =>
      obtain ⟨path, mode⟩ := r
      have hthrough : d.writeThrough process p bytes =
          d₁.replaceThrough process path bytes mode (d.find true path).isOk := by
        unfold writeThrough
        rw [hprepare]
      have hmode : (d.find true path).isOk = false → mode = none :=
        mode_of_prepare hprepare
      have hbytes := writeBytes_of_prepare hprepare bytes
      have hnew : ∀ l, d₁.temporaryAt process path = .ok l → d₁.get? l = none :=
        fun l => hspare d₁ path mode l hprepare
      rcases replaceThrough_eq hnew bytes hmode with ⟨w, hfail, hother⟩ | ⟨l, hlanding, hset⟩
      · refine .inr ⟨w, hthrough.trans hfail, ?_⟩
        intro hfits d' hwrite
        cases hlanding : d₁.landing path with
        | error f =>
          rw [hbytes, hlanding] at hwrite
          exact absurd (congrArg Prod.snd hwrite) (by simp)
        | ok l =>
          -- a temporary file is made, so that it cannot be moved
          have hshort : ∀ k n, l = k ++ [n] → ¬ nameLimit < byteLength (temporaryName process n) :=
            fun k n hl => hfits d₁ path mode k n hprepare (hl ▸ hlanding)
          obtain ⟨t, ht⟩ := exists_temporaryAt hlanding hshort
          obtain ⟨f, hbad⟩ := hother t ht
          rw [hlanding] at hbad
          exact absurd hbad (by simp)
      · rw [hlanding] at hbytes
        exact .inl ⟨_, hbytes, hthrough.trans hset⟩

theorem SameShape.temporaryAt_eq (h : SameShape d d') (process : Nat) (path : List Char) :
    d'.temporaryAt process path = d.temporaryAt process path := by
  unfold temporaryAt entryIn
  simp only [h.route_eq, h.travel_eq]

theorem SameShape.get?_eq_none (h : SameShape d d') {l : Location} (hnone : d.get? l = none) :
    d'.get? l = none := by
  have hrel := h.entries l
  rw [hnone] at hrel
  generalize d'.get? l = after at hrel
  cases hrel
  rfl

/-- After a file was replaced, it can be replaced through a temporary file as before. -/
theorem spare_and_fits_of_writeBytes {process : Nat} {p : FilePath} {bytes bytes' : ByteArray}
    (hread : d.readBytes p = .ok bytes) (hwrite : d.writeBytes p bytes' = (d', .ok ())) :
    (d.Spare process p → d'.Spare process p) ∧ (d.Fits process p → d'.Fits process p) := by
  obtain ⟨l, mode, hfind⟩ := exists_find_of_readBytes hread
  obtain ⟨-, -, -, -, hfile⟩ := find_eq_ok hfind
  obtain ⟨path, htarget, ⟨f, hroute⟩ | ⟨⟨r, hroute⟩, hlands, hprepare⟩⟩ := prepare_of_find hfind
  · obtain ⟨w, hw⟩ := writeBytes_of_route_error htarget hroute bytes'
    rw [hw] at hwrite
    exact absurd (Prod.mk.inj hwrite).2 (by simp)
  rw [writeBytes_of_prepare hprepare, landing_of_find hlands] at hwrite
  obtain rfl := (Prod.mk.inj hwrite).1
  have hshape := sameShape_set hfile bytes' mode
  obtain ⟨path', htarget', ⟨f, hroute'⟩ | ⟨-, hlands', hprepare'⟩⟩ :=
    prepare_of_find (find_set hfind bytes' mode)
  all_goals
    rw [hshape.target_eq, htarget] at htarget'
    obtain rfl := Except.ok.inj htarget'
  · rw [hshape.route_eq, hroute] at hroute'
    exact absurd hroute' (by simp)
  · constructor
    · intro hspare d₂ path₂ mode₂ t hprepare₂ hat
      rw [hprepare'] at hprepare₂
      obtain ⟨rfl, hpair⟩ := Prod.mk.inj hprepare₂
      obtain ⟨rfl, -⟩ := Prod.mk.inj (Except.ok.inj hpair)
      rw [hshape.temporaryAt_eq] at hat
      exact hshape.get?_eq_none (hspare d path mode t hprepare hat)
    · intro hfits d₂ path₂ mode₂ k n hprepare₂ hlanding
      rw [hprepare'] at hprepare₂
      obtain ⟨rfl, hpair⟩ := Prod.mk.inj hprepare₂
      obtain ⟨rfl, -⟩ := Prod.mk.inj (Except.ok.inj hpair)
      rw [landing_of_find hlands'] at hlanding
      exact hfits d path mode k n hprepare ((landing_of_find hlands).trans hlanding)

/-- A write touches its target only, whether it is taken as one step or goes through a
    temporary file. Of the latter nothing is left, and it makes no difference unless its name
    is too long. What a write can overlook lies behind a name that leads up. -/
theorem writeEffect_writeThrough (d : Directory) (p : FilePath) (bytes : ByteArray) :
    WriteEffect d p bytes (d.writeBytes p bytes) ∧
      (∀ process, d.Spare process p →
        WriteEffect d p bytes (d.writeThrough process p bytes) ∧
          (∀ d', d.writeThrough process p bytes = (d', .ok ()) →
            d.writeBytes p bytes = (d', .ok ())) ∧
          (d.Fits process p → ∀ d', d.writeBytes p bytes = (d', .ok ()) →
            d.writeThrough process p bytes = (d', .ok ()))) ∧
      (d.IsTree → d.Overlooks p →
        ∃ ns slash, d.route p.chars = .ok (ns, slash) ∧ above ∈ ns) := by
  have heffect := writeEffect_writeBytes d p bytes
  refine ⟨heffect, ?_, fun htree => above_mem_of_overlooks htree⟩
  intro process hspare
  rcases writeThrough_cases hspare bytes with
    ⟨d', hbytes, hthrough⟩ | ⟨w, hfail, hnever⟩
  · rw [hbytes] at heffect ⊢
    rw [hthrough]
    exact ⟨heffect, fun _ h => h, fun _ _ h => h⟩
  · have hno : ∀ d₁, ((d.prepare p).1, Except.error w) ≠ (d₁, Except.ok ()) := by simp
    rw [hfail]
    refine ⟨⟨?_, ?_, ?_⟩, ?_, ?_⟩
    · intro d₁ hok
      exact absurd hok (hno d₁)
    · intro d₁ hok
      exact absurd hok (hno d₁)
    · intro d₁ w₁ hsame
      obtain rfl := congrArg Prod.fst hsame
      exact exists_grown_prepare d p
    · intro d₁ hok
      exact absurd hok (hno d₁)
    · intro hfits d₁ hok
      exact absurd hok (hnever hfits d₁)

/-- It is enough to look at the entries that are listed. -/
theorem isTree_of_entries
    (h : ∀ x ∈ d.entries, (d.get? x.1.dropLast).any Entry.isFolder = true) : d.IsTree := by
  intro l n e he
  unfold get? at he
  rw [if_neg (by simp)] at he
  obtain ⟨before, after, hentries, -⟩ := List.lookup_eq_some_iff.1 he
  have hfolder := h (l ++ [n], e) (by rw [hentries]; simp)
  rwa [List.dropLast_concat] at hfolder

/-- A folder with a file that has permission bits of its own, and a link to the file. -/
def linkedHome : Directory :=
  ⟨"/w".toList, [(["lnk".toList], .link "dir/real".toList), (["dir".toList], .folder),
    (["dir".toList, "real".toList], .file "x".toUTF8 (some 0o755))]⟩

/-- A write to the link, and one that leads to it through a folder that is missing. After that
    one a file is in the place of the link. -/
theorem writeEffect_writeThrough_link :
    linkedHome.Spare 7 (.ofString "lnk") ∧ linkedHome.Fits 7 (.ofString "lnk") ∧
      ¬ linkedHome.Overlooks (.ofString "lnk") ∧
      (∃ d', linkedHome.writeBytes (.ofString "lnk") "y".toUTF8 = (d', .ok ()) ∧
        linkedHome.writeThrough 7 (.ofString "lnk") "y".toUTF8 = (d', .ok ()) ∧
        Replaced linkedHome (.ofString "lnk") "y".toUTF8 d' ∧
        d'.readText (.ofString "lnk") = .ok "y") ∧
      linkedHome.IsTree ∧ linkedHome.Overlooks (.ofString "new/../lnk") ∧
      (∃ ns slash, linkedHome.route (FilePath.ofString "new/../lnk").chars = .ok (ns, slash) ∧
        above ∈ ns) ∧
      ∃ d', linkedHome.writeThrough 7 (.ofString "new/../lnk") "y".toUTF8 = (d', .ok ()) ∧
        d'.get? ["lnk".toList] = some (.file "y".toUTF8 none) := by
  have hprepare : linkedHome.prepare (.ofString "lnk") =
      (linkedHome, .ok ("/w/dir/real".toList, some 0o755)) := rfl
  have hspare : linkedHome.Spare 7 (.ofString "lnk") :=
    spare_of_temporaryAt (l := ["dir".toList, ".real.7.tmp".toList]) hprepare rfl rfl
  have hfits : linkedHome.Fits 7 (.ofString "lnk") := by
    intro d₁ path mode l n h hlanding
    rw [hprepare] at h
    obtain ⟨rfl, hpair⟩ := Prod.mk.inj h
    obtain ⟨rfl, -⟩ := Prod.mk.inj (Except.ok.inj hpair)
    have hl : ["dir".toList] ++ ["real".toList] = l ++ [n] := Except.ok.inj hlanding
    obtain ⟨-, hn⟩ := List.append_inj' hl rfl
    obtain rfl := (List.cons.inj hn).1
    decide
  have hsees : ¬ linkedHome.Overlooks (.ofString "lnk") := by
    rintro ⟨hmissing, -⟩
    have hfind : linkedHome.find true (FilePath.ofString "lnk").chars =
      .ok (["dir".toList, "real".toList], .file "x".toUTF8 (some 0o755)) := rfl
    rw [hfind] at hmissing
    exact absurd hmissing (by simp)
  have htree : linkedHome.IsTree := isTree_of_entries (by decide)
  have hoverlooks : linkedHome.Overlooks (.ofString "new/../lnk") :=
    ⟨rfl, linkedHome.set ["new".toList] .folder, "new/../lnk".toList, none, ["lnk".toList],
      .link "dir/real".toList, rfl, rfl, rfl, by simp⟩
  have hwrite : ∃ d', linkedHome.writeBytes (.ofString "lnk") "y".toUTF8 = (d', .ok ()) :=
    ⟨_, rfl⟩
  obtain ⟨d', hwrite⟩ := hwrite
  obtain ⟨heffect, hthrough, -⟩ :=
    writeEffect_writeThrough linkedHome (.ofString "lnk") "y".toUTF8
  obtain ⟨-, -, hsame⟩ := hthrough 7 hspare
  obtain ⟨-, -, hup⟩ := writeEffect_writeThrough linkedHome (.ofString "new/../lnk") "y".toUTF8
  exact ⟨hspare, hfits, hsees, ⟨d', hwrite, hsame hfits d' hwrite,
    (heffect.replaced d' hwrite).2 hsees, heffect.read d' hwrite hsees "y" rfl⟩, htree,
    hoverlooks, hup htree hoverlooks, _, rfl, rfl⟩

end Marginalia.Directory
