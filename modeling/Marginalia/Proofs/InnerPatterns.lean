import Marginalia.Proofs.PatternSteps
import Marginalia.Proofs.TagExpression

/-! # Patterns inside of patterns

    A pattern that is pasted into a group of another one is read there as it is read
    alone, if it is a pattern at all and closes its groups:

    * **`Regex.shift`**: an expression whose groups count from another number on.
    * **`Reader.within`**: the reader of a pattern inside of another pattern.
    * **`Reader.Inside`**: two readers at the same place, one of them inside of another
      pattern.
    * **`Reader.Inside.step`, `Reader.Inside.run`**: the simulation, from its step lemma.
    * **`Reader.Numbered`**: the groups of what was read have numbers that were given
      out. -/

namespace Marginalia.Regex

/-! ## Section 1: Other numbers -/

/-- The expression with `k` groups before its own. -/
def shift (k : Nat) : Regex → Regex
  | .empty          => .empty
  | .set s          => .set s
  | .look l         => .look l
  | .group i r      => .group (i + k) (r.shift k)
  | .seq r s        => .seq (r.shift k) (s.shift k)
  | .alt r s        => .alt (r.shift k) (s.shift k)
  | .rep greedy n m r => .rep greedy n m (r.shift k)

@[simp] theorem matches_shift (k : Nat) (r : Regex) : (r.shift k).Matches = r.Matches := by
  induction r with
  | empty => rfl
  | set s => rfl
  | look l => rfl
  | group i r ih => exact ih
  | seq r s ihr ihs => simp only [shift, Matches, ihr, ihs]
  | alt r s ihr ihs => simp only [shift, Matches, ihr, ihs]
  | rep greedy n m r ih => simp only [shift, Matches, ih]

@[simp] theorem groupNumbers_shift (k : Nat) (r : Regex) :
    (r.shift k).groupNumbers = r.groupNumbers.map (· + k) := by
  induction r with
  | empty => rfl
  | set s => rfl
  | look l => rfl
  | group i r ih => simp only [shift, groupNumbers, ih, List.map_cons]
  | seq r s ihr ihs => simp only [shift, groupNumbers, ihr, ihs, List.map_append]
  | alt r s ihr ihs => simp only [shift, groupNumbers, ihr, ihs, List.map_append]
  | rep greedy n m r ih => exact ih

namespace Part

/-- The part with `k` groups before its own. -/
def shift (k : Nat) (p : Part) : Part :=
  { p with expr := p.expr.map (Regex.shift k) }

variable (k : Nat)

@[simp] theorem expr_shift (p : Part) : (p.shift k).expr = p.expr.map (Regex.shift k) := rfl

@[simp] theorem toRegex_shift (p : Part) : (p.shift k).toRegex = p.toRegex.shift k := by
  cases h : p.expr <;> simp [toRegex, h, Regex.shift]

theorem repeated_shift (greedy : Bool) (min : Nat) (max : Option Nat) (p : Part) :
    (p.shift k).repeated greedy min max = (p.repeated greedy min max).map (shift k) := by
  cases h : p.expr <;> simp [repeated, h, shift, Regex.shift]

theorem grouped_shift (index : Option Nat) (p : Part) :
    (p.shift k).grouped (index.map (· + k)) = (p.grouped index).shift k := by
  cases index with
  | none =>
    rw [Option.map_none, grouped, toRegex_shift]
    rfl
  | some i =>
    rw [Option.map_some, grouped, toRegex_shift]
    rfl

/-- The expression of a sequence, given the latest first. -/
def inSequence : List Regex → Regex
  | []      => .empty
  | r :: rs => rs.foldl (fun acc r => .seq r acc) r

/-- The expression of several branches, given the latest first. -/
def inChoice (r : Regex) (ps : List Part) : Regex :=
  ps.foldl (fun acc q => .alt q.toRegex acc) r

theorem sequence_cons_cons (p q : Part) (ps : List Part) :
    sequence (p :: q :: ps) =
      ⟨some (inSequence ((p :: q :: ps).filterMap expr)),
        ((p :: q :: ps).map depth).foldl max 0 + 1, total ((p :: q :: ps).map weight)⟩ := by
  rw [sequence]
  · cases (p :: q :: ps).filterMap expr <;> rfl
  · rintro ⟨⟩
  · rintro _ ⟨⟩

theorem choice_cons_cons (p q : Part) (ps : List Part) :
    choice (p :: q :: ps) =
      ⟨some (inChoice p.toRegex (q :: ps)),
        ((p :: q :: ps).map depth).foldl max 0 + 1, total ((p :: q :: ps).map weight) + 1⟩ :=
  rfl

theorem inSequence_shift (rs : List Regex) :
    inSequence (rs.map (Regex.shift k)) = (inSequence rs).shift k := by
  cases rs with
  | nil => rfl
  | cons r rs =>
    simp only [inSequence, List.map_cons]
    induction rs generalizing r with
    | nil => rfl
    | cons s rs ih => exact ih (.seq s r)

theorem inChoice_shift (r : Regex) (ps : List Part) :
    inChoice (r.shift k) (ps.map (shift k)) = (inChoice r ps).shift k := by
  induction ps generalizing r with
  | nil => rfl
  | cons p ps ih =>
    rw [List.map_cons, inChoice, List.foldl_cons, toRegex_shift]
    exact ih (.alt p.toRegex r)

theorem map_depth_shift (ps : List Part) : (ps.map (shift k)).map depth = ps.map depth := by
  rw [List.map_map]
  rfl

theorem map_weight_shift (ps : List Part) : (ps.map (shift k)).map weight = ps.map weight := by
  rw [List.map_map]
  rfl

theorem filterMap_expr_shift (ps : List Part) :
    (ps.map (shift k)).filterMap expr = (ps.filterMap expr).map (Regex.shift k) := by
  rw [List.filterMap_map, List.map_filterMap]
  rfl

theorem sequence_shift (ps : List Part) :
    sequence (ps.map (shift k)) = (sequence ps).shift k := by
  cases ps with
  | nil => rfl
  | cons p ps =>
    cases ps with
    | nil => rfl
    | cons q ps =>
      rw [List.map_cons, List.map_cons, sequence_cons_cons, sequence_cons_cons, ← List.map_cons,
        ← List.map_cons, filterMap_expr_shift, map_depth_shift, map_weight_shift,
        inSequence_shift]
      rfl

theorem choice_shift (ps : List Part) : choice (ps.map (shift k)) = (choice ps).shift k := by
  cases ps with
  | nil => rfl
  | cons p ps =>
    cases ps with
    | nil => rfl
    | cons q ps =>
      rw [List.map_cons, List.map_cons, choice_cons_cons, choice_cons_cons, ← List.map_cons,
        ← List.map_cons, toRegex_shift, map_depth_shift, map_weight_shift, inChoice_shift]
      rfl

end Part

/-! ## Section 2: The reader of an inner pattern -/

namespace OpenGroup

/-- The group with `k` groups before those of the pattern. -/
def shift (k : Nat) (g : OpenGroup) : OpenGroup where
  index    := g.index.map (· + k)
  parts    := g.parts.map (Part.shift k)
  branches := g.branches.map (Part.shift k)
  modes    := g.modes

end OpenGroup

namespace Reader

/-- The reader `st` of a pattern that began where the reader of another pattern was `base`. -/
def within (st base : Reader) (rest : List Char) : Reader where
  modes    := st.modes
  parts    := st.parts.map (Part.shift base.groups)
  branches := st.branches.map (Part.shift base.groups)
  stack    := st.stack.map (OpenGroup.shift base.groups) ++ base.stack
  names    := (st.names.map fun (name, i) => (name, i + base.groups)) ++ base.names
  groups   := st.groups + base.groups
  rest

variable {base st st' st₁ st₁' : Reader} {rest rest' t u : List Char}

theorem current_within : (st.within base rest).current = st.current.shift base.groups := by
  rw [current, current, ← Part.choice_shift, List.map_cons, ← Part.sequence_shift]
  rfl

theorem repeatLast?_eq_some {greedy : Bool} {min : Nat} {max : Option Nat}
    (h : st.repeatLast? greedy min max rest = some st₁) :
    ∃ p ps q, st.parts = p :: ps ∧ p.repeated (greedy != st.modes.swapGreed) min max = some q ∧
      st₁ = { st with parts := q :: ps, rest } := by
  unfold repeatLast? at h
  cases hparts : st.parts with
  | nil => simp [hparts] at h
  | cons p ps =>
    rw [hparts] at h
    obtain ⟨q, hq, rfl⟩ := Option.map_eq_some_iff.1 h
    exact ⟨p, ps, q, rfl, hq, rfl⟩

theorem close?_eq_some (h : st.close? rest = some st₁) :
    ∃ g stack, st.stack = g :: stack ∧
      st₁ = { st with
        modes := g.modes, parts := Part.grouped g.index st.current :: g.parts
        branches := g.branches, stack, rest } := by
  unfold close? at h
  cases hstack : st.stack with
  | nil => simp [hstack] at h
  | cons g stack =>
    rw [hstack] at h
    exact ⟨g, stack, rfl, (Option.some.inj h).symm⟩

theorem repeatLast?_within {greedy : Bool} {min : Nat} {max : Option Nat}
    (h : st.repeatLast? greedy min max rest = some st₁) :
    (st.within base u).repeatLast? greedy min max rest' = some (st₁.within base rest') := by
  obtain ⟨p, ps, q, hparts, hq, rfl⟩ := repeatLast?_eq_some h
  simp [repeatLast?, within, hparts, Part.repeated_shift, hq]

theorem openNumbered_within :
    (st.within base u).openNumbered rest' = (st.openNumbered rest).within base rest' := by
  have hgroups : st.groups + base.groups + 1 = st.groups + 1 + base.groups := by omega
  simp only [openNumbered, within, openGroup, hgroups]
  rfl

theorem close?_within (h : st.close? rest = some st₁) :
    (st.within base u).close? rest' = some (st₁.within base rest') := by
  obtain ⟨g, stack, hstack, rfl⟩ := close?_eq_some h
  have hcurrent : (st.within base u).current = st.current.shift base.groups := current_within
  rw [close?, hcurrent]
  simp only [within, hstack, List.map_cons, List.cons_append, OpenGroup.shift, Part.grouped_shift]

theorem lookup_map_add (name : List Char) (k : Nat) (names : List (List Char × Nat)) :
    (names.map fun (name, i) => (name, i + k)).lookup name = (names.lookup name).map (· + k) := by
  induction names with
  | nil => rfl
  | cons x names ih =>
    rw [List.map_cons, List.lookup_cons, List.lookup_cons, ih]
    split <;> rfl

/-- A name in the pattern comes before one around it. -/
theorem lookup_within (name : List Char) :
    (st.within base u).names.lookup name =
      ((st.names.lookup name).map (· + base.groups)).or (base.names.lookup name) := by
  rw [within, List.lookup_append, lookup_map_add]

/-- Two readers at the same place of the same pattern, one of them inside of another
    pattern, with `t` behind it. -/
structure Inside (base : Reader) (t : List Char) (st st' : Reader) : Prop where
  rest : Onto t st.rest st'.rest
  eq   : st' = st.within base st'.rest
  /-- No group of the pattern has the name of a group around it. -/
  free : ∀ name, (base.names.lookup name).isSome → st.names.lookup name = none

/-- A named group is opened by both readers, or there would be two groups of that name. -/
theorem Inside.obey_openNamed {name : List Char} (h : Inside base t st st')
    (hrest : Onto t rest rest') (h₁ : st.obey? rest (.openNamed name) = some st₁)
    (h₁' : st'.obey? rest' (.openNamed name) = some st₁') : Inside base t st₁ st₁' := by
  obtain ⟨-, hst', hfree⟩ := h
  generalize st'.rest = v at hst'
  subst hst'
  simp only [obey?, lookup_within] at h₁ h₁'
  split at h₁
  · cases h₁
  · split at h₁'
    · cases h₁'
    · next hname =>
      cases h₁
      cases h₁'
      have hnames : ({ st.within base v with
          names := (name, (st.within base v).groups + 1) :: (st.within base v).names } : Reader) =
          within { st with names := (name, st.groups + 1) :: st.names } base v := by
        have hgroups : st.groups + base.groups + 1 = st.groups + 1 + base.groups := by omega
        simp only [within, hgroups]
        rfl
      refine ⟨hrest, hnames ▸ openNumbered_within, fun other hother => ?_⟩
      -- the new name is not one of those around the pattern
      have hne : (other == name) = false := by
        rw [beq_eq_false_iff_ne]
        rintro rfl
        obtain ⟨i, hi⟩ := Option.isSome_iff_exists.1 hother
        simp [hfree other hother, hi] at hname
      change ((name, st.groups + 1) :: st.names).lookup other = none
      rw [List.lookup_cons, hne]
      exact hfree other hother

/-- The step lemma: both obey the same command in the same way. -/
theorem Inside.obey {c : Command} (h : Inside base t st st') (hrest : Onto t rest rest')
    (h₁ : st.obey? rest c = some st₁) (h₁' : st'.obey? rest' c = some st₁') :
    Inside base t st₁ st₁' := by
  have hinside := h
  obtain ⟨-, hst', hfree⟩ := h
  generalize st'.rest = v at hst'
  subst hst'
  cases c with
  | set chars depth weight =>
    cases h₁
    cases h₁'
    exact ⟨hrest, rfl, hfree⟩
  | look l =>
    cases h₁
    cases h₁'
    exact ⟨hrest, rfl, hfree⟩
  | rep greedy min max =>
    obtain rfl := Option.some.inj ((repeatLast?_within h₁).symm.trans h₁')
    obtain ⟨p, ps, q, -, -, rfl⟩ := repeatLast?_eq_some h₁
    exact ⟨hrest, rfl, hfree⟩
  | branch =>
    cases h₁
    cases h₁'
    exact ⟨hrest, by simp only [within, List.map_cons, List.map_nil, Part.sequence_shift], hfree⟩
  | openPlain inner =>
    cases h₁
    cases h₁'
    exact ⟨hrest, rfl, hfree⟩
  | openNumbered =>
    cases h₁
    cases h₁'
    exact ⟨hrest, openNumbered_within, hfree⟩
  | openNamed name => exact hinside.obey_openNamed hrest h₁ h₁'
  | switch m =>
    cases h₁
    cases h₁'
    exact ⟨hrest, rfl, hfree⟩
  | close =>
    obtain rfl := Option.some.inj ((close?_within h₁).symm.trans h₁')
    obtain ⟨g, stack, -, rfl⟩ := close?_eq_some h₁
    exact ⟨hrest, rfl, hfree⟩

theorem Inside.step (ht : Closes t) (h : Inside base t st st') (h₁ : st.step? = some st₁)
    (h₁' : st'.step? = some st₁') : Inside base t st₁ st₁' := by
  have hmodes : st'.modes = st.modes := by rw [h.eq]; rfl
  rw [step?_eq] at h₁ h₁'
  rw [hmodes] at h₁'
  obtain ⟨⟨c, rest⟩, hcommand, h₁⟩ := Option.bind_eq_some_iff.1 h₁
  obtain ⟨rest', hcommand', hrest⟩ := frames_command? ht st.modes h.rest c rest hcommand
  rw [hcommand'] at h₁'
  exact h.obey hrest h₁ h₁'

/-! ## Section 3: Runs -/

/-- The reader at the next character that means something. -/
def skip (st : Reader) : Reader :=
  { st with rest := st.modes.skipBlank st.rest }

/-- Reads to the end of the pattern, from a character that means something. -/
def proceed? (fuel : Nat) (st : Reader) : Option Reader :=
  if st.rest.isEmpty then some st
  else
    match fuel with
    | 0 => none
    | fuel + 1 => st.step?.bind (run? fuel)

theorem run?_eq (fuel : Nat) (st : Reader) : st.run? fuel = proceed? fuel st.skip := by
  cases fuel <;> rfl

theorem Inside.skip (ht : Closes t) (h : Inside base t st st') :
    Inside base t st.skip st'.skip := by
  have hmodes : st'.modes = st.modes := by rw [h.eq]; rfl
  refine ⟨?_, ?_, h.free⟩
  · simp only [Reader.skip, hmodes]
    exact h.rest.skipBlank ht st.modes
  · rw [h.eq]
    rfl

/-- The run lemma: when the pattern ends, the other reader is at the end of the pattern
    too, and has read the same. -/
theorem Inside.run (ht : Closes t) {fuel fuel' : Nat} {last last' : Reader}
    (h : Inside base t st st') (hrun : st.run? fuel = some last)
    (hrun' : st'.run? fuel' = some last') :
    last.rest = [] ∧ ∃ mid fuel'', Inside base t last mid ∧ proceed? fuel'' mid = some last' := by
  -- on the steps of the reader that has the pattern alone, which ends first
  induction fuel generalizing fuel' st st' with
  | zero =>
    rw [run?_eq] at hrun hrun'
    unfold proceed? at hrun
    split at hrun
    · next hnil =>
      cases hrun
      exact ⟨List.isEmpty_iff.1 hnil, _, _, h.skip ht, hrun'⟩
    · cases hrun
  | succ fuel ih =>
    rw [run?_eq] at hrun hrun'
    have hskip := h.skip ht
    unfold proceed? at hrun
    split at hrun
    · next hnil =>
      cases hrun
      exact ⟨List.isEmpty_iff.1 hnil, _, _, hskip, hrun'⟩
    · next hcons =>
      obtain ⟨st₁, hstep, hrun⟩ := Option.bind_eq_some_iff.1 hrun
      -- where the pattern goes on, the other reader has to take a step too
      have hcons' : st'.skip.rest ≠ [] := by
        rw [List.isEmpty_iff] at hcons
        rw [hskip.rest.of_ne_nil hcons]
        simp [hcons]
      unfold proceed? at hrun'
      rw [if_neg (by rwa [List.isEmpty_iff])] at hrun'
      cases fuel' with
      | zero => cases hrun'
      | succ fuel' =>
        obtain ⟨st₁', hstep', hrun'⟩ := Option.bind_eq_some_iff.1 hrun'
        exact ih (hskip.step ht hstep hstep') hrun hrun'

end Reader

/-! ## Section 4: Numbers that were given out -/

namespace Part

/-- The groups of the part have numbers from 1 to `n`. -/
def UpTo (n : Nat) (p : Part) : Prop :=
  ∀ i ∈ p.toRegex.groupNumbers, 1 ≤ i ∧ i ≤ n

variable {n : Nat} {p : Part} {ps : List Part}

theorem UpTo.mono {m : Nat} (h : p.UpTo n) (hle : n ≤ m) : p.UpTo m :=
  fun i hi => ⟨(h i hi).1, Nat.le_trans (h i hi).2 hle⟩

theorem exists_of_mem_inSequence {rs : List Regex} {i : Nat}
    (h : i ∈ (inSequence rs).groupNumbers) : ∃ r ∈ rs, i ∈ r.groupNumbers := by
  cases rs with
  | nil => cases h
  | cons r rs =>
    simp only [inSequence] at h
    -- the first expression grows by every other one, so it is arbitrary
    induction rs generalizing r with
    | nil => exact ⟨r, List.mem_cons_self, h⟩
    | cons s rs ih =>
      obtain ⟨q, hq, hi⟩ := ih (.seq s r) h
      rcases List.mem_cons.1 hq with rfl | hq
      · rcases List.mem_append.1 hi with hi | hi
        · exact ⟨s, by simp, hi⟩
        · exact ⟨r, by simp, hi⟩
      · exact ⟨q, by simp [hq], hi⟩

theorem UpTo.sequence (h : ∀ p ∈ ps, p.UpTo n) : (sequence ps).UpTo n := by
  cases ps with
  | nil =>
    rintro i ⟨⟩
  | cons p ps =>
    cases ps with
    | nil => exact h p List.mem_cons_self
    | cons q ps =>
      rw [sequence_cons_cons]
      intro i hi
      obtain ⟨r, hr, hi⟩ := exists_of_mem_inSequence hi
      obtain ⟨p', hp', hr⟩ := List.mem_filterMap.1 hr
      exact h p' hp' i (by rwa [toRegex, hr])

theorem UpTo.inChoice {r : Regex} (hr : ∀ i ∈ r.groupNumbers, 1 ≤ i ∧ i ≤ n)
    (h : ∀ p ∈ ps, p.UpTo n) : ∀ i ∈ (inChoice r ps).groupNumbers, 1 ≤ i ∧ i ≤ n := by
  -- every part is put in front of the expression that the parts before it make
  induction ps generalizing r with
  | nil => exact hr
  | cons p ps ih =>
    apply ih
    · intro i hi
      rcases List.mem_append.1 hi with hi | hi
      · exact h p List.mem_cons_self i hi
      · exact hr i hi
    · exact fun q hq => h q (List.mem_cons_of_mem _ hq)

theorem UpTo.choice (h : ∀ p ∈ ps, p.UpTo n) : (choice ps).UpTo n := by
  cases ps with
  | nil =>
    rintro i ⟨⟩
  | cons p ps =>
    cases ps with
    | nil => exact h p List.mem_cons_self
    | cons q ps =>
      rw [choice_cons_cons]
      exact .inChoice (h p List.mem_cons_self) fun q hq => h q (List.mem_cons_of_mem _ hq)

theorem UpTo.grouped {index : Option Nat} (h : p.UpTo n) (hindex : ∀ i ∈ index, 1 ≤ i ∧ i ≤ n) :
    (p.grouped index).UpTo n := by
  cases index with
  | none => exact h
  | some k =>
    intro i hi
    rcases List.mem_cons.1 hi with rfl | hi
    · exact hindex i rfl
    · exact h i hi

theorem UpTo.repeated {greedy : Bool} {min : Nat} {max : Option Nat} {q : Part} (h : p.UpTo n)
    (hq : p.repeated greedy min max = some q) : q.UpTo n := by
  obtain ⟨r, hr, rfl⟩ := Option.map_eq_some_iff.1 hq
  intro i hi
  exact h i (by rwa [toRegex, hr])

end Part

namespace Reader

/-- All groups that were read have numbers that were given out. -/
structure Numbered (st : Reader) : Prop where
  parts    : ∀ p ∈ st.parts, p.UpTo st.groups
  branches : ∀ p ∈ st.branches, p.UpTo st.groups
  index    : ∀ g ∈ st.stack, ∀ i ∈ g.index, 1 ≤ i ∧ i ≤ st.groups
  outside  : ∀ g ∈ st.stack, ∀ p ∈ g.parts ++ g.branches, p.UpTo st.groups

variable {st st₁ : Reader} {rest : List Char} {c : Command}

theorem Numbered.start (pattern : List Char) : (start pattern).Numbered := by
  constructor <;> simp [Reader.start]

theorem Numbered.sequence (h : st.Numbered) : (Part.sequence st.parts).UpTo st.groups :=
  .sequence h.parts

theorem Numbered.current (h : st.Numbered) : st.current.UpTo st.groups := by
  refine .choice fun p hp => ?_
  rcases List.mem_cons.1 hp with rfl | hp
  · exact h.sequence
  · exact h.branches p hp

/-- A part without groups can be added. -/
theorem Numbered.push (h : st.Numbered) {p : Part} (hp : p.toRegex.groupNumbers = []) (m : Modes)
    (rest : List Char) : Numbered { st with modes := m, parts := p :: st.parts, rest } := by
  refine ⟨fun q hq => ?_, h.branches, h.index, h.outside⟩
  rcases List.mem_cons.1 hq with rfl | hq
  · intro i hi
    rw [hp] at hi
    cases hi
  · exact h.parts q hq

/-- A group opens with the next number, or with none. -/
theorem Numbered.openGroup (h : st.Numbered) {groups : Nat} (hle : st.groups ≤ groups)
    {index : Option Nat} (hindex : ∀ i ∈ index, 1 ≤ i ∧ i ≤ groups) (inner : Modes)
    (names : List (List Char × Nat)) (rest : List Char) :
    ({ st with groups, names }.openGroup index inner rest).Numbered := by
  refine ⟨by simp [Reader.openGroup], by simp [Reader.openGroup], fun g hg => ?_, fun g hg => ?_⟩
  · rcases List.mem_cons.1 hg with rfl | hg
    · exact hindex
    · exact fun i hi => ⟨(h.index g hg i hi).1, Nat.le_trans (h.index g hg i hi).2 hle⟩
  · rcases List.mem_cons.1 hg with rfl | hg
    · intro p hp
      rcases List.mem_append.1 hp with hp | hp
      · exact (h.parts p hp).mono hle
      · exact (h.branches p hp).mono hle
    · exact fun p hp => (h.outside g hg p hp).mono hle

theorem Numbered.obey (h : st.Numbered) (h₁ : st.obey? rest c = some st₁) : st₁.Numbered := by
  have hnext : ∀ i ∈ some (st.groups + 1), 1 ≤ i ∧ i ≤ st.groups + 1 := by
    rintro i ⟨⟩
    omega
  cases c with
  | set chars depth weight =>
    cases h₁
    exact h.push rfl st.modes rest
  | look l =>
    cases h₁
    exact h.push rfl st.modes rest
  | rep greedy min max =>
    obtain ⟨p, ps, q, hparts, hq, rfl⟩ := repeatLast?_eq_some h₁
    have hps := h.parts
    rw [hparts] at hps
    refine ⟨fun q' hq' => ?_, h.branches, h.index, h.outside⟩
    rcases List.mem_cons.1 hq' with rfl | hq'
    · exact (hps p List.mem_cons_self).repeated hq
    · exact hps q' (List.mem_cons_of_mem _ hq')
  | branch =>
    cases h₁
    refine ⟨by simp, fun p hp => ?_, h.index, h.outside⟩
    rcases List.mem_cons.1 hp with rfl | hp
    · exact h.sequence
    · exact h.branches p hp
  | openPlain inner =>
    cases h₁
    exact h.openGroup (Nat.le_refl _) (by simp) inner st.names rest
  | openNumbered =>
    cases h₁
    exact h.openGroup (Nat.le_succ _) hnext st.modes st.names rest
  | openNamed name =>
    simp only [obey?] at h₁
    split at h₁
    · cases h₁
    · cases h₁
      exact h.openGroup (Nat.le_succ _) hnext st.modes _ rest
  | switch m =>
    cases h₁
    exact h.push rfl m rest
  | close =>
    -- the group becomes a part of what is around it
    obtain ⟨g, stack, hstack, rfl⟩ := close?_eq_some h₁
    have hmem : g ∈ st.stack := hstack ▸ List.mem_cons_self
    have hof : ∀ g' ∈ stack, g' ∈ st.stack := fun g' hg' => hstack ▸ List.mem_cons_of_mem _ hg'
    refine ⟨fun p hp => ?_, fun p hp => h.outside g hmem p (List.mem_append_right _ hp),
      fun g' hg' => h.index g' (hof g' hg'), fun g' hg' => h.outside g' (hof g' hg')⟩
    rcases List.mem_cons.1 hp with rfl | hp
    · exact h.current.grouped (h.index g hmem)
    · exact h.outside g hmem p (List.mem_append_left _ hp)

theorem Numbered.skip (h : st.Numbered) : st.skip.Numbered :=
  ⟨h.parts, h.branches, h.index, h.outside⟩

theorem Numbered.run {fuel : Nat} (h : st.Numbered) (hrun : st.run? fuel = some st₁) :
    st₁.Numbered := by
  induction fuel generalizing st with
  | zero =>
    rw [run?_eq, proceed?] at hrun
    split at hrun
    · cases hrun
      exact h.skip
    · cases hrun
  | succ fuel ih =>
    rw [run?_eq, proceed?] at hrun
    split at hrun
    · cases hrun
      exact h.skip
    · obtain ⟨st₂, hstep, hrun⟩ := Option.bind_eq_some_iff.1 hrun
      rw [step?_eq] at hstep
      obtain ⟨⟨c, rest⟩, -, hobey⟩ := Option.bind_eq_some_iff.1 hstep
      exact ih (h.skip.obey hobey) hrun

end Reader

end Marginalia.Regex
