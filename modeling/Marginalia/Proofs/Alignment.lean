import Marginalia.Proofs.Settling
import Marginalia.Proofs.Tracking

/-! # Comments that stay

    The comments of a document are searched for anew whenever they are needed, with other
    tags on the lines, and with lines inserted and deleted between the two ends. All that the
    search sees is the lines that are not blank without their tags, in their order, and these
    are what adding and removing tags leave alone.

    * **`Region.Aligned`**: two lists of lines whose lines correspond, apart from blank ones.
      This is symmetric, and can be composed.
    * **`Region.Aligned.enclosing`**: corresponding lines have corresponding comments.
    * **`Document.indexAfter?`**: where a line is after a call, if it is still there.
    * **`Document.aligned_call`**: the lines before and after a call correspond in this way.
    * **`Document.carriesComments_call`**: so a line that stays keeps the comment around it,
      with its two ends where these are now.
    * **`Document.carriesComments_run`**: and does so in any run. -/

namespace Marginalia

open Text Region

/-! ## Section 1: Positions of elements that stay -/

section Positions

variable {α : Type*} {p : α → Bool} {l : List α} {i j : Nat} {a : α}

/-- An element that is kept has as many kept ones before it as it had. -/
theorem getElem?_filter_countP (ha : l[i]? = some a) (hp : p a = true) :
    (l.filter p)[(l.take i).countP p]? = some a := by
  induction l generalizing i with
  | nil => simp at ha
  | cons b l ih =>
    cases i with
    | zero =>
      obtain rfl : b = a := by simpa using ha
      simp [hp]
    | succ i =>
      have hrest := ih (by simpa using ha)
      cases hb : p b with
      | true => simpa [hb] using hrest
      | false => simpa [hb] using hrest

/-- Every element that is left comes from one. -/
theorem exists_getElem?_of_filter (h : (l.filter p)[j]? = some a) :
    ∃ i, l[i]? = some a ∧ (l.take i).countP p = j := by
  induction l generalizing j with
  | nil => simp at h
  | cons b l ih =>
    cases hb : p b with
    | false =>
      rw [List.filter_cons_of_neg (by simp [hb])] at h
      obtain ⟨i, hi, hj⟩ := ih h
      exact ⟨i + 1, by simpa using hi, by simpa [hb] using hj⟩
    | true =>
      rw [List.filter_cons_of_pos hb] at h
      cases j with
      | zero => exact ⟨0, by simpa using h, rfl⟩
      | succ j =>
        obtain ⟨i, hi, hj⟩ := ih (by simpa using h)
        exact ⟨i + 1, by simpa using hi, by simp [hb, hj]⟩

/-- Before a later element come more that are kept, this one included. -/
theorem countP_take_lt (ha : l[i]? = some a) (hp : p a = true) (hij : i < j) :
    (l.take i).countP p < (l.take j).countP p := by
  have hnext : (l.take (i + 1)).countP p = (l.take i).countP p + 1 := by
    rw [List.take_add_one, ha, List.countP_append]
    simp [hp]
  have hle : (l.take (i + 1)).countP p ≤ (l.take j).countP p :=
    ((List.take_prefix_take_left (by omega)).sublist).countP_le
  omega

end Positions

/-! ## Section 2: Lines that correspond -/

namespace Region

variable {g : Grammar}

/-- Lines that are related by `R` are the same and in the same order, and lines that are
    related to none are blank. -/
structure Aligned (R : Nat → Nat → Prop) (ts us : List (List Char)) : Prop where
  order : ∀ {i j i' j'}, R i j → R i' j' → (i < i' ↔ j < j')
  same  : ∀ {i j}, R i j → ∃ t, ts[i]? = some t ∧ us[j]? = some t
  left  : ∀ {i t}, ts[i]? = some t → allBlank t = false → ∃ j, R i j
  right : ∀ {j u}, us[j]? = some u → allBlank u = false → ∃ i, R i j

namespace Aligned

variable {R S : Nat → Nat → Prop} {ts us vs : List (List Char)} {i j : Nat}

/-- A line that is not blank stands at a position that corresponds to its own. -/
theorem exists_getElem? (h : Aligned R ts us) {t : List Char} (ht : ts[i]? = some t)
    (hvisible : allBlank t = false) : ∃ j, R i j ∧ us[j]? = some t := by
  obtain ⟨j, hij⟩ := h.left ht hvisible
  obtain ⟨u, hu, hu'⟩ := h.same hij
  obtain rfl : t = u := Option.some.inj (ht.symm.trans hu)
  exact ⟨j, hij, hu'⟩

theorem flip (h : Aligned R ts us) : Aligned (fun j i => R i j) us ts where
  order := fun hij hij' => (h.order hij hij').symm
  same := by
    intro j i hij
    obtain ⟨t, ht, hu⟩ := h.same hij
    exact ⟨t, hu, ht⟩
  left  := h.right
  right := h.left

theorem comp (h : Aligned R ts us) (h' : Aligned S us vs) :
    Aligned (fun i k => ∃ j, R i j ∧ S j k) ts vs where
  order := by
    intro i k i' k' hik hik'
    obtain ⟨j, hij, hjk⟩ := hik
    obtain ⟨j', hij', hjk'⟩ := hik'
    exact (h.order hij hij').trans (h'.order hjk hjk')
  same := by
    intro i k hik
    obtain ⟨j, hij, hjk⟩ := hik
    obtain ⟨t, ht, hu⟩ := h.same hij
    obtain ⟨u, hu', hv⟩ := h'.same hjk
    obtain rfl : t = u := Option.some.inj (hu.symm.trans hu')
    exact ⟨t, ht, hv⟩
  left := by
    intro i t ht hvisible
    obtain ⟨j, hij, hu⟩ := h.exists_getElem? ht hvisible
    obtain ⟨k, hjk⟩ := h'.left hu hvisible
    exact ⟨k, j, hij, hjk⟩
  right := by
    intro k t ht hvisible
    obtain ⟨j, hjk, hu⟩ := h'.flip.exists_getElem? ht hvisible
    obtain ⟨i, hij⟩ := h.right hu hvisible
    exact ⟨i, j, hij, hjk⟩

/-- Every line corresponds to itself. -/
theorem refl (ts : List (List Char)) : Aligned (fun i j => i < ts.length ∧ i = j) ts ts where
  order := by
    intro i j i' j' hij hij'
    rw [hij.2, hij'.2]
  same := by
    intro i j hij
    obtain ⟨hlt, rfl⟩ := hij
    exact ⟨ts[i], List.getElem?_eq_getElem hlt, List.getElem?_eq_getElem hlt⟩
  left := fun ht _ => ⟨_, (List.getElem?_eq_some_iff.1 ht).1, rfl⟩
  right := fun ht _ => ⟨_, (List.getElem?_eq_some_iff.1 ht).1, rfl⟩

/-- A blank line that is inserted moves the lines below it. -/
theorem insertIdx {k : Nat} (hk : k ≤ ts.length) :
    Aligned (fun i j => i < ts.length ∧ (if k ≤ i then i + 1 else i) = j) ts
      (ts.insertIdx k []) where
  order := by
    intro i j i' j' hij hij'
    obtain ⟨-, rfl⟩ := hij
    obtain ⟨-, rfl⟩ := hij'
    split <;> split <;> omega
  same := by
    intro i j hij
    obtain ⟨hlt, rfl⟩ := hij
    refine ⟨ts[i], List.getElem?_eq_getElem hlt, ?_⟩
    split
    · rw [List.getElem?_insertIdx_of_gt (by omega), Nat.add_sub_cancel,
        List.getElem?_eq_getElem hlt]
    · rw [List.getElem?_insertIdx_of_lt (by omega), List.getElem?_eq_getElem hlt]
  left := fun ht _ => ⟨_, (List.getElem?_eq_some_iff.1 ht).1, rfl⟩
  right := by
    intro j u hu hvisible
    have hlen : j < ts.length + 1 := by
      have hlt := (List.getElem?_eq_some_iff.1 hu).1
      rwa [List.length_insertIdx_of_le_length hk] at hlt
    rcases Nat.lt_trichotomy j k with hlt | heq | hgt
    · exact ⟨j, by omega, by rw [if_neg (by omega)]⟩
    · -- this is the line that was inserted
      subst heq
      rw [List.getElem?_insertIdx_self, if_pos hk] at hu
      rw [← Option.some.inj hu] at hvisible
      exact absurd hvisible (by decide)
    · refine ⟨j - 1, by omega, ?_⟩
      rw [if_pos (by omega)]
      omega

/-- Blank lines that are deleted move the lines below them. -/
theorem filter {α : Type*} {l : List α} {text : α → List Char} {p : α → Bool}
    (hblank : ∀ a ∈ l, p a = false → allBlank (text a) = true) :
    Aligned (fun i j => ∃ a, l[i]? = some a ∧ p a = true ∧ (l.take i).countP p = j)
      (l.map text) ((l.filter p).map text) where
  order := by
    intro i j i' j' hij hij'
    obtain ⟨a, ha, hp, rfl⟩ := hij
    obtain ⟨a', ha', hp', rfl⟩ := hij'
    refine ⟨countP_take_lt ha hp, ?_⟩
    intro hlt
    by_contra hle
    rcases Nat.lt_or_eq_of_le (Nat.le_of_not_lt hle) with hlt' | rfl
    · have := countP_take_lt ha' hp' hlt'
      omega
    · omega
  same := by
    intro i j hij
    obtain ⟨a, ha, hp, rfl⟩ := hij
    refine ⟨text a, ?_, ?_⟩
    · rw [List.getElem?_map, ha]
      rfl
    · rw [List.getElem?_map, getElem?_filter_countP ha hp]
      rfl
  left := by
    intro i t ht hvisible
    rw [List.getElem?_map] at ht
    obtain ⟨a, ha, rfl⟩ := Option.map_eq_some_iff.1 ht
    refine ⟨_, a, ha, ?_, rfl⟩
    by_contra hp
    rw [hblank a (List.mem_of_getElem? ha) (by simpa using hp)] at hvisible
    exact absurd hvisible (by decide)
  right := by
    intro j u hu _
    rw [List.getElem?_map] at hu
    obtain ⟨a, ha, rfl⟩ := Option.map_eq_some_iff.1 hu
    obtain ⟨i, hi, hcount⟩ := exists_getElem?_of_filter ha
    exact ⟨i, a, hi, (List.mem_filter.1 (List.mem_of_getElem? ha)).2, hcount⟩

/-- What holds of blank lines, and of the lines at some positions, holds of the lines at the
    positions that correspond to these. -/
theorem forall_of_forall (h : Aligned R ts us) {p : List Char → Prop} {among among' : Nat → Prop}
    (hamong : ∀ {k k'}, R k k' → among' k' → among k) (hblank : ∀ t, allBlank t = true → p t)
    (hp : ∀ k t, among k → ts[k]? = some t → p t) :
    ∀ k' u, among' k' → us[k']? = some u → p u := by
  intro k' u hk' hu
  cases hvisible : allBlank u with
  | true => exact hblank u hvisible
  | false =>
    obtain ⟨k, hkk, ht⟩ := h.flip.exists_getElem? hu hvisible
    exact hp k u (hamong hkk hk') ht

/-- The backward searches from lines that correspond end at such lines. -/
theorem lastOpener? (h : Aligned R ts us) (hij : R i j) {o : Nat} {rest : List Char}
    (ho : Region.lastOpener? g ts i = some (o, rest)) :
    ∃ o', R o o' ∧ Region.lastOpener? g us j = some (o', rest) := by
  obtain ⟨hle, ⟨t, ht, hrest⟩, hlast⟩ := lastOpener?_eq_some_iff.1 ho
  have hvisible : allBlank t = false := by
    by_contra hblank
    have hno := Grammar.not_occursIn_opener_of_allBlank (g := g) (by simpa using hblank)
    rw [afterLast?_eq_none_iff.2 hno] at hrest
    exact absurd hrest (by simp)
  obtain ⟨o', hoo, ho'⟩ := h.exists_getElem? ht hvisible
  refine ⟨o', hoo, lastOpener?_eq_some_iff.2 ⟨?_, ⟨t, ho', hrest⟩, ?_⟩⟩
  · have := h.order hij hoo
    omega
  · refine h.forall_of_forall ?_ ?_ hlast
    · intro k k' hkk hbetween
      have habove := h.order hoo hkk
      have hbelow := h.order hij hkk
      omega
    · intro v hv
      exact afterLast?_eq_none_iff.2 (Grammar.not_occursIn_opener_of_allBlank hv)

/-- The forward searches from below lines that correspond end at such lines. -/
theorem nextCloser? (h : Aligned R ts us) (hij : R i j) {c : Nat}
    (hc : Region.nextCloser? g ts (i + 1) = some c) :
    ∃ c', R c c' ∧ Region.nextCloser? g us (j + 1) = some c' := by
  obtain ⟨hle, ⟨t, ht, hcloser⟩, hfirst⟩ := nextCloser?_eq_some_iff.1 hc
  have hvisible : allBlank t = false := by
    by_contra hblank
    rw [Grammar.not_occursIn_closer_of_allBlank (by simpa using hblank)] at hcloser
    exact absurd hcloser (by decide)
  obtain ⟨c', hcc, hc'⟩ := h.exists_getElem? ht hvisible
  refine ⟨c', hcc, nextCloser?_eq_some_iff.2 ⟨(h.order hij hcc).1 hle, ⟨t, hc', hcloser⟩, ?_⟩⟩
  refine h.forall_of_forall ?_ (fun _ hv => Grammar.not_occursIn_closer_of_allBlank hv) hfirst
  intro k k' hkk hbetween
  exact ⟨(h.order hij hkk).2 hbetween.1, (h.order hkk hcc).2 hbetween.2⟩

/-- Lines that correspond have comments around them that do. -/
theorem enclosing (h : Aligned R ts us) (hij : R i j) {r : Region}
    (hr : Region.enclosing g ts i = some r) :
    ∃ r', R r.opensAt r'.opensAt ∧ R r.closesAt r'.closesAt ∧
      Region.enclosing g us j = some r' := by
  obtain ⟨rest, ho, hc, hle⟩ := enclosing_eq_some_iff.1 hr
  obtain ⟨o', hoo, ho'⟩ := h.lastOpener? hij ho
  obtain ⟨c', hcc, hc'⟩ : ∃ c', R r.closesAt c' ∧ closing? g us o' rest = some c' := by
    unfold closing? at hc ⊢
    split at hc
    · -- the comment closes on the line of its opener
      obtain hc := Option.some.inj hc
      exact ⟨o', hc ▸ hoo, by rw [if_pos ‹_›]⟩
    · obtain ⟨c', hcc, hc'⟩ := h.nextCloser? hoo hc
      exact ⟨c', hcc, by rw [if_neg ‹_›, hc']⟩
  have hle' : j ≤ c' := by
    have := h.order hcc hij
    omega
  exact ⟨⟨o', c'⟩, hoo, hcc, enclosing_eq_some_iff.2 ⟨rest, ho', hc', hle'⟩⟩

end Aligned

end Region

/-! ## Section 3: Lines before and after a call -/

namespace Document

variable {g : Grammar} {d : Document}

/-- Where line `i`, counted from zero, is after some tags were removed, unless it went with
    them. -/
def indexLeft? (g : Grammar) (d : Document) (sel : Selector) (i : Nat) : Option Nat :=
  (d.lines[i]?).bind fun l => (l.strip g sel).1.map fun _ => d.renumber g sel (i + 1) - 1

/-- Where line `i`, counted from zero, is after a call, if it is still there. -/
def indexAfter? (g : Grammar) (d : Document) : Call → Nat → Option Nat
  | .add r, i =>
    if i < d.length then
      match d.addTags g r.identifier r.start r.stop with
      | .error _    => some i
      | .ok (_, p) => some (p.renumber (i + 1) - 1)
    else none
  | .remove identifier, i => d.indexLeft? g (.exactly identifier) i
  | .clear, i => d.indexLeft? g .any i

/-- Where line `i` is after some calls, if it is still there. -/
def indexAfterAll? (g : Grammar) (d : Document) : List Call → Nat → Option Nat
  | [], i      => if i < d.length then some i else none
  | c :: cs, i => (d.indexAfter? g c i).bind ((d.call g c).indexAfterAll? g cs)

/-- The lines of `d` that are lines of `d'`, under the numbers that `m` says, are the same
    without their tags. There is a comment around one of them in both documents or in
    neither, and its first and last line are the same. -/
def CarriesComments (g : Grammar) (m : Nat → Option Nat) (d d' : Document) : Prop :=
  ∀ i j, m i = some j →
    (∃ t, (d.untagged g)[i]? = some t ∧ (d'.untagged g)[j]? = some t) ∧
    (d'.enclosing g j = none ↔ d.enclosing g i = none) ∧
    ∀ r, d.enclosing g i = some r → ∃ o c, m r.opensAt = some o ∧ m r.closesAt = some c ∧
      d'.enclosing g j = some ⟨o, c⟩

/-- A line that stays is found where the lines that stay above it leave it. -/
theorem indexLeft?_eq_some_iff {sel : Selector} {i j : Nat} :
    d.indexLeft? g sel i = some j ↔
      ∃ l, d.lines[i]? = some l ∧ (l.strip g sel).1.isSome = true ∧
        (d.lines.take i).countP (fun l => (l.strip g sel).1.isSome) = j := by
  unfold indexLeft?
  rw [Option.bind_eq_some_iff]
  constructor
  · intro h
    obtain ⟨l, hl, h⟩ := h
    obtain ⟨m, hm, rfl⟩ := Option.map_eq_some_iff.1 h
    have hlt := (List.getElem?_eq_some_iff.1 hl).1
    refine ⟨l, hl, by rw [hm]; rfl, ?_⟩
    rw [renumber_succ (Nat.le_of_lt hlt), Nat.add_sub_cancel]
  · intro h
    obtain ⟨l, hl, hsome, rfl⟩ := h
    have hlt := (List.getElem?_eq_some_iff.1 hl).1
    obtain ⟨m, hm⟩ := Option.isSome_iff_exists.1 hsome
    refine ⟨l, hl, Option.map_eq_some_iff.2 ⟨m, hm, ?_⟩⟩
    rw [renumber_succ (Nat.le_of_lt hlt), Nat.add_sub_cancel]

/-- A line that stays has the same text without its tags, and one that goes is blank. -/
theorem untagged_strip (hg : g.Unmarked) {sel : Selector} (hsel : sel.TakesWhole g) {l : Line}
    (hl : l.IsAnnotated g) :
    (∃ m, (l.strip g sel).1 = some m ∧ g.untagged m.text = g.untagged l.text) ∨
      ((l.strip g sel).1 = none ∧ allBlank (g.untagged l.text) = true) := by
  obtain ⟨n, rfl⟩ := Line.isAnnotated_iff.1 hl
  rcases Line.strip_cases hsel n with ⟨m, hm, hown, -, -⟩ | ⟨hnone, hblank, -⟩
  · refine .inl ⟨m.line, hm, ?_⟩
    rw [Annotated.line_text, Annotated.line_text, m.untagged_text hg, n.untagged_text hg, hown]
  · refine .inr ⟨hnone, ?_⟩
    rw [Annotated.line_text, n.untagged_text hg]
    exact hblank

/-- What is left are the lines that stay, as far as the search for comments can see. -/
theorem untagged_remove (hg : g.Unmarked) {sel : Selector} (hsel : sel.TakesWhole g)
    (hd : ∀ l ∈ d.lines, l.IsAnnotated g) :
    (d.remove g sel).1.untagged g =
      (d.lines.filter fun l => (l.strip g sel).1.isSome).map fun l => g.untagged l.text := by
  simp only [untagged, texts, remove, List.filterMap_map, List.map_map, Function.comp_def]
  generalize d.lines = ls at hd ⊢
  induction ls with
  | nil => rfl
  | cons l ls ih =>
    have hrest := ih fun l' hl' => hd l' (List.mem_cons_of_mem _ hl')
    rcases untagged_strip hg hsel (hd l List.mem_cons_self) with ⟨m, hm, htext⟩ | ⟨hnone, -⟩
    · simp [hm, htext, hrest]
    · simp [hnone, hrest]

/-- Removing tags leaves the lines that are not blank without their tags. -/
theorem aligned_remove (hg : g.Unmarked) {sel : Selector} (hsel : sel.TakesWhole g)
    (hd : ∀ l ∈ d.lines, l.IsAnnotated g) :
    Aligned (fun i j => d.indexLeft? g sel i = some j) (d.untagged g)
      ((d.remove g sel).1.untagged g) := by
  have hblank : ∀ l ∈ d.lines, (l.strip g sel).1.isSome = false →
      allBlank (g.untagged l.text) = true := by
    intro l hl hgone
    rcases untagged_strip hg hsel (hd l hl) with ⟨m, hm, -⟩ | ⟨-, hblank⟩
    · exact absurd hgone (by simp [hm])
    · exact hblank
  have haligned := Aligned.filter hblank
  rw [← untagged_remove hg hsel hd] at haligned
  have htexts : d.untagged g = d.lines.map fun l => g.untagged l.text := List.map_map
  rw [htexts]
  simpa only [indexLeft?_eq_some_iff] using haligned

/-- Adding tags moves lines to where the placement says. -/
theorem aligned_addTags (hg : g.Unmarked) (hd : ∀ l ∈ d.lines, l.IsAnnotated g) {d' : Document}
    {identifier : List Char} {start stop : Nat} {p : Placement}
    (h : d.addTags g identifier start stop = .ok (d', p)) :
    Aligned (fun i j => i < d.length ∧ p.renumber (i + 1) - 1 = j) (d.untagged g)
      (d'.untagged g) := by
  obtain ⟨ns, hns⟩ := exists_shows hd
  obtain ⟨hid, hpos, hle, hlen, rfl, rfl⟩ := addTags_eq_ok h
  have hs : (d.site g start stop).Fits g d := site_fits g (by omega) hle hlen
  rw [hs.untagged_write hg hns hid, hs.document]
  generalize d.site g start stop = s at hs ⊢
  unfold Placement.renumber
  cases hb : s.blankInserted with
  | false =>
    have haligned := Aligned.refl (d.untagged g)
    simpa using haligned
  | true =>
    -- the numbers of lines count from one, and so do those in the placement
    have hshift : ∀ i, (if s.start + 1 ≤ i + 1 then i + 1 + 1 else i + 1) - 1 =
        if s.start ≤ i then i + 1 else i := by
      intro i
      split <;> split <;> omega
    have hk : s.start ≤ (d.untagged g).length := by
      rw [length_untagged]
      exact hs.start_le hb
    have haligned := Aligned.insertIdx hk
    rw [if_pos rfl, untagged_insertBlank]
    simpa only [true_and, hshift, length_untagged] using haligned

/-- Adding and removing tags leaves the lines that are not blank without their tags, where
    the numbering says. -/
theorem aligned_call (hg : g.Unmarked) (hd : ∀ l ∈ d.lines, l.IsAnnotated g) (c : Call) :
    Aligned (fun i j => d.indexAfter? g c i = some j) (d.untagged g)
      ((d.call g c).untagged g) := by
  cases c with
  | add r =>
    cases h : d.addTags g r.identifier r.start r.stop with
    | error fault =>
      have haligned := Aligned.refl (d.untagged g)
      simpa [call, indexAfter?, h] using haligned
    | ok result =>
      have haligned := aligned_addTags hg hd h
      simpa [call, indexAfter?, h] using haligned
  | remove identifier => exact aligned_remove hg (Selector.takesWhole_exactly hg identifier) hd
  | clear => exact aligned_remove hg (Selector.takesWhole_any hg) hd

/-- Every call leaves lines with tags behind them. -/
theorem isAnnotated_call (hg : g.Unmarked) (hd : ∀ l ∈ d.lines, l.IsAnnotated g) (c : Call) :
    ∀ l ∈ (d.call g c).lines, l.IsAnnotated g := by
  obtain ⟨ns, hns⟩ := exists_shows hd
  cases c with
  | add r =>
    cases h : d.addTags g r.identifier r.start r.stop with
    | error fault =>
      simp only [call, h]
      exact hd
    | ok result =>
      obtain ⟨ms, hms, -⟩ := addTags_edited hg hns h
      simp only [call, h, hms]
      exact (shows_withLines d ms).isAnnotated
  | remove identifier =>
    obtain ⟨ms, hms, -⟩ := exists_shed_of_remove (Selector.takesWhole_exactly hg identifier) hns
    exact hms.isAnnotated
  | clear =>
    obtain ⟨ms, hms, -⟩ := exists_shed_of_remove (Selector.takesWhole_any hg) hns
    exact hms.isAnnotated

theorem aligned_run (hg : g.Unmarked) (hd : ∀ l ∈ d.lines, l.IsAnnotated g) (cs : List Call) :
    Aligned (fun i j => d.indexAfterAll? g cs i = some j) (d.untagged g)
      ((d.run g cs).untagged g) := by
  induction cs generalizing d with
  | nil =>
    have haligned := Aligned.refl (d.untagged g)
    simpa [indexAfterAll?] using haligned
  | cons c cs ih =>
    have haligned := (aligned_call hg hd c).comp (ih (isAnnotated_call hg hd c))
    simpa only [indexAfterAll?, Option.bind_eq_some_iff, run_cons] using haligned

/-! ## Section 4: Comments before and after -/

/-- Documents whose lines correspond have the same comments. -/
theorem carriesComments_of_aligned {m : Nat → Option Nat} {d' : Document}
    (h : Aligned (fun i j => m i = some j) (d.untagged g) (d'.untagged g)) :
    d.CarriesComments g m d' := by
  intro i j hij
  refine ⟨h.same hij, ?_, ?_⟩
  · constructor
    · intro hnone
      by_contra hsome
      obtain ⟨r, hr⟩ := Option.ne_none_iff_exists'.1 hsome
      obtain ⟨r', -, -, hr'⟩ := h.enclosing hij hr
      exact absurd (hnone.symm.trans hr') (by simp)
    · intro hnone
      by_contra hsome
      obtain ⟨r', hr'⟩ := Option.ne_none_iff_exists'.1 hsome
      obtain ⟨r, -, -, hr⟩ := h.flip.enclosing hij hr'
      exact absurd (hnone.symm.trans hr) (by simp)
  · intro r hr
    obtain ⟨r', ho, hc, hr'⟩ := h.enclosing hij hr
    exact ⟨r'.opensAt, r'.closesAt, ho, hc, hr'⟩

/-- Whether tags are added or removed, each line that stays has the comment around it that
    it had, or none if it had none. -/
theorem carriesComments_call (hg : g.Unmarked) (hd : ∀ l ∈ d.lines, l.IsAnnotated g)
    (c : Call) : d.CarriesComments g (d.indexAfter? g c) (d.call g c) :=
  carriesComments_of_aligned (aligned_call hg hd c)

/-- A line inside of a comment goes with its tag. -/
theorem carriesComments_call_line_between :
    let d := parse "/* a\n/*-?|x|?~*/\n*/ g();\n".toList
    d.indexAfter? .standard (.remove ['x']) 2 = some 1 ∧
      d.enclosing .standard 2 = some ⟨0, 2⟩ ∧
      (d.call .standard (.remove ['x'])).enclosing .standard 1 = some ⟨0, 1⟩ := by
  have hd : ∀ l ∈ (parse "/* a\n/*-?|x|?~*/\n*/ g();\n".toList).lines,
      l.IsAnnotated .standard := by
    intro l hl
    by_cases htag : l = ⟨"/*-?|x|?~*/".toList, .lf⟩
    · subst htag
      exact ⟨[], [⟨['x'], .single, true⟩], by decide, by decide, by decide⟩
    · exact ⟨l.text, [], by revert l; decide, by simp, by simp⟩
  have hindex : (parse "/* a\n/*-?|x|?~*/\n*/ g();\n".toList).indexAfter? .standard
      (.remove ['x']) 2 = some 1 := by decide
  obtain ⟨-, -, hcomment⟩ := carriesComments_call (by decide) hd (.remove ['x']) 2 1 hindex
  obtain ⟨o, c, ho, hc, hafter⟩ := hcomment ⟨0, 2⟩ (by decide)
  obtain rfl : 0 = o := Option.some.inj ho
  obtain rfl : 1 = c := Option.some.inj hc
  exact ⟨hindex, by decide, hafter⟩

/-- The same is true of any number of calls. -/
theorem carriesComments_run (hg : g.Unmarked) (hd : ∀ l ∈ d.lines, l.IsAnnotated g)
    (cs : List Call) : d.CarriesComments g (d.indexAfterAll? g cs) (d.run g cs) :=
  carriesComments_of_aligned (aligned_run hg hd cs)

end Document

end Marginalia
