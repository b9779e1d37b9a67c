import Marginalia.Proofs.Pairing
import Marginalia.Proofs.RemovalOrder

/-! # Tracking tagged ranges

    Whoever tags lines is told where the tags stand, and can keep count from then on: a
    blank line that is inserted moves the lines below it down, and a line that is deleted
    with its tags moves them up. The listing of a document agrees with such a list.

    * **`Placement.renumber`**, **`Document.renumber`**: the number of a line after tags
      were added or removed.
    * **`Document.trackAll`**: the ranges that somebody knows of who saw all calls.
    * **`Annotated.tagsFrom`**: the tags of annotated lines, with their numbers.
    * **`Document.Tracked`**: for each identifier, the known range has the tags that stand
      in the document. Every call preserves this.
    * **`Document.listing_run`**: after any run, the known ranges are what is listed. -/

namespace Marginalia

/-! ## Section 1: Keeping count -/

/-- The range with other numbers for its lines. -/
def TaggedRange.renumber (f : Nat → Nat) (r : TaggedRange) : TaggedRange :=
  ⟨r.identifier, f r.startLine, f r.endLine⟩

/-- The occurrence with another number for its line. -/
def Occurrence.renumber (f : Nat → Nat) (o : Occurrence) : Occurrence :=
  ⟨o.tag, f o.line⟩

/-- Renumbering does not change identifiers. -/
theorem TaggedRange.filter_map_renumber (f : Nat → Nat) (rs : List TaggedRange)
    (identifier : List Char) :
    (rs.map (TaggedRange.renumber f)).filter (fun r => r.identifier = identifier) =
      (rs.filter fun r => r.identifier = identifier).map (TaggedRange.renumber f) :=
  List.filter_map

theorem Occurrence.filter_map_renumber (f : Nat → Nat) (os : List Occurrence)
    (identifier : List Char) :
    (os.map (Occurrence.renumber f)).filter (fun o => o.tag.identifier = identifier) =
      (os.filter fun o => o.tag.identifier = identifier).map (Occurrence.renumber f) :=
  List.filter_map

/-- The number of a line after tags were added, perhaps with a blank line for the first
    of them. -/
def Placement.renumber (p : Placement) (line : Nat) : Nat :=
  if p.blankInserted ∧ p.startLine ≤ line then line + 1 else line

namespace Document

/-- The number of a line after some tags were removed, and with them lines above it. -/
def renumber (g : Grammar) (d : Document) (sel : Selector) (line : Nat) : Nat :=
  line - (d.lines.take (line - 1)).countP fun l => (l.strip g sel).1.isNone

/-- The ranges that are known of after a call, if `rs` were known of before. -/
def track (g : Grammar) (d : Document) (rs : List TaggedRange) : Call → List TaggedRange
  | .add r =>
    match d.addTags g r.identifier r.start r.stop with
    | .error _    => rs
    | .ok (_, p) => rs.map (.renumber p.renumber) ++ [⟨r.identifier, p.startLine, p.endLine⟩]
  | .remove identifier =>
    (rs.filter fun r => r.identifier ≠ identifier).map
      (.renumber (d.renumber g (.exactly identifier)))
  | .clear => []

/-- The ranges that are known of after some calls, if `rs` were known of before. -/
def trackAll (g : Grammar) (d : Document) (rs : List TaggedRange) : List Call → List TaggedRange
  | []      => rs
  | c :: cs => (d.call g c).trackAll g (d.track g rs c) cs

/-- A call that adds tags does so with an identifier that no tag has. -/
def AddsNew (g : Grammar) (d : Document) : Call → Prop
  | .add r => ∀ o ∈ d.occurrences g, o.tag.identifier ≠ r.identifier
  | _      => True

/-- Whenever tags are added, no tag has their identifier. -/
def AddsOnlyNew (g : Grammar) (d : Document) : List Call → Prop
  | []      => True
  | c :: cs => d.AddsNew g c ∧ (d.call g c).AddsOnlyNew g cs

instance (g : Grammar) (d : Document) (c : Call) : Decidable (d.AddsNew g c) :=
  match c with
  | .add r    => inferInstanceAs (Decidable (∀ o ∈ d.occurrences g, o.tag.identifier ≠ r.identifier))
  | .remove _ => inferInstanceAs (Decidable True)
  | .clear    => inferInstanceAs (Decidable True)

instance decidableAddsOnlyNew (g : Grammar) : (d : Document) → (cs : List Call) →
    Decidable (d.AddsOnlyNew g cs)
  | _, []      => inferInstanceAs (Decidable True)
  | d, c :: cs =>
    have := decidableAddsOnlyNew g (d.call g c) cs
    inferInstanceAs (Decidable (d.AddsNew g c ∧ (d.call g c).AddsOnlyNew g cs))

end Document

/-- Renumbering keeps the tags of a range with it. -/
theorem Marked.renumber {rs : List TaggedRange} {os : List Occurrence} (h : Marked rs os)
    (f : Nat → Nat) : Marked (rs.map (.renumber f)) (os.map (.renumber f)) := by
  cases h with
  | none => exact .none
  | single identifier line cleanup => exact .single identifier (f line) cleanup
  | ends identifier start stop cleanup => exact .ends identifier (f start) (f stop) cleanup

/-! ## Section 2: The tags of numbered lines -/

namespace Annotated

variable {g : Grammar} {ns : List (Annotated g)}

/-- The tags of some lines, the first of which has number `k`. -/
def tagsFrom : Nat → List (Annotated g) → List Occurrence
  | _, []      => []
  | k, n :: ns => n.tags.map (fun t => ⟨t, k⟩) ++ tagsFrom (k + 1) ns

theorem le_line_of_mem_tagsFrom {k : Nat} {o : Occurrence} (h : o ∈ tagsFrom k ns) :
    k ≤ o.line := by
  induction ns generalizing k with
  | nil => exact absurd h List.not_mem_nil
  | cons n ns ih =>
    rcases List.mem_append.1 h with h | h
    · obtain ⟨t, -, rfl⟩ := List.mem_map.1 h
      exact Nat.le_refl k
    · have := ih h
      omega

theorem line_lt_of_mem_tagsFrom {k : Nat} {o : Occurrence} (h : o ∈ tagsFrom k ns) :
    o.line < k + ns.length := by
  induction ns generalizing k with
  | nil => exact absurd h List.not_mem_nil
  | cons n ns ih =>
    rw [List.length_cons]
    rcases List.mem_append.1 h with h | h
    · obtain ⟨t, -, rfl⟩ := List.mem_map.1 h
      simp only
      omega
    · have := ih h
      omega

theorem tagsFrom_eq_nil (h : ns.flatMap tags = []) (k : Nat) : tagsFrom k ns = [] := by
  induction ns generalizing k with
  | nil => rfl
  | cons n ns ih =>
    rw [List.flatMap_cons, List.append_eq_nil_iff] at h
    simp [tagsFrom, h.1, ih h.2]

theorem tagsFrom_succ (k : Nat) (ns : List (Annotated g)) :
    tagsFrom (k + 1) ns = (tagsFrom k ns).map (.renumber (· + 1)) := by
  induction ns generalizing k with
  | nil => rfl
  | cons n ns ih => simp [tagsFrom, ih, Occurrence.renumber, Function.comp_def]

/-- An empty line moves the lines below it down. -/
theorem tagsFrom_insertIdx_blank {k i : Nat} (hi : i ≤ ns.length) (e : LineEnding) :
    tagsFrom k (ns.insertIdx i (blank g e)) =
      (tagsFrom k ns).map (.renumber fun line => if k + i ≤ line then line + 1 else line) := by
  induction ns generalizing k i with
  | nil =>
    obtain rfl : i = 0 := by simpa using hi
    rfl
  | cons n ns ih =>
    cases i with
    | zero =>
      -- all lines are below it
      rw [List.insertIdx_zero, tagsFrom, tags_blank, List.map_nil, List.nil_append, tagsFrom_succ]
      apply List.map_congr_left
      intro o ho
      have hle := le_line_of_mem_tagsFrom ho
      simp [Occurrence.renumber, hle]
    | succ i =>
      have hrest := ih (k := k + 1) (i := i) (by simpa using hi)
      have hshift : ∀ line, k + 1 + i ≤ line ↔ k + (i + 1) ≤ line := by
        intro line
        omega
      simp only [hshift] at hrest
      rw [List.insertIdx_succ_cons, tagsFrom, hrest, tagsFrom, List.map_append, List.map_map]
      simp [Occurrence.renumber, Function.comp_def]

/-- A tag stands behind those of its line and of the lines above it. -/
theorem tagsFrom_modify {k i : Nat} (hi : i < ns.length) {t : Tag}
    (ht : g.identifierFault? t.identifier = none) :
    tagsFrom k (ns.modify i fun n => n.annotate t ht) =
      (tagsFrom k ns).filter (fun o => o.line ≤ k + i) ++
        ⟨t, k + i⟩ :: (tagsFrom k ns).filter fun o => k + i < o.line := by
  induction ns generalizing k i with
  | nil => simp at hi
  | cons n ns ih =>
    cases i with
    | zero =>
      have habove : (tagsFrom (k + 1) ns).filter (fun o => o.line ≤ k) = [] := by
        rw [List.filter_eq_nil_iff]
        intro o ho
        have := le_line_of_mem_tagsFrom ho
        simp only [decide_eq_true_eq]
        omega
      have hbelow : (tagsFrom (k + 1) ns).filter (fun o => k < o.line) = tagsFrom (k + 1) ns := by
        rw [List.filter_eq_self]
        intro o ho
        exact decide_eq_true (le_line_of_mem_tagsFrom ho)
      simp [tagsFrom, habove, hbelow, List.filter_map, Function.comp_def]
    | succ i =>
      have hrest := ih (k := k + 1) (i := i) (by simpa using hi)
      have hadd : k + 1 + i = k + (i + 1) := by omega
      rw [hadd] at hrest
      rw [List.modify_succ_cons, tagsFrom, hrest, tagsFrom]
      simp [List.filter_map, Function.comp_def]

/-- A tag is none of another identifier. -/
theorem filter_tagsFrom_modify_of_ne (k i : Nat) {t : Tag}
    (ht : g.identifierFault? t.identifier = none) {identifier : List Char}
    (hne : t.identifier ≠ identifier) :
    (tagsFrom k (ns.modify i fun n => n.annotate t ht)).filter
        (fun o => o.tag.identifier = identifier) =
      (tagsFrom k ns).filter fun o => o.tag.identifier = identifier := by
  induction ns generalizing k i with
  | nil => simp
  | cons n ns ih =>
    cases i with
    | zero => simp [tagsFrom, hne]
    | succ i => simp [tagsFrom, ih]

/-- Lines go when their tags do, and the lines below them move up. -/
theorem tagsFrom_filterMap_strip? (p : Tag → Bool) (k j : Nat) (ns : List (Annotated g)) :
    tagsFrom k (ns.filterMap (strip? p)) =
      ((tagsFrom j ns).filter fun o => !p o.tag).map
        (.renumber fun line => k + (ns.take (line - j)).countP fun n => (n.strip? p).isSome) := by
  induction ns generalizing k j with
  | nil => rfl
  | cons n ns ih =>
    -- the lines of the rest are below the first one
    have hbelow : ∀ o ∈ (tagsFrom (j + 1) ns).filter (fun o => !p o.tag),
        (n :: ns).take (o.line - j) = n :: ns.take (o.line - (j + 1)) := by
      intro o ho
      have hle := le_line_of_mem_tagsFrom (List.mem_filter.1 ho).1
      obtain ⟨m, hm⟩ : ∃ m, o.line = j + 1 + m := Nat.exists_eq_add_of_le hle
      have hsub : o.line - j = m + 1 := by omega
      have hsub' : o.line - (j + 1) = m := by omega
      rw [hsub, hsub', List.take_succ_cons]
    rw [tagsFrom, List.filter_append, List.map_append]
    cases hs : n.strip? p with
    | some m =>
      obtain rfl := eq_without_of_strip?_eq_some hs
      rw [List.filterMap_cons_some hs, tagsFrom, ih (k + 1) (j + 1)]
      congr 1
      · simp [without, List.filter_map, Occurrence.renumber, Function.comp_def]
      · apply List.map_congr_left
        intro o ho
        simp only [Occurrence.renumber, hbelow o ho, List.countP_cons, hs, Option.isSome_some,
          if_true, Occurrence.mk.injEq, true_and]
        omega
    | none =>
      have hall := (strip?_eq_none_iff.1 hs).2.2
      have hnone : (n.tags.map fun t => (⟨t, j⟩ : Occurrence)).filter (fun o => !p o.tag) = [] := by
        rw [List.filter_eq_nil_iff]
        intro o ho
        obtain ⟨t, ht, rfl⟩ := List.mem_map.1 ho
        simp [hall t ht]
      rw [List.filterMap_cons_none hs, ih k (j + 1), hnone, List.map_nil, List.nil_append]
      apply List.map_congr_left
      intro o ho
      simp [Occurrence.renumber, hbelow o ho, hs]

end Annotated

theorem Annotated.flatMap_zipIdx_eq_tagsFrom {g : Grammar} (k : Nat) (ns : List (Annotated g)) :
    ((ns.zipIdx k).flatMap fun m => m.1.tags.map fun t => (⟨t, m.2⟩ : Occurrence)) =
      tagsFrom k ns := by
  induction ns generalizing k with
  | nil => rfl
  | cons n ns ih => simp [tagsFrom, ← ih]

theorem Document.Shows.occurrences_eq_tagsFrom {g : Grammar} (hg : g.Unmarked) {d : Document}
    {ns : List (Annotated g)} (h : d.Shows ns) : d.occurrences g = Annotated.tagsFrom 1 ns :=
  (h.occurrences hg).trans (Annotated.flatMap_zipIdx_eq_tagsFrom 1 ns)

/-! ## Section 3: Adding tags -/

namespace Site

open Annotated

variable {g : Grammar} {identifier : List Char} {s : Site} {d : Document}
  {ns : List (Annotated g)}

/-- The line for the start tag moves the lines below it down. -/
theorem Fits.tagsFrom_opened (hs : s.Fits g d) (hd : d.Shows ns) (e : LineEnding) {p : Placement}
    (hstart : p.startLine = s.start + 1) (hblank : p.blankInserted = s.blankInserted) :
    tagsFrom 1 (s.opened e ns) = (tagsFrom 1 ns).map (.renumber p.renumber) := by
  have hle := hs.start_le
  rw [hd.length] at hle
  unfold opened Placement.renumber
  rw [hblank, hstart]
  cases hb : s.blankInserted with
  | true =>
    simp only [if_true, true_and]
    rw [tagsFrom_insertIdx_blank (hle hb) e, Nat.add_comm 1]
  | false =>
    simp only [Bool.false_eq_true, if_false, false_and]
    exact (List.map_id _).symm

theorem Fits.stop_lt_length_opened (hs : s.Fits g d) (hd : d.Shows ns) (e : LineEnding) :
    s.stop < (s.opened e ns).length := by
  have hlt := hs.lt
  have hle := hs.start_le
  rw [hd.length] at hlt hle
  unfold opened
  cases hb : s.blankInserted with
  | true =>
    rw [if_pos rfl, List.length_insertIdx_of_le_length (hle hb)]
    simpa [hb] using hlt
  | false => simpa [hb] using hlt

/-- The tags of other identifiers are those that were there. -/
theorem filter_tagsFrom_placed_of_ne (s : Site) (e : LineEnding)
    (hid : g.identifierFault? identifier = none) {other : List Char} (hne : identifier ≠ other) :
    (tagsFrom 1 (s.placed e hid ns)).filter (fun o => o.tag.identifier = other) =
      (tagsFrom 1 (s.opened e ns)).filter fun o => o.tag.identifier = other := by
  unfold placed
  split
  · exact filter_tagsFrom_modify_of_ne 1 _ hid hne
  · exact (filter_tagsFrom_modify_of_ne 1 _ hid hne).trans
      (filter_tagsFrom_modify_of_ne 1 _ hid hne)

/-- The tags of a new identifier are those of one range. -/
theorem marked_placed (hle : s.start ≤ s.stop) {e : LineEnding}
    (hlt : s.stop < (s.opened e ns).length) (hid : g.identifierFault? identifier = none)
    (hnew : (tagsFrom 1 (s.opened e ns)).filter (fun o => o.tag.identifier = identifier) = []) :
    Marked [⟨identifier, s.start + 1, s.stop + 1⟩]
      ((tagsFrom 1 (s.placed e hid ns)).filter fun o => o.tag.identifier = identifier) := by
  -- one more tag, where the others of the identifier are known
  have hmodify : ∀ {ms : List (Annotated g)} {i : Nat} {t : Tag} (hi : i < ms.length)
      (ht : g.identifierFault? t.identifier = none), t.identifier = identifier →
      (tagsFrom 1 (ms.modify i fun n => n.annotate t ht)).filter
          (fun o => o.tag.identifier = identifier) =
        ((tagsFrom 1 ms).filter fun o => o.tag.identifier = identifier).filter
            (fun o => o.line ≤ i + 1) ++
          ⟨t, i + 1⟩ :: ((tagsFrom 1 ms).filter fun o => o.tag.identifier = identifier).filter
            fun o => i + 1 < o.line := by
    intro ms i t hi ht hidentifier
    rw [tagsFrom_modify hi ht, Nat.add_comm 1 i]
    simp [hidentifier, List.filter_filter, Bool.and_comm]
  unfold placed
  split
  · next heq =>
    rw [hmodify (by omega) hid rfl, hnew, ← heq]
    exact .single identifier (s.start + 1) s.blankInserted
  · next hne =>
    rw [hmodify (by rw [List.length_modify]; omega) hid rfl, hmodify hlt hid rfl, hnew]
    have hbelow : s.start < s.stop := by omega
    have habove : ¬ s.stop ≤ s.start := by omega
    simpa [hbelow, habove] using
      Marked.ends identifier (s.start + 1) (s.stop + 1) s.blankInserted

end Site

/-! ## Section 4: Runs -/

namespace Document

open Annotated

variable {g : Grammar} {d d' : Document} {rs : List TaggedRange}

/-- The lines of the document can be told from their tags, and the tags are those of the
    ranges that are known of. -/
def Tracked (g : Grammar) (d : Document) (rs : List TaggedRange) : Prop :=
  ∃ ns : List (Annotated g), d.Shows ns ∧ Marks rs (tagsFrom 1 ns)

theorem Tracked.marks (hg : g.Unmarked) (h : d.Tracked g rs) : Marks rs (d.occurrences g) := by
  obtain ⟨ns, hd, hmarks⟩ := h
  rw [hd.occurrences_eq_tagsFrom hg]
  exact hmarks

/-- Tags of a new identifier mark a new range. -/
theorem Tracked.addTags (hg : g.Unmarked) (h : d.Tracked g rs) {identifier : List Char}
    (hnew : ∀ o ∈ d.occurrences g, o.tag.identifier ≠ identifier) {start stop : Nat}
    {p : Placement} (hadd : d.addTags g identifier start stop = .ok (d', p)) :
    d'.Tracked g (rs.map (.renumber p.renumber) ++ [⟨identifier, p.startLine, p.endLine⟩]) := by
  obtain ⟨ns, hd, hmarks⟩ := h
  obtain ⟨s, hid, hs, hstart, hend, hblank, rfl, -⟩ := addTags_placed hg hd hadd
  refine ⟨_, shows_withLines d _, fun other => ?_⟩
  have hopened := hs.tagsFrom_opened hd (d.endingAt s.start) hstart hblank
  have hother := (hmarks other).renumber p.renumber
  rw [List.filter_append, TaggedRange.filter_map_renumber]
  by_cases hne : identifier = other
  · -- there was neither a tag nor a range
    subst hne
    have hnone : (tagsFrom 1 ns).filter (fun o => o.tag.identifier = identifier) = [] := by
      rw [List.filter_eq_nil_iff, ← hd.occurrences_eq_tagsFrom hg]
      intro o ho
      simpa using hnew o ho
    have hrs := (hmarks identifier).eq_nil_iff.2 hnone
    have hnone' : (tagsFrom 1 (s.opened (d.endingAt s.start) ns)).filter
        (fun o => o.tag.identifier = identifier) = [] := by
      rw [hopened, Occurrence.filter_map_renumber, hnone, List.map_nil]
    have hmarked := Site.marked_placed hs.le (hs.stop_lt_length_opened hd _) hid hnone'
    rw [hrs, hstart, hend]
    simpa using hmarked
  · rw [s.filter_tagsFrom_placed_of_ne _ hid hne, hopened, Occurrence.filter_map_renumber]
    simpa [hne] using hother

/-- The number of a line is then one more than the lines that stay above it. -/
theorem renumber_succ {sel : Selector} {i : Nat} (hi : i ≤ d.length) :
    d.renumber g sel (i + 1) =
      (d.lines.take i).countP (fun l => (l.strip g sel).1.isSome) + 1 := by
  have hall := List.length_eq_countP_add_countP (l := d.lines.take i)
    fun l => (l.strip g sel).1.isSome
  have hgone : (d.lines.take i).countP (fun l => !(l.strip g sel).1.isSome) =
      (d.lines.take i).countP fun l => (l.strip g sel).1.isNone := by
    apply List.countP_congr
    simp
  simp only [List.length_take, Bool.not_eq_true, Bool.decide_eq_false] at hall
  unfold length at hi
  unfold renumber
  rw [Nat.add_sub_cancel, ← hgone]
  omega

/-- On annotated lines, the tags decide which lines stay. -/
theorem renumber_eq_of_selects {sel : Selector} {p : Tag → Bool} (hsel : sel.Selects g p)
    {ns : List (Annotated g)} (hd : d.Shows ns) {line : Nat} (hpos : 0 < line)
    (hle : line ≤ ns.length) :
    d.renumber g sel line = 1 + (ns.take (line - 1)).countP fun n => (n.strip? p).isSome := by
  obtain ⟨i, rfl⟩ : ∃ i, line = i + 1 := ⟨line - 1, by omega⟩
  have hi : i ≤ d.length := by
    rw [hd.length]
    omega
  have hstay : (d.lines.take i).countP (fun l => (l.strip g sel).1.isSome) =
      (ns.take i).countP fun n => (n.strip? p).isSome := by
    rw [hd, ← List.map_take, List.countP_map]
    apply List.countP_congr
    intro n _
    simp [Line.strip_line hsel]
  rw [renumber_succ hi, hstay, Nat.add_comm, Nat.add_sub_cancel]

/-- Where the tags of an identifier are removed, its range goes. -/
theorem Tracked.removeTags (hg : g.Unmarked) (h : d.Tracked g rs) {identifier : List Char}
    (hsep : g.separator ∉ identifier) :
    (d.removeTags g identifier).1.Tracked g
      ((rs.filter fun r => r.identifier ≠ identifier).map
        (.renumber (d.renumber g (.exactly identifier)))) := by
  obtain ⟨ns, hd, hmarks⟩ := h
  have hsel := Selector.selects_exactly hg hsep
  have hremove : (d.removeTags g identifier).1 =
      d.withLines (ns.filterMap (strip? fun t => decide (t.identifier = identifier))) :=
    congrArg Prod.fst (remove_of_shows hsel hd)
  refine ⟨_, hremove ▸ shows_withLines d _, fun other => ?_⟩
  have htags : tagsFrom 1 (ns.filterMap (strip? fun t => decide (t.identifier = identifier))) =
      ((tagsFrom 1 ns).filter fun o => !decide (o.tag.identifier = identifier)).map
        (.renumber (d.renumber g (.exactly identifier))) := by
    rw [tagsFrom_filterMap_strip? _ 1 1]
    apply List.map_congr_left
    intro o ho
    have hmem := (List.mem_filter.1 ho).1
    have hpos := le_line_of_mem_tagsFrom hmem
    have hlt := line_lt_of_mem_tagsFrom hmem
    rw [Occurrence.renumber, Occurrence.renumber,
      renumber_eq_of_selects hsel hd (by omega) (by omega)]
  rw [htags, TaggedRange.filter_map_renumber, Occurrence.filter_map_renumber, List.filter_filter,
    List.filter_filter]
  by_cases hne : other = identifier
  · -- neither its range nor its tags are left
    subst hne
    simpa using Marked.none
  · have hranges : rs.filter (fun r => decide (r.identifier = other) &&
        decide (r.identifier ≠ identifier)) = rs.filter fun r => r.identifier = other := by
      apply List.filter_congr
      intro r _
      by_cases hr : r.identifier = other <;> simp [hr, hne]
    have hoccurrences : (tagsFrom 1 ns).filter (fun o => decide (o.tag.identifier = other) &&
        !decide (o.tag.identifier = identifier)) =
          (tagsFrom 1 ns).filter fun o => o.tag.identifier = other := by
      apply List.filter_congr
      intro o _
      by_cases ho : o.tag.identifier = other <;> simp [ho, hne]
    rw [hranges, hoccurrences]
    exact (hmarks other).renumber _

/-- Where all tags are removed, all ranges go. -/
theorem Tracked.clear (hg : g.Unmarked) (h : d.Tracked g rs) : (d.clear g).1.Tracked g [] := by
  obtain ⟨ns, hd, -⟩ := h
  have hremove : (d.clear g).1 = d.withLines (ns.filterMap (strip? fun _ => true)) :=
    congrArg Prod.fst (remove_of_shows (Selector.selects_any hg) hd)
  refine ⟨_, hremove ▸ shows_withLines d _, fun identifier => ?_⟩
  have hnone : tagsFrom 1 (ns.filterMap (strip? fun _ => true)) = [] := by
    rw [tagsFrom_filterMap_strip? _ 1 1]
    simp
  rw [hnone]
  exact .none

/-- Every call, whether it succeeds or not, leaves the ranges that are known of after it. -/
theorem Tracked.call (hg : g.Unmarked) (h : d.Tracked g rs) {c : Call} (hnew : d.AddsNew g c)
    (hsep : ∀ identifier, c = .remove identifier → g.separator ∉ identifier) :
    (d.call g c).Tracked g (d.track g rs c) := by
  cases c with
  | add r =>
    unfold Document.call track
    cases hadd : d.addTags g r.identifier r.start r.stop with
    | error fault =>
      simp only [hadd]
      exact h
    | ok result =>
      simp only [hadd]
      exact h.addTags hg hnew hadd
  | remove identifier => exact h.removeTags hg (hsep identifier rfl)
  | clear => exact h.clear hg

theorem Tracked.run (hg : g.Unmarked) {cs : List Call} (h : d.Tracked g rs)
    (hnew : d.AddsOnlyNew g cs) (hsep : ∀ identifier, .remove identifier ∈ cs →
      g.separator ∉ identifier) : (d.run g cs).Tracked g (d.trackAll g rs cs) := by
  induction cs generalizing d rs with
  | nil => exact h
  | cons c cs ih =>
    refine ih (h.call hg hnew.1 fun i hi => hsep i ?_) hnew.2 fun i hi => hsep i ?_
    · rw [hi]
      exact List.mem_cons_self
    · exact List.mem_cons_of_mem c hi

/-- A document without anything like a tag has no ranges. -/
theorem tracked_of_headless (hd : ∀ t ∈ d.texts, g.hasHead t = false) : d.Tracked g [] := by
  obtain ⟨ns, hns, hnone⟩ := exists_shows_of_headless hd
  refine ⟨ns, hns, fun identifier => ?_⟩
  rw [tagsFrom_eq_nil hnone]
  exact .none

/-- In every state that is reached, the listing is what somebody knows of who kept count:
    one range for each identifier that was added and not removed since, and no tag without
    a partner. -/
theorem listing_run (hg : g.Unmarked) (hd : ∀ t ∈ d.texts, g.hasHead t = false)
    {cs : List Call} (hnew : d.AddsOnlyNew g cs)
    (hsep : ∀ identifier, .remove identifier ∈ cs → g.separator ∉ identifier)
    (order : TableOrder) :
    ((d.run g cs).listing g order).dangling = [] ∧
      ((d.run g cs).listing g order).ranges.Perm (d.trackAll g [] cs) ∧
      ((d.trackAll g [] cs).map TaggedRange.identifier).Nodup := by
  have hmarks := ((tracked_of_headless hd).run hg hnew hsep).marks hg
  exact ⟨(hmarks.listing order).1, (hmarks.listing order).2, hmarks.nodup⟩

/-- A line is inserted above the range of `y`, and deleted again with the tags of `x`. -/
theorem listing_run_line_comes_and_goes :
    let d := parse "f\n/* a\n*/\ng\nh\n".toList
    let cs := [.add ⟨['x'], 2, 3⟩, .add ⟨['y'], 5, 6⟩, .remove ['x']]
    d.trackAll .standard [] cs = [⟨['y'], 4, 5⟩] ∧
      ((d.run .standard cs).listing .standard .byText).ranges.Perm [⟨['y'], 4, 5⟩] := by
  intro d cs
  have htrack : d.trackAll .standard [] cs = [⟨['y'], 4, 5⟩] := by decide
  have hsep : ∀ identifier, .remove identifier ∈ cs →
      Grammar.standard.separator ∉ identifier := by
    intro identifier hmem
    obtain rfl : identifier = ['x'] := by simpa [cs] using hmem
    decide
  exact ⟨htrack, htrack ▸ (listing_run (by decide) (by decide) (by decide) hsep .byText).2.1⟩

end Document

end Marginalia
