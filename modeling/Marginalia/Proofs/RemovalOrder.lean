import Mathlib.Data.List.Count
import Marginalia.Proofs.Runs

/-! # Removing one identifier after the other

    Each removal decides about a line by the tags that it takes off. A tag that asks for
    its line to go is heard only if nothing is left beside it, so it matters which
    identifier on the line comes last:

    * **`Annotated.stripEach?`**: a line after the removal of some identifiers.
    * **`Annotated.Tidy`**: only an empty line carries a tag that asks for it to go, and
      only one. Additions keep lines tidy.
    * **`Document.CleansUpLast`**: on each line, the identifier of that tag is removed
      after all others.
    * **`Document.removeEach_addAll`**: exactly then the removals undo the additions. In
      any other order, lines that were inserted are left behind. -/

namespace Marginalia

open Text

/-- Only a text without tags is blank. -/
theorem Tag.allBlank_renderAll (g : Grammar) (ts : List Tag) :
    allBlank (Tag.renderAll g ts) = ts.isEmpty := by
  cases ts with
  | nil => rfl
  | cons t ts =>
    have hopener := g.delimiters_visible.1
    simp [Tag.render, Tag.head, hopener]

/-! ## Section 1: One line -/

namespace Annotated

variable {g : Grammar} {n m : Annotated g} {order : List (List Char)}

/-- What is left of the line when the tags of some identifiers are removed, one identifier
    after the other. -/
def stripEach? : List (List Char) → Annotated g → Option (Annotated g)
  | [], n => some n
  | i :: order, n => (n.strip? fun t => decide (t.identifier = i)).bind (stripEach? order)

/-- The line is empty, and one of its tags asks for it to go and is removed no earlier
    than the others. -/
def GoesWith (order : List (List Char)) (n : Annotated g) : Prop :=
  allBlank n.own = true ∧ ∃ t ∈ n.tags, t.cleanup = true ∧
    ∀ u ∈ n.tags, order.idxOf u.identifier ≤ order.idxOf t.identifier

theorem strip?_eq_none_iff {p : Tag → Bool} :
    n.strip? p = none ↔ allBlank n.own = true ∧ (∃ t ∈ n.tags, t.cleanup = true ∧ p t = true) ∧
      ∀ u ∈ n.tags, p u = true := by
  have hblank : allBlank (n.without p).text = true ↔
      allBlank n.own = true ∧ ∀ u ∈ n.tags, p u = true := by
    unfold text without
    rw [allBlank_append, Tag.allBlank_renderAll, Bool.and_eq_true, List.isEmpty_iff,
      List.filter_eq_nil_iff]
    simp
  unfold strip?
  rw [ite_eq_left_iff]
  simp only [reduceCtorEq, imp_false, Decidable.not_not, Bool.and_eq_true, hblank,
    List.any_eq_true]
  constructor
  · rintro ⟨⟨t, ht, hp, hc⟩, hown, hall⟩
    exact ⟨hown, ⟨t, ht, hc, hp⟩, hall⟩
  · rintro ⟨hown, ⟨t, ht, hc, hp⟩, hall⟩
    exact ⟨⟨t, ht, hp, hc⟩, hown, hall⟩

theorem eq_without_of_strip?_eq_some {p : Tag → Bool} (h : n.strip? p = some m) :
    m = n.without p := by
  unfold strip? at h
  split at h
  · exact absurd h (by simp)
  · exact (Option.some.inj h).symm

/-- Removing some identifiers takes off their tags. -/
theorem eq_without_of_stripEach?_eq_some (h : n.stripEach? order = some m) :
    m = n.without fun t => decide (t.identifier ∈ order) := by
  induction order generalizing n with
  | nil =>
    obtain rfl := Option.some.inj h
    apply Annotated.ext
    · rfl
    · simp [without]
    · rfl
  | cons i order ih =>
    obtain ⟨k, hk, hrest⟩ := Option.bind_eq_some_iff.1 h
    rw [ih hrest, eq_without_of_strip?_eq_some hk]
    apply Annotated.ext
    · rfl
    · simp [without, List.filter_filter, Bool.and_comm]
    · rfl

/-- The tags of one identifier do not matter to whether a line goes with later ones, if it
    does not go with these. -/
theorem goesWith_cons_iff {i : List Char}
    (h : n.strip? (fun t => decide (t.identifier = i)) ≠ none) :
    n.GoesWith (i :: order) ↔ (n.without fun t => decide (t.identifier = i)).GoesWith order := by
  have hmem : ∀ u, u ∈ (n.without fun t => decide (t.identifier = i)).tags ↔
      u ∈ n.tags ∧ u.identifier ≠ i := by
    intro u
    simp [without]
  have hlater : ∀ u : Tag, u.identifier ≠ i →
      (i :: order).idxOf u.identifier = order.idxOf u.identifier + 1 := by
    intro u hu
    exact List.idxOf_cons_ne _ (Ne.symm hu)
  constructor
  · rintro ⟨hown, t, ht, hc, hlast⟩
    -- if `t` were removed first, so would be all others, and the line would go
    have hti : t.identifier ≠ i := by
      intro hti
      refine h (strip?_eq_none_iff.2 ⟨hown, ⟨t, ht, hc, by simp [hti]⟩, ?_⟩)
      intro u hu
      have hle := hlast u hu
      rw [hti, List.idxOf_cons_self] at hle
      by_contra hui
      rw [hlater u (by simpa using hui)] at hle
      omega
    refine ⟨hown, t, (hmem t).2 ⟨ht, hti⟩, hc, ?_⟩
    intro u hu
    obtain ⟨hu, hui⟩ := (hmem u).1 hu
    have hle := hlast u hu
    rw [hlater t hti, hlater u hui] at hle
    omega
  · rintro ⟨hown, t, ht, hc, hlast⟩
    obtain ⟨ht, hti⟩ := (hmem t).1 ht
    refine ⟨hown, t, ht, hc, ?_⟩
    intro u hu
    rw [hlater t hti]
    by_cases hui : u.identifier = i
    · simp [hui]
    · have := hlast u ((hmem u).2 ⟨hu, hui⟩)
      rw [hlater u hui]
      omega

/-- If all identifiers on a line are removed, it goes exactly if a tag asks for that when
    it is the last one, or one of the last. -/
theorem stripEach?_eq_none_iff (hcover : ∀ t ∈ n.tags, t.identifier ∈ order) :
    n.stripEach? order = none ↔ n.GoesWith order := by
  induction order generalizing n with
  | nil =>
    constructor
    · intro h
      exact absurd h (by simp [stripEach?])
    · rintro ⟨-, t, ht, -⟩
      exact absurd (hcover t ht) (by simp)
  | cons i order ih =>
    unfold stripEach?
    cases hk : n.strip? fun t => decide (t.identifier = i) with
    | none =>
      -- all tags of the line are removed at once
      obtain ⟨hown, ⟨t, ht, hc, hti⟩, hall⟩ := strip?_eq_none_iff.1 hk
      rw [Option.bind_none]
      refine ⟨fun _ => ⟨hown, t, ht, hc, ?_⟩, fun _ => rfl⟩
      intro u hu
      rw [of_decide_eq_true (hall u hu)]
      simp
    | some k =>
      have hcover' : ∀ t ∈ (n.without fun t => decide (t.identifier = i)).tags,
          t.identifier ∈ order := by
        intro u hu
        obtain ⟨hu, hui⟩ := List.mem_filter.1 hu
        exact (List.mem_cons.1 (hcover u hu)).resolve_left (by simpa using hui)
      rw [goesWith_cons_iff (by rw [hk]; simp), Option.bind_some]
      obtain rfl := eq_without_of_strip?_eq_some hk
      exact ih hcover'

/-! ## Section 2: Tidy lines -/

/-- Only an empty line carries a tag that asks for it to go, and only one. -/
structure Tidy (n : Annotated g) : Prop where
  blank  : ∀ t ∈ n.tags, t.cleanup = true → allBlank n.own = true
  unique : ∀ t ∈ n.tags, ∀ u ∈ n.tags, t.cleanup = true → u.cleanup = true → t = u

/-- On this line, no tag that asks for it to go is removed before another one. -/
def CleansUpLast (order : List (List Char)) (n : Annotated g) : Prop :=
  ∀ t ∈ n.tags, t.cleanup = true →
    ∀ u ∈ n.tags, order.idxOf u.identifier ≤ order.idxOf t.identifier

theorem tidy_of_no_tags (h : n.tags = []) : n.Tidy :=
  ⟨by simp [h], by simp [h]⟩

theorem Tidy.annotate (h : n.Tidy) {t : Tag} (ht : g.identifierFault? t.identifier = none)
    (hplain : t.cleanup = false) : (n.annotate t ht).Tidy := by
  -- a tag that asks for something is an old one
  have hold : ∀ u ∈ (n.annotate t ht).tags, u.cleanup = true → u ∈ n.tags := by
    intro u hu hc
    rcases List.mem_append.1 hu with hu | hu
    · exact hu
    · rw [List.mem_singleton.1 hu, hplain] at hc
      exact absurd hc (by decide)
  refine ⟨?_, ?_⟩
  · intro u hu hc
    exact h.blank u (hold u hu hc) hc
  · intro u hu v hv huc hvc
    exact h.unique u (hold u hu huc) v (hold v hv hvc) huc hvc

theorem tidy_annotate_blank (e : LineEnding) {t : Tag}
    (ht : g.identifierFault? t.identifier = none) : ((blank g e).annotate t ht).Tidy := by
  refine ⟨fun _ _ _ => rfl, ?_⟩
  intro u hu v hv _ _
  rw [tags_annotate, tags_blank, List.nil_append, List.mem_singleton] at hu hv
  rw [hu, hv]

/-- Taking all tags off a tidy line at once removes it exactly if a tag asks for that. -/
theorem Tidy.strip?_all_eq_none_iff (h : n.Tidy) :
    (n.strip? fun _ => true) = none ↔ ∃ t ∈ n.tags, t.cleanup = true := by
  rw [strip?_eq_none_iff]
  constructor
  · rintro ⟨-, ⟨t, ht, hc, -⟩, -⟩
    exact ⟨t, ht, hc⟩
  · rintro ⟨t, ht, hc⟩
    exact ⟨h.blank t ht hc, ⟨t, ht, hc, rfl⟩, fun _ _ => rfl⟩

/-- Taking off one identifier after the other may keep a tidy line that would go if all
    went at once, but only where the tag that asks for it is not the last one. -/
theorem Tidy.stripEach?_eq_none_iff (h : n.Tidy)
    (hcover : ∀ t ∈ n.tags, t.identifier ∈ order) :
    n.stripEach? order = none ↔
      (n.strip? fun _ => true) = none ∧ n.CleansUpLast order := by
  rw [Annotated.stripEach?_eq_none_iff hcover, h.strip?_all_eq_none_iff]
  constructor
  · rintro ⟨-, t, ht, hc, hlast⟩
    refine ⟨⟨t, ht, hc⟩, ?_⟩
    intro u hu huc
    rw [h.unique u hu t ht huc hc]
    exact hlast
  · rintro ⟨⟨t, ht, hc⟩, hlast⟩
    exact ⟨h.blank t ht hc, t, ht, hc, hlast t ht hc⟩

/-- A line that is kept both ways is the same line. -/
theorem stripEach?_eq_strip?_all (hcover : ∀ t ∈ n.tags, t.identifier ∈ order)
    (hnone : n.stripEach? order = none ↔ (n.strip? fun _ => true) = none) :
    n.stripEach? order = n.strip? fun _ => true := by
  cases heach : n.stripEach? order with
  | none => exact (hnone.1 heach).symm
  | some m =>
    cases hall : n.strip? fun _ => true with
    | none =>
      rw [hnone.2 hall] at heach
      exact absurd heach (by simp)
    | some k =>
      rw [eq_without_of_stripEach?_eq_some heach, eq_without_of_strip?_eq_some hall]
      congr 1
      apply Annotated.ext
      · rfl
      · apply List.filter_congr
        intro t ht
        simp [hcover t ht]
      · rfl

end Annotated

theorem Edited.tidy {g : Grammar} {allowed : Tag → Prop} {ns ms : List (Annotated g)}
    {tags blanks : Nat} (h : Edited allowed ns tags blanks ms) (hns : ∀ n ∈ ns, n.Tidy) :
    ∀ m ∈ ms, m.Tidy := by
  induction h with
  | refl => exact hns
  | @tag tags blanks ms before j t named allow plain lt free ih =>
    obtain ⟨ms₁, m, ms₂, hms, -, hmodify⟩ :=
      List.exists_of_modify (fun n : Annotated g => n.annotate t named) lt
    rw [hms] at ih
    rw [hmodify]
    intro k hk
    rcases List.mem_append.1 hk with hk | hk
    · exact ih k (List.mem_append_left _ hk)
    rcases List.mem_cons.1 hk with rfl | hk
    · exact (ih m (by simp)).annotate named plain
    · exact ih k (List.mem_append_right _ (List.mem_cons_of_mem _ hk))
  | @line tags blanks ms before k t ending named allow cleanup le free ih =>
    intro m hm
    rcases List.eq_or_mem_of_mem_insertIdx hm with rfl | hm
    · exact Annotated.tidy_annotate_blank ending named
    · exact ih m hm

/-- The tags that edits write are allowed. -/
theorem Edited.allowed_of_mem {g : Grammar} {allowed : Tag → Prop} {ns ms : List (Annotated g)}
    {tags blanks : Nat} (h : Edited allowed ns tags blanks ms)
    (hns : ∀ t ∈ ns.flatMap Annotated.tags, allowed t) :
    ∀ t ∈ ms.flatMap Annotated.tags, allowed t := by
  induction h with
  | refl => exact hns
  | @tag tags blanks ms before j t named allow plain lt free ih =>
    obtain ⟨ms₁, m, ms₂, hms, -, hmodify⟩ :=
      List.exists_of_modify (fun n : Annotated g => n.annotate t named) lt
    rw [hms] at ih
    rw [hmodify]
    intro u hu
    simp only [List.flatMap_append, List.flatMap_cons, Annotated.tags_annotate,
      List.mem_append, List.mem_singleton] at hu ih
    rcases hu with hu | (hu | rfl) | hu
    · exact ih u (.inl hu)
    · exact ih u (.inr (.inl hu))
    · exact allow
    · exact ih u (.inr (.inr hu))
  | @line tags blanks ms before k t ending named allow cleanup le free ih =>
    intro u hu
    obtain ⟨m, hm, hu⟩ := List.mem_flatMap.1 hu
    rcases List.eq_or_mem_of_mem_insertIdx hm with rfl | hm
    · rw [Annotated.tags_annotate, Annotated.tags_blank, List.nil_append,
        List.mem_singleton] at hu
      rw [hu]
      exact allow
    · exact ih u (List.mem_flatMap.2 ⟨m, hm, hu⟩)

/-! ## Section 3: Documents -/

namespace Document

variable {g : Grammar} {d : Document} {ns ms : List (Annotated g)} {order : List (List Char)}

/-- The document without the tags of some identifiers, removed one after the other. -/
def removeEach (g : Grammar) (d : Document) (order : List (List Char)) : Document :=
  order.foldl (fun d identifier => (d.removeTags g identifier).1) d

/-- On each line of the document, no tag that asks for the line to go is removed before
    another one. -/
def CleansUpLast (g : Grammar) (d : Document) (order : List (List Char)) : Prop :=
  ∀ o ∈ d.occurrences g, o.tag.cleanup = true →
    ∀ o' ∈ d.occurrences g, o'.line = o.line →
      order.idxOf o'.tag.identifier ≤ order.idxOf o.tag.identifier

instance (g : Grammar) (d : Document) (order : List (List Char)) :
    Decidable (d.CleansUpLast g order) :=
  inferInstanceAs (Decidable (∀ o ∈ d.occurrences g, _))

theorem removeEach_withLines (hg : g.Unmarked) (hsep : ∀ i ∈ order, g.separator ∉ i) :
    (d.withLines ns).removeEach g order =
      d.withLines (ns.filterMap (Annotated.stripEach? order)) := by
  induction order generalizing ns with
  | nil =>
    have hsome : Annotated.stripEach? [] = (some : Annotated g → Option (Annotated g)) := rfl
    rw [hsome, List.filterMap_some]
    rfl
  | cons i order ih =>
    have hfirst : ((d.withLines ns).removeTags g i).1 =
        d.withLines (ns.filterMap (Annotated.strip? fun t => decide (t.identifier = i))) := by
      unfold removeTags
      rw [remove_of_shows (Selector.selects_exactly hg (hsep i List.mem_cons_self))
        (shows_withLines d ns)]
      rfl
    have hrest : (d.withLines (ns.filterMap
          (Annotated.strip? fun t => decide (t.identifier = i)))).removeEach g order = _ :=
      ih fun j hj => hsep j (List.mem_cons_of_mem _ hj)
    rw [List.filterMap_filterMap] at hrest
    unfold removeEach at hrest ⊢
    rw [List.foldl_cons, hfirst, hrest]
    rfl

/-- Which tags stand on a line can be told from the list of all tags. -/
theorem Shows.occurrence_mem (hg : g.Unmarked) (h : d.Shows ns) {i : Nat} {n : Annotated g}
    (hn : ns[i]? = some n) {t : Tag} (ht : t ∈ n.tags) : ⟨t, i + 1⟩ ∈ d.occurrences g := by
  rw [h.occurrences hg]
  have hmem : (n, i + 1) ∈ ns.zipIdx 1 :=
    List.mk_mem_zipIdx_iff_le_and_getElem?_sub.2 ⟨by omega, by simpa using hn⟩
  exact List.mem_flatMap.2 ⟨_, hmem, List.mem_map.2 ⟨t, ht, rfl⟩⟩

theorem Shows.cleansUpLast_iff (hg : g.Unmarked) (h : d.Shows ns) :
    d.CleansUpLast g order ↔ ∀ n ∈ ns, n.CleansUpLast order := by
  constructor
  · intro hlast n hn t ht hc u hu
    obtain ⟨i, hi⟩ := List.getElem?_of_mem hn
    exact hlast _ (h.occurrence_mem hg hi ht) hc _ (h.occurrence_mem hg hi hu) rfl
  · intro hlast o ho hc o' ho' hline
    obtain ⟨i, n, hi, hn, ht⟩ := h.mem_occurrences hg ho
    obtain ⟨j, m, hj, hm, hu⟩ := h.mem_occurrences hg ho'
    -- both tags stand on the same line
    obtain rfl : j = i := by omega
    obtain rfl : m = n := Option.some.inj (hm.symm.trans hn)
    exact hlast m (List.mem_of_getElem? hn) _ ht hc _ hu

end Document

/-- Of two filters, one that lets pass all that the other one does and something more
    leaves the longer list. -/
theorem length_filterMap_lt {α β : Type*} {f f' : α → Option β} {l : List α}
    (himp : ∀ a ∈ l, f' a = none → f a = none) {a : α} (ha : a ∈ l) (hf : f a = none)
    (hf' : f' a ≠ none) : (l.filterMap f).length < (l.filterMap f').length := by
  have hle : ∀ l' : List α, (∀ b ∈ l', b ∈ l) →
      (l'.filterMap f).length ≤ (l'.filterMap f').length := by
    intro l' hl'
    rw [List.length_filterMap_eq_countP, List.length_filterMap_eq_countP]
    apply List.countP_mono_left
    intro b hb hsome
    rw [Option.isSome_iff_ne_none] at hsome ⊢
    exact fun hnone => hsome (himp b (hl' b hb) hnone)
  obtain ⟨l₁, l₂, rfl⟩ := List.append_of_mem ha
  obtain ⟨b, hb⟩ := Option.ne_none_iff_exists'.1 hf'
  have h₁ := hle l₁ fun b hb => List.mem_append_left _ hb
  have h₂ := hle l₂ fun b hb => List.mem_append_right _ (List.mem_cons_of_mem _ hb)
  rw [List.filterMap_append, List.filterMap_append, List.filterMap_cons_none hf,
    List.filterMap_cons_some hb, List.length_append, List.length_append, List.length_cons]
  omega

/-- Among tidy lines, removing one identifier after the other leaves what removing all
    tags at once leaves exactly if on each line the tag that asks for it to go is the last
    one. -/
theorem Annotated.filterMap_stripEach?_eq_iff {g : Grammar} {ms : List (Annotated g)}
    {order : List (List Char)} (htidy : ∀ m ∈ ms, m.Tidy)
    (hcover : ∀ m ∈ ms, ∀ t ∈ m.tags, t.identifier ∈ order) :
    (ms.filterMap (stripEach? order)).map line =
        (ms.filterMap (strip? fun _ => true)).map line ↔
      ∀ m ∈ ms, m.CleansUpLast order := by
  constructor
  · intro heq m hm
    by_contra hlast
    -- `m` would be kept by the one and not by the other
    have hneed : (m.strip? fun _ => true) = none := by
      rw [(htidy m hm).strip?_all_eq_none_iff]
      by_contra hno
      exact hlast fun t ht hc => absurd ⟨t, ht, hc⟩ hno
    have hkept : m.stripEach? order ≠ none := by
      rw [Ne, (htidy m hm).stripEach?_eq_none_iff (hcover m hm)]
      exact fun h => hlast h.2
    have himp : ∀ k ∈ ms, k.stripEach? order = none → (k.strip? fun _ => true) = none :=
      fun k hk hnone => (((htidy k hk).stripEach?_eq_none_iff (hcover k hk)).1 hnone).1
    have hlen := congrArg List.length heq
    have hlt := length_filterMap_lt himp hm hneed hkept
    rw [List.length_map, List.length_map] at hlen
    omega
  · intro hlast
    congr 1
    apply List.filterMap_congr
    intro m hm
    apply stripEach?_eq_strip?_all (hcover m hm)
    rw [(htidy m hm).stripEach?_eq_none_iff (hcover m hm)]
    exact ⟨fun h => h.1, fun h => ⟨h, hlast m hm⟩⟩

namespace Document

variable {g : Grammar} {d : Document}

/-- Each request has at most one placement. -/
theorem length_addAll_le (g : Grammar) (d : Document) (rs : List Request) :
    (d.addAll g rs).2.length ≤ rs.length := by
  induction rs generalizing d with
  | nil => exact Nat.le_refl _
  | cons r rs ih =>
    unfold addAll
    split
    · exact Nat.le_succ_of_le (ih d)
    · exact Nat.succ_le_succ (ih _)

/-- Requests that all succeed have identifiers that are accepted. -/
theorem names_of_addAll {rs : List Request} (h : (d.addAll g rs).2.length = rs.length) :
    ∀ r ∈ rs, g.Names r.identifier := by
  induction rs generalizing d with
  | nil => simp
  | cons r rs ih =>
    unfold addAll at h
    split at h
    · -- one placement is missing
      have := length_addAll_le g d rs
      rw [List.length_cons] at h
      omega
    · next d' p hadd =>
      intro r' hr'
      rcases List.mem_cons.1 hr' with rfl | hr'
      · exact names_of_addTags hadd
      · exact ih (Nat.succ.inj h) r' hr'

theorem addAll_eq_run (g : Grammar) (d : Document) (rs : List Request) :
    (d.addAll g rs).1 = d.run g (rs.map .add) := by
  induction rs generalizing d with
  | nil => rfl
  | cons r rs ih =>
    rw [List.map_cons, run_cons]
    cases hadd : d.addTags g r.identifier r.start r.stop with
    | error fault =>
      simp only [addAll, call, hadd]
      exact ih d
    | ok placed =>
      simp only [addAll, call, hadd]
      exact ih placed.1

theorem removeEach_eq_run (g : Grammar) (d : Document) (order : List (List Char)) :
    d.removeEach g order = d.run g (order.map .remove) := by
  unfold removeEach run
  rw [List.foldl_map]
  rfl

/-- The identifiers of some additions may be removed in any order. That leaves no tags, and
    the old lines with additional empty ones. It leaves the old document exactly if on each
    line the tag that asks for it to go is removed last. -/
theorem removeEach_addAll (hg : g.Unmarked) (hd : ∀ t ∈ d.texts, g.hasHead t = false)
    (rs : List Request) (hadd : (d.addAll g rs).2.length = rs.length)
    (order : List (List Char)) (horder : order.Perm (rs.map Request.identifier)) :
    ((d.addAll g rs).1.removeEach g order = d ↔ (d.addAll g rs).1.CleansUpLast g order) ∧
      Line.StandAmong g d.lines ((d.addAll g rs).1.removeEach g order).lines ∧
      ((d.addAll g rs).1.removeEach g order).occurrences g = [] := by
  obtain ⟨ns, hns, hnone⟩ := exists_shows_of_headless hd
  obtain ⟨ms, hms, hedited⟩ := addAll_edited hg hns rs
  have hsep : ∀ i ∈ order, g.separator ∉ i := by
    intro i hi
    obtain ⟨r, hr, rfl⟩ := List.mem_map.1 (horder.mem_iff.1 hi)
    exact (names_of_addAll hadd r hr).separator_not_mem
  have htidy : ∀ m ∈ ms, m.Tidy := by
    apply hedited.tidy
    intro n hn
    exact Annotated.tidy_of_no_tags (List.flatMap_eq_nil_iff.1 hnone n hn)
  have hcover : ∀ m ∈ ms, ∀ t ∈ m.tags, t.identifier ∈ order := by
    intro m hm t ht
    rw [horder.mem_iff]
    exact hedited.allowed_of_mem (by simp [hnone]) t (List.mem_flatMap.2 ⟨m, hm, ht⟩)
  have hall : ms.filterMap (Annotated.strip? fun _ => true) = ns := by
    rw [hedited.filterMap_strip? fun _ _ => rfl]
    exact Annotated.filterMap_strip?_eq_self (by simp [hnone])
  refine ⟨?_, ?_, ?_⟩
  · have hlines : (d.withLines ms).removeEach g order = d ↔
        (ms.filterMap (Annotated.stripEach? order)).map Annotated.line =
          (ms.filterMap (Annotated.strip? fun _ => true)).map Annotated.line := by
      rw [removeEach_withLines hg hsep, hall, ← hns]
      constructor
      · intro h
        rw [← h]
        rfl
      · intro h
        unfold withLines
        rw [h]
    rw [hms, hlines, Annotated.filterMap_stripEach?_eq_iff htidy hcover,
      (shows_withLines d ms).cleansUpLast_iff hg]
  · rw [removeEach_eq_run, addAll_eq_run]
    exact (((descends_self hd).run hg _).run hg _).standAmong hg
  · -- each line that is kept has lost all its tags
    have htags : (ms.filterMap (Annotated.stripEach? order)).flatMap Annotated.tags = [] := by
      rw [List.flatMap_eq_nil_iff]
      intro k hk
      obtain ⟨m, hm, hk⟩ := List.mem_filterMap.1 hk
      rw [Annotated.eq_without_of_stripEach?_eq_some hk]
      unfold Annotated.without
      simpa using hcover m hm
    have hmap :=
      (shows_withLines d (ms.filterMap (Annotated.stripEach? order))).map_tag_occurrences hg
    rw [htags, List.map_eq_nil_iff] at hmap
    rw [hms, removeEach_withLines hg hsep, hmap]

/-- The line is inserted for the first request, and the second one uses it too. -/
theorem removeEach_addAll_shared_line :
    let d := parse "/* a\n*/\n".toList
    (d.addAll .standard [⟨['x'], 1, 2⟩, ⟨['y'], 1, 1⟩]).1.removeEach .standard [['y'], ['x']] = d :=
  (removeEach_addAll (g := .standard) (d := parse "/* a\n*/\n".toList) (by decide) (by decide)
    [⟨['x'], 1, 2⟩, ⟨['y'], 1, 1⟩] (by decide) [['y'], ['x']] (by decide)).1.2 (by decide)

/-- In the other order, the inserted line is left behind. -/
theorem not_forall_removeEach_addAll_eq :
    ¬ ∀ (g : Grammar) (d : Document) (rs : List Request) (order : List (List Char)),
      g.Unmarked → (∀ t ∈ d.texts, g.hasHead t = false) →
      (d.addAll g rs).2.length = rs.length → (rs.map Request.identifier).Nodup →
      order.Perm (rs.map Request.identifier) → (d.addAll g rs).1.removeEach g order = d := by
  intro h
  have hsame := h .standard (parse "/* a\n*/\n".toList) [⟨['x'], 1, 2⟩, ⟨['y'], 1, 1⟩]
    [['x'], ['y']] (by decide) (by decide) (by decide) (by decide) (by decide)
  exact absurd hsame (by decide)

end Document

end Marginalia
