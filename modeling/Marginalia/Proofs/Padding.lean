import Marginalia.Listing
import Marginalia.Proofs.CarriageReturns
import Marginalia.Proofs.Edits

/-! # Empty lines at the end

    Where tags stand and where they are placed depends on the texts of the lines, and not
    on how the lines end. It does not depend either on carriage returns behind the lines, or
    on empty lines below all the others, as long as the range that is asked for is above them:
    no comment opens or closes there.

    * **`Document.Pads`**: the same lines, perhaps with carriage returns behind them and with
      empty ones below.
    * **`Region.enclosing_append_replicate`**: the comment around a line is the same.
    * **`chainBottom_congr`**: a walk over comments does not depend on its fuel.
    * **`Document.Pads.listing_eq`**: the same tags are listed.
    * **`Document.Pads.site`**: tags are placed on the same lines. -/

namespace Marginalia

open Text

/-- The document `d` has the lines of `d'`, some perhaps with a carriage return behind them,
    and below them perhaps some empty ones. How the lines end does not matter. -/
def Document.Pads (d d' : Document) : Prop :=
  ∃ ts k, d.texts = ts ++ List.replicate k [] ∧ List.Forall₂ SameButReturn ts d'.texts

variable {g : Grammar}

/-! ## Section 1: The comment around a line -/

namespace Region

variable {texts : List (List Char)}

theorem nextCloser?_append_replicate (g : Grammar) (texts : List (List Char)) (k start : Nat) :
    nextCloser? g (texts ++ List.replicate k []) start = nextCloser? g texts start := by
  have hnone : ∀ m, (List.replicate m ([] : List Char)).findIdx? (occursIn g.closer) = none := by
    intro m
    rw [List.findIdx?_eq_none_iff]
    intro t ht
    rw [List.eq_of_mem_replicate ht]
    exact Grammar.not_occursIn_closer_nil g
  unfold nextCloser?
  rw [List.drop_append, List.drop_replicate, List.findIdx?_append, hnone]
  simp

/-- Empty lines below all others change nothing about the comment around a line. -/
theorem enclosing_append_replicate (k : Nat) {line : Nat} (hline : line < texts.length) :
    enclosing g (texts ++ List.replicate k []) line = enclosing g texts line := by
  have hopener : lastOpener? g (texts ++ List.replicate k []) line = lastOpener? g texts line := by
    unfold lastOpener?
    rw [List.take_append_of_le_length (by omega)]
  unfold enclosing
  simp only [hopener, nextCloser?_append_replicate]

end Region

/-! ## Section 2: The walks over comments -/

section
variable {enclosing enclosing' : Nat → Option Region} {n : Nat}

theorem chainTop_congr (h : ∀ i < n, enclosing i = enclosing' i)
    (hopen : ∀ i r, enclosing' i = some r → r.opensAt ≤ i) {fuel top : Nat} (htop : top ≤ n) :
    chainTop enclosing fuel top = chainTop enclosing' fuel top := by
  induction fuel generalizing top with
  | zero => rfl
  | succ fuel ih =>
    unfold chainTop
    split
    · rfl
    · next hpos =>
      rw [h (top - 1) (by omega)]
      cases hr : enclosing' (top - 1) with
      | none => rfl
      | some r =>
        have hle := hopen _ _ hr
        simp only
        rw [ih (by omega)]

/-- Fuel for all lines below is enough, and more does not change the walk. -/
theorem chainBottom_congr (h : ∀ i < n, enclosing i = enclosing' i)
    (hclose : ∀ i r, enclosing' i = some r → r.closesAt < n) {fuel fuel' bottom : Nat}
    (hlt : bottom < n) (hfuel : n ≤ bottom + fuel) (hfuel' : n ≤ bottom + fuel') :
    chainBottom enclosing fuel bottom = chainBottom enclosing' fuel' bottom := by
  induction fuel generalizing fuel' bottom with
  | zero => omega
  | succ fuel ih =>
    obtain ⟨fuel', rfl⟩ : ∃ m, fuel' = m + 1 := ⟨fuel' - 1, by omega⟩
    unfold chainBottom
    rw [h bottom hlt]
    cases hr : enclosing' bottom with
    | none => rfl
    | some r =>
      simp only
      split
      · exact ih (hclose _ _ hr) (by omega) (by omega)
      · rfl

theorem startCollision?_congr (h : ∀ i < n, enclosing i = enclosing' i)
    (hopen : ∀ i r, enclosing' i = some r → r.opensAt ≤ i) {line : Nat} (hlt : line < n) :
    startCollision? enclosing line = startCollision? enclosing' line := by
  unfold startCollision?
  rw [h line hlt]
  cases hr : enclosing' line with
  | none => rfl
  | some r =>
    have hle := hopen _ _ hr
    simp only [Option.bind_eq_bind, Option.bind_some]
    rw [chainTop_congr h hopen (by omega)]

theorem endCollision?_congr (h : ∀ i < n, enclosing i = enclosing' i)
    (hclose : ∀ i r, enclosing' i = some r → r.closesAt < n) {count count' line : Nat}
    (hlt : line < n) (hcount : n ≤ count) (hcount' : n ≤ count') :
    endCollision? enclosing count line = endCollision? enclosing' count' line := by
  unfold endCollision?
  rw [h line hlt]
  cases hr : enclosing' line with
  | none => rfl
  | some r =>
    simp only [Option.bind_eq_bind, Option.bind_some]
    rw [chainBottom_congr h hclose (hclose _ _ hr) (Nat.le_add_left_of_le hcount)
      (Nat.le_add_left_of_le hcount')]

end

/-! ## Section 3: Documents with empty lines at the end -/

theorem forall₂_insertIdx {α β : Type*} {R : α → β → Prop} {a : α} {b : β} (hab : R a b)
    {as : List α} {bs : List β} (h : List.Forall₂ R as bs) (i : Nat) :
    List.Forall₂ R (as.insertIdx i a) (bs.insertIdx i b) := by
  induction h generalizing i with
  | nil =>
    cases i with
    | zero => exact .cons hab .nil
    | succ i => exact .nil
  | cons hcd h ih =>
    cases i with
    | zero => exact .cons hab (.cons hcd h)
    | succ i => exact .cons hcd (ih i)

namespace Document

theorem texts_insertBlank (d : Document) (i : Nat) :
    (d.insertBlank i).texts = d.texts.insertIdx i [] := by
  simp [texts, insertBlank, List.map_insertIdx]

@[simp] theorem length_texts (d : Document) : d.texts.length = d.length := by
  simp [texts, length]

theorem length_insertBlank {d : Document} {i : Nat} (hi : i ≤ d.length) :
    (d.insertBlank i).length = d.length + 1 :=
  List.length_insertIdx_of_le_length hi _

theorem isBlank_eq_all_texts (d : Document) (i : Nat) :
    d.isBlank i = (d.texts[i]?).all allBlank := by
  unfold isBlank texts
  rw [List.getElem?_map, Option.all_map]
  rfl

/-- The tags of a document, line by line. -/
theorem occurrences_eq_flatMap (g : Grammar) (d : Document) :
    d.occurrences g = ((d.texts.map g.sightings).zipIdx 1).flatMap fun (ss, line) =>
      ss.map fun s => ⟨s.tag, line⟩ := by
  rw [List.zipIdx_map, List.flatMap_map]
  rfl

theorem pads_of_texts {d d' : Document} {k : Nat} (h : d.texts = d'.texts ++ List.replicate k []) :
    d.Pads d' :=
  ⟨d'.texts, k, h, List.forall₂_same.2 fun _ _ => .inl rfl⟩

namespace Pads

variable {d d' : Document}

theorem length_le (h : d.Pads d') : d'.length ≤ d.length := by
  obtain ⟨ts, k, hk, hts⟩ := h
  rw [← length_texts, ← length_texts, hk, ← hts.length_eq]
  simp

theorem untagged (g : Grammar) (h : d.Pads d') :
    ∃ ts k, d.untagged g = ts ++ List.replicate k [] ∧
      List.Forall₂ SameButReturn ts (d'.untagged g) := by
  obtain ⟨ts, k, hk, hts⟩ := h
  have hnil : g.untagged [] = [] := rfl
  refine ⟨ts.map g.untagged, k, ?_, ?_⟩
  · unfold Document.untagged
    rw [hk, List.map_append, List.map_replicate, hnil]
  · unfold Document.untagged
    rw [List.forall₂_map_left_iff, List.forall₂_map_right_iff]
    exact hts.imp fun _ _ => Grammar.untagged_sameButReturn

theorem isBlank_eq (h : d.Pads d') (i : Nat) : d.isBlank i = d'.isBlank i := by
  obtain ⟨ts, k, hk, hts⟩ := h
  have hmap : ts.map allBlank = d'.texts.map allBlank :=
    map_eq_of_sameButReturn (fun _ _ => SameButReturn.allBlank_eq) hts
  have hall : ∀ us : List (List Char), (us[i]?).all allBlank = ((us.map allBlank)[i]?).all id := by
    intro us
    rw [List.getElem?_map, Option.all_map]
    rfl
  rw [isBlank_eq_all_texts, isBlank_eq_all_texts, hk, List.getElem?_append]
  split
  · rw [hall, hall, hmap]
  · next hge =>
    -- a line that is not there counts as blank
    have hnone : d'.texts[i]? = none :=
      List.getElem?_eq_none (hts.length_eq ▸ Nat.le_of_not_lt hge)
    rw [hnone, List.getElem?_replicate]
    split <;> rfl

theorem insertBlank (h : d.Pads d') {i : Nat} (hi : i ≤ d'.length) :
    (d.insertBlank i).Pads (d'.insertBlank i) := by
  obtain ⟨ts, k, hk, hts⟩ := h
  have hle : i ≤ ts.length := by
    rw [hts.length_eq]
    simpa using hi
  refine ⟨ts.insertIdx i [], k, ?_, ?_⟩
  · rw [texts_insertBlank, hk, insertIdx_append_of_le hle]
  · rw [texts_insertBlank]
    exact forall₂_insertIdx (.inl rfl) hts i

/-- There are no tags on empty lines. -/
theorem listing_eq (g : Grammar) (h : d.Pads d') (order : TableOrder) :
    d.listing g order = d'.listing g order := by
  obtain ⟨ts, k, hk, hts⟩ := h
  have hnil : g.sightings [] = [] := rfl
  have hmap : ts.map g.sightings = d'.texts.map g.sightings :=
    map_eq_of_sameButReturn (fun _ _ h => Selector.sightings_pieces_eq Selector.isPlain_any g h) hts
  have hsame : d.occurrences g = d'.occurrences g := by
    rw [occurrences_eq_flatMap, occurrences_eq_flatMap, hk, List.map_append, hmap,
      List.zipIdx_append, List.flatMap_append, List.append_right_eq_self, List.map_replicate, hnil,
      List.flatMap_eq_nil_iff]
    intro (ss, line) hss
    have hempty : ss = [] := List.eq_of_mem_replicate (List.fst_mem_of_mem_zipIdx hss)
    simp [hempty]
  unfold listing
  rw [hsame]

theorem enclosing_eq (h : d.Pads d') {line : Nat} (hline : line < d'.length) :
    Region.enclosing g (d.untagged g) line = Region.enclosing g (d'.untagged g) line := by
  obtain ⟨ts, k, hk, hts⟩ := h.untagged g
  have hlt : line < ts.length := by
    rw [hts.length_eq]
    simpa using hline
  rw [hk, Region.enclosing_append_replicate k hlt, Region.enclosing_congr hts]

theorem onCommentTail_eq (h : d.Pads d') {line : Nat} (hline : line < d'.length) :
    onCommentTail g d line = onCommentTail g d' line := by
  have hany : ∀ us : List (List Char), ((us[line]?).bind (afterLast? g.closer)).any allBlank =
      ((us.map fun t => (afterLast? g.closer t).any allBlank)[line]?).any id := by
    intro us
    rw [List.getElem?_map, Option.any_map]
    cases us[line]? <;> rfl
  have hsame : (((d.untagged g)[line]?).bind (afterLast? g.closer)).any allBlank =
      (((d'.untagged g)[line]?).bind (afterLast? g.closer)).any allBlank := by
    obtain ⟨ts, k, hk, hts⟩ := h.untagged g
    have hlt : line < ts.length := by
      rw [hts.length_eq]
      simpa using hline
    rw [hk, List.getElem?_append_left hlt, hany, hany,
      map_eq_of_sameButReturn (fun _ _ => Region.any_allBlank_afterLast?_closer_eq) hts]
  unfold onCommentTail
  simp only [h.enclosing_eq hline, h.isBlank_eq, hsame]

end Pads

end Document

/-! ## Section 4: Sites -/

namespace Site

/-- The same lines are going to be tagged, in documents one of which may have more empty
    lines at the end. -/
structure Pads (s s' : Site) : Prop where
  document      : s.document.Pads s'.document
  start         : s.start = s'.start
  stop          : s.stop = s'.stop
  blankInserted : s.blankInserted = s'.blankInserted
  startShifted  : s.startShifted = s'.startShifted
  endShifted    : s.endShifted = s'.endShifted

theorem clearOfComments_pads {d d' : Document} (h : d.Pads d') {start stop : Nat}
    (hstart : start < d'.length) (hstop : stop < d'.length) :
    ((requested d start stop).clearOfComments g).Pads
      ((requested d' start stop).clearOfComments g) := by
  have hsame : ∀ i < d'.length,
      Region.enclosing g (d.untagged g) i = Region.enclosing g (d'.untagged g) i :=
    fun i hi => h.enclosing_eq hi
  have hopen : ∀ i r, Region.enclosing g (d'.untagged g) i = some r → r.opensAt ≤ i :=
    fun i r hr => (Region.enclosing_bounds hr).1
  have hclose : ∀ i r, Region.enclosing g (d'.untagged g) i = some r → r.closesAt < d'.length :=
    fun i r hr => by simpa using (Region.enclosing_bounds hr).2.2
  have hbegin := startCollision?_congr hsame hopen hstart
  have hend := endCollision?_congr hsame hclose hstop h.length_le (Nat.le_refl _)
  have hspec := startCollision?_spec (g := g) (d'.untagged g) start
  unfold clearOfComments requested
  simp only [Document.length_untagged, hbegin, hend, h.isBlank_eq]
  cases hs : startCollision? (Region.enclosing g (d'.untagged g)) start with
  | none => exact ⟨h, rfl, rfl, rfl, rfl, rfl⟩
  | some o =>
    rw [hs] at hspec
    have ho := hspec.1
    simp only
    split
    · exact ⟨h, rfl, rfl, rfl, rfl, rfl⟩
    · exact ⟨h.insertBlank (by omega), rfl, rfl, rfl, rfl, rfl⟩

theorem Pads.clearOfTail {s s' : Site} (h : s.Pads s') (hlt : s'.start < s'.document.length) :
    (s.clearOfTail g).Pads (s'.clearOfTail g) := by
  obtain ⟨hdoc, hstart, hstop, hblank, hbegin, hend⟩ := h
  unfold Site.clearOfTail
  rw [hstart, hdoc.onCommentTail_eq hlt]
  split
  · exact ⟨hdoc.insertBlank hlt, rfl, by simp only [hstop], rfl, rfl, hend⟩
  · exact ⟨hdoc, hstart, hstop, hblank, hbegin, hend⟩

/-- The lines of a site are lines of its document. -/
theorem Fits.stop_lt_length {d : Document} {s : Site} (h : s.Fits g d) :
    s.stop < s.document.length := by
  have hlt := h.lt
  have hle := h.start_le
  rw [h.document]
  cases hb : s.blankInserted with
  | true =>
    rw [if_pos rfl, Document.length_insertBlank (hle hb)]
    simpa [hb] using hlt
  | false => simpa [hb] using hlt

end Site

/-- Tags are placed on the same lines, whatever empty lines are below. -/
theorem Document.Pads.site {d d' : Document} (h : d.Pads d') {start stop : Nat}
    (hpos : start ≠ 0) (hle : start ≤ stop) (hlen : stop ≤ d'.length) :
    (d.site g start stop).Pads (d'.site g start stop) := by
  have hle' : start - 1 ≤ stop - 1 := by omega
  have hlt' : stop - 1 < d'.length := by omega
  have hfits := Site.clearOfComments_fits g hle' hlt'
  exact (Site.clearOfComments_pads h (by omega) (by omega)).clearOfTail
    (Nat.lt_of_le_of_lt hfits.le hfits.stop_lt_length)

end Marginalia
