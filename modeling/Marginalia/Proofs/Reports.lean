import Marginalia.Proofs.FileTagging
import Marginalia.Proofs.Insertion
import Marginalia.Proofs.Recognition

/-! # What removing reports

    Whoever removes tags is told how many there were, and how many lines went with them. A
    file is not written if there was none. Nothing is lost by that, and no file is written in
    vain, because each tag takes some text with it:

    * **`Piece.outside`**: a text without the bytes of some spans.
    * **`Piece.untagged_eq_outside`**: what a cut leaves of a text is what its tags do not
      span.
    * **`Cleared`**: what happens to lines in which tags were found.
    * **`Document.length_render_remove`**: the text of a document is shorter by as many
      characters as tags were removed, at least.
    * **`Document.Reports`**: what was removed is what is reported.
    * **`FileTagger.WritesChanges`**: a file is written exactly if its text changes.
    * **`Document.reports_removal`**: both are true of all removals of any tags, and of the
      tags of any identifier. -/

namespace Marginalia

open Text

/-! ## Section 1: What spans leave -/

namespace Piece

/-- The characters of a text, whose first one is at byte `n`, that are in none of the
    spans. -/
def outside (spans : List (Sighting × Nat × Nat)) : Nat → List Char → List Char
  | _, [] => []
  | n, c :: s =>
    if spans.any fun m => m.2.1 ≤ n && n < m.2.2 then outside spans (n + c.utf8Size) s
    else c :: outside spans (n + c.utf8Size) s

/-- A text that is inside of a span is left out. -/
theorem outside_append_of_mem {spans : List (Sighting × Nat × Nat)} {t : Sighting}
    {i n j : Nat} {x : List Char} (h : (t, i, j) ∈ spans) (hi : i ≤ n)
    (hj : n + byteLength x ≤ j) (y : List Char) :
    outside spans n (x ++ y) = outside spans (n + byteLength x) y := by
  induction x generalizing n with
  | nil => rfl
  | cons c x ih =>
    have hsize := c.utf8Size_pos
    have hlength : byteLength (c :: x) = c.utf8Size + byteLength x := rfl
    have hin : (spans.any fun m => m.2.1 ≤ n && n < m.2.2) = true := by
      rw [List.any_eq_true]
      refine ⟨_, h, ?_⟩
      simp only [Bool.and_eq_true, decide_eq_true_eq]
      omega
    rw [List.cons_append, outside, if_pos hin, ih (by omega) (by omega), hlength, Nat.add_assoc]

theorem le_of_mem_spans {n : Nat} {ps : List Piece} {m : Sighting × Nat × Nat}
    (h : m ∈ spans n ps) : n ≤ m.2.1 := by
  induction ps generalizing n with
  | nil => exact absurd h List.not_mem_nil
  | cons p ps ih =>
    cases p with
    | plain c =>
      have := ih h
      omega
    | tag t =>
      rcases List.mem_cons.1 h with rfl | h
      · exact Nat.le_refl n
      · have := ih h
        omega

/-- What is left of some pieces is what their tags do not span, nor the tags before them. -/
theorem untagged_eq_outside_append {before : List (Sighting × Nat × Nat)} {n : Nat}
    (hbefore : ∀ m ∈ before, m.2.2 ≤ n) (ps : List Piece) :
    untagged ps = outside (before ++ spans n ps) n (ps.flatMap raw) := by
  induction ps generalizing before n with
  | nil => rfl
  | cons p ps ih =>
    cases p with
    | plain c =>
      have hsize := c.utf8Size_pos
      have hlength : byteLength [c] = c.utf8Size := rfl
      -- the spans are behind the character, or before it
      have hout : ((before ++ spans (n + byteLength [c]) ps).any fun m =>
          m.2.1 ≤ n && n < m.2.2) = false := by
        rw [List.any_eq_false]
        intro m hm
        simp only [Bool.and_eq_true, decide_eq_true_eq, not_and, Nat.not_lt]
        intro hle
        rcases List.mem_append.1 hm with hm | hm
        · exact hbefore m hm
        · have := le_of_mem_spans hm
          omega
      have hrest := ih fun m hm => Nat.le_trans (hbefore m hm) (Nat.le_add_right n (byteLength [c]))
      show c :: untagged ps = outside (before ++ spans (n + byteLength [c]) ps) n
        (c :: ps.flatMap raw)
      rw [outside, hout, if_neg (by decide), hrest, hlength]
    | tag t =>
      have hspan : (t, n, n + byteLength t.raw) ∈
          before ++ (t, n, n + byteLength t.raw) :: spans (n + byteLength t.raw) ps := by simp
      have hbefore' : ∀ m ∈ before ++ [(t, n, n + byteLength t.raw)],
          m.2.2 ≤ n + byteLength t.raw := by
        intro m hm
        rcases List.mem_append.1 hm with hm | hm
        · exact Nat.le_trans (hbefore m hm) (Nat.le_add_right _ _)
        · rw [List.mem_singleton.1 hm]
      have hrest := ih hbefore'
      show untagged ps = outside
        (before ++ (t, n, n + byteLength t.raw) :: spans (n + byteLength t.raw) ps) n
        (t.raw ++ ps.flatMap raw)
      rw [outside_append_of_mem hspan (Nat.le_refl n) (Nat.le_refl _), hrest, List.append_assoc]
      rfl

/-- What a cut leaves of a text is what its tags do not span. -/
theorem untagged_eq_outside (ps : List Piece) :
    untagged ps = outside (spans 0 ps) 0 (ps.flatMap raw) := by
  have hnone : ∀ m ∈ ([] : List (Sighting × Nat × Nat)), m.2.2 ≤ 0 :=
    fun _ hm => absurd hm List.not_mem_nil
  exact untagged_eq_outside_append hnone ps

theorem map_fst_spans (n : Nat) (ps : List Piece) : (spans n ps).map Prod.fst = sightings ps := by
  induction ps generalizing n with
  | nil => rfl
  | cons p ps ih =>
    cases p with
    | plain c => exact ih _
    | tag t => exact congrArg (t :: ·) (ih _)

/-- Each tag takes a character with it, at least. -/
theorem length_untagged_cut {find : List Char → Option Sighting} (hfind : Finds find)
    (s : List Char) :
    (untagged (cut find 0 s)).length + (sightings (cut find 0 s)).length ≤ s.length := by
  induction s using cut_induction hfind with
  | nil => simp [cut, untagged, sightings]
  | plain c s hc ih =>
    rw [cut_cons_of_none hc]
    show (untagged (cut find 0 s)).length + 1 + (sightings (cut find 0 s)).length ≤ s.length + 1
    omega
  | tag t s ht hne ih =>
    have hpos := List.length_pos_iff.2 hne
    rw [cut_append_of_some ht rfl hne]
    simp only [untagged_tag_cons, sightings_tag_cons, List.length_cons, List.length_append]
    omega

end Piece

/-! ## Section 2: What a line loses -/

/-- The tags of a line that are meant, with the bytes of the line that they take. -/
def Selector.found (g : Grammar) (sel : Selector) (l : Line) : List (Sighting × Nat × Nat) :=
  Piece.spans 0 (sel.pieces g l.text)

/-- A line without the bytes that some tags take. -/
def Line.outside (spans : List (Sighting × Nat × Nat)) (l : Line) : Line :=
  { l with text := Piece.outside spans 0 l.text }

/-- A line that one of its tags asks to clean up can go without them. -/
def Line.Goes (spans : List (Sighting × Nat × Nat)) (l : Line) : Prop :=
  (∃ m ∈ spans, m.1.cleanup = true) ∧ (l.outside spans).isBlank = true

/-- What is left of some lines. One in which nothing was found stays as it is. Another one
    loses exactly what was found in it, and is dropped if it can go then. -/
inductive Cleared (found : Line → List (Sighting × Nat × Nat)) : List Line → List Line → Prop where
  | nil : Cleared found [] []
  | untouched {l : Line} {ls ms : List Line} (nothing : found l = [])
      (rest : Cleared found ls ms) : Cleared found (l :: ls) (l :: ms)
  | stripped {l : Line} {ls ms : List Line} (something : found l ≠ [])
      (stays : ¬ l.Goes (found l)) (rest : Cleared found ls ms) :
      Cleared found (l :: ls) (l.outside (found l) :: ms)
  | dropped {l : Line} {ls ms : List Line} (goes : l.Goes (found l))
      (rest : Cleared found ls ms) : Cleared found (l :: ls) ms

/-- The selector cuts lines where it finds tags. -/
def Selector.Cuts (g : Grammar) (sel : Selector) : Prop :=
  ∃ find, (∀ line, sel.pieces g line = Piece.cut find 0 line) ∧ Piece.Finds find

namespace Selector

variable {g : Grammar} {sel : Selector}

theorem cuts_any (g : Grammar) : Selector.any.Cuts g :=
  ⟨_, fun _ => rfl, g.finds_sighting?⟩

/-- This holds of every identifier, also of one that no tag can have. -/
theorem cuts_exactly (g : Grammar) (identifier : List Char) :
    (Selector.exactly identifier).Cuts g :=
  ⟨_, fun _ => rfl, g.finds_sighting?_exactly identifier⟩

theorem Cuts.untagged_eq_outside (h : sel.Cuts g) (l : Line) :
    Piece.untagged (sel.pieces g l.text) = (l.outside (sel.found g l)).text := by
  obtain ⟨find, hcut, hfind⟩ := h
  have hraw : (sel.pieces g l.text).flatMap Piece.raw = l.text := by
    rw [hcut]
    exact Piece.flatMap_raw_cut hfind l.text
  rw [Piece.untagged_eq_outside, hraw]
  rfl

theorem map_fst_found (g : Grammar) (sel : Selector) (l : Line) :
    (sel.found g l).map Prod.fst = Piece.sightings (sel.pieces g l.text) :=
  Piece.map_fst_spans 0 _

theorem length_found (g : Grammar) (sel : Selector) (l : Line) :
    (sel.found g l).length = (Piece.sightings (sel.pieces g l.text)).length := by
  rw [← map_fst_found, List.length_map]

end Selector

namespace Line

variable {g : Grammar} {sel : Selector}

/-- What is left of a line, by what is found in it. -/
theorem fst_strip_of_cuts (h : sel.Cuts g) (l : Line) :
    (sel.found g l = [] ∧ (l.strip g sel).1 = some l) ∨
    (sel.found g l ≠ [] ∧ ¬ l.Goes (sel.found g l) ∧
      (l.strip g sel).1 = some (l.outside (sel.found g l))) ∨
    (l.Goes (sel.found g l) ∧ (l.strip g sel).1 = none) := by
  by_cases hnone : sel.found g l = []
  · -- nothing was found
    have hsightings : Piece.sightings (sel.pieces g l.text) = [] := by
      rw [← Selector.map_fst_found, hnone, List.map_nil]
    exact .inl ⟨hnone, congrArg Prod.fst (strip_of_no_sightings hsightings)⟩
  · have hsome : (Piece.sightings (sel.pieces g l.text)).isEmpty = false := by
      rw [← Selector.map_fst_found, List.isEmpty_map]
      simpa using hnone
    have hgoes : l.Goes (sel.found g l) ↔
        ((Piece.sightings (sel.pieces g l.text)).any Sighting.cleanup &&
          allBlank (Piece.untagged (sel.pieces g l.text))) = true := by
      rw [← Selector.map_fst_found, List.any_map, h.untagged_eq_outside, Bool.and_eq_true,
        List.any_eq_true]
      rfl
    by_cases hgo : l.Goes (sel.found g l)
    · refine .inr (.inr ⟨hgo, ?_⟩)
      simp only [strip, hsome, Bool.false_eq_true, if_false, if_pos (hgoes.1 hgo)]
    · refine .inr (.inl ⟨hnone, hgo, ?_⟩)
      simp only [strip, hsome, Bool.false_eq_true, if_false, if_neg (mt hgoes.2 hgo)]
      rw [h.untagged_eq_outside]
      rfl

/-- Each tag took a character of its line with it, at least, whether the line stays or goes. -/
theorem length_strip (h : sel.Cuts g) (l : Line) :
    (∃ m, (l.strip g sel).1 = some m ∧ m.ending = l.ending ∧
      m.text.length + (l.strip g sel).2 ≤ l.text.length) ∨
    ((l.strip g sel).1 = none ∧ (l.strip g sel).2 ≤ l.text.length) := by
  have hlength : (l.outside (sel.found g l)).text.length + (l.strip g sel).2 ≤ l.text.length := by
    rw [snd_strip, ← h.untagged_eq_outside]
    obtain ⟨find, hcut, hfind⟩ := h
    rw [hcut]
    exact Piece.length_untagged_cut hfind l.text
  rcases fst_strip_of_cuts h l with ⟨hnone, hself⟩ | ⟨-, -, hstays⟩ | ⟨-, hgone⟩
  · refine .inl ⟨l, hself, rfl, ?_⟩
    rw [snd_strip, ← Selector.length_found, hnone, List.length_nil, Nat.add_zero]
  · exact .inl ⟨_, hstays, rfl, hlength⟩
  · exact .inr ⟨hgone, by omega⟩

end Line

/-! ## Section 3: What a document loses -/

namespace Document

variable {g : Grammar} {d : Document} {sel : Selector}

/-- What removing leaves of the lines. -/
theorem cleared_remove (h : sel.Cuts g) (d : Document) :
    Cleared (sel.found g) d.lines (d.remove g sel).1.lines := by
  rw [lines_remove]
  induction d.lines with
  | nil => exact .nil
  | cons l ls ih =>
    rw [List.filterMap_cons]
    rcases Line.fst_strip_of_cuts h l with ⟨hnone, hself⟩ | ⟨hsome, hstays, hleft⟩ | ⟨hgoes, hgone⟩
    · rw [hself]
      exact .untouched hnone ih
    · rw [hleft]
      exact .stripped hsome hstays ih
    · rw [hgone]
      exact .dropped hgoes ih

/-- Lines are not longer than with the terminator of another line in front of them. -/
theorem length_renderLines_le_renderBelow (terminated : Bool) (e : LineEnding)
    (ls : List Line) :
    (renderLines terminated ls).length ≤ (renderBelow terminated e ls).length := by
  unfold renderBelow
  rw [List.length_append]
  omega

/-- What follows a line is not longer if that is true of the lines below it. -/
theorem length_renderBelow_add_le {terminated : Bool} (e : LineEnding) {ls ms : List Line}
    {n : Nat} (hnil : ls = [] → ms = [])
    (h : (renderLines terminated ms).length + n ≤ (renderLines terminated ls).length) :
    (renderBelow terminated e ms).length + n ≤ (renderBelow terminated e ls).length := by
  unfold renderBelow
  rw [List.length_append, List.length_append]
  cases ls with
  | nil =>
    rw [hnil rfl] at h ⊢
    omega
  | cons l ls =>
    -- a terminator that is left out makes it only shorter
    have hle : (if ms.isEmpty && !terminated then [] else e.text).length ≤ e.text.length := by
      split
      · exact Nat.zero_le _
      · exact Nat.le_refl _
    simp only [List.isEmpty_cons, Bool.false_and, Bool.false_eq_true, if_false]
    omega

/-- The text of some lines gets shorter with each tag that is removed. -/
theorem length_renderLines_strip (h : sel.Cuts g) (terminated : Bool) (ls : List Line) :
    (renderLines terminated (ls.filterMap fun l => (l.strip g sel).1)).length +
        total (ls.map fun l => (l.strip g sel).2) ≤
      (renderLines terminated ls).length := by
  induction ls with
  | nil => exact Nat.le_refl _
  | cons l ls ih =>
    rw [List.map_cons, total_cons, renderLines_cons, List.length_append, List.filterMap_cons]
    rcases Line.length_strip h l with ⟨m, hm, hending, hlength⟩ | ⟨hgone, hlength⟩
    · have hbelow := length_renderBelow_add_le l.ending (fun hnil => by rw [hnil]; rfl) ih
      simp only [hm]
      rw [renderLines_cons, List.length_append, hending]
      omega
    · have hbelow := length_renderLines_le_renderBelow terminated l.ending ls
      simp only [hgone]
      omega

/-- The text of a document gets shorter with each tag that is removed. -/
theorem length_render_remove (h : sel.Cuts g) (d : Document) :
    (d.remove g sel).1.render.length + (d.remove g sel).2.tagsRemoved ≤ d.render.length := by
  have hlines := length_renderLines_strip h d.terminated d.lines
  rw [← lines_remove, ← tagsRemoved_remove] at hlines
  exact hlines

/-- The last line goes, and the terminator in front of it. -/
example : ((parse "a\n/*-?|x|?~*/".toList).clear .standard).1.render = ['a'] := by decide

/-- The report of a removal says what was removed: how many tags were found in all lines, and
    how many lines are missing. It is empty if nothing has changed, neither in the document
    nor in its text, and only then. -/
structure Reports (g : Grammar) (sel : Selector) (d d' : Document) (r : Removal) : Prop where
  lines   : Cleared (sel.found g) d.lines d'.lines
  others  : d' = { d with lines := d'.lines }
  tags    : r.tagsRemoved = total (d.lines.map fun l => (sel.found g l).length)
  dropped : d'.length + r.linesRemoved = d.length
  same    : r.isEmpty = true ↔ d' = d
  text    : r.isEmpty = true ↔ d'.render = d.render

theorem reports_remove (h : sel.Cuts g) (d : Document) :
    d.Reports g sel (d.remove g sel).1 (d.remove g sel).2 := by
  have hlength := length_render_remove h d
  have hempty : (d.remove g sel).2.isEmpty = true ↔ (d.remove g sel).2.tagsRemoved = 0 := by
    simp [Removal.isEmpty]
  -- the same text has lost no tag
  have hrender : (d.remove g sel).1.render = d.render → (d.remove g sel).2.isEmpty = true := by
    intro hsame
    rw [hsame] at hlength
    rw [hempty]
    omega
  have hself : (d.remove g sel).2.isEmpty = true → (d.remove g sel).1 = d := fun hnone =>
    remove_eq_self (hempty.1 hnone)
  refine ⟨cleared_remove h d, rfl, ?_, ?_, ?_, ?_⟩
  · rw [tagsRemoved_remove]
    congr 1
    apply List.map_congr_left
    intro l _
    rw [Line.snd_strip, Selector.length_found]
  · have hle : (d.remove g sel).1.lines.length ≤ d.lines.length := by
      rw [lines_remove]
      exact List.length_filterMap_le _ _
    exact Nat.add_sub_cancel' hle
  · exact ⟨hself, fun hsame => hrender (congrArg render hsame)⟩
  · exact ⟨fun hnone => congrArg render (hself hnone), hrender⟩

end Document

/-! ## Section 4: What is written -/

namespace FileTagger

/-- Where the change succeeds, it was a removal that is reported. If the report is empty, the
    file was not written, and what would have been written is in it. If not, the file holds
    another text now. -/
def WritesChanges (t : FileTagger) (c : Change) : Prop :=
  ∀ (dir dir' : Directory) (o : Outcome), (t.perform c).run dir = (.ok o, dir') →
    ∃ text d r, dir.readText t.path = .ok text ∧
      c.apply t.grammar (.parse text.toList) = .ok (d, .removed r) ∧ o = .removed r ∧
      (r.isEmpty = true → dir' = dir ∧ String.ofList d.render = text) ∧
      (r.isEmpty = false →
        dir'.readText t.path = .ok (String.ofList d.render) ∧ String.ofList d.render ≠ text)

/-- A removal that is reported rightly is written if something changes. -/
theorem writesChanges_of_reports {t : FileTagger} {c : Change} {sel : Selector}
    (hsel : sel.Cuts t.grammar)
    (happly : ∀ d, c.apply t.grammar d =
      .ok ((d.remove t.grammar sel).1, .removed (d.remove t.grammar sel).2)) :
    t.WritesChanges c := by
  intro dir dir' o hrun
  obtain ⟨text, d, hread, happly', hwrite⟩ := run_perform_eq_ok_iff.1 hrun
  have hresult := (happly (.parse text.toList)).symm.trans happly'
  obtain ⟨rfl, rfl⟩ := Prod.mk.inj (Except.ok.inj hresult)
  -- the text of the document before is that of the file
  have htext := (Document.reports_remove hsel (.parse text.toList)).text
  rw [Document.render_parse] at htext
  have hsame : ∀ s : List Char, String.ofList s = text ↔ s = text.toList := by
    intro s
    rw [← String.toList_inj, String.toList_ofList]
  refine ⟨text, _, _, hread, happly', rfl, ?_, ?_⟩
  · intro hempty
    rw [Outcome.isWritten, hempty, if_neg (by decide)] at hwrite
    exact ⟨hwrite.symm, (hsame _).2 (htext.1 hempty)⟩
  · intro hsome
    rw [Outcome.isWritten, hsome, if_pos (by decide)] at hwrite
    have hbytes := Directory.readText_eq_ok_iff.1 hread
    obtain ⟨-, -, -, -, hread', -⟩ := Directory.readBytes_writeBytes hbytes hwrite
    refine ⟨Directory.readText_eq_ok_iff.2 hread', ?_⟩
    intro heq
    rw [htext.2 ((hsame _).1 heq)] at hsome
    exact absurd hsome (by decide)

end FileTagger

/-- Removing the tags of any identifier, and removing all tags, reports what was removed. So a
    file that is not written has lost no change, and one that is written has changed. -/
theorem Document.reports_removal (g : Grammar) :
    (∀ (d : Document) (identifier : List Char),
      d.Reports g (.exactly identifier) (d.removeTags g identifier).1
        (d.removeTags g identifier).2) ∧
    (∀ d : Document, d.Reports g .any (d.clear g).1 (d.clear g).2) ∧
    ∀ path : FilePath, (∀ identifier, (FileTagger.mk path g).WritesChanges (.remove identifier)) ∧
      (FileTagger.mk path g).WritesChanges .clear := by
  have hexactly := Selector.cuts_exactly g
  have hany := Selector.cuts_any g
  refine ⟨fun d identifier => reports_remove (hexactly identifier) d, reports_remove hany, ?_⟩
  intro path
  refine ⟨fun identifier => ?_, ?_⟩
  · exact FileTagger.writesChanges_of_reports (hexactly identifier) fun _ => rfl
  · exact FileTagger.writesChanges_of_reports hany fun _ => rfl

end Marginalia
