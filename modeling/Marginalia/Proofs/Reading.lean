import Mathlib.Data.List.Basic
import Marginalia.Document

/-! # Reading documents back

    A document is written by writing its lines one after the other, and read by splitting
    the text at its line feeds. What comes back is nearly what was there:

    * **`Line.Stable`**: the line is read back as it is. Only a carriage return at the end
      of a line that ends with a line feed alone goes over into the terminator.
    * **`parse_flatMap_render`**: what is read from any lines that were written.
    * **`Reads`**: what is known of the lines of a text, all of which are stable but the
      last one.
    * **`Document.render_parse`**: a text that is read and written is the same text. -/

namespace Marginalia

/-! ## Section 1: Single lines -/

namespace Line

/-- What stands on the line before its line feed. -/
def body (l : Line) : List Char :=
  match l.ending with
  | .lf   => l.text
  | .crlf => l.text ++ ['\r']

/-- The line is read back as it was written. -/
def Stable (l : Line) : Prop :=
  ofBody l.body = l

instance (l : Line) : Decidable l.Stable :=
  inferInstanceAs (Decidable (ofBody l.body = l))

theorem render_eq_body (l : Line) : l.render = l.body ++ ['\n'] := by
  obtain ⟨text, ending⟩ := l
  cases ending <;> simp [render, body, LineEnding.text]

theorem body_ofBody (b : List Char) : (ofBody b).body = b := by
  unfold ofBody
  split
  · next hlast => exact List.dropLast_append_getLast? _ hlast
  · rfl

theorem stable_ofBody (b : List Char) : (ofBody b).Stable := by
  unfold Stable
  rw [body_ofBody]

theorem ofBody_body_of_return {l : Line} (hlast : l.text.getLast? = some '\r')
    (hending : l.ending = .lf) : ofBody l.body = ⟨l.text.dropLast, .crlf⟩ := by
  simp [ofBody, body, hending, hlast]

theorem stable_iff {l : Line} :
    l.Stable ↔ (l.ending = .lf → l.text.getLast? ≠ some '\r') := by
  obtain ⟨text, ending⟩ := l
  cases ending with
  | lf =>
    by_cases hlast : text.getLast? = some '\r'
    · simp [Stable, ofBody, body, hlast]
    · simp [Stable, ofBody, body, hlast]
  | crlf => simp [Stable, ofBody, body]

/-- A line feed in what precedes the line feed of a line stands in its text. -/
theorem newline_not_mem_body {l : Line} (h : '\n' ∉ l.text) : '\n' ∉ l.body := by
  obtain ⟨text, ending⟩ := l
  cases ending <;> simpa [body] using h

end Line

/-! ## Section 2: Splitting at line feeds -/

namespace Document

theorem splitBodies_of_not_mem {s : List Char} (h : '\n' ∉ s) (current : List Char) :
    splitBodies current s = ([], current.reverse ++ s) := by
  induction s generalizing current with
  | nil => simp [splitBodies]
  | cons c s ih =>
    have hc : c ≠ '\n' := fun hc => h (by simp [hc])
    have hs : '\n' ∉ s := fun hs => h (List.mem_cons_of_mem _ hs)
    simp [splitBodies, hc, ih hs]

theorem splitBodies_append_newline {b : List Char} (h : '\n' ∉ b) (current s : List Char) :
    splitBodies current (b ++ '\n' :: s) =
      ((current.reverse ++ b) :: (splitBodies [] s).1, (splitBodies [] s).2) := by
  induction b generalizing current with
  | nil => simp [splitBodies]
  | cons c b ih =>
    have hc : c ≠ '\n' := fun hc => h (by simp [hc])
    have hb : '\n' ∉ b := fun hb => h (List.mem_cons_of_mem _ hb)
    simp [splitBodies, hc, ih hb]

/-- Lines that were written are split again where they end. -/
theorem splitBodies_flatMap_render {ls : List Line} (hls : ∀ l ∈ ls, '\n' ∉ l.text)
    {rest : List Char} (hrest : '\n' ∉ rest) :
    splitBodies [] (ls.flatMap Line.render ++ rest) = (ls.map Line.body, rest) := by
  induction ls with
  | nil => simp [splitBodies_of_not_mem hrest]
  | cons l ls ih =>
    have hbody := Line.newline_not_mem_body (hls l List.mem_cons_self)
    have htext : (l :: ls).flatMap Line.render ++ rest =
        l.body ++ '\n' :: (ls.flatMap Line.render ++ rest) := by
      simp [Line.render_eq_body]
    rw [htext, splitBodies_append_newline hbody,
      ih fun l' hl' => hls l' (List.mem_cons_of_mem _ hl')]
    rfl

/-- The pieces of a text make up the text. -/
theorem splitBodies_spec (s : List Char) {current : List Char} (h : '\n' ∉ current) :
    (splitBodies current s).1.flatMap (· ++ ['\n']) ++ (splitBodies current s).2 =
        current.reverse ++ s ∧
      (∀ b ∈ (splitBodies current s).1, '\n' ∉ b) ∧ '\n' ∉ (splitBodies current s).2 := by
  -- `current` is the line so far, backwards: empty behind a line feed, and longer by every
  -- other character
  induction s generalizing current with
  | nil => simpa [splitBodies] using h
  | cons c s ih =>
    by_cases hc : c = '\n'
    · obtain ⟨htext, hbodies, hrest⟩ := @ih [] (by simp)
      subst hc
      simp only [splitBodies, if_true, List.flatMap_cons, List.mem_cons, forall_eq_or_imp,
        List.mem_reverse]
      refine ⟨?_, ⟨h, hbodies⟩, hrest⟩
      rw [List.append_assoc, htext]
      simp
    · have hcurrent : '\n' ∉ c :: current := by
        simp only [List.mem_cons, not_or]
        exact ⟨Ne.symm hc, h⟩
      obtain ⟨htext, hbodies, hrest⟩ := ih hcurrent
      simp only [splitBodies, if_neg hc]
      refine ⟨?_, hbodies, hrest⟩
      rw [htext]
      simp

/-! ## Section 3: Whole documents -/

theorem renderLines_true (ls : List Line) : renderLines true ls = ls.flatMap Line.render := by
  induction ls with
  | nil => rfl
  | cons l ls ih =>
    cases ls with
    | nil => simp [renderLines]
    | cons m ls =>
      rw [renderLines, ih]
      rfl

theorem renderLines_false_append (ls : List Line) (l : Line) :
    renderLines false (ls ++ [l]) = ls.flatMap Line.render ++ l.text := by
  induction ls with
  | nil => rfl
  | cons k ls ih =>
    cases ls with
    | nil => simp [renderLines]
    | cons m ls =>
      rw [List.cons_append, List.cons_append, renderLines, ← List.cons_append, ih]
      simp

/-- The lines of a text: stable ones, and what follows the last line feed, if anything
    does. -/
structure Reads (text : List Char) (complete : List Line) (rest : List Char)
    (guess : LineEnding) : Prop where
  text_eq    : text = complete.flatMap Line.render ++ rest
  lines      : (parse text).lines = complete ++ if rest.isEmpty then [] else [⟨rest, guess⟩]
  terminated : (parse text).terminated = (rest.isEmpty && !complete.isEmpty)
  oneLine    : ∀ l ∈ complete, '\n' ∉ l.text
  restLine   : '\n' ∉ rest
  stable     : ∀ l ∈ complete, l.Stable

/-- Reading a text gives what follows its last line feed as it is, and before that the
    lines whose terminators end in a line feed. -/
theorem reads_of_splitBodies {text : List Char} {bodies : List (List Char)} {rest : List Char}
    (h : splitBodies [] text = (bodies, rest)) :
    ∃ guess, Reads text (bodies.map Line.ofBody) rest guess := by
  obtain ⟨htext, hbodies, hrest⟩ := @splitBodies_spec text [] (by simp)
  rw [h] at htext hbodies hrest
  refine ⟨((bodies.map Line.ofBody).getLast?.map Line.ending).getD
    (prevailingEnding (bodies.map Line.ofBody)), ?_, ?_, ?_, ?_, hrest, ?_⟩
  · -- a line is written as what stood before its line feed, and that
    rw [← List.nil_append text, ← List.reverse_nil, ← htext, List.flatMap_map]
    congr 1
    apply List.flatMap_congr
    intro b _
    rw [Line.render_eq_body, Line.body_ofBody]
  · unfold parse
    simp only [h]
    split
    · rw [List.append_nil]
    · rfl
  · unfold parse
    simp only [h, List.isEmpty_map]
  · -- only a carriage return is taken from the text of a line
    intro l hl hmem
    obtain ⟨b, hb, rfl⟩ := List.mem_map.1 hl
    apply hbodies b hb
    rw [← Line.body_ofBody b]
    unfold Line.body
    split
    · exact hmem
    · exact List.mem_append_left _ hmem
  · intro l hl
    obtain ⟨b, -, rfl⟩ := List.mem_map.1 hl
    exact Line.stable_ofBody b

/-- No line that was read holds a line feed. -/
theorem Reads.newline_not_mem {text : List Char} {complete : List Line} {rest : List Char}
    {guess : LineEnding} (h : Reads text complete rest guess) :
    ∀ l ∈ (parse text).lines, '\n' ∉ l.text := by
  intro l hl
  rw [h.lines] at hl
  rcases List.mem_append.1 hl with hl | hl
  · exact h.oneLine l hl
  · split at hl
    · simp at hl
    · rw [List.mem_singleton.1 hl]
      exact h.restLine

theorem exists_reads (text : List Char) :
    ∃ complete rest guess, Reads text complete rest guess := by
  obtain ⟨guess, h⟩ := @reads_of_splitBodies text _ _ rfl
  exact ⟨_, _, guess, h⟩

/-- Lines that were written are read as their texts say, and what follows them as it is. -/
theorem parse_flatMap_render {ls : List Line} (hls : ∀ l ∈ ls, '\n' ∉ l.text)
    {rest : List Char} (hrest : '\n' ∉ rest) :
    ∃ guess,
      Reads (ls.flatMap Line.render ++ rest) (ls.map fun l => .ofBody l.body) rest guess := by
  obtain ⟨guess, h⟩ := reads_of_splitBodies (splitBodies_flatMap_render hls hrest)
  rw [List.map_map] at h
  exact ⟨guess, h⟩

/-- Stable lines that were written are read. -/
theorem reads_flatMap_render {ls : List Line} (hls : ∀ l ∈ ls, '\n' ∉ l.text)
    (hstable : ∀ l ∈ ls, l.Stable) {rest : List Char} (hrest : '\n' ∉ rest) :
    ∃ guess, Reads (ls.flatMap Line.render ++ rest) ls rest guess := by
  obtain ⟨guess, h⟩ := parse_flatMap_render hls hrest
  have hsame : (ls.map fun l => Line.ofBody l.body) = ls := by
    conv_rhs => rw [← List.map_id ls]
    apply List.map_congr_left
    intro l hl
    exact hstable l hl
  rw [hsame] at h
  exact ⟨guess, h⟩

theorem Reads.render_eq {text : List Char} {complete : List Line} {rest : List Char}
    {guess : LineEnding} (h : Reads text complete rest guess) : (parse text).render = text := by
  unfold render
  rw [h.lines, h.terminated]
  cases hrest : rest.isEmpty with
  | true =>
    -- all lines are complete, and written with their terminators if there are any
    rw [List.isEmpty_iff] at hrest
    subst hrest
    have hdone := h.text_eq
    rw [List.append_nil] at hdone
    cases complete with
    | nil => exact hdone.symm
    | cons l ls =>
      rw [hdone, ← renderLines_true]
      simp
  | false =>
    rw [Bool.false_and, if_neg (by simp), renderLines_false_append, ← h.text_eq]

/-- A text that is read and written again is the same text. -/
theorem render_parse (text : List Char) : (parse text).render = text := by
  obtain ⟨complete, rest, guess, h⟩ := exists_reads text
  exact h.render_eq

end Document

end Marginalia
