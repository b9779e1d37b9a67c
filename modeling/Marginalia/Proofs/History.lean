import Marginalia.Proofs.Answers
import Marginalia.Proofs.Bracketing
import Marginalia.Proofs.TemporaryFiles

/-! # Many operations on one file

    A tagger keeps nothing in memory: each of its operations reads the file, and a change
    writes it. That is nearly the same as keeping one document and working on that.

    * **`Document.history`**: what some operations on one document answer, and the texts
      that it has in between. **`Document.rereadHistory`** is the same if the text is read
      again before each of them.
    * **`Document.rereadHistory_eq_iff`**: both are the same exactly if all operations hide
      that.
    * **`Document.hidesRereadings_of_terminated`**: they do in a text that ends in a line
      feed, as long as no other terminators are read than were written.
    * **`FileTagger.history_eq_iff`**: the same of a file that is replaced through temporary
      files, whatever order the tables have in which open tags are looked up. -/

namespace Marginalia

/-! ## Section 1: Histories -/

/-- The same is asked for, but the tables may be others. -/
inductive Operation.Alike : Operation → Operation → Prop where
  | change (c : Change) : Alike (.change c) (.change c)
  | list (order order' : TableOrder) : Alike (.list order) (.list order')

/-- Answers that differ at most in what the tables decide about a listing. -/
inductive Answer.Agrees : Except Failure Answer → Except Failure Answer → Prop where
  | same (a : Except Failure Answer) : Agrees a a
  | listing {l l' : Listing} (h : l.Agrees l') : Agrees (.ok (.listing l)) (.ok (.listing l'))

/-- Only listings depend on tables. -/
theorem Answer.Agrees.eq {a a' : Except Failure Answer} (h : Agrees a a')
    (hlisting : ∀ l, a ≠ .ok (.listing l)) : a = a' := by
  cases h with
  | same _ => rfl
  | listing _ => exact absurd rfl (hlisting _)

/-- Such answers with the same text after them. -/
def Answer.Matches {α : Type} (r r' : Except Failure Answer × α) : Prop :=
  Agrees r.1 r'.1 ∧ r.2 = r'.2

namespace Document

variable {g : Grammar} {d d' : Document}

/-- The answers to operations on one document, each with the text after it. -/
def history (g : Grammar) (d : Document) : List Operation →
    List (Except Failure Answer × List Char)
  | []        => []
  | op :: ops =>
    let (a, d') := d.answer g op
    (a, d'.render) :: d'.history g ops

/-- The answers to operations each of which reads the text that the one before has left. -/
def rereadHistory (g : Grammar) (text : List Char) : List Operation →
    List (Except Failure Answer × List Char)
  | []        => []
  | op :: ops =>
    let (a, d') := (parse text).answer g op
    (a, d'.render) :: rereadHistory g d'.render ops

theorem history_cons (g : Grammar) (d : Document) (op : Operation) (ops : List Operation) :
    d.history g (op :: ops) =
      ((d.answer g op).1, (d.answer g op).2.render) :: (d.answer g op).2.history g ops := rfl

theorem rereadHistory_cons (g : Grammar) (text : List Char) (op : Operation)
    (ops : List Operation) :
    rereadHistory g text (op :: ops) =
      (((parse text).answer g op).1, ((parse text).answer g op).2.render) ::
        rereadHistory g ((parse text).answer g op).2.render ops := rfl

/-- None of the operations can tell. -/
def HidesRereadings (g : Grammar) (d : Document) : List Operation → Prop
  | []        => True
  | op :: ops => d.HidesRereading g op ∧ (d.answer g op).2.HidesRereadings g ops

/-- No other terminators are read than were written. -/
def KeepsAllReturns (g : Grammar) (d : Document) : List Operation → Prop
  | []        => True
  | op :: ops => d.KeepsReturns ∧ (d.answer g op).2.KeepsAllReturns g ops

instance decidableHidesRereadings (g : Grammar) : (d : Document) → (ops : List Operation) →
    Decidable (d.HidesRereadings g ops)
  | _, []        => inferInstanceAs (Decidable True)
  | d, op :: ops =>
    have := decidableHidesRereadings g (d.answer g op).2 ops
    inferInstanceAs (Decidable (d.HidesRereading g op ∧ _))

instance decidableKeepsAllReturns (g : Grammar) : (d : Document) → (ops : List Operation) →
    Decidable (d.KeepsAllReturns g ops)
  | _, []        => inferInstanceAs (Decidable True)
  | d, op :: ops =>
    have := decidableKeepsAllReturns g (d.answer g op).2 ops
    inferInstanceAs (Decidable (d.KeepsReturns ∧ _))

/-! ## Section 2: Many operations -/

/-- Operations bring no line feed into a line. -/
theorem OneLine.answer (h : d.OneLine) (g : Grammar) (op : Operation) :
    (d.answer g op).2.OneLine := by
  cases op with
  | list order => exact h
  | change c =>
    cases happly : c.apply g d with
    | error f =>
      rw [answer_change_error happly]
      exact h
    | ok r =>
      rw [answer_change_ok happly]
      rcases apply_cases happly with ⟨identifier, start, stop, p, hadd, -⟩ | ⟨sel, hremove, -⟩
      · exact h.addTags hadd
      · simp only [hremove]
        exact h.remove g sel

/-- Reading the text again before each operation is the same as working on one document
    exactly if every operation hides that. -/
theorem rereadHistory_eq_iff (hline : d.OneLine) (ops : List Operation) :
    rereadHistory g d.render ops = d.history g ops ↔ d.HidesRereadings g ops := by
  induction ops generalizing d with
  | nil => simp [rereadHistory, history, HidesRereadings]
  | cons op ops ih =>
    have hstep := answersAlike_iff (g := g) hline op
    have hrest := ih (hline.answer g op)
    simp only [rereadHistory_cons, history_cons, HidesRereadings, List.cons.injEq, Prod.mk.injEq]
    -- once the text after the first operation is the same, so is what the others read
    constructor
    · intro hsame
      obtain ⟨⟨hanswer, htext⟩, htail⟩ := hsame
      rw [htext, hrest] at htail
      exact ⟨hstep.1 ⟨hanswer, htext⟩, htail⟩
    · intro hhides
      obtain ⟨hhides, htail⟩ := hhides
      obtain ⟨hanswer, htext⟩ := hstep.2 hhides
      rw [htext, hrest]
      exact ⟨⟨hanswer, rfl⟩, htail⟩

/-- Whether the last line is terminated does not change. -/
theorem terminated_answer (d : Document) (g : Grammar) (op : Operation) :
    (d.answer g op).2.terminated = d.terminated := by
  cases op with
  | list order => rfl
  | change c =>
    cases happly : c.apply g d with
    | error f => rw [answer_change_error happly]
    | ok r =>
      rw [answer_change_ok happly]
      rcases apply_cases happly with ⟨identifier, start, stop, p, hadd, -⟩ | ⟨sel, hremove, -⟩
      · exact terminated_of_addTags hadd
      · simp only [hremove]
        rfl

/-- If the terminators are those that were written, no carriage return moves. -/
theorem not_movesReturn (hstable : d.KeepsReturns) (op : Operation) : ¬ d.MovesReturn g op := by
  have huncovers : ∀ sel, ¬ d.UncoversReturn g sel := by
    intro sel huncovered
    obtain ⟨-, l, hl, hunstable⟩ := huncovered
    exact hunstable (hstable l (List.mem_filter.1 (List.mem_of_getLast? hl)).1)
  cases op with
  | list order => exact id
  | change c =>
    cases c with
    | add identifier start stop =>
      intro hmoves
      obtain ⟨-, i, -, l, hl, hunstable⟩ := hmoves
      exact hunstable (hstable l (List.mem_of_getElem? hl))
    | remove identifier => exact huncovers _
    | removeMatching pattern =>
      intro hmoves
      obtain ⟨p, -, huncovered⟩ := hmoves
      exact huncovers _ huncovered
    | clear => exact huncovers _

theorem passesReturns (hstable : d.KeepsReturns) (op : Operation) : d.PassesReturns g op := by
  cases op with
  | list order => trivial
  | change c =>
    cases c with
    | add identifier start stop => trivial
    | remove identifier => trivial
    | removeMatching pattern => exact fun p _ => stripsAlike_of_keepsReturns hstable g (.pattern p)
    | clear => trivial

/-- In a text that ends in a line feed, no operation can tell whether it is read again, if the
    terminators are always those that were written. -/
theorem hidesRereadings_of_terminated (hend : d.terminated = true) {ops : List Operation}
    (hstable : d.KeepsAllReturns g ops) : d.HidesRereadings g ops := by
  induction ops generalizing d with
  | nil => trivial
  | cons op ops ih =>
    obtain ⟨hkeeps, hrest⟩ := hstable
    have hfull : ¬ d.EndsEmpty := fun hempty => absurd (hend.symm.trans hempty.1) (by decide)
    have hoverlooks : d.Overlooks g op :=
      ⟨fun hempty => absurd hempty hfull, fun _ => .inl hend, not_movesReturn hkeeps op⟩
    exact ⟨⟨fun _ => hoverlooks, fun hno => absurd (passesReturns hkeeps op) hno⟩,
      ih ((d.terminated_answer g op).trans hend) hrest⟩

/-- A listing hides everything. -/
theorem hidesRereading_list (g : Grammar) (d : Document) (order : TableOrder) :
    d.HidesRereading g (.list order) :=
  ⟨fun _ => ⟨fun _ => id, fun hbelow => absurd hbelow id, id⟩, fun hno => absurd trivial hno⟩

theorem answer_change_ne_listing (g : Grammar) (d : Document) (c : Change) (l : Listing) :
    (d.answer g (.change c)).1 ≠ .ok (.listing l) := by
  cases happly : c.apply g d with
  | ok r => simp [answer_change_ok happly]
  | error f => simp [answer_change_error happly]

/-- Other tables can only change the order of tags in a listing. -/
theorem history_agrees (d : Document) {ops ops' : List Operation}
    (h : List.Forall₂ Operation.Alike ops ops') :
    List.Forall₂ Answer.Matches (d.history g ops) (d.history g ops') := by
  induction h generalizing d with
  | nil => exact .nil
  | cons hop _ ih =>
    cases hop with
    | change c => exact .cons ⟨.same _, rfl⟩ (ih _)
    | list order order' => exact .cons ⟨.listing (d.listing_agrees g order order'), rfl⟩ (ih d)

/-- The same holds if the listings are compared without what depends on the tables. -/
theorem rereadHistory_agrees_iff (hline : d.OneLine) {ops ops' : List Operation}
    (h : List.Forall₂ Operation.Alike ops ops') :
    List.Forall₂ Answer.Matches (rereadHistory g d.render ops) (d.history g ops') ↔
      d.HidesRereadings g ops := by
  constructor
  · intro hmatches
    induction h generalizing d with
    | nil => trivial
    | @cons op op' ops ops' hop _ ih =>
      rw [rereadHistory_cons, history_cons, List.forall₂_cons] at hmatches
      obtain ⟨⟨hanswer, htext⟩, hrest⟩ := hmatches
      simp only at hanswer htext
      rw [htext] at hrest
      cases hop with
      | change c =>
        -- what a change answers does not depend on a table
        have hsame := hanswer.eq (answer_change_ne_listing g _ c)
        exact ⟨(answersAlike_iff hline (.change c)).1 ⟨hsame, htext⟩,
          ih (hline.answer g (.change c)) hrest⟩
      | list order order' => exact ⟨d.hidesRereading_list g order, ih hline hrest⟩
  · intro hhides
    rw [(rereadHistory_eq_iff hline ops).2 hhides]
    exact d.history_agrees h

/-- A change that does not have to be written has changed nothing. -/
theorem apply_eq_self {c : Change} {o : Outcome} (h : c.apply g d = .ok (d', o))
    (ho : o.isWritten = false) : d' = d := by
  rcases apply_cases h with ⟨identifier, start, stop, p, -, rfl⟩ | ⟨sel, rfl, rfl⟩
  · exact absurd ho (by simp [Outcome.isWritten])
  · apply remove_eq_self
    simpa [Outcome.isWritten, Removal.isEmpty] using ho

end Document

/-! ## Section 3: Files -/

/-- The file at a path holds a text, and can be replaced. -/
structure Directory.Holds (dir : Directory) (p : FilePath) (text : String) : Prop where
  read  : dir.readText p = .ok text
  write : ∀ bytes, (dir.writeBytes p bytes).2 = .ok ()

/-- A text that was written is held. -/
theorem Directory.Holds.writeText {dir : Directory} {p : FilePath} {text : String}
    (h : dir.Holds p text) (text' : String) :
    ∃ dir', dir.writeText p text' = (dir', .ok ()) ∧ dir'.Holds p text' := by
  have hwrite : dir.writeText p text' = ((dir.writeText p text').1, .ok ()) :=
    Prod.ext rfl (h.write text'.toUTF8)
  obtain ⟨l, mode, -, -, hread', hwrite'⟩ :=
    readBytes_writeBytes (readText_eq_ok_iff.1 h.read) hwrite
  refine ⟨_, hwrite, readText_eq_ok_iff.2 hread', fun bytes => ?_⟩
  rw [hwrite']

/-- A process with this number can replace the file through a temporary file: nothing is where
    that is made, and its name is not too long. -/
structure Directory.HoldsFor (process : Nat) (dir : Directory) (p : FilePath) (text : String) :
    Prop extends dir.Holds p text where
  spare : dir.Spare process p
  fits  : dir.Fits process p

/-- A text that was written through a temporary file is held in the same way. -/
theorem Directory.HoldsFor.writeThrough {process : Nat} {dir : Directory} {p : FilePath}
    {text : String} (h : dir.HoldsFor process p text) (text' : String) :
    ∃ dir', dir.writeThrough process p text'.toUTF8 = (dir', .ok ()) ∧
      dir'.HoldsFor process p text' := by
  obtain ⟨dir', hwrite, hholds⟩ := h.writeText text'
  obtain ⟨hspare, hfits⟩ := spare_and_fits_of_writeBytes (readText_eq_ok_iff.1 h.read) hwrite
  refine ⟨dir', ?_, hholds, hspare h.spare, hfits h.fits⟩
  rcases writeThrough_cases h.spare text'.toUTF8 with ⟨dir₁, hbytes, hthrough⟩ | ⟨w, -, hnever⟩
  · rw [hthrough, ← hbytes]
    exact hwrite
  · exact absurd hwrite (hnever h.fits dir')

namespace FileTagger

variable {t : FileTagger} {process : Nat} {dir : Directory} {text : String}

/-- What an operation on the file answers. -/
def answer (t : FileTagger) : Operation → FileScript (Except Failure Answer)
  | .change c => return (← t.perform c).map .outcome
  | .list order => return (← t.list order).map .listing

/-- The answers to operations on the file, each with what is in the file after it, in a process
    that replaces it through temporary files. -/
def history (t : FileTagger) (process : Nat) (dir : Directory) : List Operation →
    List (Except Failure Answer × Except FileFault String)
  | []        => []
  | op :: ops =>
    let (a, dir') := (t.answer op).runThrough process dir
    (a, dir'.readText t.path) :: t.history process dir' ops

/-- An answer, and the text after it as it is found in a file. -/
def inFile (r : Except Failure Answer × List Char) :
    Except Failure Answer × Except FileFault String :=
  (r.1, .ok (String.ofList r.2))

theorem inFile_injective : Function.Injective inFile := by
  intro r r' hsame
  obtain ⟨hanswer, htext⟩ := Prod.mk.inj hsame
  exact Prod.ext hanswer (String.ofList_injective (Except.ok.inj htext))

theorem matches_inFile_iff {r r' : Except Failure Answer × List Char} :
    Answer.Matches (inFile r) (inFile r') ↔ Answer.Matches r r' := by
  refine and_congr_right fun _ => ⟨fun htext => ?_, fun htext => by rw [inFile, htext]; rfl⟩
  exact String.ofList_injective (Except.ok.inj htext)

/-- An operation works on the document in the file. -/
theorem runThrough_answer (h : dir.HoldsFor process t.path text) (op : Operation) :
    ∃ dir', (t.answer op).runThrough process dir =
        (((Document.parse text.toList).answer t.grammar op).1, dir') ∧
      dir'.HoldsFor process t.path
        (String.ofList ((Document.parse text.toList).answer t.grammar op).2.render) := by
  have hkept : String.ofList (Document.parse text.toList).render = text := by
    rw [Document.render_parse, String.ofList_toList]
  cases op with
  | list order =>
    refine ⟨dir, ?_, ?_⟩
    · unfold answer list FileScript.runThrough
      rw [FileScript.runWith_bind, FileScript.runWith_bind, runWith_read, h.read]
      rfl
    · exact hkept.symm ▸ h
  | change c =>
    unfold answer FileScript.runThrough
    simp only [FileScript.runWith_bind, runWith_perform, h.read, FileScript.runWith_pure]
    cases happly : c.apply t.grammar (.parse text.toList) with
    | error f =>
      rw [Document.answer_change_error happly]
      exact ⟨dir, rfl, hkept.symm ▸ h⟩
    | ok r =>
      obtain ⟨d, o⟩ := r
      rw [Document.answer_change_ok happly]
      obtain ⟨dir', hwrite, h'⟩ := h.writeThrough (String.ofList d.render)
      simp only [hwrite]
      cases ho : o.isWritten with
      | true => exact ⟨dir', rfl, h'⟩
      | false =>
        -- nothing is written, but then the document is the one that was read
        rw [Document.apply_eq_self happly ho]
        exact ⟨dir, rfl, hkept.symm ▸ h⟩

/-- A tagger reads the text again before each operation. -/
theorem history_eq_rereadHistory (h : dir.HoldsFor process t.path text) (ops : List Operation) :
    t.history process dir ops =
      (Document.rereadHistory t.grammar text.toList ops).map inFile := by
  induction ops generalizing dir text with
  | nil => rfl
  | cons op ops ih =>
    obtain ⟨dir', hrun, h'⟩ := runThrough_answer h op
    simp only [history, hrun, h'.read, ih h', String.toList_ofList, Document.rereadHistory,
      List.map_cons, inFile]

/-- A file that can be read and replaced holds its text. -/
theorem holdsFor_of_write (hread : dir.readText t.path = .ok text)
    (hwrite : ∃ bytes, (dir.writeBytes t.path bytes).2 = .ok ())
    (hspare : dir.Spare process t.path) (hfits : dir.Fits process t.path) :
    dir.HoldsFor process t.path text := by
  obtain ⟨bytes, hwrite⟩ := hwrite
  exact ⟨⟨hread, Directory.writeBytes_of_writeBytes (Directory.readText_eq_ok_iff.1 hread) hwrite⟩,
    hspare, hfits⟩

/-- The answers of a tagger, and the texts that it leaves in the file, are those of one
    document that was read from the file at the beginning, exactly if every operation hides
    that the file was written and read in between. If they list tags with other tables, the
    listings agree. -/
theorem history_eq_iff (hread : dir.readText t.path = .ok text)
    (hwrite : ∃ bytes, (dir.writeBytes t.path bytes).2 = .ok ())
    (hspare : dir.Spare process t.path) (hfits : dir.Fits process t.path)
    (ops : List Operation) :
    (t.history process dir ops =
        ((Document.parse text.toList).history t.grammar ops).map inFile ↔
      (Document.parse text.toList).HidesRereadings t.grammar ops) ∧
    ∀ ops', List.Forall₂ Operation.Alike ops ops' →
      (List.Forall₂ Answer.Matches (t.history process dir ops)
          (((Document.parse text.toList).history t.grammar ops').map inFile) ↔
        (Document.parse text.toList).HidesRereadings t.grammar ops) := by
  have hline := Document.oneLine_parse text.toList
  have hrender := Document.render_parse text.toList
  rw [history_eq_rereadHistory (holdsFor_of_write hread hwrite hspare hfits)]
  constructor
  · have hiff := Document.rereadHistory_eq_iff (g := t.grammar) hline ops
    rwa [hrender, ← (List.map_injective_iff.2 inFile_injective).eq_iff] at hiff
  · intro ops' halike
    have hiff := Document.rereadHistory_agrees_iff (g := t.grammar) hline halike
    rw [hrender] at hiff
    simp only [List.forall₂_map_left_iff, List.forall₂_map_right_iff, matches_inFile_iff, hiff]

/-- A directory that holds nothing but a text in a file. -/
def onlyFile (text : String) : Directory :=
  ⟨['/', 'w'], [([['a', '.', 'c']], .file text.toUTF8 none)]⟩

theorem room_onlyFile (text : String) :
    (onlyFile text).Spare 7 ⟨['a', '.', 'c']⟩ ∧ (onlyFile text).Fits 7 ⟨['a', '.', 'c']⟩ := by
  have hprepare : (onlyFile text).prepare ⟨['a', '.', 'c']⟩ =
      (onlyFile text, .ok (['a', '.', 'c'], none)) := rfl
  exact ⟨Directory.spare_of_temporaryAt (l := [".a.c.7.tmp".toList]) hprepare rfl rfl,
    Directory.fits_of_landing (l := []) (n := ['a', '.', 'c']) hprepare rfl (by decide)⟩

/-- The last line is emptied, but nobody asks for tags on it. -/
theorem history_eq_iff_last_line_emptied :
    let t : FileTagger := ⟨⟨['a', '.', 'c']⟩, .standard⟩
    let ops := [.change (.remove ['t']), .list .byText, .change (.add ['u'] 1 1)]
    t.history 7 (onlyFile "a\n/*-?|t|?*/") ops =
      ((Document.parse "a\n/*-?|t|?*/".toList).history .standard ops).map inFile := by
  intro t ops
  have hread : (onlyFile "a\n/*-?|t|?*/").readText t.path = .ok "a\n/*-?|t|?*/" :=
    Directory.readText_eq_ok_iff.2 rfl
  obtain ⟨hspare, hfits⟩ := room_onlyFile "a\n/*-?|t|?*/"
  exact (history_eq_iff (t := t) hread ⟨.empty, rfl⟩ hspare hfits ops).1.2 (by decide)

/-- What changes can notice after tags have been removed. -/
theorem history_ne_when_noticed :
    let t : FileTagger := ⟨⟨['a', '.', 'c']⟩, .standard⟩
    let differs (text : String) (c : Change) : Prop :=
      let ops := [.change (.remove ['t']), .change c]
      t.history 7 (onlyFile text) ops ≠
        ((Document.parse text.toList).history .standard ops).map inFile
    -- the last line is empty, and not in the file any more
    differs "a\n/*-?|t|?*/" (.add ['u'] 2 2) ∧
      -- the last line ends unlike the one above it
      differs "x;\n/* a\n*/\r\n/*-?|t|?~*/" (.add ['u'] 3 3) ∧
      -- a carriage return is in front of the line feed
      differs "x\r/*-?|t|?*/\n" (.add ['u'] 1 1) ∧
      differs "x;\n/* a\n*/\r/*-?|t|?*/\n" (.add ['u'] 3 3) ∧
      differs "x\r/*-?|t|?*/\n/*-?|u|?~*/" (.remove ['u']) ∧
      differs "x\r/*-?|t|?*/\n/*-?|u|?~*/" .clear := by
  intro t differs
  have hdiffers : ∀ {text : String} {c : Change}, (onlyFile text).readText t.path = .ok text →
      Document.rereadHistory .standard text.toList [.change (.remove ['t']), .change c] ≠
        (Document.parse text.toList).history .standard
          [.change (.remove ['t']), .change c] →
      differs text c := by
    intro text c hread hne hsame
    obtain ⟨hspare, hfits⟩ := room_onlyFile text
    rw [history_eq_rereadHistory (holdsFor_of_write hread ⟨.empty, rfl⟩ hspare hfits)] at hsame
    exact hne (List.map_injective_iff.2 inFile_injective hsame)
  refine ⟨?_, ?_, ?_, ?_, ?_, ?_⟩ <;>
    exact hdiffers (Directory.readText_eq_ok_iff.2 rfl) (by decide)

end FileTagger

end Marginalia
