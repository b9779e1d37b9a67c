import Marginalia.FileTagger
import Marginalia.Proofs.Files
import Marginalia.Proofs.RoundTrip

/-! # Tagging files and taking it back

    Each change of a file reads the whole file, and writes the whole file if something was
    changed.

    * **`FileTagger.runWith_perform`**: all that a change does, however the file is replaced.
    * **`FileTagger.perform_remove_perform_add`**: removing the tags of an identifier gives
      a file its bytes back, but for a carriage return at its end. -/

namespace Marginalia

namespace Directory

variable {d d' : Directory}

/-- Bytes are the text that encodes to them. -/
theorem fromUTF8?_eq_some_iff {bytes : ByteArray} {text : String} :
    String.fromUTF8? bytes = some text ↔ bytes = text.toUTF8 := by
  unfold String.fromUTF8?
  rw [String.toUTF8_eq_toByteArray]
  constructor
  · intro h
    split at h
    · exact congrArg String.toByteArray (Option.some.inj h)
    · exact absurd h (by simp)
  · rintro rfl
    rw [dif_pos text.isValidUTF8]
    rfl

theorem readText_eq_ok_iff {p : FilePath} {text : String} :
    d.readText p = .ok text ↔ d.readBytes p = .ok text.toUTF8 := by
  unfold readText
  cases d.readBytes p with
  | error f => simp
  | ok bytes =>
    simp only [Except.ok.injEq]
    rw [← fromUTF8?_eq_some_iff]
    cases String.fromUTF8? bytes <;> simp

end Directory

namespace FileTagger

section Writing

variable (write : FileScript.Writing)

theorem runWith_read (t : FileTagger) (dir : Directory) :
    t.read.runWith write dir =
      match dir.readText t.path with
      | .error f => (.error (.file (.system t.path.chars f)), dir)
      | .ok text => (.ok (.parse text.toList), dir) := by
  unfold read FileScript.runWith
  cases dir.readText t.path <;> rfl

theorem runWith_write (t : FileTagger) (d : Document) (dir : Directory) :
    (t.write d).runWith write dir =
      match write dir t.path (String.ofList d.render) with
      | (dir', .error w) => (.error (.file (.ofWrite w)), dir')
      | (dir', .ok ())   => (.ok (), dir') := by
  unfold FileTagger.write FileScript.runWith
  cases write dir t.path (String.ofList d.render) with
  | mk dir' r => cases r <;> rfl

/-- All that a change of a file does. -/
theorem runWith_perform (t : FileTagger) (c : Change) (dir : Directory) :
    (t.perform c).runWith write dir =
      match dir.readText t.path with
      | .error f => (.error (.file (.system t.path.chars f)), dir)
      | .ok text =>
        match c.apply t.grammar (.parse text.toList) with
        | .error f => (.error f, dir)
        | .ok (d, o) =>
          if o.isWritten then
            match write dir t.path (String.ofList d.render) with
            | (dir', .error w) => (.error (.file (.ofWrite w)), dir')
            | (dir', .ok ())   => (.ok o, dir')
          else (.ok o, dir) := by
  unfold perform preview
  rw [FileScript.runWith_bind, FileScript.runWith_bind, runWith_read]
  cases dir.readText t.path with
  | error f => rfl
  | ok text =>
    simp only [FileScript.runWith_pure]
    cases c.apply t.grammar (.parse text.toList) with
    | error f => rfl
    | ok result =>
      obtain ⟨d, o⟩ := result
      simp only
      split
      · rw [FileScript.runWith_bind, runWith_write]
        cases write dir t.path (String.ofList d.render) with
        | mk dir' r => cases r <;> rfl
      · rfl

end Writing

theorem run_read (t : FileTagger) (dir : Directory) :
    t.read.run dir =
      match dir.readText t.path with
      | .error f => (.error (.file (.system t.path.chars f)), dir)
      | .ok text => (.ok (.parse text.toList), dir) :=
  t.runWith_read Directory.writeText dir

theorem run_perform (t : FileTagger) (c : Change) (dir : Directory) :
    (t.perform c).run dir =
      match dir.readText t.path with
      | .error f => (.error (.file (.system t.path.chars f)), dir)
      | .ok text =>
        match c.apply t.grammar (.parse text.toList) with
        | .error f => (.error f, dir)
        | .ok (d, o) =>
          if o.isWritten then
            match dir.writeText t.path (String.ofList d.render) with
            | (dir', .error w) => (.error (.file (.ofWrite w)), dir')
            | (dir', .ok ())   => (.ok o, dir')
          else (.ok o, dir) :=
  t.runWith_perform Directory.writeText c dir

/-- A change that succeeds was made to the document in the file, and was written if
    anything was changed. -/
theorem run_perform_eq_ok_iff {t : FileTagger} {c : Change} {dir dir' : Directory}
    {o : Outcome} :
    (t.perform c).run dir = (.ok o, dir') ↔
      ∃ text d, dir.readText t.path = .ok text ∧
        c.apply t.grammar (.parse text.toList) = .ok (d, o) ∧
        if o.isWritten then dir.writeText t.path (String.ofList d.render) = (dir', .ok ())
        else dir = dir' := by
  rw [run_perform]
  constructor
  · intro h
    split at h
    · exact absurd (Prod.mk.inj h).1 (by simp)
    next text hread =>
    split at h
    · exact absurd (Prod.mk.inj h).1 (by simp)
    next d q happly =>
    refine ⟨text, d, hread, ?_⟩
    split at h
    · next hwritten =>
      split at h
      · exact absurd (Prod.mk.inj h).1 (by simp)
      · next dir'' hwrite =>
        obtain ⟨hout, rfl⟩ := Prod.mk.inj h
        obtain rfl := Except.ok.inj hout
        exact ⟨happly, by rw [if_pos hwritten, hwrite]⟩
    · next hwritten =>
      obtain ⟨hout, rfl⟩ := Prod.mk.inj h
      obtain rfl := Except.ok.inj hout
      exact ⟨happly, by rw [if_neg hwritten]⟩
  · rintro ⟨text, d, hread, happly, hwrite⟩
    simp only [hread, happly]
    split at hwrite
    · next hwritten => simp only [if_pos hwritten, hwrite]
    · next hwritten => rw [if_neg hwritten, hwrite]

/-- Removing the tags of an identifier right after they were added gives the file its bytes
    back and leaves the directory as it was, but for a carriage return at the end of the
    file that a line was added below. -/
theorem perform_remove_perform_add {t : FileTagger} (hg : t.grammar.Unmarked)
    {dir dir₁ : Directory} {text : String} (hread : dir.readText t.path = .ok text)
    (hd : ∀ l ∈ (Document.parse text.toList).texts, t.grammar.hasHead l = false)
    {identifier : List Char} {start stop : Nat} {p : Placement}
    (hadd : (t.perform (.add identifier start stop)).run dir = (.ok (.placed p), dir₁)) :
    ∃ dir₂, (t.perform (.remove identifier)).run dir₁ =
        (.ok (.removed { tagsRemoved := p.tagCount, linesRemoved := p.blankCount }), dir₂) ∧
      (¬ p.LosesReturn text.toList →
        dir₂.readBytes t.path = dir.readBytes t.path ∧ ∀ l, dir₂.get? l = dir.get? l) ∧
      (p.LosesReturn text.toList →
        dir₂.readBytes t.path = .ok (String.ofList text.toList.dropLast).toUTF8) := by
  obtain ⟨text', d, hread', happly, hwrite⟩ := run_perform_eq_ok_iff.1 hadd
  obtain rfl := Except.ok.inj (hread.symm.trans hread')
  rw [Outcome.isWritten, if_pos rfl] at hwrite
  have hplaced : (Document.parse text.toList).addTags t.grammar identifier start stop =
      .ok (d, p) := by
    simp only [Change.apply] at happly
    split at happly
    · next d' p' hplaced =>
      obtain ⟨rfl, hout⟩ := Prod.mk.inj (Except.ok.inj happly)
      obtain rfl := Outcome.placed.inj hout
      exact hplaced
    · exact absurd happly (by simp)
  obtain ⟨hrender, hcount⟩ := Document.render_removeTags_parse_render hg hd hplaced
  -- the text that was written is read, and can be written again
  have hbytes := Directory.readText_eq_ok_iff.1 hread
  obtain ⟨l, mode, hfile, rfl, hread₁, hwrite₁⟩ := Directory.readBytes_writeBytes hbytes hwrite
  have hne : l ≠ [] := by
    rintro rfl
    exact absurd hfile (by simp [Directory.get?])
  cases hremove : (Document.parse d.render).removeTags t.grammar identifier with
  | mk d₂ r =>
    rw [hremove] at hrender hcount
    obtain rfl : r = ⟨p.tagCount, p.blankCount⟩ := hcount
    have hwrite₂ := hwrite₁ (String.ofList d₂.render).toUTF8
    obtain ⟨-, -, -, -, hread₂, -⟩ := Directory.readBytes_writeBytes hread₁ hwrite₂
    have hchange : (Change.remove identifier).apply t.grammar
        (.parse (String.ofList d.render).toList) =
          .ok (d₂, .removed ⟨p.tagCount, p.blankCount⟩) := by
      simp only [Change.apply, String.toList_ofList, hremove]
    have hwritten : (Outcome.removed ⟨p.tagCount, p.blankCount⟩).isWritten = true := by
      simp only [Outcome.isWritten, Removal.isEmpty, Placement.tagCount]
      split <;> rfl
    refine ⟨_, run_perform_eq_ok_iff.2 ⟨String.ofList d.render, d₂,
      Directory.readText_eq_ok_iff.2 hread₁, hchange, by rw [if_pos hwritten]; exact hwrite₂⟩,
      ?_, ?_⟩
    · intro hkept
      rw [if_neg hkept] at hrender
      have hsame : String.ofList d₂.render = text := by
        rw [hrender, String.ofList_toList]
      rw [hsame] at hread₂ ⊢
      refine ⟨hread₂.trans hbytes.symm, ?_⟩
      intro m
      rw [Directory.get?_set _ _ _ _ hne, Directory.get?_set _ _ _ _ hne]
      split
      · next heq => rw [heq, hfile]
      · rfl
    · intro hlost
      rw [if_pos hlost] at hrender
      rw [← hrender]
      exact hread₂

/-- The end tag is put behind a carriage return that no terminator follows. -/
theorem perform_remove_perform_add_mixed_endings :
    let t : FileTagger := ⟨⟨['a', '.', 'c']⟩, .standard⟩
    let dir : Directory :=
      ⟨['/', 'w'], [([['a', '.', 'c']], .file "x\r\n\n/* a\nb */\r".toUTF8 none)]⟩
    ∃ dir₁ dir₂ p, (t.perform (.add ['t'] 3 4)).run dir = (.ok (.placed p), dir₁) ∧
      (t.perform (.remove ['t'])).run dir₁ = (.ok (.removed ⟨2, 0⟩), dir₂) ∧
      dir₂.readBytes t.path = dir.readBytes t.path := by
  intro t dir
  have hread : dir.readText t.path = .ok "x\r\n\n/* a\nb */\r" :=
    Directory.readText_eq_ok_iff.2 rfl
  have hwrite : ∀ bytes, dir.writeBytes t.path bytes =
      (dir.set [['a', '.', 'c']] (.file bytes none), .ok ()) := fun _ => rfl
  obtain ⟨d, happly⟩ : ∃ d, (Change.add ['t'] 3 4).apply .standard
      (.parse "x\r\n\n/* a\nb */\r".toList) = .ok (d, .placed ⟨3, 4, 2, 4, false, false, false⟩) :=
    ⟨_, rfl⟩
  have hadd := run_perform_eq_ok_iff.2 ⟨_, d, hread, happly, hwrite _⟩
  obtain ⟨dir₂, hremove, hkept, -⟩ :=
    perform_remove_perform_add (t := t) (by decide) hread (by decide) hadd
  exact ⟨_, dir₂, _, hadd, hremove, (hkept (by decide)).1⟩

end FileTagger

end Marginalia
