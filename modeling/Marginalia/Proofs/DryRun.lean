import Marginalia.Proofs.Arguments
import Marginalia.Proofs.Effects
import Marginalia.Proofs.History

/-! # Dry runs

    A dry run shows what a change would do, without doing it.

    * **`Command.dry`**: a command as a dry run.
    * **`FileTagger.run_preview_and_perform`**: a preview and the change itself, side by side.
    * **`Exit.Previews`**: what a dry run prints, compared to what the change prints.
    * **`Invocation.read_insert_dryRunWord`**: a command line with the switch in it.
    * **`runWords_dryRun`**: a dry run of any command line that makes a change. -/

namespace Marginalia

/-! ## Section 1: Commands -/

namespace Command

/-- The change that a command makes to a file, whose language may be named. -/
def change? : Command → Option (Text × Option Text × Change)
  | .add file identifier start stop language _ =>
    some (file, language, .add identifier start (stop.getD start))
  | .remove file identifier isPattern language _ =>
    some (file, language, if isPattern then .removeMatching identifier else .remove identifier)
  | .clear file language _ => some (file, language, .clear)
  | _ => none

/-- The same command, but a change is only shown. -/
def dry : Command → Command
  | .add file identifier start stop language _ => .add file identifier start stop language true
  | .remove file identifier isPattern language _ => .remove file identifier isPattern language true
  | .clear file language _ => .clear file language true
  | c => c

variable {c : Command}

theorem run_of_change? {file : Text} {language : Option Text} {ch : Change}
    (h : c.change? = some (file, language, ch)) (context : Context) (order : TableOrder) :
    c.run context order = context.change file language c.isReadOnly ch := by
  cases c with
  | add | remove | clear =>
    cases h
    rfl
  | list | languages | init => cases h

@[simp] theorem change?_dry (c : Command) : c.dry.change? = c.change? := by
  cases c <;> rfl

theorem isReadOnly_dry {ch : Text × Option Text × Change} (h : c.change? = some ch) :
    c.dry.isReadOnly = true := by
  cases c with
  | add | remove | clear => rfl
  | list | languages | init => cases h

end Command

/-! ## Section 2: Files -/

/-- A file that can be read at a path can be replaced there. -/
def Directory.LetsWrite (d : Directory) (p : FilePath) : Prop :=
  ∀ text, d.readText p = .ok text → d.Holds p text

namespace FileTagger

variable {t : FileTagger} {dir : Directory}

/-- A change of a file that can be replaced fails if its preview does. If it does not, both
    report the same, and the text of the preview is then in the file, even if nothing was
    written because nothing has changed. -/
theorem run_preview_and_perform (h : dir.LetsWrite t.path) (ch : Change) :
    (∃ f, (t.preview ch).run dir = (.error f, dir) ∧ (t.perform ch).run dir = (.error f, dir)) ∨
      ∃ d o dir', (t.preview ch).run dir = (.ok (d, o), dir) ∧
        (t.perform ch).run dir = (.ok o, dir') ∧
          dir'.readText t.path = .ok (String.ofList d.render) := by
  rw [run_perform]
  unfold preview
  rw [FileScript.run_bind, run_read]
  cases hread : dir.readText t.path with
  | error f => exact .inl ⟨_, rfl, rfl⟩
  | ok text =>
    simp only [FileScript.run_pure]
    cases happly : ch.apply t.grammar (.parse text.toList) with
    | error f => exact .inl ⟨f, rfl, rfl⟩
    | ok r =>
      obtain ⟨d, o⟩ := r
      cases hwritten : o.isWritten with
      | true =>
        obtain ⟨dir', hwrite, h'⟩ := (h text hread).writeText (String.ofList d.render)
        exact .inr ⟨d, o, dir', rfl, by simp [hwritten, hwrite], h'.read⟩
      | false =>
        -- the text in the file is what the preview shows
        refine .inr ⟨d, o, dir, rfl, by simp [hwritten], ?_⟩
        rw [Document.apply_eq_self happly hwritten, Document.render_parse, String.ofList_toList,
          hread]

end FileTagger

/-! ## Section 3: Reports -/

/-- A dry run ends as the change does, and prints the same if that fails. If it does not, the
    contents that the file has after the change stand between the heading and what is
    reported, as whole lines. -/
structure Exit.Previews (shown made : Exit) (heading : Text)
    (contents : Except FileFault String) : Prop where
  code   : shown.code = made.code
  errors : shown.errors = made.errors
  failed : made.code ≠ 0 → shown.output = made.output
  done   : made.code = 0 → ∃ text report, contents = .ok text ∧
    made.output = heading ++ report ∧
    shown.output = heading ++ (outputLine "=> Dry run, file not written:" ++ text.toList ++
      (if text.toList.getLast? = some '\n' then [] else ['\n'])) ++ report

namespace Context

variable {c : Context} {d : Directory}

/-- A dry run of a change, compared to the change itself. -/
theorem run_change_dryRun {file : Text} (h : d.LetsWrite (.join c.home file))
    (language : Option Text) (ch : Change) :
    let shown := (c.change file language true ch).run d
    let made := (c.change file language false ch).run d
    shown.2 = d ∧ shown.1.exit.Previews made.1.exit (ch.heading (.join c.home file))
      (made.2.readText (.join c.home file)) := by
  intro shown made
  have hfailed : ∀ output f contents, (Report.failed output f).exit.Previews
      (Report.failed output f).exit (ch.heading (.join c.home file)) contents :=
    fun output f contents => ⟨rfl, rfl, fun _ => rfl, fun h => absurd h Nat.one_ne_zero⟩
  simp only [shown, made]
  unfold change
  simp only [FileScript.run_bind, (readsOnly_tagger file language).snd_run]
  cases htagger : ((c.tagger file language).run d).1 with
  | error f => exact ⟨rfl, hfailed _ f _⟩
  | ok t =>
    have hpath := path_of_runWith_tagger htagger
    rw [← hpath] at h ⊢
    simp only [if_true, Bool.false_eq_true, if_false, FileScript.run_bind]
    rcases t.run_preview_and_perform h ch with
      ⟨f, hshown, hmade⟩ | ⟨doc, o, d', hshown, hmade, hread⟩
    · rw [hshown, hmade]
      exact ⟨rfl, hpath ▸ hfailed _ f _⟩
    · rw [hshown, hmade]
      refine ⟨rfl, rfl, rfl, fun h => absurd rfl h, fun _ => ⟨_, o.text, hread, rfl, ?_⟩⟩
      rw [String.toList_ofList]
      rfl

end Context

/-! ## Section 4: Command lines -/

/-- The word that asks for a dry run. -/
def dryRunWord : Text := "--dry-run".toList

/-- With the switch in front of them, the same words are the same command as a dry run. -/
theorem Verb.command?_behind (v : Verb) (g : Given) :
    v.command? (g.behind .dryRun) = (v.command? g).map Command.dry := by
  have hoperands : (g.behind .dryRun).operands = g.operands := rfl
  have hvalue : (g.behind .dryRun).value? .language = g.value? .language := rfl
  have hdry : (g.behind .dryRun).has .dryRun = true := by simp [Given.has_behind]
  have hother : ∀ s : Switch, s ≠ .dryRun → (g.behind .dryRun).has s = g.has s := by
    intro s hs
    simp [Given.has_behind, hs]
  unfold command?
  simp only [hoperands, hvalue, hdry, hother .regex (by decide), hother .json (by decide),
    hother .force (by decide)]
  split
  · next file identifier start _ => cases number? start <;> rfl
  · next file identifier start stop _ => cases number? start <;> cases number? stop <;> rfl
  all_goals rfl

/-- A verb that changes files takes the switch, and only then makes a dry run of the change. -/
theorem Verb.sort_dryRunWord {v : Verb} {g : Given} {c : Command} (h : v.command? g = some c)
    {ch : Text × Option Text × Change} (hchange : c.change? = some ch) :
    c.isReadOnly = g.has .dryRun ∧ ∀ ws, v.signature.sort {} none (dryRunWord :: ws) =
      v.signature.sort (({} : Given).behind .dryRun) none ws := by
  unfold command? at h
  split at h
  · obtain ⟨n, -, rfl⟩ := Option.map_eq_some_iff.1 h
    exact ⟨rfl, fun ws => rfl⟩
  · obtain ⟨n, -, hn⟩ := Option.bind_eq_some_iff.1 h
    obtain ⟨m, -, rfl⟩ := Option.map_eq_some_iff.1 hn
    exact ⟨rfl, fun ws => rfl⟩
  all_goals cases h
  · exact ⟨rfl, fun ws => rfl⟩
  · exact ⟨rfl, fun ws => rfl⟩
  -- the other verbs make no change
  all_goals cases hchange

/-- A command line that makes a change, and the same with the switch behind the name of the
    command. -/
theorem Invocation.read_insert_dryRunWord {environment : Option Text} {words : List Text}
    {i : Invocation} (h : Invocation.read environment words = .ok i) {c : Command}
    (hc : i.command = some c) {ch : Text × Option Text × Change} (hchange : c.change? = some ch)
    (hmade : c.isReadOnly = false) :
    ∃ before name rest, words = before ++ name :: rest ∧
      Invocation.read environment (before ++ name :: dryRunWord :: rest) =
        .ok { i with command := some c.dry } := by
  obtain ⟨verbose, config, command⟩ := i
  obtain rfl : command = some c := hc
  obtain ⟨outer, name, rest, v, inner, more, houter, hname, hverb, hinner, hconfig, hcommand,
    hverbose⟩ := read_eq_ok_iff.1 h
  obtain ⟨hsort, hrequired⟩ := Signature.read_eq_ok_iff.1 houter
  obtain ⟨hsort', hrequired'⟩ := Signature.read_eq_ok_iff.1 hinner
  obtain ⟨before, rfl, hbefore⟩ := Signature.sort_of_stop hsort
  obtain ⟨hflag, hword⟩ := Verb.sort_dryRunWord hcommand hchange
  obtain ⟨-, hbehind⟩ := Signature.sort_behind hsort' (hflag.symm.trans hmade)
  refine ⟨before, name, rest, rfl, read_eq_ok_iff.2 ⟨outer, name, dryRunWord :: rest, v,
    inner.behind .dryRun, more, ?_, hname, hverb, ?_, hconfig, ?_, ?_⟩⟩
  · exact Signature.read_eq_ok_iff.2 ⟨hbefore _, hrequired⟩
  · exact Signature.read_eq_ok_iff.2 ⟨(hword rest).trans hbehind, hrequired'⟩
  · rw [Verb.command?_behind, hcommand]
    rfl
  · rw [Given.has_behind, ← hverbose, show (Switch.verbose == Switch.dryRun) = false from rfl,
      Bool.or_false]

/-- A dry run shows what the change does: any command line that makes a change can be given
    as a dry run, which leaves the directory as it is, ends and fails like the change, and
    prints what that prints, around the contents that the file has after the change. -/
theorem runWords_dryRun {d : Directory} {environment : Option Text} {words : List Text}
    {i : Invocation} (hread : Invocation.read environment words = .ok i) {c : Command}
    (hc : i.command = some c) {file : Text} {language : Option Text} {ch : Change}
    (hchange : c.change? = some (file, language, ch)) (hmade : c.isReadOnly = false)
    (hwrite : d.LetsWrite (.join d.home file)) (order : TableOrder) :
    (∃ before name rest, words = before ++ name :: rest ∧
      Invocation.read environment (before ++ name :: dryRunWord :: rest) =
        .ok { i with command := some c.dry }) ∧
    ∀ words', Invocation.read environment words' = .ok { i with command := some c.dry } →
      let shown := (runWords d.home environment words' order).run d
      let made := (runWords d.home environment words order).run d
      shown.2 = d ∧ shown.1.Previews made.1 (ch.heading (.join d.home file))
        (made.2.readText (.join d.home file)) := by
  refine ⟨Invocation.read_insert_dryRunWord hread hc hchange hmade, ?_⟩
  intro words' hread'
  have hdry : c.dry.change? = some (file, language, ch) := (c.change?_dry).trans hchange
  have hrun := Context.run_change_dryRun (c := ⟨d.home, i.config⟩) hwrite language ch
  unfold runWords
  simp only [hread, hread', Invocation.run, hc, FileScript.run_bind, FileScript.run_pure,
    Command.run_of_change? hchange, Command.run_of_change? hdry, hmade,
    Command.isReadOnly_dry hchange]
  exact hrun

/-- No tag is found in a file whose last line has no terminator: the preview has one more line
    feed than the file. -/
theorem runWords_dryRun_unterminated :
    let d : Directory := ⟨"/w".toList, [(["a.c".toList], .file "x;/*-?|t|?*/".toUTF8 none)]⟩
    let run := fun words => (runWords d.home none (words.map String.toList)).run d
    let shown := run ["remove", "a.c", "u", "--dry-run"]
    let made := run ["remove", "a.c", "u"]
    shown.2 = d ∧ made.1.code = 0 ∧
      ∃ report, made.1.output = outputLine "=> Removing tags u from /w/a.c" ++ report ∧
        shown.1.output = outputLine "=> Removing tags u from /w/a.c" ++
          "=> Dry run, file not written:\nx;/*-?|t|?*/\n".toList ++ report := by
  intro d run shown made
  have hread : Invocation.read none (["remove", "a.c", "u"].map String.toList) =
      .ok ⟨false, none, some (.remove "a.c".toList "u".toList false none false)⟩ := rfl
  have hread' : Invocation.read none (["remove", "a.c", "u", "--dry-run"].map String.toList) =
      .ok ⟨false, none, some (.remove "a.c".toList "u".toList false none true)⟩ := rfl
  have hwrite : d.LetsWrite (.join d.home "a.c".toList) :=
    fun _ htext => ⟨htext, fun _ => rfl⟩
  have hcode : made.1.code = 0 := by rfl
  have hunchanged : made.2 = d := by rfl
  have hcontents : d.readText (.join d.home "a.c".toList) = .ok "x;/*-?|t|?*/" :=
    Directory.readText_eq_ok_iff.2 rfl
  have hheading : (Change.remove "u".toList).heading (.join d.home "a.c".toList) =
      outputLine "=> Removing tags u from /w/a.c" := rfl
  have hmain : shown.2 = d ∧ shown.1.Previews made.1
      ((Change.remove "u".toList).heading (.join d.home "a.c".toList))
      (made.2.readText (.join d.home "a.c".toList)) :=
    (runWords_dryRun hread rfl rfl rfl hwrite .byText).2 _ hread'
  -- the runs themselves are not looked at any more
  clear_value shown made
  rw [hunchanged, hcontents, hheading] at hmain
  obtain ⟨text, report, htext, hmade, hshown⟩ := hmain.2.done hcode
  obtain rfl := Except.ok.inj htext
  exact ⟨hmain.1, hcode, report, hmade, hshown⟩

end Marginalia
