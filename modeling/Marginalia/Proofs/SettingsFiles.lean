import Marginalia.Proofs.JsonText
import Marginalia.Proofs.Languages
import Marginalia.Proofs.WholeFiles

/-! # Settings that are saved and loaded

    * **`Format.Names`**: the paths of settings files, whose extensions are written in any
      case.
    * **`Format.Recovers`**: a format reads what it has written. This is assumed of the format
      that settings are saved in, and holds for JSON (`Format.recovers_json`).
    * **`Directory.Writable`**: the paths to which files can be written.
    * **`Settings.run_save`**, **`Settings.run_load`**: what saving and loading do.
    * **`Settings.load_save`**: together they merge settings with the languages that need
      none, and change nothing if the settings have been loaded before. -/

namespace Marginalia

/-! ## Section 1: Settings as texts, lists and tables -/

theorem areTextual_map_text (ts : List Text) : Data.areTextual (ts.map .text) = true := by
  induction ts with
  | nil => rfl
  | cons t ts ih => exact ih

theorem Language.isTextual_toData (l : Language) : l.toData.isTextual = true := by
  have hlist := areTextual_map_text l.extensions
  simp [toData, field, Data.isTextual, Data.haveTextual, hlist]

theorem haveTextual_languages (es : List (Text × Language)) :
    Data.haveTextual (es.map fun e => (e.1, e.2.toData)) = true := by
  induction es with
  | nil => rfl
  | cons e es ih => simp [Data.haveTextual, Language.isTextual_toData, ih]

theorem Settings.isTextual_toData (s : Settings) : s.toData.isTextual = true := by
  have hlanguages := haveTextual_languages s.languages.entries
  simp [toData, Markers.toData, charData, field, Data.isTextual, Data.haveTextual, hlanguages]

mutual

/-- TOML can hold such data. -/
theorem isWritable_of_isTextual : ∀ d : Data, d.isTextual = true → Toml.isWritable d = true
  | .text _, _   => rfl
  | .list ds, h  => areWritable_of_areTextual ds h
  | .table es, h => haveWritable_of_haveTextual es h

theorem areWritable_of_areTextual :
    ∀ ds : List Data, Data.areTextual ds = true → Toml.areWritable ds = true
  | [], _ => rfl
  | d :: ds, h => by
    rw [Data.areTextual, Bool.and_eq_true] at h
    rw [Toml.areWritable, isWritable_of_isTextual d h.1, areWritable_of_areTextual ds h.2]
    rfl

theorem haveWritable_of_haveTextual :
    ∀ es : List (Text × Data), Data.haveTextual es = true → Toml.haveWritable es = true
  | [], _ => rfl
  | (k, d) :: es, h => by
    rw [Data.haveTextual, Bool.and_eq_true] at h
    rw [Toml.haveWritable, isWritable_of_isTextual d h.1, haveWritable_of_haveTextual es h.2]
    rfl

end

/-! ## Section 2: Formats -/

/-- What is an ASCII character in lowercase was one before. -/
theorem toNat_lt_of_toLower {c : Char} (h : c.toLower.toNat < 128) : c.toNat < 128 := by
  unfold Char.toLower at h
  split at h
  · next hupper =>
    have hle : c.toNat ≤ 'Z'.toNat := UInt32.le_iff_toNat_le.1 hupper.2
    have hz : 'Z'.toNat = 90 := rfl
    omega
  · exact h

/-- The first run of the table holds the ASCII letters, and no other run an ASCII character. -/
theorem mapCode_lowering {n : Nat} (h : n < 128) :
    Unicode.mapCode Unicode.CaseTable.lowering n =
      if 0x41 ≤ n ∧ n ≤ 0x5A then n + 0x20 else n := by
  -- the table is looked through in order, so the first run decides, or none does
  have htable : Unicode.CaseTable.lowering.toList =
      ⟨0x41, 0x5A, 1, 0x61⟩ :: Unicode.CaseTable.lowering.toList.tail := rfl
  have hrest : ∀ r ∈ Unicode.CaseTable.lowering.toList.tail, 128 ≤ r.first := by decide +kernel
  have hnone : (Unicode.CaseTable.lowering.toList.tail.findSome? fun r => r.apply? n) = none := by
    rw [List.findSome?_eq_none_iff]
    intro r hr
    have hfirst := hrest r hr
    unfold Unicode.CaseTable.Run.apply?
    rw [if_neg (by omega)]
  unfold Unicode.mapCode
  rw [← Array.findSome?_toList, htable, List.findSome?_cons, hnone]
  unfold Unicode.CaseTable.Run.apply?
  by_cases hletter : 0x41 ≤ n ∧ n ≤ 0x5A
  · have hsum : 0x61 + (n - 0x41) = n + 0x20 := by omega
    simp [hletter, Nat.mod_one, hsum]
  · rw [if_neg hletter, if_neg fun hrun => hletter ⟨hrun.1, hrun.2.1⟩]
    rfl

/-- The lowercase of an ASCII character. -/
theorem lowering_eq {c : Char} (h : c.toNat < 128) :
    Char.ofNat (Unicode.mapCode Unicode.CaseTable.lowering c.toNat) = c.toLower := by
  have hall : ∀ n < 128, Char.ofNat (if 0x41 ≤ n ∧ n ≤ 0x5A then n + 0x20 else n) =
      (Char.ofNat n).toLower := by decide +kernel
  rw [mapCode_lowering h, hall _ h, Char.ofNat_toNat]

theorem lowerAfter_eq {x : List Char} (h : ∀ c ∈ x, c.toNat < 128) (before : List Char) :
    Unicode.lowerAfter before x = x.map Char.toLower := by
  induction x generalizing before with
  | nil => rfl
  | cons c x ih =>
    have hc := h c List.mem_cons_self
    -- the two letters whose lowercase is not in the table are no ASCII characters
    have hdotted : c ≠ Unicode.dottedCapitalI := by
      rintro rfl
      exact absurd hc (by decide)
    have hsigma : c ≠ Unicode.capitalSigma := by
      rintro rfl
      exact absurd hc (by decide)
    unfold Unicode.lowerAfter Unicode.lowerChar
    rw [if_neg hdotted, if_neg hsigma, lowering_eq hc,
      ih (fun d hd => h d (List.mem_cons_of_mem _ hd))]
    rfl

theorem lowercase_ofList {x : List Char} (h : ∀ c ∈ x, c.toNat < 128) :
    Unicode.lowercase (String.ofList x) = String.ofList (x.map Char.toLower) := by
  unfold Unicode.lowercase
  rw [String.toList_ofList, lowerAfter_eq h]

namespace Format

/-- The extensions of a format in lowercase. -/
def extensions : Format → List String
  | .toml => ["toml"]
  | .json => ["json"]
  | .yaml => ["yaml", "yml"]

/-- The path has an extension of the format, in lowercase letters, uppercase letters or
    both. -/
def Names (f : Format) (p : FilePath) : Prop :=
  ∃ x, p.extension? = some x ∧ ∃ e ∈ f.extensions, x.map Char.toLower = e.toList

theorem ofExtension?_of_names {f : Format} {p : FilePath} (h : f.Names p) :
    ofExtension? (extensionOf p) = some f := by
  obtain ⟨x, hx, e, he, hlower⟩ := h
  have hformat : ∀ e ∈ f.extensions, ofExtension? e = some f := by
    cases f <;> simp [extensions, ofExtension?]
  have hascii : ∀ e ∈ f.extensions, ∀ c ∈ e.toList, c.toNat < 128 := by
    cases f <;> simp [extensions]
  have hx' : ∀ c ∈ x, c.toNat < 128 := by
    intro c hc
    apply toNat_lt_of_toLower
    apply hascii e he
    rw [← hlower]
    exact List.mem_map_of_mem hc
  unfold extensionOf
  rw [hx, Option.getD_some, lowercase_ofList hx', hlower, String.ofList_toList]
  exact hformat e he

/-- Settings are written in every format. -/
theorem exists_write?_toData (f : Format) (s : Settings) :
    ∃ text, f.write? s.toData = some text := by
  cases f with
  | json => exact ⟨_, rfl⟩
  | yaml => exact ⟨_, rfl⟩
  | toml =>
    refine ⟨['\n'].intercalate (Toml.sections [] .root s.toData), ?_⟩
    show Toml.write? s.toData = _
    unfold Toml.write?
    rw [isWritable_of_isTextual _ s.isTextual_toData]
    rfl

/-- The format reads the settings from what it has written of them. -/
def Recovers (f : Format) (s : Settings) : Prop :=
  ∀ text, f.write? s.toData = some text → (f.read? text).bind (Settings.ofData? f) = some s

/-- It is enough that the format reads the tables that were written. -/
theorem recovers_of_read? {f : Format} {s : Settings}
    (h : ∀ text, f.write? s.toData = some text → f.read? text = some s.toData) :
    f.Recovers s := by
  intro text htext
  rw [h text htext, Option.bind_some, Settings.ofData?_toData]

/-- Settings are read from their JSON text. -/
theorem recovers_json (s : Settings) : json.Recovers s := by
  refine recovers_of_read? ?_
  intro text htext
  obtain rfl := Option.some.inj htext
  exact Json.read?_write s.isTextual_toData

end Format

/-! ## Section 3: Files -/

namespace Directory

variable {d d' : Directory} {p : FilePath} {text : String}

/-- Texts can be written to the path, and are what is read from it then. -/
def Writable (d : Directory) (p : FilePath) : Prop :=
  ∀ text, ∃ d', d.writeText p text = (d', .ok ()) ∧ d'.readText p = .ok text

/-- If one text can be written, then others can be as well. -/
theorem writable_of_writeText (hsees : ¬ d.Overlooks p)
    (hwrite : d.writeText p text = (d', .ok ())) : d.Writable p := by
  intro other
  obtain ⟨d₁, path, mode, l, hprepare, hlanding, -⟩ := writeBytes_eq_ok_iff.1 hwrite
  have hother : d.writeText p other = (d₁.set l (.file other.toUTF8 mode), .ok ()) :=
    writeBytes_eq_ok_iff.2 ⟨d₁, path, mode, l, hprepare, hlanding, rfl⟩
  exact ⟨_, hother, readText_of_writeText hsees hother⟩

/-- What can be read is a file. -/
theorem isFile_of_readText (h : d.readText p = .ok text) : d.isFile p = true := by
  obtain ⟨l, mode, hfind⟩ := exists_find_of_readBytes (readText_eq_ok_iff.1 h)
  unfold isFile
  rw [hfind]

end Directory

namespace Settings

variable {d d' : Directory} {p : FilePath} {f : Format} {s : Settings}

theorem run_save {text : List Char} (hnames : f.Names p) (htext : f.write? s.toData = some text)
    (hwrite : d.writeText p (String.ofList text) = (d', .ok ())) :
    (s.save p).run d = (.ok (), d') := by
  unfold save
  rw [FileScript.run_bind]
  have hsave : (saveData p s.toData).run d = (.ok (), d') := by
    unfold saveData
    simp only [Format.ofExtension?_of_names hnames, htext]
    rw [FileScript.run_writeText, hwrite]
    rfl
  rw [hsave]
  rfl

/-- What loading does where it finds settings. -/
theorem run_load {text : String} (hnames : f.Names p) (hread : d.readText p = .ok text)
    (hsettings : (f.read? text.toList).bind (ofData? f) = some s) :
    (load p).run d =
      (match s.withBuiltin.failure? with
        | some failure => .error failure
        | none => .ok s.withBuiltin, d) := by
  have hdata : (loadData p ofData?).run d = (.ok s, d) := by
    unfold loadData
    simp only [Format.ofExtension?_of_names hnames]
    rw [FileScript.run_readText, hread]
    simp only [hsettings]
    rfl
  unfold load
  rw [FileScript.run_isFile, Directory.isFile_of_readText hread]
  simp only [FileScript.run_bind, hdata]
  cases s.withBuiltin.failure? <;> rfl

/-- Settings that have been loaded are merged and accepted. -/
theorem withBuiltin_eq_of_load (h : ((load p).run d).1 = .ok s) :
    s.withBuiltin = s ∧ s.failure? = none := by
  unfold load at h
  rw [FileScript.run_isFile] at h
  cases hfile : d.isFile p with
  | false =>
    rw [hfile] at h
    exact absurd h (by simp)
  | true =>
    rw [hfile] at h
    simp only [FileScript.run_bind] at h
    cases hdata : ((loadData p ofData?).run d).1 with
    | error failure =>
      rw [hdata] at h
      exact absurd h (by simp)
    | ok given =>
      rw [hdata] at h
      simp only at h
      cases hfailure : given.withBuiltin.failure? with
      | some failure =>
        rw [hfailure] at h
        exact absurd h (by simp)
      | none =>
        rw [hfailure] at h
        obtain rfl := Except.ok.inj h
        exact ⟨withBuiltin_withBuiltin given, hfailure⟩

/-- The first language that has no grammar, and what is wrong with it. -/
def FirstFault (s : Settings) (name : Text) (fault : Spelling.Fault) : Prop :=
  (∃ l, s.languages.get? name = some l ∧ (s.spelling l).fault? = some fault) ∧
    ∀ n m, Text.precedes n name = true → s.languages.get? n = some m →
      (s.spelling m).fault? = none

/-- Saving settings to a path that can be written to, and loading them, merges them with the
    languages that need none, or is refused for the first language that has no grammar. The
    settings stay the same exactly if they have a language for each name of those. So do
    settings that have been loaded before, and all languages of these have grammars. -/
theorem load_save (hnames : f.Names p) (hwritable : d.Writable p) (hrecovers : f.Recovers s) :
    ∃ d', (s.save p).run d = (.ok (), d') ∧
      ((load p).run d' = (.ok s.withBuiltin, d') ∧
          (∀ name l, s.withBuiltin.languages.get? name = some l →
            (s.withBuiltin.spelling l).fault? = none) ∨
        ∃ name fault, (load p).run d' = (.error (.grammar (some name) fault), d') ∧
          s.withBuiltin.FirstFault name fault) ∧
      s.withBuiltin.markers = s.markers ∧
      (∀ name, s.withBuiltin.languages.get? name =
        (s.languages.get? name).or (Languages.builtin.get? name)) ∧
      (s.withBuiltin = s ↔ ∀ name, (Languages.builtin.get? name).isSome = true →
        (s.languages.get? name).isSome = true) ∧
      ∀ d₀ q, ((load q).run d₀).1 = .ok s →
        (load p).run d' = (.ok s, d') ∧
          ∀ language fault,
            (∀ name, s.grammarFor name ≠ .error (.grammar language fault)) ∧
            ∀ file, s.grammarForPath file ≠ .error (.grammar language fault) := by
  obtain ⟨text, htext⟩ := f.exists_write?_toData s
  obtain ⟨d', hwrite, hread⟩ := hwritable (String.ofList text)
  -- what is read back is what was written, so loading goes on with `s` itself
  have hsettings := hrecovers text htext
  rw [← String.toList_ofList (l := text)] at hsettings
  have hload := run_load hnames hread hsettings
  refine ⟨d', run_save hnames htext hwrite, ?_, rfl, s.get?_withBuiltin, withBuiltin_eq_iff, ?_⟩
  · cases hfailure : s.withBuiltin.failure? with
    | none =>
      rw [hfailure] at hload
      exact .inl ⟨hload, failure?_eq_none_iff.1 hfailure⟩
    | some failure =>
      rw [hfailure] at hload
      obtain ⟨name, l, fault, hl, hfault, hfirst, rfl⟩ := failure?_eq_some hfailure
      exact .inr ⟨name, fault, hload, ⟨l, hl, hfault⟩, hfirst⟩
  · intro d₀ q hq
    obtain ⟨hsame, haccepted⟩ := withBuiltin_eq_of_load hq
    rw [hsame, haccepted] at hload
    exact ⟨hload, fun language fault =>
      ⟨fun name => grammarFor_ne_grammar haccepted name language fault,
        fun file => grammarForPath_ne_grammar haccepted file language fault⟩⟩

/-- Settings with a language of their own and one that replaces a built-in one are saved and
    loaded, and what was loaded is saved and loaded. -/
theorem load_save_json :
    let d : Directory := ⟨"/w".toList, []⟩
    let p := FilePath.ofString "s.Json"
    let own : Settings := ⟨⟨'!', '#', '%'⟩,
      .ofList [Languages.entry "sql" ["sql", "SQL"] "--[[" "]]",
        Languages.entry "lua" ["lua", "rockspec"] "\"-\\" "é"]⟩
    Format.json.Names p ∧ d.Writable p ∧ Format.json.Recovers own ∧
      Format.json.Recovers own.withBuiltin ∧ own.withBuiltin ≠ own ∧
      ∃ d', (own.save p).run d = (.ok (), d') ∧ (load p).run d' = (.ok own.withBuiltin, d') ∧
        ∃ d'', (own.withBuiltin.save p).run d = (.ok (), d'') ∧
          (load p).run d'' = (.ok own.withBuiltin, d'') := by
  intro d p own
  have hnames : Format.json.Names p := ⟨"Json".toList, rfl, "json", by decide, rfl⟩
  have hwritable : d.Writable p := by
    have hprepare : d.prepare p = (d, .ok ("s.Json".toList, none)) := rfl
    have hwrite : d.writeText p "" =
        (d.set ["s.Json".toList] (.file "".toUTF8 none), .ok ()) := rfl
    refine Directory.writable_of_writeText ?_ hwrite
    rintro ⟨-, d₁, path, mode, l, e, h, hlanding, he, -⟩
    rw [hprepare] at h
    obtain ⟨rfl, hpair⟩ := Prod.mk.inj h
    obtain ⟨rfl, -⟩ := Prod.mk.inj (Except.ok.inj hpair)
    obtain rfl : ["s.Json".toList] = l := Except.ok.inj hlanding
    exact absurd he (by simp [Directory.get?, d])
  have hrecovers := Format.recovers_json own
  have hrecovers' := Format.recovers_json own.withBuiltin
  have haccepted : own.withBuiltin.failure? = none := by decide +kernel
  have hchanged : own.withBuiltin ≠ own := by decide +kernel
  obtain ⟨d', hsave, hloaded, -⟩ := load_save hnames hwritable hrecovers
  have hload : (load p).run d' = (.ok own.withBuiltin, d') := by
    rcases hloaded with ⟨hload, -⟩ | ⟨name, fault, -, ⟨l, hl, hfault⟩, -⟩
    · exact hload
    · rw [failure?_eq_none_iff.1 haccepted name l hl] at hfault
      exact absurd hfault (by simp)
  obtain ⟨d'', hsave', -, -, -, -, hagain⟩ := load_save hnames hwritable hrecovers'
  exact ⟨hnames, hwritable, hrecovers, hrecovers', hchanged, d', hsave, hload, d'', hsave',
    (hagain d' p (congrArg Prod.fst hload)).1⟩

end Settings

end Marginalia
