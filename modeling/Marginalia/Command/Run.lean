import Marginalia.Command.Reader
import Marginalia.FileTagger
import Marginalia.Settings.File

/-! # Running commands

    * **`Listing.toData`**: listings for other programs.
    * **`Report`**: what a command prints, and why it failed if it did. What was
      printed before a failure stays.
    * **`Command.run`**: each command as a script.
    * **`runWords`**: a whole command line, from its words to the exit code. -/

namespace Marginalia

/-! ## Section 1: Texts -/

/-- A line of output. -/
def outputLine (s : String) : Text :=
  s.toList ++ ['\n']

/-- A text in front of blanks, up to a width. -/
def padRight (width : Nat) (s : Text) : String :=
  String.ofList (s ++ List.replicate (width - s.length) ' ')

/-- A listing for other programs. -/
def Listing.toData (l : Listing) : Data :=
  .table [
    field "ranges" (.list (l.ranges.map fun r => .table [
      field "identifier" (.text r.identifier),
      field "start_line" (.int r.startLine),
      field "end_line" (.int r.endLine)])),
    field "dangling" (.list (l.dangling.map fun o => .table [
      field "identifier" (.text o.tag.identifier),
      field "role" (.text o.tag.role.key.toList),
      field "line" (.int o.line),
      field "cleanup" (.bool o.tag.cleanup)]))]

/-- Data for other programs. -/
def jsonText (d : Data) : Text :=
  Json.write d ++ ['\n']

/-- The lines of a tagged range. -/
def TaggedRange.lines (r : TaggedRange) : String :=
  if r.startLine = r.endLine then "line " ++ toString r.startLine
  else "lines " ++ toString r.startLine ++ "-" ++ toString r.endLine

/-- A listing for people. -/
def Listing.text (l : Listing) : Text :=
  if l.ranges.isEmpty && l.dangling.isEmpty then outputLine "No tags found."
  else
    (l.ranges.flatMap fun r =>
      outputLine ("  " ++ padRight 20 r.identifier ++ " " ++ r.lines)) ++
    l.dangling.flatMap fun o =>
      outputLine ("WARN unpaired " ++ o.tag.role.name ++ " tag '" ++
        String.ofList o.tag.identifier ++ "' on line " ++ toString o.line)

/-- The languages and marks for people. -/
def Settings.text (s : Settings) : Text :=
  let m := s.markers
  outputLine "Configured Languages" ++ outputLine "" ++
    (s.languages.entries.flatMap fun e =>
      outputLine ("  " ++ padRight 12 e.1 ++ " " ++ String.ofList e.2.opener ++ " " ++
        String.ofList e.2.closer ++ "  (" ++
        String.ofList ([',', ' '].intercalate e.2.extensions) ++ ")")) ++
    outputLine "" ++
    outputLine ("Markers: start/end '" ++ String.singleton m.boundary ++ "', separator '" ++
      String.singleton m.separator ++ "', cleanup '" ++ String.singleton m.cleanup ++ "'")

/-- What a change has done, for people. -/
def Outcome.text : Outcome → Text
  | .placed p =>
    (if p.isSignificant then
      outputLine ("WARN Range " ++ toString p.requestedStart ++ "-" ++ toString p.requestedEnd ++
        " collides with a native comment, tagged " ++ toString p.startLine ++ "-" ++
        toString p.endLine ++ " instead.")
     else []) ++
    (if p.blankInserted then outputLine "   Inserted a blank line to hold the start tag."
     else []) ++
    outputLine ("OK Tagged lines " ++ toString p.startLine ++ "-" ++ toString p.endLine ++ ".")
  | .removed r =>
    if r.isEmpty then outputLine "WARN No matching tags found."
    else
      outputLine ("OK Removed " ++ toString r.tagsRemoved ++ " tag(s), deleted " ++
        toString r.linesRemoved ++ " line(s).")

/-- What a change is going to do to a file, for people. -/
def Change.heading (p : FilePath) : Change → Text
  | .add identifier start stop =>
    outputLine ("=> Tagging " ++ p.toString ++ " lines " ++ toString start ++ "-" ++
      toString stop ++ " as " ++ String.ofList identifier)
  | .remove identifier =>
    outputLine ("=> Removing tags " ++ String.ofList identifier ++ " from " ++ p.toString)
  | .removeMatching pattern =>
    outputLine ("=> Removing tags " ++ String.ofList pattern ++ " from " ++ p.toString)
  | .clear => outputLine ("=> Clearing all tags from " ++ p.toString)

/-- A document that was not written. It ends with its line. -/
def Document.previewText (d : Document) : Text :=
  let text := d.render
  outputLine "=> Dry run, file not written:" ++ text ++
    if text.getLast? = some '\n' then [] else ['\n']

/-! ## Section 2: Reports -/

/-- Why a command fails. -/
inductive CommandFailure where
  | tagging (f : Failure)
  /-- The settings file is there already. -/
  | settingsExist (path : Text)
deriving DecidableEq, Repr

/-- The wording of a failure. Those that lie in the settings come with a hint. -/
def CommandFailure.text : CommandFailure → Text
  | .tagging f =>
    outputLine ("error: " ++ f.message) ++
      if f.isConfig then
        outputLine "hint: run 'revmark languages' to see the configured comment syntax"
      else []
  | .settingsExist path =>
    outputLine ("error: " ++ String.ofList path ++
      " already exists. Use --force to overwrite it.")

/-- What a command prints, and why it fails. -/
structure Report where
  output  : Text
  failure : Option CommandFailure
deriving DecidableEq, Repr

namespace Report

/-- The command does what it should. -/
def success (output : Text) : Report := ⟨output, none⟩

/-- The command fails after it has printed something. -/
def failed (output : Text) (f : Failure) : Report := ⟨output, some (.tagging f)⟩

end Report

/-! ## Section 3: Commands -/

/-- Where a command runs, and the settings file that it was given. -/
structure Context where
  home   : Text
  config : Option Text

namespace Context

/-- The name of the settings file that needs not be given. -/
def settingsName : Text := "revmark.toml".toList

/-- The settings file that needs not be given. -/
def ownSettings (c : Context) : FilePath :=
  .join c.home settingsName

/-- The settings in effect: those of the file that was given, or else of the file in the
    directory itself, if there is one. -/
def settings (c : Context) : FileScript (Except Failure Settings) :=
  match c.config with
  | some path => Settings.load (.join c.home path)
  | none => .isFile c.ownSettings fun
    | true => Settings.load c.ownSettings
    | false => return .ok .standard

/-- The tagger of a file. -/
def tagger (c : Context) (file : Text) (language : Option Text) :
    FileScript (Except Failure FileTagger) := do
  match ← c.settings with
  | .error f => return .error f
  | .ok s => return FileTagger.ofSettings s (.join c.home file) language

/-- Makes a change to a file, or shows what it would do. -/
def change (c : Context) (file : Text) (language : Option Text) (dryRun : Bool) (ch : Change) :
    FileScript Report := do
  match ← c.tagger file language with
  | .error f => return .failed [] f
  | .ok t =>
    let heading := ch.heading t.path
    if dryRun then
      match ← t.preview ch with
      | .error f => return .failed heading f
      | .ok (d, o) => return .success (heading ++ d.previewText ++ o.text)
    else
      match ← t.perform ch with
      | .error f => return .failed heading f
      | .ok o => return .success (heading ++ o.text)

/-- Lists the tags of a file. -/
def list (c : Context) (file : Text) (language : Option Text) (json : Bool)
    (order : TableOrder) : FileScript Report := do
  match ← c.tagger file language with
  | .error f => return .failed [] f
  | .ok t =>
    match ← t.list order with
    | .error f => return .failed [] f
    | .ok l =>
      if json then return .success (jsonText l.toData)
      else
        return .success (outputLine ("Tags in " ++ t.path.toString) ++ outputLine "" ++ l.text)

/-- Shows the languages. -/
def languages (c : Context) (json : Bool) : FileScript Report := do
  match ← c.settings with
  | .error f => return .failed [] f
  | .ok s => return .success (if json then jsonText s.toData else s.text)

/-- Writes the settings file that needs not be given. -/
def init (c : Context) (force : Bool) : FileScript Report :=
  let p := c.ownSettings
  .isThere p fun isThere =>
    if isThere && !force then return ⟨[], some (.settingsExist p.chars)⟩
    else do
      let heading := outputLine ("=> Writing default settings to " ++ p.toString)
      match ← Settings.standard.save p with
      | .error f => return .failed heading f
      | .ok () => return .success (heading ++ outputLine "OK Settings initialized!")

end Context

/-- Runs a command in a process whose table gives out its keys in some order. -/
def Command.run (c : Context) (order : TableOrder) : Command → FileScript Report
  | .add file identifier start stop language dryRun =>
    c.change file language dryRun (.add identifier start (stop.getD start))
  | .remove file identifier isPattern language dryRun =>
    c.change file language dryRun
      (if isPattern then .removeMatching identifier else .remove identifier)
  | .clear file language dryRun => c.change file language dryRun .clear
  | .list file language json => c.list file language json order
  | .languages json => c.languages json
  | .init force => c.init force

/-! ## Section 4: Command lines -/

/-- What a program leaves behind when it ends, besides files. -/
structure Exit where
  code   : Nat
  output : Text
  errors : Text
deriving DecidableEq, Repr

/-- The exit of a command. -/
def Report.exit (r : Report) : Exit :=
  match r.failure with
  | none   => ⟨0, r.output, []⟩
  | some f => ⟨1, r.output, f.text⟩

/-- What is printed if no command is given. -/
def greeting : Text :=
  outputLine "revmark review tags for source files" ++ outputLine "" ++
    outputLine "Run revmark --help for available commands."

/-- What is printed if somebody asks for help. -/
def helpText : Text :=
  outputLine "Mark line ranges of source files with review tags" ++ outputLine "" ++
    outputLine "Usage: revmark [--verbose] [--config <CONFIG>] [COMMAND]" ++ outputLine "" ++
    outputLine "Commands:" ++
    Verb.all.flatMap fun v => outputLine ("  " ++ v.name ++ " " ++ v.synopsis)

/-- The exit if no command is read. -/
def Stop.exit : Stop → Exit
  | .usage   =>
    ⟨2, [], outputLine "error: not a valid command line, see 'revmark --help'"⟩
  | .help    => ⟨0, helpText, []⟩
  | .version => ⟨0, outputLine "revmark 0.1.0", []⟩

/-- Runs an invocation in a directory. -/
def Invocation.run (home : Text) (order : TableOrder) (i : Invocation) : FileScript Exit :=
  match i.command with
  | none => return ⟨0, greeting, []⟩
  | some c => do return (← c.run ⟨home, i.config⟩ order).exit

/-- Runs a command line in a directory. -/
def runWords (home : Text) (environment : Option Text) (words : List Text)
    (order : TableOrder := .byText) : FileScript Exit :=
  match Invocation.read environment words with
  | .error s => return s.exit
  | .ok i => i.run home order

end Marginalia
