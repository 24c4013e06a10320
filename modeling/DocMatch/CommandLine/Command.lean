import DocMatch.CommandLine.Arguments
import DocMatch.CommandLine.Directory
import DocMatch.Event.Filter
import DocMatch.Matcher.Basic

/-!
Commands carried out. Comparing ends with status 0 for a match, 1 for a difference and 2 for an
error; substituting with 0 or 2. What was noted and what went wrong go to the error output, and the
one result to the standard output or to a file.
-/

namespace DocMatch.CommandLine

inductive Note where
  | event (e : Event)
  | text (s : String)

structure Outcome where
  status : Nat
  output : Bytes
  notes : List Note
  /-- The path written to, and the content meant for it. -/
  written : Option (String × Bytes)

def Outcome.files {ι : Type} [DecidableEq ι] (outcome : Outcome) (disk : Disk ι) :
    ι → Option Bytes :=
  match outcome.written with
  | some (path, content) => disk.after path content
  | none => disk.file?

def Outcome.leaves (outcome : Outcome) (d : Directory) : Directory :=
  match outcome.written with
  | some (path, content) => d.write path content
  | none => d

section

variable {ι : Type} (disk : Disk ι)

def readVars (file : String) : Except String Bindings :=
  match disk.read file with
  | .error fault => .error (MatchError.unreadable file fault).message
  | .ok content =>
    match Json.readDocument (Json.readObject Json.readText) content with
    | .ok pairs => .ok (.ofList pairs)
    | .error fault =>
      .error ("vars file '" ++ file ++ "' must be a JSON object of strings: "
        ++ fault.message content)

/-- The values of all variables. Those given one by one count before those in a file. -/
def Sources.bindings (sources : Sources) : Except String Bindings := do
  let ofFile ← match sources.varsFile with
    | some file => readVars disk file
    | none => pure .empty
  pure ((Bindings.ofList sources.vars).orElse ofFile)

def Outcome.failed (events : List Event) (message : String) : Outcome where
  status := 2
  output := []
  notes := events.map .event ++ [.text ("Error: " ++ message)]
  written := none

def configured (m : Matcher) : Option Binary64 → Except Report Matcher
  | some tolerance => m.withConfig { m.config with tolerance }
  | none => .ok m

def compareFile (earlier : List Event) (m : Matcher) (actual : String) : Outcome :=
  match disk.read actual with
  | .error fault => .failed earlier (Report.ofError (.unreadable actual fault)).text
  | .ok document =>
    let ran := m.run document
    let events := earlier ++ ran.events
    let finished (status : Nat) (line : String) : Outcome :=
      { status, output := Bytes.ofString (line ++ "\n"), notes := events.map .event,
        written := none }
    match ran.value with
    | (.ok true, _) => finished 0 "match"
    | (.ok false, m') => finished 1 m'.failureMessage
    | (.error report, _) => .failed events report.text

def runCompare (expected actual : String) (sources : Sources)
    (tolerance : Option Binary64) : Outcome :=
  match sources.bindings disk with
  | .error message => .failed [] message
  | .ok bindings =>
    let built := Matcher.ofFile bindings expected (disk.read expected)
    match built.value.bind (configured · tolerance) with
    | .error report => .failed built.events report.text
    | .ok m => compareFile disk built.events m actual

def runSubstitute (file : String) (sources : Sources) (output : Option String) : Outcome :=
  match sources.bindings disk with
  | .error message => .failed [] message
  | .ok bindings =>
    let replaced := Matcher.substituteFile bindings file (disk.read file)
    match replaced.value, output with
    | .error report, _ => .failed replaced.events report.text
    | .ok text, none =>
      { status := 0, output := text, notes := replaced.events.map .event, written := none }
    | .ok text, some path =>
      let written := some (path, text)
      match disk.fault? path text with
      | some fault => { Outcome.failed replaced.events fault.text with written }
      | none =>
        { status := 0, output := []
          notes := replaced.events.map .event ++ [.text ("✓ Substituted into " ++ path)], written }

def Command.files : Command → List String
  | .compare expected actual sources _ => sources.varsFile.toList ++ [expected, actual]
  | .substitute file sources _ => sources.varsFile.toList ++ [file]

def Command.run : Command → Outcome
  | .compare expected actual sources tolerance =>
    runCompare disk expected actual sources tolerance
  | .substitute file sources output => runSubstitute disk file sources output

def Profile.filter (profile : Profile) (asked : Option String) : Filter :=
  (asked.bind Filter.parse?).getD (.fromLevel (match profile with
    | .dev => .debug
    | .prod => .info))

/-- Whether a note is shown. Events are shown only where a profile is chosen. -/
def isShown (log : Option Profile) (asked : Option String) : Note → Bool
  | .text _ => true
  | .event e => log.any fun profile => (profile.filter asked).shows e

/-- Carries out a command line that has been read, `asked` being the filter asked for. -/
def Invocation.run (asked : Option String) (i : Invocation) : Outcome :=
  let outcome := i.command.run disk
  { outcome with notes := outcome.notes.filter (isShown i.log asked) }

end

end DocMatch.CommandLine
