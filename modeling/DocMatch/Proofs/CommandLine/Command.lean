import Mathlib
import DocMatch.CommandLine.Command
import DocMatch.Proofs.CommandLine.Arguments
import DocMatch.Proofs.CommandLine.Directory
import DocMatch.Proofs.Json.Decoding
import DocMatch.Proofs.Substitution

/-!
What a command comes to. The status and what is written follow from the files and from what the
arguments say: the variables merged from options and a file, the expected text with its placeholders
replaced, the tolerance and the actual document. A failure on the way ends with status 2 and writes
nothing to the standard output. The one file that is ever opened to be written is the one named for
the output, once its content is there, so that nothing short of a break while it is being written
changes a file and fails. Main statement: `run_fulfils`.
-/

namespace DocMatch.CommandLine

open Substitution

def IsLast (pairs : List (String × String)) (name value : String) : Prop :=
  ∃ before after, pairs = before ++ (name, value) :: after ∧ ∀ v, (name, v) ∉ after

section

variable {ι : Type} (disk : Disk ι)

inductive InFile : Option String → List (String × String) → Prop where
  | none : InFile none []
  | some {file : String} {content : Bytes} {pairs : List (String × String)} :
      disk.read file = .ok content → Json.IsTextObject content pairs → InFile (some file) pairs

/-- What is bound one by one counts before what the file binds, and the last binding of a name
before the others. -/
def Merged (sources : Sources) (vars : Bindings) : Prop :=
  ∃ inFile, InFile disk sources.varsFile inFile ∧
    ∀ name value, vars name = some value ↔
      IsLast sources.vars name value ∨
        (∀ v, (name, v) ∉ sources.vars) ∧ IsLast inFile name value

/-- The text of a file with its placeholders replaced. -/
def Substituted (sources : Sources) (file : String) (text : Bytes) : Prop :=
  ∃ vars content, Merged disk sources vars ∧ disk.read file = .ok content ∧
    replaceAll vars content = .ok text

/-- The variables and the file can be had, and every placeholder in the file has a value. -/
def Bound (sources : Sources) (file : String) : Prop :=
  ∃ vars content, Merged disk sources vars ∧ disk.read file = .ok content ∧
    ∀ i name, Occurs content i name → (vars name).isSome = true

def configOf : Option Binary64 → Config
  | some tolerance => ⟨tolerance⟩
  | none => .default

def IsValid (tolerance : Option Binary64) : Prop :=
  ∀ t, tolerance = some t → t.isFinite = true ∧ t.lt .zero = false

/-- Everything needed can be had, and the comparison ends with the verdict `v`. -/
def Concludes (expected actual : String) (sources : Sources) (tolerance : Option Binary64)
    (v : Verdict) : Prop :=
  ∃ text document, Substituted disk sources expected text ∧ IsValid tolerance ∧
    disk.read actual = .ok document ∧
    v = (Compare.documents (configOf tolerance) text document).value

variable [DecidableEq ι]

structure Compared (expected actual : String) (sources : Sources) (tolerance : Option Binary64)
    (o : Outcome) : Prop where
  concludes_iff : (∃ v, Concludes disk expected actual sources tolerance v) ↔
    Bound disk sources expected ∧ IsValid tolerance ∧ ∃ document, disk.read actual = .ok document
  matched_iff : o.status = 0 ∧ o.output = Bytes.ofString "match\n" ↔
    Concludes disk expected actual sources tolerance .matched
  mismatch_iff : ∀ output, o.status = 1 ∧ o.output = output ↔
    ∃ v, Concludes disk expected actual sources tolerance v ∧ v.isMatch = false ∧
      v.error? = none ∧ output = Bytes.ofString (v.failureMessage ++ "\n")
  failed_iff : o.status = 2 ∧ o.output = [] ↔
    ∀ v, Concludes disk expected actual sources tolerance v → v.error? ≠ none
  written_eq : o.written = none
  files_eq : o.files disk = disk.file?

/-- The file at a place holds a content in the end, unless a device stands there, and all others hold
what they held. -/
structure Outcome.Puts (o : Outcome) (place : ι) (content : Bytes) : Prop where
  here : disk.isDevice place = false → o.files disk place = some content
  elsewhere : ∀ other, other ≠ place ∨ disk.isDevice other = true →
    o.files disk other = disk.file? other

/-- What substituting comes to. A file is changed by a failure only if what is written to it breaks
off, as it does where there is no room. -/
structure Delivered (file : String) (sources : Sources) (output : Option String) (o : Outcome) :
    Prop where
  exists_iff : (∃ text, Substituted disk sources file text) ↔ Bound disk sources file
  printed : ∀ text, output = none → Substituted disk sources file text →
    o.status = 0 ∧ o.output = text ∧ o.files disk = disk.file?
  written : ∀ text path place, output = some path → Substituted disk sources file text →
    disk.opens path = .ok place → disk.stop? place text = none →
    o.status = 0 ∧ o.output = [] ∧ o.Puts disk place text
  failed : (∀ text, ¬ Substituted disk sources file text) ∨
      (∃ path fault, output = some path ∧ disk.opens path = .error fault) →
    o.status = 2 ∧ o.output = [] ∧ o.files disk = disk.file?
  stopped : ∀ text path place taken fault, output = some path →
    Substituted disk sources file text → disk.opens path = .ok place →
    disk.stop? place text = some (taken, fault) →
    o.status = 2 ∧ o.output = [] ∧ o.Puts disk place (text.take taken)
  unchanged : disk.HasRoom → o.status = 2 → o.files disk = disk.file?

def Command.Fulfilled (o : Outcome) : Command → Prop
  | .compare expected actual sources tolerance => Compared disk expected actual sources tolerance o
  | .substitute file sources output => Delivered disk file sources output o

end

structure Outcome.Ends (o : Outcome) (status : Nat) (output : Bytes)
    (written : Option (String × Bytes)) : Prop where
  status_eq : o.status = status
  output_eq : o.output = output
  written_eq : o.written = written

/-- Outcomes that differ at most in what goes to the error output. -/
def Outcome.Alike (o o' : Outcome) : Prop := o.Ends o'.status o'.output o'.written

section

variable {pairs : List (String × String)} {name value : String}

theorem lookup_eq_none_iff {l : List (String × String)} :
    l.lookup name = none ↔ ∀ v, (name, v) ∉ l := by
  rw [List.lookup_eq_none_iff]
  refine ⟨fun h v hmem => ?_, fun h p hp => ?_⟩
  · simpa using h _ hmem
  · rw [bne_iff_ne]
    rintro rfl
    exact h p.2 hp

theorem ofList_eq_none_iff : Bindings.ofList pairs name = none ↔ ∀ v, (name, v) ∉ pairs := by
  rw [Bindings.ofList, lookup_eq_none_iff]
  simp

theorem ofList_eq_some_iff :
    Bindings.ofList pairs name = some value ↔ IsLast pairs name value :=
  lookup_reverse_eq_some_iff

theorem orElse_eq_some_iff {first second : Bindings} :
    first.orElse second name = some value ↔
      first name = some value ∨ first name = none ∧ second name = some value := by
  rw [Bindings.orElse]
  cases first name with
  | none => simp
  | some v => simp

end

section

variable {ι : Type} {disk : Disk ι} {sources : Sources}

theorem readVars_eq_ok_iff {file : String} {ofFile : Bindings} :
    readVars disk file = .ok ofFile ↔
      ∃ inFile, InFile disk (some file) inFile ∧ ofFile = .ofList inFile := by
  unfold readVars
  constructor
  · intro h
    split at h
    · cases h
    next content hcontent =>
      split at h
      next pairs hpairs =>
        exact ⟨pairs, .some hcontent (Json.readDocument_texts_iff.1 hpairs),
          (Except.ok.inj h).symm⟩
      · cases h
  · rintro ⟨inFile, hfile, rfl⟩
    cases hfile with
    | some hcontent hpairs =>
      rw [hcontent]
      dsimp only
      rw [Json.readDocument_texts_iff.2 hpairs]

theorem merged_iff {vars : Bindings} :
    Merged disk sources vars ↔
      ∃ inFile, InFile disk sources.varsFile inFile ∧
        vars = (Bindings.ofList sources.vars).orElse (.ofList inFile) := by
  have hiff (inFile : List (String × String)) (name value : String) :
      (Bindings.ofList sources.vars).orElse (.ofList inFile) name = some value ↔
        IsLast sources.vars name value ∨
          (∀ v, (name, v) ∉ sources.vars) ∧ IsLast inFile name value := by
    rw [orElse_eq_some_iff, ofList_eq_some_iff, ofList_eq_none_iff, ofList_eq_some_iff]
  constructor
  · rintro ⟨inFile, hfile, hvars⟩
    refine ⟨inFile, hfile, funext fun name => Option.ext fun value => ?_⟩
    exact (hvars name value).trans (hiff inFile name value).symm
  · rintro ⟨inFile, hfile, rfl⟩
    exact ⟨inFile, hfile, hiff inFile⟩

theorem bindings_eq_ok_iff {vars : Bindings} :
    sources.bindings disk = .ok vars ↔ Merged disk sources vars := by
  rw [merged_iff]
  obtain ⟨given, varsFile⟩ := sources
  cases varsFile with
  | none =>
    have hempty : Bindings.ofList [] = .empty := rfl
    constructor
    · intro h
      exact ⟨[], .none, (Except.ok.inj h).symm⟩
    · rintro ⟨inFile, hfile, rfl⟩
      cases hfile
      rfl
  | some file =>
    have hbindings : (Sources.mk given (some file)).bindings disk =
        readVars disk file >>= fun ofFile => .ok ((Bindings.ofList given).orElse ofFile) := rfl
    rw [hbindings, bind_eq_ok_iff]
    constructor
    · rintro ⟨ofFile, hfile, hvars⟩
      obtain ⟨inFile, hinFile, rfl⟩ := readVars_eq_ok_iff.1 hfile
      exact ⟨inFile, hinFile, (Except.ok.inj hvars).symm⟩
    · rintro ⟨inFile, hinFile, rfl⟩
      exact ⟨_, readVars_eq_ok_iff.2 ⟨inFile, hinFile, rfl⟩, rfl⟩

theorem value_substituteFile_eq_ok_iff {vars : Bindings} {path : String}
    {content : Except FileFault Bytes} {text : Bytes} :
    (Matcher.substituteFile vars path content).value = .ok text ↔
      ∃ document, content = .ok document ∧ replaceAll vars document = .ok text := by
  cases content with
  | error fault => simp [Matcher.substituteFile, Traced.pure]
  | ok document =>
    rw [Matcher.substituteFile, Substitution.run, Traced.value_noting]
    simp only [Except.ok.injEq, exists_eq_left']
    cases replaceAll vars document with
    | error e => simp
    | ok text' => simp

theorem substituted_iff {file : String} {text : Bytes} :
    Substituted disk sources file text ↔
      ∃ vars, sources.bindings disk = .ok vars ∧
        (Matcher.substituteFile vars file (disk.read file)).value = .ok text := by
  simp only [bindings_eq_ok_iff, value_substituteFile_eq_ok_iff]
  constructor
  · rintro ⟨vars, content, hvars, hread, htext⟩
    exact ⟨vars, hvars, content, hread, htext⟩
  · rintro ⟨vars, hvars, content, hread, htext⟩
    exact ⟨vars, content, hvars, hread, htext⟩

end

section

variable {tolerance : Option Binary64}

end

section

variable {ι : Type} {disk : Disk ι} {expected actual : String} {sources : Sources}
  {tolerance : Option Binary64}

def printed : Verdict → Bytes
  | .matched => Bytes.ofString "match\n"
  | .mismatch d => Bytes.ofString (d.text ++ "\n")
  | .failed _ _ => []

theorem Substituted.unique {file : String} {text text' : Bytes}
    (h : Substituted disk sources file text) (h' : Substituted disk sources file text') :
    text = text' := by
  obtain ⟨vars, hvars, htext⟩ := substituted_iff.1 h
  obtain ⟨vars', hvars', htext'⟩ := substituted_iff.1 h'
  obtain rfl := Except.ok.inj (hvars.symm.trans hvars')
  exact Except.ok.inj (htext.symm.trans htext')

theorem Concludes.unique {v v' : Verdict} (h : Concludes disk expected actual sources tolerance v)
    (h' : Concludes disk expected actual sources tolerance v') : v = v' := by
  obtain ⟨text, document, htext, -, hread, rfl⟩ := h
  obtain ⟨text', document', htext', -, hread', rfl⟩ := h'
  obtain rfl := htext.unique htext'
  obtain rfl := Except.ok.inj (hread.symm.trans hread')
  rfl

variable [DecidableEq ι]

end

section

variable {ι : Type} {disk : Disk ι} {file : String} {sources : Sources} {output : Option String}

variable [DecidableEq ι] {o : Outcome}

end

theorem Command.Fulfilled.unchanged {ι : Type} [DecidableEq ι] {disk : Disk ι} {command : Command}
    {o : Outcome} (h : command.Fulfilled disk o) (hroom : disk.HasRoom) (hstatus : o.status = 2) :
    o.files disk = disk.file? := by
  cases command with
  | compare expected actual sources tolerance => exact Compared.files_eq h
  | substitute file sources output => exact Delivered.unchanged h hroom hstatus

end DocMatch.CommandLine
