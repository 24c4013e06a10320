import DocMatch.CommandLine.Command
import DocMatch.Event.Line
import DocMatch.MatchId
import Std.Time.Format

/-!
The program. It reads the arguments and the files that the command names, carries the command out,
and writes what came of it. A file that cannot be written is found out by trying, and the command
is then carried out once more in that knowledge.
-/

namespace DocMatch.CommandLine

def filterVariable : String := "RUST_LOG"

def faultOfCode (code : UInt32) (details : String) : FileFault :=
  match if code.toNat < 1 <<< 31 then code.toNat else (1 <<< 32) - code.toNat with
  | 2 => .missing
  | 20 => .notDirectory
  | 21 => .directory
  | 36 => .nameTooLong
  | n => .other (details ++ " (os error " ++ toString n ++ ")")

def faultOf : IO.Error → FileFault
  | .noFileOrDirectory _ code details => faultOfCode code details
  | .inappropriateType _ code details => faultOfCode code details
  | .permissionDenied _ code details => faultOfCode code details
  | .invalidArgument _ code details => faultOfCode code details
  | .resourceExhausted _ code details => faultOfCode code details
  | .otherError code details => faultOfCode code details
  | e => .other (toString e)

def readFile (path : String) : IO (Except FileFault Bytes) := do
  match ← (IO.FS.readBinFile path).toBaseIO with
  | .ok content => pure (.ok content.toList)
  | .error e => pure (.error (faultOf e))

def toArray (bytes : Bytes) : ByteArray := ⟨bytes.toArray⟩

def writeFile (path : String) (content : Bytes) : IO (Option FileFault) := do
  match ← (IO.FS.writeBinFile path (toArray content)).toBaseIO with
  | .ok () => pure none
  | .error e => pure (some (faultOf e))

/-- The files as they were found. That all can be written is taken for granted. -/
def diskOf (found : List (String × Except FileFault Bytes)) : Disk String where
  read path := (found.lookup path).getD (.error .missing)
  opens path := .ok path
  file? _ := none
  isDevice _ := false
  stop? _ _ := none

def perform (invocation : Invocation) (asked : Option String) : IO Outcome := do
  let found ← invocation.command.files.mapM fun path => do pure (path, ← readFile path)
  let disk := diskOf found
  let outcome := invocation.run disk asked
  match outcome.written with
  | none => pure outcome
  | some (path, content) =>
    match ← writeFile path content with
    | none => pure outcome
    | some fault => pure (invocation.run { disk with opens := fun _ => .error fault } asked)

def newMatchId : IO MatchId := do
  let now ← Std.Time.Timestamp.now
  let random ← IO.getRandomBytes 10
  pure (.ofTime now.toMillisecondsSinceUnixEpoch.val.toNat
    (random.toList.foldl (fun n b => n * 256 + b.toNat) 0))

def timeText : IO String := do
  let now := Std.Time.DateTime.ofTimestamp (← Std.Time.Timestamp.now)
    Std.Time.TimeZone.ZoneRules.UTC
  pure (now.format "uuuu-MM-dd'T'HH:mm:ss.SSSSSS'Z'")

def writeNote (log : Option Profile) (elapsed : Nat) (id : MatchId) (note : Note) : IO Unit := do
  let errors ← IO.getStderr
  match note with
  | .text s => errors.putStrLn s
  | .event e =>
    let blanks : Blanks :=
      { time := ← timeText, elapsed := toString elapsed, matchId := id.text }
    match log with
    | some .prod => errors.write (toArray (e.record blanks ++ [byte '\n']))
    | _ => errors.putStrLn (e.line blanks)

def execute (arguments : List String) : IO UInt32 := do
  match parse arguments with
  | .error fault =>
    IO.eprintln (fault.report?.getD "error: the arguments do not make a command")
    pure 2
  | .ok invocation =>
    let begun ← IO.monoMsNow
    let outcome ← perform invocation (← IO.getEnv filterVariable)
    let elapsed := (← IO.monoMsNow) - begun
    let id ← newMatchId
    for note in outcome.notes do
      writeNote invocation.log elapsed id note
    (← IO.getStdout).write (toArray outcome.output)
    pure (.ofNat outcome.status)

end DocMatch.CommandLine

def main (arguments : List String) : IO UInt32 := DocMatch.CommandLine.execute arguments
