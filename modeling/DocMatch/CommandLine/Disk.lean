import DocMatch.Error

/-!
Files as a command sees them: what reading a path gives, and what comes of writing to one. Writing
opens a file first, which empties it or makes it, and the content follows. The file may not open, and
the content may break off. A device may take what is written, but holds none of it.
-/

namespace DocMatch.CommandLine

structure Disk (ι : Type) where
  read : String → Except FileFault Bytes
  /-- The place that is opened for a path to be written to, or why there is none. -/
  opens : String → Except FileFault ι
  /-- What the file at a place holds, if there is one. -/
  file? : ι → Option Bytes
  isDevice : ι → Bool
  /-- After how many bytes a content breaks off at a place, and why, if it does. -/
  stop? : ι → Bytes → Option (Nat × FileFault)

namespace Disk

variable {ι : Type}

/-- Why a content is not written to a path, or not all of it, if so. -/
def fault? (disk : Disk ι) (path : String) (content : Bytes) : Option FileFault :=
  match disk.opens path with
  | .error fault => some fault
  | .ok place => (disk.stop? place content).map Prod.snd

def put (disk : Disk ι) (place : ι) (content : Bytes) : Option Bytes :=
  if disk.isDevice place then disk.file? place
  else
    match disk.stop? place content with
    | none => some content
    | some (taken, _) => some (content.take taken)

def after [DecidableEq ι] (disk : Disk ι) (path : String) (content : Bytes) : ι → Option Bytes :=
  match disk.opens path with
  | .error _ => disk.file?
  | .ok place => fun other => if other = place then disk.put place content else disk.file? other

end Disk

end DocMatch.CommandLine
