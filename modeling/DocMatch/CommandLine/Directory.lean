import DocMatch.CommandLine.Disk

/-!
The tree of files that a working directory is part of. Paths lead through it by names, from the
working directory or from the root. What is written to a file of the tree is taken in whole.
-/

namespace DocMatch.CommandLine

inductive Entry where
  | file (content : Bytes)
  /-- A directory, and why no file can be made in it, if none can. -/
  | directory (bar : Option FileFault)
  /-- A device, what reading it gives, and why it takes nothing, if it does not. -/
  | device (content : Except FileFault Bytes) (bar : Option FileFault)

structure Path where
  fromRoot : Bool
  parts : List String
  /-- Whether a slash ends it, as is right for directories only. -/
  slash : Bool

namespace Path

def limit : Nat := 4096

def partLimit : Nat := 255

def split : List Char → List (List Char)
  | [] => [[]]
  | c :: rest =>
    match c, split rest with
    | '/', parts => [] :: parts
    | c, part :: parts => (c :: part) :: parts
    | c, [] => [[c]]

def parse (path : String) : Except FileFault Path :=
  if path.isEmpty then .error .missing
  else if limit ≤ path.utf8ByteSize then .error .nameTooLong
  else .ok
    { fromRoot := path.toList.head? = some '/'
      parts := ((split path.toList).filter (!·.isEmpty)).map String.ofList
      slash := path.toList.getLast? = some '/' }

end Path

/-- A working directory and all that stands around it, by the names that lead there from the root. A
directory in which something stands need not be listed. -/
structure Directory where
  home : List String
  entries : List (List String × Entry)

namespace Directory

def system : List (List String × Entry) :=
  ["bin", "dev", "etc", "home", "lib", "opt", "root", "run", "sbin", "srv", "tmp", "usr", "var"].map
      (fun name => ([name], .directory none))
    ++ [(["proc"], .directory (some .missing)),
      (["sys"], .directory (some (.other "Permission denied (os error 13)"))),
      (["dev", "null"], .device (.ok []) none),
      (["dev", "full"], .device (.error (.other "out of memory"))
        (some (.other "No space left on device (os error 28)")))]

def ofFiles (files : List (String × Bytes)) : Directory where
  home := ["tmp", "work"]
  entries := files.map (fun (name, content) =>
    (["tmp", "work"] ++ (Path.split name.toList).map String.ofList, .file content)) ++ system

def isDirectory (d : Directory) (name : List String) : Bool :=
  name.isPrefixOf d.home || d.entries.any fun (other, _) => name.isPrefixOf other

def entry? (d : Directory) (name : List String) : Option Entry :=
  match d.entries.lookup name with
  | some entry => some entry
  | none => if d.isDirectory name then some (.directory none) else none

def content? (d : Directory) (name : List String) : Option Bytes :=
  match d.entries.lookup name with
  | some (.file content) => some content
  | _ => none

/-- What a part of a path leads to from a directory, and where that stands. -/
def lookup (d : Directory) (name : List String) (part : String) :
    Except FileFault (List String × Option Entry) :=
  if part = "." then .ok (name, some (.directory none))
  else if part = ".." then .ok (name.dropLast, some (.directory none))
  else if Path.partLimit < part.utf8ByteSize then .error .nameTooLong
  else .ok (name ++ [part], d.entry? (name ++ [part]))

def follow (d : Directory) (name : List String) : List String → Except FileFault (List String)
  | [] => .ok name
  | part :: rest =>
    match d.lookup name part with
    | .ok (next, some (.directory _)) => d.follow next rest
    | .ok (_, some _) => .error .notDirectory
    | .ok (_, none) => .error .missing
    | .error fault => .error fault

def start (d : Directory) (path : Path) : List String := if path.fromRoot then [] else d.home

def read (d : Directory) (path : String) : Except FileFault Bytes := do
  let path ← Path.parse path
  match path.parts.getLast? with
  | none => throw .directory
  | some part =>
    match ← d.lookup (← d.follow (d.start path) path.parts.dropLast) part with
    | (_, some (.file content)) => if path.slash then throw .notDirectory else pure content
    | (_, some (.device content _)) => if path.slash then throw .notDirectory else content
    | (_, some (.directory _)) => throw .directory
    | (_, none) => throw .missing

def bar? (d : Directory) (name : List String) : Option FileFault :=
  match d.entry? name with
  | some (.directory bar) => bar
  | _ => none

def openIn (d : Directory) (name : List String) :
    List String × Option Entry → Except FileFault (List String)
  | (_, some (.directory _)) => .error .directory
  | (found, some _) => .ok found
  | (made, none) =>
    match d.bar? name with
    | some fault => .error fault
    | none => .ok made

def target (d : Directory) (path : String) : Except FileFault (List String) := do
  let path ← Path.parse path
  match path.parts.getLast? with
  | none => throw .directory
  | some part =>
    let name ← d.follow (d.start path) path.parts.dropLast
    if path.slash then throw .directory else do d.openIn name (← d.lookup name part)

def isDevice (d : Directory) (name : List String) : Bool :=
  match d.entry? name with
  | some (.device ..) => true
  | _ => false

/-- A device that takes nothing has nothing against an empty content. -/
def stop? (d : Directory) (name : List String) (content : Bytes) : Option (Nat × FileFault) :=
  match d.entry? name with
  | some (.device _ (some fault)) => if content.isEmpty then none else some (0, fault)
  | _ => none

def disk (d : Directory) : Disk (List String) := ⟨d.read, d.target, d.content?, d.isDevice, d.stop?⟩

def write (d : Directory) (path : String) (content : Bytes) : Directory :=
  match d.target path with
  | .ok name =>
    if d.isDevice name then d
    else { d with entries := (name, .file content) :: d.entries.filter (·.1 ≠ name) }
  | .error _ => d

def files (d : Directory) : List (List String × Bytes) :=
  d.entries.filterMap fun
    | (name, .file content) =>
      if d.home.isPrefixOf name then some (name.drop d.home.length, content) else none
    | _ => none

def file? (d : Directory) (name : List String) : Option Bytes := d.content? (d.home ++ name)

end Directory

end DocMatch.CommandLine
