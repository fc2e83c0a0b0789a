import TypedEntities.Failure
import TypedEntities.Files.Path
import TypedEntities.Table
import TypedEntities.Text.Basic

/-!
# Trees of files

Files and directories below a root directory, as a disk keeps them, and writing a file so that it is
there as a whole or not at all: the text goes to a temporary file beside the target, which then takes
the target's place. `FileTree.write` can be told to fail at a step of its work; a failure takes the
temporary file away again.
-/

namespace TypedEntities

/-- What is at a place of a tree. -/
inductive FileEntry
  | file (text : String)
  | directory
deriving DecidableEq, Repr, Inhabited

/-- Where something is: the names from the root down. -/
abbrev Location := List String

/-- A tree of files; the root directory is always there and not listed. -/
structure FileTree where
  entries : Table Texts FileEntry
deriving Inhabited

/-- A step of writing a file that fails. -/
inductive WriteFault
  /-- Making the directories above, after some of them. -/
  | directories (made : Nat)
  /-- Creating the temporary file. -/
  | create
  /-- Writing the text, after some of its characters. -/
  | text (written : Nat)
  /-- Bringing the text to the disk. -/
  | sync
  /-- Putting the temporary file in the place of the target. -/
  | rename
deriving DecidableEq, Repr, Inhabited

/-- What goes wrong on its own when a file is written, beside what the tree does not allow. -/
structure Mishap where
  fault : Option WriteFault
  /-- The temporary file cannot be removed after a failure. -/
  cleanUpFails : Bool
deriving DecidableEq, Repr, Inhabited

/-- Nothing goes wrong on its own. -/
def Mishap.none : Mishap := ⟨Option.none, false⟩

/-- How many directories may be made before the fault, if it is one of those. -/
def Mishap.most (mishap : Mishap) : Option Nat :=
  match mishap.fault with
  | some (.directories made) => some made
  | _ => Option.none

namespace FileTree

def empty : FileTree := ⟨Table.empty⟩

/-- What is at a location. -/
def at? (t : FileTree) (location : Location) : Option FileEntry :=
  if location = [] then some .directory else t.entries.get? ⟨location⟩

/-- Puts something at a location. -/
def put (t : FileTree) (location : Location) (entry : FileEntry) : FileTree :=
  ⟨t.entries.insert ⟨location⟩ entry⟩

/-- Takes away what is at a location. -/
def erase (t : FileTree) (location : Location) : FileTree := ⟨t.entries.erase ⟨location⟩⟩

/-! ## Finding locations -/

/-- The bytes that a name may have. -/
def maxNameBytes : Nat := 255

/-- Whether a name can stand in a directory. -/
def isName (name : String) : Bool :=
  name.utf8ByteSize ≤ maxNameBytes && !name.toList.contains (Char.ofNat 0)

/-- The location that one more part of a path leads to, which only works from a directory. Nothing is
above the root. -/
def step? (t : FileTree) (location : Location) (part : Path.Part) : Option Location :=
  if t.at? location = some .directory then
    match part with
    | .root => some []
    | .here => some location
    | .above => some location.dropLast
    | .name name => if isName name then some (location ++ [name]) else none
  else none

/-- The location that a path leads to; all but its last part have to lead to directories. -/
def locate? (t : FileTree) (path : String) : Option Location :=
  (Path.parts path).foldlM t.step? []

/-! ## Directories -/

/-- Makes the directories along the parts of a path, at most `most` of them; false if that does not
work or there are more to make. -/
def makeAlong (t : FileTree) (location : Location) (most : Option Nat) :
    List Path.Part → FileTree × Bool
  | [] => (t, true)
  | part :: rest =>
    match t.step? location part with
    | none => (t, false)
    | some next =>
      match t.at? next with
      | some .directory => makeAlong t next most rest
      | some (.file _) => (t, false)
      | none =>
        match most with
        | some 0 => (t, false)
        | _ => makeAlong (t.put next .directory) next (most.map (· - 1)) rest

/-- Makes the directory at a path and all above it. A path with a character that no path can have
makes none. -/
def makeDirectories (t : FileTree) (path : String) (most : Option Nat) : FileTree × Bool :=
  if path.toList.contains (Char.ofNat 0) then (t, false)
  else t.makeAlong [] most (Path.parts path)

/-! ## Files -/

/-- Creates an empty file, or empties the one that is there. -/
def create? (t : FileTree) (path : String) : Option (FileTree × Location) := do
  let location ← t.locate? path
  if t.at? location = some .directory then none
  else some (t.put location (.file ""), location)

/-- Puts the file at one path in the place of what is at another, which is no directory. -/
def rename? (t : FileTree) (source target : String) : Option FileTree := do
  let sourceLocation ← t.locate? source
  let targetLocation ← t.locate? target
  match t.at? sourceLocation with
  | some (.file text) =>
    if Path.endsAsDirectory target || t.at? targetLocation = some .directory then none
    else some ((t.erase sourceLocation).put targetLocation (.file text))
  | _ => none

/-- Removes the file at a path, if there is one. -/
def remove (t : FileTree) (path : String) : FileTree :=
  match t.locate? path with
  | none => t
  | some location =>
    match t.at? location with
    | some (.file _) => t.erase location
    | _ => t

/-- Writes a text to a new file, or to the one that is there; false if that fails. -/
def writeText (t : FileTree) (fault : Option WriteFault) (path text : String) : FileTree × Bool :=
  if fault = some .create then (t, false)
  else match t.create? path with
  | none => (t, false)
  | some (t, location) =>
    match fault with
    | some (.text written) =>
      (t.put location (.file (String.ofList (text.toList.take written))), false)
    | some .sync => (t.put location (.file text), false)
    | _ => (t.put location (.file text), true)

/-- The temporary file beside a target. -/
def temporary (target : String) : String := Path.withExtension target "tmp"

/-- Writes a text to a file by way of the temporary file beside it; false if that fails. -/
def replace (t : FileTree) (mishap : Mishap) (target text : String) : FileTree × Bool :=
  let cleanUp (t : FileTree) : FileTree :=
    if mishap.cleanUpFails then t else t.remove (temporary target)
  match t.writeText mishap.fault (temporary target) text with
  | (t, false) => (cleanUp t, false)
  | (t, true) =>
    match if mishap.fault = some .rename then none else t.rename? (temporary target) target with
    | some t => (t, true)
    | none => (cleanUp t, false)

/-- Makes the directories above a target. -/
def makeParents (t : FileTree) (mishap : Mishap) (target : String) :
    FileTree × Except Failure Unit :=
  match Path.parent? target with
  | none => (t, .ok ())
  | some parent =>
    match t.makeDirectories parent mishap.most with
    | (t, true) => (t, .ok ())
    | (t, false) => (t, .error (.io parent "the directory cannot be made"))

/-- Writes a file below a root, and the directories above it. -/
def write (t : FileTree) (mishap : Mishap) (root path text : String) :
    FileTree × Except Failure Unit :=
  let target := Path.join root path
  match t.makeParents mishap target with
  | (t, .error f) => (t, .error f)
  | (t, .ok ()) =>
    match t.replace mishap target text with
    | (t, true) => (t, .ok ())
    | (t, false) => (t, .error (.io target "the file cannot be written"))

end FileTree

end TypedEntities
