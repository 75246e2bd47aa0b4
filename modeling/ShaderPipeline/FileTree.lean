import ShaderPipeline.BinaryTable
import ShaderPipeline.Path

/-!
A tree of files and directories that relative paths lead into.

A path is followed component by component; two dots lead to the directory above.  Above the top directory
are directories in which nothing is known to be.  An absolute path leads into the tree only if it starts with
the place where the tree is mounted.  A failed access has one of a few causes, and leaves what was made before it
failed.  A database file stands for a numbered database, which outlives the file for those who have opened it.
-/

set_option autoImplicit false
set_option relaxedAutoImplicit false

namespace ShaderPipeline

inductive FileFault where
  | missing
  | exists
  | notDirectory
  | isDirectory
  | nameTooLong
  | notText
  | nulInName
  deriving DecidableEq, Repr

def FileFault.message : FileFault → String
  | missing => "No such file or directory (os error 2)"
  | .exists => "File exists (os error 17)"
  | notDirectory => "Not a directory (os error 20)"
  | isDirectory => "Is a directory (os error 21)"
  | nameTooLong => "File name too long (os error 36)"
  | notText => "stream did not contain valid UTF-8"
  | nulInName => "file name contained an unexpected NUL byte"

/-- The names that lead from the top directory to a place; two dots, before all names, lead above the top. -/
abbrev Place := List String

namespace Place

def isTop (place : Place) : Bool :=
  place.all (· == "..")

def above (place : Place) : Place :=
  if place.isTop then place ++ [".."] else place.dropLast

/-- How many bytes the names of a place take with a separator before each. -/
def byteSize (place : Place) : Nat :=
  place.foldl (fun size name => size + 1 + name.utf8ByteSize) 0

def beside (place : Place) (text : String) : Place :=
  place.dropLast ++ [place.getLast?.getD "" ++ text]

end Place

inductive FileNode where
  | directory
  | file (content : ByteArray) (modified : Int)
  /-- A file that holds the database with a number. -/
  | database (number : Nat)
  /-- A file that holds a database which is open, after something else was written over it. -/
  | overwritten (number : Nat) (content : ByteArray) (modified : Int)
  /-- A file in which the changes of an open database are kept. -/
  | journal (number : Nat)
  /-- A file that tells what stands where in a journal. -/
  | index

/-- How much of a database is in its journal and not yet in its file. -/
inductive Pending where
  | nothing
  | changes
  | everything
  deriving DecidableEq, Repr

/-- A database: its table, how many connections to it are open, and what is in its journal. -/
structure Database where
  table : BinaryTable
  connections : Nat
  pending : Pending

/-- The files and directories below the top directory. -/
structure FileTree where
  nodes : List (Place × FileNode)
  /-- The databases by number; a database stays when its file is removed. -/
  databases : List Database
  /-- What absolute paths into the tree start with; none leads there if this is empty. -/
  mount : Place

namespace FileTree

def empty : FileTree :=
  ⟨[], [], []⟩

/-- What a place holds; the top and what is above it are directories. -/
def nodeAt (t : FileTree) (place : Place) : Option FileNode :=
  if place.isTop then some .directory
  else (t.nodes.find? (·.1 == place)).map (·.2)

def put (t : FileTree) (place : Place) (node : FileNode) : FileTree :=
  { t with nodes := (place, node) :: t.nodes.filter (·.1 != place) }

def take (t : FileTree) (place : Place) : FileTree :=
  { t with nodes := t.nodes.filter (·.1 != place) }

def database (t : FileTree) (number : Nat) : Database :=
  t.databases.getD number ⟨.empty, 0, .nothing⟩

def setDatabase (t : FileTree) (number : Nat) (database : Database) : FileTree :=
  { t with databases := t.databases.set number database }

def addDatabase (t : FileTree) (database : Database) : Nat × FileTree :=
  (t.databases.length, { t with databases := t.databases ++ [database] })

def longestName : Nat :=
  255

def longestPath : Nat :=
  4095

/-- The place that segments of a path lead to from another place, every step but the last from an existing
directory. -/
def follow (t : FileTree) : Place → List String → Except FileFault Place
  | place, [] => .ok place
  | place, segment :: rest =>
      match t.nodeAt place with
      | none => .error .missing
      | some .directory =>
          if Path.isSkipped segment then follow t place rest
          else if segment == ".." then follow t place.above rest
          else if longestName < segment.utf8ByteSize then .error .nameTooLong
          else follow t (place ++ [segment]) rest
      | some _ => .error .notDirectory

/-- The segments of a path from the top on; an absolute path must start with the mount. -/
def segmentsFromTop (t : FileTree) (p : Path) : Except FileFault (List String) :=
  if p.text.toList.any (·.toNat == 0) then .error .nulInName
  else if p.text == "" then .error .missing
  else if longestPath < p.text.utf8ByteSize then .error .nameTooLong
  else if p.isAbsolute then
    let segments := p.segments.filter fun s => !Path.isSkipped s
    if t.mount.isEmpty || segments.take t.mount.length != t.mount then .error .missing
    else .ok (segments.drop t.mount.length)
  else .ok p.segments

def place (t : FileTree) (p : Path) : Except FileFault Place := do
  t.follow [] (← t.segmentsFromTop p)

/-- The place that segments lead to from another place when two dots only take back the segment before them,
even one that is missing; but nothing lies in a file. -/
def resolve (t : FileTree) : Place → List String → Except FileFault Place
  | place, [] => .ok place
  | place, segment :: rest =>
      if Path.isSkipped segment then resolve t place rest
      else if segment == ".." then resolve t place.above rest
      else if longestName < segment.utf8ByteSize then .error .nameTooLong
      else
        match t.nodeAt place with
        | none | some .directory => resolve t (place ++ [segment]) rest
        | some _ => .error .notDirectory

def resolvedPlace (t : FileTree) (p : Path) : Except FileFault Place := do
  t.resolve [] (← t.segmentsFromTop p)

def node (t : FileTree) (p : Path) : Except FileFault FileNode := do
  match t.nodeAt (← t.place p) with
  | some node => pure node
  | none => throw .missing

def isFile (t : FileTree) (p : Path) : Bool :=
  match t.node p with
  | .ok .directory | .error _ => false
  | .ok _ => true

def isDirectory (t : FileTree) (p : Path) : Bool :=
  match t.node p with
  | .ok .directory => true
  | _ => false

def isPresent (t : FileTree) (p : Path) : Bool :=
  (t.node p).toBool

/-- The time of change of what is given none, in seconds: a present time. -/
def presentTime : Int :=
  1790000000

def modified (t : FileTree) (p : Path) : Except FileFault Int := do
  match ← t.node p with
  | .file _ time | .overwritten _ _ time => pure time
  | .directory | .database _ | .journal _ | .index => pure presentTime

/-- The bytes of the file at a path.  A journal without changes has none; those of a database are no text. -/
def bytes (t : FileTree) (p : Path) : Except FileFault ByteArray := do
  match ← t.node p with
  | .file content _ | .overwritten _ content _ => pure content
  | .directory => throw .isDirectory
  | .journal number =>
      if (t.database number).pending == .nothing then pure .empty else throw .notText
  | .database _ | .index => throw .notText

def text (t : FileTree) (p : Path) : Except FileFault String := do
  match String.fromUTF8? (← t.bytes p) with
  | some s => pure s
  | none => throw .notText

def withoutTrailing (p : Path) : Path :=
  ⟨String.ofList (p.text.toList.reverse.dropWhile (· == '/')).reverse⟩

def makeDirectory (t : FileTree) (p : Path) : Except FileFault FileTree := do
  let place ← t.place (withoutTrailing p)
  match t.nodeAt place, t.nodeAt place.dropLast with
  | some _, _ => throw .exists
  | none, some .directory => pure (t.put place .directory)
  | none, some _ => throw .notDirectory
  | none, none => throw .missing

/-- Makes the directory at a path, unless it is there already. -/
def ensureDirectory (t : FileTree) (p : Path) : Except FileFault Unit × FileTree :=
  match t.makeDirectory p with
  | .ok made => (.ok (), made)
  | .error fault => (if t.isDirectory p then .ok () else .error fault, t)

/-- Makes the directory at a path and those it lies in, at most as many as `steps`. -/
def makeDirectoriesWithin (t : FileTree) : Nat → Path → Except FileFault Unit × FileTree
  | 0, _ => (.error .missing, t)
  | steps + 1, p =>
      if p.text == "" then (.ok (), t)
      else
        match t.ensureDirectory p, p.parent? with
        | (.error .missing, _), some parent =>
            match makeDirectoriesWithin t steps parent with
            | (.ok (), made) => made.ensureDirectory p
            | failed => failed
        | outcome, _ => outcome

def makeDirectories (t : FileTree) (p : Path) : Except FileFault Unit × FileTree :=
  t.makeDirectoriesWithin (p.text.length + 1) p

/-- Writes over the file of a database.  While the database is open it stays its file, but a table that is in no
journal is lost. -/
def overwrite (t : FileTree) (place : Place) (number : Nat) (content : ByteArray) (time : Int) :
    FileTree :=
  let database := t.database number
  if database.connections == 0 then t.put place (.file content time)
  else if database.pending == .nothing then
    (t.setDatabase number { database with table := .unsuited }).put place
      (.overwritten number content time)
  else t.put place (.overwritten number content time)

def writeFile (t : FileTree) (p : Path) (content : ByteArray) (time : Int) :
    Except FileFault FileTree := do
  let place ← t.place p
  match t.nodeAt place with
  | some .directory => throw .isDirectory
  | some (.database number) | some (.overwritten number _ _) =>
      pure (t.overwrite place number content time)
  | _ => pure (t.put place (.file content time))

def write (t : FileTree) (p : Path) (content : ByteArray) (time : Int) :
    Except FileFault Unit × FileTree :=
  match t.makeDirectories (p.parent?.getD ⟨""⟩) with
  | (.ok (), made) =>
      match made.writeFile p content time with
      | .ok written => (.ok (), written)
      | .error fault => (.error fault, made)
  | failed => failed

/-- Sets the time of change of a file, if there is one. -/
def touch (t : FileTree) (p : Path) (time : Int) : FileTree :=
  match t.place p with
  | .ok place =>
      match t.nodeAt place with
      | some (.file content _) => t.put place (.file content time)
      | some (.overwritten number content _) => t.put place (.overwritten number content time)
      | _ => t
  | .error _ => t

def remove (t : FileTree) (p : Path) : FileTree :=
  match t.place p with
  | .ok place =>
      match t.nodeAt place with
      | some .directory | none => t
      | some _ => t.take place
  | .error _ => t

end FileTree

end ShaderPipeline
