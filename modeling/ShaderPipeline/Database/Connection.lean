import ShaderPipeline.Database.Address
import ShaderPipeline.Database.Schema
import ShaderPipeline.FileTree

/-!
Connections to databases.

Opening a database makes its file if it is missing, and its table for binaries if the file has none; a file that
holds anything else but a database cannot be opened.  While a database is open its changes are kept in a journal
beside the file, with an index; when the last connection is closed they are written into the file.  What was made
before opening fails stays.
-/

set_option autoImplicit false
set_option relaxedAutoImplicit false

namespace ShaderPipeline.Database

/-- A connection: the number of a database, the place of its file if it has one, and whether the table can be
changed. -/
structure Connection where
  number : Nat
  place : Option Place
  writable : Bool
  deriving DecidableEq, Repr

namespace Connection

def opened (outcome : Connection × FileTree) : Option Connection × FileTree :=
  (some outcome.1, outcome.2)

def openFresh (files : FileTree) : Connection × FileTree :=
  let (number, files) := files.addDatabase ⟨.empty, 0, .nothing⟩
  (⟨number, none, true⟩, files)

def journalPlace (place : Place) : Place :=
  place.beside "-wal"

def indexPlace (place : Place) : Place :=
  place.beside "-shm"

/-- The place of a file with which changes that were broken off are taken back. -/
def rollbackPlace (place : Place) : Place :=
  place.beside "-journal"

def isDirectory (files : FileTree) (place : Place) : Bool :=
  files.nodeAt place matches some .directory

def hasJournal (files : FileTree) (place : Place) (number : Nat) : Bool :=
  match files.nodeAt (journalPlace place) with
  | some (.journal own) => own == number
  | _ => false

/-- The database that was left in the journal at a place, if all of it is there. -/
def left? (files : FileTree) (place : Place) : Option Nat :=
  match files.nodeAt (journalPlace place) with
  | some (.journal number) =>
      if (files.database number).pending == .everything then some number else none
  | _ => none

/-- Whether changes to a database file must be taken back before it is opened. -/
def isBroken (files : FileTree) (place : Place) : Bool :=
  match files.nodeAt (rollbackPlace place) with
  | some (.file content _) => content.size != 0 && byteAt content 0 != 0
  | _ => false

/-- Opens a further connection to a database at the place of its file. -/
def connect (files : FileTree) (number : Nat) (place : Place) (writable : Bool) :
    Connection × FileTree :=
  let database := files.database number
  let files := files.put (journalPlace place) (.journal number)
  let files :=
    if database.connections == 0 then files.put (indexPlace place) .index else files
  (⟨number, some place, writable⟩,
    files.setDatabase number { database with connections := database.connections + 1 })

/-- Opens a database that was not known before at the place of its file. -/
def connectNew (files : FileTree) (database : Database) (place : Place) (writable : Bool) :
    Connection × FileTree :=
  let (number, files) := files.addDatabase database
  connect (files.put place (.database number)) number place writable

def create (files : FileTree) (place : Place) : Option Connection × FileTree :=
  opened (connectNew (files.take (rollbackPlace place)) ⟨.empty, 0, .everything⟩ place true)

/-- The table of an image; that of a version which may not be written takes no binaries. -/
def tableOf (image : Image) (table : BinaryTable) : BinaryTable :=
  { table with rules := { table.rules with writable := table.rules.writable && image.writable } }

/-- Opens the database in a file with some bytes.  One without the table can only be opened for changes, and so
can one that keeps no journal. -/
def openImage (names : TableNames) (files : FileTree) (place : Place) (mode : OpenMode)
    (bytes : ByteArray) : Option Connection × FileTree :=
  match Image.ofBytes? bytes with
  | none => (none, files)
  | some image =>
      let changeable := mode != .read && image.writable
      let files := if image.journaled then files else files.take (rollbackPlace place)
      let connected (database : Database) : Option Connection × FileTree :=
        opened (connectNew files database place (mode != .read))
      match names.find image with
      | .ok (some table) =>
          if changeable || image.journaled then connected ⟨tableOf image table, 0, .nothing⟩
          else (none, files)
      | .ok none => if changeable then connected ⟨.empty, 0, .everything⟩ else (none, files)
      | .error _ => (none, files)

/-- Opens a database that others may have open.  Changes that are not in its file must be in its journal; a
journal that is missing is made nevertheless. -/
def join (files : FileTree) (number : Nat) (place : Place) (mode : OpenMode) :
    Option Connection × FileTree :=
  let journal := journalPlace place
  if (files.database number).pending == .nothing || hasJournal files place number then
    opened (connect files number place (mode != .read))
  else if (files.nodeAt journal).isNone then
    (none, files.put journal (.file .empty FileTree.presentTime))
  else (none, files)

/-- Opens the database in a file that nobody has open, a new one if the file has no content.  What was left in a
journal counts for more than the content. -/
def openFile (names : TableNames) (files : FileTree) (place : Place) (mode : OpenMode)
    (content : ByteArray) (time : Int) : Option Connection × FileTree :=
  if content.size ≤ 1 then if mode == .read then (none, files) else create files place
  else
    match left? files place with
    | some number => join (files.put place (.overwritten number content time)) number place mode
    | none => openImage names files place mode content

/-- Opens the database in a file that was written over while others have it open, which counts for nothing if all
of the database is in its journal.  They hinder a new beginning. -/
def openOverwritten (names : TableNames) (files : FileTree) (number : Nat) (place : Place)
    (mode : OpenMode) (content : ByteArray) : Option Connection × FileTree :=
  if content.size ≤ 1 then (none, (files.take (journalPlace place)).take (rollbackPlace place))
  else if (files.database number).pending != .everything then
    openImage names files place mode content
  else if hasJournal files place number then join files number place mode
  else (none, files)

/-- Whether others have the file at a place open, and something is in it. -/
def isShared (files : FileTree) (place : Place) : Bool :=
  match files.nodeAt place with
  | some (.database number) => (files.database number).connections != 0
  | some (.overwritten number content _) =>
      (files.database number).connections != 0 && 1 < content.size
  | _ => false

/-- Opens the database in the file at a place, a new one if there is no file. -/
def openNode (names : TableNames) (files : FileTree) (place : Place) (mode : OpenMode) :
    Option Connection × FileTree :=
  match files.nodeAt place with
  | none => if mode == .create then create files place else (none, files)
  | some (.file content time) => openFile names files place mode content time
  | some (.database number) => join files number place mode
  | some (.overwritten number content _) => openOverwritten names files number place mode content
  | some .directory | some (.journal _) | some .index => (none, files)

/-- The files after an opening for which there is no room beside the file of the database: that file was made
nevertheless, and its journal too if only the index could not be. -/
def withoutRoom (files : FileTree) (place : Place) (mode : OpenMode) : FileTree :=
  if (files.nodeAt place).isSome || mode != .create then files
  else
    let blank := FileNode.file .empty FileTree.presentTime
    let files := files.put place blank
    if isDirectory files (journalPlace place) || isDirectory files (rollbackPlace place) then files
    else files.put (journalPlace place) blank

/-- Opens the database at a place, where there must be room for the files beside it.  Changes that were broken off
are taken back, which nobody else may hinder. -/
def openAt (names : TableNames) (files : FileTree) (place : Place) (mode : OpenMode) :
    Option Connection × FileTree :=
  let companions := [journalPlace place, indexPlace place, rollbackPlace place]
  if !isDirectory files place.above then (none, files)
  else if companions.any (isDirectory files) then (none, withoutRoom files place mode)
  else if isBroken files place then
    if isShared files place then (none, files)
    else openNode names (files.take (rollbackPlace place)) place mode
  else openNode names files place mode

def longestPlace : Nat :=
  490

def openAddress (names : TableNames) (files : FileTree) (address : Address) :
    Option Connection × FileTree :=
  if address.mode == .memory then opened (openFresh files)
  else
    match files.resolvedPlace address.path with
    | .ok place =>
        if place.byteSize ≤ longestPlace then openAt names files place address.mode
        else (none, files)
    | .error _ => (none, files)

/-- Writes what is in the journal of a database into its file, and takes the journal away. -/
def settle (files : FileTree) (number : Nat) (place : Place) (node : FileNode) : FileTree :=
  let files := files.setDatabase number { files.database number with pending := .nothing }
  ((files.put place node).take (journalPlace place)).take (indexPlace place)

/-- The files after the last connection to a database was closed.  The file that others put in its place is
left alone. -/
def closeLast (files : FileTree) (number : Nat) (place : Place) : FileTree :=
  match files.nodeAt place with
  | some (.database own) =>
      if own == number then settle files number place (.database number) else files
  | some (.overwritten own content time) =>
      if own == number then
        settle files number place (if (files.database number).pending == .everything
          then .database number else .file content time)
      else files
  | _ => files

def close (c : Connection) (files : FileTree) : FileTree :=
  match c.place with
  | none => files
  | some place =>
      let database := files.database c.number
      let others := database.connections - 1
      let files := files.setDatabase c.number { database with connections := others }
      if others == 0 && c.writable then closeLast files c.number place else files

end Connection

end ShaderPipeline.Database
