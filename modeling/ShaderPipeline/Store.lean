import ShaderPipeline.Cache.Entry
import ShaderPipeline.Database.Connection

/-!
The persistent store of compiled binaries.

A store is a table of binaries in a database file of a directory, so it outlives the caches that use it.
Opening a store makes the directory and the database.
-/

set_option autoImplicit false
set_option relaxedAutoImplicit false

namespace ShaderPipeline

/-- An open store: a connection to its database. -/
structure BinaryStore where
  connection : Database.Connection
  deriving DecidableEq, Repr

namespace BinaryStore

def names : Database.TableNames :=
  ⟨"cache", "type", "id", "value", "spirv"⟩

def key (stage : StageSet) (source : String) : BinaryKey :=
  ⟨stage.shortName, source⟩

def database (s : BinaryStore) (files : FileTree) : Database :=
  files.database s.connection.number

def table (s : BinaryStore) (files : FileTree) : BinaryTable :=
  (s.database files).table

def openFresh (files : FileTree) : BinaryStore × FileTree :=
  let (connection, files) := Database.Connection.openFresh files
  (⟨connection⟩, files)

/-- Opens the store whose database has the given name in a directory. -/
def openIn (files : FileTree) (directory : Path) (name : String) :
    Except CacheError BinaryStore × FileTree :=
  match files.makeDirectories directory with
  | (.error fault, files) => (.error (.openFailed directory fault), files)
  | (.ok (), files) =>
      match Database.Address.ofText? (directory.join name).text with
      | none => (.error .storeFailed, files)
      | some address =>
          match Database.Connection.openAddress names files address with
          | (some connection, files) => (.ok ⟨connection⟩, files)
          | (none, files) => (.error .storeFailed, files)

def close (s : BinaryStore) (files : FileTree) : FileTree :=
  s.connection.close files

def get? (s : BinaryStore) (files : FileTree) (stage : StageSet) (source : String) :
    Except CacheError (Option Binary) :=
  ((s.table files).get? (key stage source)).mapError fun _ => .storeFailed

def withTable (s : BinaryStore) (files : FileTree) (table : BinaryTable) : FileTree :=
  let database := s.database files
  files.setDatabase s.connection.number { database with
    table
    pending := if database.pending == .nothing then .changes else database.pending }

def set (s : BinaryStore) (files : FileTree) (stage : StageSet) (source : String)
    (words : Binary) : Except CacheError FileTree :=
  match (s.table files).set (key stage source) words with
  | .ok table =>
      if s.connection.writable then .ok (s.withTable files table) else .error .storeFailed
  | .error _ => .error .storeFailed

/-- Cuts every stored binary to at most `length` bytes. -/
def truncate (s : BinaryStore) (files : FileTree) (length : Nat) : FileTree :=
  s.withTable files ((s.table files).truncate length)

end BinaryStore

end ShaderPipeline
