import ShaderPipeline.Proofs.Files.Directories
import ShaderPipeline.Store

/-!
Stores that are closed and opened again.

A store that was made in a directory has its database file there, beside which a journal is kept while anyone has it
open.  Nothing that is done with the store takes a directory away, so opening the same directory again leads to the same
file, and the table is what it was.
-/

set_option autoImplicit false
set_option relaxedAutoImplicit false

namespace ShaderPipeline

open Database Outcome

namespace FileTree

variable {t : FileTree}

private theorem database_setDatabase {number : Nat} (known : number < t.databases.length) (database : Database) :
    (t.setDatabase number database).database number = database := by
  simp [FileTree.database, setDatabase, List.getD_eq_getElem?_getD, known]

private theorem take_take (t : FileTree) (place : Place) : (t.take place).take place = t.take place := by
  simp [take]

theorem length_setDatabase (t : FileTree) (number : Nat) (database : Database) :
    (t.setDatabase number database).databases.length = t.databases.length :=
  List.length_set

end FileTree

namespace Place

private theorem not_isTop_concat {place : Place} {name : String} (down : name ≠ "..") : isTop (place ++ [name]) = false := by
  simp [isTop, down]

private theorem above_concat {place : Place} {name : String} (down : name ≠ "..") : above (place ++ [name]) = place := by
  rw [above, not_isTop_concat down]
  exact List.dropLast_concat

private theorem beside_concat (place : Place) (name text : String) :
    beside (place ++ [name]) text = place ++ [name ++ text] := by
  simp [beside]

end Place

private theorem append_ne_self {name text : String} (given : text ≠ "") : name ++ text ≠ name := by
  intro same
  have longer := congrArg String.toList same
  rw [String.toList_append, List.append_right_eq_self] at longer
  exact given (String.toList_eq_nil_iff.mp longer)

private theorem append_ne_append {name text other : String} (ne : text ≠ other) : name ++ text ≠ name ++ other := by
  intro same
  have chars := congrArg String.toList same
  rw [String.toList_append, String.toList_append, List.append_cancel_left_eq] at chars
  exact ne (String.toList_inj.mp chars)

private theorem append_ne_up {name text : String} (long : 2 < text.length) : name ++ text ≠ ".." := by
  intro same
  have length := congrArg String.length same
  have two : "..".length = 2 := by decide
  rw [String.length_append, two] at length
  omega

namespace FileTree

variable {t : FileTree} {place : Place} {name other : String}

private theorem nodeAt_put_concat (down : other ≠ "..") (node : FileNode) :
    (t.put (place ++ [name]) node).nodeAt (place ++ [other]) =
      if other = name then some node else t.nodeAt (place ++ [other]) := by
  simp [nodeAt_put, Place.not_isTop_concat down]

private theorem nodeAt_take_concat (down : other ≠ "..") :
    (t.take (place ++ [name])).nodeAt (place ++ [other]) =
      if other = name then none else t.nodeAt (place ++ [other]) := by
  simp [nodeAt_take, Place.not_isTop_concat down]

end FileTree

namespace Database.Address

/-- Whether a path is not taken for an address that starts with a scheme. -/
def IsPath (p : Path) : Prop :=
  ¬ "file:".toList <+: p.text.toList

private theorem ofText?_of_isPath {p : Path} (path : IsPath p) : ofText? p.text = some ⟨p, .create⟩ := by
  rw [ofText?]
  split
  · rename_i rest start
    exact absurd ⟨rest, start.symm⟩ path
  · rfl

end Database.Address

namespace BinaryStore

open Connection

/-- Where a store is made: a file name in a directory, whose path is no address of another kind. -/
structure IsSite (directory : Path) (name : String) (place : Place) : Prop where
  plain : Path.IsFileName name
  path : Address.IsPath (directory.join name)
  takes : FileTree.Takes (directory.join name)
  short : name.utf8ByteSize ≤ FileTree.longestName
  room : (place ++ [name]).byteSize ≤ longestPlace

/-- What the names of the journal of a database file and of the journal's index end in. -/
def companions : List String :=
  ["-wal", "-shm"]

/-- Whether the file of a database stands in a directory, with room for the files beside it, and nothing is broken
off. -/
structure Stands (files : FileTree) (directory : Path) (name : String) (place : Place) (number : Nat) : Prop where
  leads : files.LeadsTo directory place
  file : files.nodeAt (place ++ [name]) = some (.database number)
  free : ∀ text ∈ companions, files.nodeAt (place ++ [name ++ text]) ≠ some .directory
  whole : files.nodeAt (place ++ [name ++ "-journal"]) = none

/-- Whether the database has some connections besides, with its journal beside it while there are any. -/
structure Holds (files : FileTree) (directory : Path) (name : String) (place : Place) (number opened : Nat) :
    Prop extends Stands files directory name place number where
  known : number < files.databases.length
  counted : (files.database number).connections = opened
  journal : opened ≠ 0 → files.nodeAt (place ++ [name ++ "-wal"]) = some (.journal number)
  settled : opened = 0 → (files.database number).pending = .nothing

/-- The store with the database of a number, which can be changed. -/
def ofNumber (place : Place) (name : String) (number : Nat) : BinaryStore :=
  ⟨⟨number, some (place ++ [name]), true⟩⟩

variable {files : FileTree} {directory : Path} {name text : String} {place : Place} {number opened : Nat}

private theorem companion_names (name : String) (beside : text ∈ companions) :
    name ++ text ≠ ".." ∧ name ++ text ≠ name ∧ name ++ text ≠ name ++ "-journal" := by
  simp only [companions, List.mem_cons, List.not_mem_nil, or_false] at beside
  rcases beside with rfl | rfl
  · exact ⟨append_ne_up (by decide), append_ne_self (by decide), append_ne_append (by decide)⟩
  · exact ⟨append_ne_up (by decide), append_ne_self (by decide), append_ne_append (by decide)⟩

private theorem stands_put (leads : files.LeadsTo directory place) (plain : Path.IsFileName name)
    (own : files.nodeAt (place ++ [name]) ≠ some .directory)
    (free : ∀ text ∈ companions, files.nodeAt (place ++ [name ++ text]) ≠ some .directory)
    (whole : files.nodeAt (place ++ [name ++ "-journal"]) = none) (number : Nat) :
    Stands (files.put (place ++ [name]) (.database number)) directory name place number := by
  refine ⟨leads.keep (FileTree.keeps_put own _), ?_, fun text beside => ?_, ?_⟩
  · rw [FileTree.nodeAt_put_concat plain.down, if_pos rfl]
  · obtain ⟨down, other, _⟩ := companion_names name beside
    rw [FileTree.nodeAt_put_concat down, if_neg other]
    exact free text beside
  · rw [FileTree.nodeAt_put_concat (append_ne_up (by decide)), if_neg (append_ne_self (by decide)), whole]

theorem Stands.put (h : Stands files directory name place number) (plain : Path.IsFileName name)
    (beside : text ∈ companions) {node : FileNode} (file : node ≠ .directory) :
    Stands (files.put (place ++ [name ++ text]) node) directory name place number := by
  obtain ⟨_, other, rollback⟩ := companion_names name beside
  refine ⟨h.leads.keep (FileTree.keeps_put (h.free text beside) node), ?_, fun text' beside' => ?_, ?_⟩
  · rw [FileTree.nodeAt_put_concat plain.down, if_neg other.symm, h.file]
  · rw [FileTree.nodeAt_put_concat (companion_names name beside').1]
    split
    · simpa using file
    · exact h.free text' beside'
  · rw [FileTree.nodeAt_put_concat (append_ne_up (by decide)), if_neg rollback.symm, h.whole]

theorem Stands.take (h : Stands files directory name place number) (plain : Path.IsFileName name)
    (beside : text ∈ companions) :
    Stands (files.take (place ++ [name ++ text])) directory name place number := by
  obtain ⟨_, other, rollback⟩ := companion_names name beside
  refine ⟨h.leads.keep (FileTree.keeps_take (h.free text beside)), ?_, fun text' beside' => ?_, ?_⟩
  · rw [FileTree.nodeAt_take_concat plain.down, if_neg other.symm, h.file]
  · rw [FileTree.nodeAt_take_concat (companion_names name beside').1]
    split
    · simp
    · exact h.free text' beside'
  · rw [FileTree.nodeAt_take_concat (append_ne_up (by decide)), if_neg rollback.symm, h.whole]

theorem Stands.setDatabase (h : Stands files directory name place number) (changed : Nat) (database : Database) :
    Stands (files.setDatabase changed database) directory name place number :=
  ⟨h.leads.keep (files.keeps_setDatabase changed database), h.file, h.free, h.whole⟩

theorem Stands.connect (h : Stands files directory name place number) (plain : Path.IsFileName name)
    (known : number < files.databases.length) :
    let joined := Connection.connect files number (place ++ [name]) true
    Holds joined.2 directory name place number ((files.database number).connections + 1) ∧
      (joined.2.database number).table = (files.database number).table := by
  intro joined
  have wal : "-wal" ∈ companions := by decide
  have shm : "-shm" ∈ companions := by decide
  let journaled := files.put (place ++ [name ++ "-wal"]) (.journal number)
  let indexed :=
    if (files.database number).connections == 0 then journaled.put (place ++ [name ++ "-shm"]) .index else journaled
  let counted := { files.database number with connections := (files.database number).connections + 1 }
  have ends : joined.2 = indexed.setDatabase number counted := by
    simp only [joined, Connection.connect, journalPlace, indexPlace, Place.beside_concat]
    rfl
  have first : Stands journaled directory name place number := h.put plain wal nofun
  have placed : journaled.nodeAt (place ++ [name ++ "-wal"]) = some (.journal number) := by
    rw [FileTree.nodeAt_put_concat (companion_names name wal).1, if_pos rfl]
  have other : name ++ "-wal" ≠ name ++ "-shm" := append_ne_append (by decide)
  obtain ⟨stands, journal, databases⟩ : Stands indexed directory name place number ∧
      indexed.nodeAt (place ++ [name ++ "-wal"]) = some (.journal number) ∧
        indexed.databases = files.databases := by
    simp only [indexed]
    split
    · refine ⟨first.put plain shm nofun, ?_, rfl⟩
      rw [FileTree.nodeAt_put_concat (companion_names name wal).1, if_neg other, placed]
    · exact ⟨first, placed, rfl⟩
  have known' : number < indexed.databases.length := databases ▸ known
  have counts := FileTree.database_setDatabase known' counted
  have size : number < (indexed.setDatabase number counted).databases.length :=
    (indexed.length_setDatabase number counted).symm ▸ known'
  rw [ends]
  refine ⟨⟨stands.setDatabase number counted, size, ?_, fun _ => journal, nofun⟩, ?_⟩
  · rw [counts]
  · rw [counts]

private theorem isDirectory_eq_false_iff {q : Place} :
    isDirectory files q = false ↔ files.nodeAt q ≠ some .directory := by
  rw [isDirectory]
  split
  · rename_i directory
    simp [directory]
  · rename_i other
    simpa using other

theorem Stands.openAt (h : Stands files directory name place number) (site : IsSite directory name place) :
    openAt names files (place ++ [name]) .create = openNode names files (place ++ [name]) .create := by
  have free : ([journalPlace (place ++ [name]), indexPlace (place ++ [name]), rollbackPlace (place ++ [name])].any
      (isDirectory files)) = false := by
    have wal := h.free "-wal" (by decide)
    have shm := h.free "-shm" (by decide)
    have gone : files.nodeAt (place ++ [name ++ "-journal"]) ≠ some .directory := by simp [h.whole]
    simp [journalPlace, indexPlace, rollbackPlace, Place.beside_concat, isDirectory_eq_false_iff.mpr wal,
      isDirectory_eq_false_iff.mpr shm, isDirectory_eq_false_iff.mpr gone]
  have above : isDirectory files (Place.above (place ++ [name])) = true := by
    simp [isDirectory, Place.above_concat site.plain.down, h.leads.directory]
  have unbroken : isBroken files (place ++ [name]) = false := by
    simp [isBroken, rollbackPlace, Place.beside_concat, h.whole]
  simp only [Connection.openAt, above, free, unbroken, Bool.not_true, Bool.false_eq_true, if_false]

theorem Holds.openIn (h : Holds files directory name place number opened) (site : IsSite directory name place) :
    ∃ files', openIn files directory name = (.ok (ofNumber place name number), files') ∧
      Holds files' directory name place number (opened + 1) ∧
        (files'.database number).table = (files.database number).table := by
  have resolved : files.resolvedPlace (directory.join name) = .ok (place ++ [name]) := by
    rw [FileTree.resolvedPlace_join h.leads site.plain site.takes, if_neg (Nat.not_lt.mpr site.short)]
  have ready : (files.database number).pending == .nothing || hasJournal files (place ++ [name]) number := by
    by_cases nobody : opened = 0
    · simp [h.settled nobody]
    · simp [hasJournal, journalPlace, Place.beside_concat, h.journal nobody]
  have joined : openNode names files (place ++ [name]) .create =
      Connection.opened (connect files number (place ++ [name]) true) := by
    simp only [openNode, h.file, join, ready, if_true]
    rfl
  have whole : BinaryStore.openIn files directory name =
      (.ok (ofNumber place name number), (connect files number (place ++ [name]) true).2) := by
    rw [BinaryStore.openIn, FileTree.makeDirectories_of_leadsTo h.leads]
    simp only [Address.ofText?_of_isPath site.path, openAddress, resolved, site.room, if_true, h.openAt site, joined]
    rfl
  obtain ⟨holds, table⟩ := h.connect site.plain h.known
  exact ⟨_, whole, h.counted ▸ holds, table⟩

theorem Stands.settle (h : Stands files directory name place number) (plain : Path.IsFileName name)
    (known : number < files.databases.length) (nobody : (files.database number).connections = 0) :
    let files' := Connection.settle files number (place ++ [name]) (.database number)
    Holds files' directory name place number 0 ∧
      (files'.database number).table = (files.database number).table := by
  intro files'
  let emptied := { files.database number with pending := .nothing }
  let left := files.setDatabase number emptied
  let written := left.put (place ++ [name]) (.database number)
  have ends : files' = (written.take (place ++ [name ++ "-wal"])).take (place ++ [name ++ "-shm"]) := by
    simp only [files', Connection.settle, journalPlace, indexPlace, Place.beside_concat]
    rfl
  have stands : Stands left directory name place number := h.setDatabase number emptied
  have own : left.nodeAt (place ++ [name]) ≠ some .directory := by simp [stands.file]
  have placed : Stands written directory name place number :=
    stands_put stands.leads plain own stands.free stands.whole number
  have counts : files'.database number = emptied := by
    rw [ends]
    exact FileTree.database_setDatabase known emptied
  have size : number < files'.databases.length := by
    rw [ends]
    exact (files.length_setDatabase number emptied).symm ▸ known
  refine ⟨⟨?_, size, ?_, fun some => absurd rfl some, fun _ => ?_⟩, ?_⟩
  · rw [ends]
    exact (placed.take plain (by decide)).take plain (by decide)
  · rw [counts]
    exact nobody
  · rw [counts]
  · rw [counts]

/-- Nothing of a store is lost when someone closes it, and the last one leaves the journal settled. -/
theorem Holds.close (h : Holds files directory name place number (opened + 1)) (plain : Path.IsFileName name) :
    let files' := (ofNumber place name number).close files
    Holds files' directory name place number opened ∧
      (files'.database number).table = (files.database number).table := by
  intro files'
  have others : (files.database number).connections - 1 = opened := by rw [h.counted, Nat.add_sub_cancel]
  let released := { files.database number with connections := opened }
  let left := files.setDatabase number released
  have stands : Stands left directory name place number := h.setDatabase number released
  have known : number < left.databases.length := (files.length_setDatabase number released).symm ▸ h.known
  have counts : left.database number = released := FileTree.database_setDatabase h.known released
  by_cases nobody : opened = 0
  · subst nobody
    have last : files' = closeLast left number (place ++ [name]) := by
      simp [files', BinaryStore.close, Connection.close, ofNumber, others, left, released]
    have ends : files' = Connection.settle left number (place ++ [name]) (.database number) := by
      rw [last, closeLast, stands.file]
      exact if_pos (beq_self_eq_true number)
    obtain ⟨holds, table⟩ := stands.settle plain known (by rw [counts])
    rw [ends, table, counts]
    exact ⟨holds, rfl⟩
  · have ends : files' = left := by
      simp [files', BinaryStore.close, Connection.close, ofNumber, others, nobody, left, released]
    rw [ends]
    refine ⟨⟨stands, known, ?_, fun _ => h.journal (Nat.succ_ne_zero opened), fun none => absurd none nobody⟩, ?_⟩
    · rw [counts]
    · rw [counts]

theorem set_of_put {s : BinaryStore} (writable : s.connection.writable = true) {stage : StageSet} {source : String}
    {words : Binary} {table : BinaryTable} (put : (s.table files).set (key stage source) words = .ok table) :
    s.set files stage source words = .ok (s.withTable files table) := by
  rw [BinaryStore.set, put]
  exact if_pos writable

theorem database_withTable {s : BinaryStore} (known : s.connection.number < files.databases.length)
    (table : BinaryTable) :
    ((s.withTable files table).database s.connection.number).table = table ∧
      ((s.withTable files table).database s.connection.number).connections = (s.database files).connections := by
  rw [withTable, FileTree.database_setDatabase known]
  exact ⟨rfl, rfl⟩

/-- What is put into the table of a store that is open is there afterwards, and nothing else happens. -/
theorem Holds.set (h : Holds files directory name place number (opened + 1)) {stage : StageSet} {source : String}
    {words : Binary} {table : BinaryTable}
    (put : (files.database number).table.set (key stage source) words = .ok table) :
    ∃ files', (ofNumber place name number).set files stage source words = .ok files' ∧
      Holds files' directory name place number (opened + 1) ∧ (files'.database number).table = table := by
  let s := ofNumber place name number
  obtain ⟨changed, counts⟩ := database_withTable (s := s) h.known table
  have size : number < (s.withTable files table).databases.length := by
    rw [withTable, FileTree.length_setDatabase]
    exact h.known
  exact ⟨_, set_of_put (s := s) rfl put, ⟨h.setDatabase number _, size, counts.trans h.counted,
    fun _ => h.journal (Nat.succ_ne_zero opened), nofun⟩, changed⟩

private theorem holds_of_create (leads : files.LeadsTo directory place) (plain : Path.IsFileName name)
    (absent : files.nodeAt (place ++ [name]) = none)
    (free : ∀ text ∈ "-journal" :: companions, files.nodeAt (place ++ [name ++ text]) ≠ some .directory) :
    ∃ number files', create files (place ++ [name]) = (some (ofNumber place name number).connection, files') ∧
      Holds files' directory name place number 1 ∧ (files'.database number).table = .empty := by
  let number := files.databases.length
  let cleared := files.take (place ++ [name ++ "-journal"])
  let added : FileTree := { cleared with databases := cleared.databases ++ [⟨.empty, 0, .everything⟩] }
  let written := added.put (place ++ [name]) (.database number)
  have made : create files (place ++ [name]) =
      Connection.opened (Connection.connect written number (place ++ [name]) true) := by
    simp only [create, rollbackPlace, Place.beside_concat]
    rfl
  have kept : files.Keeps cleared := FileTree.keeps_take (free _ List.mem_cons_self)
  have leads' : added.LeadsTo directory place := leads.keep ⟨kept.mount, kept.directories⟩
  have nodes : ∀ {other : String}, other ≠ ".." → added.nodeAt (place ++ [other]) =
      if other = name ++ "-journal" then none else files.nodeAt (place ++ [other]) :=
    fun down => FileTree.nodeAt_take_concat down
  have stands : Stands written directory name place number := by
    refine stands_put leads' plain ?_ (fun text beside => ?_) ?_ number
    · rw [nodes plain.down, absent, ite_self]
      nofun
    · obtain ⟨down, _, other⟩ := companion_names name beside
      rw [nodes down, if_neg other]
      exact free text (List.mem_cons_of_mem _ beside)
    · rw [nodes (append_ne_up (by decide)), if_pos rfl]
  have known : number < written.databases.length := by
    have size : written.databases.length = files.databases.length + 1 := List.length_append
    exact size ▸ Nat.lt_succ_self _
  have fresh : written.database number = ⟨.empty, 0, .everything⟩ := by
    have last : written.databases = files.databases ++ [⟨.empty, 0, .everything⟩] := rfl
    simp [FileTree.database, List.getD_eq_getElem?_getD, last, number]
  obtain ⟨holds, table⟩ := stands.connect plain known
  rw [fresh] at holds table
  exact ⟨number, _, made, holds, table⟩

private theorem openAddress_eq_some {p : Path} {connection : Connection} {files' : FileTree}
    (done : openAddress names files ⟨p, .create⟩ = (some connection, files')) :
    ∃ q, files.resolvedPlace p = .ok q ∧ q.byteSize ≤ longestPlace ∧
      Connection.openAt names files q .create = (some connection, files') := by
  rw [openAddress, if_neg nofun] at done
  split at done
  · rename_i q resolved
    split at done
    · rename_i room
      exact ⟨q, resolved, room, done⟩
    · cases done
  · cases done

/-- A database is only opened where nothing stands in the way of the files beside it; one whose file is missing is
made. -/
private theorem openAt_eq_some {connection : Connection} {files' : FileTree} (plain : Path.IsFileName name)
    (absent : files.nodeAt (place ++ [name]) = none ∨ files.nodeAt (place ++ [name]) = some .directory)
    (done : Connection.openAt names files (place ++ [name]) .create = (some connection, files')) :
    files.nodeAt (place ++ [name]) = none ∧
      (∀ text ∈ "-journal" :: companions, files.nodeAt (place ++ [name ++ text]) ≠ some .directory) ∧
        create files (place ++ [name]) = (some connection, files') := by
  have made : ∀ {t : FileTree}, t.nodeAt (place ++ [name]) = files.nodeAt (place ++ [name]) →
      openNode names t (place ++ [name]) .create = (some connection, files') →
        files.nodeAt (place ++ [name]) = none ∧ create t (place ++ [name]) = (some connection, files') := by
    intro t same opened
    rcases absent with absent | directory
    · rw [openNode, same, absent] at opened
      exact ⟨absent, opened⟩
    · rw [openNode, same, directory] at opened
      cases opened
  rw [Connection.openAt] at done
  split at done
  · cases done
  split at done
  · cases done
  rename_i free
  have free : ∀ text ∈ "-journal" :: companions, files.nodeAt (place ++ [name ++ text]) ≠ some .directory := by
    simp only [journalPlace, indexPlace, rollbackPlace, Place.beside_concat, List.any_cons, List.any_nil,
      Bool.or_false, Bool.or_eq_true, not_or, Bool.not_eq_true, isDirectory_eq_false_iff] at free
    intro text beside
    simp only [companions, List.mem_cons, List.not_mem_nil, or_false] at beside
    rcases beside with rfl | rfl | rfl
    · exact free.2.2
    · exact free.1
    · exact free.2.1
  split at done
  · split at done
    · cases done
    · have own : (files.take (rollbackPlace (place ++ [name]))).nodeAt (place ++ [name]) =
          files.nodeAt (place ++ [name]) := by
        rw [rollbackPlace, Place.beside_concat, FileTree.nodeAt_take_concat plain.down,
          if_neg (append_ne_self (by decide)).symm]
      obtain ⟨absent, created⟩ := made own done
      rw [create, FileTree.take_take, ← create] at created
      exact ⟨absent, free, created⟩
  · obtain ⟨absent, created⟩ := made rfl done
    exact ⟨absent, free, created⟩

/-- Whether a store was opened in a directory that had no database of the name before. -/
structure IsNew (files : FileTree) (directory : Path) (name : String) (store : BinaryStore) (files' : FileTree) :
    Prop where
  plain : Path.IsFileName name
  path : Address.IsPath (directory.join name)
  absent : ∀ q, files.resolvedPlace (directory.join name) = .ok q → files.nodeAt q = none
  opened : openIn files directory name = (.ok store, files')

theorem IsNew.holds {files' : FileTree} {store : BinaryStore} (h : IsNew files directory name store files') :
    ∃ place number, store = ofNumber place name number ∧ IsSite directory name place ∧
      Holds files' directory name place number 1 ∧ (files'.database number).table = .empty := by
  obtain ⟨plain, path, absent, done⟩ := h
  rw [openIn] at done
  split at done
  · cases done
  rename_i made ready
  rw [Address.ofText?_of_isPath path] at done
  dsimp only at done
  split at done
  · rename_i connection files'' opened
    obtain ⟨same, rfl⟩ := Prod.mk.inj done
    obtain rfl := Except.ok.inj same
    obtain ⟨q, resolved, room, openedAt⟩ := openAddress_eq_some opened
    obtain ⟨segments, start, _⟩ := bind_eq_ok.mp resolved
    have takes := FileTree.takes_of_segmentsFromTop start
    obtain ⟨more, place, leads⟩ := FileTree.leadsTo_of_makeDirectories (takes.of_join plain) ready
    have found := FileTree.resolvedPlace_join leads plain takes
    rw [resolved] at found
    split at found
    · cases found
    rename_i short
    obtain rfl := Except.ok.inj found
    have before := absent _ ((more.resolvedPlace _).symm.trans resolved)
    have missing : made.nodeAt (place ++ [name]) = none ∨ made.nodeAt (place ++ [name]) = some .directory := by
      rcases more.nodes (place ++ [name]) with same | ⟨_, directory⟩
      · exact .inl (same.trans before)
      · exact .inr directory
    obtain ⟨gone, free, created⟩ := openAt_eq_some plain missing openedAt
    obtain ⟨number, files'', created', holds, table⟩ := holds_of_create leads plain gone free
    rw [created] at created'
    obtain ⟨same, rfl⟩ := Prod.mk.inj created'
    obtain rfl := Option.some.inj same
    exact ⟨place, number, rfl, ⟨plain, path, takes, Nat.le_of_not_lt short, room⟩, holds, table⟩
  · cases done

end BinaryStore

end ShaderPipeline
