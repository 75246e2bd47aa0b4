import ShaderPipeline.Proofs.Pack.StoredBinaries

/-!
What of a store the keys of one digest see.

A row may stand for every key of its digest, so a table is looked at digest by digest.  What is found under a key
depends only on the rows of its digest, and a binary that is stored under a key changes no others, as long as rows of
different keys have nothing in common that must be unique.
-/

set_option autoImplicit false
set_option relaxedAutoImplicit false

namespace ShaderPipeline

def RowKey.hash : RowKey → List UInt8
  | known key => key.digest
  | digest bytes => bytes

private theorem RowKey.hash_of_isFor {k : RowKey} {key : BinaryKey} (is_for : k.isFor key) : k.hash = key.digest := by
  cases k with
  | known own => exact congrArg BinaryKey.digest (beq_iff_eq.mp is_for)
  | digest bytes => exact beq_iff_eq.mp is_for

/-- Whether rows collide only with those for their own key. -/
def TableRules.KeepsKeys (rules : TableRules) : Prop :=
  ∀ u ∈ rules.unique, u.key = true

theorem TableRules.keepsKeys_standard : TableRules.standard.KeepsKeys := by
  intro u member
  rw [List.mem_singleton.mp member]

namespace BinaryTable

variable {t t' : BinaryTable} {key : BinaryKey} {words : Binary} {digest : List UInt8}

def rowsOf (t : BinaryTable) (digest : List UInt8) : List BinaryRow :=
  t.rows.filter (·.key.hash == digest)

private theorem find?_rowsOf (t : BinaryTable) (key : BinaryKey) :
    (t.rowsOf key.digest).find? (·.key.isFor key) = t.rows.find? (·.key.isFor key) := by
  rw [rowsOf, List.find?_filter]
  congr 1
  funext row
  cases is_for : row.key.isFor key with
  | false => simp
  | true =>
    have same := RowKey.hash_of_isFor is_for
    simp [same]

theorem get?_congr (rules : t'.rules = t.rules) (rows : t'.rowsOf key.digest = t.rowsOf key.digest) :
    t'.get? key = t.get? key := by
  rw [BinaryTable.get?, BinaryTable.get?, ← find?_rowsOf, ← find?_rowsOf, rules, rows]

theorem set_eq_ok : t.set key words = .ok t' ↔ t.rules.writable ∧
    t' = { t with
      rows := t.rows.filter (fun row => !collides t.rules key (words.flatMap wordBytes) row) ++
        [⟨.known key, some (words.flatMap wordBytes)⟩] } := by
  rw [BinaryTable.set]
  split
  · rename_i writable
    simp [writable, eq_comm]
  · rename_i protected'
    simp [protected']

theorem exists_set_iff : (∃ t', t.set key words = .ok t') ↔ t.rules.writable = true := by
  constructor
  · rintro ⟨t', done⟩
    exact (set_eq_ok.mp done).1
  · intro writable
    exact ⟨_, set_eq_ok.mpr ⟨writable, rfl⟩⟩

theorem rules_of_set (done : t.set key words = .ok t') : t'.rules = t.rules := by
  obtain ⟨_, rfl⟩ := set_eq_ok.mp done
  rfl

private theorem rowsOf_set (done : t.set key words = .ok t') : t'.rowsOf key.digest =
    (t.rowsOf key.digest).filter (fun row => !collides t.rules key (words.flatMap wordBytes) row) ++
      [⟨.known key, some (words.flatMap wordBytes)⟩] := by
  obtain ⟨_, rfl⟩ := set_eq_ok.mp done
  have own : ([⟨.known key, some (words.flatMap wordBytes)⟩] : List BinaryRow).filter
      (·.key.hash == key.digest) = [⟨.known key, some (words.flatMap wordBytes)⟩] := by
    simp [RowKey.hash]
  rw [rowsOf, List.filter_append, own, rowsOf, List.filter_filter, List.filter_filter]
  simp only [Bool.and_comm]

private theorem rowsOf_set_of_ne (keeps : t.rules.KeepsKeys) (done : t.set key words = .ok t')
    (other : digest ≠ key.digest) : t'.rowsOf digest = t.rowsOf digest := by
  obtain ⟨_, rfl⟩ := set_eq_ok.mp done
  have own : ([⟨.known key, some (words.flatMap wordBytes)⟩] : List BinaryRow).filter
      (·.key.hash == digest) = [] := by
    simpa [RowKey.hash] using other.symm
  rw [rowsOf, List.filter_append, own, List.append_nil, rowsOf, List.filter_filter]
  refine List.filter_congr fun row _ => ?_
  cases class' : row.key.hash == digest with
  | false => rw [Bool.false_and]
  | true =>
    have spared : collides t.rules key (words.flatMap wordBytes) row = false := by
      rw [collides, List.any_eq_false]
      intro u hu
      have not_for : row.key.isFor key = false := by
        by_contra is_for
        have same := RowKey.hash_of_isFor (Bool.not_eq_false _ |>.mp is_for)
        exact other ((beq_iff_eq.mp class').symm.trans same)
      simp [keeps u hu, not_for]
    rw [spared]
    rfl

theorem perm_of_rowsOf (rows : ∀ digest, t'.rowsOf digest = t.rowsOf digest) : t'.rows.Perm t.rows := by
  rw [List.perm_iff_count]
  intro row
  have counted : ∀ t : BinaryTable, (t.rowsOf row.key.hash).count row = t.rows.count row := by
    intro t
    exact List.count_filter (beq_self_eq_true row.key.hash)
  rw [← counted t', ← counted t, rows]

end BinaryTable

namespace BinaryStore

variable {s : BinaryStore} {files files' files'' : FileTree} {digest : List UInt8}

/-- Whether a store shows the keys of a digest the same in two trees of files. -/
structure Shows (s : BinaryStore) (digest : List UInt8) (files files' : FileTree) : Prop where
  databases : files'.databases.length = files.databases.length
  rules : (s.table files').rules = (s.table files).rules
  rows : (s.table files').rowsOf digest = (s.table files).rowsOf digest

theorem Shows.refl (s : BinaryStore) (digest : List UInt8) (files : FileTree) : s.Shows digest files files :=
  ⟨rfl, rfl, rfl⟩

theorem Shows.trans (h : s.Shows digest files files') (h' : s.Shows digest files' files'') :
    s.Shows digest files files'' :=
  ⟨h'.databases.trans h.databases, h'.rules.trans h.rules, h'.rows.trans h.rows⟩

private theorem table_withTable_eq (s : BinaryStore) (files : FileTree) (table : BinaryTable) :
    s.table (s.withTable files table) =
      if s.connection.number < files.databases.length then table else s.table files := by
  split
  · rename_i bound
    simp [BinaryStore.table, database, withTable, FileTree.database, FileTree.setDatabase,
      List.getD_eq_getElem?_getD, bound]
  · rename_i unbound
    simp [BinaryStore.table, database, withTable, FileTree.database, FileTree.setDatabase,
      List.getD_eq_getElem?_getD, unbound]

theorem Shows.withTable (h : s.Shows digest files files') {table table' : BinaryTable}
    (rules : table'.rules = table.rules) (rows : table'.rowsOf digest = table.rowsOf digest) :
    s.Shows digest (s.withTable files table) (s.withTable files' table') := by
  have databases : (s.withTable files' table').databases.length = (s.withTable files table).databases.length := by
    rw [BinaryStore.withTable, BinaryStore.withTable, FileTree.setDatabase, FileTree.setDatabase,
      List.length_set, List.length_set, h.databases]
  refine ⟨databases, ?_, ?_⟩
  · rw [table_withTable_eq, table_withTable_eq, h.databases]
    split
    · exact rules
    · exact h.rules
  · rw [table_withTable_eq, table_withTable_eq, h.databases]
    split
    · exact rows
    · exact h.rows

private theorem rules_withTable {table : BinaryTable} (rules : table.rules = (s.table files).rules) :
    (s.table (s.withTable files table)).rules = (s.table files).rules := by
  rw [table_withTable_eq]
  split
  · exact rules
  · rfl

private theorem shows_withTable {table : BinaryTable} (rules : table.rules = (s.table files).rules)
    (rows : table.rowsOf digest = (s.table files).rowsOf digest) :
    s.Shows digest files (s.withTable files table) := by
  refine ⟨List.length_set .., rules_withTable rules, ?_⟩
  rw [table_withTable_eq]
  split
  · exact rows
  · rfl

end BinaryStore

namespace StageRun

variable {r : StageRun} {s : BinaryStore} {files files' : FileTree} {source : String} {words : Binary}
  {digest : List UInt8}

theorem stored?_congr (store : r.store = some s)
    (same : s.Shows (BinaryStore.key r.identity.stage source).digest files files') :
    r.stored? files' source = r.stored? files source := by
  simp only [stored?, store, BinaryStore.get?, BinaryTable.get?_congr same.rules same.rows]

theorem rules_filesWith (store : r.store = some s) :
    (s.table (r.filesWith files source words)).rules = (s.table files).rules := by
  rcases r.filesWith_cases files source words with same | ⟨s', table, store', put, changed⟩
  · rw [same]
  · obtain rfl := Option.some.inj (store.symm.trans store')
    rw [changed]
    exact BinaryStore.rules_withTable (BinaryTable.rules_of_set put)

theorem shows_filesWith_of_ne (store : r.store = some s) (keeps : (s.table files).rules.KeepsKeys)
    (other : digest ≠ (BinaryStore.key r.identity.stage source).digest) :
    s.Shows digest files (r.filesWith files source words) := by
  rcases r.filesWith_cases files source words with same | ⟨s', table, store', put, changed⟩
  · rw [same]
    exact .refl s digest files
  · obtain rfl := Option.some.inj (store.symm.trans store')
    rw [changed]
    exact BinaryStore.shows_withTable (BinaryTable.rules_of_set put)
      (BinaryTable.rowsOf_set_of_ne keeps put other)

/-- Storing a binary changes what a store shows its own digest in the same way wherever it is shown the same. -/
theorem shows_filesWith (store : r.store = some s)
    (same : s.Shows (BinaryStore.key r.identity.stage source).digest files files') :
    s.Shows (BinaryStore.key r.identity.stage source).digest (r.filesWith files source words)
      (r.filesWith files' source words) := by
  simp only [filesWith, store, BinaryStore.set]
  have both : (∃ table, (s.table files').set (BinaryStore.key r.identity.stage source) words = .ok table) ↔
      ∃ table, (s.table files).set (BinaryStore.key r.identity.stage source) words = .ok table := by
    rw [BinaryTable.exists_set_iff, BinaryTable.exists_set_iff, same.rules]
  cases put : (s.table files).set (BinaryStore.key r.identity.stage source) words with
  | error e =>
    cases put' : (s.table files').set (BinaryStore.key r.identity.stage source) words with
    | error e' => exact same
    | ok table' =>
      obtain ⟨table, done⟩ := both.mp ⟨table', put'⟩
      cases put.symm.trans done
  | ok table =>
    obtain ⟨table', put'⟩ := both.mpr ⟨table, put⟩
    have rules : table'.rules = table.rules := by
      rw [BinaryTable.rules_of_set put', BinaryTable.rules_of_set put, same.rules]
    have rows : table'.rowsOf (BinaryStore.key r.identity.stage source).digest =
        table.rowsOf (BinaryStore.key r.identity.stage source).digest := by
      rw [BinaryTable.rowsOf_set put', BinaryTable.rowsOf_set put, same.rules, same.rows]
    rw [put']
    cases s.connection.writable with
    | false => exact same
    | true => exact same.withTable rules rows

end StageRun

end ShaderPipeline
