import Mathlib.Tactic.IntervalCases
import ShaderPipeline.Pack.StageRun
import ShaderPipeline.Proofs.Outcome
import ShaderPipeline.Proofs.Source.Reading

/-!
What a store gives back.

Binaries are kept as bytes under the short name of their stage and the source that was compiled.  Main statement:
if a store holds nothing but what a compiler gave for known stages, what it finds for a source is what the compiler
gives for it; and storing what the compiler gave keeps it so.
-/

set_option autoImplicit false
set_option relaxedAutoImplicit false

namespace ShaderPipeline

open Outcome

private theorem bytesWord_bytes (w : UInt32) :
    bytesWord w.toUInt8 (w >>> 8).toUInt8 (w >>> 16).toUInt8 (w >>> 24).toUInt8 = w := by
  have one : ((8 : UInt32).toBitVec % 32).toNat = 8 := by decide
  have two : ((16 : UInt32).toBitVec % 32).toNat = 16 := by decide
  have three : ((24 : UInt32).toBitVec % 32).toNat = 24 := by decide
  apply UInt32.eq_of_toBitVec_eq
  apply BitVec.eq_of_getLsbD_eq
  intro i bound
  simp only [bytesWord, UInt32.toBitVec_or, UInt32.toBitVec_shiftLeft, UInt8.toBitVec_toUInt32,
    UInt32.toBitVec_toUInt8, UInt32.toBitVec_shiftRight, BitVec.shiftLeft_eq',
    BitVec.ushiftRight_eq', one, two, three, BitVec.getLsbD_or, BitVec.getLsbD_shiftLeft,
    BitVec.getLsbD_setWidth, BitVec.getLsbD_ushiftRight]
  interval_cases i <;> simp

theorem bytesWords?_flatMap (words : List UInt32) :
    bytesWords? (words.flatMap wordBytes) = some words := by
  induction words with
  | nil => rfl
  | cons w words ih =>
    have first : bytesWords? ((w :: words).flatMap wordBytes) =
        (bytesWords? (words.flatMap wordBytes)).map
          (bytesWord w.toUInt8 (w >>> 8).toUInt8 (w >>> 16).toUInt8 (w >>> 24).toUInt8 :: ·) := rfl
    rw [first, ih, Option.map_some, bytesWord_bytes]

def StageSet.IsOne (s : StageSet) : Prop :=
  ∃ stage : Stage, s = .of stage

theorem stage_eq_of_shortName {a b : StageSet} (one : a.IsOne) (one' : b.IsOne)
    (same : a.shortName = b.shortName) : a = b := by
  obtain ⟨stage, rfl⟩ := one
  obtain ⟨stage', rfl⟩ := one'
  cases stage <;> cases stage' <;> first | rfl | exact absurd same (by decide)

namespace Compiler

/-- Whether what comes of a source depends on its stage alone, whatever the shader is called. -/
def IsStagewise (c : Compiler) : Prop :=
  ∀ (i j : Identity) (source : String) (words : Binary), i.stage = j.stage →
    c.compile ⟨i, source⟩ = .ok words → c.compile ⟨j, source⟩ = .ok words

end Compiler

/-- Whether a row holds what a compiler gave for a source of a known stage. -/
def BinaryRow.IsFrom (c : Compiler) (row : BinaryRow) : Prop :=
  ∃ (i : Identity) (source : String) (words : Binary), i.stage.IsOne ∧
    c.compile ⟨i, source⟩ = .ok words ∧
      row = ⟨.known (BinaryStore.key i.stage source), some (words.flatMap wordBytes)⟩

namespace BinaryTable

/-- Whether a table can be read and holds nothing but what a compiler gave. -/
structure IsFrom (c : Compiler) (t : BinaryTable) : Prop where
  readable : t.rules.readable = true
  rows : ∀ row ∈ t.rows, row.IsFrom c

variable {c : Compiler} {t t' : BinaryTable} {i : Identity} {source : String} {words : Binary}

theorem isFrom_empty (c : Compiler) : empty.IsFrom c := ⟨rfl, nofun⟩

theorem IsFrom.get? (h : t.IsFrom c) (stagewise : c.IsStagewise) (one : i.stage.IsOne)
    (source : String) :
    t.get? (BinaryStore.key i.stage source) = .ok none ∨
      ∃ words, t.get? (BinaryStore.key i.stage source) = .ok (some words) ∧
        c.compile ⟨i, source⟩ = .ok words := by
  rw [BinaryTable.get?, if_pos h.readable]
  cases found : t.rows.find? (·.key.isFor (BinaryStore.key i.stage source)) with
  | none => exact .inl rfl
  | some row =>
    obtain ⟨j, source', words, one', compiled, rfl⟩ := h.rows row (List.mem_of_find?_eq_some found)
    have same : BinaryStore.key j.stage source' = BinaryStore.key i.stage source := by
      simpa [RowKey.isFor] using List.find?_some found
    obtain ⟨stages, rfl⟩ := BinaryKey.mk.inj same
    have stage : j.stage = i.stage := stage_eq_of_shortName one' one stages
    refine .inr ⟨words, ?_, stagewise j i source' words stage compiled⟩
    simp only [rowBinary?, bytesWords?_flatMap]

theorem IsFrom.set (h : t.IsFrom c) (one : i.stage.IsOne)
    (compiled : c.compile ⟨i, source⟩ = .ok words)
    (done : t.set (BinaryStore.key i.stage source) words = .ok t') : t'.IsFrom c := by
  rw [BinaryTable.set] at done
  split at done
  · obtain rfl := Except.ok.inj done
    refine ⟨h.readable, fun row hr => ?_⟩
    rcases List.mem_append.mp hr with hr | hr
    · exact h.rows row (List.mem_filter.mp hr).1
    · exact ⟨i, source, words, one, compiled, List.mem_singleton.mp hr⟩
  · cases done

end BinaryTable

namespace StageRun

variable {r : StageRun} {files files' : FileTree} {source : String} {words : Binary}

/-- Whether the store of a run, if it has one, holds nothing but what the compiler gave. -/
def StoreIsSound (r : StageRun) (files : FileTree) : Prop :=
  ∀ store, r.store = some store → (store.table files).IsFrom r.compiler

theorem StoreIsSound.stored? (h : r.StoreIsSound files) (stagewise : r.compiler.IsStagewise)
    (one : r.identity.stage.IsOne) (source : String) :
    r.stored? files source = .ok none ∨
      ∃ words, r.stored? files source = .ok (some words) ∧
        r.compiler.compile (r.request source) = .ok words := by
  rw [StageRun.stored?]
  cases stored : r.store with
  | none => exact .inl rfl
  | some store =>
    rcases (h store stored).get? stagewise one source with found | ⟨words, found, compiled⟩
    · exact .inl (by simp only [BinaryStore.get?, found, Except.mapError])
    · exact .inr ⟨words, by simp only [BinaryStore.get?, found, Except.mapError], compiled⟩

private theorem set_eq_ok {store : BinaryStore} {stage : StageSet}
    (done : store.set files stage source words = .ok files') :
    ∃ table, (store.table files).set (BinaryStore.key stage source) words = .ok table ∧
      files' = store.withTable files table := by
  rw [BinaryStore.set] at done
  cases put : (store.table files).set (BinaryStore.key stage source) words with
  | error e => simp [put] at done
  | ok table =>
    simp only [put] at done
    split at done
    · exact ⟨table, rfl, (Except.ok.inj done).symm⟩
    · cases done

theorem filesWith_cases (r : StageRun) (files : FileTree) (source : String) (words : Binary) :
    r.filesWith files source words = files ∨
      ∃ store table, r.store = some store ∧
        (store.table files).set (BinaryStore.key r.identity.stage source) words = .ok table ∧
          r.filesWith files source words = store.withTable files table := by
  cases stored : r.store with
  | none => exact .inl (by simp only [filesWith, stored])
  | some store =>
    cases done : store.set files r.identity.stage source words with
    | error e => exact .inl (by simp [filesWith, stored, done, Except.toOption])
    | ok files' =>
      obtain ⟨table, put, rfl⟩ := set_eq_ok done
      refine .inr ⟨store, table, rfl, put, ?_⟩
      simp [filesWith, stored, done, Except.toOption]

theorem agreesWith_filesWith (r : StageRun) (files : FileTree) (source : String) (words : Binary) :
    files.AgreesWith (r.filesWith files source words) := by
  rcases r.filesWith_cases files source words with same | ⟨store, table, _, _, changed⟩
  · rw [same]
    exact .refl files
  · rw [changed]
    exact files.agreesWith_setDatabase _ _

private theorem table_withTable (store : BinaryStore) (files : FileTree) (table : BinaryTable) :
    store.table (store.withTable files table) = table ∨
      store.table (store.withTable files table) = .empty := by
  by_cases bound : store.connection.number < files.databases.length
  · refine .inl ?_
    simp [BinaryStore.table, BinaryStore.database, BinaryStore.withTable, FileTree.database,
      FileTree.setDatabase, List.getD_eq_getElem?_getD, bound]
  · refine .inr ?_
    have beyond : ∀ database, (files.databases.set store.connection.number database)[
        store.connection.number]? = none := fun database =>
      List.getElem?_eq_none (by simpa using Nat.le_of_not_lt bound)
    simp only [BinaryStore.table, BinaryStore.database, BinaryStore.withTable, FileTree.database,
      FileTree.setDatabase, List.getD_eq_getElem?_getD, beyond, Option.getD_none]

theorem StoreIsSound.filesWith (h : r.StoreIsSound files) (one : r.identity.stage.IsOne)
    (compiled : r.compiler.compile (r.request source) = .ok words) :
    r.StoreIsSound (r.filesWith files source words) := by
  intro store stored
  rcases r.filesWith_cases files source words with same | ⟨store', table, stored', put, changed⟩
  · rw [same]
    exact h store stored
  · obtain rfl := Option.some.inj (stored.symm.trans stored')
    rw [changed]
    rcases table_withTable store files table with same | gone
    · rw [same]
      exact (h store stored).set one compiled put
    · rw [gone]
      exact BinaryTable.isFrom_empty r.compiler

end StageRun

end ShaderPipeline
