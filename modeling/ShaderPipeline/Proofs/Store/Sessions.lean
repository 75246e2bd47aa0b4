import ShaderPipeline.Proofs.Pack.StoreRows
import ShaderPipeline.Proofs.Store.Reopening
import ShaderPipeline.Proofs.Text.Encoded

/-!
What a store remembers.

Stores of one directory are opened and closed, also several at a time, and binaries are put into them and asked for.
Main statement: if the directory had no database before, every call is answered as by someone who remembers all
binaries that were stored: with the latest one for the same stage and the same source.  It comes to the same when
binaries are kept under the digests of their keys, unless two of these digests coincide.  A directory whose path starts
with a scheme is no such directory: its store may have no file.
-/

set_option autoImplicit false
set_option relaxedAutoImplicit false

namespace ShaderPipeline

open Database Outcome

/-- What is done with stores of one directory; which of those that are open is meant is told by its position. -/
inductive StoreAct where
  | openAgain
  | close (which : Nat)
  | set (which : Nat) (stage : StageSet) (source : String) (words : Binary)
  | get (which : Nat) (stage : StageSet) (source : String)

inductive StoreAnswer where
  | done
  | found (words : Option Binary)
  | failed (error : CacheError)
  | notOpen
  deriving DecidableEq

namespace StoreAct

def subject? : StoreAct → Option (StageSet × String)
  | openAgain | close _ => none
  | set _ stage source _ | get _ stage source => some (stage, source)

/-- Whether an act is about a known stage, if about any. -/
def IsKnown (act : StoreAct) : Prop :=
  ∀ subject ∈ act.subject?, subject.1.IsOne

/-- Whether an act neither opens nor closes a store. -/
def IsCall (act : StoreAct) : Prop :=
  act.subject?.isSome

/-- The answers to acts that change a state one after another. -/
def answers {σ : Type} (step : σ → StoreAct → σ × StoreAnswer) : σ → List StoreAct → List StoreAnswer
  | _, [] => []
  | s, act :: acts => (step s act).2 :: answers step (step s act).1 acts

private theorem answers_eq_of_related {σ τ : Type} {step : σ → StoreAct → σ × StoreAnswer}
    {step' : τ → StoreAct → τ × StoreAnswer} {Allowed : StoreAct → Prop} {Related : σ → τ → Prop}
    (keeps : ∀ s t act, Allowed act → Related s t →
      (step s act).2 = (step' t act).2 ∧ Related (step s act).1 (step' t act).1)
    {s : σ} {t : τ} (related : Related s t) {acts : List StoreAct} (allowed : ∀ act ∈ acts, Allowed act) :
    answers step s acts = answers step' t acts := by
  induction acts generalizing s t with
  | nil => rfl
  | cons act acts ih =>
    obtain ⟨same, related'⟩ := keeps s t act (allowed act List.mem_cons_self) related
    rw [answers, answers, same, ih related' fun act' member => allowed act' (List.mem_cons_of_mem _ member)]

end StoreAct

structure StoreSession where
  stores : List BinaryStore
  files : FileTree

/-- One act, where a store is opened in a given way. -/
def StoreSession.step (reopen : FileTree → Except CacheError BinaryStore × FileTree) (s : StoreSession) :
    StoreAct → StoreSession × StoreAnswer
  | .openAgain =>
      match reopen s.files with
      | (.ok store, files) => (⟨s.stores ++ [store], files⟩, .done)
      | (.error error, files) => (⟨s.stores, files⟩, .failed error)
  | .close which =>
      match s.stores[which]? with
      | some store => (⟨s.stores.eraseIdx which, store.close s.files⟩, .done)
      | none => (s, .notOpen)
  | .set which stage source words =>
      match s.stores[which]? with
      | some store =>
          match store.set s.files stage source words with
          | .ok files => (⟨s.stores, files⟩, .done)
          | .error error => (s, .failed error)
      | none => (s, .notOpen)
  | .get which stage source =>
      match s.stores[which]? with
      | some store =>
          match store.get? s.files stage source with
          | .ok words => (s, .found words)
          | .error error => (s, .failed error)
      | none => (s, .notOpen)

structure StoreMemory (μ : Type) where
  set : μ → StageSet → String → Binary → μ
  get : μ → StageSet → String → Option Binary

namespace StoreMemory

/-- One act on a number of open stores that all have one memory. -/
def step {μ : Type} (m : StoreMemory μ) (s : Nat × μ) : StoreAct → (Nat × μ) × StoreAnswer
  | .openAgain => ((s.1 + 1, s.2), .done)
  | .close which => if which < s.1 then ((s.1 - 1, s.2), .done) else (s, .notOpen)
  | .set which stage source words =>
      if which < s.1 then ((s.1, m.set s.2 stage source words), .done) else (s, .notOpen)
  | .get which stage source => (s, if which < s.1 then .found (m.get s.2 stage source) else .notOpen)

/-- A binary with the stage and the source that it was stored for. -/
structure Stored where
  stage : StageSet
  source : String
  words : Binary

/-- Remembers all that was stored, and finds the latest for the same stage and the same source. -/
def latest : StoreMemory (List Stored) where
  set stored stage source words := ⟨stage, source, words⟩ :: stored
  get stored stage source := (stored.find? fun s => s.stage == stage && s.source == source).map (·.words)

/-- Keeps the bytes of one binary for each digest of a key. -/
def hashed : StoreMemory (List (List UInt8 × List UInt8)) where
  set rows stage source words :=
    rows.filter (·.1 != (BinaryStore.key stage source).digest) ++
      [((BinaryStore.key stage source).digest, words.flatMap wordBytes)]
  get rows stage source :=
    (rows.find? (·.1 == (BinaryStore.key stage source).digest)).bind fun row => bytesWords? row.2

end StoreMemory

open StoreMemory

private theorem StoreMemory.get_latest_set (stored : List Stored) (stage stage' : StageSet) (source source' : String)
    (words : Binary) : latest.get (latest.set stored stage source words) stage' source' =
      if stage' = stage ∧ source' = source then some words else latest.get stored stage' source' := by
  simp only [latest, List.find?_cons]
  by_cases own : stage' = stage ∧ source' = source
  · obtain ⟨rfl, rfl⟩ := own
    simp
  · have other : (stage == stage' && source == source') = false := by
      rw [Bool.eq_false_iff]
      intro same
      simp only [Bool.and_eq_true, beq_iff_eq] at same
      exact own ⟨same.1.symm, same.2.symm⟩
    rw [other, if_neg own]

private theorem BinaryStore.key_eq_iff {stage stage' : StageSet} {source source' : String} (one : stage.IsOne)
    (one' : stage'.IsOne) : key stage' source' = key stage source ↔ stage' = stage ∧ source' = source := by
  constructor
  · intro same
    obtain ⟨names, sources⟩ := BinaryKey.mk.inj same
    exact ⟨stage_eq_of_shortName one' one names, sources⟩
  · rintro ⟨rfl, rfl⟩
    rfl

namespace BinaryTable

variable {t t' : BinaryTable} {stored : List Stored} {stage : StageSet} {source : String} {words : Binary}

/-- Whether a table has one row for each key and finds what was stored last. -/
structure Remembers (t : BinaryTable) (stored : List Stored) : Prop where
  standard : t.rules = .standard
  known : ∀ row ∈ t.rows, ∃ key, row.key = .known key
  finds : ∀ stage source, stage.IsOne → t.get? (BinaryStore.key stage source) = .ok (latest.get stored stage source)

private theorem remembers_empty : empty.Remembers [] :=
  ⟨rfl, nofun, fun _ _ _ => rfl⟩

private theorem get?_of_set (standard : t.rules = .standard) (known : ∀ row ∈ t.rows, ∃ key, row.key = .known key)
    {key : BinaryKey} (done : t.set key words = .ok t') (key' : BinaryKey) :
    t'.get? key' = if key' = key then .ok (some words) else t.get? key' := by
  have readable : TableRules.standard.readable = true := rfl
  have collides : ∀ row, collides .standard key (words.flatMap wordBytes) row = row.key.isFor key := by
    simp [BinaryTable.collides, TableRules.standard]
  obtain ⟨_, rfl⟩ := set_eq_ok.mp done
  simp only [BinaryTable.get?, standard, readable, if_true, collides, List.find?_append]
  by_cases own : key' = key
  · subst own
    have gone : (t.rows.filter fun row => !row.key.isFor key').find? (·.key.isFor key') = none := by
      simp
    rw [gone, Option.none_or, if_pos rfl]
    simp [RowKey.isFor, rowBinary?, bytesWords?_flatMap]
  · have spared : (t.rows.filter fun row => !row.key.isFor key).find? (·.key.isFor key') =
        t.rows.find? (·.key.isFor key') := by
      rw [List.find?_filter]
      refine List.find?_congr fun row member => ?_
      obtain ⟨owner, hk⟩ := known row member
      rw [hk]
      by_cases same : owner = key'
      · simp [RowKey.isFor, same, own]
      · simp [RowKey.isFor, same]
    have new : RowKey.isFor (.known key) key' = false := by
      simpa [RowKey.isFor] using Ne.symm own
    simp [spared, new, own]

theorem Remembers.set (h : t.Remembers stored) (one : stage.IsOne) (source : String) (words : Binary) :
    ∃ t', t.set (BinaryStore.key stage source) words = .ok t' ∧
      t'.Remembers (latest.set stored stage source words) := by
  have writable : t.rules.writable = true := by rw [h.standard]; rfl
  obtain ⟨t', done⟩ := exists_set_iff.mpr writable
  refine ⟨t', done, (rules_of_set done).trans h.standard, fun row member => ?_, fun stage' source' one' => ?_⟩
  · obtain ⟨_, rfl⟩ := set_eq_ok.mp done
    rcases List.mem_append.mp member with member | member
    · exact h.known row (List.mem_filter.mp member).1
    · exact ⟨_, congrArg BinaryRow.key (List.mem_singleton.mp member)⟩
  · rw [get?_of_set h.standard h.known done, get_latest_set, h.finds stage' source' one']
    simp only [BinaryStore.key_eq_iff one one']
    split <;> rfl

end BinaryTable

namespace BinaryStore

variable {s : BinaryStore} {files : FileTree} {stored : List Stored} {stage : StageSet}

private theorem get?_of_remembers (h : (s.table files).Remembers stored) (one : stage.IsOne) (source : String) :
    s.get? files stage source = .ok (latest.get stored stage source) := by
  rw [get?, h.finds stage source one]
  rfl

end BinaryStore

namespace StoreSession

open BinaryStore

variable {directory : Path} {name : String} {place : Place} {number opened which : Nat} {stored : List Stored}

/-- Whether a session has some stores of one directory open, and they remember what was stored. -/
structure Serves (directory : Path) (name : String) (place : Place) (number : Nat) (s : StoreSession)
    (t : Nat × List Stored) : Prop where
  stores : s.stores = List.replicate t.1 (ofNumber place name number)
  holds : Holds s.files directory name place number t.1
  remembers : (s.files.database number).table.Remembers t.2

private theorem Serves.getElem? {s : StoreSession} {t : Nat × List Stored} (h : Serves directory name place number s t)
    (which : Nat) : s.stores[which]? = if which < t.1 then some (ofNumber place name number) else none := by
  rw [h.stores, List.getElem?_replicate]

theorem Serves.step (site : IsSite directory name place) {act : StoreAct} (known : act.IsKnown) {s : StoreSession}
    {t : Nat × List Stored} (h : Serves directory name place number s t) :
    (s.step (openIn · directory name) act).2 = (latest.step t act).2 ∧
      Serves directory name place number (s.step (openIn · directory name) act).1 (latest.step t act).1 := by
  obtain ⟨opened, stored⟩ := t
  cases act with
  | openAgain =>
    obtain ⟨files, done, holds, table⟩ := h.holds.openIn site
    simp only [StoreSession.step, done, StoreMemory.step]
    refine ⟨trivial, ?_, holds, table ▸ h.remembers⟩
    rw [h.stores]
    exact (List.replicate_succ' ..).symm
  | close which =>
    simp only [StoreSession.step, h.getElem?, StoreMemory.step]
    by_cases bound : which < opened
    · obtain ⟨left, rfl⟩ : ∃ left, opened = left + 1 := Nat.exists_eq_succ_of_ne_zero (Nat.ne_zero_of_lt bound)
      obtain ⟨holds, table⟩ := h.holds.close site.plain
      simp only [bound, if_true]
      refine ⟨trivial, ?_, holds, table ▸ h.remembers⟩
      rw [h.stores, List.eraseIdx_replicate, if_pos bound]
    · simp only [bound, if_false]
      exact ⟨trivial, h⟩
  | set which stage source words =>
    have one : stage.IsOne := known _ rfl
    simp only [StoreSession.step, h.getElem?, StoreMemory.step]
    by_cases bound : which < opened
    · obtain ⟨left, rfl⟩ : ∃ left, opened = left + 1 := Nat.exists_eq_succ_of_ne_zero (Nat.ne_zero_of_lt bound)
      obtain ⟨table, put, remembers⟩ := h.remembers.set one source words
      obtain ⟨files, done, holds, same⟩ := h.holds.set put
      simp only [bound, if_true, done]
      exact ⟨trivial, h.stores, holds, same ▸ remembers⟩
    · simp only [bound, if_false]
      exact ⟨trivial, h⟩
  | get which stage source =>
    have one : stage.IsOne := known _ rfl
    have found : (ofNumber place name number).get? s.files stage source = .ok (latest.get stored stage source) :=
      get?_of_remembers (s := ofNumber place name number) h.remembers one source
    simp only [StoreSession.step, h.getElem?, StoreMemory.step]
    by_cases bound : which < opened
    · simp only [bound, if_true, found]
      exact ⟨trivial, h⟩
    · simp only [bound, if_false]
      exact ⟨trivial, h⟩

/-- Whether a session has a single store open, whatever it is kept in, and this remembers what was stored. -/
structure ServesAlone (store : BinaryStore) (s : StoreSession) (t : Nat × List Stored) : Prop where
  stores : s.stores = [store]
  single : t.1 = 1
  known : store.connection.number < s.files.databases.length
  remembers : (store.table s.files).Remembers t.2

theorem ServesAlone.step {reopen : FileTree → Except CacheError BinaryStore × FileTree} {store : BinaryStore}
    (writable : store.connection.writable = true) {act : StoreAct} (known : act.IsKnown) (call : act.IsCall)
    {s : StoreSession} {t : Nat × List Stored} (h : ServesAlone store s t) :
    (s.step reopen act).2 = (latest.step t act).2 ∧
      ServesAlone store (s.step reopen act).1 (latest.step t act).1 := by
  obtain ⟨opened, stored⟩ := t
  obtain rfl : opened = 1 := h.single
  have meant : ∀ which, s.stores[which]? = if which < 1 then some store else none := by
    intro which
    rw [h.stores, List.getElem?_singleton]
    simp only [Nat.lt_one_iff]
  cases act with
  | openAgain | close => cases call
  | set which stage source words =>
    have one : stage.IsOne := known _ rfl
    simp only [StoreSession.step, meant, StoreMemory.step]
    by_cases bound : which < 1
    · obtain ⟨table, put, remembers⟩ := h.remembers.set one source words
      have changed : store.table (store.withTable s.files table) = table := (database_withTable h.known table).1
      have size : store.connection.number < (store.withTable s.files table).databases.length := by
        rw [withTable, FileTree.length_setDatabase]
        exact h.known
      simp only [bound, if_true, set_of_put writable put]
      exact ⟨trivial, h.stores, rfl, size, changed.symm ▸ remembers⟩
    · simp only [bound, if_false]
      exact ⟨trivial, h⟩
  | get which stage source =>
    have one : stage.IsOne := known _ rfl
    simp only [StoreSession.step, meant, StoreMemory.step]
    by_cases bound : which < 1
    · simp only [bound, if_true, get?_of_remembers h.remembers one source]
      exact ⟨trivial, h⟩
    · simp only [bound, if_false]
      exact ⟨trivial, h⟩

private theorem servesAlone_openFresh (files : FileTree) :
    ServesAlone (openFresh files).1 ⟨[(openFresh files).1], (openFresh files).2⟩ (1, []) := by
  let opened := (openFresh files).2
  have databases : opened.databases = files.databases ++ [⟨.empty, 0, .nothing⟩] := rfl
  have number : (openFresh files).1.connection.number = files.databases.length := rfl
  have table : (openFresh files).1.table opened = .empty := by
    simp [BinaryStore.table, BinaryStore.database, FileTree.database, List.getD_eq_getElem?_getD, databases, number]
  refine ⟨rfl, rfl, ?_, table.symm ▸ BinaryTable.remembers_empty⟩
  rw [number, databases, List.length_append]
  exact Nat.lt_succ_self _

end StoreSession

def BinaryKey.keyed (k : BinaryKey) : List UInt8 :=
  k.stage.toUTF8.toList ++ 0 :: k.source.toUTF8.toList

/-- Whether the digests of keys only coincide if the bytes do that they are made of. -/
def BinaryKey.Apart (keys : List BinaryKey) : Prop :=
  ∀ k ∈ keys, ∀ k' ∈ keys, k.digest = k'.digest → k.keyed = k'.keyed

private theorem BinaryKey.eq_of_keyed {stage stage' : StageSet} {source source' : String} (one : stage.IsOne)
    (one' : stage'.IsOne) (same : (BinaryStore.key stage' source').keyed = (BinaryStore.key stage source).keyed) :
    stage' = stage ∧ source' = source := by
  have length : ∀ {a : StageSet}, a.IsOne → a.shortName.toUTF8.toList.length = 4 := by
    rintro _ ⟨stage, rfl⟩
    cases stage <;> decide +kernel
  obtain ⟨names, rest⟩ := List.append_inj same ((length one').trans (length one).symm)
  exact ⟨stage_eq_of_shortName one' one (Text.encoded_injective names),
    Text.encoded_injective (List.cons.inj rest).2⟩

def StoreAct.key? (act : StoreAct) : Option BinaryKey :=
  act.subject?.map fun subject => BinaryStore.key subject.1 subject.2

namespace StoreMemory

/-- Whether rows under digests give what was stored last for some keys. -/
structure Covers (keys : List BinaryKey) (t : Nat × List Stored) (u : Nat × List (List UInt8 × List UInt8)) :
    Prop where
  opened : u.1 = t.1
  finds : ∀ stage source, stage.IsOne → BinaryStore.key stage source ∈ keys →
    hashed.get u.2 stage source = latest.get t.2 stage source

private theorem get_hashed_set (rows : List (List UInt8 × List UInt8)) (stage stage' : StageSet) (source source' : String)
    (words : Binary) : hashed.get (hashed.set rows stage source words) stage' source' =
      if (BinaryStore.key stage' source').digest = (BinaryStore.key stage source).digest then some words
      else hashed.get rows stage' source' := by
  simp only [hashed, List.find?_append]
  split
  · rename_i own
    have gone : (rows.filter (·.1 != (BinaryStore.key stage source).digest)).find?
        (·.1 == (BinaryStore.key stage source).digest) = none := by
      simp
    rw [own, gone, Option.none_or]
    simp [bytesWords?_flatMap]
  · rename_i other
    have spared : (rows.filter (·.1 != (BinaryStore.key stage source).digest)).find?
        (·.1 == (BinaryStore.key stage' source').digest) =
          rows.find? (·.1 == (BinaryStore.key stage' source').digest) := by
      rw [List.find?_filter]
      refine List.find?_congr fun row _ => ?_
      by_cases same : row.1 = (BinaryStore.key stage' source').digest
      · simp [same, other]
      · simp [same]
    have new : ((BinaryStore.key stage source).digest == (BinaryStore.key stage' source').digest) = false := by
      simpa using Ne.symm other
    rw [spared, List.find?_singleton, new]
    simp

/-- Rows under digests are as good as all that was stored, as long as no two keys in use are taken for each other. -/
theorem Covers.step {keys : List BinaryKey} (apart : BinaryKey.Apart keys) {act : StoreAct} (known : act.IsKnown)
    (used : ∀ key ∈ act.key?, key ∈ keys) {t : Nat × List Stored} {u : Nat × List (List UInt8 × List UInt8)}
    (h : Covers keys t u) :
    (latest.step t act).2 = (hashed.step u act).2 ∧ Covers keys (latest.step t act).1 (hashed.step u act).1 := by
  obtain ⟨opened, stored⟩ := t
  obtain ⟨opened', rows⟩ := u
  obtain rfl : opened' = opened := h.opened
  cases act with
  | openAgain => exact ⟨rfl, rfl, h.finds⟩
  | close which =>
    simp only [StoreMemory.step]
    split
    · exact ⟨rfl, rfl, h.finds⟩
    · exact ⟨rfl, h⟩
  | set which stage source words =>
    have one : stage.IsOne := known _ rfl
    have own : BinaryStore.key stage source ∈ keys := used _ rfl
    simp only [StoreMemory.step]
    split
    · refine ⟨rfl, rfl, fun stage' source' one' member => ?_⟩
      have same : (BinaryStore.key stage' source').digest = (BinaryStore.key stage source).digest ↔
          stage' = stage ∧ source' = source := by
        constructor
        · intro digests
          exact BinaryKey.eq_of_keyed one one' (apart _ member _ own digests)
        · rintro ⟨rfl, rfl⟩
          rfl
      rw [get_hashed_set, get_latest_set, h.finds stage' source' one' member]
      simp only [same]
    · exact ⟨rfl, h⟩
  | get which stage source =>
    have one : stage.IsOne := known _ rfl
    have own : BinaryStore.key stage source ∈ keys := used _ rfl
    simp only [StoreMemory.step, h.finds stage source one own]
    exact ⟨trivial, h⟩

end StoreMemory

namespace StoreSession

open BinaryStore StoreAct

/-- What is asked of the stores of a directory that was new, or of one that has no file, is answered with the latest
binary for the same stage and the same source; rows under the digests of keys give the same. -/
theorem answers_with_latest {acts : List StoreAct} (known : ∀ act ∈ acts, act.IsKnown) :
    (∀ files directory name store files', IsNew files directory name store files' →
      answers (step (openIn · directory name)) ⟨[store], files'⟩ acts = answers latest.step (1, []) acts) ∧
    (∀ files reopen, (∀ act ∈ acts, act.IsCall) →
      answers (step reopen) ⟨[(openFresh files).1], (openFresh files).2⟩ acts =
        answers latest.step (1, []) acts) ∧
    (BinaryKey.Apart (acts.filterMap key?) →
      answers latest.step (1, []) acts = answers hashed.step (1, []) acts) := by
  refine ⟨fun files directory name store files' new => ?_, fun files reopen calls => ?_, fun apart => ?_⟩
  · obtain ⟨place, number, rfl, site, holds, table⟩ := new.holds
    have start : Serves directory name place number ⟨[ofNumber place name number], files'⟩ (1, []) :=
      ⟨rfl, holds, table.symm ▸ BinaryTable.remembers_empty⟩
    exact answers_eq_of_related (fun _ _ _ known h => h.step site known) start known
  · have allowed : ∀ act ∈ acts, act.IsKnown ∧ act.IsCall :=
      fun act member => ⟨known act member, calls act member⟩
    exact answers_eq_of_related (fun _ _ _ allowed h => h.step rfl allowed.1 allowed.2)
      (servesAlone_openFresh files) allowed
  · have allowed : ∀ act ∈ acts, act.IsKnown ∧ ∀ key ∈ act.key?, key ∈ acts.filterMap key? := by
      intro act member
      exact ⟨known act member, fun key own => List.mem_filterMap.mpr ⟨act, member, own⟩⟩
    have start : Covers (acts.filterMap key?) (1, []) (1, []) := ⟨rfl, fun _ _ _ _ => rfl⟩
    exact answers_eq_of_related (fun _ _ _ allowed h => h.step apart allowed.1 allowed.2) start allowed

/-- The digest of bytes that fill at most one block. -/
private def blockDigest (bytes : List UInt8) : List UInt8 :=
  (Digest.Pending.compress ⟨Digest.initialWords, Digest.blockWords bytes, 0, UInt32.ofNat bytes.length,
    Digest.chunkStart ||| Digest.chunkEnd⟩ Digest.rootNode).toList.flatMap wordBytes

private theorem digest_of_short {k : BinaryKey} (short : k.keyed.length ≤ 64) : k.digest = blockDigest k.keyed := by
  have block : Digest.parts 64 (by decide) k.keyed = [k.keyed] := by rw [Digest.parts, dif_pos short]
  have chunk : Digest.parts 1024 (by decide) k.keyed = [k.keyed] := by
    rw [Digest.parts, dif_pos (short.trans (by decide))]
  have own : k.digest = Digest.digestBytes k.keyed := rfl
  rw [own, Digest.digestBytes, Digest.digest, chunk, List.mapIdx_cons, List.mapIdx_nil, Digest.tree,
    dif_neg (by simp)]
  simp only [List.headD_cons, Digest.leaf, block, Digest.chainBlocks]
  rfl

/-- Two stages of one source are stored, by stores that are open at the same time, and asked for after both were
closed. -/
def dawnActs : List StoreAct :=
  [.set 0 (.of .vertex) "glow" [], .openAgain, .set 1 (.of .fragment) "glow" [7], .close 0, .close 0, .openAgain,
    .get 0 (.of .vertex) "glow", .set 0 (.of .vertex) "glow" [0x07230203, 1], .close 0, .openAgain,
    .get 0 (.of .vertex) "glow", .get 0 (.of .fragment) "glow", .get 0 (.of .vertex) "dim"]

private theorem dawn_isNew : IsNew .empty ⟨"dawn"⟩ "binaries.db" (ofNumber ["dawn"] "binaries.db" 0)
    (openIn .empty ⟨"dawn"⟩ "binaries.db").2 := by
  have opened : (openIn .empty ⟨"dawn"⟩ "binaries.db").1 = .ok (ofNumber ["dawn"] "binaries.db" 0) := by
    decide +kernel
  have place : FileTree.empty.resolvedPlace (Path.join ⟨"dawn"⟩ "binaries.db") = .ok ["dawn", "binaries.db"] := by
    decide +kernel
  have path : ¬ "file:".toList <+: (Path.join ⟨"dawn"⟩ "binaries.db").text.toList := by decide
  refine ⟨⟨by decide, by decide, by decide⟩, path, fun q found => ?_, Prod.ext opened rfl⟩
  obtain rfl := Except.ok.inj (place.symm.trans found)
  rfl

private theorem dawn_apart : BinaryKey.Apart (dawnActs.filterMap key?) := by
  let keys : List BinaryKey := [⟨"vert", "glow"⟩, ⟨"frag", "glow"⟩, ⟨"vert", "dim"⟩]
  have used : ∀ k ∈ dawnActs.filterMap key?, k ∈ keys := by decide +kernel
  have short : ∀ k ∈ keys, k.keyed.length ≤ 64 := by decide +kernel
  have apart : ∀ k ∈ keys, ∀ k' ∈ keys, blockDigest k.keyed = blockDigest k'.keyed → k.keyed = k'.keyed := by
    decide +kernel
  intro k hk k' hk' same
  rw [digest_of_short (short k (used k hk)), digest_of_short (short k' (used k' hk'))] at same
  exact apart k (used k hk) k' (used k' hk') same

/-- The binary of the vertex stage is written over, that of the fragment stage stays, and another source has none. -/
theorem answers_with_latest_of_dawnActs :
    let answered : List StoreAnswer :=
      [.done, .done, .done, .done, .done, .done, .found (some []), .done, .done, .done,
        .found (some [0x07230203, 1]), .found (some [7]), .found none]
    answers (step (openIn · ⟨"dawn"⟩ "binaries.db"))
        ⟨[ofNumber ["dawn"] "binaries.db" 0], (openIn .empty ⟨"dawn"⟩ "binaries.db").2⟩ dawnActs = answered ∧
      answers hashed.step (1, []) dawnActs = answered ∧
      answers (step fun files => (.error .storeFailed, files))
        ⟨[(openFresh .empty).1], (openFresh .empty).2⟩ [.set 0 (.of .mesh) "" [0], .get 0 (.of .mesh) ""] =
          [.done, .found (some [0])] := by
  intro answered
  have known : ∀ stage, (StageSet.of stage).IsOne := fun stage => ⟨stage, rfl⟩
  have all : ∀ act ∈ dawnActs, act.IsKnown := by
    simp [dawnActs, IsKnown, subject?, known]
  have calls : ∀ act ∈ [StoreAct.set 0 (.of .mesh) "" [0], .get 0 (.of .mesh) ""], act.IsKnown ∧ act.IsCall := by
    simp [IsKnown, IsCall, subject?, known]
  obtain ⟨inDirectory, _, underDigests⟩ := answers_with_latest all
  obtain ⟨_, withoutFile, _⟩ := answers_with_latest fun act member => (calls act member).1
  have latest : answers latest.step (1, []) dawnActs = answered := rfl
  exact ⟨(inDirectory _ _ _ _ _ dawn_isNew).trans latest, (underDigests dawn_apart).symm.trans latest,
    withoutFile _ _ fun act member => (calls act member).2⟩

/-- A directory whose path is taken for an address with a scheme may get no file, and then nothing is left once its
store was closed. -/
theorem nothing_left_behind_scheme :
    let directory : Path := ⟨"file:x?mode=memory&a="⟩
    let acts : List StoreAct :=
      [.set 0 (.of .vertex) "a" [1, 2], .get 0 (.of .vertex) "a", .close 0, .openAgain, .get 0 (.of .vertex) "a"]
    let opened := openIn .empty directory "binaries.db"
    opened.1 = .ok ⟨⟨0, none, true⟩⟩ ∧
      answers (step (openIn · directory "binaries.db")) ⟨[⟨⟨0, none, true⟩⟩], opened.2⟩ acts =
        [.done, .found (some [1, 2]), .done, .done, .found none] ∧
      answers latest.step (1, []) acts =
        [.done, .found (some [1, 2]), .done, .done, .found (some [1, 2])] := by
  decide +kernel

end StoreSession

end ShaderPipeline
