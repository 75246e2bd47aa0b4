import Mathlib.Logic.Function.Basic
import ShaderPipeline.Proofs.Cache.Entries

/-!
When the artifacts in a cache were stored.

Callers use one cache in any order, and while one of them disassembles a binary the others go on.  Beside the cache it
is noted for each entry at which step its fields were stored last.  A disassembly is always younger than its binary.
The other artifacts may be older than what they derive from: a change of a batch that stores a body path, a body or a
full source leaves the artifacts that were derived from the one before.  Main statement: an artifact is older than what
it derives from exactly if such a change has overtaken it.
-/

set_option autoImplicit false
set_option relaxedAutoImplicit false

namespace ShaderPipeline

/-- The steps at which the fields of an entry were stored last; for the path, at which it became a different one. -/
structure EntryStamps where
  path : Nat
  body : Nat
  source : Nat
  binary : Nat
  disassembly : Nat
  deriving DecidableEq

namespace EntryStamps

def after (t : EntryStamps) (now : Nat) (entry : Option CacheEntry) : CacheChange → EntryStamps
  | .bodyPath path => if SourceCache.hasBodyPath entry path then t else { t with path := now }
  | .body _ => { t with body := now }
  | .fullSource _ _ => { t with source := now }
  | .binary _ _ => { t with binary := now }
  | .disassembly _ => { t with disassembly := now }
  | .modified _ | .invalidate | .erase => t

structure Before (t : EntryStamps) (now : Nat) : Prop where
  path : t.path < now
  body : t.body < now
  source : t.source < now
  binary : t.binary < now
  disassembly : t.disassembly < now

end EntryStamps

/-- Which artifacts of an entry were overtaken by a batch, that is, what they derive from was stored over while they
were left. -/
structure Overtaken where
  body : Bool
  source : Bool
  binary : Bool

/-- What is overtaken after a change to an entry; what the change stores itself is not. -/
def Overtaken.after (o : Overtaken) (entry : Option CacheEntry) : CacheChange → Overtaken
  | .bodyPath path =>
      if SourceCache.hasBodyPath entry path then o
      else { o with body := (entry.bind (·.body)).isSome }
  | .body _ => { o with body := false, source := (entry.bind (·.fullSource)).isSome }
  | .fullSource _ _ => { o with source := false, binary := (entry.bind (·.binary)).isSome }
  | .binary _ _ => { o with binary := false }
  | .modified _ | .disassembly _ | .invalidate | .erase => o

/-- Whether the artifacts of an entry are younger than what they derive from. -/
structure EntryStamps.InOrder (t : EntryStamps) (e : CacheEntry) : Prop where
  body : e.body.isSome → t.path < t.body
  source : e.fullSource.isSome → t.body < t.source
  binary : e.binary.isSome → t.source < t.binary
  disassembly : e.disassembly.isSome → t.binary < t.disassembly

/-- Whether the artifacts of an entry are younger than what they derive from, those apart that were overtaken. -/
structure EntryStamps.InOrderBut (t : EntryStamps) (e : CacheEntry) (o : Overtaken) : Prop where
  body : e.body.isSome → (t.path < t.body ↔ o.body = false)
  source : e.fullSource.isSome → (t.body < t.source ↔ o.source = false)
  binary : e.binary.isSome → (t.source < t.binary ↔ o.binary = false)
  disassembly : e.disassembly.isSome → t.binary < t.disassembly

/-- A cache in use, with the number of its next step, and notes on its entries. -/
structure DatedCache where
  cache : SourceCache
  clock : Nat
  stamps : Identity → EntryStamps
  overtaken : Identity → Overtaken
  /-- The disassemblies that were begun, each with the binary it is made from. -/
  begun : List (Identity × StoredBinary)

/-- A call on a cache.  A disassembly takes two of them, and any others may come between. -/
inductive CacheCall where
  | apply (batch : List CacheOp)
  | addBodyPath (i : Identity) (path : Path)
  | invalidate (i : Identity)
  | erase (i : Identity)
  | beginDisassembly (i : Identity)
  | endDisassembly (n : Nat) (text : String)

namespace DatedCache

def start : DatedCache :=
  ⟨.empty, 1, fun _ => ⟨0, 0, 0, 0, 0⟩, fun _ => ⟨false, false, false⟩, []⟩

def change (s : DatedCache) (op : CacheOp) : DatedCache :=
  match s.cache.applyOne op with
  | .ok cache =>
      let entry := s.cache.entry? op.identity
      let stamps := (s.stamps op.identity).after s.clock entry op.change
      let overtaken := (s.overtaken op.identity).after entry op.change
      { s with
        cache
        clock := s.clock + 1
        stamps := Function.update s.stamps op.identity stamps
        overtaken := Function.update s.overtaken op.identity overtaken }
  | .error _ => s

/-- Keeps a disassembly, if the binary it was made from is still the one in the cache. -/
def keep (s : DatedCache) (i : Identity) (binary : StoredBinary) (text : String) : DatedCache :=
  let stamps :=
    if (s.cache.entry? i).bind (·.binary) = some binary then { s.stamps i with disassembly := s.clock }
    else s.stamps i
  { s with
    cache := s.cache.keepDisassembly i binary text
    clock := s.clock + 1
    stamps := Function.update s.stamps i stamps }

def perform (s : DatedCache) : CacheCall → DatedCache
  | .apply batch =>
      match s.cache.apply batch with
      | .ok cache => { batch.foldl change s with cache }
      | .error _ => s
  | .addBodyPath i path =>
      let stamps := (s.stamps i).after s.clock (s.cache.entry? i) (.bodyPath path)
      { s with
        cache := s.cache.addBodyPath i path
        clock := s.clock + 1
        stamps := Function.update s.stamps i stamps }
  | .invalidate i => { s with cache := s.cache.invalidate i, clock := s.clock + 1 }
  | .erase i => { s with cache := s.cache.erase i, clock := s.clock + 1 }
  | .beginDisassembly i =>
      match s.cache.disassemblyState i with
      | .ok (.pending binary) => { s with begun := s.begun ++ [(i, binary)] }
      | _ => s
  | .endDisassembly n text =>
      match s.begun[n]? with
      | some (i, binary) => s.keep i binary text
      | none => s

def after (history : List CacheCall) : DatedCache :=
  history.foldl perform start

structure IsDated (s : DatedCache) : Prop where
  past : ∀ i, (s.stamps i).Before s.clock
  inOrder : ∀ i e, s.cache.entry? i = some e → (s.stamps i).InOrderBut e (s.overtaken i)

end DatedCache

namespace EntryStamps

variable {t : EntryStamps} {o : Overtaken} {now moment : Nat} {entry : Option CacheEntry} {e e' : CacheEntry}

theorem Before.mono {later : Nat} (h : t.Before now) (le : now ≤ later) : t.Before later :=
  ⟨Nat.lt_of_lt_of_le h.path le, Nat.lt_of_lt_of_le h.body le, Nat.lt_of_lt_of_le h.source le,
    Nat.lt_of_lt_of_le h.binary le, Nat.lt_of_lt_of_le h.disassembly le⟩

theorem Before.after (h : t.Before now) (change : CacheChange) :
    (t.after now entry change).Before (now + 1) := by
  have older := h.mono now.le_succ
  cases change with
  | bodyPath path =>
    rw [EntryStamps.after]
    split
    · exact older
    · exact { older with path := now.lt_succ_self }
  | body text => exact { older with body := now.lt_succ_self }
  | fullSource text groups => exact { older with source := now.lt_succ_self }
  | binary words handle => exact { older with binary := now.lt_succ_self }
  | disassembly text => exact { older with disassembly := now.lt_succ_self }
  | modified | invalidate | erase => exact older

private theorem inOrderBut_of_bare (body : e.body = none) (source : e.fullSource = none)
    (binary : e.binary = none) (disassembly : e.disassembly = none) : t.InOrderBut e o := by
  constructor
  · intro present
    simp [body] at present
  · intro present
    simp [source] at present
  · intro present
    simp [binary] at present
  · intro present
    simp [disassembly] at present

private theorem lt_iff_of_stored {stamp : Nat} {left : Bool} (past : stamp < now) (present : left = true) :
    now < stamp ↔ left = false := by
  constructor
  · intro younger
    omega
  · intro absent
    cases present.symm.trans absent

private theorem inOrderBut_bodyPath (past : t.Before now)
    (h : ∀ e, entry = some e → t.InOrderBut e o) (path : Path) :
    (t.after now entry (.bodyPath path)).InOrderBut
      { entry.getD .empty with bodyPath := some path } (o.after entry (.bodyPath path)) := by
  cases entry with
  | none => exact inOrderBut_of_bare rfl rfl rfl rfl
  | some e =>
    have before := h e rfl
    rw [EntryStamps.after, Overtaken.after]
    split
    · exact ⟨before.body, before.source, before.binary, before.disassembly⟩
    · exact ⟨fun present => lt_iff_of_stored past.body present, before.source, before.binary,
        before.disassembly⟩

theorem InOrderBut.on (past : t.Before now) (h : ∀ e, entry = some e → t.InOrderBut e o)
    {change : CacheChange} (changed : change.on entry moment = .ok (some e')) :
    (t.after now entry change).InOrderBut e' (o.after entry change) := by
  cases change with
  | bodyPath path =>
    obtain rfl := Option.some.inj (Except.ok.inj changed)
    exact inOrderBut_bodyPath past h path
  | body text =>
    obtain ⟨e, rfl, _, ⟨⟩⟩ := CacheChange.onEntry_eq_ok.mp changed
    have before := h e rfl
    refine ⟨fun _ => iff_of_true past.path rfl, fun present => ?_, before.binary, before.disassembly⟩
    exact lt_iff_of_stored past.source present
  | fullSource text groups =>
    obtain ⟨e, rfl, _, ⟨⟩⟩ := CacheChange.onEntry_eq_ok.mp changed
    have before := h e rfl
    refine ⟨before.body, fun _ => iff_of_true past.body rfl, fun present => ?_, before.disassembly⟩
    exact lt_iff_of_stored past.binary present
  | binary words handle =>
    obtain ⟨e, rfl, _, ⟨⟩⟩ := CacheChange.onEntry_eq_ok.mp changed
    have before := h e rfl
    -- The disassembly of the binary before is dropped.
    exact ⟨before.body, before.source, fun _ => iff_of_true past.source rfl, nofun⟩
  | disassembly text =>
    obtain ⟨e, rfl, _, ⟨⟩⟩ := CacheChange.onEntry_eq_ok.mp changed
    have before := h e rfl
    exact ⟨before.body, before.source, before.binary, fun _ => past.binary⟩
  | modified time =>
    obtain ⟨e, rfl, _, ⟨⟩⟩ := CacheChange.onEntry_eq_ok.mp changed
    have before := h e rfl
    exact ⟨before.body, before.source, before.binary, before.disassembly⟩
  | invalidate =>
    cases entry with
    | none => cases changed
    | some e =>
      obtain rfl := Option.some.inj (Except.ok.inj changed)
      exact inOrderBut_of_bare rfl rfl rfl rfl
  | erase => cases changed

end EntryStamps

namespace DatedCache

variable {s : DatedCache} {history : List CacheCall} {i : Identity}

private theorem isDated_start : start.IsDated :=
  ⟨fun _ => ⟨Nat.one_pos, Nat.one_pos, Nat.one_pos, Nat.one_pos, Nat.one_pos⟩, nofun⟩

private theorem IsDated.update (h : s.IsDated) (c : SourceCache) (i : Identity) (t : EntryStamps)
    (o : Overtaken) (others : ∀ j ≠ i, c.entry? j = s.cache.entry? j) (past : t.Before (s.clock + 1))
    (own : ∀ e, c.entry? i = some e → t.InOrderBut e o) :
    IsDated { s with
      cache := c
      clock := s.clock + 1
      stamps := Function.update s.stamps i t
      overtaken := Function.update s.overtaken i o } := by
  constructor
  · intro j
    by_cases same : j = i
    · subst same
      simpa using past
    · simpa [Function.update_of_ne same] using (h.past j).mono s.clock.le_succ
  · intro j e held
    by_cases same : j = i
    · subst same
      simpa using own e held
    · have before := h.inOrder j e ((others j same).symm.trans held)
      simpa [Function.update_of_ne same] using before

theorem IsDated.change (h : s.IsDated) (op : CacheOp) : (s.change op).IsDated := by
  rw [DatedCache.change]
  split
  · rename_i cache done
    obtain ⟨⟨entry, changed, made⟩, others⟩ := SourceCache.entry?_of_applyOne done
    have past := h.past op.identity
    refine h.update cache op.identity _ _ others (past.after op.change) fun e held => ?_
    have changed' : op.change.on (s.cache.entry? op.identity) s.cache.moment = .ok (some e) := by
      rw [changed, ← made, held]
    exact EntryStamps.InOrderBut.on past (h.inOrder op.identity) changed'
  · exact h

private theorem cache_foldl_change {batch : List CacheOp} {c : SourceCache} (done : s.cache.apply batch = .ok c) :
    (batch.foldl DatedCache.change s).cache = c := by
  have step : ∀ (c : SourceCache) (s : DatedCache) (op : CacheOp) (c' : SourceCache), s.cache = c →
      c.applyOne op = .ok c' → (s.change op).cache = c' := by
    intro c s op c' same changed
    subst same
    simp only [DatedCache.change, changed]
  exact SourceCache.applyFrom_induction (P := fun c (s : DatedCache) => s.cache = c) step done rfl

private theorem IsDated.foldl_change (h : s.IsDated) (batch : List CacheOp) :
    (batch.foldl DatedCache.change s).IsDated := by
  induction batch generalizing s with
  | nil => exact h
  | cons op batch ih => exact ih (h.change op)

theorem IsDated.apply (h : s.IsDated) (batch : List CacheOp) : (s.perform (.apply batch)).IsDated := by
  rw [perform]
  split
  · rename_i cache done
    rw [← cache_foldl_change done]
    exact h.foldl_change batch
  · exact h

private theorem IsDated.strip (h : s.IsDated) (i : Identity) {c : SourceCache}
    (others : ∀ j ≠ i, c.entry? j = s.cache.entry? j)
    (bare : ∀ e, c.entry? i = some e → e = { CacheEntry.empty with bodyPath := e.bodyPath }) :
    IsDated { s with cache := c, clock := s.clock + 1 } := by
  have updated := h.update c i (s.stamps i) (s.overtaken i) others
    ((h.past i).mono s.clock.le_succ) fun e held => by
      rw [bare e held]
      exact EntryStamps.inOrderBut_of_bare rfl rfl rfl rfl
  simpa only [Function.update_eq_self] using updated

theorem IsDated.invalidate (h : s.IsDated) (i : Identity) : (s.perform (.invalidate i)).IsDated := by
  refine h.strip i (fun j => SourceCache.entry?_invalidate_of_ne) fun e held => ?_
  rw [SourceCache.entry?_invalidate] at held
  obtain ⟨before, _, rfl⟩ := Option.map_eq_some_iff.mp held
  rfl

theorem IsDated.erase (h : s.IsDated) (i : Identity) : (s.perform (.erase i)).IsDated := by
  refine h.strip i (fun j other => SourceCache.entry?_setEntry.trans (if_neg other)) fun e held => ?_
  rw [SourceCache.erase, SourceCache.entry?_setEntry, if_pos rfl] at held
  cases held

theorem IsDated.addBodyPath (h : s.IsDated) (i : Identity) (path : Path) :
    (s.perform (.addBodyPath i path)).IsDated := by
  have past : ((s.stamps i).after s.clock (s.cache.entry? i) (.bodyPath path)).Before (s.clock + 1) :=
    (h.past i).after (.bodyPath path)
  have updated := h.update (s.cache.addBodyPath i path) i
    ((s.stamps i).after s.clock (s.cache.entry? i) (.bodyPath path)) (s.overtaken i)
    (fun j => SourceCache.entry?_addBodyPath_of_ne path) past fun e held => ?_
  · rw [Function.update_eq_self] at updated
    exact updated
  · rw [SourceCache.entry?_addBodyPath] at held
    rw [EntryStamps.after]
    split at held
    · rename_i known
      rw [if_pos known]
      exact h.inOrder i e held
    · rename_i unknown
      rw [if_neg unknown]
      obtain rfl := Option.some.inj held
      exact EntryStamps.inOrderBut_of_bare rfl rfl rfl rfl

theorem IsDated.keep (h : s.IsDated) (i : Identity) (binary : StoredBinary) (text : String) :
    (s.keep i binary text).IsDated := by
  have older := (h.past i).mono s.clock.le_succ
  have updated := h.update (s.cache.keepDisassembly i binary text) i
    (if (s.cache.entry? i).bind (·.binary) = some binary then
      { s.stamps i with disassembly := s.clock } else s.stamps i) (s.overtaken i)
    (fun j other => ?_) ?_ fun e held => ?_
  · rw [Function.update_eq_self] at updated
    exact updated
  · rw [SourceCache.keepDisassembly]
    split
    · rfl
    · split
      · exact SourceCache.entry?_setEntry.trans (if_neg other)
      · rfl
  · split
    · exact { older with disassembly := s.clock.lt_succ_self }
    · exact older
  · rw [SourceCache.keepDisassembly] at held
    cases known : s.cache.entry? i with
    | none =>
      simp only [known] at held
      cases held
    | some e' =>
      have before := h.inOrder i e' known
      simp only [known, Option.bind_some] at held ⊢
      split at held
      · rename_i current
        rw [if_pos current]
        rw [SourceCache.entry?_setEntry, if_pos rfl] at held
        obtain rfl := Option.some.inj held
        exact ⟨before.body, before.source, before.binary, fun _ => (h.past i).binary⟩
      · rename_i replaced
        rw [if_neg replaced]
        obtain rfl := Option.some.inj (known.symm.trans held)
        exact before

theorem IsDated.perform (h : s.IsDated) (call : CacheCall) : (s.perform call).IsDated := by
  cases call with
  | apply batch => exact h.apply batch
  | addBodyPath i path => exact h.addBodyPath i path
  | invalidate i => exact h.invalidate i
  | erase i => exact h.erase i
  | beginDisassembly i =>
    rw [DatedCache.perform]
    split
    · exact ⟨h.past, h.inOrder⟩
    · exact h
  | endDisassembly n text =>
    rw [DatedCache.perform]
    split
    · exact h.keep _ _ _
    · exact h

private theorem isDated_after (history : List CacheCall) : (after history).IsDated := by
  suffices ∀ s : DatedCache, s.IsDated → (history.foldl DatedCache.perform s).IsDated from
    this start isDated_start
  induction history with
  | nil => exact fun _ h => h
  | cons call rest ih => exact fun s h => ih (s.perform call) (h.perform call)

private theorem begun_prefix_foldl (calls : List CacheCall) (s : DatedCache) :
    s.begun <+: (calls.foldl DatedCache.perform s).begun := by
  have folded : ∀ (batch : List CacheOp) (s : DatedCache), (batch.foldl DatedCache.change s).begun = s.begun := by
    intro batch
    induction batch with
    | nil => exact fun _ => rfl
    | cons op batch ih =>
      intro s
      rw [List.foldl_cons, ih, DatedCache.change]
      split <;> rfl
  induction calls generalizing s with
  | nil => exact List.prefix_rfl
  | cons call rest ih =>
    refine List.IsPrefix.trans ?_ (ih (s.perform call))
    cases call with
    | apply batch =>
      rw [DatedCache.perform]
      split
      · exact (folded batch s).symm ▸ List.prefix_rfl
      · exact List.prefix_rfl
    | beginDisassembly i =>
      rw [DatedCache.perform]
      split
      · exact List.prefix_append _ _
      · exact List.prefix_rfl
    | endDisassembly n text =>
      rw [DatedCache.perform]
      split <;> exact List.prefix_rfl
    | addBodyPath | invalidate | erase => exact List.prefix_rfl

/-- A disassembly that has to be made is its two calls, with those between them that are made meanwhile. -/
theorem disassemble_eq_perform {ε : Type} {binary : StoredBinary}
    (pending : s.cache.disassemblyState i = .ok (.pending binary)) (ofCache : CacheError → ε)
    (meanwhile : List CacheCall) (made : Except ε String) :
    (s.cache.disassemble i ofCache fun _ _ =>
        (made, (meanwhile.foldl DatedCache.perform (s.perform (.beginDisassembly i))).cache)).2 =
      match made with
      | .ok text => ((CacheCall.beginDisassembly i :: meanwhile ++
          [CacheCall.endDisassembly s.begun.length text]).foldl DatedCache.perform s).cache
      | .error _ => ((CacheCall.beginDisassembly i :: meanwhile).foldl DatedCache.perform s).cache := by
  have begun : s.perform (.beginDisassembly i) = { s with begun := s.begun ++ [(i, binary)] } := by
    simp only [DatedCache.perform, pending]
  have known : (meanwhile.foldl DatedCache.perform (s.perform (.beginDisassembly i))).begun[s.begun.length]? =
      some (i, binary) := by
    obtain ⟨later, extended⟩ := begun_prefix_foldl meanwhile (s.perform (.beginDisassembly i))
    rw [← extended, begun]
    simp
  rw [SourceCache.disassemble, pending]
  cases made with
  | error e => rfl
  | ok text =>
    simp only [List.cons_append, List.foldl_cons, List.foldl_append, List.foldl_nil]
    generalize meanwhile.foldl DatedCache.perform (s.perform (.beginDisassembly i)) = ended at known ⊢
    simp only [DatedCache.perform, known, DatedCache.keep]

/-- Which artifacts of a cache are younger than what they derive from: a disassembly always is, and the others are
exactly as long as no batch has overtaken them. -/
theorem younger_iff_not_overtaken (history : List CacheCall) (i : Identity) (e : CacheEntry)
    (held : (after history).cache.entry? i = some e) :
    ((after history).stamps i).InOrderBut e ((after history).overtaken i) :=
  (isDated_after history).inOrder i e held

def litStage : Identity :=
  .ofName "lit" (.of .vertex)

/-- A cache after a batch that stores the artifacts of a stage and then, from the last to the first, what they derive
from. -/
def backward : DatedCache :=
  after [.apply ([.bodyPath ⟨"lit.vert"⟩, .body "void main() {}", .fullSource "#version 450" [], .binary [],
    .fullSource "#version 460" [], .body "void main() { }", .bodyPath ⟨"unlit.vert"⟩].map (⟨litStage, ·⟩))]

def backwardEntry : CacheEntry :=
  ⟨some ⟨"unlit.vert"⟩, some "void main() { }", some "#version 460", some ⟨[], 3⟩, none, none, []⟩

theorem younger_iff_not_overtaken_of_backward :
    backward.cache.entry? litStage = some backwardEntry ∧
      (backward.stamps litStage).InOrderBut backwardEntry (backward.overtaken litStage) := by
  have held : backward.cache.entry? litStage = some backwardEntry := by decide +kernel
  exact ⟨held, younger_iff_not_overtaken _ litStage backwardEntry held⟩

/-- A batch may leave every artifact older than what it derives from. -/
theorem batch_leaves_older_artifacts :
    backward.cache.entry? litStage = some backwardEntry ∧
      ¬ (backward.stamps litStage).InOrder backwardEntry ∧
      (backward.stamps litStage).binary < (backward.stamps litStage).source ∧
      (backward.stamps litStage).source < (backward.stamps litStage).body ∧
      (backward.stamps litStage).body < (backward.stamps litStage).path := by
  have held : backward.cache.entry? litStage = some backwardEntry := by decide +kernel
  have stamps : backward.stamps litStage = ⟨7, 6, 5, 4, 0⟩ := by decide +kernel
  rw [stamps]
  refine ⟨held, fun inOrder => ?_, by decide, by decide, by decide⟩
  have younger : 7 < 6 := inOrder.body rfl
  omega

end DatedCache

end ShaderPipeline
