import Mathlib.Data.List.Infix
import Mathlib.Data.List.Induction
import ShaderPipeline.Proofs.Cache.Entries
import ShaderPipeline.Proofs.Pack.StoredBinaries

/-!
What the run of a stage comes to, whatever is cached.

A run changes the entry of its own identity, a database of the store and the list of requests, and nothing else.
What is cached for a stage is sound if its source was made from an earlier view of the files and its binary from
that source.  Main statement: over a sound cache and a sound store, while times tell new bodies from old ones, a run
comes to what the view of the files alone determines, and the cache and the store stay sound.
-/

set_option autoImplicit false
set_option relaxedAutoImplicit false

namespace ShaderPipeline

open Outcome

namespace SourceCache

variable {c c' : SourceCache} {i j : Identity}

private theorem entry?_of_applyFrom_of_ne {n : Nat} {batch : List CacheOp}
    (own : ∀ op ∈ batch, op.identity = i) (done : applyFrom n c batch = .ok c') (other : j ≠ i) :
    c'.entry? j = c.entry? j := by
  induction batch generalizing n c with
  | nil => rw [← Except.ok.inj done]
  | cons op ops ih =>
    obtain ⟨first, later⟩ := List.forall_mem_cons.mp own
    obtain ⟨next, changed, rest⟩ := applyFrom_cons done
    have step : next.entry? j = c.entry? j := (entry?_of_applyOne changed).2 j (first ▸ other)
    exact (ih later rest).trans step

theorem invalidated_of_invalidate {e : CacheEntry} (known : entry? (c.invalidate i) i = some e) :
    e.invalidated = e := by
  rw [entry?_invalidate] at known
  obtain ⟨before, _, rfl⟩ := Option.map_eq_some_iff.mp known
  rfl

private theorem entry?_of_apply_of_ne {batch : List CacheOp} (own : ∀ op ∈ batch, op.identity = i)
    (done : c.apply batch = .ok c') (other : j ≠ i) : c'.entry? j = c.entry? j :=
  entry?_of_applyFrom_of_ne own done other

theorem entry?_of_apply_binary {words : Binary} (done : c.apply [⟨i, .binary words⟩] = .ok c') :
    ∃ e, c.entry? i = some e ∧ e.fullSource.isSome ∧
      c'.entry? i = some { e with binary := some ⟨words, c.moment⟩, disassembly := none } := by
  obtain ⟨next, changed, rest⟩ := applyFrom_cons done
  obtain rfl := Except.ok.inj rest
  obtain ⟨⟨entry, on, own⟩, _⟩ := entry?_of_applyOne changed
  obtain ⟨e, known, source, rfl⟩ := CacheChange.onEntry_eq_ok.mp on
  exact ⟨e, known, source, own⟩

private theorem apply_binary {e : CacheEntry} (known : c.entry? i = some e) (source : e.fullSource.isSome)
    (words : Binary) :
    ∃ c', c.apply [⟨i, .binary words⟩] = .ok c' ∧
      c'.entry? i = some { e with binary := some ⟨words, c.moment⟩, disassembly := none } := by
  have changed : ∃ entry, CacheChange.on (c.entry? i) c.moment (.binary words) = .ok entry :=
    ⟨_, CacheChange.onEntry_eq_ok.mpr ⟨e, known, source, rfl⟩⟩
  obtain ⟨entry, changed⟩ := changed
  obtain ⟨next, one⟩ : ∃ next, c.applyOne ⟨i, .binary words⟩ = .ok next :=
    ⟨_, applyOne_eq_ok.mpr ⟨entry, changed, rfl⟩⟩
  have done : c.apply [⟨i, .binary words⟩] = .ok next := by
    simp only [apply, applyFrom, one]
  obtain ⟨e', known', _, own⟩ := entry?_of_apply_binary done
  obtain rfl : e = e' := Option.some.inj (known.symm.trans known')
  exact ⟨next, done, own⟩

end SourceCache

namespace Generation

variable {g : Generation} {c : SourceCache} {time : Int} {body : String} {source : AssembledSource}

def storedOver (g : Generation) (time : Int) (body : String) (source : AssembledSource)
    (e : CacheEntry) : CacheEntry :=
  { e with
    bodyPath := some g.request.path
    body := some body
    fullSource := some source.text
    resourceGroups := source.resourceGroups
    modified := some time }

theorem apply_storeBatch (g : Generation) (c : SourceCache) (time : Int) (body : String)
    (source : AssembledSource) :
    ∃ c', c.apply (g.storeBatch time body source) = .ok c' ∧
      c'.entry? g.identity =
        some (g.storedOver time body source ((c.entry? g.identity).getD .empty)) := by
  have moment : ∀ (c : SourceCache) (n : Nat), SourceCache.entry? { c with moment := n } = c.entry? :=
    fun _ _ => rfl
  simp [SourceCache.apply, storeBatch, SourceCache.applyFrom, SourceCache.applyOne, CacheChange.on,
    CacheChange.onEntry, bind, Except.bind, pure, Except.pure, SourceCache.entry?_setEntry, moment,
    storedOver]

theorem identity_of_mem_storeBatch {op : CacheOp} (ho : op ∈ g.storeBatch time body source) :
    op.identity = g.identity := by
  simp only [storeBatch, List.mem_cons, List.not_mem_nil, or_false] at ho
  rcases ho with rfl | rfl | rfl | rfl <;> rfl

theorem entry?_step_of_ne (g : Generation) (files : FileTree) (c : SourceCache) (phase : Phase)
    {j : Identity} (other : j ≠ g.identity) : SourceCache.entry? (g.step files c phase).2 j = c.entry? j := by
  cases phase with
  | registerPath time => exact SourceCache.entry?_addBodyPath_of_ne _ other
  | invalidate time => exact SourceCache.entry?_invalidate_of_ne other
  | store time body source =>
    simp only [step]
    split
    · rename_i done
      exact SourceCache.entry?_of_apply_of_ne (fun _ => identity_of_mem_storeBatch) done other
    · rfl
  | readTime | findSource time | readBody time | assemble time body =>
    simp only [step]
    split <;> rfl
  | checkTime time | finished result => rfl

/-- What a step of a generation does to its entry: nothing, it leaves no more than a path, or stores a source over it. -/
theorem entry?_step (g : Generation) (files : FileTree) (c : SourceCache) (phase : Phase) :
    SourceCache.entry? (g.step files c phase).2 g.identity = c.entry? g.identity ∨
      (∀ e, SourceCache.entry? (g.step files c phase).2 g.identity = some e → e.invalidated = e) ∨
      ∃ time body source, phase = .store time body source ∧
        SourceCache.entry? (g.step files c phase).2 g.identity =
          some (g.storedOver time body source ((c.entry? g.identity).getD .empty)) := by
  cases phase with
  | registerPath time =>
    have registered := c.entry?_addBodyPath g.identity g.request.path
    split at registered
    · exact .inl registered
    · refine .inr (.inl fun e known => ?_)
      obtain rfl := Option.some.inj (registered.symm.trans known)
      rfl
  | invalidate time => exact .inr (.inl fun _ => SourceCache.invalidated_of_invalidate)
  | store time body source =>
    obtain ⟨c', stored, entry⟩ := g.apply_storeBatch c time body source
    refine .inr (.inr ⟨time, body, source, rfl, ?_⟩)
    simp only [step, stored]
    exact entry
  | readTime | findSource time | readBody time | assemble time body =>
    simp only [step]
    split <;> exact .inl rfl
  | checkTime time | finished result => exact .inl rfl

end Generation

namespace StageRun

variable {r : StageRun} {w w' w'' : Workspace} {files : FileTree} {source : String}

/-- What a run may change: the entry of its identity, databases, and the requests by its own. -/
structure Frames (r : StageRun) (w w' : Workspace) : Prop where
  others : ∀ j ≠ r.identity, w'.cache.entry? j = w.cache.entry? j
  files : w.files.AgreesWith w'.files
  requests : ∃ new, w'.requests = w.requests ++ new ∧ ∀ q ∈ new, q.identity = r.identity

theorem Frames.refl (r : StageRun) (w : Workspace) : r.Frames w w :=
  ⟨fun _ _ => rfl, .refl _, [], by simp, nofun⟩

theorem Frames.trans (first : r.Frames w w') (second : r.Frames w' w'') : r.Frames w w'' := by
  obtain ⟨new, added, own⟩ := first.requests
  obtain ⟨more, added', own'⟩ := second.requests
  refine ⟨fun j other => (second.others j other).trans (first.others j other),
    first.files.trans second.files, new ++ more, ?_, fun q hq => ?_⟩
  · rw [added', added, List.append_assoc]
  · exact (List.mem_append.mp hq).elim (own q) (own' q)

theorem frames_step (r : StageRun) (w : Workspace) (phase : Phase) :
    r.Frames w (r.step w phase).2 := by
  have same := Frames.refl r w
  cases phase with
  | generate phase =>
    exact ⟨fun j other => r.generation.entry?_step_of_ne w.files w.cache phase other, .refl _,
      [], by simp [step], nofun⟩
  | findBinary source =>
    simp only [step]
    split <;> exact same
  | loadBinary source =>
    simp only [step]
    split <;> exact same
  | compile source =>
    have asked : r.Frames w { w with requests := w.requests ++ [r.request source] } :=
      ⟨fun _ _ => rfl, .refl _, [r.request source], rfl, by simp [request]⟩
    simp only [step]
    split <;> exact asked
  | storeBinary source binary =>
    exact ⟨fun _ _ => rfl, r.agreesWith_filesWith w.files source binary, [], by simp [step], nofun⟩
  | cacheBinary source binary =>
    simp only [step]
    split
    · rename_i cache done
      have own : ∀ op ∈ [CacheOp.mk r.identity (.binary binary)], op.identity = r.identity := by
        simp
      exact ⟨fun j other => SourceCache.entry?_of_apply_of_ne own done other, .refl _, [],
        by simp, nofun⟩
    · exact same
  | findGroups source binary => exact same
  | finished result => exact same

private theorem frames_steps (r : StageRun) (n : Nat) (w : Workspace) (phase : Phase) :
    r.Frames w (r.steps n w phase).2 := by
  induction n generalizing w phase with
  | zero => exact .refl r w
  | succ n ih => exact (r.frames_step w phase).trans (ih _ _)

theorem frames_run (r : StageRun) (w : Workspace) : r.Frames w (r.run w).2 := by
  have ends : (r.steps 15 w (.generate .readTime)).2 = (r.run w).2 := by
    rw [steps_start]
    rfl
  exact ends ▸ r.frames_steps 15 w (.generate .readTime)

end StageRun

namespace SourceCache

theorem bare_of_invalidate {c : SourceCache} {i : Identity} {e : CacheEntry}
    (known : entry? (c.invalidate i) i = some e) : e.fullSource = none ∧ e.binary = none := by
  rw [← invalidated_of_invalidate known]
  exact ⟨rfl, rfl⟩

private theorem addBodyPath_of_hasBodyPath {c : SourceCache} {i : Identity} {path : Path}
    (has : hasBodyPath (c.entry? i) path = true) : c.addBodyPath i path = c := by
  rw [addBodyPath, if_pos has]

theorem isStale_eq_false {c : SourceCache} {i : Identity} {time : Int} :
    c.isStale i time = false ↔ ∃ e recorded, c.entry? i = some e ∧ e.modified = some recorded ∧
      ¬ recorded < time := by
  rw [isStale]
  cases known : c.entry? i with
  | none => simp
  | some e => cases dated : e.modified <;> simp [dated]

theorem hasBodyPath_self {e : CacheEntry} {path : Path} (registered : e.bodyPath = some path) :
    hasBodyPath (some e) path = true := by
  simp [hasBodyPath, registered, Path.same]

end SourceCache

/-- Whether a view that is no newer than another shows the same. -/
def View.SameUnlessNewer (v now : View) : Prop :=
  ∀ time time', v.time = .ok time → now.time = .ok time' → ¬ time < time' →
    now.body = v.body ∧ now.source = v.source

/-- If every act leaves the view as it is or gives it a later time than all before, then an earlier view is the present
one or has an earlier time. -/
theorem View.eq_or_lt_of_prefix {α : Type} (view : List α → View) {acts before earlier : List α}
    (moves : ∀ before a, before ++ [a] <+: acts → view (before ++ [a]) = view before ∨
      ∀ earlier, earlier <+: before → ∀ old new, (view earlier).time = .ok old →
        (view (before ++ [a])).time = .ok new → old < new)
    (prior : before <+: acts) (first : earlier <+: before) :
    view earlier = view before ∨ ∀ old now, (view earlier).time = .ok old →
      (view before).time = .ok now → old < now := by
  induction before using List.reverseRecOn with
  | nil =>
    obtain rfl := List.prefix_nil.mp first
    exact .inl rfl
  | append_singleton before a ih =>
    rcases List.prefix_concat_iff.mp first with rfl | early
    · exact .inl rfl
    · rcases moves before a prior with same | later
      · rw [same]
        exact ih ((List.prefix_append before [a]).trans prior) early
      · exact .inr (later earlier early)

namespace Generation

variable {g : Generation} {files : FileTree} {c : SourceCache} {time : Int} {text : String}
  {source : AssembledSource}

/-- An entry whose source serves for a body that was last changed at a time. -/
structure Serves (g : Generation) (time : Int) (e : CacheEntry) (text : String) : Prop where
  registered : SourceCache.hasBodyPath (some e) g.request.path = true
  source : e.fullSource = some text
  dated : ∃ recorded, e.modified = some recorded ∧ ¬ recorded < time

private theorem freshSource?_eq_some :
    g.freshSource? c time = some text ↔ ∃ e, c.entry? g.identity = some e ∧
      e.fullSource = some text ∧ ∃ recorded, e.modified = some recorded ∧ ¬ recorded < time := by
  rw [freshSource?, SourceCache.isStale, SourceCache.fullSource?]
  cases c.entry? g.identity with
  | none => simp
  | some e => cases dated : e.modified <;> simp [dated, and_comm]

/-- Whether the cache has a source that serves for a body that was last changed at a time. -/
def IsServed (g : Generation) (c : SourceCache) (time : Int) (text : String) : Prop :=
  ∃ e, c.entry? g.identity = some e ∧ g.Serves time e text

private theorem freshSource?_addBodyPath :
    g.freshSource? (c.addBodyPath g.identity g.request.path) time = some text ↔ g.IsServed c time text := by
  rw [freshSource?_eq_some, SourceCache.entry?_addBodyPath]
  by_cases has : SourceCache.hasBodyPath (c.entry? g.identity) g.request.path = true
  · rw [if_pos has]
    constructor
    · rintro ⟨e, known, source, dated⟩
      exact ⟨e, known, known ▸ has, source, dated⟩
    · rintro ⟨e, known, _, source, dated⟩
      exact ⟨e, known, source, dated⟩
  · rw [if_neg has]
    constructor
    · -- An entry that was emptied has no source.
      rintro ⟨e, new, source, _⟩
      obtain rfl := Option.some.inj new
      cases source
    · rintro ⟨e, known, registered, _⟩
      exact absurd (known ▸ registered) has

theorem IsServed.hasBodyPath (served : g.IsServed c time text) :
    SourceCache.hasBodyPath (c.entry? g.identity) g.request.path = true := by
  obtain ⟨e, known, registered, _⟩ := served
  exact known ▸ registered

theorem run_of_served (read : files.modificationTime g.request.path = .ok time)
    (served : g.IsServed c time text) : g.run files c = (.ok text, c) := by
  have fresh := freshSource?_addBodyPath.mpr served
  have kept := SourceCache.addBodyPath_of_hasBodyPath served.hasBodyPath
  rw [kept] at fresh
  simp only [run, read, kept, fresh]

theorem run_of_not_served (read : files.modificationTime g.request.path = .ok time)
    (unserved : ¬ ∃ text, g.IsServed c time text) :
    g.run files c = g.regenerate files
      ((c.addBodyPath g.identity g.request.path).invalidate g.identity) time := by
  have stale : g.freshSource? (c.addBodyPath g.identity g.request.path) time = none := by
    rw [Option.eq_none_iff_forall_ne_some]
    intro text fresh
    exact unserved ⟨text, freshSource?_addBodyPath.mp fresh⟩
  simp only [run, read, stale]

/-- A generation serves a source that is cached, or drops what was made from it and makes a new one. -/
theorem run_cases (g : Generation) (c : SourceCache)
    (read : files.modificationTime g.request.path = .ok time) :
    (∃ e text, c.entry? g.identity = some e ∧ g.Serves time e text ∧ g.run files c = (.ok text, c)) ∨
      ∃ cleared : SourceCache,
        (∀ e, cleared.entry? g.identity = some e → e.fullSource = none ∧ e.binary = none) ∧
          g.run files c = g.regenerate files cleared time := by
  by_cases served : ∃ text, g.IsServed c time text
  · obtain ⟨text, served⟩ := served
    have ran := run_of_served read served
    obtain ⟨e, known, serves⟩ := served
    exact .inl ⟨e, text, known, serves, ran⟩
  · exact .inr ⟨_, fun _ => SourceCache.bare_of_invalidate, run_of_not_served read served⟩

theorem regenerate_of_source (made : (g.view files).source = .ok source) (c : SourceCache)
    (time : Int) :
    ∃ body c', (g.view files).body = .ok body ∧ g.regenerate files c time = (.ok source.text, c') ∧
      c'.entry? g.identity =
        some (g.storedOver time body source ((c.entry? g.identity).getD .empty)) := by
  cases read : files.readText g.request.path with
  | error e => simp [view, read] at made
  | ok body =>
    obtain ⟨c', stored, entry⟩ := g.apply_storeBatch c time body source
    have assembled : g.request.assemble g.catalog g.options files body = .ok source := by
      simpa only [view, read] using made
    exact ⟨body, c', read, by simp only [regenerate, read, assembled, stored], entry⟩

theorem regenerate_of_error {e : SourceError} (failed : (g.view files).source = .error e)
    (c : SourceCache) (time : Int) : g.regenerate files c time = (.error e, c) := by
  cases read : files.readText g.request.path with
  | error fault =>
    obtain rfl : SourceError.ofBodyAccess g.request.path fault = e := by
      simpa only [view, read, Except.error.injEq] using failed
    simp only [regenerate, read]
  | ok body =>
    have assembled : g.request.assemble g.catalog g.options files body = .error e := by
      simpa only [view, read] using failed
    simp only [regenerate, read, assembled]

end Generation

namespace StageRun

variable {r : StageRun} {past : View → Prop} {w : Workspace} {source : AssembledSource}
  {words : Binary} {e : CacheEntry}

/-- The compiled stage of a source, or why it cannot be compiled. -/
def made (r : StageRun) (source : AssembledSource) : Except PackError CompiledStage :=
  match r.compiler.compile (r.request source.text) with
  | .ok words => .ok ⟨r.identity, source.text, words, source.resourceGroups⟩
  | .error e => .error (.compile e)

/-- What a run comes to if nothing counts but its view of the files. -/
def outcome (r : StageRun) (v : View) : Except PackError CompiledStage :=
  match v.time, v.source with
  | .error e, _ => .error (.source (.ofBodyAccess r.generation.request.path e))
  | .ok _, .error e => .error (.source e)
  | .ok _, .ok source => r.made source

/-- Whether the source of an entry was made from a view and its binary from that source. -/
structure EntryIsSound (r : StageRun) (past : View → Prop) (e : CacheEntry) : Prop where
  source : ∀ text, e.fullSource = some text → ∃ time body source,
    past ⟨.ok time, .ok body, .ok source⟩ ∧ e.modified = some time ∧ source.text = text ∧
      e.resourceGroups = source.resourceGroups
  binary : ∀ stored, e.binary = some stored →
    ∃ text, e.fullSource = some text ∧ r.compiler.compile (r.request text) = .ok stored.words

def CacheIsSound (r : StageRun) (past : View → Prop) (c : SourceCache) : Prop :=
  ∀ e, c.entry? r.identity = some e → r.EntryIsSound past e

theorem entryIsSound_of_bare (r : StageRun) (past : View → Prop) {e : CacheEntry}
    (source : e.fullSource = none) (binary : e.binary = none) : r.EntryIsSound past e :=
  ⟨fun text has => by simp [source] at has, fun stored has => by simp [binary] at has⟩

theorem EntryIsSound.mono {past' : View → Prop} (h : r.EntryIsSound past e)
    (later : ∀ v, past v → past' v) : r.EntryIsSound past' e := by
  refine ⟨fun text has => ?_, h.binary⟩
  obtain ⟨time, body, source, seen, rest⟩ := h.source text has
  exact ⟨time, body, source, later _ seen, rest⟩

theorem EntryIsSound.withStore (h : r.EntryIsSound past e) (store : Option BinaryStore) :
    EntryIsSound { r with store } past e :=
  ⟨h.source, h.binary⟩

theorem entryIsSound_storedOver {time : Int} {body : String}
    (seen : past ⟨.ok time, .ok body, .ok source⟩) (bare : e.binary = none) :
    r.EntryIsSound past (r.generation.storedOver time body source e) where
  source text has := ⟨time, body, source, seen, rfl, Option.some.inj has, rfl⟩
  binary stored has := by
    have none : (r.generation.storedOver time body source e).binary = none := bare
    rw [none] at has
    cases has

theorem EntryIsSound.withBinary (h : r.EntryIsSound past e) {text : String}
    (has : e.fullSource = some text) (compiled : r.compiler.compile (r.request text) = .ok words)
    (moment : Nat) :
    r.EntryIsSound past { e with binary := some ⟨words, moment⟩, disassembly := none } where
  source := h.source
  binary stored held := by
    obtain rfl := Option.some.inj held
    exact ⟨text, has, compiled⟩

private theorem keep_of_compiled (h : r.CacheIsSound past w.cache)
    (known : w.cache.entry? r.identity = some e) (has : e.fullSource = some source.text)
    (groups : e.resourceGroups = source.resourceGroups)
    (compiled : r.compiler.compile (r.request source.text) = .ok words) :
    (r.keep w source.text words).1 = r.made source ∧
      r.CacheIsSound past (r.keep w source.text words).2.cache ∧
        (r.keep w source.text words).2.files = w.files := by
  have present : e.fullSource.isSome = true := by simp [has]
  obtain ⟨c', done, entry⟩ := SourceCache.apply_binary known present words
  have kept : r.keep w source.text words =
      (.ok (r.compiled c' source.text words), { w with cache := c' }) := by
    simp only [keep, done]
  rw [kept]
  refine ⟨?_, fun e' known' => ?_, rfl⟩
  · simp [StageRun.compiled, SourceCache.resourceGroups?, entry, present, groups, made, compiled]
  · obtain rfl := Option.some.inj (entry.symm.trans known')
    exact (h e known).withBinary has compiled _

private theorem compileSource_of_sound (h : r.CacheIsSound past w.cache) (store : r.StoreIsSound w.files)
    (stagewise : r.compiler.IsStagewise) (one : r.identity.stage.IsOne)
    (known : w.cache.entry? r.identity = some e) (has : e.fullSource = some source.text)
    (groups : e.resourceGroups = source.resourceGroups) :
    (r.compileSource w source.text).1 = r.made source ∧
      r.CacheIsSound past (r.compileSource w source.text).2.cache ∧
        r.StoreIsSound (r.compileSource w source.text).2.files := by
  cases cached : e.binary with
  | some stored =>
    obtain ⟨text, held, compiled⟩ := (h e known).binary stored cached
    obtain rfl : source.text = text := Option.some.inj (has.symm.trans held)
    have found : w.cache.binary? r.identity = some stored.words := by
      simp [SourceCache.binary?, known, cached]
    simp only [compileSource, found]
    refine ⟨?_, h, store⟩
    simp [StageRun.compiled, SourceCache.resourceGroups?, known, has, groups, made, compiled]
  | none =>
    have found : w.cache.binary? r.identity = none := by
      simp [SourceCache.binary?, known, cached]
    simp only [compileSource, found]
    rcases store.stored? stagewise one source.text with missing | ⟨words, held, compiled⟩
    · simp only [missing, compileAnew]
      cases result : r.compiler.compile (r.request source.text) with
      | error fault => exact ⟨by simp only [made, result], h, store⟩
      | ok words =>
        obtain ⟨comes, sound, files⟩ :=
          @keep_of_compiled r past ⟨r.filesWith w.files source.text words, w.cache,
            w.requests ++ [r.request source.text]⟩ source words e h known has groups result
        exact ⟨comes, sound, files ▸ store.filesWith one result⟩
    · simp only [held]
      obtain ⟨comes, sound, files⟩ := keep_of_compiled h known has groups compiled
      exact ⟨comes, sound, files.symm ▸ store⟩

/-- Over a sound cache and a sound store a run comes to what its view of the files determines, as long as no earlier
view that is no older than the present one shows anything else. -/
theorem run_of_sound (h : r.CacheIsSound past w.cache) (store : r.StoreIsSound w.files)
    (stagewise : r.compiler.IsStagewise) (one : r.identity.stage.IsOne)
    (seen : past (r.generation.view w.files))
    (dated : ∀ v, past v → v.SameUnlessNewer (r.generation.view w.files)) :
    (r.run w).1 = r.outcome (r.generation.view w.files) ∧
      r.CacheIsSound past (r.run w).2.cache ∧ r.StoreIsSound (r.run w).2.files := by
  cases read : w.files.modificationTime r.generation.request.path with
  | error e =>
    have now : (r.generation.view w.files).time = .error e := read
    simp only [run, Generation.run, read, outcome, now]
    exact ⟨trivial, h, store⟩
  | ok time =>
    have now : (r.generation.view w.files).time = .ok time := read
    rcases r.generation.run_cases w.cache read with
      ⟨e, text, known, ⟨_, has, recorded, marked, old⟩, ran⟩ | ⟨cleared, bare, ran⟩
    · -- The cached source was made from a view that shows the same as the present one.
      obtain ⟨time', body, source, earlier, marked', rfl, groups⟩ := (h e known).source text has
      obtain rfl : recorded = time' := Option.some.inj (marked.symm.trans marked')
      obtain ⟨_, same⟩ := dated _ earlier recorded time rfl now old
      have comes := compileSource_of_sound h store stagewise one known has groups
      simp only [run, ran, outcome, now, same]
      exact comes
    · cases result : (r.generation.view w.files).source with
      | error e =>
        rw [Generation.regenerate_of_error result] at ran
        have sound : r.CacheIsSound past cleared := fun e known =>
          r.entryIsSound_of_bare past (bare e known).1 (bare e known).2
        simp only [run, ran, outcome, now, result]
        exact ⟨trivial, sound, store⟩
      | ok source =>
        obtain ⟨body, c', text, again, entry⟩ :=
          Generation.regenerate_of_source result cleared time
        rw [again] at ran
        have whole : r.generation.view w.files = ⟨.ok time, .ok body, .ok source⟩ :=
          View.ext now text result
        have binary : ((cleared.entry? r.generation.identity).getD .empty).binary = none := by
          cases left : cleared.entry? r.generation.identity with
          | none => rfl
          | some e => exact (bare e left).2
        have sound : r.CacheIsSound past c' := by
          intro e known
          obtain rfl := Option.some.inj (entry.symm.trans known)
          exact entryIsSound_storedOver (whole ▸ seen) binary
        have comes := @compileSource_of_sound r past { w with cache := c' } source _ sound store
          stagewise one entry rfl rfl
        simp only [run, ran, outcome, now, result]
        exact comes

/-- Whether a source for a body that was last changed at a time is cached together with a binary. -/
def IsReady (r : StageRun) (time : Int) (c : SourceCache) : Prop :=
  ∃ e text, c.entry? r.identity = some e ∧ r.generation.Serves time e text ∧ e.binary.isSome

theorem run_of_ready {time : Int} (h : r.IsReady time w.cache)
    (read : w.files.modificationTime r.generation.request.path = .ok time) : (r.run w).2 = w := by
  obtain ⟨e, text, known, serves, binary⟩ := h
  have registered : SourceCache.hasBodyPath (w.cache.entry? r.generation.identity)
      r.generation.request.path = true :=
    (congrArg (SourceCache.hasBodyPath · _) known).trans serves.registered
  have fresh : r.generation.freshSource? w.cache time = some text :=
    Generation.freshSource?_eq_some.mpr ⟨e, known, serves.source, serves.dated⟩
  have ran : r.generation.run w.files w.cache = (.ok text, w.cache) := by
    simp only [Generation.run, read, SourceCache.addBodyPath_of_hasBodyPath registered, fresh]
  obtain ⟨stored, cached⟩ := Option.isSome_iff_exists.mp binary
  have found : w.cache.binary? r.identity = some stored.words := by
    simp [SourceCache.binary?, known, cached]
  simp only [run, ran, compileSource, found]

private theorem ready_of_keep {time : Int} {text : String} {compiled : CompiledStage}
    (known : w.cache.entry? r.identity = some e) (serves : r.generation.Serves time e text)
    (done : (r.keep w text words).1 = .ok compiled) :
    r.IsReady time (r.keep w text words).2.cache := by
  rw [keep] at done ⊢
  cases put : w.cache.apply [⟨r.identity, .binary words⟩] with
  | error fault => simp [put] at done
  | ok c' =>
    obtain ⟨e', known', _, entry⟩ := SourceCache.entry?_of_apply_binary put
    obtain rfl : e = e' := Option.some.inj (known.symm.trans known')
    exact ⟨_, text, entry, ⟨serves.registered, serves.source, serves.dated⟩, rfl⟩

private theorem ready_of_compileSource {time : Int} {text : String} {compiled : CompiledStage}
    (known : w.cache.entry? r.identity = some e) (serves : r.generation.Serves time e text)
    (done : (r.compileSource w text).1 = .ok compiled) :
    r.IsReady time (r.compileSource w text).2.cache := by
  rw [compileSource] at done ⊢
  cases cached : e.binary with
  | some stored =>
    have found : w.cache.binary? r.identity = some stored.words := by
      simp [SourceCache.binary?, known, cached]
    simp only [found]
    exact ⟨e, text, known, serves, by simp [cached]⟩
  | none =>
    have found : w.cache.binary? r.identity = none := by
      simp [SourceCache.binary?, known, cached]
    simp only [found] at done ⊢
    cases held : r.stored? w.files text with
    | error fault => simp [held] at done
    | ok stored =>
      cases stored with
      | some words =>
        simp only [held] at done
        exact ready_of_keep known serves done
      | none =>
        simp only [held, compileAnew] at done ⊢
        cases result : r.compiler.compile (r.request text) with
        | error fault => simp [result] at done
        | ok words =>
          simp only [result] at done
          exact @ready_of_keep r _ words e time text compiled known serves done

theorem ready_of_run {time : Int} {compiled : CompiledStage}
    (read : w.files.modificationTime r.generation.request.path = .ok time)
    (done : (r.run w).1 = .ok compiled) : r.IsReady time (r.run w).2.cache := by
  rcases r.generation.run_cases w.cache read with ⟨e, text, known, serves, ran⟩ | ⟨cleared, _, ran⟩
  · simp only [run, ran] at done ⊢
    exact ready_of_compileSource known serves done
  · cases result : (r.generation.view w.files).source with
    | error fault =>
      rw [Generation.regenerate_of_error result] at ran
      simp [run, ran] at done
    | ok source =>
      obtain ⟨body, c', _, again, entry⟩ := Generation.regenerate_of_source result cleared time
      rw [again] at ran
      simp only [run, ran] at done ⊢
      have serves : r.generation.Serves time (r.generation.storedOver time body source
          ((cleared.entry? r.generation.identity).getD .empty)) source.text :=
        ⟨SourceCache.hasBodyPath_self rfl, rfl, time, rfl, by omega⟩
      exact @ready_of_compileSource r { w with cache := c' } _ time source.text compiled entry serves
        done

end StageRun

end ShaderPipeline
