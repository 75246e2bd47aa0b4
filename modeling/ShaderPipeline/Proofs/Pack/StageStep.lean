import ShaderPipeline.Proofs.Pack.StageOutcome

/-!
What one step of a stage's run preserves, whatever came before it.

Between the steps of a run others may change the cache and the body.  A run is current while it holds what the view of
the files shows; and once it has found the cache to be no older than the body, or has emptied it, the cache has no
source but that of the view.  Main statements: steps of a run that is current, or that does not rely on the cache, keep
cache and store sound; what a run holds belongs together after each of its steps; and a current run stays current.
-/

set_option autoImplicit false
set_option relaxedAutoImplicit false

namespace ShaderPipeline

/-- Whether a view comes to a source with the given text. -/
def View.Yields (v : View) (text : String) : Prop :=
  ∃ source, v.source = .ok source ∧ source.text = text

namespace StageRun

variable {r : StageRun} {past : View → Prop} {v : View} {w : Workspace} {phase : Phase}
  {c : SourceCache} {files : FileTree}

namespace Phase

def readsTime : Phase → Bool
  | generate .readTime => true
  | _ => false

/-- Whether the next step takes for granted that what is cached is about the source at hand: it puts something beside
what is cached, or takes what stands there. -/
def trustsCache : Phase → Bool
  | generate (.store ..) | findBinary _ | cacheBinary .. => true
  | _ => false

def result? : Phase → Option CompiledStage
  | finished (.ok compiled) => some compiled
  | _ => none

/-- Whether the binary that a run holds was compiled from the source that it holds. -/
def IsFaithful (r : StageRun) : Phase → Prop
  | storeBinary source words | cacheBinary source words | findGroups source words =>
      r.compiler.compile (r.request source) = .ok words
  | finished (.ok compiled) =>
      r.compiler.compile ⟨compiled.identity, compiled.source⟩ = .ok compiled.binary
  | _ => True

/-- Whether what a run holds is what a view shows, and, once it was found or made so, the cache has no source but that
of the view. -/
def IsCurrent (v : View) (only : Prop) : Phase → Prop
  | generate .readTime => True
  | generate (.registerPath time) | generate (.checkTime time) | generate (.invalidate time) =>
      v.time = .ok time
  | generate (.findSource time) | generate (.readBody time) => v.time = .ok time ∧ only
  | generate (.assemble time body) => v.time = .ok time ∧ v.body = .ok body ∧ only
  | generate (.store time body source) => v = ⟨.ok time, .ok body, .ok source⟩ ∧ only
  | generate (.finished _) => False
  | findBinary source | loadBinary source | compile source | storeBinary source _
  | cacheBinary source _ => v.Yields source ∧ only
  | findGroups _ _ | finished _ => True

theorem IsCurrent.imp {only only' : Prop} (h : phase.IsCurrent v only) (later : only → only') :
    phase.IsCurrent v only' := by
  cases phase with
  | generate phase =>
    cases phase with
    | findSource time | readBody time | store time body source => exact ⟨h.1, later h.2⟩
    | assemble time body => exact ⟨h.1, h.2.1, later h.2.2⟩
    | _ => exact h
  | findGroups source words | finished result => trivial
  | _ => exact ⟨h.1, later h.2⟩

end Phase

/-- Whether the cache has no source for a stage but that of a view. -/
def CachesOnly (r : StageRun) (v : View) (c : SourceCache) : Prop :=
  ∀ e text, c.entry? r.identity = some e → e.fullSource = some text → v.Yields text

/-- What a step does to the entry of a stage: nothing, or it empties it, stores a source over it, or puts a binary
beside its source. -/
theorem entry?_step (r : StageRun) (w : Workspace) (phase : Phase) :
    SourceCache.entry? (r.step w phase).2.cache r.identity = w.cache.entry? r.identity ∨
      (∀ e, SourceCache.entry? (r.step w phase).2.cache r.identity = some e →
        e.fullSource = none ∧ e.binary = none) ∨
      (∃ time body source, phase = .generate (.store time body source) ∧
        SourceCache.entry? (r.step w phase).2.cache r.identity = some (r.generation.storedOver time
          body source ((w.cache.entry? r.identity).getD .empty))) ∨
      ∃ source words e, phase = .cacheBinary source words ∧ w.cache.entry? r.identity = some e ∧
        e.fullSource.isSome ∧ SourceCache.entry? (r.step w phase).2.cache r.identity =
          some { e with binary := some ⟨words, w.cache.moment⟩, disassembly := none } := by
  cases phase with
  | generate phase =>
    rcases r.generation.entry?_step w.files w.cache phase with same | bare |
      ⟨time, body, source, rfl, entry⟩
    · exact .inl same
    · refine .inr (.inl fun e known => ?_)
      rw [← bare e known]
      exact ⟨rfl, rfl⟩
    · exact .inr (.inr (.inl ⟨time, body, source, rfl, entry⟩))
  | findBinary source | loadBinary source | compile source =>
    simp only [step]
    split <;> exact .inl rfl
  | cacheBinary source words =>
    cases put : w.cache.apply [⟨r.identity, .binary words⟩] with
    | error fault => exact .inl (by simp only [step, put])
    | ok c' =>
      obtain ⟨e, known, present, entry⟩ := SourceCache.entry?_of_apply_binary put
      refine .inr (.inr (.inr ⟨source, words, e, rfl, known, present, ?_⟩))
      simp only [step, put]
      exact entry
  | storeBinary source words | findGroups source words | finished result => exact .inl rfl

theorem CachesOnly.step (h : r.CachesOnly v w.cache)
    (stores : ∀ time body source, phase = .generate (.store time body source) →
      v.source = .ok source) :
    r.CachesOnly v (r.step w phase).2.cache := by
  intro e text known has
  rcases r.entry?_step w phase with same | bare | ⟨time, body, source, rfl, entry⟩ |
    ⟨source, words, e', rfl, before, _, entry⟩
  · exact h e text (same ▸ known) has
  · exact nomatch (bare e known).1.symm.trans has
  · obtain rfl := Option.some.inj (entry.symm.trans known)
    exact ⟨source, stores time body source rfl, Option.some.inj has⟩
  · obtain rfl := Option.some.inj (entry.symm.trans known)
    exact h e' text before has

/-- Under a cache with no source but that of a view, what is stored over a sound entry is sound: a binary that stands
there was compiled from the same text. -/
private theorem storedOver_of_cachesOnly {time : Int} {body : String} {source : AssembledSource}
    (h : r.CacheIsSound past c) (only : r.CachesOnly ⟨.ok time, .ok body, .ok source⟩ c)
    (seen : past ⟨.ok time, .ok body, .ok source⟩) :
    r.EntryIsSound past (r.generation.storedOver time body source
      ((c.entry? r.identity).getD .empty)) := by
  cases known : c.entry? r.identity with
  | none => exact entryIsSound_storedOver seen rfl
  | some e =>
    refine ⟨fun text has => ⟨time, body, source, seen, rfl, Option.some.inj has, rfl⟩,
      fun stored has => ?_⟩
    obtain ⟨text, from', compiled⟩ := (h e known).binary stored has
    obtain ⟨_, ⟨⟩, rfl⟩ := only e text known from'
    exact ⟨source.text, rfl, compiled⟩

theorem CacheIsSound.step (h : r.CacheIsSound past w.cache) (seen : past v)
    (faithful : phase.IsFaithful r)
    (current : phase.trustsCache → phase.IsCurrent v (r.CachesOnly v w.cache)) :
    r.CacheIsSound past (r.step w phase).2.cache := by
  intro e known
  rcases r.entry?_step w phase with same | bare | ⟨time, body, source, rfl, entry⟩ |
    ⟨source, words, e', rfl, before, present, entry⟩
  · exact h e (same ▸ known)
  · exact r.entryIsSound_of_bare past (bare e known).1 (bare e known).2
  · obtain ⟨rfl, only⟩ := current rfl
    obtain rfl := Option.some.inj (entry.symm.trans known)
    exact storedOver_of_cachesOnly h only seen
  · obtain ⟨⟨made, shown, text⟩, only⟩ := current rfl
    obtain rfl := Option.some.inj (entry.symm.trans known)
    obtain ⟨other, has⟩ := Option.isSome_iff_exists.mp present
    obtain ⟨made', shown', text'⟩ := only e' other before has
    obtain rfl : made = made' := Except.ok.inj (shown.symm.trans shown')
    exact (h e' before).withBinary (has.trans (by rw [← text', text])) faithful _

theorem files_step_of_no_store (w : Workspace) (phase : Phase) (bare : r.store = none) :
    (r.step w phase).2.files = w.files := by
  cases phase with
  | storeBinary source words => simp only [step, filesWith, bare]
  | findBinary source | loadBinary source | compile source | cacheBinary source words =>
    simp only [step]
    split <;> rfl
  | generate phase | findGroups source words | finished result => rfl

theorem StoreIsSound.step (h : r.StoreIsSound w.files) (one : r.identity.stage.IsOne)
    (faithful : phase.IsFaithful r) : r.StoreIsSound (r.step w phase).2.files := by
  cases phase with
  | storeBinary source words => exact h.filesWith one faithful
  | findBinary source | loadBinary source | compile source | cacheBinary source words =>
    simp only [StageRun.step]
    split <;> exact h
  | generate phase => exact h
  | findGroups source words | finished result => exact h

theorem isFaithful_step (h : r.CacheIsSound past w.cache) (store : r.StoreIsSound w.files)
    (stagewise : r.compiler.IsStagewise) (one : r.identity.stage.IsOne)
    (faithful : phase.IsFaithful r)
    (current : phase.trustsCache → phase.IsCurrent v (r.CachesOnly v w.cache)) :
    (r.step w phase).1.IsFaithful r := by
  cases phase with
  | generate phase =>
    have after : ∀ next, (afterGeneration next).IsFaithful r := by
      intro next
      cases next with
      | finished result => cases result <;> trivial
      | _ => trivial
    exact after _
  | findBinary source =>
    simp only [step]
    cases found : w.cache.binary? r.identity with
    | none => trivial
    | some words =>
      obtain ⟨⟨made, shown, rfl⟩, only⟩ := current rfl
      obtain ⟨stored, held, rfl⟩ := Option.map_eq_some_iff.mp found
      obtain ⟨e, known, has⟩ := Option.bind_eq_some_iff.mp held
      obtain ⟨text, beside, compiled⟩ := (h e known).binary stored has
      obtain ⟨made', shown', rfl⟩ := only e text known beside
      obtain rfl : made = made' := Except.ok.inj (shown.symm.trans shown')
      exact compiled
  | loadBinary source =>
    simp only [step]
    rcases store.stored? stagewise one source with missing | ⟨words, held, compiled⟩
    · simp only [missing]
      trivial
    · simp only [held]
      exact compiled
  | compile source =>
    simp only [step]
    cases result : r.compiler.compile (r.request source) with
    | error fault => trivial
    | ok words => exact result
  | storeBinary source words => exact faithful
  | cacheBinary source words =>
    simp only [step]
    split
    · exact faithful
    · trivial
  | findGroups source words => exact faithful
  | finished result => exact faithful

private theorem cachesOnly_of_not_stale {time : Int} (h : r.CacheIsSound past c)
    (dated : ∀ u, past u → u.SameUnlessNewer v) (now : v.time = .ok time)
    (fresh : c.isStale r.identity time = false) : r.CachesOnly v c := by
  intro e text known has
  obtain ⟨recorded, body, source, earlier, marked, rfl, _⟩ := (h e known).source text has
  have old : ¬ recorded < time := by
    simpa [SourceCache.isStale, known, marked] using fresh
  exact ⟨source, (dated _ earlier recorded time rfl now old).2, rfl⟩

private theorem isCurrent_step_generate (h : r.CacheIsSound past w.cache)
    (dated : ∀ u, past u → u.SameUnlessNewer (r.generation.view w.files)) {phase : Generation.Phase}
    (current : (Phase.generate phase).readsTime = false → (Phase.generate phase).IsCurrent
      (r.generation.view w.files) (r.CachesOnly (r.generation.view w.files) w.cache)) :
    (r.step w (.generate phase)).1.IsCurrent (r.generation.view w.files)
      (r.CachesOnly (r.generation.view w.files) (r.step w (.generate phase)).2.cache) := by
  cases phase with
  | readTime =>
    simp only [step, Generation.step]
    cases read : w.files.modificationTime r.generation.request.path with
    | error e => trivial
    | ok time => exact read
  | registerPath time => exact current rfl
  | checkTime time =>
    have now : (r.generation.view w.files).time = .ok time := current rfl
    cases stale : w.cache.isStale r.generation.identity time with
    | true =>
      simp only [step, Generation.step, stale]
      exact now
    | false =>
      simp only [step, Generation.step, stale]
      exact ⟨now, cachesOnly_of_not_stale h dated now stale⟩
  | findSource time =>
    obtain ⟨now, only⟩ := current rfl
    simp only [step, Generation.step]
    cases found : w.cache.fullSource? r.generation.identity with
    | none => exact now
    | some text =>
      obtain ⟨e, known, has⟩ := Option.bind_eq_some_iff.mp found
      exact ⟨only e text known has, only⟩
  | invalidate time =>
    refine ⟨current rfl, fun e text known has => ?_⟩
    cases (SourceCache.bare_of_invalidate known).1.symm.trans has
  | readBody time =>
    obtain ⟨now, only⟩ := current rfl
    simp only [step, Generation.step]
    cases read : w.files.readText r.generation.request.path with
    | error e => trivial
    | ok body => exact ⟨now, read, only⟩
  | assemble time body =>
    obtain ⟨now, text, only⟩ := current rfl
    have source := Generation.view_source_of_body text
    simp only [step, Generation.step]
    cases made : r.generation.request.assemble r.generation.catalog r.generation.options w.files
        body with
    | error e => trivial
    | ok made' => exact ⟨View.ext now text (source.trans made), only⟩
  | store time body source =>
    obtain ⟨shown, only⟩ := current rfl
    have made : (r.generation.view w.files).source = .ok source := by rw [shown]
    have kept : r.CachesOnly (r.generation.view w.files)
        (r.step w (.generate (.store time body source))).2.cache :=
      only.step fun _ _ _ same => by
        cases same
        exact made
    obtain ⟨c', stored, _⟩ := r.generation.apply_storeBatch w.cache time body source
    simp only [step, Generation.step, stored] at kept ⊢
    exact ⟨⟨source, made, rfl⟩, kept⟩
  | finished result => exact (current rfl).elim

/-- What a run holds after a step is current if it was current before or is what the step reads, while no earlier view
contradicts the present one. -/
theorem isCurrent_step (h : r.CacheIsSound past w.cache)
    (dated : ∀ u, past u → u.SameUnlessNewer (r.generation.view w.files))
    (current : phase.readsTime = false →
      phase.IsCurrent (r.generation.view w.files) (r.CachesOnly (r.generation.view w.files) w.cache)) :
    (r.step w phase).1.IsCurrent (r.generation.view w.files)
      (r.CachesOnly (r.generation.view w.files) (r.step w phase).2.cache) := by
  cases phase with
  | generate phase => exact isCurrent_step_generate h dated current
  | findBinary source =>
    have held := current rfl
    simp only [step]
    split
    · trivial
    · exact held
  | loadBinary source =>
    have held := current rfl
    simp only [step]
    split
    · exact held
    · exact held
    · trivial
  | compile source =>
    have held := current rfl
    simp only [step]
    split
    · exact held
    · trivial
  | storeBinary source words => exact current rfl
  | cacheBinary source words =>
    simp only [step]
    split <;> trivial
  | findGroups source words | finished result => trivial

end StageRun

end ShaderPipeline
