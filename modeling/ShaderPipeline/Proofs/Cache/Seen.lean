import ShaderPipeline.Proofs.Pack.StageOutcome

/-!
What is seen of cached entries.

The handle of a binary tells it from others of the same words, but nobody reads it.  Two entries that differ in nothing
else are seen the same, and every operation on the entry of an identity leads from entries that are seen the
same to such entries, with the same result.
-/

set_option autoImplicit false
set_option relaxedAutoImplicit false

namespace ShaderPipeline

open Outcome

def CacheEntry.timeless (e : CacheEntry) : CacheEntry :=
  { e with binary := e.binary.map fun stored => ⟨stored.words, 0⟩ }

private theorem CacheChange.on_timeless (change : CacheChange) (entry : Option CacheEntry) (moment : Nat) :
    (change.on entry moment).map (·.map CacheEntry.timeless) =
      (change.on (entry.map CacheEntry.timeless) 0).map (·.map CacheEntry.timeless) := by
  cases entry with
  | none => cases change <;> rfl
  | some e =>
    obtain ⟨bodyPath, body, fullSource, binary, modified, disassembly, groups⟩ := e
    cases change with
    | binary words handle => cases fullSource <;> cases handle <;> rfl
    | disassembly text => cases binary <;> rfl
    | body text => cases bodyPath <;> cases binary <;> rfl
    | fullSource text groups => cases body <;> cases binary <;> rfl
    | modified time => cases binary <;> rfl
    | bodyPath path => cases binary <;> rfl
    | invalidate => rfl
    | erase => rfl

namespace SourceCache

variable {c c' : SourceCache} {i : Identity}

def seen (c : SourceCache) (i : Identity) : Option CacheEntry :=
  (c.entry? i).map CacheEntry.timeless

theorem fullSource?_eq (c : SourceCache) (i : Identity) : c.fullSource? i = (c.seen i).bind (·.fullSource) := by
  rw [fullSource?, seen]
  cases c.entry? i <;> rfl

theorem binary?_eq (c : SourceCache) (i : Identity) :
    c.binary? i = ((c.seen i).bind (·.binary)).map (·.words) := by
  rw [binary?, seen]
  cases c.entry? i with
  | none => rfl
  | some e => simp [CacheEntry.timeless, Function.comp_def]

theorem resourceGroups?_eq (c : SourceCache) (i : Identity) : c.resourceGroups? i =
    (c.seen i).bind fun e => if e.fullSource.isSome then some e.resourceGroups else none := by
  rw [resourceGroups?, seen]
  cases c.entry? i <;> rfl

theorem isStale_eq (c : SourceCache) (i : Identity) (time : Int) : c.isStale i time =
    match (c.seen i).bind (·.modified) with
    | some recorded => decide (recorded < time)
    | none => true := by
  rw [isStale, seen]
  cases c.entry? i <;> rfl

theorem seen_addBodyPath (c : SourceCache) (i : Identity) (path : Path) : seen (c.addBodyPath i path) i =
    if hasBodyPath (c.seen i) path then c.seen i else some { CacheEntry.empty with bodyPath := some path } := by
  have known : hasBodyPath (c.seen i) path = hasBodyPath (c.entry? i) path := by
    rw [seen]
    cases c.entry? i <;> rfl
  rw [known, seen, entry?_addBodyPath]
  split <;> rfl

theorem seen_invalidate (c : SourceCache) (i : Identity) :
    seen (c.invalidate i) i = (c.seen i).map CacheEntry.invalidated := by
  rw [seen, entry?_invalidate, seen]
  cases c.entry? i <;> rfl

private theorem applyFrom_seen {n : Nat} {batch : List CacheOp} (own : ∀ op ∈ batch, op.identity = i)
    (same : c'.seen i = c.seen i) :
    (applyFrom n c' batch).map (·.seen i) = (applyFrom n c batch).map (·.seen i) := by
  induction batch generalizing n c c' with
  | nil => exact congrArg Except.ok same
  | cons op ops ih =>
    obtain ⟨first, later⟩ := List.forall_mem_cons.mp own
    have changed : (op.change.on (c'.entry? i) c'.moment).map (·.map CacheEntry.timeless) =
        (op.change.on (c.entry? i) c.moment).map (·.map CacheEntry.timeless) := by
      rw [CacheChange.on_timeless, op.change.on_timeless (c.entry? i)]
      exact congrArg (fun seen => (op.change.on seen 0).map (·.map CacheEntry.timeless)) same
    simp only [applyFrom, applyOne, first, bind, Except.bind, pure, Except.pure]
    cases made' : op.change.on (c'.entry? i) c'.moment with
    | error fault' =>
      cases made : op.change.on (c.entry? i) c.moment with
      | error fault =>
        rw [made', made] at changed
        obtain rfl := Except.error.inj changed
        rfl
      | ok entry =>
        rw [made', made] at changed
        cases changed
    | ok entry' =>
      cases made : op.change.on (c.entry? i) c.moment with
      | error fault =>
        rw [made', made] at changed
        cases changed
      | ok entry =>
        rw [made', made] at changed
        have after : entry'.map CacheEntry.timeless = entry.map CacheEntry.timeless := Except.ok.inj changed
        have put : ∀ (c : SourceCache) (entry : Option CacheEntry),
            seen { c.setEntry i entry with moment := c.moment + 1 } i = entry.map CacheEntry.timeless := by
          intro c entry
          exact congrArg (·.map CacheEntry.timeless) (entry?_setEntry.trans (if_pos rfl))
        exact ih later ((put c' entry').trans (after.trans (put c entry).symm))

private theorem apply_seen {batch : List CacheOp} (own : ∀ op ∈ batch, op.identity = i)
    (same : c'.seen i = c.seen i) : (c'.apply batch).map (·.seen i) = (c.apply batch).map (·.seen i) :=
  applyFrom_seen own same

/-- A batch about an identity leads from entries that are seen the same to such entries, or fails in the same way. -/
theorem apply_seen_cases {batch : List CacheOp} (own : ∀ op ∈ batch, op.identity = i)
    (same : c'.seen i = c.seen i) :
    (∃ e, c'.apply batch = .error e ∧ c.apply batch = .error e) ∨
      ∃ after' after : SourceCache, c'.apply batch = .ok after' ∧ c.apply batch = .ok after ∧
        after'.seen i = after.seen i := by
  have alike := apply_seen own same
  cases done' : c'.apply batch with
  | error e' =>
    cases done : c.apply batch with
    | error e =>
      rw [done', done] at alike
      obtain rfl := Except.error.inj alike
      exact .inl ⟨e', rfl, rfl⟩
    | ok after =>
      rw [done', done] at alike
      cases alike
  | ok after' =>
    cases done : c.apply batch with
    | error e =>
      rw [done', done] at alike
      cases alike
    | ok after =>
      rw [done', done] at alike
      exact .inr ⟨after', after, rfl, rfl, Except.ok.inj alike⟩

end SourceCache

end ShaderPipeline
