import ShaderPipeline.Proofs.Pack.StageOutcome

/-!
What a generation leaves in the cache.

A generation touches the entry of its own stage only.  If the time of the body cannot be read it touches nothing; if what
is cached serves, it hands that out and touches nothing either.  Otherwise it drops what was cached, and then the entry
is left with no more than its path or with all that belongs to the new source.  Main statement: which of these ends a
generation comes to, and what its entry then holds.
-/

set_option autoImplicit false
set_option relaxedAutoImplicit false

namespace ShaderPipeline

namespace SourceCache

variable {c : SourceCache} {i : Identity} {path : Path}

/-- Whether an entry holds a path, or one with the same components, and nothing else. -/
def HoldsOnlyPath (entry : Option CacheEntry) (path : Path) : Prop :=
  ∃ known, known.same path = true ∧ entry = some { CacheEntry.empty with bodyPath := some known }

private theorem hasBodyPath_eq_true {e : CacheEntry} :
    hasBodyPath (some e) path = true ↔ ∃ known, e.bodyPath = some known ∧ known.same path = true := by
  cases registered : e.bodyPath <;> simp [hasBodyPath, registered]

private theorem exists_entry?_addBodyPath (c : SourceCache) (i : Identity) (path : Path) :
    ∃ e, entry? (c.addBodyPath i path) i = some e ∧ hasBodyPath (some e) path = true := by
  rw [entry?_addBodyPath]
  split
  · rename_i has
    cases known : c.entry? i with
    | none =>
      rw [known] at has
      cases has
    | some e => exact ⟨e, rfl, known ▸ has⟩
  · exact ⟨_, rfl, hasBodyPath_self rfl⟩

private theorem holdsOnlyPath_cleared (c : SourceCache) (i : Identity) (path : Path) :
    HoldsOnlyPath ( entry? ((c.addBodyPath i path).invalidate i) i) path := by
  obtain ⟨e, held, has⟩ := c.exists_entry?_addBodyPath i path
  obtain ⟨known, registered, same⟩ := hasBodyPath_eq_true.mp has
  refine ⟨known, same, ?_⟩
  rw [entry?_invalidate, held, Option.map_some, CacheEntry.invalidated, registered]

end SourceCache

namespace Generation

variable {g : Generation} {files : FileTree} {c : SourceCache} {time : Int} {text : String}

def newEntry (g : Generation) (time : Int) (body : String) (source : AssembledSource) : CacheEntry where
  bodyPath := some g.request.path
  body := some body
  fullSource := some source.text
  binary := none
  modified := some time
  disassembly := none
  resourceGroups := source.resourceGroups

private theorem regenerate_of_holdsOnlyPath {body : String} {source : AssembledSource}
    (bare : SourceCache.HoldsOnlyPath (c.entry? g.identity) g.request.path)
    (read : files.readText g.request.path = .ok body)
    (made : g.request.assemble g.catalog g.options files body = .ok source) :
    ∃ c', g.regenerate files c time = (.ok source.text, c') ∧
      c'.entry? g.identity = some (g.newEntry time body source) := by
  obtain ⟨c', stored, entry⟩ := g.apply_storeBatch c time body source
  obtain ⟨known, _, held⟩ := bare
  refine ⟨c', by simp only [regenerate, read, made, stored], ?_⟩
  rw [entry, held]
  rfl

private theorem entry?_steps_of_ne (g : Generation) (files : FileTree) (n : Nat) (c : SourceCache) (phase : Phase)
    {j : Identity} (other : j ≠ g.identity) :
    SourceCache.entry? (g.steps files n c phase).2 j = c.entry? j := by
  induction n generalizing c phase with
  | zero => rfl
  | succ n ih => exact (ih _ _).trans (g.entry?_step_of_ne files c phase other)

private theorem entry?_run_of_ne (g : Generation) (files : FileTree) (c : SourceCache) {j : Identity}
    (other : j ≠ g.identity) : SourceCache.entry? (g.run files c).2 j = c.entry? j := by
  have whole := g.entry?_steps_of_ne files 8 c .readTime other
  rwa [steps_readTime] at whole

private theorem modificationTime_of_missing (path : Path) (absent : files.node path = .error .missing) :
    files.modificationTime path = .error (.pathMissing path) := by
  rw [FileTree.modificationTime, FileTree.modified, absent]
  rfl

/-- A generation leaves the entries of all other stages.  Its own entry it leaves alone, with the whole cache, if the
time of the body cannot be read or a cached source serves; otherwise the entry holds only its path if the body cannot be
read or no source can be made of it, and else exactly what belongs to the new source. -/
theorem run_remains (g : Generation) (files : FileTree) (c : SourceCache) :
    (∀ j ≠ g.identity, SourceCache.entry? (g.run files c).2 j = c.entry? j) ∧
    (files.node g.request.path = .error .missing →
      g.run files c = (.error (.missingBody g.request.path), c)) ∧
    match files.modificationTime g.request.path with
    | .error e => g.run files c = (.error (.ofBodyAccess g.request.path e), c)
    | .ok time =>
      (∃ text, g.IsServed c time text ∧ g.run files c = (.ok text, c)) ∨
      (¬ ∃ text, g.IsServed c time text) ∧
        let entry := SourceCache.entry? (g.run files c).2 g.identity
        match files.readText g.request.path with
        | .error e =>
          (g.run files c).1 = .error (.ofBodyAccess g.request.path e) ∧
            SourceCache.HoldsOnlyPath entry g.request.path
        | .ok body =>
          match g.request.assemble g.catalog g.options files body with
          | .error e => (g.run files c).1 = .error e ∧ SourceCache.HoldsOnlyPath entry g.request.path
          | .ok source =>
            (g.run files c).1 = .ok source.text ∧ entry = some (g.newEntry time body source) := by
  refine ⟨fun j => g.entry?_run_of_ne files c, fun absent => ?_, ?_⟩
  · simp only [run, modificationTime_of_missing g.request.path absent]
    rfl
  · cases read : files.modificationTime g.request.path with
    | error e => simp only [run, read]
    | ok time =>
      by_cases served : ∃ text, g.IsServed c time text
      · obtain ⟨text, served⟩ := served
        exact .inl ⟨text, served, run_of_served read served⟩
      · refine .inr ⟨served, ?_⟩
        have bare := c.holdsOnlyPath_cleared g.identity g.request.path
        rw [run_of_not_served read served]
        cases held : files.readText g.request.path with
        | error e =>
          simp only [regenerate, held]
          exact ⟨trivial, bare⟩
        | ok body =>
          cases made : g.request.assemble g.catalog g.options files body with
          | error e =>
            simp only [regenerate, held, made]
            exact ⟨trivial, bare⟩
          | ok source =>
            obtain ⟨c', comes, entry⟩ :=
              @regenerate_of_holdsOnlyPath g files _ time body source bare held made
            simp only [made, comes]
            exact ⟨trivial, entry⟩

end Generation

end ShaderPipeline
