import ShaderPipeline.Cache.Basic
import ShaderPipeline.Source.Assembly

/-!
Generating the source of a stage through the cache, step by step.

Each step reads one file or makes one atomic change to the cache, so that steps of several generations, and
changes to the files, may come between each other.  A cached source is returned while the body is no newer
than it was when the source was made.  Otherwise everything derived from the body is dropped first, and the new
source is stored together with the time of the body that was read before it.  Main statement: the steps of a
generation with nothing between them come to the result of `run`.
-/

set_option autoImplicit false
set_option relaxedAutoImplicit false

namespace ShaderPipeline

structure Generation where
  identity : Identity
  request : StageRequest
  catalog : Catalog
  options : SourceOptions

namespace Generation

inductive Phase where
  | readTime
  | registerPath (time : Int)
  | checkTime (time : Int)
  | findSource (time : Int)
  | invalidate (time : Int)
  | readBody (time : Int)
  | assemble (time : Int) (body : String)
  | store (time : Int) (body : String) (source : AssembledSource)
  | finished (result : Except SourceError String)

def storeBatch (g : Generation) (time : Int) (body : String) (source : AssembledSource) :
    List CacheOp :=
  [⟨g.identity, .bodyPath g.request.path⟩, ⟨g.identity, .body body⟩,
    ⟨g.identity, .fullSource source.text source.resourceGroups⟩, ⟨g.identity, .modified time⟩]

def step (g : Generation) (files : FileTree) (cache : SourceCache) : Phase → Phase × SourceCache
  | .readTime =>
      match files.modificationTime g.request.path with
      | .ok time => (.registerPath time, cache)
      | .error e => (.finished (.error (.ofBodyAccess g.request.path e)), cache)
  | .registerPath time => (.checkTime time, cache.addBodyPath g.identity g.request.path)
  | .checkTime time =>
      (if cache.isStale g.identity time then .invalidate time else .findSource time, cache)
  | .findSource time =>
      match cache.fullSource? g.identity with
      | some source => (.finished (.ok source), cache)
      | none => (.invalidate time, cache)
  | .invalidate time => (.readBody time, cache.invalidate g.identity)
  | .readBody time =>
      match files.readText g.request.path with
      | .ok body => (.assemble time body, cache)
      | .error e => (.finished (.error (.ofBodyAccess g.request.path e)), cache)
  | .assemble time body =>
      match g.request.assemble g.catalog g.options files body with
      | .ok source => (.store time body source, cache)
      | .error e => (.finished (.error e), cache)
  | .store time body source =>
      match cache.apply (g.storeBatch time body source) with
      | .ok cache => (.finished (.ok source.text), cache)
      | .error e => (.finished (.error (.cache e)), cache)
  | .finished result => (.finished result, cache)

def steps (g : Generation) (files : FileTree) : Nat → SourceCache → Phase → Phase × SourceCache
  | 0, cache, phase => (phase, cache)
  | n + 1, cache, phase =>
      let next := g.step files cache phase
      steps g files n next.2 next.1

/-- The new source of a stage, whose body was last changed at `time`, stored in the cache. -/
def regenerate (g : Generation) (files : FileTree) (cache : SourceCache) (time : Int) :
    Except SourceError String × SourceCache :=
  match files.readText g.request.path with
  | .error e => (.error (.ofBodyAccess g.request.path e), cache)
  | .ok body =>
      match g.request.assemble g.catalog g.options files body with
      | .error e => (.error e, cache)
      | .ok source =>
          match cache.apply (g.storeBatch time body source) with
          | .ok cache => (.ok source.text, cache)
          | .error e => (.error (.cache e), cache)

/-- The cached source of a stage, unless its body was last changed after the source was made. -/
def freshSource? (g : Generation) (cache : SourceCache) (time : Int) : Option String :=
  if cache.isStale g.identity time then none else cache.fullSource? g.identity

/-- The source of a stage, from the cache or new, when nothing comes between the steps. -/
def run (g : Generation) (files : FileTree) (cache : SourceCache) :
    Except SourceError String × SourceCache :=
  match files.modificationTime g.request.path with
  | .error e => (.error (.ofBodyAccess g.request.path e), cache)
  | .ok time =>
      let cache := cache.addBodyPath g.identity g.request.path
      match g.freshSource? cache time with
      | some source => (.ok source, cache)
      | none => g.regenerate files (cache.invalidate g.identity) time

def ended (outcome : Except SourceError String × SourceCache) : Phase × SourceCache :=
  (.finished outcome.1, outcome.2)

private theorem steps_succ (g : Generation) (files : FileTree) (n : Nat) (cache : SourceCache)
    (p : Phase) :
    g.steps files (n + 1) cache p =
      g.steps files n (g.step files cache p).2 (g.step files cache p).1 := rfl

theorem steps_finished (g : Generation) (files : FileTree) (n : Nat) (cache : SourceCache)
    (result : Except SourceError String) :
    g.steps files n cache (.finished result) = (.finished result, cache) := by
  induction n with
  | zero => rfl
  | succ n ih => rw [steps_succ]; exact ih

private theorem steps_readBody (g : Generation) (files : FileTree) (n : Nat) (cache : SourceCache)
    (time : Int) :
    g.steps files (n + 3) cache (.readBody time) = ended (g.regenerate files cache time) := by
  rw [steps_succ, step, regenerate]
  cases files.readText g.request.path with
  | error e => exact steps_finished ..
  | ok body =>
    simp only
    rw [steps_succ, step]
    cases g.request.assemble g.catalog g.options files body with
    | error e => exact steps_finished ..
    | ok source =>
      simp only
      rw [steps_succ, step]
      cases cache.apply (g.storeBatch time body source) with
      | error e => exact steps_finished ..
      | ok cache => exact steps_finished ..

private theorem steps_checkTime (g : Generation) (files : FileTree) (n : Nat) (cache : SourceCache)
    (time : Int) :
    g.steps files (n + 6) cache (.checkTime time) =
      ended (match g.freshSource? cache time with
        | some source => (.ok source, cache)
        | none => g.regenerate files (cache.invalidate g.identity) time) := by
  rw [steps_succ, step, freshSource?]
  cases cache.isStale g.identity time with
  | true => exact steps_readBody g files (n + 1) (cache.invalidate g.identity) time
  | false =>
    simp only [Bool.false_eq_true, if_false]
    rw [steps_succ, step]
    cases cache.fullSource? g.identity with
    | some source => exact steps_finished ..
    | none => exact steps_readBody g files n (cache.invalidate g.identity) time

/-- A generation ends within eight steps; with nothing between them it comes to the result of `run`. -/
theorem steps_readTime (g : Generation) (files : FileTree) (cache : SourceCache) :
    g.steps files 8 cache .readTime = ended (g.run files cache) := by
  rw [steps_succ, step, run]
  cases files.modificationTime g.request.path with
  | error e => exact steps_finished ..
  | ok time => exact steps_checkTime g files 0 (cache.addBodyPath g.identity g.request.path) time

end Generation

end ShaderPipeline
