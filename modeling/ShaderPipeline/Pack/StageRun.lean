import ShaderPipeline.Pack.Error
import ShaderPipeline.Source.Generation
import ShaderPipeline.Store

/-!
Running one stage: its source is generated and compiled, step by step.

A binary in the cache is taken as it is, else one in the store, and only then is the compiler asked.  Each step
reads or changes the cache, the store or a file once, or asks the compiler once, so that steps of several runs
may come between each other.  Main statement: the steps of a run with nothing between them come to the result of
`run`.
-/

set_option autoImplicit false
set_option relaxedAutoImplicit false

namespace ShaderPipeline

/-- What runs work on: the files, the cache, and what compilers were asked for so far. -/
structure Workspace where
  files : FileTree
  cache : SourceCache
  requests : List CompileRequest

structure CompiledStage where
  identity : Identity
  source : String
  binary : Binary
  /-- The resource groups of the source; the place of a group is its descriptor set. -/
  resourceGroups : List String
  deriving DecidableEq, Repr

structure StageRun where
  generation : Generation
  compiler : Compiler
  store : Option BinaryStore

namespace StageRun

inductive Phase where
  | generate (phase : Generation.Phase)
  | findBinary (source : String)
  | loadBinary (source : String)
  | compile (source : String)
  | storeBinary (source : String) (binary : Binary)
  | cacheBinary (source : String) (binary : Binary)
  | findGroups (source : String) (binary : Binary)
  | finished (result : Except PackError CompiledStage)

def identity (r : StageRun) : Identity :=
  r.generation.identity

def request (r : StageRun) (source : String) : CompileRequest :=
  ⟨r.identity, source⟩

def afterGeneration : Generation.Phase → Phase
  | .finished (.ok source) => .findBinary source
  | .finished (.error e) => .finished (.error (.source e))
  | phase => .generate phase

/-- The stored binary of a source; there is none without a store. -/
def stored? (r : StageRun) (files : FileTree) (source : String) :
    Except CacheError (Option Binary) :=
  match r.store with
  | some store => store.get? files r.identity.stage source
  | none => .ok none

/-- The files after the binary of a source was stored; a store that does not take it is left as it is. -/
def filesWith (r : StageRun) (files : FileTree) (source : String) (binary : Binary) : FileTree :=
  match r.store with
  | some store => (store.set files r.identity.stage source binary).toOption.getD files
  | none => files

/-- The compiled stage with the resource groups that the cache has for it. -/
def compiled (r : StageRun) (cache : SourceCache) (source : String) (binary : Binary) :
    CompiledStage :=
  ⟨r.identity, source, binary, (cache.resourceGroups? r.identity).getD []⟩

def step (r : StageRun) (w : Workspace) : Phase → Phase × Workspace
  | .generate phase =>
      let (phase, cache) := r.generation.step w.files w.cache phase
      (afterGeneration phase, { w with cache })
  | .findBinary source =>
      match w.cache.binary? r.identity with
      | some binary => (.findGroups source binary, w)
      | none => (.loadBinary source, w)
  | .loadBinary source =>
      match r.stored? w.files source with
      | .ok (some binary) => (.cacheBinary source binary, w)
      | .ok none => (.compile source, w)
      | .error e => (.finished (.error (.cache e)), w)
  | .compile source =>
      let w := { w with requests := w.requests ++ [r.request source] }
      match r.compiler.compile (r.request source) with
      | .ok binary => (.storeBinary source binary, w)
      | .error e => (.finished (.error (.compile e)), w)
  | .storeBinary source binary =>
      (.cacheBinary source binary, { w with files := r.filesWith w.files source binary })
  | .cacheBinary source binary =>
      match w.cache.apply [⟨r.identity, .binary binary⟩] with
      | .ok cache => (.findGroups source binary, { w with cache })
      | .error e => (.finished (.error (.cache e)), w)
  | .findGroups source binary => (.finished (.ok (r.compiled w.cache source binary)), w)
  | .finished result => (.finished result, w)

def steps (r : StageRun) : Nat → Workspace → Phase → Phase × Workspace
  | 0, w, phase => (phase, w)
  | n + 1, w, phase =>
      let next := r.step w phase
      steps r n next.2 next.1

def keep (r : StageRun) (w : Workspace) (source : String) (binary : Binary) :
    Except PackError CompiledStage × Workspace :=
  match w.cache.apply [⟨r.identity, .binary binary⟩] with
  | .ok cache => (.ok (r.compiled cache source binary), { w with cache })
  | .error e => (.error (.cache e), w)

def compileAnew (r : StageRun) (w : Workspace) (source : String) :
    Except PackError CompiledStage × Workspace :=
  let w := { w with requests := w.requests ++ [r.request source] }
  match r.compiler.compile (r.request source) with
  | .ok binary => r.keep { w with files := r.filesWith w.files source binary } source binary
  | .error e => (.error (.compile e), w)

def compileSource (r : StageRun) (w : Workspace) (source : String) :
    Except PackError CompiledStage × Workspace :=
  match w.cache.binary? r.identity with
  | some binary => (.ok (r.compiled w.cache source binary), w)
  | none =>
      match r.stored? w.files source with
      | .ok (some binary) => r.keep w source binary
      | .ok none => r.compileAnew w source
      | .error e => (.error (.cache e), w)

def run (r : StageRun) (w : Workspace) : Except PackError CompiledStage × Workspace :=
  match r.generation.run w.files w.cache with
  | (.ok source, cache) => r.compileSource { w with cache } source
  | (.error e, cache) => (.error (.source e), { w with cache })

def ended (outcome : Except PackError CompiledStage × Workspace) : Phase × Workspace :=
  (.finished outcome.1, outcome.2)

/-- What is left to do once the generation has come to a result and a cache. -/
def continued (r : StageRun) (w : Workspace) (outcome : Except SourceError String × SourceCache) :
    Except PackError CompiledStage × Workspace :=
  match outcome with
  | (.ok source, cache) => r.compileSource { w with cache } source
  | (.error e, cache) => (.error (.source e), { w with cache })

private theorem steps_next (r : StageRun) (n : Nat) (w : Workspace) (p : Phase) :
    r.steps (n + 1) w p = r.steps n (r.step w p).2 (r.step w p).1 := rfl

private theorem steps_ended (r : StageRun) (n : Nat) (w : Workspace)
    (result : Except PackError CompiledStage) :
    r.steps n w (.finished result) = (.finished result, w) := by
  induction n with
  | zero => rfl
  | succ n ih => rw [steps_next]; exact ih

private theorem steps_cacheBinary (r : StageRun) (n : Nat) (w : Workspace) (source : String)
    (binary : Binary) :
    r.steps (n + 2) w (.cacheBinary source binary) = ended (r.keep w source binary) := by
  rw [steps_next, step, keep]
  cases w.cache.apply [⟨r.identity, .binary binary⟩] with
  | error e => exact steps_ended ..
  | ok cache => exact steps_ended ..

private theorem steps_compile (r : StageRun) (n : Nat) (w : Workspace) (source : String) :
    r.steps (n + 4) w (.compile source) = ended (r.compileAnew w source) := by
  rw [steps_next, step, compileAnew]
  cases r.compiler.compile (r.request source) with
  | error e => exact steps_ended ..
  | ok binary => exact steps_cacheBinary r n ..

private theorem steps_findBinary (r : StageRun) (n : Nat) (w : Workspace) (source : String) :
    r.steps (n + 6) w (.findBinary source) = ended (r.compileSource w source) := by
  rw [steps_next, step, compileSource]
  cases w.cache.binary? r.identity with
  | some binary => exact steps_ended r (n + 4) ..
  | none =>
    simp only
    rw [steps_next, step]
    cases r.stored? w.files source with
    | error e => exact steps_ended ..
    | ok found =>
      cases found with
      | some binary => exact steps_cacheBinary r (n + 2) ..
      | none => exact steps_compile ..

private theorem steps_afterGeneration (r : StageRun) (n : Nat) (w : Workspace)
    (result : Except SourceError String) (cache : SourceCache) :
    r.steps (n + 6) { w with cache } (afterGeneration (.finished result)) =
      ended (r.continued w (result, cache)) := by
  cases result with
  | ok source => exact steps_findBinary ..
  | error e => exact steps_ended ..

private theorem steps_generate (r : StageRun) (n : Nat) (w : Workspace)
    (outcome : Except SourceError String × SourceCache) (k : Nat) (cache : SourceCache)
    (phase : Generation.Phase)
    (h : r.generation.steps w.files k cache phase = Generation.ended outcome) :
    r.steps (k + n + 7) { w with cache } (.generate phase) = ended (r.continued w outcome) := by
  induction k generalizing cache phase with
  | zero =>
    obtain ⟨rfl, rfl⟩ := Prod.mk.inj h
    exact steps_afterGeneration r (0 + n) ..
  | succ k ih =>
    rw [show k + 1 + n + 7 = k + n + 7 + 1 by omega, steps_next, step]
    simp only
    generalize hnext : r.generation.step w.files cache phase = next
    have hrest : r.generation.steps w.files k next.2 next.1 = Generation.ended outcome := by
      rw [← hnext]; exact h
    obtain ⟨phase, cache⟩ := next
    cases phase with
    | finished result =>
      rw [Generation.steps_finished] at hrest
      obtain ⟨hresult, hcache⟩ := Prod.mk.inj hrest
      cases hresult
      cases hcache
      exact steps_afterGeneration r (k + n + 1) ..
    | _ => exact ih _ _ hrest

/-- A run ends within fifteen steps; with nothing between them it comes to the result of `run`. -/
theorem steps_start (r : StageRun) (w : Workspace) :
    r.steps 15 w (.generate .readTime) = ended (r.run w) :=
  steps_generate r 0 w _ 8 w.cache .readTime (Generation.steps_readTime ..)

end StageRun

end ShaderPipeline
