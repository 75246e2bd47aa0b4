import ShaderPipeline.Catalog.Document
import ShaderPipeline.Pack.StageRun
import ShaderPipeline.Spirv.Listing

/-!
Packs: the shaders of a catalog, processed with one compiler.

All stages of a shader are run, then those that were compiled are folded into its tables in the order of their
declaration.  A stage that fails is reported and withheld, and the others go on; but an error that stops the
whole pipeline leaves no processed shader.
-/

set_option autoImplicit false
set_option relaxedAutoImplicit false

namespace ShaderPipeline

/-- What the sources of a pack are generated under. -/
structure PackOptions where
  source : SourceOptions
  cache : CacheOptions
  /-- Where includes are looked for. -/
  includePaths : List Path
  deriving Repr

/-- A catalog with what its shaders are processed with. -/
structure Pack where
  catalog : Catalog
  compiler : Compiler
  options : PackOptions
  store : Option BinaryStore

/-- A processed shader: its tables, the stages that were folded in, and the errors of the others. -/
structure ProcessedShader where
  shader : Shader
  stages : List CompiledStage
  errors : Session
  deriving DecidableEq

namespace ProcessedShader

def start (g : ShaderGroup) : ProcessedShader :=
  ⟨.ofGroup g, [], .empty⟩

def hasStage (p : ProcessedShader) (stage : StageSet) : Bool :=
  p.stages.any (·.identity.stage == stage)

def withheldReport (i : Identity) : Diagnostic :=
  ⟨.stageWithheld, s!"{i.display} was withheld"⟩

def withhold {ε : Type} [Reportable ε] (p : ProcessedShader) (i : Identity) (e : ε) :
    ProcessedShader :=
  { p with errors := (p.errors.report e).add (withheldReport i) }

def fold (c : Catalog) (g : ShaderGroup) (p : ProcessedShader)
    (ran : StageSource × Except PackError CompiledStage) : ProcessedShader :=
  let i := Identity.ofName g.name ran.1.stage
  match ran.2 with
  | .error e => p.withhold i e
  | .ok compiled =>
      match p.shader.parse ⟨c, g.name, compiled.resourceGroups⟩ i compiled.binary with
      | .ok shader => { p with shader, stages := p.stages ++ [compiled] }
      | .error e => p.withhold i e

/-- The processed shader, unless an error stops the whole pipeline. -/
def finish (name : String) (p : ProcessedShader) : Except PackError ProcessedShader :=
  match p.errors.firstFatal? with
  | some diagnostic => .error (.aborted name diagnostic)
  | none => .ok p

end ProcessedShader

/-- The names by which a program finds its folders. -/
structure Installation where
  /-- The name of its folder among the caches of the platform. -/
  folder : String
  /-- The name of its database files. -/
  database : String
  /-- The environment variable with the root of the include library. -/
  libraryVariable : String
  /-- The environment variable with the directory of the store. -/
  storeVariable : String
  deriving Repr

namespace Installation

/-- The folder for caches: in the directory that the platform names for them, if it names one by an absolute
path, else in the home directory, else in the working directory. -/
def cacheFolder (n : Installation) (environment : String → Option String) : Path :=
  match (environment "XDG_CACHE_HOME").filter (Path.isAbsolute ⟨·⟩), environment "HOME" with
  | some caches, _ => Path.join ⟨caches⟩ n.folder
  | none, some home => (Path.join ⟨home⟩ ".cache").join n.folder
  | none, none => ⟨n.folder⟩

def options (n : Installation) (environment : String → Option String) : PackOptions :=
  ⟨.ofEnvironment n.libraryVariable environment, .ofEnvironment n.storeVariable environment, []⟩

def openStore (n : Installation) (environment : String → Option String) (o : CacheOptions)
    (files : FileTree) : Except CacheError (Option BinaryStore) × FileTree :=
  if o.persistent then
    let (store, files) :=
      BinaryStore.openIn files (o.directory.getD (n.cacheFolder environment)) n.database
    (store.map some, files)
  else (.ok none, files)

end Installation

namespace Pack

def openWith (n : Installation) (environment : String → Option String) (files : FileTree)
    (catalog : Catalog) (compiler : Compiler) (options : PackOptions) :
    Except PackError Pack × FileTree :=
  let (store, files) := n.openStore environment options.cache files
  ((store.map (⟨catalog, compiler, options, ·⟩)).mapError .cache, files)

def load (n : Installation) (environment : String → Option String) (files : FileTree)
    (path : Path) (compiler : Compiler) (options : PackOptions) :
    Except PackError Pack × FileTree :=
  match Catalog.load files path with
  | .ok catalog => openWith n environment files catalog compiler options
  | .error e => (.error (.catalog e), files)

def close (p : Pack) (files : FileTree) : FileTree :=
  p.store.elim files (·.close files)

def stageRun (p : Pack) (g : ShaderGroup) (s : StageSource) : StageRun :=
  { generation :=
      { identity := .ofName g.name s.stage
        request := ⟨g, s.stage, s.body, [], p.options.includePaths⟩
        catalog := p.catalog
        options := p.options.source }
    compiler := p.compiler
    store := p.store }

def runStages (p : Pack) (g : ShaderGroup) :
    List StageSource → Workspace → List (StageSource × Except PackError CompiledStage) × Workspace
  | [], w => ([], w)
  | s :: rest, w =>
      let (result, w) := (p.stageRun g s).run w
      let (results, w) := runStages p g rest w
      ((s, result) :: results, w)

/-- Processes a shader: runs its stages, then folds in those that were compiled. -/
def processGroup (p : Pack) (g : ShaderGroup) (w : Workspace) :
    Except PackError ProcessedShader × Workspace :=
  let (results, w) := p.runStages g g.stages w
  ((results.foldl (ProcessedShader.fold p.catalog g) (.start g)).finish g.name, w)

def process (p : Pack) (name : String) (w : Workspace) :
    Except PackError ProcessedShader × Workspace :=
  match p.catalog.shaderGroup? name with
  | some g => p.processGroup g w
  | none => (.error (.shaderNotFound name), w)

def processEach (p : Pack) :
    List String → Workspace → Except PackError (List ProcessedShader) × Workspace
  | [], w => (.ok [], w)
  | name :: rest, w =>
      match p.process name w with
      | (.error e, w) => (.error e, w)
      | (.ok processed, w) =>
          let (others, w) := processEach p rest w
          (others.map (processed :: ·), w)

/-- Processes every shader of the catalog, in order, up to the first error. -/
def processAll (p : Pack) (w : Workspace) :
    Except PackError (List ProcessedShader) × Workspace :=
  p.processEach (p.catalog.shaderGroups.map (·.name)) w

/-- The text of a binary: what the compiler makes of it, else a listing. -/
def textOf (p : Pack) (stage : StageSet) (binary : Binary) : Except PackError String :=
  match p.compiler.recompile stage binary with
  | .ok text => .ok text
  | .error .cannotRecompile =>
      (Spirv.Module.listingOfWords binary).mapError fun fault => .reflection (.malformed fault)
  | .error e => .error (.compile e)

def disassembly (p : Pack) (i : Identity) (w : Workspace) :
    Except PackError String × Workspace :=
  let (result, cache) := w.cache.disassemble i .cache fun binary cache =>
    (p.textOf i.stage binary, cache)
  (result, { w with cache })

end Pack

end ShaderPipeline
