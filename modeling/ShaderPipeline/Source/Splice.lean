import ShaderPipeline.Source.Directive
import ShaderPipeline.Text.Line

/-!
Splicing included files into a body.

Every include directive is replaced by the lines of the file it names, in which includes are spliced in
turn, down to a fixed depth.  Line marks may be written that tell where each line came from.
-/

set_option autoImplicit false
set_option relaxedAutoImplicit false

namespace ShaderPipeline

def includeDepthLimit : Nat := 16

structure IncludePlan where
  /-- Directories that are tried, in order, before the directory of the including file. -/
  searchPaths : List Path
  /-- The directory of library includes. -/
  libraryRoot : Option Path
  /-- Whether line marks are written. -/
  marksLines : Bool

def lineMark (number : Nat) (file : String) : String :=
  s!"#line {number} \"{file}\""

def Path.markName (p : Path) : String :=
  p.fileName?.getD ""

namespace IncludePlan

def candidates (plan : IncludePlan) (target : Include) (includer : Path) : List Path :=
  if target.isLibrary then plan.libraryRoot.toList.map (·.join target.name)
  else (plan.searchPaths ++ includer.parent?.toList).map (·.join target.name)

/-- The file that an include names: the first candidate that is a file. -/
def resolve? (plan : IncludePlan) (files : FileTree) (target : Include) (includer : Path) :
    Option Path :=
  (plan.candidates target includer).find? files.isFile

def fetch (plan : IncludePlan) (files : FileTree) (target : Include) (includer : Path) :
    Except SourceError (Path × String) :=
  match plan.resolve? files target includer with
  | none => .error (.missingInclude target.name includer)
  | some path =>
      match files.readText path with
      | .ok text => .ok (path, text)
      | .error (.pathMissing _) => .error (.missingInclude target.name includer)
      | .error error => .error (.cache error)

/-- The lines of a text with its includes spliced, at most the given number of levels down. -/
def splice (plan : IncludePlan) (files : FileTree) :
    Nat → Path → String → Except SourceError (List String)
  | 0, path, _ => .error (.includesTooDeep path)
  | levels + 1, path, text => do
      let parts ← (Text.lines text).zipIdx.mapM fun (line, index) => do
        match ← (Directive.recognizeInclude line.toList).value? line with
        | none => pure [line]
        | some target =>
            let (found, included) ← plan.fetch files target path
            let inner ← splice plan files levels found included
            if plan.marksLines then
              pure (lineMark 1 found.markName :: inner ++ [lineMark (index + 2) path.markName])
            else pure inner
      pure parts.flatten

def expand (plan : IncludePlan) (files : FileTree) (path : Path) (body : String) :
    Except SourceError String :=
  (plan.splice files (includeDepthLimit + 1) path body).map Text.unlines

end IncludePlan

end ShaderPipeline
