import ShaderPipeline.Text.Blank
import ShaderPipeline.Text.Quoted

/-!
Paths as texts with separators.

Nothing is normalised when paths are joined; two paths are the same when their components are, so that
repeated and trailing separators and inner dots do not count.
-/

set_option autoImplicit false
set_option relaxedAutoImplicit false

namespace ShaderPipeline

structure Path where
  text : String
  deriving DecidableEq, Repr, Inhabited

namespace Path

inductive Component where
  /-- The root of the file system, at the start of an absolute path. -/
  | root
  /-- A dot, at the start of a path. -/
  | here
  /-- Two dots. -/
  | up
  /-- Any other name. -/
  | name (text : String)
  deriving DecidableEq, Repr

def segments (p : Path) : List String :=
  Text.splitAt '/' p.text

def isSkipped (segment : String) : Bool :=
  segment == "" || segment == "."

def isAbsolute (p : Path) : Bool :=
  match p.text.toList with
  | '/' :: _ => true
  | _ => false

def Component.ofSegment (segment : String) : Component :=
  if segment == ".." then .up else .name segment

def components (p : Path) : List Component :=
  let later (segments : List String) :=
    (segments.filter (fun s => !isSkipped s)).map Component.ofSegment
  match p.segments with
  | [] => []
  | first :: rest =>
      if p.isAbsolute then .root :: later rest
      else if first == "." then .here :: later rest
      else later (first :: rest)

def same (p q : Path) : Bool :=
  p.components == q.components

/-- A path with another one written after it; an absolute one replaces it. -/
def join (base : Path) (child : String) : Path :=
  if isAbsolute ⟨child⟩ || base.text == "" then ⟨child⟩
  else if base.text.toList.getLast? == some '/' then ⟨base.text ++ child⟩
  else ⟨base.text ++ "/" ++ child⟩

/-- The segments of a path without those at the end that are no components. -/
def dropSkippedEnd (segments : List String) : List String :=
  (segments.reverse.dropWhile isSkipped).reverse

/-- A path without its last component; a root and the empty path have none to lose. -/
def parent? (p : Path) : Option Path :=
  match p.segments with
  | [] => none
  | first :: rest =>
      match dropSkippedEnd rest with
      | [] => if first == "" then none else some ⟨""⟩
      | last =>
          let kept := dropSkippedEnd last.dropLast
          if first == "" && kept.isEmpty then some ⟨"/"⟩
          else some ⟨"/".intercalate (first :: kept)⟩

def fileName? (p : Path) : Option String :=
  match p.components.getLast? with
  | some (.name text) => some text
  | _ => none

def display (p : Path) : String :=
  Text.quoted p.text

end Path

end ShaderPipeline
