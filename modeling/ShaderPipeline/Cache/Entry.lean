import ShaderPipeline.Cache.Error

/-!
What is cached for one stage, and the changes that can be made to it.

Each artifact is derived from the one before it: body, full source, binary, disassembly.  A change that
stores an artifact needs the one it is derived from.
-/

set_option autoImplicit false
set_option relaxedAutoImplicit false

namespace ShaderPipeline

abbrev Binary := List UInt32

/-- A binary that callers share.  Its handle tells it from others of the same words: it is the moment at which the binary
was stored first. -/
structure StoredBinary where
  words : Binary
  handle : Nat
  deriving DecidableEq, Repr

/-- A binary that is stored at a moment, under the handle that its owner gives or, if there is none yet, a new one. -/
def StoredBinary.stored (words : Binary) (moment : Nat) : Option Nat → StoredBinary
  -- A handle of a moment that is still to come is nobody's yet.
  | some handle => ⟨words, min handle moment⟩
  | none => ⟨words, moment⟩

structure CacheEntry where
  bodyPath : Option Path
  body : Option String
  fullSource : Option String
  binary : Option StoredBinary
  /-- When the body had last been changed as the entry was generated. -/
  modified : Option Int
  disassembly : Option String
  /-- The resource groups of the full source; the place of a group is its descriptor set. -/
  resourceGroups : List String
  deriving DecidableEq, Repr

namespace CacheEntry

def empty : CacheEntry :=
  ⟨none, none, none, none, none, none, []⟩

/-- An entry that keeps nothing but its body path. -/
def invalidated (e : CacheEntry) : CacheEntry :=
  { empty with bodyPath := e.bodyPath }

end CacheEntry

inductive CacheChange where
  | bodyPath (path : Path)
  | body (text : String)
  | fullSource (text : String) (resourceGroups : List String)
  /-- Stores a binary: one that others have too if a handle is given, else one that is newly made. -/
  | binary (words : Binary) (handle : Option Nat := none)
  | modified (time : Int)
  | disassembly (text : String)
  | invalidate
  | erase
  deriving DecidableEq, Repr

namespace CacheChange

def onEntry (entry : Option CacheEntry) (has : CacheEntry → Bool) (fault : BatchFault)
    (change : CacheEntry → CacheEntry) : Except BatchFault (Option CacheEntry) :=
  match entry with
  | some e => if has e then .ok (some (change e)) else .error fault
  | none => .error fault

/-- The entry after a change made at a moment, or what the change lacks. -/
def on (entry : Option CacheEntry) (moment : Nat) :
    CacheChange → Except BatchFault (Option CacheEntry)
  | bodyPath path => .ok (some { entry.getD .empty with bodyPath := some path })
  | body text =>
      onEntry entry (·.bodyPath.isSome) .noBodyPath fun e => { e with body := some text }
  | fullSource text groups =>
      onEntry entry (·.body.isSome) .noBody fun e =>
        { e with fullSource := some text, resourceGroups := groups }
  | binary words handle =>
      onEntry entry (·.fullSource.isSome) .noFullSource fun e =>
        { e with binary := some (.stored words moment handle), disassembly := none }
  | modified time =>
      onEntry entry (fun _ => true) .noEntry fun e => { e with modified := some time }
  | disassembly text =>
      onEntry entry (·.binary.isSome) .noBinary fun e => { e with disassembly := some text }
  | invalidate => .ok (entry.map .invalidated)
  | erase => .ok none

end CacheChange

structure CacheOp where
  identity : Identity
  change : CacheChange
  deriving DecidableEq, Repr

end ShaderPipeline
