import ShaderPipeline.Cache.Basic

/-!
How a batch is worked off.

The changes of a batch are made to copies of the entries that it is about.  Only when all of them are made do the copies
take the places of the entries; a batch that fails before has touched nothing.
-/

set_option autoImplicit false
set_option relaxedAutoImplicit false

namespace ShaderPipeline

/-- The copies that a batch works on, the one changed last first; an entry that is to go is none. -/
abbrev EntryCopies := List (Identity × Option CacheEntry)

namespace SourceCache

/-- The copy of an entry: the one there is, or a new one of what the cache holds. -/
def copyOf (c : SourceCache) (copies : EntryCopies) (i : Identity) : Option CacheEntry :=
  match copies.find? (·.1 == i) with
  | some copy => copy.2
  | none => c.entry? i

/-- Makes changes to copies, counting them from `step`. -/
def stage (c : SourceCache) : Nat → EntryCopies → List CacheOp → Except CacheError EntryCopies
  | _, copies, [] => .ok copies
  | step, copies, op :: ops =>
      match op.change.on (c.copyOf copies op.identity) (c.moment + step) with
      | .ok entry =>
          stage c (step + 1) ((op.identity, entry) :: copies.filter (·.1 != op.identity)) ops
      | .error fault => .error (.batchFailed step op.identity fault)

def commit (c : SourceCache) (copies : EntryCopies) : SourceCache :=
  copies.foldr (fun copy c => c.setEntry copy.1 copy.2) c

def applyStaged (c : SourceCache) (batch : List CacheOp) : Except CacheError Unit × SourceCache :=
  match c.stage 0 [] batch with
  | .ok copies => (.ok (), { c.commit copies with moment := c.moment + batch.length })
  | .error e => (.error e, c)

end SourceCache

end ShaderPipeline
