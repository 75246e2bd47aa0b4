import ShaderPipeline.Cache.Entry

/-!
The source cache: entries by identity.

Every operation is one atomic step.  A batch applies its changes in order, or fails at the first that lacks
something and changes nothing.  A disassembly is made between two steps, and is kept only if the binary that
was disassembled is still the one in the cache.
-/

set_option autoImplicit false
set_option relaxedAutoImplicit false

namespace ShaderPipeline

/-- Entries by identity, and a count of the changes made so far, from which new binaries get their handles. -/
structure SourceCache where
  entries : List (Identity × CacheEntry)
  moment : Nat
  deriving DecidableEq, Repr

namespace SourceCache

def empty : SourceCache :=
  ⟨[], 0⟩

def entry? (c : SourceCache) (i : Identity) : Option CacheEntry :=
  (c.entries.find? (·.1 == i)).map (·.2)

def replace (i : Identity) (entry : Option CacheEntry) (entries : List (Identity × CacheEntry)) :
    List (Identity × CacheEntry) :=
  let others := entries.filter (·.1 != i)
  match entry with
  | some e => (i, e) :: others
  | none => others

def setEntry (c : SourceCache) (i : Identity) (entry : Option CacheEntry) : SourceCache :=
  { c with entries := replace i entry c.entries }

def contains (c : SourceCache) (i : Identity) : Bool :=
  (c.entry? i).isSome

def size (c : SourceCache) : Nat :=
  c.entries.length

/-- Applies a batch: all its changes in order, or none. -/
def applyOne (c : SourceCache) (op : CacheOp) : Except BatchFault SourceCache := do
  let entry ← op.change.on (c.entry? op.identity) c.moment
  pure { c.setEntry op.identity entry with moment := c.moment + 1 }

/-- Applies changes in order, counting them from `step`. -/
def applyFrom (step : Nat) (c : SourceCache) : List CacheOp → Except CacheError SourceCache
  | [] => .ok c
  | op :: ops =>
      match c.applyOne op with
      | .ok c => applyFrom (step + 1) c ops
      | .error fault => .error (.batchFailed step op.identity fault)

def apply (c : SourceCache) (batch : List CacheOp) : Except CacheError SourceCache :=
  c.applyFrom 0 batch

def hasBodyPath (entry : Option CacheEntry) (path : Path) : Bool :=
  match entry.bind (·.bodyPath) with
  | some known => known.same path
  | none => false

/-- Registers the body path of a stage; a path that is new to the entry invalidates it. -/
def addBodyPath (c : SourceCache) (i : Identity) (path : Path) : SourceCache :=
  let entry := c.entry? i
  if hasBodyPath entry path then c
  else c.setEntry i (some { CacheEntry.empty with bodyPath := some path })

/-- Drops all artifacts of a stage but its body path. -/
def invalidate (c : SourceCache) (i : Identity) : SourceCache :=
  match c.entry? i with
  | some e => c.setEntry i (some e.invalidated)
  | none => c

def erase (c : SourceCache) (i : Identity) : SourceCache :=
  c.setEntry i none

def fullSource? (c : SourceCache) (i : Identity) : Option String :=
  (c.entry? i).bind (·.fullSource)

def binary? (c : SourceCache) (i : Identity) : Option Binary :=
  ((c.entry? i).bind (·.binary)).map (·.words)

def resourceGroups? (c : SourceCache) (i : Identity) : Option (List String) :=
  match c.entry? i with
  | some e => if e.fullSource.isSome then some e.resourceGroups else none
  | none => none

/-- Whether a body last changed at the given time is newer than the entry of its stage, which it is to an
entry without a time. -/
def isStale (c : SourceCache) (i : Identity) (time : Int) : Bool :=
  match (c.entry? i).bind (·.modified) with
  | some recorded => recorded < time
  | none => true

/-- What a request for a disassembly finds: the text, or the binary to make it from. -/
inductive DisassemblyState where
  | cached (text : String)
  | pending (binary : StoredBinary)

def disassemblyState (c : SourceCache) (i : Identity) : Except CacheError DisassemblyState :=
  match c.entry? i with
  | none => .error (.binaryMissing i)
  | some e =>
      match e.disassembly, e.binary with
      | some text, _ => .ok (.cached text)
      | none, some binary => .ok (.pending binary)
      | none, none => .error (.binaryMissing i)

/-- Keeps the disassembly of a binary, if that binary is still in the cache. -/
def keepDisassembly (c : SourceCache) (i : Identity) (binary : StoredBinary) (text : String) :
    SourceCache :=
  match c.entry? i with
  | none => c
  | some e =>
      if e.binary = some binary then c.setEntry i (some { e with disassembly := some text })
      else c

/-- The disassembly of a stage, made from its binary if it is not cached.  While it is made the cache may
change. -/
def disassemble {ε : Type} (c : SourceCache) (i : Identity) (ofCache : CacheError → ε)
    (make : Binary → SourceCache → Except ε String × SourceCache) :
    Except ε String × SourceCache :=
  match c.disassemblyState i with
  | .error error => (.error (ofCache error), c)
  | .ok (.cached text) => (.ok text, c)
  | .ok (.pending binary) =>
      match make binary.words c with
      | (.ok text, c) => (.ok text, c.keepDisassembly i binary text)
      | (.error error, c) => (.error error, c)

end SourceCache

/-- What the caches of a program are opened under. -/
structure CacheOptions where
  /-- Where binaries are stored; a directory of the platform if none is given. -/
  directory : Option Path
  /-- Whether binaries are stored at all. -/
  persistent : Bool
  deriving Repr

namespace CacheOptions

def standard : CacheOptions :=
  ⟨none, false⟩

/-- Binaries are stored in the directory that an environment variable holds, if it holds one. -/
def ofEnvironment (key : String) (environment : String → Option String) : CacheOptions :=
  match (environment key).filter (· != "") with
  | some directory => ⟨some ⟨directory⟩, true⟩
  | none => standard

end CacheOptions

end ShaderPipeline
