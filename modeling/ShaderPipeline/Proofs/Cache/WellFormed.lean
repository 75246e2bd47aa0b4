import ShaderPipeline.Proofs.Cache.Batches

/-!
Entries are always well formed.

Every entry has a body path, and each artifact in it stands beside the one that it is derived from.  A change of a batch
keeps this, and so does every other operation.  While a disassembly is made the cache may be changed by the maker itself,
which may ask for further disassemblies, or by others.  Main statement: whatever operations lead from the empty cache to
another one, all entries of that cache are well formed.
-/

set_option autoImplicit false
set_option relaxedAutoImplicit false

namespace ShaderPipeline

/-- Whether an entry has a path and nothing in it lacks what it is derived from. -/
structure CacheEntry.IsWellFormed (e : CacheEntry) : Prop where
  path : e.bodyPath.isSome
  body_of_source : e.fullSource.isSome → e.body.isSome
  source_of_binary : e.binary.isSome → e.fullSource.isSome
  binary_of_disassembly : e.disassembly.isSome → e.binary.isSome
  source_of_groups : e.resourceGroups ≠ [] → e.fullSource.isSome

namespace SourceCache

/-- Whether all entries of a cache are well formed. -/
def IsWellFormed (c : SourceCache) : Prop :=
  ∀ i e, (i, e) ∈ c.entries → e.IsWellFormed

/-- Whether operations lead from a cache to another one.  A disassembly is one of them if what its maker does to the
cache is made up of operations. -/
inductive LeadsTo : SourceCache → SourceCache → Prop
  | refl (c : SourceCache) : LeadsTo c c
  | apply {c d : SourceCache} (batch : List CacheOp) (before : LeadsTo c d) :
      LeadsTo c (d.applyStaged batch).2
  | addBodyPath {c d : SourceCache} (i : Identity) (path : Path) (before : LeadsTo c d) :
      LeadsTo c (d.addBodyPath i path)
  | invalidate {c d : SourceCache} (i : Identity) (before : LeadsTo c d) : LeadsTo c (d.invalidate i)
  | erase {c d : SourceCache} (i : Identity) (before : LeadsTo c d) : LeadsTo c (d.erase i)
  | disassemble {c d : SourceCache} {ε : Type} (i : Identity) (ofCache : CacheError → ε)
      (make : Binary → SourceCache → Except ε String × SourceCache)
      (meanwhile : ∀ words, LeadsTo d (make words d).2) (before : LeadsTo c d) :
      LeadsTo c (d.disassemble i ofCache make).2

end SourceCache

namespace CacheEntry

variable {e : CacheEntry} {path : Path}

private theorem isWellFormed_bare (path : Path) : IsWellFormed { empty with bodyPath := some path } :=
  ⟨rfl, nofun, nofun, nofun, fun groups => absurd rfl groups⟩

theorem IsWellFormed.invalidated (h : e.IsWellFormed) : e.invalidated.IsWellFormed :=
  ⟨h.path, nofun, nofun, nofun, fun groups => absurd rfl groups⟩

private theorem IsWellFormed.withDisassembly (h : e.IsWellFormed) (binary : e.binary.isSome) (text : String) :
    IsWellFormed { e with disassembly := some text } :=
  { h with binary_of_disassembly := fun _ => binary }

theorem IsWellFormed.on {entry : Option CacheEntry} {moment : Nat} {change : CacheChange} {e' : CacheEntry}
    (h : ∀ e, entry = some e → e.IsWellFormed) (changed : change.on entry moment = .ok (some e')) :
    e'.IsWellFormed := by
  cases change with
  | bodyPath path =>
    obtain rfl := Option.some.inj (Except.ok.inj changed)
    cases entry with
    | none => exact isWellFormed_bare path
    | some e => exact { h e rfl with path := rfl }
  | body text =>
    obtain ⟨e, rfl, _, ⟨⟩⟩ := CacheChange.onEntry_eq_ok.mp changed
    exact { h e rfl with body_of_source := fun _ => rfl }
  | fullSource text groups =>
    obtain ⟨e, rfl, body, ⟨⟩⟩ := CacheChange.onEntry_eq_ok.mp changed
    exact { h e rfl with
      body_of_source := fun _ => body
      source_of_binary := fun _ => rfl
      source_of_groups := fun _ => rfl }
  | binary words =>
    obtain ⟨e, rfl, source, ⟨⟩⟩ := CacheChange.onEntry_eq_ok.mp changed
    exact { h e rfl with
      source_of_binary := fun _ => source
      binary_of_disassembly := nofun }
  | modified time =>
    obtain ⟨e, rfl, _, ⟨⟩⟩ := CacheChange.onEntry_eq_ok.mp changed
    exact { h e rfl with }
  | disassembly text =>
    obtain ⟨e, rfl, binary, ⟨⟩⟩ := CacheChange.onEntry_eq_ok.mp changed
    exact (h e rfl).withDisassembly binary text
  | invalidate =>
    obtain ⟨e, rfl, rfl⟩ := Option.map_eq_some_iff.mp (Except.ok.inj changed)
    exact (h e rfl).invalidated
  | erase => cases changed

end CacheEntry

namespace SourceCache

variable {c c' : SourceCache} {i : Identity} {entry : Option CacheEntry} {e : CacheEntry}

theorem isWellFormed_empty : IsWellFormed .empty :=
  nofun

theorem IsWellFormed.of_entry? (h : c.IsWellFormed) (held : c.entry? i = some e) : e.IsWellFormed := by
  obtain ⟨⟨j, e'⟩, found, rfl⟩ := Option.map_eq_some_iff.mp held
  exact h j e' (List.mem_of_find?_eq_some found)

theorem IsWellFormed.setEntry (h : c.IsWellFormed) (own : ∀ e, entry = some e → e.IsWellFormed) :
    (c.setEntry i entry).IsWellFormed := by
  have others : ∀ j e, (j, e) ∈ c.entries.filter (·.1 != i) → e.IsWellFormed :=
    fun j e member => h j e (List.mem_of_mem_filter member)
  intro j e member
  cases entry with
  | none => exact others j e member
  | some new =>
    rcases List.mem_cons.mp member with same | old
    · obtain ⟨-, rfl⟩ := Prod.mk.inj same
      exact own e rfl
    · exact others j e old

theorem IsWellFormed.applyOne (h : c.IsWellFormed) {op : CacheOp} (done : c.applyOne op = .ok c') :
    c'.IsWellFormed := by
  obtain ⟨entry, changed, rfl⟩ := applyOne_eq_ok.mp done
  have own : ∀ e, entry = some e → e.IsWellFormed := by
    rintro e rfl
    exact CacheEntry.IsWellFormed.on (fun _ => h.of_entry?) changed
  exact h.setEntry own

theorem IsWellFormed.applyStaged (h : c.IsWellFormed) (batch : List CacheOp) :
    (c.applyStaged batch).2.IsWellFormed := by
  rw [applyStaged_eq]
  cases done : c.apply batch with
  | error e => exact h
  | ok c' =>
    exact @applyFrom_induction c c' Unit (fun c _ => c.IsWellFormed) (fun s _ => s)
      (fun _ _ _ _ h done => h.applyOne done) 0 batch () done h

theorem IsWellFormed.addBodyPath (h : c.IsWellFormed) (i : Identity) (path : Path) :
    (c.addBodyPath i path).IsWellFormed := by
  rw [SourceCache.addBodyPath]
  split
  · exact h
  · refine h.setEntry fun e new => ?_
    obtain rfl := Option.some.inj new
    exact CacheEntry.isWellFormed_bare path

theorem IsWellFormed.invalidate (h : c.IsWellFormed) (i : Identity) : (c.invalidate i).IsWellFormed := by
  rw [SourceCache.invalidate]
  split
  · rename_i e held
    refine h.setEntry fun e' new => ?_
    obtain rfl := Option.some.inj new
    exact (h.of_entry? held).invalidated
  · exact h

theorem IsWellFormed.erase (h : c.IsWellFormed) (i : Identity) : (c.erase i).IsWellFormed :=
  h.setEntry nofun

/-- A disassembly is kept beside the binary that it was made from, so that it never stands alone. -/
theorem IsWellFormed.keepDisassembly (h : c.IsWellFormed) (i : Identity) (binary : StoredBinary)
    (text : String) : (c.keepDisassembly i binary text).IsWellFormed := by
  rw [SourceCache.keepDisassembly]
  split
  · exact h
  · rename_i e held
    split
    · rename_i current
      refine h.setEntry fun e' new => ?_
      obtain rfl := Option.some.inj new
      exact (h.of_entry? held).withDisassembly (by rw [current]; rfl) text
    · exact h

theorem IsWellFormed.disassemble {ε : Type} (h : c.IsWellFormed) (i : Identity) (ofCache : CacheError → ε)
    (make : Binary → SourceCache → Except ε String × SourceCache)
    (meanwhile : ∀ words, (make words c).2.IsWellFormed) :
    (c.disassemble i ofCache make).2.IsWellFormed := by
  rw [SourceCache.disassemble]
  split
  · exact h
  · exact h
  · rename_i binary _
    have made := meanwhile binary.words
    split
    · rename_i text c' outcome
      rw [outcome] at made
      exact made.keepDisassembly i binary text
    · rename_i e c' outcome
      rwa [outcome] at made

private theorem LeadsTo.isWellFormed (path : LeadsTo c c') (h : c.IsWellFormed) : c'.IsWellFormed := by
  induction path with
  | refl c => exact h
  | apply batch before ih => exact (ih h).applyStaged batch
  | addBodyPath i path before ih => exact (ih h).addBodyPath i path
  | invalidate i before ih => exact (ih h).invalidate i
  | erase i before ih => exact (ih h).erase i
  | disassemble i ofCache make meanwhile before inner ih =>
    exact (ih h).disassemble i ofCache make fun words => inner words (ih h)

/-- Every entry of a cache that operations lead to from the empty one has a path, and each of its artifacts stands
beside the one that it is derived from. -/
theorem entries_wellFormed {c : SourceCache} (reached : LeadsTo .empty c) :
    ∀ i e, (i, e) ∈ c.entries → e.IsWellFormed :=
  reached.isWellFormed isWellFormed_empty

def litVertex : Identity :=
  .ofName "lit" (.of .vertex)

def litArtifacts : List CacheOp :=
  [.bodyPath ⟨"lit.vert"⟩, .body "void main() {}", .fullSource "#version 450" ["Frame"], .binary [1]].map
    (⟨litVertex, ·⟩)

/-- A maker that asks for the same disassembly itself, and then replaces the binary that it was given. -/
def makeAndReplace (_ : Binary) (c : SourceCache) : Except CacheError String × SourceCache :=
  let inner := c.disassemble litVertex id fun _ c => (.ok "inner", c)
  (.ok "outer", (inner.2.applyStaged [⟨litVertex, .binary [2]⟩]).2)

/-- A cache after a batch, one that fails at its second change, and a disassembly. -/
def litReplaced : SourceCache :=
  let stored := (empty.applyStaged litArtifacts).2
  let refused := (stored.applyStaged [⟨litVertex, .erase⟩, ⟨litVertex, .body "void main() { }"⟩]).2
  (refused.disassemble litVertex id makeAndReplace).2

def litReplacedEntry : CacheEntry :=
  ⟨some ⟨"lit.vert"⟩, some "void main() {}", some "#version 450", some ⟨[2], 4⟩, none, none, ["Frame"]⟩

theorem entries_wellFormed_of_litReplaced :
    LeadsTo .empty litReplaced ∧ (litVertex, litReplacedEntry) ∈ litReplaced.entries ∧
      litReplacedEntry.IsWellFormed := by
  have reached : LeadsTo .empty litReplaced := by
    refine .disassemble litVertex id makeAndReplace (fun words => ?_) (.apply _ (.apply _ (.refl _)))
    exact .apply _ (.disassemble litVertex id _ (fun _ => .refl _) (.refl _))
  have held : (litVertex, litReplacedEntry) ∈ litReplaced.entries := by decide +kernel
  exact ⟨reached, held, entries_wellFormed reached litVertex litReplacedEntry held⟩

end SourceCache

end ShaderPipeline
