import ShaderPipeline.Proofs.Cache.Chronology
import ShaderPipeline.Proofs.Cache.WellFormed

/-!
Disassemblies that end late.

While a disassembly is made the cache is free for other calls, which may take its binary away, store another one, or store
the same one again.  A binary that is newly made gets the moment for its handle, so that it is none of those that were there
before, not even if its words are the same; one that a caller shares keeps the handle it has.  Main statement: a disassembly
that was made is kept exactly if its binary is in place, and otherwise leaves no trace in the cache.
-/

set_option autoImplicit false
set_option relaxedAutoImplicit false

namespace ShaderPipeline

/-- What a change that is made at a moment puts in the place of a binary, if it puts anything there. -/
def CacheChange.binaryPut? (moment : Nat) : CacheChange → Option (Option StoredBinary)
  | binary words handle => some (some (.stored words moment handle))
  | invalidate | erase => some none
  | bodyPath _ | body _ | fullSource _ _ | modified _ | disassembly _ => none

namespace SourceCache

/-- What the changes of a batch put in the place of the binary of a stage, in turn. -/
def binariesPut (i : Identity) : Nat → List CacheOp → List (Option StoredBinary)
  | _, [] => []
  | moment, op :: ops =>
      (if op.identity = i then (op.change.binaryPut? moment).toList else []) ++ binariesPut i (moment + 1) ops

end SourceCache

def CacheCall.binariesPut (i : Identity) (s : DatedCache) : CacheCall → List (Option StoredBinary)
  | apply batch =>
      match s.cache.apply batch with
      | .ok _ => SourceCache.binariesPut i s.cache.moment batch
      | .error _ => []
  | addBodyPath j path => if j = i ∧ ¬ SourceCache.hasBodyPath (s.cache.entry? i) path then [none] else []
  | invalidate j | erase j => if j = i then [none] else []
  | beginDisassembly _ | endDisassembly _ _ => []

/-- What some calls put in the place of the binary of a stage, in turn. -/
def DatedCache.binariesPut (i : Identity) : DatedCache → List CacheCall → List (Option StoredBinary)
  | _, [] => []
  | s, call :: rest => call.binariesPut i s ++ binariesPut i (s.perform call) rest

namespace SourceCache

def storedBinary? (c : SourceCache) (i : Identity) : Option StoredBinary :=
  (c.entry? i).bind (·.binary)

/-- What is left of the binary of a stage: the last of those that were put in its place, else the binary itself. -/
structure LeavesBinary (i : Identity) (put : List (Option StoredBinary)) (c c' : SourceCache) : Prop where
  moment : c.moment ≤ c'.moment
  left : c'.storedBinary? i = put.getLast?.getD (c.storedBinary? i)
  past : ∀ b, some b ∈ put → b.handle < c'.moment

def IsPast (c : SourceCache) : Prop :=
  ∀ i b, c.storedBinary? i = some b → b.handle < c.moment

section LeavesBinary

variable {c c' c'' : SourceCache} {i j : Identity} {put put' : List (Option StoredBinary)} {b : StoredBinary}

private theorem LeavesBinary.of_same (moment : c.moment ≤ c'.moment)
    (same : c'.storedBinary? i = c.storedBinary? i) : LeavesBinary i [] c c' :=
  ⟨moment, same, nofun⟩

private theorem LeavesBinary.trans (first : LeavesBinary i put c c') (second : LeavesBinary i put' c' c'') :
    LeavesBinary i (put ++ put') c c'' := by
  refine ⟨Nat.le_trans first.moment second.moment, ?_, fun b listed => ?_⟩
  · rw [second.left, first.left, List.getLast?_append, Option.getD_or]
  · rcases List.mem_append.mp listed with before | after
    · exact Nat.lt_of_lt_of_le (first.past b before) second.moment
    · exact second.past b after

private theorem IsPast.leaves (h : c.IsPast) (left : ∀ i, ∃ put, LeavesBinary i put c c') : c'.IsPast := by
  intro i b held
  obtain ⟨put, left⟩ := left i
  rw [left.left] at held
  cases last : put.getLast? with
  | none =>
    rw [last] at held
    exact Nat.lt_of_lt_of_le (h i b held) left.moment
  | some stored =>
    rw [last] at held
    obtain rfl : stored = some b := held
    exact left.past b (List.mem_of_getLast? last)

private theorem LeavesBinary.storedBinary?_iff (left : LeavesBinary i put c c') (held : c.storedBinary? i = some b) :
    c'.storedBinary? i = some b ↔ put = [] ∨ put.getLast? = some (some b) := by
  rw [left.left, held]
  cases last : put.getLast? with
  | none => simp [List.getLast?_eq_none_iff.mp last]
  | some stored =>
    have listed : put ≠ [] := by
      rintro rfl
      cases last
    simp [listed]

end LeavesBinary

section Calls

variable {c c' : SourceCache} {i j : Identity}

private theorem handle_stored_le (words : Binary) (moment : Nat) (handle : Option Nat) :
    (StoredBinary.stored words moment handle).handle ≤ moment := by
  cases handle with
  | none => exact Nat.le_refl _
  | some handle => exact Nat.min_le_right _ _

private theorem binary_of_on {change : CacheChange} {entry entry' : Option CacheEntry} {moment : Nat}
    (changed : change.on entry moment = .ok entry') :
    entry'.bind (·.binary) = (change.binaryPut? moment).getD (entry.bind (·.binary)) := by
  cases change with
  | bodyPath path =>
    obtain rfl := Except.ok.inj changed
    cases entry <;> rfl
  | body | fullSource | modified | disassembly | binary =>
    obtain ⟨e, rfl, _, rfl⟩ := CacheChange.onEntry_eq_ok.mp changed
    rfl
  | invalidate =>
    obtain rfl := Except.ok.inj changed
    cases entry <;> rfl
  | erase =>
    obtain rfl := Except.ok.inj changed
    rfl

private theorem handle_le_of_binaryPut? {change : CacheChange} {moment : Nat} {b : StoredBinary}
    (put : change.binaryPut? moment = some (some b)) : b.handle ≤ moment := by
  cases change with
  | binary words handle =>
    obtain rfl := Option.some.inj (Option.some.inj put)
    exact handle_stored_le words moment handle
  | invalidate | erase => cases Option.some.inj put
  | bodyPath | body | fullSource | modified | disassembly => cases put

private theorem leavesBinary_applyOne {op : CacheOp} (done : c.applyOne op = .ok c') :
    LeavesBinary i (if op.identity = i then (op.change.binaryPut? c.moment).toList else []) c c' ∧
      c'.moment = c.moment + 1 := by
  have moment : c'.moment = c.moment + 1 := by
    obtain ⟨entry, _, rfl⟩ := applyOne_eq_ok.mp done
    rfl
  refine ⟨⟨by omega, ?_, ?_⟩, moment⟩
  · obtain ⟨⟨entry, changed, own⟩, others⟩ := entry?_of_applyOne done
    rw [storedBinary?, storedBinary?]
    by_cases here : op.identity = i
    · subst here
      rw [own, binary_of_on changed, if_pos rfl]
      cases op.change.binaryPut? c.moment <;> rfl
    · rw [others i (Ne.symm here), if_neg here]
      rfl
  · intro b listed
    split at listed
    · have stored := handle_le_of_binaryPut? (Option.mem_toList.mp listed)
      omega
    · cases listed

private theorem leavesBinary_applyFrom {batch : List CacheOp} {n : Nat} (done : applyFrom n c batch = .ok c') :
    LeavesBinary i (binariesPut i c.moment batch) c c' := by
  induction batch generalizing n c with
  | nil =>
    cases done
    exact .of_same (Nat.le_refl _) rfl
  | cons op batch ih =>
    obtain ⟨next, changed, rest⟩ := applyFrom_cons done
    obtain ⟨first, moment⟩ := leavesBinary_applyOne (i := i) changed
    exact first.trans (moment ▸ ih rest)

private theorem leavesBinary_of_bare (moment : c'.moment = c.moment) (others : ∀ k ≠ j, c'.entry? k = c.entry? k)
    (bare : c'.storedBinary? j = none) : LeavesBinary i (if j = i then [none] else []) c c' := by
  split
  · rename_i here
    subst here
    exact ⟨Nat.le_of_eq moment.symm, bare, by simp⟩
  · rename_i other
    refine .of_same (Nat.le_of_eq moment.symm) ?_
    rw [storedBinary?, others i (Ne.symm other), storedBinary?]

private theorem storedBinary?_keepDisassembly (c : SourceCache) (j : Identity) (binary : StoredBinary) (text : String) :
    (c.keepDisassembly j binary text).storedBinary? i = c.storedBinary? i := by
  rw [keepDisassembly]
  split
  · rfl
  · rename_i e held
    split
    · rw [storedBinary?, entry?_setEntry]
      split
      · rename_i same
        rw [same, storedBinary?, held]
        rfl
      · rfl
    · rfl

private theorem moment_keepDisassembly (c : SourceCache) (j : Identity) (binary : StoredBinary) (text : String) :
    (c.keepDisassembly j binary text).moment = c.moment := by
  rw [keepDisassembly]
  split
  · rfl
  · split <;> rfl

private theorem leavesBinary_addBodyPath (path : Path) :
    LeavesBinary i (if j = i ∧ ¬ hasBodyPath (c.entry? i) path then [none] else []) c (c.addBodyPath j path) := by
  by_cases known : hasBodyPath (c.entry? j) path
  · rw [addBodyPath, if_pos known, if_neg fun both => both.2 (both.1 ▸ known)]
    exact .of_same (Nat.le_refl _) rfl
  · have left : LeavesBinary i (if j = i then [none] else []) c (c.addBodyPath j path) := by
      refine leavesBinary_of_bare ?_ (fun k => entry?_addBodyPath_of_ne path) ?_
      · rw [addBodyPath, if_neg known]
        rfl
      · rw [storedBinary?, entry?_addBodyPath, if_neg known]
        rfl
    by_cases here : j = i
    · rw [if_pos here] at left
      rwa [if_pos ⟨here, here ▸ known⟩]
    · rw [if_neg here] at left
      rwa [if_neg fun both => here both.1]

private theorem leavesBinary_invalidate : LeavesBinary i (if j = i then [none] else []) c (c.invalidate j) := by
  refine leavesBinary_of_bare ?_ (fun k => entry?_invalidate_of_ne) ?_
  · rw [invalidate]
    split <;> rfl
  · rw [storedBinary?, entry?_invalidate]
    cases c.entry? j <;> rfl

private theorem leavesBinary_erase : LeavesBinary i (if j = i then [none] else []) c (c.erase j) := by
  refine leavesBinary_of_bare rfl (fun k other => entry?_setEntry.trans (if_neg other)) ?_
  rw [storedBinary?, erase, entry?_setEntry, if_pos rfl]
  rfl

end Calls

end SourceCache

namespace DatedCache

open SourceCache (LeavesBinary IsPast)

variable {s : DatedCache} {i : Identity}

private theorem leavesBinary_perform (s : DatedCache) (i : Identity) (call : CacheCall) :
    LeavesBinary i (call.binariesPut i s) s.cache (s.perform call).cache := by
  cases call with
  | apply batch =>
    rw [perform, CacheCall.binariesPut]
    cases done : s.cache.apply batch with
    | error e => exact .of_same (Nat.le_refl _) rfl
    | ok c => exact SourceCache.leavesBinary_applyFrom done
  | addBodyPath j path => exact SourceCache.leavesBinary_addBodyPath path
  | invalidate j => exact SourceCache.leavesBinary_invalidate
  | erase j => exact SourceCache.leavesBinary_erase
  | beginDisassembly j =>
    rw [perform, CacheCall.binariesPut]
    split <;> exact .of_same (Nat.le_refl _) rfl
  | endDisassembly n text =>
    rw [perform, CacheCall.binariesPut]
    split
    · exact .of_same (Nat.le_of_eq (SourceCache.moment_keepDisassembly ..).symm)
        (SourceCache.storedBinary?_keepDisassembly ..)
    · exact .of_same (Nat.le_refl _) rfl

private theorem leavesBinary_foldl (s : DatedCache) (i : Identity) (calls : List CacheCall) :
    LeavesBinary i (s.binariesPut i calls) s.cache (calls.foldl perform s).cache := by
  induction calls generalizing s with
  | nil => exact .of_same (Nat.le_refl _) rfl
  | cons call rest ih => exact (s.leavesBinary_perform i call).trans (ih (s.perform call))

private theorem isPast_after (history : List CacheCall) : (after history).cache.IsPast := by
  have start : IsPast start.cache := nofun
  exact start.leaves fun i => ⟨_, leavesBinary_foldl .start i history⟩

private theorem isWellFormed_perform (h : s.cache.IsWellFormed) (call : CacheCall) :
    (s.perform call).cache.IsWellFormed := by
  cases call with
  | apply batch =>
    have staged := h.applyStaged batch
    rw [SourceCache.applyStaged_eq] at staged
    rw [perform]
    cases done : s.cache.apply batch with
    | error e => exact h
    | ok c =>
      rw [done] at staged
      exact staged
  | addBodyPath j path => exact h.addBodyPath j path
  | invalidate j => exact h.invalidate j
  | erase j => exact h.erase j
  | beginDisassembly j =>
    rw [perform]
    split <;> exact h
  | endDisassembly n text =>
    rw [perform]
    split
    · rename_i j binary _
      exact SourceCache.IsWellFormed.keepDisassembly h j binary text
    · exact h

private theorem isWellFormed_after (history : List CacheCall) : (after history).cache.IsWellFormed := by
  suffices ∀ s : DatedCache, s.cache.IsWellFormed → (history.foldl perform s).cache.IsWellFormed from
    this start SourceCache.isWellFormed_empty
  induction history with
  | nil => exact fun _ h => h
  | cons call rest ih => exact fun s h => ih (s.perform call) (isWellFormed_perform h call)

end DatedCache

namespace SourceCache

variable {ε : Type} {c ended : SourceCache} {i : Identity} {e : CacheEntry} {ofCache : CacheError → ε}
  {make : Binary → SourceCache → Except ε String × SourceCache} {text : String} {binary : StoredBinary}

private theorem disassemble_of_cached (held : c.entry? i = some e) (cached : e.disassembly = some text) :
    c.disassemble i ofCache make = (.ok text, c) := by
  simp only [disassemble, disassemblyState, held, cached]

private theorem disassemble_of_missing (unmade : ∀ e, c.entry? i = some e → e.disassembly = none)
    (missing : c.storedBinary? i = none) :
    c.disassemble i ofCache make = (.error (ofCache (.binaryMissing i)), c) := by
  cases held : c.entry? i with
  | none => simp only [disassemble, disassemblyState, held]
  | some e =>
    have none' : e.binary = none := by
      rw [storedBinary?, held] at missing
      exact missing
    simp only [disassemble, disassemblyState, held, unmade e held, none']

private theorem disassemble_of_pending {outcome : Except ε String} (held : c.entry? i = some e)
    (unmade : e.disassembly = none) (stored : e.binary = some binary)
    (made : make binary.words c = (outcome, ended)) :
    c.disassemble i ofCache make = (outcome,
      match outcome with
      | .ok text => ended.keepDisassembly i binary text
      | .error _ => ended) := by
  simp only [disassemble, disassemblyState, held, unmade, stored, made]
  cases outcome <;> rfl

private theorem keepDisassembly_of_other (other : ended.storedBinary? i ≠ some binary) :
    ended.keepDisassembly i binary text = ended := by
  rw [keepDisassembly]
  cases held : ended.entry? i with
  | none => rfl
  | some e =>
    have own : e.binary ≠ some binary := fun same => other (by rw [storedBinary?, held]; exact same)
    exact if_neg own

private theorem keepDisassembly_of_same (same : ended.storedBinary? i = some binary) :
    ∃ e, ended.entry? i = some e ∧
      entry? (ended.keepDisassembly i binary text) i = some { e with disassembly := some text } ∧
      ∀ j ≠ i, entry? (ended.keepDisassembly i binary text) j = ended.entry? j := by
  obtain ⟨e, held, own⟩ := Option.bind_eq_some_iff.mp same
  have kept : ended.keepDisassembly i binary text = ended.setEntry i (some { e with disassembly := some text }) := by
    rw [keepDisassembly, held]
    exact if_pos own
  refine ⟨e, held, ?_, fun j other => ?_⟩
  · rw [kept, entry?_setEntry, if_pos rfl]
  · rw [kept, entry?_setEntry, if_neg other]

/-- A disassembly that is made while others use the cache is never kept beside another binary.  In any cache that calls
lead to: a disassembly that is cached is given back, and one without a binary fails, and neither makes anything or
changes the cache.  Otherwise what is made of the binary is given back.  If it could not be made, or the binary is not in
place any more, the cache is as it was left meanwhile; else the entry gets the text, and nothing else changes.  The binary
is in place exactly if no call meanwhile has put anything there, or the last that did has stored that same binary again;
so if only newly made binaries are stored, it is exactly if nothing was put there. -/
theorem late_disassembly_stays_with_binary {ε : Type} (history : List CacheCall) (i : Identity)
    (ofCache : CacheError → ε) :
    let s := DatedCache.after history
    (∀ e text, s.cache.entry? i = some e → e.disassembly = some text →
      ∀ make, s.cache.disassemble i ofCache make = (.ok text, s.cache)) ∧
    (s.cache.storedBinary? i = none →
      ∀ make, s.cache.disassemble i ofCache make = (.error (ofCache (.binaryMissing i)), s.cache)) ∧
    ∀ e binary, s.cache.entry? i = some e → e.disassembly = none → e.binary = some binary →
      ∀ make outcome ended, make binary.words s.cache = (outcome, ended) →
        (s.cache.disassemble i ofCache make).1 = outcome ∧
        ((∃ error, outcome = .error error) ∨ ended.storedBinary? i ≠ some binary →
          (s.cache.disassemble i ofCache make).2 = ended) ∧
        (∀ text, outcome = .ok text → ended.storedBinary? i = some binary →
          ∃ e', ended.entry? i = some e' ∧
            entry? (s.cache.disassemble i ofCache make).2 i = some { e' with disassembly := some text } ∧
            ∀ j ≠ i, entry? (s.cache.disassemble i ofCache make).2 j = ended.entry? j) ∧
        ∀ meanwhile, ended = (meanwhile.foldl DatedCache.perform s).cache →
          let put := s.binariesPut i meanwhile
          (ended.storedBinary? i = some binary ↔ put = [] ∨ put.getLast? = some (some binary)) ∧
          ((∀ b, some b ∈ put → s.cache.moment ≤ b.handle) → (ended.storedBinary? i = some binary ↔ put = [])) := by
  intro s
  have wellFormed : s.cache.IsWellFormed := DatedCache.isWellFormed_after history
  have past : s.cache.IsPast := DatedCache.isPast_after history
  refine ⟨fun e text held cached make => disassemble_of_cached held cached, fun missing make => ?_, ?_⟩
  · refine disassemble_of_missing (fun e held => ?_) missing
    rw [storedBinary?, held] at missing
    cases cached : e.disassembly with
    | none => rfl
    | some text =>
      have none' : e.binary = none := missing
      have beside := (wellFormed.of_entry? held).binary_of_disassembly (by rw [cached]; rfl)
      rw [none'] at beside
      cases beside
  · intro e binary held unmade stored make outcome ended made
    have own : s.cache.storedBinary? i = some binary := by rw [storedBinary?, held]; exact stored
    rw [disassemble_of_pending held unmade stored made]
    refine ⟨rfl, ?_, ?_, ?_⟩
    · rintro (⟨error, rfl⟩ | other)
      · rfl
      · cases outcome with
        | error error => rfl
        | ok text => exact keepDisassembly_of_other other
    · rintro text rfl same
      exact keepDisassembly_of_same same
    · rintro meanwhile rfl put
      have stays := (s.leavesBinary_foldl i meanwhile).storedBinary?_iff own
      refine ⟨stays, fun made => stays.trans (or_iff_left fun last => ?_)⟩
      have since := made binary (List.mem_of_getLast? last)
      have before := past i binary own
      omega

/-- The words that a disassembly is made from, in a binary that is newly made: another binary. -/
example : entry? ((empty.applyStaged litArtifacts).2.disassemble litVertex id fun words c =>
    (.ok "late", (c.applyStaged [⟨litVertex, .binary words⟩]).2)).2 litVertex =
      some ⟨some ⟨"lit.vert"⟩, some "void main() {}", some "#version 450", some ⟨[1], 4⟩, none, none, ["Frame"]⟩ := by
  decide +kernel

/-- The binary itself, taken away and then stored again by a caller that shares it. -/
example : entry? ((empty.applyStaged litArtifacts).2.disassemble litVertex id fun words c =>
    (.ok "late", ((c.erase litVertex).applyStaged
      (litArtifacts.take 3 ++ [⟨litVertex, .binary words (some 3)⟩])).2)).2 litVertex =
      some ⟨some ⟨"lit.vert"⟩, some "void main() {}", some "#version 450", some ⟨[1], 3⟩, none, some "late", ["Frame"]⟩ := by
  decide +kernel

end SourceCache

end ShaderPipeline
