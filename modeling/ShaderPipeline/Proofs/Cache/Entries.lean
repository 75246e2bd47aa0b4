import ShaderPipeline.Cache.Basic
import ShaderPipeline.Proofs.Outcome

/-!
What operations do to the entries of a cache.

An operation touches the entry of one identity.  What every change of a batch preserves, a batch preserves that is
applied.  A full source enters an entry together with its resource groups, and from then on both stay as they are
until both are replaced or the source is dropped.
-/

set_option autoImplicit false
set_option relaxedAutoImplicit false

namespace ShaderPipeline

open Outcome

namespace SourceCache

variable {c c' : SourceCache} {i j : Identity} {entry : Option CacheEntry}

theorem entry?_setEntry : entry? (c.setEntry i entry) j = if j = i then entry else c.entry? j := by
  have others : (c.entries.filter (·.1 != i)).find? (·.1 == j) =
      if j = i then none else c.entries.find? (·.1 == j) := by
    rw [List.find?_filter]
    split
    · rename_i same
      subst same
      refine List.find?_eq_none.mpr fun e _ both => ?_
      simp at both
    · rename_i other
      congr 1
      funext e
      by_cases key : e.1 = j
      · simp [key, other]
      · simp [key]
  cases entry with
  | none =>
    rw [setEntry, entry?, replace, others]
    split <;> rfl
  | some e =>
    rw [setEntry, entry?, replace, List.find?_cons, others]
    by_cases same : j = i
    · simp [same]
    · have differs : (i == j) = false := by
        simpa using Ne.symm same
      simp [same, differs, entry?]

theorem entry?_addBodyPath_of_ne (path : Path) (other : j ≠ i) :
    entry? (c.addBodyPath i path) j = c.entry? j := by
  rw [addBodyPath]
  split
  · rfl
  · rw [entry?_setEntry, if_neg other]

theorem entry?_addBodyPath (c : SourceCache) (i : Identity) (path : Path) :
    entry? (c.addBodyPath i path) i =
      if hasBodyPath (c.entry? i) path then c.entry? i
      else some { CacheEntry.empty with bodyPath := some path } := by
  rw [addBodyPath]
  split
  · rfl
  · rw [entry?_setEntry, if_pos rfl]

theorem entry?_invalidate_of_ne (other : j ≠ i) : entry? (c.invalidate i) j = c.entry? j := by
  rw [invalidate]
  split
  · rw [entry?_setEntry, if_neg other]
  · rfl

theorem entry?_invalidate : entry? (c.invalidate i) i = (c.entry? i).map .invalidated := by
  rw [invalidate]
  cases known : c.entry? i with
  | none => exact known
  | some e => rw [entry?_setEntry, if_pos rfl, Option.map_some]

theorem applyOne_eq_ok {op : CacheOp} :
    c.applyOne op = .ok c' ↔
      ∃ entry, op.change.on (c.entry? op.identity) c.moment = .ok entry ∧
        c' = { c.setEntry op.identity entry with moment := c.moment + 1 } := by
  rw [applyOne, bind_eq_ok]
  refine exists_congr fun entry => and_congr_right fun _ => ?_
  rw [pure_eq_ok, eq_comm]

theorem entry?_of_applyOne {op : CacheOp} (done : c.applyOne op = .ok c') :
    (∃ entry, op.change.on (c.entry? op.identity) c.moment = .ok entry ∧
        entry? c' op.identity = entry) ∧
      ∀ j ≠ op.identity, entry? c' j = c.entry? j := by
  obtain ⟨entry, changed, rfl⟩ := applyOne_eq_ok.mp done
  refine ⟨⟨entry, changed, ?_⟩, fun j other => ?_⟩
  · exact entry?_setEntry.trans (if_pos rfl)
  · exact entry?_setEntry.trans (if_neg other)

theorem applyFrom_cons {n : Nat} {op : CacheOp} {ops : List CacheOp}
    (done : applyFrom n c (op :: ops) = .ok c') :
    ∃ next, c.applyOne op = .ok next ∧ applyFrom (n + 1) next ops = .ok c' := by
  rw [applyFrom] at done
  split at done
  · rename_i next changed
    exact ⟨next, changed, done⟩
  · cases done

/-- What every change preserves, beside notes that are kept of the changes, an applied batch preserves. -/
theorem applyFrom_induction {σ : Type} {P : SourceCache → σ → Prop} {note : σ → CacheOp → σ}
    (step : ∀ c s op c', P c s → c.applyOne op = .ok c' → P c' (note s op)) {n : Nat}
    {ops : List CacheOp} {s : σ} (done : applyFrom n c ops = .ok c') (init : P c s) :
    P c' (ops.foldl note s) := by
  induction ops generalizing n c s with
  | nil =>
    cases done
    exact init
  | cons op ops ih =>
    obtain ⟨next, changed, rest⟩ := applyFrom_cons done
    exact ih rest (step c s op next init changed)

end SourceCache

namespace CacheChange

variable {entry entry' : Option CacheEntry} {moment : Nat}

theorem onEntry_eq_ok {has : CacheEntry → Bool} {fault : BatchFault}
    {change : CacheEntry → CacheEntry} :
    onEntry entry has fault change = .ok entry' ↔
      ∃ e, entry = some e ∧ has e ∧ entry' = some (change e) := by
  cases entry with
  | none => simp [onEntry]
  | some e =>
    rw [onEntry]
    split
    · rename_i present
      simpa [present] using eq_comm
    · rename_i absent
      simp [absent]

/-- The full source of a changed entry is the one that the change brings with its groups, or that of the entry before
with the groups it had. -/
theorem source_of_on {change : CacheChange} {e' : CacheEntry} {text : String}
    (changed : change.on entry moment = .ok (some e')) (source : e'.fullSource = some text) :
    change = .fullSource text e'.resourceGroups ∨
      (∀ t groups, change ≠ .fullSource t groups) ∧
        ∃ e, entry = some e ∧ e.fullSource = some text ∧ e.resourceGroups = e'.resourceGroups := by
  cases change with
  | bodyPath path =>
    simp only [on, Except.ok.injEq, Option.some.injEq] at changed
    subst changed
    cases entry with
    | none => cases source
    | some e => exact .inr ⟨nofun, e, rfl, source, rfl⟩
  | body t =>
    obtain ⟨e, rfl, _, ⟨⟩⟩ := onEntry_eq_ok.mp changed
    exact .inr ⟨nofun, e, rfl, source, rfl⟩
  | fullSource t groups =>
    obtain ⟨e, rfl, _, ⟨⟩⟩ := onEntry_eq_ok.mp changed
    obtain rfl := Option.some.inj source
    exact .inl rfl
  | binary words =>
    obtain ⟨e, rfl, _, ⟨⟩⟩ := onEntry_eq_ok.mp changed
    exact .inr ⟨nofun, e, rfl, source, rfl⟩
  | modified time =>
    obtain ⟨e, rfl, _, ⟨⟩⟩ := onEntry_eq_ok.mp changed
    exact .inr ⟨nofun, e, rfl, source, rfl⟩
  | disassembly t =>
    obtain ⟨e, rfl, _, ⟨⟩⟩ := onEntry_eq_ok.mp changed
    exact .inr ⟨nofun, e, rfl, source, rfl⟩
  | invalidate =>
    cases entry with
    | none => simp [on] at changed
    | some e =>
      simp only [on, Option.map_some, Except.ok.injEq, Option.some.injEq] at changed
      subst changed
      cases source
  | erase => simp [on] at changed

end CacheChange

end ShaderPipeline
