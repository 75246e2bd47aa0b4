import ShaderPipeline.Cache.Batch
import ShaderPipeline.Proofs.Cache.Entries

/-!
A batch is its changes one after another, or nothing.

Working on copies cannot be told from changing the cache itself: what the copies show at any step is what the cache
would show if the changes up to then had been made to it.  Main statement: a batch comes to the same as its changes
made singly, each as a batch of its own; if one of those fails, the batch fails at the first that does and leaves the
cache as it was.
-/

set_option autoImplicit false
set_option relaxedAutoImplicit false

namespace ShaderPipeline

namespace SourceCache

variable {c c' d : SourceCache} {i j : Identity} {entry : Option CacheEntry} {copies : EntryCopies}
  {ops batch : List CacheOp} {step : Nat}

/-- What a change or a batch comes to: the cache it makes, or its error and the cache as it was. -/
def landed (c : SourceCache) : Except CacheError SourceCache → Except CacheError Unit × SourceCache
  | .ok c' => (.ok (), c')
  | .error e => (.error e, c)

/-- The cache after changes that are made singly, each as a batch of its own, if none of them fails. -/
def afterEach (c : SourceCache) : List CacheOp → Option SourceCache
  | [] => some c
  | op :: ops =>
      match c.applyStaged [op] with
      | (.ok (), c') => c'.afterEach ops
      | (.error _, _) => none

private theorem filter_replace_self (entries : List (Identity × CacheEntry)) :
    (replace i entry entries).filter (·.1 != i) = entries.filter (·.1 != i) := by
  cases entry <;> simp [replace]

private theorem filter_replace_of_ne (other : j ≠ i) (entries : List (Identity × CacheEntry)) :
    (replace j entry entries).filter (·.1 != i) = replace j entry (entries.filter (·.1 != i)) := by
  have swapped : (entries.filter (·.1 != j)).filter (·.1 != i) =
      (entries.filter (·.1 != i)).filter (·.1 != j) := List.filter_comm _ _ _
  cases entry with
  | none => exact swapped
  | some e => simp [replace, other, swapped]

private theorem setEntry_congr (others : c.entries.filter (·.1 != i) = d.entries.filter (·.1 != i))
    (moment : c.moment = d.moment) : c.setEntry i entry = d.setEntry i entry := by
  cases c
  cases d
  obtain rfl := moment
  simp only [setEntry, replace, mk.injEq, and_true]
  rw [others]

private theorem moment_commit (c : SourceCache) (copies : EntryCopies) :
    (c.commit copies).moment = c.moment := by
  induction copies with
  | nil => rfl
  | cons copy copies ih => exact ih

private theorem filter_commit (c : SourceCache) (copies : EntryCopies) :
    (c.commit copies).entries.filter (·.1 != i) =
      (c.commit (copies.filter (·.1 != i))).entries.filter (·.1 != i) := by
  induction copies with
  | nil => rfl
  | cons copy copies ih =>
    obtain ⟨j, entry⟩ := copy
    have head : (c.commit ((j, entry) :: copies)).entries =
        replace j entry (c.commit copies).entries := rfl
    rw [head, List.filter_cons]
    by_cases same : j = i
    · subst same
      rw [filter_replace_self, ih]
      simp
    · have kept : (j != i) = true := by simpa using same
      have head' : (c.commit ((j, entry) :: copies.filter (·.1 != i))).entries =
          replace j entry (c.commit (copies.filter (·.1 != i))).entries := rfl
      rw [if_pos kept, head', filter_replace_of_ne same, filter_replace_of_ne same, ih]

private theorem entry?_commit (c : SourceCache) (copies : EntryCopies) (i : Identity) :
    entry? (c.commit copies) i = c.copyOf copies i := by
  induction copies with
  | nil => rfl
  | cons copy copies ih =>
    obtain ⟨j, entry⟩ := copy
    have head : c.commit ((j, entry) :: copies) = (c.commit copies).setEntry j entry := rfl
    rw [head, entry?_setEntry, copyOf, List.find?_cons]
    by_cases same : i = j
    · simp [same]
    · have differs : (j == i) = false := by simpa using Ne.symm same
      rw [if_neg same, ih, differs]
      rfl

private theorem commit_changed (c : SourceCache) (copies : EntryCopies) (i : Identity)
    (entry : Option CacheEntry) :
    c.commit ((i, entry) :: copies.filter (·.1 != i)) = (c.commit copies).setEntry i entry :=
  setEntry_congr (filter_commit c copies).symm
    ((c.moment_commit (copies.filter (·.1 != i))).trans (c.moment_commit copies).symm)

/-- The cache at a step of a batch, as it would be if the copies were put back at once. -/
private def committedAt (c : SourceCache) (step : Nat) (copies : EntryCopies) : SourceCache :=
  { c.commit copies with moment := c.moment + step }

private theorem applyFrom_committedAt (c : SourceCache) (ops : List CacheOp) (step : Nat)
    (copies : EntryCopies) :
    (c.committedAt step copies).applyFrom step ops =
      (c.stage step copies ops).map (c.committedAt (step + ops.length)) := by
  induction ops generalizing step copies with
  | nil => rfl
  | cons op ops ih =>
    have shown : entry? (c.committedAt step copies) op.identity = c.copyOf copies op.identity :=
      c.entry?_commit copies op.identity
    have moment : (c.committedAt step copies).moment = c.moment + step := rfl
    rw [applyFrom, applyOne, stage, shown, moment]
    cases op.change.on (c.copyOf copies op.identity) (c.moment + step) with
    | error fault => rfl
    | ok entry =>
      have next : c.committedAt (step + 1) ((op.identity, entry) :: copies.filter (·.1 != op.identity)) =
          { (c.committedAt step copies).setEntry op.identity entry with
            moment := c.moment + step + 1 } := by
        rw [committedAt, commit_changed]
        rfl
      have length : step + (op :: ops).length = step + 1 + ops.length := by
        rw [List.length_cons]
        omega
      rw [length]
      simp only [bind, Except.bind, pure, Except.pure, ← next]
      exact ih (step + 1) _

theorem applyStaged_eq (c : SourceCache) (batch : List CacheOp) :
    c.applyStaged batch = c.landed (c.apply batch) := by
  have direct : c.apply batch = (c.stage 0 [] batch).map (c.committedAt (0 + batch.length)) :=
    c.applyFrom_committedAt batch 0 []
  rw [direct, applyStaged, Nat.zero_add]
  cases c.stage 0 [] batch <;> rfl

private theorem landed_eq_ok {outcome : Except CacheError SourceCache} :
    c.landed outcome = (.ok (), c') ↔ outcome = .ok c' := by
  cases outcome <;> simp [landed]

private theorem applyStaged_eq_ok : c.applyStaged batch = (.ok (), c') ↔ c.apply batch = .ok c' := by
  rw [applyStaged_eq, landed_eq_ok]

private theorem applyStaged_single (c : SourceCache) (op : CacheOp) :
    c.applyStaged [op] =
      c.landed ((c.applyOne op).mapError (.batchFailed 0 op.identity)) := by
  rw [applyStaged_eq, apply, applyFrom]
  cases c.applyOne op <;> rfl

private theorem afterEach_cons (c : SourceCache) (op : CacheOp) (ops : List CacheOp) :
    c.afterEach (op :: ops) = (c.applyOne op).toOption.bind (·.afterEach ops) := by
  rw [afterEach, applyStaged_single]
  cases c.applyOne op <;> rfl

private theorem applyFrom_eq (c : SourceCache) (ops : List CacheOp) (step : Nat) :
    match c.afterEach ops with
    | some c' => c.applyFrom step ops = .ok c'
    | none => ∃ front op back before fault, ops = front ++ op :: back ∧
        c.afterEach front = some before ∧ before.applyOne op = .error fault ∧
          c.applyFrom step ops = .error (.batchFailed (step + front.length) op.identity fault) := by
  induction ops generalizing c step with
  | nil => rfl
  | cons op ops ih =>
    rw [afterEach_cons, applyFrom]
    cases changed : c.applyOne op with
    | error fault => exact ⟨[], op, ops, c, fault, rfl, rfl, changed, rfl⟩
    | ok next =>
      have rest := ih next (step + 1)
      simp only [Except.toOption, Option.bind_some]
      cases singly : next.afterEach ops with
      | some c' => simpa only [singly] using rest
      | none =>
        simp only [singly] at rest
        obtain ⟨front, op', back, before, fault, rfl, passed, failed, whole⟩ := rest
        refine ⟨op :: front, op', back, before, fault, rfl, ?_, failed, ?_⟩
        · rw [afterEach_cons, changed]
          exact passed
        · rw [whole, List.length_cons, Nat.add_right_comm, Nat.add_assoc]

private theorem afterEach_append (c : SourceCache) (front back : List CacheOp) :
    c.afterEach (front ++ back) = (c.afterEach front).bind (·.afterEach back) := by
  induction front generalizing c with
  | nil => rfl
  | cons op front ih =>
    rw [List.cons_append, afterEach_cons, afterEach_cons]
    cases c.applyOne op with
    | error fault => rfl
    | ok next => exact ih next

private theorem apply_eq_ok : c.apply batch = .ok c' ↔ c.afterEach batch = some c' := by
  have whole := c.applyFrom_eq batch 0
  rw [apply]
  cases singly : c.afterEach batch with
  | some after =>
    simp only [singly] at whole
    rw [whole, Except.ok.injEq, Option.some.injEq]
  | none =>
    simp only [singly] at whole
    obtain ⟨_, _, _, _, _, _, _, _, failed⟩ := whole
    simp [failed]

private theorem entry?_of_afterEach (done : c.afterEach ops = some c') (others : ∀ op ∈ ops, op.identity ≠ i) :
    entry? c' i = c.entry? i := by
  induction ops generalizing c with
  | nil => rw [← Option.some.inj done]
  | cons op ops ih =>
    obtain ⟨first, later⟩ := List.forall_mem_cons.mp others
    rw [afterEach_cons] at done
    obtain ⟨next, changed, rest⟩ := Option.bind_eq_some_iff.mp done
    have step : entry? next i = c.entry? i :=
      (entry?_of_applyOne (Outcome.toOption_eq_some.mp changed)).2 i first.symm
    exact (ih rest later).trans step

/-- A batch comes to what its changes come to singly, or to nothing but the error of the first that fails; two batches
in a row are one; and the entries of all others stay. -/
theorem batch_is_changes_in_turn_or_nothing (c : SourceCache) (batch : List CacheOp) :
    c.applyStaged batch = c.landed (c.apply batch) ∧
    (match c.afterEach batch with
      | some c' => c.applyStaged batch = (.ok (), c')
      | none => ∃ front op back before fault, batch = front ++ op :: back ∧
          c.afterEach front = some before ∧
          before.applyStaged [op] = (.error (.batchFailed 0 op.identity fault), before) ∧
          c.applyStaged batch = (.error (.batchFailed front.length op.identity fault), c)) ∧
    (∀ front back c', c.applyStaged (front ++ back) = (.ok (), c') ↔
      ∃ middle, c.applyStaged front = (.ok (), middle) ∧ middle.applyStaged back = (.ok (), c')) ∧
    ∀ i, (∀ op ∈ batch, op.identity ≠ i) → entry? (c.applyStaged batch).2 i = c.entry? i := by
  refine ⟨c.applyStaged_eq batch, ?_, ?_, fun i others => ?_⟩
  · have whole := c.applyFrom_eq batch 0
    cases singly : c.afterEach batch with
    | some c' => exact applyStaged_eq_ok.mpr (apply_eq_ok.mpr singly)
    | none =>
      simp only [singly] at whole
      obtain ⟨front, op, back, before, fault, split, passed, failed, failure⟩ := whole
      refine ⟨front, op, back, before, fault, split, passed, ?_, ?_⟩
      · rw [applyStaged_single, failed]
        rfl
      · rw [applyStaged_eq, apply, failure, Nat.zero_add]
        rfl
  · intro front back c'
    simp only [applyStaged_eq_ok, apply_eq_ok, afterEach_append, Option.bind_eq_some_iff]
  · rw [applyStaged_eq]
    cases done : c.apply batch with
    | error e => rfl
    | ok c' => exact entry?_of_afterEach (apply_eq_ok.mp done) others

end SourceCache

end ShaderPipeline
