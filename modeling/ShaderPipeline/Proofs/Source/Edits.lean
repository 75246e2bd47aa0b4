import Mathlib.Data.List.Infix
import Mathlib.Data.List.Induction
import ShaderPipeline.Proofs.Pack.Processing
import ShaderPipeline.Proofs.Source.Calls

/-!
Calls for one source that share a cache, while its body is edited.

Calls begin and take their steps in any order, and between any two steps the body may be written with a later time than
all that it had before.  Main statement: no edit is lost.  After any number of calls and writes, wherever they stand, a
call that nothing comes between succeeds exactly if the body as it is can be assembled, and comes to that source.  And if
there was only one call before the writes stopped, then of all calls that begin afterwards, whose steps come between each
other and those of the first, the first to succeed comes to that source too.
-/

set_option autoImplicit false
set_option relaxedAutoImplicit false

namespace ShaderPipeline

/-- A source whose body may be written, the cache, and the calls for it in the order in which they began. -/
structure EditedSource where
  generation : Generation
  files : FileTree
  cache : SourceCache
  calls : List Generation.Phase

/-- What happens next: one more call begins, a call takes a step, or the body is written. -/
inductive EditAct where
  | call
  | advance (call : Nat)
  | write (content : ByteArray) (time : Int)

namespace EditAct

def isWrite : EditAct → Bool
  | write _ _ => true
  | _ => false

end EditAct

namespace EditedSource

def view (s : EditedSource) : View :=
  s.generation.view s.files

def text? (s : EditedSource) (k : Nat) : Option String :=
  s.calls[k]?.bind Generation.Phase.text?

def act (s : EditedSource) : EditAct → EditedSource
  | .call => { s with calls := s.calls ++ [.readTime] }
  | .advance k =>
      match s.calls[k]? with
      | some phase =>
          let (next, cache) := s.generation.step s.files s.cache phase
          { s with cache, calls := s.calls.set k next }
      | none => s
  | .write content time =>
      { s with files := (s.files.write s.generation.request.path content time).2 }

def after (s : EditedSource) (acts : List EditAct) : EditedSource :=
  acts.foldl act s

/-- What is taken for granted around the calls: none is under way, the cache has no source with a later time than that of
the body, nor another than that of the body with the same time, and the body includes no file that changes. -/
structure IsOrderly (start : EditedSource) (acts : List EditAct) : Prop where
  calls : start.calls = []
  cache : start.generation.CacheIsTraced (· = start.view) start.cache
  includes : ∀ earlier later, earlier <+: later → later <+: acts → ∀ body,
    (start.after earlier).files.readText start.generation.request.path = .ok body →
      start.generation.request.SameIncludes start.generation.options (start.after earlier).files
        (start.after later).files body

/-- Whether every write gives the body a later time than all that it had before. -/
def WritesAdvance (start : EditedSource) (acts : List EditAct) : Prop :=
  ∀ before content time, before ++ [.write content time] <+: acts → ∀ earlier, earlier <+: before →
    ∀ old new, (start.after earlier).view.time = .ok old →
      (start.after (before ++ [.write content time])).view.time = .ok new → old < new

/-- The views that were had at any moment up to now. -/
def Had (start : EditedSource) (acts : List EditAct) (v : View) : Prop :=
  ∃ earlier, earlier <+: acts ∧ v = (start.after earlier).view

variable {start s : EditedSource} {acts before later : List EditAct} {past : View → Prop} {a : EditAct}
  {k n : Nat} {phase : Generation.Phase} {text : String}

theorem after_concat (s : EditedSource) (acts : List EditAct) (a : EditAct) :
    s.after (acts ++ [a]) = (s.after acts).act a := by
  simp [after]

private theorem act_advance (found : s.calls[k]? = some phase) :
    s.act (.advance k) =
      { s with
        cache := (s.generation.step s.files s.cache phase).2
        calls := s.calls.set k (s.generation.step s.files s.cache phase).1 } := by
  simp only [act, found]

private theorem act_advance_of_none (none : s.calls[k]? = none) : s.act (.advance k) = s := by
  simp only [act, none]

private theorem generation_act (s : EditedSource) (a : EditAct) : (s.act a).generation = s.generation := by
  cases a with
  | call => rfl
  | advance k =>
    rw [act]
    split <;> rfl
  | write content time => rfl

private theorem generation_after (s : EditedSource) (acts : List EditAct) :
    (s.after acts).generation = s.generation := by
  induction acts using List.reverseRecOn with
  | nil => rfl
  | append_singleton acts a ih => rw [after_concat, generation_act, ih]

private theorem view_after (s : EditedSource) (acts : List EditAct) :
    (s.after acts).view = s.generation.view (s.after acts).files := by
  rw [view, generation_after]

private theorem files_act (s : EditedSource) (other : a.isWrite = false) : (s.act a).files = s.files := by
  cases a with
  | call => rfl
  | advance k =>
    rw [act]
    split <;> rfl
  | write content time => cases other

private theorem files_after (s : EditedSource) (quiet : ∀ a ∈ acts, a.isWrite = false) :
    (s.after acts).files = s.files := by
  induction acts using List.reverseRecOn with
  | nil => rfl
  | append_singleton acts a ih =>
    have last : a.isWrite = false := quiet a (by simp)
    rw [after_concat, files_act _ last, ih fun b member => quiet b (List.mem_append_left _ member)]

private theorem view_act (s : EditedSource) (other : a.isWrite = false) : (s.act a).view = s.view := by
  rw [view, generation_act, files_act s other, view]

private theorem calls_act (found : (s.act a).calls[k]? = some phase) :
    a = .call ∧ phase = .readTime ∨
      (∃ old, a = .advance k ∧ s.calls[k]? = some old ∧
        phase = (s.generation.step s.files s.cache old).1) ∨
      a ≠ .advance k ∧ s.calls[k]? = some phase := by
  cases a with
  | call =>
    have found : (s.calls ++ [.readTime])[k]? = some phase := found
    rw [List.getElem?_append] at found
    split at found
    · exact .inr (.inr ⟨by simp, found⟩)
    · exact .inl ⟨rfl, List.mem_singleton.mp (List.mem_of_getElem? found)⟩
  | advance j =>
    cases moved : s.calls[j]? with
    | none =>
      rw [act_advance_of_none moved] at found
      refine .inr (.inr ⟨?_, found⟩)
      rintro ⟨⟩
      cases moved.symm.trans found
    | some old =>
      rw [act_advance moved, List.getElem?_set] at found
      split at found
      · rename_i same
        subst same
        split at found
        · exact .inr (.inl ⟨old, rfl, moved, (Option.some.inj found).symm⟩)
        · cases found
      · rename_i other
        refine .inr (.inr ⟨?_, found⟩)
        rintro ⟨⟩
        exact other rfl
  | write content time => exact .inr (.inr ⟨by simp, found⟩)

theorem cache_act (s : EditedSource) (a : EditAct) :
    (s.act a).cache = s.cache ∨ ∃ k phase, a = .advance k ∧ s.calls[k]? = some phase ∧
      (s.act a).cache = (s.generation.step s.files s.cache phase).2 := by
  cases a with
  | call => exact .inl rfl
  | advance k =>
    cases moved : s.calls[k]? with
    | none => exact .inl (by rw [act_advance_of_none moved])
    | some phase => exact .inr ⟨k, phase, rfl, moved, by rw [act_advance moved]⟩
  | write content time => exact .inl rfl

private theorem text?_act (ended : s.text? k = some text) (a : EditAct) : (s.act a).text? k = some text := by
  obtain ⟨phase, found, comes⟩ := Option.bind_eq_some_iff.mp ended
  have there : k < s.calls.length := (List.getElem?_eq_some_iff.mp found).1
  refine Option.bind_eq_some_iff.mpr ?_
  cases a with
  | call => exact ⟨phase, by rw [act, List.getElem?_append_left there, found], comes⟩
  | advance j =>
    cases moved : s.calls[j]? with
    | none => exact ⟨phase, by rw [act_advance_of_none moved, found], comes⟩
    | some old =>
      rw [act_advance moved]
      by_cases same : j = k
      · subst same
        obtain rfl := Option.some.inj (moved.symm.trans found)
        refine ⟨_, List.getElem?_set_self there, ?_⟩
        cases old with
        | finished result => exact comes
        | _ => cases comes
      · exact ⟨phase, by rw [List.getElem?_set_ne same, found], comes⟩
  | write content time => exact ⟨phase, found, comes⟩

theorem Had.concat {v : View} (h : start.Had before v) (a : EditAct) :
    start.Had (before ++ [a]) v := by
  obtain ⟨earlier, prior, rfl⟩ := h
  exact ⟨earlier, prior.trans (List.prefix_append before [a]), rfl⟩

private theorem WritesAdvance.eq_or_lt (advance : start.WritesAdvance acts) (prior : before <+: acts)
    {v : View} (had : start.Had before v) :
    v = (start.after before).view ∨ ∀ time now, v.time = .ok time →
      (start.after before).view.time = .ok now → time < now := by
  obtain ⟨earlier, first, rfl⟩ := had
  refine View.eq_or_lt_of_prefix (fun acts => (start.after acts).view) (fun before a prior => ?_) prior first
  cases a with
  | write content time => exact .inr (advance before content time prior)
  | call | advance k =>
    simp only [after_concat]
    exact .inl (view_act _ rfl)

theorem IsOrderly.follows (h : start.IsOrderly acts) (advance : start.WritesAdvance acts)
    (prior : before <+: acts) :
    start.generation.Follows (start.after before).files (start.Had before) where
  seen := ⟨before, List.prefix_rfl, (view_after start before).symm⟩
  dated v had := by
    rw [← view_after]
    exact advance.eq_or_lt prior had
  includes v body had read := by
    obtain ⟨earlier, first, rfl⟩ := had
    rw [view_after] at read ⊢
    rw [Generation.view_source_of_body read]
    exact StageRequest.assemble_congr (h.includes earlier before first prior body read)

/-- Whether all that is cached and all that calls hold comes from earlier views. -/
structure IsTracedBy (s : EditedSource) (past : View → Prop) : Prop where
  cache : s.generation.CacheIsTraced past s.cache
  calls : ∀ (k : Nat) phase, s.calls[k]? = some phase → phase.IsTraced past

theorem IsTracedBy.mono {past' : View → Prop} (h : s.IsTracedBy past) (more : ∀ v, past v → past' v) :
    s.IsTracedBy past' := by
  constructor
  · intro e text recorded known has dated
    obtain ⟨v, seen, rest⟩ := h.cache e text recorded known has dated
    exact ⟨v, more v seen, rest⟩
  · intro k phase found
    have traced := h.calls k phase found
    cases phase with
    | readTime | finished result => trivial
    | _ =>
      obtain ⟨v, seen, rest⟩ := traced
      exact ⟨v, more v seen, rest⟩

theorem IsTracedBy.act (h : s.IsTracedBy past) (f : s.generation.Follows s.files past) (a : EditAct) :
    (s.act a).IsTracedBy past := by
  constructor
  · rw [generation_act]
    rcases s.cache_act a with same | ⟨k, phase, rfl, found, moved⟩
    · rw [same]
      exact h.cache
    · rw [moved]
      exact h.cache.step (h.calls k phase found)
  · intro k phase found
    rcases calls_act found with ⟨rfl, rfl⟩ | ⟨old, rfl, before, rfl⟩ | ⟨_, before⟩
    · trivial
    · exact Generation.isTraced_step f s.cache (h.calls k old before)
    · exact h.calls k phase before

private theorem IsOrderly.follows_after (h : start.IsOrderly acts) (advance : start.WritesAdvance acts) :
    (start.after acts).generation.Follows (start.after acts).files (start.Had acts) := by
  rw [generation_after]
  exact h.follows advance List.prefix_rfl

private theorem IsOrderly.isTracedBy (h : start.IsOrderly acts) (advance : start.WritesAdvance acts)
    (prior : before <+: acts) : (start.after before).IsTracedBy (start.Had before) := by
  induction before using List.reverseRecOn with
  | nil =>
    constructor
    · intro e text recorded known has dated
      obtain ⟨_, rfl, rest⟩ := h.cache e text recorded known has dated
      exact ⟨_, ⟨[], List.prefix_rfl, rfl⟩, rest⟩
    · intro k phase found
      have none : (start.after []).calls = [] := h.calls
      rw [none] at found
      cases found
  | append_singleton before a ih =>
    have first : before <+: acts := (List.prefix_append before [a]).trans prior
    have f : (start.after before).generation.Follows (start.after before).files (start.Had before) := by
      rw [generation_after]
      exact h.follows advance first
    rw [after_concat]
    exact ((ih first).act f a).mono fun v had => had.concat a

/-- Whether each of the first calls, from when it has dropped what was cached until it stores its source, leaves nothing
there. -/
def KeepsBare (s : EditedSource) (n : Nat) : Prop :=
  ∀ k phase, k < n → s.calls[k]? = some phase → phase.HasCleared → s.generation.IsBare s.cache

/-- While no other call stores a source, one call leaves nothing where it has dropped what was cached. -/
theorem KeepsBare.act (h : s.KeepsBare n) (one : n ≤ 1) (a : EditAct)
    (others : ∀ k, n ≤ k → ∀ time body source, a = .advance k →
      s.calls[k]? ≠ some (.store time body source)) : (s.act a).KeepsBare n := by
  intro k phase early found cleared
  rw [generation_act]
  rcases calls_act found with ⟨_, rfl⟩ | ⟨old, rfl, before, rfl⟩ | ⟨waits, before⟩
  · exact cleared.elim
  · rw [act_advance before]
    exact Generation.isBare_step (h k old early before) cleared
  · have bare := h k phase early before cleared
    rcases s.cache_act a with same | ⟨j, moving, rfl, moved, next⟩
    · rwa [same]
    · -- There is only one first call, so it is another that moves.
      have late : n ≤ j := by
        have apart : j ≠ k := fun same => waits (congrArg EditAct.advance same)
        omega
      rw [next]
      refine bare.step fun time body source stores => ?_
      exact others j late time body source rfl (stores ▸ moved)

private theorem calls_length_le_act (s : EditedSource) (a : EditAct) :
    s.calls.length ≤ (s.act a).calls.length := by
  cases a with
  | call => simp [act]
  | advance k =>
    rw [act]
    split <;> simp
  | write content time => exact le_rfl

private theorem keepsBare_after (fresh : start.calls = []) (one : (start.after acts).calls.length ≤ 1) :
    (start.after acts).KeepsBare 1 := by
  induction acts using List.reverseRecOn with
  | nil =>
    intro k phase _ found
    have none : (start.after []).calls = [] := fresh
    rw [none] at found
    cases found
  | append_singleton acts a ih =>
    rw [after_concat] at one ⊢
    have before : (start.after acts).calls.length ≤ 1 := (calls_length_le_act _ a).trans one
    refine (ih before).act le_rfl a fun k second time body source _ => ?_
    simp [List.getElem?_eq_none (before.trans second)]

/-- Whether neither the cache nor any of the first calls has a body or source but that of the view. -/
structure IsSettled (s : EditedSource) (n : Nat) : Prop where
  cache : s.generation.CachesOnly s.view s.cache
  calls : ∀ (k : Nat) phase, k < n → s.calls[k]? = some phase → phase.HoldsOnly s.view

theorem IsSettled.act (h : s.IsSettled n) (other : a.isWrite = false)
    (holds : ∀ k phase, a = .advance k → s.calls[k]? = some phase → phase.HoldsOnly s.view) :
    (s.act a).IsSettled n := by
  constructor
  · rw [generation_act, view_act s other]
    rcases s.cache_act a with same | ⟨k, phase, rfl, found, moved⟩
    · rw [same]
      exact h.cache
    · rw [moved]
      exact h.cache.step (holds k phase rfl found)
  · intro k phase early found
    rw [view_act s other]
    rcases calls_act found with ⟨_, rfl⟩ | ⟨old, rfl, before, rfl⟩ | ⟨_, before⟩
    · trivial
    · exact Generation.holdsOnly_step s.cache (h.calls k old early before)
    · exact h.calls k phase early before

/-- What holds from the last write until a call succeeds that began after it: the first calls, `n` in number, are traced
and leave nothing where they have dropped what was cached, and what is known of late calls holds of all others. -/
structure IsSettling (s : EditedSource) (past : View → Prop) (n : Nat) : Prop where
  traced : s.IsTracedBy past
  bare : s.KeepsBare n
  late : ∀ (k : Nat) phase, n ≤ k → s.calls[k]? = some phase → phase.IsLate s.view (s.IsSettled n)

/-- If the cache is not stale, it has no source but that of the body, and no first call will store another. -/
theorem IsSettling.settled (h : s.IsSettling past n) (f : s.generation.Follows s.files past) {time : Int}
    (read : s.view.time = .ok time) (fresh : s.cache.isStale s.generation.identity time = false) :
    s.IsSettled n := by
  obtain ⟨e, recorded, known, dated, old⟩ := SourceCache.isStale_eq_false.mp fresh
  constructor
  · intro e' text known' has
    obtain rfl := Option.some.inj (known.symm.trans known')
    exact f.yields h.traced.cache read known has dated old
  · intro k phase early found
    refine Generation.Phase.holdsOnly_of_not_hasCleared fun cleared => ?_
    -- Where a call has dropped what was cached, nothing bears a time.
    rw [← h.bare k phase early found cleared e known] at dated
    cases dated

theorem IsSettling.isLate_step (h : s.IsSettling past n) (f : s.generation.Follows s.files past)
    (late : n ≤ k) (found : s.calls[k]? = some phase) :
    (s.generation.step s.files s.cache phase).1.IsLate s.view (s.IsSettled n) := by
  have known := h.late k phase late found
  refine Generation.isLate_step known IsSettled.cache fun time checks fresh => ?_
  subst checks
  exact h.settled f known fresh

theorem IsSettling.act (h : s.IsSettling past n) (f : s.generation.Follows s.files past) (one : n ≤ 1)
    (other : a.isWrite = false) (none : ∀ k, n ≤ k → (s.act a).text? k = none) :
    (s.act a).IsSettling past n := by
  refine ⟨h.traced.act f a, h.bare.act one a ?_, ?_⟩
  · -- A late call that stores its source has come to a text.
    rintro k late time body source rfl found
    have there : k < s.calls.length := (List.getElem?_eq_some_iff.mp found).1
    obtain ⟨c', stored, _⟩ := s.generation.apply_storeBatch s.cache time body source
    have ended : (s.act (.advance k)).text? k = some source.text := by
      rw [act_advance found, text?, List.getElem?_set_self there]
      simp only [Generation.step, stored]
      rfl
    cases (none k late).symm.trans ended
  · have settled : s.IsSettled n → (s.act a).IsSettled n := fun settled =>
      settled.act other fun k phase _ found => by
        by_cases early : k < n
        · exact settled.calls k phase early found
        · exact (h.late k phase (by omega) found).holdsOnly
    intro k phase late found
    rw [view_act s other]
    rcases calls_act found with ⟨_, rfl⟩ | ⟨old, rfl, before, rfl⟩ | ⟨_, before⟩
    · trivial
    · exact (h.isLate_step f late before).imp settled
    · exact (h.late k phase late before).imp settled

theorem IsSettling.yields (h : s.IsSettling past n) (f : s.generation.Follows s.files past) (late : n ≤ k)
    (ended : (s.act (.advance k)).text? k = some text) : s.view.Yields text := by
  obtain ⟨phase, found, comes⟩ := Option.bind_eq_some_iff.mp ended
  have known : phase.IsLate s.view (s.IsSettled n) := by
    rcases calls_act found with ⟨⟨⟩, _⟩ | ⟨old, _, held, rfl⟩ | ⟨waits, _⟩
    · exact h.isLate_step f late held
    · exact absurd rfl waits
  cases phase with
  | finished result =>
    cases result with
    | error e => cases comes
    | ok text' =>
      obtain rfl := Option.some.inj comes
      exact known
  | _ => cases comes

theorem IsSettling.after (h : s.IsSettling past n) (f : s.generation.Follows s.files past) (one : n ≤ 1)
    (quiet : ∀ a ∈ later, a.isWrite = false) (none : ∀ k, n ≤ k → (s.after later).text? k = none) :
    (s.after later).IsSettling past n := by
  induction later using List.reverseRecOn with
  | nil => exact h
  | append_singleton later a ih =>
    have before : ∀ b ∈ later, b.isWrite = false := fun b member =>
      quiet b (List.mem_append_left _ member)
    rw [after_concat] at none ⊢
    have earlier : ∀ k, n ≤ k → (s.after later).text? k = Option.none := by
      intro k late
      cases ended : (s.after later).text? k with
      | none => rfl
      | some text => cases (none k late).symm.trans (text?_act ended a)
    refine (ih before earlier).act ?_ one (quiet a (by simp)) none
    rw [generation_after, files_after s before]
    exact f

private theorem IsOrderly.run_eq_ok_iff (h : start.IsOrderly acts) (advance : start.WritesAdvance acts)
    (text : String) :
    let s := start.after acts
    (s.generation.run s.files s.cache).1 = .ok text ↔ s.generation.AssemblesTo s.files text := by
  intro s
  have traced : s.IsTracedBy (start.Had acts) := h.isTracedBy advance List.prefix_rfl
  exact (Generation.run_of_traced (h.follows_after advance) traced.cache text).trans
    Generation.yields_iff_assemblesTo

/-- No edit is lost.  After any calls and writes, a call that nothing comes between succeeds exactly if the body as it
is can be assembled, and comes to its source; and if at most one call had begun by then, the first to succeed of all
that begin later, whatever the order of their steps and of those of the one, comes to that source as well. -/
theorem no_edit_is_lost (start : EditedSource) (acts : List EditAct) (h : start.IsOrderly acts)
    (advance : start.WritesAdvance acts) :
    let s := start.after acts
    (∀ text, (s.generation.run s.files s.cache).1 = .ok text ↔ s.generation.AssemblesTo s.files text) ∧
    (s.calls.length ≤ 1 → ∀ later k text, (∀ a ∈ later, a.isWrite = false) → s.calls.length ≤ k →
      (∀ j, s.calls.length ≤ j → (s.after later).text? j = none) →
      ((s.after later).act (.advance k)).text? k = some text → s.generation.AssemblesTo s.files text) := by
  intro s
  refine ⟨h.run_eq_ok_iff advance, fun one later k text quiet late none ended => ?_⟩
  have f : s.generation.Follows s.files (start.Had acts) := h.follows_after advance
  have settling : s.IsSettling (start.Had acts) s.calls.length := by
    refine ⟨h.isTracedBy advance List.prefix_rfl, fun k phase early => ?_, fun k phase late found => ?_⟩
    · exact keepsBare_after h.calls one k phase (early.trans_le one)
    · rw [List.getElem?_eq_none late] at found
      cases found
  have before := settling.after f one quiet none
  have f' : (s.after later).generation.Follows (s.after later).files (start.Had acts) := by
    rw [generation_after, files_after s quiet]
    exact f
  have yields : (s.after later).view.Yields text := before.yields f' late ended
  rw [view_after, files_after s quiet] at yields
  exact Generation.yields_iff_assemblesTo.mp yields

private theorem text?_of_last (last : s.calls.length = n + 1) (waits : s.text? n = none) (late : n ≤ k) :
    s.text? k = none := by
  rcases late.eq_or_lt with rfl | beyond
  · exact waits
  · rw [text?, List.getElem?_eq_none (by omega)]
    rfl

/-- The source of the tinted shader, over an empty cache. -/
def tintSource : EditedSource :=
  ⟨((Pack.tint .standard).stageRun Pack.tintGroup Pack.tintStage).generation, Pack.tintFiles, .empty, []⟩

def tintEdit : EditAct :=
  .write "void main() { }".toUTF8 20

private theorem tintSource_reads (quiet : ∀ a ∈ acts, a.isWrite = false)
    (prior : before <+: acts ++ [tintEdit]) :
    before = acts ++ [tintEdit] ∧
        Pack.tintBody? (tintSource.after before).files = (some 20, some "void main() { }") ∨
      (∀ a ∈ before, a.isWrite = false) ∧
        Pack.tintBody? (tintSource.after before).files = (some 10, some "void main() {}") := by
  rcases List.prefix_concat_iff.mp prior with rfl | early
  · have written : Pack.tintBody? (tintSource.act tintEdit).files =
        (some 20, some "void main() { }") := by decide +kernel
    refine .inl ⟨rfl, ?_⟩
    rw [after_concat, tintEdit, act, generation_after, files_after tintSource quiet]
    exact written
  · have unwritten : ∀ a ∈ before, a.isWrite = false := fun a member => quiet a (early.subset member)
    refine .inr ⟨unwritten, ?_⟩
    rw [files_after tintSource unwritten]
    decide +kernel

private theorem tintSource_isOrderly (quiet : ∀ a ∈ acts, a.isWrite = false) :
    tintSource.IsOrderly (acts ++ [tintEdit]) where
  calls := rfl
  cache := nofun
  includes earlier later first prior body read target includer asks := by
    have one : body ∈ Pack.tintTexts := by
      rcases tintSource_reads quiet (first.trans prior) with ⟨_, shown⟩ | ⟨_, shown⟩
      · obtain rfl := Except.ok.inj (read.symm.trans (Pack.reads_of_tintBody? shown).2)
        decide
      · obtain rfl := Except.ok.inj (read.symm.trans (Pack.reads_of_tintBody? shown).2)
        decide
    exact absurd asks (Pack.tint_asks_nothing one _ _ _ _)

private theorem tintSource_writesAdvance (quiet : ∀ a ∈ acts, a.isWrite = false) :
    tintSource.WritesAdvance (acts ++ [tintEdit]) := by
  intro before content time prior earlier first old new had now
  have last : EditAct.write content time ∈ before ++ [.write content time] := by simp
  have earlier' : earlier <+: before ++ [.write content time] := first.trans (List.prefix_append _ _)
  rw [view_after] at had now
  rcases tintSource_reads quiet prior with ⟨whole, shown⟩ | ⟨unwritten, _⟩
  · obtain rfl := Except.ok.inj (now.symm.trans (Pack.reads_of_tintBody? shown).1)
    rcases tintSource_reads quiet (earlier'.trans prior) with ⟨same, _⟩ | ⟨_, shown'⟩
    · have longer := congrArg List.length (same.trans whole.symm)
      have short := first.length_le
      simp only [List.length_append, List.length_singleton] at longer
      omega
    · obtain rfl := Except.ok.inj (had.symm.trans (Pack.reads_of_tintBody? shown').1)
      decide
  · cases unwritten _ last

/-- A call has read the body when it is written. -/
def tintEdited : List EditAct :=
  (.call :: List.replicate 5 (.advance 0)) ++ [tintEdit]

/-- Another call begins before the first one has stored the source of the old body. -/
def tintOverlap : List EditAct :=
  [.call, .advance 1, .advance 0, .advance 1, .advance 0] ++ List.replicate 4 (.advance 1)

theorem no_edit_is_lost_of_tintEdited :
    tintSource.IsOrderly tintEdited ∧ tintSource.WritesAdvance tintEdited ∧
      let s := tintSource.after tintEdited
      s.calls.length ≤ 1 ∧ (∀ a ∈ tintOverlap, a.isWrite = false) ∧
        (∀ j, s.calls.length ≤ j → (s.after tintOverlap).text? j = none) ∧
        ∃ text, ((s.after tintOverlap).act (.advance 1)).text? 1 = some text ∧
          s.generation.AssemblesTo s.files text ∧ (s.generation.run s.files s.cache).1 = .ok text := by
  have quiet : ∀ a ∈ .call :: List.replicate 5 (.advance 0), EditAct.isWrite a = false := by decide
  have orderly : tintSource.IsOrderly tintEdited := tintSource_isOrderly quiet
  have advance : tintSource.WritesAdvance tintEdited := tintSource_writesAdvance quiet
  have holds := no_edit_is_lost tintSource tintEdited orderly advance
  have ran : let s := tintSource.after tintEdited
      (s.calls.length, (s.after tintOverlap).calls.length, (s.after tintOverlap).text? 1,
        (((s.after tintOverlap).act (.advance 1)).text? 1).isSome) = (1, 2, none, true) := by
    decide +kernel
  simp only [Prod.mk.injEq, Option.isSome_iff_exists] at ran
  obtain ⟨one, two, waits, text, ended⟩ := ran
  have none : ∀ j, (tintSource.after tintEdited).calls.length ≤ j →
      ((tintSource.after tintEdited).after tintOverlap).text? j = none := fun j late =>
    text?_of_last two waits (one ▸ late)
  have unwritten : ∀ a ∈ tintOverlap, a.isWrite = false := by decide
  have comes := holds.2 one.le tintOverlap 1 text unwritten one.le none ended
  exact ⟨orderly, advance, one.le, unwritten, none, text, ended, comes, (holds.1 text).mpr comes⟩

/-- Two calls have begun, and the first one has assembled a source, when the body is written. -/
def tintTwice : List EditAct :=
  ([.call, .call] ++ List.replicate 6 (.advance 0)) ++ [tintEdit]

/-- The second call stores the source of the new body, a third one finds that the cache is not stale, and the first
stores the source of the old body. -/
def tintLateStore : List EditAct :=
  List.replicate 7 (.advance 1) ++ .call :: List.replicate 3 (.advance 2) ++ [.advance 0]

theorem second_call_loses_edit :
    tintSource.IsOrderly tintTwice ∧ tintSource.WritesAdvance tintTwice ∧
      let s := tintSource.after tintTwice
      s.calls.length = 2 ∧ (∀ a ∈ tintLateStore, a.isWrite = false) ∧
        (∀ j, s.calls.length ≤ j → (s.after tintLateStore).text? j = none) ∧
        ∃ text, ((s.after tintLateStore).act (.advance 2)).text? 2 = some text ∧
          ¬ s.generation.AssemblesTo s.files text := by
  have quiet : ∀ a ∈ [.call, .call] ++ List.replicate 6 (.advance 0), EditAct.isWrite a = false := by decide
  have orderly : tintSource.IsOrderly tintTwice := tintSource_isOrderly quiet
  have advance : tintSource.WritesAdvance tintTwice := tintSource_writesAdvance quiet
  have ran : let s := tintSource.after tintTwice
      (s.calls.length, (s.after tintLateStore).calls.length, (s.after tintLateStore).text? 2,
        (((s.after tintLateStore).act (.advance 2)).text? 2).any fun text =>
          (s.generation.run s.files s.cache).1.toOption != some text) = (2, 3, none, true) := by
    decide +kernel
  simp only [Prod.mk.injEq, Option.any_eq_true] at ran
  obtain ⟨two, three, waits, text, ended, differs⟩ := ran
  refine ⟨orderly, advance, two, by decide, fun j late => text?_of_last three waits (two ▸ late), text,
    ended, fun assembles => ?_⟩
  have comes := (orderly.run_eq_ok_iff advance text).mpr assembles
  rw [comes] at differs
  simp [Except.toOption] at differs

end EditedSource

end ShaderPipeline
