import Mathlib.Data.List.Infix
import Mathlib.Data.List.Induction
import ShaderPipeline.Proofs.Pack.Processing
import ShaderPipeline.Proofs.Pack.StageStep

/-!
Runs of one stage over one cache, whose steps come between each other.

A run that takes its steps alone leaves each cached binary beside the source that it was compiled from.  Between the
steps of several runs the body may be written, and then three steps of a run that read its time before the write are
harmful: to store its source, to take a cached binary, and to put its binary into the cache.  Main statement: as long
as no such run takes one of the three, every cached binary and every compiled stage belongs to the source beside it.
-/

set_option autoImplicit false
set_option relaxedAutoImplicit false

namespace ShaderPipeline

/-- One of several runs: how far it has come, and whether the body was written since it read its time. -/
structure RunTask where
  phase : StageRun.Phase
  outdated : Bool

structure SharedRuns where
  run : StageRun
  workspace : Workspace
  tasks : List RunTask

/-- What happens next: one more run begins, a run takes a step, or the body is written. -/
inductive RunAct where
  | join
  | advance (task : Nat)
  | write (content : ByteArray) (time : Int)

namespace RunAct

def isWrite : RunAct → Bool
  | write _ _ => true
  | _ => false

private theorem eq_write {a : RunAct} (writes : a.isWrite = true) : ∃ content time, a = .write content time := by
  cases a with
  | write content time => exact ⟨content, time, rfl⟩
  | _ => cases writes

end RunAct

namespace SharedRuns

def view (s : SharedRuns) : View :=
  s.run.generation.view s.workspace.files

/-- The source and the binary of the stage, if both are cached. -/
def cached? (s : SharedRuns) : Option (String × Binary) := do
  let e ← s.workspace.cache.entry? s.run.identity
  let text ← e.fullSource
  let stored ← e.binary
  pure (text, stored.words)

/-- What was compiled by the runs that have ended. -/
def results (s : SharedRuns) : List CompiledStage :=
  s.tasks.filterMap (·.phase.result?)

def act (s : SharedRuns) : RunAct → SharedRuns
  | .join => { s with tasks := s.tasks ++ [⟨.generate .readTime, false⟩] }
  | .advance k =>
      match s.tasks[k]? with
      | some t =>
          let (phase, workspace) := s.run.step s.workspace t.phase
          { s with workspace, tasks := s.tasks.set k ⟨phase, t.outdated && !t.phase.readsTime⟩ }
      | none => s
  | .write content time =>
      { s with
        workspace :=
          { s.workspace with
            files := (s.workspace.files.write s.run.generation.request.path content time).2 }
        tasks := s.tasks.map fun t => { t with outdated := true } }

def after (s : SharedRuns) (acts : List RunAct) : SharedRuns :=
  acts.foldl act s

/-- Whether every binary belongs to the source beside it, in the cache and in what runs came to. -/
structure Matches (s : SharedRuns) : Prop where
  cached : ∀ text words, s.cached? = some (text, words) →
    s.run.compiler.compile (s.run.request text) = .ok words
  returned : ∀ compiled ∈ s.results,
    s.run.compiler.compile ⟨compiled.identity, compiled.source⟩ = .ok compiled.binary

variable {start s : SharedRuns} {acts before : List RunAct} {past : View → Prop}

theorem after_concat (s : SharedRuns) (acts : List RunAct) (a : RunAct) :
    s.after (acts ++ [a]) = (s.after acts).act a := by
  simp [after]

private theorem run_act (s : SharedRuns) (a : RunAct) : (s.act a).run = s.run := by
  cases a with
  | join => rfl
  | advance k =>
    rw [act]
    split <;> rfl
  | write content time => rfl

private theorem run_after (s : SharedRuns) (acts : List RunAct) : (s.after acts).run = s.run := by
  induction acts using List.reverseRecOn with
  | nil => rfl
  | append_singleton acts a ih => rw [after_concat, run_act, ih]

private theorem agreesWith_act (s : SharedRuns) {a : RunAct} (other : a.isWrite = false) :
    s.workspace.files.AgreesWith (s.act a).workspace.files := by
  cases a with
  | join => exact .refl _
  | advance k =>
    rw [act]
    split
    · exact (s.run.frames_step s.workspace _).files
    · exact .refl _
  | write content time => cases other

/-- What is taken for granted around the runs: a known stage, a compiler that looks at the stage and the source, a
cache without an entry for the stage, no run under way, a store in which nothing else was put and that no writing
changes, and a body that includes no files of the store. -/
structure IsOrderly (start : SharedRuns) (acts : List RunAct) : Prop where
  known : start.run.identity.stage.IsOne
  stagewise : start.run.compiler.IsStagewise
  cache : start.workspace.cache.entry? start.run.identity = none
  tasks : start.tasks = []
  store : start.run.StoreIsSound start.workspace.files
  kept : ∀ before content time, before ++ [.write content time] <+: acts →
    ∀ store, start.run.store = some store →
      store.table (start.after (before ++ [.write content time])).workspace.files =
        store.table (start.after before).workspace.files
  apart : ∀ before, before <+: acts →
    start.run.generation.request.KeepsApart start.run.generation.options
      (start.after before).workspace.files

/-- Whether every write gives the body a later time than all that it had before. -/
def WritesAdvance (start : SharedRuns) (acts : List RunAct) : Prop :=
  ∀ before content time, before ++ [.write content time] <+: acts → ∀ earlier, earlier <+: before →
    ∀ old new, (start.after earlier).view.time = .ok old →
      (start.after (before ++ [.write content time])).view.time = .ok new → old < new

/-- Whether no run trusts the cache once the body was written since it read its time. -/
def OutdatedStandBack (start : SharedRuns) (acts : List RunAct) : Prop :=
  ∀ before k, before ++ [.advance k] <+: acts → ∀ t, (start.after before).tasks[k]? = some t →
    t.outdated = true → t.phase.trustsCache = false

/-- The views that were had at any moment up to now. -/
def Had (start : SharedRuns) (acts : List RunAct) (v : View) : Prop :=
  ∃ earlier, earlier <+: acts ∧ v = (start.after earlier).view

theorem Had.concat {v : View} (h : start.Had before v) (a : RunAct) :
    start.Had (before ++ [a]) v := by
  obtain ⟨earlier, prior, rfl⟩ := h
  exact ⟨earlier, prior.trans (List.prefix_append before [a]), rfl⟩

/-- What holds at every moment of runs that stand back: what is cached was made from a view that was had, the store is
sound, and what each run holds belongs together and is current unless the run is outdated. -/
structure IsSoundOver (s : SharedRuns) (past : View → Prop) : Prop where
  cache : s.run.CacheIsSound past s.workspace.cache
  store : s.run.StoreIsSound s.workspace.files
  faithful : ∀ t ∈ s.tasks, t.phase.IsFaithful s.run
  current : ∀ t ∈ s.tasks, t.outdated = false →
    t.phase.IsCurrent s.view (s.run.CachesOnly s.view s.workspace.cache)

private theorem IsSoundOver.toMatches (h : s.IsSoundOver past) : s.Matches := by
  constructor
  · intro text words held
    obtain ⟨e, known, held⟩ := Option.bind_eq_some_iff.mp held
    obtain ⟨text', has, held⟩ := Option.bind_eq_some_iff.mp held
    obtain ⟨stored, beside, ⟨⟩⟩ := Option.bind_eq_some_iff.mp held
    obtain ⟨from', same, compiled⟩ := (h.cache e known).binary stored beside
    obtain rfl := Option.some.inj (has.symm.trans same)
    exact compiled
  · intro compiled held
    obtain ⟨t, member, ended⟩ := List.mem_filterMap.mp held
    have faithful := h.faithful t member
    cases phase : t.phase with
    | finished result =>
      cases result with
      | error e => simp [phase, StageRun.Phase.result?] at ended
      | ok compiled' =>
        rw [phase] at ended faithful
        obtain rfl := Option.some.inj ended
        exact faithful
    | _ => simp [phase, StageRun.Phase.result?] at ended

theorem IsSoundOver.advance (h : s.IsSoundOver past) (stagewise : s.run.compiler.IsStagewise)
    (known : s.run.identity.stage.IsOne) (seen : past s.view)
    (dated : ∀ u, past u → u.SameUnlessNewer s.view) {k : Nat}
    (apart : s.run.generation.request.KeepsApart s.run.generation.options s.workspace.files)
    (back : ∀ t, s.tasks[k]? = some t → t.outdated = true → t.phase.trustsCache = false) :
    (s.act (.advance k)).IsSoundOver past := by
  cases found : s.tasks[k]? with
  | none => simpa only [act, found] using h
  | some t =>
    have member : t ∈ s.tasks := List.mem_of_getElem? found
    have faithful := h.faithful t member
    have current : t.phase.trustsCache → t.phase.IsCurrent s.view
        (s.run.CachesOnly s.view s.workspace.cache) := by
      intro trusts
      refine h.current t member ?_
      by_contra outdated
      exact nomatch trusts.symm.trans (back t found (by simpa using outdated))
    have view : s.run.generation.view (s.run.step s.workspace t.phase).2.files = s.view :=
      Generation.view_eq (s.run.frames_step s.workspace t.phase).files apart
    have only : s.run.CachesOnly s.view s.workspace.cache →
        s.run.CachesOnly s.view (s.run.step s.workspace t.phase).2.cache := fun only =>
      only.step fun time body source stores => by
        rw [stores] at current
        exact congrArg View.source (current rfl).1
    simp only [act, found]
    refine ⟨h.cache.step seen faithful current, h.store.step known faithful, ?_, ?_⟩
    · intro t' member'
      rcases List.mem_or_eq_of_mem_set member' with old | rfl
      · exact h.faithful t' old
      · exact StageRun.isFaithful_step h.cache h.store stagewise known faithful current
    · intro t' member' fresh
      rw [SharedRuns.view, view]
      rcases List.mem_or_eq_of_mem_set member' with old | rfl
      · exact (h.current t' old fresh).imp only
      · refine StageRun.isCurrent_step h.cache dated fun reads => h.current t member ?_
        simpa [reads] using fresh

theorem IsSoundOver.write (h : s.IsSoundOver past) (content : ByteArray) (time : Int)
    (store : (s.act (.write content time)).run.StoreIsSound
      (s.act (.write content time)).workspace.files) :
    (s.act (.write content time)).IsSoundOver past := by
  refine ⟨h.cache, store, ?_, ?_⟩
  · intro t member
    obtain ⟨t', member', rfl⟩ := List.mem_map.mp member
    exact h.faithful t' member'
  · intro t member fresh
    obtain ⟨t', _, rfl⟩ := List.mem_map.mp member
    cases fresh

theorem IsSoundOver.join (h : s.IsSoundOver past) : (s.act .join).IsSoundOver past := by
  refine ⟨h.cache, h.store, ?_, ?_⟩
  · intro t member
    rcases List.mem_append.mp member with old | new
    · exact h.faithful t old
    · obtain rfl := List.mem_singleton.mp new
      trivial
  · intro t member fresh
    rcases List.mem_append.mp member with old | new
    · exact h.current t old fresh
    · obtain rfl := List.mem_singleton.mp new
      trivial

theorem IsSoundOver.mono {past' : View → Prop} (h : s.IsSoundOver past)
    (later : ∀ v, past v → past' v) : s.IsSoundOver past' :=
  ⟨fun e known => (h.cache e known).mono later, h.store, h.faithful, h.current⟩

private theorem IsOrderly.view_concat (h : start.IsOrderly acts) {a : RunAct} (prior : before ++ [a] <+: acts)
    (other : a.isWrite = false) :
    (start.after (before ++ [a])).view = (start.after before).view := by
  have apart := h.apart before ((List.prefix_append before [a]).trans prior)
  rw [after_concat, view, run_act, run_after, view, run_after]
  exact Generation.view_eq ((start.after before).agreesWith_act other) apart

theorem IsOrderly.sameUnlessNewer (h : start.IsOrderly acts) (advance : start.WritesAdvance acts)
    (prior : before <+: acts) {v : View} (had : start.Had before v) :
    v.SameUnlessNewer (start.after before).view := by
  obtain ⟨earlier, first, rfl⟩ := had
  have since : (start.after earlier).view = (start.after before).view ∨
      ∀ old now, (start.after earlier).view.time = .ok old →
        (start.after before).view.time = .ok now → old < now := by
    refine View.eq_or_lt_of_prefix (fun acts => (start.after acts).view) (fun before a prior => ?_) prior first
    cases writes : a.isWrite with
    | true =>
      obtain ⟨content, time, rfl⟩ := RunAct.eq_write writes
      exact .inr (advance before content time prior)
    | false => exact .inl (h.view_concat prior writes)
  rcases since with same | older
  · rw [same]
    exact fun _ _ _ _ _ => ⟨rfl, rfl⟩
  · intro old new had now notNewer
    exact absurd (older old new had now) notNewer

theorem IsOrderly.isSoundOver (h : start.IsOrderly acts) (advance : start.WritesAdvance acts)
    (back : start.OutdatedStandBack acts) (prior : before <+: acts) :
    (start.after before).IsSoundOver (start.Had before) := by
  induction before using List.reverseRecOn with
  | nil =>
    have none : (start.after []).tasks = [] := h.tasks
    refine ⟨fun e known => ?_, h.store, ?_, ?_⟩
    · exact nomatch h.cache.symm.trans known
    · rw [none]
      exact List.forall_mem_nil _
    · rw [none]
      exact List.forall_mem_nil _
  | append_singleton before a ih =>
    have first : before <+: acts := (List.prefix_append before [a]).trans prior
    have sound := ih first
    refine IsSoundOver.mono ?_ fun v (had : start.Had before v) => had.concat a
    have run := start.run_after before
    cases a with
    | join =>
      rw [after_concat]
      exact sound.join
    | advance k =>
      rw [after_concat]
      exact sound.advance (by rw [run]; exact h.stagewise) (by rw [run]; exact h.known)
        ⟨before, List.prefix_rfl, rfl⟩ (fun u had => h.sameUnlessNewer advance first had)
        (by rw [run]; exact h.apart before first) (back before k prior)
    | write content time =>
      have kept := h.kept before content time prior
      rw [after_concat] at kept ⊢
      refine sound.write content time fun store stored => ?_
      have stored' : start.run.store = some store := by
        rwa [run_act, run] at stored
      rw [kept store stored', run_act]
      exact sound.store store (by rw [run]; exact stored')

/-- No binary stands beside another source than the one that it was compiled from, whatever the order of the steps of
any number of runs and of writes, as long as no run that the body was written under trusts the cache. -/
theorem binaries_match_sources (start : SharedRuns) (acts : List RunAct) (h : start.IsOrderly acts)
    (advance : start.WritesAdvance acts) (back : start.OutdatedStandBack acts) :
    (start.after acts).Matches :=
  (h.isSoundOver advance back List.prefix_rfl).toMatches

/-- Whether the body is written only while no run is under way. -/
def WritesAreQuiet (start : SharedRuns) (acts : List RunAct) : Prop :=
  ∀ before content time, before ++ [.write content time] <+: acts →
    ∀ t ∈ (start.after before).tasks, ∃ result, t.phase = .finished result

/-- Whether every run that the body was written under has ended. -/
def OutdatedEnded (s : SharedRuns) : Prop :=
  ∀ t ∈ s.tasks, t.outdated = true → ∃ result, t.phase = .finished result

theorem OutdatedEnded.act (h : s.OutdatedEnded) {a : RunAct}
    (quiet : a.isWrite = true → ∀ t ∈ s.tasks, ∃ result, t.phase = .finished result) :
    (s.act a).OutdatedEnded := by
  intro t member outdated
  cases a with
  | join =>
    rcases List.mem_append.mp member with old | new
    · exact h t old outdated
    · obtain rfl := List.mem_singleton.mp new
      cases outdated
  | advance k =>
    simp only [SharedRuns.act] at member
    split at member
    · rename_i t' found
      rcases List.mem_or_eq_of_mem_set member with old | rfl
      · exact h t old outdated
      · have already : t'.outdated = true := (Bool.and_eq_true_iff.mp outdated).1
        obtain ⟨result, finished⟩ := h t' (List.mem_of_getElem? found) already
        exact ⟨result, by simp only [finished, StageRun.step]⟩
    · exact h t member outdated
  | write content time =>
    obtain ⟨t', old, rfl⟩ := List.mem_map.mp member
    exact quiet rfl t' old

private theorem outdatedEnded_after (fresh : start.tasks = []) (quiet : start.WritesAreQuiet acts)
    (prior : before <+: acts) : (start.after before).OutdatedEnded := by
  induction before using List.reverseRecOn with
  | nil =>
    have none : (start.after []).tasks = [] := fresh
    rw [OutdatedEnded, none]
    exact List.forall_mem_nil _
  | append_singleton before a ih =>
    rw [after_concat]
    refine (ih ((List.prefix_append before [a]).trans prior)).act fun writes => ?_
    obtain ⟨content, time, rfl⟩ := RunAct.eq_write writes
    exact quiet before content time prior

theorem outdatedStandBack_of_quiet (fresh : start.tasks = []) (quiet : start.WritesAreQuiet acts) :
    start.OutdatedStandBack acts := by
  intro before k prior t found outdated
  have first : before <+: acts := (List.prefix_append before _).trans prior
  obtain ⟨result, finished⟩ :=
    outdatedEnded_after fresh quiet first t (List.mem_of_getElem? found) outdated
  rw [finished]
  rfl

/-- The runs of the tinted shader, none of them begun, without a store. -/
def tintRuns : SharedRuns :=
  ⟨(Pack.tint .standard).stageRun Pack.tintGroup Pack.tintStage, ⟨Pack.tintFiles, .empty, []⟩, []⟩

def tintWrite : RunAct :=
  .write "void main() { }".toUTF8 20

private theorem files_after_of_no_store (bare : s.run.store = none)
    (quiet : ∀ a ∈ acts, a.isWrite = false) :
    (s.after acts).workspace.files = s.workspace.files := by
  induction acts using List.reverseRecOn with
  | nil => rfl
  | append_singleton acts a ih =>
    have ih := ih fun b member => quiet b (List.mem_append_left _ member)
    have other : a.isWrite = false := quiet a (by simp)
    rw [after_concat, ← ih]
    cases a with
    | join => rfl
    | advance k =>
      rw [act]
      split
      · exact StageRun.files_step_of_no_store _ _ (by rw [run_after, bare])
      · rfl
    | write content time => cases other

private def tintWritten : FileTree :=
  (Pack.tintFiles.write Pack.tintStage.body "void main() { }".toUTF8 20).2

/-- A schedule in which the body is written once. -/
private structure WritesOnce (acts pre post : List RunAct) : Prop where
  whole : acts = pre ++ [tintWrite] ++ post
  quiet : ∀ a ∈ pre ++ post, a.isWrite = false

variable {pre post : List RunAct}

private theorem WritesOnce.files (once : WritesOnce acts pre post) (prior : before <+: acts) :
    (tintRuns.after before).workspace.files =
      if before.length ≤ pre.length then Pack.tintFiles else tintWritten := by
  have bare : tintRuns.run.store = none := rfl
  have unwritten : ∀ part, part <+: pre → (tintRuns.after part).workspace.files = Pack.tintFiles :=
    fun part early => files_after_of_no_store bare fun a member =>
      once.quiet a (List.mem_append_left _ (early.subset member))
  have written : (tintRuns.after (pre ++ [tintWrite])).workspace.files = tintWritten := by
    have path : (tintRuns.after pre).run.generation.request.path = Pack.tintStage.body := by
      rw [run_after]
      rfl
    rw [after_concat, tintWrite, act, unwritten pre List.prefix_rfl, path]
    rfl
  rw [once.whole] at prior
  rcases List.prefix_or_prefix_of_prefix prior (List.prefix_append (pre ++ [tintWrite]) post) with
    early | ⟨mid, rfl⟩
  · rcases List.prefix_concat_iff.mp early with rfl | early
    · rw [if_neg (by simp), written]
    · rw [if_pos early.length_le, unwritten before early]
  · have more : mid <+: post := (List.prefix_append_right_inj _).mp prior
    have still : (tintRuns.after (pre ++ [tintWrite] ++ mid)).workspace.files =
        (tintRuns.after (pre ++ [tintWrite])).workspace.files := by
      have chained : tintRuns.after (pre ++ [tintWrite] ++ mid) =
          (tintRuns.after (pre ++ [tintWrite])).after mid := List.foldl_append
      rw [chained]
      refine files_after_of_no_store (by rw [run_after, bare]) fun a member => ?_
      exact once.quiet a (List.mem_append_right _ (more.subset member))
    rw [if_neg (by simp), still, written]

private theorem WritesOnce.reads (once : WritesOnce acts pre post) (prior : before <+: acts) :
    (tintRuns.after before).view.time = .ok (if before.length ≤ pre.length then 10 else 20) ∧
      ∃ text ∈ Pack.tintTexts,
        (tintRuns.after before).workspace.files.readText Pack.tintStage.body = .ok text := by
  have view : (tintRuns.after before).view.time =
      (tintRuns.after before).workspace.files.modificationTime Pack.tintStage.body := by
    rw [SharedRuns.view, run_after]
    rfl
  rw [view, once.files prior]
  by_cases early : before.length ≤ pre.length
  · rw [if_pos early, if_pos early]
    obtain ⟨time, text⟩ := @Pack.reads_of_tintBody? Pack.tintFiles 10 "void main() {}"
      (by decide +kernel)
    exact ⟨time, _, by decide, text⟩
  · rw [if_neg early, if_neg early]
    obtain ⟨time, text⟩ := @Pack.reads_of_tintBody? tintWritten 20 "void main() { }"
      (by decide +kernel)
    exact ⟨time, _, by decide, text⟩

private theorem WritesOnce.length_of_write (once : WritesOnce acts pre post) {content : ByteArray}
    {time : Int} (prior : before ++ [.write content time] <+: acts) : before.length = pre.length := by
  have last : RunAct.write content time ∈ before ++ [.write content time] := by simp
  rw [once.whole] at prior
  rcases List.prefix_or_prefix_of_prefix prior (List.prefix_append (pre ++ [tintWrite]) post) with
    early | ⟨mid, whole⟩
  · rcases List.prefix_concat_iff.mp early with same | early
    · exact congrArg List.length (List.append_inj_left' same rfl)
    · exact nomatch once.quiet _ (List.mem_append_left _ (early.subset last))
  · rcases List.eq_nil_or_concat mid with rfl | ⟨mid, a, rfl⟩
    · rw [List.append_nil] at whole
      exact (congrArg List.length (List.append_inj_left' whole rfl)).symm
    · -- A second write would come after the first.
      rw [List.concat_eq_append, ← List.append_assoc] at whole
      obtain rfl : a = RunAct.write content time := by
        simpa using List.append_inj_right' whole rfl
      rw [← whole, List.append_assoc] at prior
      have more : mid ++ [.write content time] <+: post := (List.prefix_append_right_inj _).mp prior
      have member : RunAct.write content time ∈ post := more.subset (by simp)
      exact nomatch once.quiet _ (List.mem_append_right _ member)

private theorem WritesOnce.isOrderly (once : WritesOnce acts pre post) :
    tintRuns.IsOrderly acts where
  known := ⟨.vertex, rfl⟩
  stagewise _ _ _ _ _ compiled := compiled
  cache := rfl
  tasks := rfl
  store := nofun
  kept := nofun
  apart before prior := by
    obtain ⟨_, text, one, read⟩ := once.reads prior
    exact Pack.tint_keepsApart read one

private theorem WritesOnce.advance (once : WritesOnce acts pre post) :
    tintRuns.WritesAdvance acts := by
  intro before content time prior earlier first old new had now
  have short : earlier.length ≤ before.length := first.length_le
  have whole : before <+: acts := (List.prefix_append before _).trans prior
  have place : before.length = pre.length := once.length_of_write prior
  have had' := (once.reads (first.trans whole)).1
  have now' := (once.reads prior).1
  rw [if_pos (by omega)] at had'
  rw [if_neg (by simp [place])] at now'
  obtain rfl := Except.ok.inj (had.symm.trans had')
  obtain rfl := Except.ok.inj (now.symm.trans now')
  decide

/-- A run whose body is written before it has assembled its source goes on to do so and stops, while another runs to
its end. -/
def tintStandBack : List RunAct :=
  [.join, .join] ++ List.replicate 5 (.advance 0) ++ [tintWrite, .advance 0] ++
    List.replicate 13 (.advance 1)

/-- Whether the run that takes a step after `n` acts stands back if it must. -/
private def standsBackAt (start : SharedRuns) (acts : List RunAct) (n : Nat) : Bool :=
  match acts[n]? with
  | some (.advance k) =>
      (start.after (acts.take n)).tasks[k]?.all fun t => !(t.outdated && t.phase.trustsCache)
  | _ => true

private theorem outdatedStandBack_of_all
    (back : ∀ n ∈ List.range acts.length, start.standsBackAt acts n) :
    start.OutdatedStandBack acts := by
  intro before k prior t found outdated
  have length := prior.length_le
  simp only [List.length_append, List.length_singleton] at length
  have first : before <+: acts := (List.prefix_append before _).trans prior
  have stands := back before.length (List.mem_range.mpr (by omega))
  obtain ⟨rest, rfl⟩ := prior
  rw [standsBackAt, ← List.prefix_iff_eq_take.mp first] at stands
  simpa [found, outdated] using stands

theorem binaries_match_sources_of_tintStandBack :
    tintRuns.IsOrderly tintStandBack ∧ tintRuns.WritesAdvance tintStandBack ∧
      tintRuns.OutdatedStandBack tintStandBack ∧ (tintRuns.after tintStandBack).Matches := by
  have once : WritesOnce tintStandBack ([.join, .join] ++ List.replicate 5 (.advance 0))
      ([.advance 0] ++ List.replicate 13 (.advance 1)) := ⟨rfl, by decide⟩
  have back : tintRuns.OutdatedStandBack tintStandBack :=
    outdatedStandBack_of_all (by decide +kernel)
  exact ⟨once.isOrderly, once.advance, back,
    binaries_match_sources tintRuns tintStandBack once.isOrderly once.advance back⟩

/-- A run puts its binary into the cache when another has already stored the source of a new body. -/
def lateBinary : List RunAct :=
  [.join, .join] ++ List.replicate 11 (.advance 0) ++ [tintWrite] ++ List.replicate 7 (.advance 1) ++
    [.advance 0]

/-- A run stores the source of a new body when another has already put the binary of the old one into the cache. -/
def lateSource : List RunAct :=
  [.join, .join] ++ List.replicate 4 (.advance 0) ++ List.replicate 13 (.advance 1) ++ [tintWrite] ++
    List.replicate 3 (.advance 0)

/-- A run with the source of an old body finds the binary of the new one in the cache. -/
def lateLookup : List RunAct :=
  [.join, .join] ++ List.replicate 7 (.advance 0) ++ [tintWrite] ++ List.replicate 13 (.advance 1) ++
    List.replicate 2 (.advance 0)

/-- Whether what is cached, and what was compiled, belongs together, as far as computing tells. -/
private def cachedAgree (s : SharedRuns) : Bool :=
  s.cached?.all fun p => (s.run.compiler.compile (s.run.request p.1)).toOption == some p.2

private def resultsAgree (s : SharedRuns) : Bool :=
  s.results.all fun c => (s.run.compiler.compile ⟨c.identity, c.source⟩).toOption == some c.binary

private theorem exists_cached_of_not_agree (differ : s.cachedAgree = false) :
    ∃ text words, s.cached? = some (text, words) ∧
      s.run.compiler.compile (s.run.request text) ≠ .ok words := by
  cases held : s.cached? with
  | none => simp [cachedAgree, held] at differ
  | some p =>
    refine ⟨p.1, p.2, rfl, fun compiled => ?_⟩
    simp [cachedAgree, held, compiled, Except.toOption] at differ

private theorem exists_result_of_not_agree (differ : s.resultsAgree = false) :
    ∃ c ∈ s.results, s.run.compiler.compile ⟨c.identity, c.source⟩ ≠ .ok c.binary := by
  obtain ⟨c, member, differs⟩ := List.all_eq_false.mp differ
  refine ⟨c, member, fun compiled => differs ?_⟩
  simp [compiled, Except.toOption]

private theorem late_steps_disagree : (tintRuns.after lateBinary).cachedAgree = false ∧
    (tintRuns.after lateSource).cachedAgree = false ∧
      (tintRuns.after lateLookup).resultsAgree = false := by
  decide +kernel

/-- Each of the three steps alone, taken by a run that the body was written under, leaves a binary beside a source that
it was not compiled from: in the cache, or in what the run comes to. -/
theorem late_steps_mismatch :
    (∀ acts ∈ [lateBinary, lateSource], tintRuns.IsOrderly acts ∧ tintRuns.WritesAdvance acts ∧
      ∃ text words, (tintRuns.after acts).cached? = some (text, words) ∧
        tintRuns.run.compiler.compile (tintRuns.run.request text) ≠ .ok words) ∧
    tintRuns.IsOrderly lateLookup ∧ tintRuns.WritesAdvance lateLookup ∧
      ∃ c ∈ (tintRuns.after lateLookup).results,
        tintRuns.run.compiler.compile ⟨c.identity, c.source⟩ ≠ .ok c.binary := by
  have binary : WritesOnce lateBinary ([.join, .join] ++ List.replicate 11 (.advance 0))
      (List.replicate 7 (.advance 1) ++ [.advance 0]) := ⟨rfl, by decide⟩
  have source : WritesOnce lateSource
      ([.join, .join] ++ List.replicate 4 (.advance 0) ++ List.replicate 13 (.advance 1))
      (List.replicate 3 (.advance 0)) := ⟨rfl, by decide⟩
  have lookup : WritesOnce lateLookup ([.join, .join] ++ List.replicate 7 (.advance 0))
      (List.replicate 13 (.advance 1) ++ List.replicate 2 (.advance 0)) := ⟨rfl, by decide⟩
  refine ⟨fun acts member => ?_, lookup.isOrderly, lookup.advance, ?_⟩
  · rcases List.mem_pair.mp member with rfl | rfl
    · refine ⟨binary.isOrderly, binary.advance, ?_⟩
      rw [← tintRuns.run_after lateBinary]
      exact exists_cached_of_not_agree late_steps_disagree.1
    · refine ⟨source.isOrderly, source.advance, ?_⟩
      rw [← tintRuns.run_after lateSource]
      exact exists_cached_of_not_agree late_steps_disagree.2.1
  · rw [← tintRuns.run_after lateLookup]
    exact exists_result_of_not_agree late_steps_disagree.2.2

end SharedRuns

end ShaderPipeline
