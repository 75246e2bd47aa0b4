import Mathlib.Data.List.Induction
import ShaderPipeline.Proofs.Pack.Processing
import ShaderPipeline.Proofs.Pack.RunsApart

/-!
The stages of a shader, run at the same time.

A schedule says which run takes its next step.  Whatever the schedule, each run sees what it would see alone, after as
many steps of its own; running the stages one after another is one of the schedules.  Main statement: all schedules
that let every run come to its end lead to the same results, the same cached entries and the same stored binaries.
-/

set_option autoImplicit false
set_option relaxedAutoImplicit false

namespace ShaderPipeline

/-- The runs of stages over one workspace, and how far each has come. -/
structure StageTasks where
  tasks : List (StageSource × StageRun.Phase)
  workspace : Workspace

def StageTasks.IsDone (t : StageTasks) : Prop :=
  ∀ task ∈ t.tasks, ∃ result, task.2 = .finished result

namespace Pack

variable {p : Pack} {g : ShaderGroup} {origin w : Workspace} {t t' : StageTasks} {schedule schedule' : List Nat}
  {s s' : StageSource} {j k : Nat}

def launch (g : ShaderGroup) (w : Workspace) : StageTasks :=
  ⟨g.stages.map (·, .generate .readTime), w⟩

def advance (p : Pack) (g : ShaderGroup) (t : StageTasks) (k : Nat) : StageTasks :=
  match t.tasks[k]? with
  | some (s, phase) =>
      let (phase, workspace) := (p.stageRun g s).step t.workspace phase
      ⟨t.tasks.set k (s, phase), workspace⟩
  | none => t

/-- Runs all stages of a shader; a schedule tells which of them takes the next step. -/
def interleave (p : Pack) (g : ShaderGroup) (w : Workspace) (schedule : List Nat) : StageTasks :=
  schedule.foldl (p.advance g) (launch g w)

private theorem advance_some {phase : StageRun.Phase} (at_k : t.tasks[k]? = some (s, phase)) : p.advance g t k =
    ⟨t.tasks.set k (s, ((p.stageRun g s).step t.workspace phase).1),
      ((p.stageRun g s).step t.workspace phase).2⟩ := by
  simp only [advance, at_k]

private theorem advance_none (at_k : t.tasks[k]? = none) : p.advance g t k = t := by
  simp only [advance, at_k]

private theorem interleave_concat (p : Pack) (g : ShaderGroup) (w : Workspace) (schedule : List Nat) (k : Nat) :
    p.interleave g w (schedule ++ [k]) = p.advance g (p.interleave g w schedule) k := by
  simp [interleave]

/-- What keeps the stages of a shader apart: what they read is in no database, and the store has one row for each
key and different keys for different stages. -/
structure StagesApart (p : Pack) (g : ShaderGroup) (w : Workspace) : Prop where
  sources : ∀ s ∈ g.stages, (p.stageRun g s).generation.request.KeepsApart p.options.source w.files
  keys : ∀ s ∈ g.stages, ∀ s' ∈ g.stages, s ≠ s' → (p.stageRun g s).KeysApart (p.stageRun g s') w
  rows : ∀ store, p.store = some store → (store.table w.files).rules.KeepsKeys

/-- Whether a digest is that of no key that a stage of a shader stores its binary under. -/
def IsForeign (p : Pack) (g : ShaderGroup) (origin : Workspace) (digest : List UInt8) : Prop :=
  ∀ s ∈ g.stages, ∀ source, (p.stageRun g s).ComesTo origin source →
    digest ≠ (BinaryStore.key s.stage source).digest

/-- Whether the run of the stage at a place has come as far as alone after a number of steps, over a workspace that
shows it the same. -/
structure IsAsAlone (p : Pack) (g : ShaderGroup) (origin : Workspace) (n : Nat) (k : Nat) (s : StageSource)
    (t : StageTasks) : Prop where
  phase : t.tasks[k]? = some (s, ((p.stageRun g s).alone origin n).1)
  alike : (p.stageRun g s).Alike origin ((p.stageRun g s).alone origin n).2 t.workspace

/-- Whether each run has come as far as alone after as many steps, and nothing has changed that belongs to no run. -/
structure Tracks (p : Pack) (g : ShaderGroup) (origin : Workspace) (schedule : List Nat) (t : StageTasks) :
    Prop where
  length : t.tasks.length = g.stages.length
  runs : ∀ k s, g.stages[k]? = some s → p.IsAsAlone g origin (schedule.count k) k s t
  entries : ∀ i, (∀ s ∈ g.stages, i ≠ (p.stageRun g s).identity) →
    t.workspace.cache.entry? i = origin.cache.entry? i
  rules : ∀ store, p.store = some store →
    (store.table t.workspace.files).rules = (store.table origin.files).rules
  rows : ∀ store digest, p.store = some store → p.IsForeign g origin digest →
    (store.table t.workspace.files).rowsOf digest = (store.table origin.files).rowsOf digest

private theorem tracks_launch (p : Pack) (g : ShaderGroup) (origin : Workspace) : p.Tracks g origin [] (launch g origin) := by
  refine ⟨List.length_map _, fun k s at_k => ⟨?_, .refl _ origin⟩, fun _ _ => rfl, fun _ _ => rfl,
    fun _ _ _ _ => rfl⟩
  rw [launch, List.getElem?_map, at_k]
  rfl

private theorem identity_ne (stages : (g.stages.map (·.stage)).Nodup) (at_j : g.stages[j]? = some s)
    (at_k : g.stages[k]? = some s') (other : j ≠ k) : (p.stageRun g s).identity ≠ (p.stageRun g s').identity := by
  intro same
  have stage : s.stage = s'.stage := congrArg Identity.stage same
  have at_j' : (g.stages.map (·.stage))[j]? = some s.stage := by
    rw [List.getElem?_map, at_j]
    rfl
  have at_k' : (g.stages.map (·.stage))[k]? = some s'.stage := by
    rw [List.getElem?_map, at_k]
    rfl
  have bound : j < (g.stages.map (·.stage)).length := (List.getElem?_eq_some_iff.mp at_j').1
  exact other ((List.getElem?_inj bound stages).mp (at_j'.trans (stage ▸ at_k'.symm)))

theorem IsAsAlone.own {n : Nat} (h : p.IsAsAlone g origin n k s t)
    (source : (p.stageRun g s).generation.request.KeepsApart p.options.source origin.files) :
    p.IsAsAlone g origin (n + 1) k s (p.advance g t k) := by
  have bound : k < t.tasks.length := (List.getElem?_eq_some_iff.mp h.phase).1
  obtain ⟨phase, alike⟩ := h.alike.step source ((p.stageRun g s).isOwn_alone origin n)
  rw [advance_some h.phase]
  constructor
  · rw [List.getElem?_set_self bound, StageRun.alone_succ, phase]
  · rw [StageRun.alone_succ]
    exact alike

theorem IsAsAlone.other {m n : Nat} (h : p.IsAsAlone g origin m j s t) (moved : p.IsAsAlone g origin n k s' t)
    (other : j ≠ k) (identities : (p.stageRun g s).identity ≠ (p.stageRun g s').identity)
    (keys : (p.stageRun g s).KeysApart (p.stageRun g s') origin)
    (keeps : ∀ store, p.store = some store → (store.table t.workspace.files).rules.KeepsKeys) :
    p.IsAsAlone g origin m j s (p.advance g t k) := by
  rw [advance_some moved.phase]
  constructor
  · rw [List.getElem?_set_ne other.symm]
    exact h.phase
  · exact h.alike.other identities rfl keys keeps ((p.stageRun g s').isOwn_alone origin n)

private theorem count_concat (schedule : List Nat) (j k : Nat) :
    (schedule ++ [k]).count j = if j = k then schedule.count j + 1 else schedule.count j := by
  by_cases same : j = k
  · subst same
    simp
  · have none' : [k].count j = 0 := List.count_eq_zero.mpr (by simpa using same)
    rw [List.count_append, none', if_neg same, Nat.add_zero]

theorem Tracks.advance (h : p.Tracks g origin schedule t) (stages : (g.stages.map (·.stage)).Nodup)
    (apart : p.StagesApart g origin) (k : Nat) : p.Tracks g origin (schedule ++ [k]) (p.advance g t k) := by
  cases at_k : g.stages[k]? with
  | none =>
    have idle : t.tasks[k]? = none := by
      rw [List.getElem?_eq_none_iff, h.length]
      exact List.getElem?_eq_none_iff.mp at_k
    rw [advance_none idle]
    refine ⟨h.length, fun j s at_j => ?_, h.entries, h.rules, h.rows⟩
    have other : j ≠ k := by
      rintro rfl
      exact nomatch at_k.symm.trans at_j
    rw [count_concat, if_neg other]
    exact h.runs j s at_j
  | some s =>
    have member : s ∈ g.stages := List.mem_of_getElem? at_k
    have moved := h.runs k s at_k
    have keeps : ∀ store, p.store = some store → (store.table t.workspace.files).rules.KeepsKeys := by
      intro store stored
      rw [h.rules store stored]
      exact apart.rows store stored
    have runs : ∀ j s', g.stages[j]? = some s' →
        p.IsAsAlone g origin ((schedule ++ [k]).count j) j s' (p.advance g t k) := by
      intro j s' at_j
      rw [count_concat]
      -- For the run at `k` the step is its own; every other run only has to be left alone by it.
      by_cases same : j = k
      · subst same
        obtain rfl := Option.some.inj (at_k.symm.trans at_j)
        rw [if_pos rfl]
        exact moved.own (apart.sources s member)
      · have identities := identity_ne (p := p) stages at_j at_k same
        have differs : s' ≠ s := fun equal => identities (equal ▸ rfl)
        have keys := apart.keys s' (List.mem_of_getElem? at_j) s member differs
        rw [if_neg same]
        exact (h.runs j s' at_j).other moved same identities keys keeps
    have own := (p.stageRun g s).isOwn_alone origin (schedule.count k)
    have frames := (p.stageRun g s).frames_step t.workspace ((p.stageRun g s).alone origin (schedule.count k)).1
    have step := advance_some (p := p) (g := g) moved.phase
    refine ⟨?_, runs, fun i other => ?_, fun store stored => ?_, fun store digest stored foreign => ?_⟩
    · rw [step, List.length_set]
      exact h.length
    · rw [step]
      exact (frames.others i (other s member)).trans (h.entries i other)
    · rw [step]
      exact (StageRun.rules_step stored t.workspace _).trans (h.rules store stored)
    · have unchanged := StageRun.shows_step (r := p.stageRun g s) stored (keeps store stored) own (foreign s member)
      rw [step]
      exact unchanged.rows.trans (h.rows store digest stored foreign)

private theorem tracks_interleave (stages : (g.stages.map (·.stage)).Nodup) (apart : p.StagesApart g origin)
    (schedule : List Nat) : p.Tracks g origin schedule (p.interleave g origin schedule) := by
  induction schedule using List.reverseRecOn with
  | nil => exact tracks_launch p g origin
  | append_singleton schedule k ih =>
    rw [interleave_concat]
    exact ih.advance stages apart k

private theorem Tracks.isDone (h : p.Tracks g origin schedule t)
    (enough : ∀ k < g.stages.length, 15 ≤ schedule.count k) : t.IsDone := by
  intro task member
  obtain ⟨k, at_k⟩ := List.getElem?_of_mem member
  have bound : k < g.stages.length := by
    rw [← h.length]
    exact (List.getElem?_eq_some_iff.mp at_k).1
  have task' := (h.runs k g.stages[k] (List.getElem?_eq_getElem bound)).phase
  rw [StageRun.alone_of_le (enough k bound)] at task'
  obtain rfl := Option.some.inj (at_k.symm.trans task')
  exact ⟨_, rfl⟩

private theorem Tracks.alone_eq (h : p.Tracks g origin schedule t) (h' : p.Tracks g origin schedule' t') (done : t.IsDone)
    (done' : t'.IsDone) (at_k : g.stages[k]? = some s) :
    (p.stageRun g s).alone origin (schedule.count k) = (p.stageRun g s).alone origin (schedule'.count k) := by
  obtain ⟨result, ends⟩ := done _ (List.mem_of_getElem? (h.runs k s at_k).phase)
  obtain ⟨result', ends'⟩ := done' _ (List.mem_of_getElem? (h'.runs k s at_k).phase)
  exact StageRun.steps_eq_of_finished ends ends'

private theorem Tracks.tasks_eq (h : p.Tracks g origin schedule t) (h' : p.Tracks g origin schedule' t') (done : t.IsDone)
    (done' : t'.IsDone) : t.tasks = t'.tasks := by
  refine List.ext_getElem? fun k => ?_
  cases at_k : g.stages[k]? with
  | some s => rw [(h.runs k s at_k).phase, (h'.runs k s at_k).phase, h.alone_eq h' done done' at_k]
  | none =>
    have bound := List.getElem?_eq_none_iff.mp at_k
    rw [List.getElem?_eq_none_iff.mpr (h.length ▸ bound), List.getElem?_eq_none_iff.mpr (h'.length ▸ bound)]

private theorem Tracks.seen_eq (h : p.Tracks g origin schedule t) (h' : p.Tracks g origin schedule' t') (done : t.IsDone)
    (done' : t'.IsDone) (i : Identity) : t.workspace.cache.seen i = t'.workspace.cache.seen i := by
  by_cases own : ∃ s ∈ g.stages, i = (p.stageRun g s).identity
  · obtain ⟨s, member, rfl⟩ := own
    obtain ⟨k, at_k⟩ := List.getElem?_of_mem member
    have alike := (h.runs k s at_k).alike.entry
    rw [h.alone_eq h' done done' at_k] at alike
    exact alike.trans (h'.runs k s at_k).alike.entry.symm
  · have other : ∀ s ∈ g.stages, i ≠ (p.stageRun g s).identity := fun s member same => own ⟨s, member, same⟩
    rw [SourceCache.seen, h.entries i other, SourceCache.seen, h'.entries i other]

private theorem Tracks.rowsOf_eq (h : p.Tracks g origin schedule t) (h' : p.Tracks g origin schedule' t') (done : t.IsDone)
    (done' : t'.IsDone) {store : BinaryStore} (stored : p.store = some store) (digest : List UInt8) :
    (store.table t.workspace.files).rowsOf digest = (store.table t'.workspace.files).rowsOf digest := by
  -- The rows of a digest are those of the beginning, or of the run that stores under it.
  by_cases foreign : p.IsForeign g origin digest
  · rw [h.rows store digest stored foreign, h'.rows store digest stored foreign]
  · rw [IsForeign] at foreign
    push Not at foreign
    obtain ⟨s, member, source, comes, rfl⟩ := foreign
    obtain ⟨k, at_k⟩ := List.getElem?_of_mem member
    have shown := ((h.runs k s at_k).alike.store store source stored comes).rows
    rw [h.alone_eq h' done done' at_k] at shown
    exact shown.trans ((h'.runs k s at_k).alike.store store source stored comes).rows.symm

/-- The end of runs that came to some results. -/
def ended (outcome : List (StageSource × Except PackError CompiledStage) × Workspace) : StageTasks :=
  ⟨outcome.1.map fun ran => (ran.1, .finished ran.2), outcome.2⟩

/-- The schedule under which each run comes to its end before the next begins. -/
def oneAfterAnother (g : ShaderGroup) : List Nat :=
  (List.range g.stages.length).flatMap (List.replicate 15)

private theorem isDone_ended (outcome : List (StageSource × Except PackError CompiledStage) × Workspace) :
    (ended outcome).IsDone := by
  intro task member
  obtain ⟨ran, _, rfl⟩ := List.mem_map.mp member
  exact ⟨ran.2, rfl⟩

private theorem foldl_replicate (before later : List (StageSource × StageRun.Phase)) (n : Nat) (w : Workspace)
    (phase : StageRun.Phase) :
    (List.replicate n before.length).foldl (p.advance g) ⟨before ++ (s, phase) :: later, w⟩ =
      ⟨before ++ (s, ((p.stageRun g s).steps n w phase).1) :: later, ((p.stageRun g s).steps n w phase).2⟩ := by
  induction n generalizing w phase with
  | zero => rfl
  | succ n ih =>
    have at_next : (before ++ (s, phase) :: later)[before.length]? = some (s, phase) := by simp
    rw [List.replicate_succ, List.foldl_cons, advance_some at_next, List.set_append_right _ _ (Nat.le_refl _),
      Nat.sub_self, List.set_cons_zero]
    exact ih _ _

private theorem foldl_runStages (before : List (StageSource × StageRun.Phase)) (stages : List StageSource)
    (w : Workspace) :
    ((List.range' before.length stages.length).flatMap (List.replicate 15)).foldl (p.advance g)
        ⟨before ++ stages.map (·, .generate .readTime), w⟩ =
      ⟨before ++ (ended (p.runStages g stages w)).tasks, (p.runStages g stages w).2⟩ := by
  induction stages generalizing before w with
  | nil => rfl
  | cons s rest ih =>
    have later := ih (before ++ [(s, .finished ((p.stageRun g s).run w).1)]) ((p.stageRun g s).run w).2
    rw [List.length_append, List.length_singleton, List.append_assoc, List.append_assoc] at later
    rw [List.length_cons, List.range'_succ, List.flatMap_cons, List.foldl_append, List.map_cons, foldl_replicate,
      StageRun.steps_start]
    exact later

private theorem interleave_oneAfterAnother (p : Pack) (g : ShaderGroup) (w : Workspace) :
    p.interleave g w (oneAfterAnother g) = ended (p.runStages g g.stages w) := by
  rw [interleave, oneAfterAnother, List.range_eq_range']
  exact foldl_runStages [] g.stages w

/-- Whether the stages of a shader, run at the same time, have come to what they come to one after another: the same
results in the order of declaration, the same entries but for the moments of their binaries, and the same rows in
the store but for their order. -/
structure EndsLike (p : Pack) (t : StageTasks)
    (outcome : List (StageSource × Except PackError CompiledStage) × Workspace) : Prop where
  results : t.tasks = outcome.1.map fun ran => (ran.1, .finished ran.2)
  entries : ∀ i, t.workspace.cache.seen i = outcome.2.cache.seen i
  rows : ∀ store, p.store = some store →
    (store.table t.workspace.files).rows.Perm (store.table outcome.2.files).rows
  stored : ∀ store, p.store = some store → ∀ stage source,
    store.get? t.workspace.files stage source = store.get? outcome.2.files stage source

/-- Running the stages of a shader at the same time changes nothing: under every schedule that gives each run the
steps that it needs all runs end, and wherever they all have ended they have come to what they come to one after
another. -/
theorem schedule_changes_nothing (p : Pack) (g : ShaderGroup) (w : Workspace)
    (accepted : Catalog.ofGroups p.catalog.shaderGroups p.catalog.resourceGroups = .ok p.catalog)
    (declared : g ∈ p.catalog.shaderGroups) (apart : p.StagesApart g w) (schedule : List Nat) :
    ((∀ k < g.stages.length, 15 ≤ schedule.count k) → (p.interleave g w schedule).IsDone) ∧
      ((p.interleave g w schedule).IsDone →
        p.EndsLike (p.interleave g w schedule) (p.runStages g g.stages w)) := by
  have stages := (Catalog.stagesDistinct_of_ofGroups accepted).stages g declared
  have tracks := tracks_interleave stages apart schedule
  have serial := tracks_interleave stages apart (oneAfterAnother g)
  rw [interleave_oneAfterAnother] at serial
  have serial_done := isDone_ended (p.runStages g g.stages w)
  refine ⟨tracks.isDone, fun done => ⟨?_, ?_, fun store stored => ?_, fun store stored stage source => ?_⟩⟩
  · exact tracks.tasks_eq serial done serial_done
  · exact tracks.seen_eq serial done serial_done
  · exact BinaryTable.perm_of_rowsOf (tracks.rowsOf_eq serial done serial_done stored)
  · have rules := (tracks.rules store stored).trans (serial.rules store stored).symm
    have found := BinaryTable.get?_congr rules (tracks.rowsOf_eq serial done serial_done stored
      (BinaryStore.key stage source).digest)
    exact congrArg (·.mapError fun _ => CacheError.storeFailed) found

/-- The digest that a stage stores its binary under, if it comes to a source. -/
def storeDigest? (p : Pack) (g : ShaderGroup) (w : Workspace) (s : StageSource) : Option (List UInt8) :=
  ((p.stageRun g s).generation.run w.files w.cache).1.toOption.map fun source =>
    (BinaryStore.key s.stage source).digest

private theorem keysApart_of_nodup (digests : (g.stages.map (p.storeDigest? g w)).Nodup) (member : s ∈ g.stages)
    (member' : s' ∈ g.stages) (other : s ≠ s') : (p.stageRun g s).KeysApart (p.stageRun g s') w := by
  intro source source' comes comes' same
  have key : ∀ {s source}, (p.stageRun g s).ComesTo w source →
      p.storeDigest? g w s = some (BinaryStore.key s.stage source).digest := by
    intro s source comes
    have run : ((p.stageRun g s).generation.run w.files w.cache).1 = .ok source := comes
    rw [storeDigest?, run]
    rfl
  have digest : p.storeDigest? g w s = p.storeDigest? g w s' :=
    (key comes).trans ((congrArg some same).trans (key comes').symm)
  exact other (List.inj_on_of_nodup_map digests member member' digest)

/-- A pack with one shader of two stages, and a store. -/
def noonGroup : ShaderGroup :=
  ⟨"noon", [tintStage, ⟨.of .fragment, ⟨"noon.frag"⟩⟩], [], [], [], [], []⟩

def noonStore : BinaryStore × FileTree :=
  BinaryStore.openFresh (tintFiles.write ⟨"noon.frag"⟩ "void main() { }".toUTF8 10).2

def noon : Pack :=
  ⟨⟨[noonGroup], []⟩, tintCompiler, ⟨.standard, .standard, []⟩, some noonStore.1⟩

def noonWorkspace : Workspace :=
  ⟨noonStore.2, .empty, []⟩

private theorem stagesApart_noon : noon.StagesApart noonGroup noonWorkspace := by
  refine ⟨fun s member => ?_, fun s member s' member' => ?_, fun store stored => ?_⟩
  · have texts : ∀ s ∈ noonGroup.stages, ∃ text ∈ tintTexts,
        (noonWorkspace.files.readText s.body).toOption = some text := by
      decide +kernel
    obtain ⟨text, one, found⟩ := texts s member
    have read := Outcome.toOption_eq_some.mp found
    have solid : ∀ text ∈ tintTexts, text ≠ "" := by decide
    refine ⟨FileTree.isPlain_of_readText read (solid text one), fun body read' _ _ _ asks => ?_⟩
    obtain rfl := Except.ok.inj (read.symm.trans read')
    exact absurd asks (tint_asks_nothing one _ _ _ _)
  · exact keysApart_of_nodup (by decide +kernel) member member'
  · obtain rfl := Option.some.inj stored
    have rules : (noonStore.1.table noonWorkspace.files).rules = .standard := by decide +kernel
    rw [rules]
    exact TableRules.keepsKeys_standard

/-- A schedule under which the two stages take turns. -/
def inTurns : List Nat :=
  (List.replicate 15 [0, 1]).flatten

theorem schedule_changes_nothing_of_noon :
    (Catalog.ofGroups noon.catalog.shaderGroups noon.catalog.resourceGroups = .ok noon.catalog ∧
      noonGroup ∈ noon.catalog.shaderGroups ∧ noon.StagesApart noonGroup noonWorkspace) ∧
    noon.EndsLike (noon.interleave noonGroup noonWorkspace inTurns)
      (noon.runStages noonGroup noonGroup.stages noonWorkspace) ∧
    (noon.runStages noonGroup noonGroup.stages noonWorkspace).1.map (·.2.toOption.isSome) = [true, true] := by
  have accepted : Catalog.ofGroups noon.catalog.shaderGroups noon.catalog.resourceGroups = .ok noon.catalog := rfl
  have declared : noonGroup ∈ noon.catalog.shaderGroups := List.mem_singleton_self _
  have enough : ∀ k < noonGroup.stages.length, 15 ≤ inTurns.count k := by decide
  obtain ⟨ends, alike⟩ :=
    schedule_changes_nothing noon noonGroup noonWorkspace accepted declared stagesApart_noon inTurns
  exact ⟨⟨accepted, declared, stagesApart_noon⟩, alike (ends enough), by decide +kernel⟩

end Pack

end ShaderPipeline
