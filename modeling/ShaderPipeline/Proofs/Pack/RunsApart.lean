import ShaderPipeline.Proofs.Cache.Seen
import ShaderPipeline.Proofs.Pack.StoreRows

/-!
Runs that keep apart.

A run sees of a workspace the files, the entry of its identity, and the rows of the store for the source that it comes
to.  Main statements: over workspaces in which it sees the same, a run takes the same steps and sees the same
afterwards; and no step of a run of another identity, whose source has another key, changes what it sees.
-/

set_option autoImplicit false
set_option relaxedAutoImplicit false

namespace ShaderPipeline

open Outcome

namespace Generation

variable {g : Generation} {files files' : FileTree} {c c' : SourceCache} {phase : Phase}

private theorem steps_add (g : Generation) (files : FileTree) (m n : Nat) (c : SourceCache) (phase : Phase) :
    g.steps files (m + n) c phase = g.steps files n (g.steps files m c phase).2 (g.steps files m c phase).1 := by
  induction m generalizing c phase with
  | zero => rw [Nat.zero_add]; rfl
  | succ m ih =>
    have shift : m + 1 + n = m + n + 1 := by omega
    rw [shift]
    exact ih _ _

private theorem run_of_steps {n : Nat} {result : Except SourceError String}
    (ends : g.steps files n c .readTime = (.finished result, c')) : g.run files c = (result, c') := by
  have late : g.steps files (n + 8) c .readTime = (.finished result, c') := by
    rw [steps_add, ends]
    exact steps_finished ..
  have early : g.steps files (n + 8) c .readTime = ended (g.run files c) := by
    rw [Nat.add_comm, steps_add, steps_readTime]
    exact steps_finished ..
  have same := late.symm.trans early
  simp only [ended, Prod.mk.injEq, Phase.finished.injEq] at same
  exact Prod.ext same.1.symm same.2.symm

private theorem readText_of_step {time : Int} {body : String} (next : (g.step files c phase).1 = .assemble time body) :
    files.readText g.request.path = .ok body := by
  cases phase with
  | readBody t =>
    simp only [step] at next
    split at next
    · rename_i read
      cases next
      exact read
    · cases next
  | registerPath t => cases next
  | invalidate t => cases next
  | finished result => cases next
  | checkTime t =>
    simp only [step] at next
    split at next <;> cases next
  | readTime | findSource t | assemble t b | store t b source =>
    simp only [step] at next
    split at next <;> cases next

private theorem step_seen (seen : c'.seen g.identity = c.seen g.identity)
    (time : files'.modificationTime g.request.path = files.modificationTime g.request.path)
    (text : files'.readText g.request.path = files.readText g.request.path)
    (assembles : ∀ time body, phase = .assemble time body →
      g.request.assemble g.catalog g.options files' body = g.request.assemble g.catalog g.options files body) :
    (g.step files' c' phase).1 = (g.step files c phase).1 ∧
      SourceCache.seen (g.step files' c' phase).2 g.identity =
        SourceCache.seen (g.step files c phase).2 g.identity := by
  cases phase with
  | readTime =>
    simp only [step, time]
    split <;> exact ⟨rfl, seen⟩
  | registerPath t =>
    refine ⟨rfl, ?_⟩
    simp only [step, SourceCache.seen_addBodyPath, seen]
  | checkTime t =>
    refine ⟨?_, seen⟩
    simp only [step, SourceCache.isStale_eq, seen]
  | findSource t =>
    simp only [step, SourceCache.fullSource?_eq, seen]
    split <;> exact ⟨rfl, seen⟩
  | invalidate t =>
    refine ⟨rfl, ?_⟩
    simp only [step, SourceCache.seen_invalidate, seen]
  | readBody t =>
    simp only [step, text]
    split <;> exact ⟨rfl, seen⟩
  | assemble t body =>
    simp only [step, assembles t body rfl]
    split <;> exact ⟨rfl, seen⟩
  | store t body source =>
    have own : ∀ op ∈ g.storeBatch t body source, op.identity = g.identity := fun _ => identity_of_mem_storeBatch
    simp only [step]
    rcases SourceCache.apply_seen_cases own seen with ⟨e, failed', failed⟩ | ⟨after', after, done', done, alike⟩
    · rw [failed', failed]
      exact ⟨rfl, seen⟩
    · rw [done', done]
      exact ⟨rfl, alike⟩
  | finished result => exact ⟨rfl, seen⟩

end Generation

namespace StageRun

variable {r r' : StageRun} {origin w w' : Workspace} {phase : Phase} {source : String}

private theorem steps_add (r : StageRun) (m n : Nat) (w : Workspace) (phase : Phase) :
    r.steps (m + n) w phase = r.steps n (r.steps m w phase).2 (r.steps m w phase).1 := by
  induction m generalizing w phase with
  | zero => rw [Nat.zero_add]; rfl
  | succ m ih =>
    have shift : m + 1 + n = m + n + 1 := by omega
    rw [shift]
    exact ih _ _

theorem steps_finished (r : StageRun) (n : Nat) (w : Workspace) (result : Except PackError CompiledStage) :
    r.steps n w (.finished result) = (.finished result, w) := by
  induction n with
  | zero => rfl
  | succ n ih => exact ih

theorem steps_eq_of_finished {m n : Nat} {result result' : Except PackError CompiledStage}
    (ends : (r.steps m w phase).1 = .finished result) (ends' : (r.steps n w phase).1 = .finished result') :
    r.steps m w phase = r.steps n w phase := by
  have later : ∀ m n result, (r.steps m w phase).1 = .finished result → m ≤ n →
      r.steps n w phase = r.steps m w phase := by
    intro m n result ends le
    obtain ⟨k, rfl⟩ := Nat.exists_eq_add_of_le le
    rw [steps_add, ends, steps_finished, ← ends]
  rcases Nat.le_total m n with le | le
  · exact (later m n result ends le).symm
  · exact later n m result' ends' le

/-- The steps of a run from a workspace, with nothing between them. -/
def alone (r : StageRun) (origin : Workspace) (n : Nat) : Phase × Workspace :=
  r.steps n origin (.generate .readTime)

theorem alone_succ (r : StageRun) (origin : Workspace) (n : Nat) :
    r.alone origin (n + 1) = r.step (r.alone origin n).2 (r.alone origin n).1 :=
  steps_add r n 1 origin _

theorem alone_of_le {n : Nat} (enough : 15 ≤ n) : r.alone origin n = ended (r.run origin) := by
  obtain ⟨k, rfl⟩ := Nat.exists_eq_add_of_le enough
  rw [alone, steps_add, steps_start]
  exact steps_finished ..

/-- Whether a run comes to a source when nothing comes between its steps. -/
def ComesTo (r : StageRun) (origin : Workspace) (source : String) : Prop :=
  (r.generation.run origin.files origin.cache).1 = .ok source

namespace Phase

def source? : Phase → Option String
  | findBinary source | loadBinary source | compile source | storeBinary source _
  | cacheBinary source _ | findGroups source _ => some source
  | generate _ | finished _ => none

/-- Whether the source that a run holds is the one that it comes to, and the body the one that it reads. -/
structure IsOwn (r : StageRun) (origin : Workspace) (phase : Phase) : Prop where
  source : ∀ source, phase.source? = some source → r.ComesTo origin source
  body : ∀ time body, phase = .generate (.assemble time body) →
    origin.files.readText r.generation.request.path = .ok body

end Phase

private theorem eq_of_afterGeneration {next next' : Generation.Phase}
    (goes : afterGeneration next = .generate next') : next = next' := by
  cases next with
  | finished result => cases result <;> cases goes
  | _ =>
    cases goes
    rfl

private theorem source?_step (w : Workspace) (later : ∀ next, phase ≠ .generate next) :
    (∀ next, (r.step w phase).1 ≠ .generate next) ∧
      ∀ source, (r.step w phase).1.source? = some source → phase.source? = some source := by
  cases phase with
  | generate phase => exact absurd rfl (later phase)
  | storeBinary source words => exact ⟨by simp [step], fun _ => id⟩
  | findGroups source words | finished result => simp [step, Phase.source?]
  | findBinary source | loadBinary source | compile source | cacheBinary source words =>
    simp only [step]
    split
    all_goals simp [Phase.source?]

private theorem alone_cases (r : StageRun) (origin : Workspace) (n : Nat) :
    (∃ next cache, r.alone origin n = (.generate next, { origin with cache }) ∧
        r.generation.steps origin.files n origin.cache .readTime = (next, cache)) ∨
      ((∀ next, (r.alone origin n).1 ≠ .generate next) ∧
        ∀ source, (r.alone origin n).1.source? = some source → r.ComesTo origin source) := by
  -- While the source is generated, the steps are those of the generation; from then on the source stays what it is.
  induction n with
  | zero => exact .inl ⟨.readTime, origin.cache, rfl, rfl⟩
  | succ n ih =>
    rw [alone_succ]
    rcases ih with ⟨next, cache, same, generated⟩ | ⟨later, own⟩
    · rw [same]
      have further : r.generation.steps origin.files (n + 1) origin.cache .readTime =
          r.generation.step origin.files cache next := by
        rw [Generation.steps_add, generated]
        rfl
      simp only [step]
      cases taken : r.generation.step origin.files cache next with
      | mk next' cache' =>
        rw [taken] at further
        cases next' with
        | finished result =>
          have run := Generation.run_of_steps further
          cases result with
          | ok source =>
            refine .inr ⟨by simp [afterGeneration], fun source' held => ?_⟩
            obtain rfl := Option.some.inj held
            exact congrArg Prod.fst run
          | error e => exact .inr ⟨by simp [afterGeneration], by simp [afterGeneration, Phase.source?]⟩
        | _ => exact .inl ⟨_, cache', rfl, further⟩
    · obtain ⟨later', kept⟩ := source?_step (r.alone origin n).2 later
      exact .inr ⟨later', fun source held => own source (kept source held)⟩

theorem isOwn_alone (r : StageRun) (origin : Workspace) (n : Nat) : (r.alone origin n).1.IsOwn r origin := by
  constructor
  · intro source held
    rcases r.alone_cases origin n with ⟨next, cache, same, _⟩ | ⟨_, own⟩
    · rw [same] at held
      cases held
    · exact own source held
  · intro time body assembles
    cases n with
    | zero => cases assembles
    | succ n =>
      rcases r.alone_cases origin n with ⟨next, cache, same, _⟩ | ⟨later, _⟩
      · rw [alone_succ, same] at assembles
        exact Generation.readText_of_step (eq_of_afterGeneration assembles)
      · rw [alone_succ] at assembles
        exact absurd assembles ((source?_step (r.alone origin n).2 later).1 _)

/-- Whether a run sees the same of two workspaces that came about from a third. -/
structure Alike (r : StageRun) (origin w w' : Workspace) : Prop where
  files : origin.files.AgreesWith w.files
  files' : origin.files.AgreesWith w'.files
  entry : w'.cache.seen r.identity = w.cache.seen r.identity
  store : ∀ s source, r.store = some s → r.ComesTo origin source →
    s.Shows (BinaryStore.key r.identity.stage source).digest w.files w'.files

theorem Alike.refl (r : StageRun) (w : Workspace) : r.Alike w w w :=
  ⟨.refl _, .refl _, rfl, fun s _ _ _ => .refl s _ _⟩

private theorem Alike.generate (h : r.Alike origin w w')
    (apart : r.generation.request.KeepsApart r.generation.options origin.files) {next : Generation.Phase}
    (own : (Phase.generate next).IsOwn r origin) :
    (r.step w' (.generate next)).1 = (r.step w (.generate next)).1 ∧
      r.Alike origin (r.step w (.generate next)).2 (r.step w' (.generate next)).2 := by
  have time : w'.files.modificationTime r.generation.request.path =
      w.files.modificationTime r.generation.request.path := by
    rw [h.files'.modificationTime_eq, h.files.modificationTime_eq]
  have text : w'.files.readText r.generation.request.path = w.files.readText r.generation.request.path := by
    rw [h.files'.readText_eq apart.body, h.files.readText_eq apart.body]
  have assembles : ∀ time body, next = .assemble time body →
      r.generation.request.assemble r.generation.catalog r.generation.options w'.files body =
        r.generation.request.assemble r.generation.catalog r.generation.options w.files body := by
    rintro time body rfl
    have read := own.body time body rfl
    have includes : ∀ {files}, origin.files.AgreesWith files →
        r.generation.request.SameIncludes r.generation.options origin.files files body := by
      intro files agrees target includer asks
      exact IncludePlan.fetch_eq agrees (apart.includes body read target includer · asks)
    rw [StageRequest.assemble_congr (includes h.files'), StageRequest.assemble_congr (includes h.files)]
  obtain ⟨next', seen⟩ := Generation.step_seen h.entry time text assembles
  refine ⟨congrArg afterGeneration next', h.files, h.files', seen, h.store⟩

theorem Alike.step (h : r.Alike origin w w')
    (apart : r.generation.request.KeepsApart r.generation.options origin.files) (own : phase.IsOwn r origin) :
    (r.step w' phase).1 = (r.step w phase).1 ∧ r.Alike origin (r.step w phase).2 (r.step w' phase).2 := by
  cases phase with
  | generate next => exact h.generate apart own
  | findBinary source =>
    simp only [StageRun.step, SourceCache.binary?_eq, h.entry]
    split <;> exact ⟨rfl, h⟩
  | loadBinary source =>
    have found : r.stored? w'.files source = r.stored? w.files source := by
      cases stored : r.store with
      | none => simp only [stored?, stored]
      | some s => exact stored?_congr stored (h.store s source stored (own.source source rfl))
    simp only [StageRun.step, found]
    split <;> exact ⟨rfl, h⟩
  | compile source =>
    simp only [StageRun.step]
    split <;> exact ⟨rfl, h.files, h.files', h.entry, h.store⟩
  | storeBinary source words =>
    refine ⟨rfl, h.files.trans (r.agreesWith_filesWith w.files source words),
      h.files'.trans (r.agreesWith_filesWith w'.files source words), h.entry, fun s source' stored comes => ?_⟩
    have same : source = source' := Except.ok.inj ((own.source source rfl).symm.trans comes)
    subst same
    exact shows_filesWith stored (h.store s source stored comes)
  | cacheBinary source words =>
    have one : ∀ op ∈ [CacheOp.mk r.identity (.binary words)], op.identity = r.identity := by
      intro op hop
      rw [List.mem_singleton.mp hop]
    simp only [StageRun.step]
    rcases SourceCache.apply_seen_cases one h.entry with ⟨e, failed', failed⟩ | ⟨after', after, done', done, alike⟩
    · rw [failed', failed]
      exact ⟨rfl, h⟩
    · rw [done', done]
      exact ⟨rfl, h.files, h.files', alike, h.store⟩
  | findGroups source words =>
    refine ⟨?_, h⟩
    simp only [StageRun.step, compiled, SourceCache.resourceGroups?_eq, h.entry]
  | finished result => exact ⟨rfl, h⟩

/-- What a run may store under has another digest than what another run may. -/
def KeysApart (r r' : StageRun) (origin : Workspace) : Prop :=
  ∀ source source', r.ComesTo origin source → r'.ComesTo origin source' →
    (BinaryStore.key r.identity.stage source).digest ≠ (BinaryStore.key r'.identity.stage source').digest

private theorem files_step (r : StageRun) (w : Workspace) (phase : Phase) :
    (r.step w phase).2.files = w.files ∨ ∃ source words, phase = .storeBinary source words ∧
      (r.step w phase).2.files = r.filesWith w.files source words := by
  cases phase with
  | storeBinary source words => exact .inr ⟨source, words, rfl, rfl⟩
  | findBinary source | loadBinary source | compile source | cacheBinary source words =>
    simp only [StageRun.step]
    split <;> exact .inl rfl
  | generate next | findGroups source words | finished result => exact .inl rfl

theorem rules_step {s : BinaryStore} (stored : r.store = some s) (w : Workspace) (phase : Phase) :
    (s.table (r.step w phase).2.files).rules = (s.table w.files).rules := by
  rcases r.files_step w phase with same | ⟨source, words, _, changed⟩
  · rw [same]
  · rw [changed]
    exact rules_filesWith stored

theorem shows_step {s : BinaryStore} {digest : List UInt8} (stored : r.store = some s)
    (keeps : (s.table w.files).rules.KeepsKeys) (own : phase.IsOwn r origin)
    (other : ∀ source, r.ComesTo origin source → digest ≠ (BinaryStore.key r.identity.stage source).digest) :
    s.Shows digest w.files (r.step w phase).2.files := by
  rcases r.files_step w phase with same | ⟨source, words, rfl, changed⟩
  · rw [same]
    exact .refl s digest w.files
  · rw [changed]
    exact shows_filesWith_of_ne stored keeps (other source (own.source source rfl))

theorem Alike.other (h : r.Alike origin w w') (identities : r.identity ≠ r'.identity) (store : r'.store = r.store)
    (keys : r.KeysApart r' origin) (keeps : ∀ s, r.store = some s → (s.table w'.files).rules.KeepsKeys)
    (own : phase.IsOwn r' origin) : r.Alike origin w (r'.step w' phase).2 := by
  have frames := r'.frames_step w' phase
  refine ⟨h.files, h.files'.trans frames.files, ?_, fun s source stored comes => ?_⟩
  · have kept : SourceCache.seen (r'.step w' phase).2.cache r.identity = w'.cache.seen r.identity :=
      congrArg (·.map CacheEntry.timeless) (frames.others _ identities)
    exact kept.trans h.entry
  · have unchanged := shows_step (store.trans stored) (keeps s stored) own fun source' comes' =>
      keys source source' comes comes'
    exact (h.store s source stored comes).trans unchanged

end StageRun

end ShaderPipeline
