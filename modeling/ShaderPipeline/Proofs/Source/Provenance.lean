import Mathlib.Data.List.Induction
import ShaderPipeline.Proofs.Cache.Entries
import ShaderPipeline.Source.Generation

/-!
Where the sources in a cache come from.

Generations are begun and take their steps in any order, over files that may change from step to step, while other
callers change the cache.  Beside the cache it is noted for each identity what brought the source that was stored
last.  Main statement: when a generation ends with a source, be it new or from the cache, the cache holds for its
identity the resource groups that came with that source.
-/

set_option autoImplicit false
set_option relaxedAutoImplicit false

namespace ShaderPipeline

open Outcome

/-- What brought a source into the cache: a generation that assembled it, or a batch of another caller. -/
inductive SourceOrigin where
  | assembled (source : AssembledSource)
  | handed (text : String) (groups : List String)

namespace SourceOrigin

def text : SourceOrigin → String
  | assembled source => source.text
  | handed text _ => text

def groups : SourceOrigin → List String
  | assembled source => source.resourceGroups
  | handed _ groups => groups

end SourceOrigin

structure GenerationTask where
  generation : Generation
  phase : Generation.Phase

/-- A cache in use, the generations begun so far, and where the source stored last for each identity comes from. -/
structure CacheSession where
  cache : SourceCache
  tasks : List GenerationTask
  origins : Identity → Option SourceOrigin

inductive CacheAct where
  | begin (g : Generation)
  | advance (task : Nat) (files : FileTree)
  | apply (batch : List CacheOp)
  | addBodyPath (i : Identity) (path : Path)
  | invalidate (i : Identity)
  | erase (i : Identity)
  | keepDisassembly (i : Identity) (binary : StoredBinary) (text : String)

namespace CacheSession

def note (origins : Identity → Option SourceOrigin) (i : Identity) (o : SourceOrigin) :
    Identity → Option SourceOrigin :=
  fun j => if j = i then some o else origins j

def noteChange (origins : Identity → Option SourceOrigin) (op : CacheOp) :
    Identity → Option SourceOrigin :=
  match op.change with
  | .fullSource text groups => note origins op.identity (.handed text groups)
  | _ => origins

/-- Notes a step of a generation, which brings a source if it stores one. -/
def noteStep (origins : Identity → Option SourceOrigin) (t : GenerationTask)
    (next : Generation.Phase) : Identity → Option SourceOrigin :=
  match t.phase, next with
  | .store _ _ source, .finished (.ok _) => note origins t.generation.identity (.assembled source)
  | _, _ => origins

def start : CacheSession :=
  ⟨.empty, [], fun _ => none⟩

/-- The session after a generation took its next step over some files. -/
def advance (s : CacheSession) (task : Nat) (files : FileTree) : CacheSession :=
  match s.tasks[task]? with
  | some t =>
      let next := t.generation.step files s.cache t.phase
      { cache := next.2
        tasks := s.tasks.set task { t with phase := next.1 }
        origins := noteStep s.origins t next.1 }
  | none => s

def perform (s : CacheSession) : CacheAct → CacheSession
  | .begin g => { s with tasks := s.tasks ++ [⟨g, .readTime⟩] }
  | .advance task files => s.advance task files
  | .apply batch =>
      match s.cache.apply batch with
      | .ok cache => { s with cache, origins := batch.foldl noteChange s.origins }
      | .error _ => s
  | .addBodyPath i path => { s with cache := s.cache.addBodyPath i path }
  | .invalidate i => { s with cache := s.cache.invalidate i }
  | .erase i => { s with cache := s.cache.erase i }
  | .keepDisassembly i binary text => { s with cache := s.cache.keepDisassembly i binary text }

def after (history : List CacheAct) : CacheSession :=
  history.foldl perform start

/-- Whether a source that an entry may hold came from an origin, together with its groups. -/
def Matches (origin : Option SourceOrigin) (entry : Option CacheEntry) : Prop :=
  ∀ e text, entry = some e → e.fullSource = some text →
    ∃ o, origin = some o ∧ o.text = text ∧ o.groups = e.resourceGroups

/-- Whether all sources in a cache came from the origins that are noted. -/
def Sourced (origins : Identity → Option SourceOrigin) (c : SourceCache) : Prop :=
  ∀ i, Matches (origins i) (c.entry? i)

variable {origins : Identity → Option SourceOrigin} {c c' : SourceCache} {i : Identity}

theorem Sourced.setEntry (h : Sourced origins c) {entry : Option CacheEntry}
    (own : Matches (origins i) entry) : Sourced origins (c.setEntry i entry) := by
  intro j
  rw [SourceCache.entry?_setEntry]
  split
  · rename_i same
    exact same ▸ own
  · exact h j

private theorem matches_of_no_source {origin : Option SourceOrigin} {e : CacheEntry}
    (bare : e.fullSource = none) : Matches origin (some e) := by
  intro e' text same source
  cases same
  rw [bare] at source
  cases source

theorem Sourced.addBodyPath (h : Sourced origins c) (i : Identity) (path : Path) :
    Sourced origins (c.addBodyPath i path) := by
  rw [SourceCache.addBodyPath]
  split
  · exact h
  · exact h.setEntry (matches_of_no_source rfl)

theorem Sourced.invalidate (h : Sourced origins c) (i : Identity) :
    Sourced origins (c.invalidate i) := by
  rw [SourceCache.invalidate]
  split
  · exact h.setEntry (matches_of_no_source rfl)
  · exact h

theorem Sourced.erase (h : Sourced origins c) (i : Identity) : Sourced origins (c.erase i) := by
  refine h.setEntry fun e text same _ => ?_
  cases same

theorem Sourced.keepDisassembly (h : Sourced origins c) (i : Identity) (binary : StoredBinary)
    (text : String) : Sourced origins (c.keepDisassembly i binary text) := by
  rw [SourceCache.keepDisassembly]
  split
  · exact h
  · rename_i e known
    split
    · refine h.setEntry fun e' source same held => ?_
      cases same
      exact h i e source known held
    · exact h

private theorem noteChange_of_source {op : CacheOp} {text : String} {groups : List String}
    (brings : op.change = .fullSource text groups) :
    noteChange origins op = note origins op.identity (.handed text groups) := by
  rw [noteChange, brings]

private theorem noteChange_of_other {op : CacheOp} (keeps : ∀ t groups, op.change ≠ .fullSource t groups) :
    noteChange origins op = origins := by
  unfold noteChange
  split
  · rename_i t groups brings
    exact absurd brings (keeps t groups)
  · rfl

private theorem noteChange_apart {op : CacheOp} (apart : i ≠ op.identity) :
    noteChange origins op i = origins i := by
  by_cases brings : ∃ t groups, op.change = .fullSource t groups
  · obtain ⟨t, groups, brings⟩ := brings
    rw [noteChange_of_source brings, note, if_neg apart]
  · rw [noteChange_of_other fun t groups same => brings ⟨t, groups, same⟩]

theorem Sourced.applyOne (h : Sourced origins c) {op : CacheOp} (done : c.applyOne op = .ok c') :
    Sourced (noteChange origins op) c' := by
  obtain ⟨⟨entry, changed, own⟩, others⟩ := SourceCache.entry?_of_applyOne done
  intro j e text held source
  by_cases same : j = op.identity
  · subst same
    rw [own] at held
    subst held
    rcases CacheChange.source_of_on changed source with brings | ⟨keeps, e', before, had, groups⟩
    · refine ⟨.handed text e.resourceGroups, ?_, rfl, rfl⟩
      rw [noteChange_of_source brings, note, if_pos rfl]
    · obtain ⟨o, noted, told, listed⟩ := h op.identity e' text before had
      refine ⟨o, ?_, told, listed.trans groups⟩
      rw [noteChange_of_other keeps, noted]
  · rw [others j same] at held
    obtain ⟨o, noted, agrees⟩ := h j e text held source
    exact ⟨o, (noteChange_apart same).trans noted, agrees⟩

theorem Sourced.apply (h : Sourced origins c) {batch : List CacheOp}
    (done : c.apply batch = .ok c') : Sourced (batch.foldl noteChange origins) c' :=
  SourceCache.applyFrom_induction (P := fun c origins => Sourced origins c)
    (fun _ _ _ _ h done => h.applyOne done) done h

theorem Sourced.store (h : Sourced origins c) {g : Generation} {time : Int} {body : String}
    {source : AssembledSource} (done : c.apply (g.storeBatch time body source) = .ok c') :
    Sourced (note origins g.identity (.assembled source)) c' := by
  have handed := h.apply done
  intro j e text held full
  obtain ⟨o, noted, told, listed⟩ := handed j e text held full
  have batch : (g.storeBatch time body source).foldl noteChange origins =
      note origins g.identity (.handed source.text source.resourceGroups) := rfl
  rw [batch, note] at noted
  rw [note]
  split at noted
  · rename_i same
    cases noted
    exact ⟨.assembled source, if_pos same, told, listed⟩
  · rename_i other
    exact ⟨o, (if_neg other).trans noted, told, listed⟩

theorem Sourced.step (h : Sourced origins c) (t : GenerationTask) (files : FileTree) :
    Sourced (noteStep origins t (t.generation.step files c t.phase).1)
      (t.generation.step files c t.phase).2 := by
  obtain ⟨g, phase⟩ := t
  cases phase with
  | readTime =>
    simp only [Generation.step]
    split <;> exact h
  | registerPath time => exact h.addBodyPath g.identity g.request.path
  | checkTime time => exact h
  | findSource time =>
    simp only [Generation.step]
    split <;> exact h
  | invalidate time => exact h.invalidate g.identity
  | readBody time =>
    simp only [Generation.step]
    split <;> exact h
  | assemble time body =>
    simp only [Generation.step]
    split <;> exact h
  | store time body source =>
    simp only [Generation.step]
    split
    · rename_i done
      exact h.store done
    · exact h
  | finished result => exact h

/-- Whether a history accounts for an origin: one of its generations assembled the source, or one of its batches
handed it in. -/
def Explains (history : List CacheAct) (i : Identity) : SourceOrigin → Prop
  | .assembled source => ∃ g files body, CacheAct.begin g ∈ history ∧ g.identity = i ∧
      g.request.assemble g.catalog g.options files body = .ok source
  | .handed text groups => ∃ batch, CacheAct.apply batch ∈ history ∧ ⟨i, .fullSource text groups⟩ ∈ batch

/-- Whether a session is one that a history can lead to, as far as sources are concerned. -/
structure IsTraced (history : List CacheAct) (s : CacheSession) : Prop where
  sourced : Sourced s.origins s.cache
  explained : ∀ i o, s.origins i = some o → Explains history i o
  begun : ∀ t ∈ s.tasks, CacheAct.begin t.generation ∈ history
  assembled : ∀ t ∈ s.tasks, ∀ time body source, t.phase = .store time body source →
    ∃ files, t.generation.request.assemble t.generation.catalog t.generation.options files body =
      .ok source

variable {history : List CacheAct} {s : CacheSession} {o : SourceOrigin}

private theorem Explains.append (h : Explains history i o) (act : CacheAct) :
    Explains (history ++ [act]) i o := by
  cases o with
  | assembled source =>
    obtain ⟨g, files, body, begun, rest⟩ := h
    exact ⟨g, files, body, List.mem_append_left _ begun, rest⟩
  | handed text groups =>
    obtain ⟨batch, applied, rest⟩ := h
    exact ⟨batch, List.mem_append_left _ applied, rest⟩

private theorem noteStep_cases (origins : Identity → Option SourceOrigin) (t : GenerationTask)
    (next : Generation.Phase) :
    noteStep origins t next = origins ∨ ∃ time body source, t.phase = .store time body source ∧
      noteStep origins t next = note origins t.generation.identity (.assembled source) := by
  obtain ⟨g, phase⟩ := t
  cases phase with
  | store time body source =>
    cases next with
    | finished result =>
      cases result with
      | ok text => exact .inr ⟨time, body, source, rfl, rfl⟩
      | error e => exact .inl rfl
    | _ => exact .inl rfl
  | _ => exact .inl rfl

private theorem assembled_of_step {g : Generation} {files : FileTree} {phase : Generation.Phase}
    {time : Int} {body : String} {source : AssembledSource}
    (next : (g.step files c phase).1 = .store time body source) :
    g.request.assemble g.catalog g.options files body = .ok source := by
  cases phase with
  | assemble t b =>
    simp only [Generation.step] at next
    split at next
    · rename_i made
      cases next
      exact made
    · cases next
  | registerPath t => cases next
  | invalidate t => cases next
  | finished result => cases next
  | checkTime t =>
    simp only [Generation.step] at next
    split at next <;> cases next
  | readTime | findSource | readBody | store =>
    simp only [Generation.step] at next
    split at next <;> cases next

private theorem explained_noteStep (h : IsTraced history s) {t : GenerationTask} (ht : t ∈ s.tasks)
    (next : Generation.Phase) (noted : noteStep s.origins t next i = some o) :
    Explains history i o := by
  rcases noteStep_cases s.origins t next with kept | ⟨time, body, source, phase, stored⟩
  · rw [kept] at noted
    exact h.explained i o noted
  · rw [stored, note] at noted
    split at noted
    · rename_i same
      cases noted
      obtain ⟨files, made⟩ := h.assembled t ht time body source phase
      exact ⟨t.generation, files, body, h.begun t ht, same.symm, made⟩
    · exact h.explained i o noted

private theorem explained_noteChanges {batch ops : List CacheOp} {origins : Identity → Option SourceOrigin}
    (explained : ∀ i o, origins i = some o → Explains history i o)
    (applied : CacheAct.apply batch ∈ history) (changes : ∀ op ∈ ops, op ∈ batch)
    (noted : ops.foldl noteChange origins i = some o) : Explains history i o := by
  induction ops generalizing origins with
  | nil => exact explained i o noted
  | cons op ops ih =>
    rw [List.forall_mem_cons] at changes
    refine ih (fun j p known => ?_) changes.2 noted
    by_cases brings : ∃ t groups, op.change = .fullSource t groups
    · obtain ⟨t, groups, brings⟩ := brings
      rw [noteChange_of_source brings, note] at known
      split at known
      · rename_i same
        cases known
        refine ⟨batch, applied, ?_⟩
        rw [same, ← brings]
        exact changes.1
      · exact explained j p known
    · rw [noteChange_of_other fun t groups same => brings ⟨t, groups, same⟩] at known
      exact explained j p known

private theorem IsTraced.append (h : IsTraced history s) (act : CacheAct) : IsTraced (history ++ [act]) s :=
  ⟨h.sourced, fun i o noted => (h.explained i o noted).append act,
    fun t ht => List.mem_append_left _ (h.begun t ht), h.assembled⟩

theorem IsTraced.advance (h : IsTraced history s) (task : Nat) (files : FileTree) :
    IsTraced history (s.advance task files) := by
  rw [CacheSession.advance]
  split
  · rename_i t found
    have ht : t ∈ s.tasks := List.mem_of_getElem? found
    refine ⟨h.sourced.step t files, fun i o noted => explained_noteStep h ht _ noted, ?_, ?_⟩
    · intro t' ht'
      rcases List.mem_or_eq_of_mem_set ht' with old | rfl
      · exact h.begun t' old
      · exact h.begun t ht
    · intro t' ht' time body source phase
      rcases List.mem_or_eq_of_mem_set ht' with old | rfl
      · exact h.assembled t' old time body source phase
      · exact ⟨files, assembled_of_step phase⟩
  · exact h

theorem IsTraced.perform (h : IsTraced history s) (act : CacheAct) :
    IsTraced (history ++ [act]) (s.perform act) := by
  have kept := h.append act
  cases act with
  | begin g =>
    refine ⟨kept.sourced, kept.explained, fun t ht => ?_, fun t ht time body source phase => ?_⟩
    · rcases List.mem_append.mp ht with old | new
      · exact kept.begun t old
      · rw [List.mem_singleton.mp new]
        exact List.mem_append_right _ List.mem_cons_self
    · rcases List.mem_append.mp ht with old | new
      · exact kept.assembled t old time body source phase
      · rw [List.mem_singleton.mp new] at phase
        cases phase
  | advance task files => exact kept.advance task files
  | apply batch =>
    rw [CacheSession.perform]
    split
    · rename_i cache done
      refine ⟨h.sourced.apply done, fun i o noted => ?_, kept.begun, kept.assembled⟩
      exact explained_noteChanges kept.explained (List.mem_append_right _ List.mem_cons_self)
        (fun _ hop => hop) noted
    · exact kept
  | addBodyPath i path =>
    exact ⟨h.sourced.addBodyPath i path, kept.explained, kept.begun, kept.assembled⟩
  | invalidate i => exact ⟨h.sourced.invalidate i, kept.explained, kept.begun, kept.assembled⟩
  | erase i => exact ⟨h.sourced.erase i, kept.explained, kept.begun, kept.assembled⟩
  | keepDisassembly i binary text =>
    exact ⟨h.sourced.keepDisassembly i binary text, kept.explained, kept.begun, kept.assembled⟩

private theorem after_append (history more : List CacheAct) :
    after (history ++ more) = more.foldl perform (after history) :=
  List.foldl_append

private theorem isTraced_after (history : List CacheAct) : IsTraced history (after history) := by
  induction history using List.reverseRecOn with
  | nil =>
    refine ⟨fun i e text held => ?_, fun i o noted => ?_, fun t ht => ?_, fun t ht => ?_⟩
    · cases held
    · cases noted
    · exact absurd ht List.not_mem_nil
    · exact absurd ht List.not_mem_nil
  | append_singleton history act ih =>
    rw [after_append]
    exact ih.perform act

/-- Whether the cache holds a source for an identity with the groups that came with it from an origin that a history
accounts for. -/
def Serves (history : List CacheAct) (s : CacheSession) (i : Identity) (text : String) : Prop :=
  ∃ o, s.origins i = some o ∧ Explains history i o ∧ o.text = text ∧
    s.cache.resourceGroups? i = some o.groups

theorem IsTraced.serves (h : IsTraced history s) {text : String}
    (held : s.cache.fullSource? i = some text) : Serves history s i text := by
  obtain ⟨e, known, source⟩ := Option.bind_eq_some_iff.mp held
  obtain ⟨o, noted, told, groups⟩ := h.sourced i e text known source
  refine ⟨o, noted, h.explained i o noted, told, ?_⟩
  rw [SourceCache.resourceGroups?, known, groups]
  simp [source]

/-- The session after a generation was begun and took its eight steps with nothing between them. -/
def alone (g : Generation) (files : FileTree) (tasks : Nat) : List CacheAct :=
  .begin g :: List.replicate 8 (.advance tasks files)

private theorem perform_advances {task : Nat} {t : GenerationTask} (found : s.tasks[task]? = some t)
    (files : FileTree) (n : Nat) :
    let s' := (List.replicate n (CacheAct.advance task files)).foldl perform s
    s'.tasks[task]? = some { t with phase := (t.generation.steps files n s.cache t.phase).1 } ∧
      s'.cache = (t.generation.steps files n s.cache t.phase).2 := by
  induction n generalizing s t with
  | zero => exact ⟨found, rfl⟩
  | succ n ih =>
    have bound : task < s.tasks.length := (List.getElem?_eq_some_iff.mp found).1
    have next : s.advance task files =
        { cache := (t.generation.step files s.cache t.phase).2
          tasks := s.tasks.set task { t with phase := (t.generation.step files s.cache t.phase).1 }
          origins := noteStep s.origins t (t.generation.step files s.cache t.phase).1 } := by
      rw [CacheSession.advance, found]
    have later : (s.advance task files).tasks[task]? =
        some { t with phase := (t.generation.step files s.cache t.phase).1 } := by
      rw [next, List.getElem?_set_self bound]
    have cache : (s.advance task files).cache = (t.generation.step files s.cache t.phase).2 :=
      congrArg CacheSession.cache next
    have rest := ih later
    simp only [cache] at rest
    rw [List.replicate_succ, List.foldl_cons]
    exact rest

end CacheSession

namespace Generation

variable {g : Generation} {files : FileTree} {cache cache' : SourceCache} {text : String}

private theorem fullSource?_of_store {time : Int} {body : String} {source : AssembledSource}
    (done : cache.apply (g.storeBatch time body source) = .ok cache') :
    cache'.fullSource? g.identity = some source.text := by
  obtain ⟨c₁, _, done⟩ := SourceCache.applyFrom_cons done
  obtain ⟨c₂, _, done⟩ := SourceCache.applyFrom_cons done
  obtain ⟨c₃, stored, done⟩ := SourceCache.applyFrom_cons done
  obtain ⟨c₄, timed, done⟩ := SourceCache.applyFrom_cons done
  cases done
  obtain ⟨⟨_, brought, held⟩, _⟩ := SourceCache.entry?_of_applyOne stored
  obtain ⟨e, _, _, rfl⟩ := CacheChange.onEntry_eq_ok.mp brought
  obtain ⟨⟨_, dated, kept⟩, _⟩ := SourceCache.entry?_of_applyOne timed
  obtain ⟨e', before, _, rfl⟩ := CacheChange.onEntry_eq_ok.mp dated
  cases held.symm.trans before
  rw [SourceCache.fullSource?, kept]
  rfl

private theorem fullSource?_of_step {phase : Phase} (under : ∀ result, phase ≠ .finished result)
    (ended : (g.step files cache phase).1 = .finished (.ok text)) :
    (g.step files cache phase).2.fullSource? g.identity = some text := by
  cases phase with
  | findSource time =>
    simp only [step] at ended ⊢
    split at ended
    · rename_i source held
      cases ended
      exact held
    · cases ended
  | store time body source =>
    simp only [step] at ended ⊢
    split at ended
    · rename_i cache' done
      cases ended
      exact fullSource?_of_store done
    · cases ended
  | finished result => exact absurd rfl (under result)
  | registerPath | invalidate => cases ended
  | readTime | checkTime | readBody | assemble =>
    simp only [step] at ended
    split at ended <;> cases ended

private theorem fullSource?_of_steps {n : Nat} {phase : Phase}
    (under : ∀ result, phase ≠ .finished result)
    (ended : (g.steps files n cache phase).1 = .finished (.ok text)) :
    (g.steps files n cache phase).2.fullSource? g.identity = some text := by
  induction n generalizing cache phase with
  | zero => exact absurd ended (under (.ok text))
  | succ n ih =>
    by_cases last : ∃ result, (g.step files cache phase).1 = .finished result
    · obtain ⟨result, last⟩ := last
      have rest : g.steps files (n + 1) cache phase =
          (.finished result, (g.step files cache phase).2) := by
        rw [steps, last, steps_finished]
      rw [rest] at ended ⊢
      cases ended
      exact fullSource?_of_step under last
    · exact ih (fun result same => last ⟨result, same⟩) ended

private theorem fullSource?_of_run (done : (g.run files cache).1 = .ok text) :
    (g.run files cache).2.fullSource? g.identity = some text := by
  have steps := steps_readTime g files cache
  have last : (g.steps files 8 cache .readTime).1 = .finished (.ok text) := by
    rw [steps, ended, done]
  have under : ∀ result, Phase.readTime ≠ .finished result := fun _ => nofun
  have held := fullSource?_of_steps under last
  rwa [steps] at held

/-- A generation that is not served from the cache ends with the source that it assembles and stores. -/
theorem run_of_assemble {time : Int} {body : String} {source : AssembledSource}
    (read : files.modificationTime g.request.path = .ok time)
    (stale : g.freshSource? (cache.addBodyPath g.identity g.request.path) time = none)
    (held : files.readText g.request.path = .ok body)
    (made : g.request.assemble g.catalog g.options files body = .ok source)
    (stored : ((cache.addBodyPath g.identity g.request.path).invalidate g.identity).apply
      (g.storeBatch time body source) = .ok cache') :
    g.run files cache = (.ok source.text, cache') := by
  simp only [run, regenerate, read, stale, held, made, stored]

end Generation

namespace CacheSession

/-- A generation that ends with a source, after a history and whatever steps of others in between, leaves the groups
that came with the source. -/
theorem serves_of_advance {history : List CacheAct} {task : Nat} {files : FileTree}
    {t t' : GenerationTask} {text : String} (begun : (after history).tasks[task]? = some t)
    (under : ∀ result, t.phase ≠ .finished result)
    (next : ((after history).advance task files).tasks[task]? = some t')
    (ended : t'.phase = .finished (.ok text)) :
    Serves (history ++ [.advance task files]) ((after history).advance task files)
      t.generation.identity text := by
  have traced := (isTraced_after history).perform (.advance task files)
  have bound : task < (after history).tasks.length := (List.getElem?_eq_some_iff.mp begun).1
  refine traced.serves ?_
  simp only [perform, advance, begun] at next ⊢
  rw [List.getElem?_set_self bound] at next
  cases next
  exact Generation.fullSource?_of_step under ended

/-- A generation that runs with nothing between its steps leaves the groups that came with its source. -/
theorem serves_of_run (history : List CacheAct) {g : Generation} {files : FileTree} {text : String}
    (done : (g.run files (after history).cache).1 = .ok text) :
    let whole := history ++ alone g files (after history).tasks.length
    (after whole).cache = (g.run files (after history).cache).2 ∧
      Serves whole (after whole) g.identity text := by
  intro whole
  have started : ((after history).perform (.begin g)).tasks[(after history).tasks.length]? =
      some ⟨g, .readTime⟩ := by
    simp [perform]
  have cache : (after whole).cache = (g.run files (after history).cache).2 := by
    have steps := (perform_advances started files 8).2
    rw [Generation.steps_readTime] at steps
    rw [after_append, alone, List.foldl_cons]
    exact steps
  refine ⟨cache, (isTraced_after whole).serves ?_⟩
  rw [cache]
  exact Generation.fullSource?_of_run done

end CacheSession

end ShaderPipeline
