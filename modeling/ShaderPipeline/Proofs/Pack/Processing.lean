import Mathlib.Data.List.Nodup
import ShaderPipeline.Pack.Basic
import ShaderPipeline.Proofs.Catalog.Acceptance
import ShaderPipeline.Proofs.Pack.StageOutcome

/-!
What processing a shader comes to, whatever is cached.

The stages of a pack are run one after another over one cache and one store; since their identities differ, no run
disturbs the entry of another.  Main statements: over a sound cache and store a shader is processed to what the views
of its stages determine, and a stage that is ready is not compiled again.
-/

set_option autoImplicit false
set_option relaxedAutoImplicit false

namespace ShaderPipeline

namespace Pack

variable {p : Pack} {w : Workspace} {now : FileTree} {g g' : ShaderGroup} {s s' : StageSource}

/-- Whether a stage belongs to a shader of the catalog. -/
def Declares (p : Pack) (g : ShaderGroup) (s : StageSource) : Prop :=
  g ∈ p.catalog.shaderGroups ∧ s ∈ g.stages

def view (p : Pack) (g : ShaderGroup) (s : StageSource) (files : FileTree) : View :=
  (p.stageRun g s).generation.view files

/-- Stages of different identities, each a known one, and a compiler that looks at the stage alone. -/
structure IsRegular (p : Pack) : Prop where
  distinct : ∀ g s g' s', p.Declares g s → p.Declares g' s' →
    Identity.ofName g.name s.stage = Identity.ofName g'.name s'.stage → g = g' ∧ s = s'
  known : ∀ g s, p.Declares g s → s.stage.IsOne
  stagewise : p.compiler.IsStagewise

theorem identities_distinct (stages : p.catalog.StagesDistinct)
    (names : ∀ g ∈ p.catalog.shaderGroups, ∀ g' ∈ p.catalog.shaderGroups,
      Digest.textHash g.name = Digest.textHash g'.name → g.name = g'.name)
    (h : p.Declares g s) (h' : p.Declares g' s')
    (same : Identity.ofName g.name s.stage = Identity.ofName g'.name s'.stage) :
    g = g' ∧ s = s' := by
  obtain ⟨hash, stage⟩ := Identity.mk.inj same
  obtain rfl : g = g' :=
    List.inj_on_of_nodup_map stages.names h.1 h'.1 (names g h.1 g' h'.1 hash)
  exact ⟨rfl, List.inj_on_of_nodup_map (stages.stages g h.1) h.2 h'.2 stage⟩

/-- Whether the store of a pack, if it has one, holds nothing but what its compiler gave. -/
def StoreIsSound (p : Pack) (files : FileTree) : Prop :=
  ∀ store, p.store = some store → (store.table files).IsFrom p.compiler

/-- Whether all entries were made from views that their stages had in the past, and the store is sound. -/
structure IsSoundOver (p : Pack) (past : ShaderGroup → StageSource → View → Prop) (w : Workspace) :
    Prop where
  cache : ∀ g s, p.Declares g s → (p.stageRun g s).CacheIsSound (past g s) w.cache
  store : p.StoreIsSound w.files

/-- What is known of the files as a shader is processed: what SQLite keeps has no part in them, and no view that was
had before contradicts them. -/
structure IsDated (p : Pack) (past : ShaderGroup → StageSource → View → Prop) (now : FileTree) :
    Prop where
  apart : ∀ g s, p.Declares g s →
    (p.stageRun g s).generation.request.KeepsApart p.options.source now
  seen : ∀ g s, p.Declares g s → past g s (p.view g s now)
  dated : ∀ g s, p.Declares g s → ∀ v, past g s v → v.SameUnlessNewer (p.view g s now)

variable {past : ShaderGroup → StageSource → View → Prop}

/-- What the stages of a shader come to if nothing counts but the files. -/
def outcomes (p : Pack) (g : ShaderGroup) (now : FileTree) (stages : List StageSource) :
    List (StageSource × Except PackError CompiledStage) :=
  stages.map fun s => (s, (p.stageRun g s).outcome (p.view g s now))

/-- What processing comes to if nothing counts but the files. -/
def expected (p : Pack) (name : String) (now : FileTree) : Except PackError ProcessedShader :=
  match p.catalog.shaderGroup? name with
  | some g =>
      ((p.outcomes g now g.stages).foldl (ProcessedShader.fold p.catalog g) (.start g)).finish g.name
  | none => .error (.shaderNotFound name)

private theorem run_of_soundOver (regular : p.IsRegular) (dated : p.IsDated past now)
    (sound : p.IsSoundOver past w) (agree : now.AgreesWith w.files) (h : p.Declares g s) :
    ((p.stageRun g s).run w).1 = (p.stageRun g s).outcome (p.view g s now) ∧
      p.IsSoundOver past ((p.stageRun g s).run w).2 ∧
        now.AgreesWith ((p.stageRun g s).run w).2.files := by
  have same : (p.stageRun g s).generation.view w.files = p.view g s now :=
    Generation.view_eq agree (dated.apart g s h)
  have frames := (p.stageRun g s).frames_run w
  obtain ⟨comes, cache, store⟩ := StageRun.run_of_sound (sound.cache g s h) sound.store
    regular.stagewise (regular.known g s h) (same ▸ dated.seen g s h) (same ▸ dated.dated g s h)
  refine ⟨same ▸ comes, ⟨fun g' s' h' => ?_, store⟩, agree.trans frames.files⟩
  by_cases own : (p.stageRun g' s').identity = (p.stageRun g s).identity
  · obtain ⟨rfl, rfl⟩ := regular.distinct g' s' g s h' h own
    exact cache
  · intro e known
    rw [frames.others _ own] at known
    exact sound.cache g' s' h' e known

private theorem runStages_of_soundOver (regular : p.IsRegular) (dated : p.IsDated past now)
    (sound : p.IsSoundOver past w) (agree : now.AgreesWith w.files) {stages : List StageSource}
    (h : ∀ s ∈ stages, p.Declares g s) :
    (p.runStages g stages w).1 = p.outcomes g now stages ∧
      p.IsSoundOver past (p.runStages g stages w).2 ∧
        now.AgreesWith (p.runStages g stages w).2.files := by
  induction stages generalizing w with
  | nil => exact ⟨rfl, sound, agree⟩
  | cons s rest ih =>
    obtain ⟨first, later⟩ := List.forall_mem_cons.mp h
    obtain ⟨comes, sound, agree⟩ := run_of_soundOver regular dated sound agree first
    obtain ⟨others, sound, agree⟩ := ih sound agree later
    refine ⟨?_, sound, agree⟩
    simp only [runStages, others, comes]
    rfl

theorem process_of_soundOver (regular : p.IsRegular) (dated : p.IsDated past now)
    (sound : p.IsSoundOver past w) (agree : now.AgreesWith w.files) (name : String) :
    (p.process name w).1 = p.expected name now ∧ p.IsSoundOver past (p.process name w).2 ∧
      now.AgreesWith (p.process name w).2.files := by
  cases found : p.catalog.shaderGroup? name with
  | none =>
    simp only [process, expected, found]
    exact ⟨trivial, sound, agree⟩
  | some g =>
    have declared : ∀ s ∈ g.stages, p.Declares g s :=
      fun s hs => ⟨List.mem_of_find?_eq_some found, hs⟩
    obtain ⟨comes, sound, agree⟩ := runStages_of_soundOver regular dated sound agree declared
    simp only [process, expected, found, processGroup, comes]
    exact ⟨trivial, sound, agree⟩

def withoutStore (p : Pack) : Pack :=
  { p with store := none }

theorem process_withoutStore (regular : p.IsRegular)
    (apart : ∀ g s, p.Declares g s →
      (p.stageRun g s).generation.request.KeepsApart p.options.source now) (name : String) :
    (p.withoutStore.process name ⟨now, .empty, []⟩).1 = p.expected name now := by
  have regular' : p.withoutStore.IsRegular := ⟨regular.distinct, regular.known, regular.stagewise⟩
  have dated : p.withoutStore.IsDated (fun g s v => v = p.view g s now) now := by
    refine ⟨apart, fun g s h => rfl, ?_⟩
    rintro g s h v rfl time time' _ _ _
    exact ⟨rfl, rfl⟩
  have sound : p.withoutStore.IsSoundOver (fun g s v => v = p.view g s now) ⟨now, .empty, []⟩ :=
    by
    refine ⟨fun g s h e known => ?_, nofun⟩
    cases known
  exact (process_of_soundOver regular' dated sound (.refl now) name).1

variable {time : Int}

private theorem ready_of_run_of_ready (regular : p.IsRegular) (h : p.Declares g s) (h' : p.Declares g' s')
    (ready : (p.stageRun g s).IsReady time w.cache)
    (read : w.files.modificationTime s.body = .ok time) :
    (p.stageRun g s).IsReady time ((p.stageRun g' s').run w).2.cache ∧
      ∃ new, ((p.stageRun g' s').run w).2.requests = w.requests ++ new ∧
        ∀ q ∈ new, q.identity ≠ (p.stageRun g s).identity := by
  by_cases own : (p.stageRun g s).identity = (p.stageRun g' s').identity
  · obtain ⟨rfl, rfl⟩ := regular.distinct g s g' s' h h' own
    rw [StageRun.run_of_ready ready read]
    exact ⟨ready, [], by simp, nofun⟩
  · obtain ⟨e, text, known, serves, binary⟩ := ready
    have frames := (p.stageRun g' s').frames_run w
    obtain ⟨new, added, by_other⟩ := frames.requests
    refine ⟨⟨e, text, (frames.others _ own).trans known, serves, binary⟩, new, added, ?_⟩
    intro q hq same
    exact own (same.symm.trans (by_other q hq))

private theorem ready_of_runStages_of_ready (regular : p.IsRegular) (h : p.Declares g s)
    {stages : List StageSource} (h' : ∀ s' ∈ stages, p.Declares g' s')
    (ready : (p.stageRun g s).IsReady time w.cache)
    (read : w.files.modificationTime s.body = .ok time) :
    (p.stageRun g s).IsReady time (p.runStages g' stages w).2.cache ∧
      ∃ new, (p.runStages g' stages w).2.requests = w.requests ++ new ∧
        ∀ q ∈ new, q.identity ≠ (p.stageRun g s).identity := by
  induction stages generalizing w with
  | nil => exact ⟨ready, [], by simp [runStages], nofun⟩
  | cons s' rest ih =>
    obtain ⟨first, later⟩ := List.forall_mem_cons.mp h'
    have frames := (p.stageRun g' s').frames_run w
    obtain ⟨ready, new, added, others⟩ := ready_of_run_of_ready regular h first ready read
    obtain ⟨ready, more, added', others'⟩ :=
      ih later ready ((frames.files.modificationTime_eq s.body).trans read)
    refine ⟨ready, new ++ more, ?_, fun q hq => ?_⟩
    · rw [← List.append_assoc, ← added]
      exact added'
    · exact (List.mem_append.mp hq).elim (others q) (others' q)

/-- Processing any shader leaves a stage ready that is ready, and asks for nothing on its behalf. -/
theorem ready_of_process_of_ready (regular : p.IsRegular) (h : p.Declares g s) (name : String)
    (ready : (p.stageRun g s).IsReady time w.cache)
    (read : w.files.modificationTime s.body = .ok time) :
    (p.stageRun g s).IsReady time (p.process name w).2.cache ∧
      ∃ new, (p.process name w).2.requests = w.requests ++ new ∧
        ∀ q ∈ new, q.identity ≠ (p.stageRun g s).identity := by
  cases found : p.catalog.shaderGroup? name with
  | none =>
    simp only [process, found]
    exact ⟨ready, [], by simp, nofun⟩
  | some g' =>
    have declared : ∀ s' ∈ g'.stages, p.Declares g' s' :=
      fun s' hs => ⟨List.mem_of_find?_eq_some found, hs⟩
    simp only [process, found, processGroup]
    exact ready_of_runStages_of_ready regular h declared ready read

theorem mem_of_runStages {stages : List StageSource} {result : Except PackError CompiledStage}
    (done : (s, result) ∈ (p.runStages g stages w).1) : s ∈ stages := by
  induction stages generalizing w with
  | nil => cases done
  | cons t rest ih =>
    rcases List.mem_cons.mp done with same | done
    · exact (Prod.mk.inj same).1 ▸ List.mem_cons_self
    · exact List.mem_cons_of_mem t (ih done)

theorem ready_of_runStages (regular : p.IsRegular) {compiled : CompiledStage}
    {stages : List StageSource} (h : ∀ s ∈ stages, p.Declares g s)
    (done : (s, .ok compiled) ∈ (p.runStages g stages w).1) :
    ∃ time, w.files.modificationTime s.body = .ok time ∧
      (p.stageRun g s).IsReady time (p.runStages g stages w).2.cache := by
  induction stages generalizing w with
  | nil => cases done
  | cons t rest ih =>
    obtain ⟨first, later⟩ := List.forall_mem_cons.mp h
    have frames := (p.stageRun g t).frames_run w
    rcases List.mem_cons.mp done with same | done
    · obtain ⟨rfl, result⟩ := Prod.mk.inj same
      cases read : w.files.modificationTime s.body with
      | error e =>
        have failed : ((p.stageRun g s).run w).1 = .error (.source (.ofBodyAccess s.body e)) := by
          have read : w.files.modificationTime (p.stageRun g s).generation.request.path = .error e :=
            read
          simp only [StageRun.run, Generation.run, read]
          rfl
        cases result.trans failed
      | ok time =>
        have ready := StageRun.ready_of_run (r := p.stageRun g s) read result.symm
        exact ⟨time, rfl, (ready_of_runStages_of_ready regular first later ready
          ((frames.files.modificationTime_eq s.body).trans read)).1⟩
    · obtain ⟨time, read, ready⟩ := ih later done
      exact ⟨time, (frames.files.modificationTime_eq s.body).symm.trans read, ready⟩

def tintCompiler : Compiler where
  compile r := .ok [0x07230203, 0x00010000, 0, r.source.length.toUInt32, 0]
  recompile _ _ := .error .cannotRecompile

def tintStage : StageSource :=
  ⟨.of .vertex, ⟨"tint.vert"⟩⟩

def tintGroup : ShaderGroup :=
  ⟨"tint", [tintStage], [], [], [], [], []⟩

def tint (cache : CacheOptions) : Pack :=
  ⟨⟨[tintGroup], []⟩, tintCompiler, ⟨.standard, cache, []⟩, none⟩

def tintFiles : FileTree :=
  (FileTree.empty.write tintStage.body "void main() {}".toUTF8 10).2

def tintBody? (files : FileTree) : Option Int × Option String :=
  ((files.modificationTime tintStage.body).toOption, (files.readText tintStage.body).toOption)

def tintTexts : List String :=
  ["void main() {}", "void main() { }"]

variable {text : String}

theorem reads_of_tintBody? (body : tintBody? now = (some time, some text)) :
    now.modificationTime tintStage.body = .ok time ∧ now.readText tintStage.body = .ok text :=
  ⟨Outcome.toOption_eq_some.mp (congrArg Prod.fst body),
    Outcome.toOption_eq_some.mp (congrArg Prod.snd body)⟩

theorem tint_asks_nothing (one : text ∈ tintTexts) (plan : IncludePlan) (path : Path)
    (target : Include) (includer : Path) : ¬ plan.Asks now path text target includer := by
  have bare : ∀ text ∈ tintTexts, ∀ line ∈ Text.lines text,
      ((Directive.recognizeInclude line.toList).value? line).toOption = some none := by decide +kernel
  exact IncludePlan.not_asks fun line listed =>
    Outcome.toOption_eq_some.mp (bare text one line listed)

theorem tint_keepsApart {cache : CacheOptions} (read : now.readText tintStage.body = .ok text)
    (one : text ∈ tintTexts) :
    ((tint cache).stageRun tintGroup tintStage).generation.request.KeepsApart .standard now := by
  have solid : ∀ text ∈ tintTexts, text ≠ "" := by decide
  refine ⟨FileTree.isPlain_of_readText read (solid text one), fun body read' _ _ _ asks => ?_⟩
  obtain rfl := Except.ok.inj (read.symm.trans read')
  exact absurd asks (tint_asks_nothing one _ _ _ _)

end Pack

end ShaderPipeline
