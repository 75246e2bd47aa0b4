import Mathlib.Data.List.Infix
import Mathlib.Data.List.Induction
import ShaderPipeline.Proofs.Pack.Processing

/-!
Caches and stores that cannot be noticed.

A pack is in use while files are written, touched and removed and the pack is opened anew over the same store.  Main
statement: whatever was done before, a shader is processed as it would be with nothing cached and nothing stored, if
bodies that differ from what they were are dated later than they were then; and a stage whose body is left alone is
not compiled again.  A touch that sets a changed body back to an earlier time goes unnoticed.
-/

set_option autoImplicit false
set_option relaxedAutoImplicit false

namespace ShaderPipeline

/-- A pack in use, what it works on, and where packs are opened. -/
structure PackSession where
  pack : Pack
  workspace : Workspace
  installation : Installation
  environment : String → Option String

/-- What is done with a pack in use and with the files around it. -/
inductive PackAct where
  | process (name : String)
  | write (path : Path) (content : ByteArray) (time : Int)
  | touch (path : Path) (time : Int)
  | remove (path : Path)
  | reopen

namespace PackAct

def isProcess : PackAct → Bool
  | process _ => true
  | _ => false

def isReopen : PackAct → Bool
  | reopen => true
  | _ => false

private theorem eq_process {a : PackAct} (processes : a.isProcess = true) : ∃ name, a = .process name := by
  cases a with
  | process name => exact ⟨name, rfl⟩
  | _ => cases processes

end PackAct

namespace PackSession

def files (s : PackSession) : FileTree :=
  s.workspace.files

/-- The table of the store, if there is a store. -/
def table? (s : PackSession) : Option BinaryTable :=
  s.pack.store.map (·.table s.files)

def withFiles (s : PackSession) (files : FileTree) : PackSession :=
  { s with workspace := { s.workspace with files } }

/-- A new pack with an empty cache takes the place of the old one, which is closed; if it cannot be opened, the old
one stays. -/
def reopened (s : PackSession) : PackSession :=
  match Pack.openWith s.installation s.environment s.files s.pack.catalog s.pack.compiler
      s.pack.options with
  | (.ok pack, files) =>
      { s with pack, workspace := ⟨s.pack.close files, .empty, s.workspace.requests⟩ }
  | (.error _, files) => s.withFiles files

def act (s : PackSession) : PackAct → PackSession
  | .process name => { s with workspace := (s.pack.process name s.workspace).2 }
  | .write path content time => s.withFiles (s.files.write path content time).2
  | .touch path time => s.withFiles (s.files.touch path time)
  | .remove path => s.withFiles (s.files.remove path)
  | .reopen => s.reopened

def after (s : PackSession) (acts : List PackAct) : PackSession :=
  acts.foldl act s

variable {start s : PackSession} {acts before : List PackAct}

theorem after_concat (s : PackSession) (acts : List PackAct) (a : PackAct) :
    s.after (acts ++ [a]) = (s.after acts).act a := by
  simp [after]

private theorem reopened_cases (s : PackSession) :
    (∃ store files, s.reopened =
      { s with pack := { s.pack with store }, workspace := ⟨files, .empty, s.workspace.requests⟩ }) ∨
      ∃ files, s.reopened = s.withFiles files := by
  simp only [reopened, Pack.openWith]
  generalize s.installation.openStore s.environment s.pack.options.cache s.files = opened
  obtain ⟨outcome, files⟩ := opened
  cases outcome with
  | error e => exact .inr ⟨files, rfl⟩
  | ok store => exact .inl ⟨store, _, rfl⟩

private theorem pack_act (s : PackSession) (a : PackAct) :
    (s.act a).pack = { s.pack with store := (s.act a).pack.store } := by
  cases a with
  | reopen =>
    rw [act]
    rcases s.reopened_cases with ⟨store, files, opened⟩ | ⟨files, failed⟩
    · rw [opened]
    · rw [failed]
      rfl
  | _ => rfl

private theorem pack_after (s : PackSession) (acts : List PackAct) :
    (s.after acts).pack = { s.pack with store := (s.after acts).pack.store } := by
  induction acts using List.reverseRecOn with
  | nil => rfl
  | append_singleton acts a ih =>
    rw [after_concat, pack_act, ih]

theorem cache_act (s : PackSession) {a : PackAct} (other : a.isProcess = false) :
    (s.act a).workspace.cache = s.workspace.cache ∨
      a.isReopen = true ∧ (s.act a).workspace.cache = .empty := by
  cases a with
  | process name => cases other
  | reopen =>
    rw [act]
    rcases s.reopened_cases with ⟨store, files, opened⟩ | ⟨files, failed⟩
    · exact .inr ⟨rfl, by rw [opened]⟩
    · exact .inl (by rw [failed]; rfl)
  | _ => exact .inl rfl

/-- What is taken for granted around a pack: an accepted catalog of known stages whose names have different digests, a
compiler that looks at the stage and the source, a store in which nothing else was put and that keeps what is in it,
and includes that stay as they are and are no files of the store. -/
structure IsOrderly (start : PackSession) (acts : List PackAct) : Prop where
  accepted : Catalog.ofGroups start.pack.catalog.shaderGroups start.pack.catalog.resourceGroups =
    .ok start.pack.catalog
  known : ∀ g s, start.pack.Declares g s → s.stage.IsOne
  names : ∀ g ∈ start.pack.catalog.shaderGroups, ∀ g' ∈ start.pack.catalog.shaderGroups,
    Digest.textHash g.name = Digest.textHash g'.name → g.name = g'.name
  stagewise : start.pack.compiler.IsStagewise
  cache : start.workspace.cache = .empty
  store : start.pack.StoreIsSound start.files
  kept : ∀ before a, before ++ [a] <+: acts → a.isProcess = false →
    (start.after (before ++ [a])).table? = (start.after before).table?
  apart : ∀ before, before <+: acts → ∀ g s, start.pack.Declares g s →
    (start.pack.stageRun g s).generation.request.KeepsApart start.pack.options.source
      (start.after before).files
  includes : ∀ earlier later, earlier <+: later → later <+: acts → ∀ g s,
    start.pack.Declares g s → ∀ body, (start.after earlier).files.readText s.body = .ok body →
      (start.pack.stageRun g s).generation.request.SameIncludes start.pack.options.source
        (start.after earlier).files (start.after later).files body

/-- Whether a body that differs from what it was is dated later than it was then, so that neither writing nor
touching sets it back to a time at which it had other contents. -/
def NeverSetBack (start : PackSession) (acts : List PackAct) : Prop :=
  ∀ earlier later, earlier <+: later → later <+: acts → ∀ g s, start.pack.Declares g s →
    ∀ time time', (start.after earlier).files.modificationTime s.body = .ok time →
      (start.after later).files.modificationTime s.body = .ok time' →
        (start.after later).files.readText s.body ≠ (start.after earlier).files.readText s.body →
          time < time'

/-- Whether every change of the contents of a body gives it a later time than all that it had before. -/
def EditsAdvance (start : PackSession) (acts : List PackAct) : Prop :=
  ∀ before a, before ++ [a] <+: acts → ∀ g s, start.pack.Declares g s →
    (start.after (before ++ [a])).files.readText s.body ≠ (start.after before).files.readText s.body →
      ∀ earlier, earlier <+: before → ∀ time time',
        (start.after earlier).files.modificationTime s.body = .ok time →
          (start.after (before ++ [a])).files.modificationTime s.body = .ok time' → time < time'

/-- The views that a stage had at any moment up to now. -/
def Had (start : PackSession) (acts : List PackAct) (g : ShaderGroup) (s : StageSource) (v : View) :
    Prop :=
  ∃ earlier, earlier <+: acts ∧ v = start.pack.view g s (start.after earlier).files

theorem Had.concat {g : ShaderGroup} {s : StageSource} {v : View} (h : start.Had before g s v)
    (a : PackAct) : start.Had (before ++ [a]) g s v := by
  obtain ⟨earlier, prior, rfl⟩ := h
  exact ⟨earlier, prior.trans (List.prefix_append before [a]), rfl⟩

theorem IsOrderly.regular (h : start.IsOrderly acts) (before : List PackAct) :
    (start.after before).pack.IsRegular := by
  rw [pack_after]
  have stages := Catalog.stagesDistinct_of_ofGroups h.accepted
  exact ⟨fun _ _ _ _ => Pack.identities_distinct stages h.names, h.known, h.stagewise⟩

theorem IsOrderly.sameUnlessNewer (h : start.IsOrderly acts) (dated : start.NeverSetBack acts)
    (prior : before <+: acts) {g : ShaderGroup} {s : StageSource} (declared : start.pack.Declares g s)
    {v : View} (had : start.Had before g s v) :
    v.SameUnlessNewer (start.pack.view g s (start.after before).files) := by
  obtain ⟨earlier, first, rfl⟩ := had
  intro time time' read read' old
  have text : (start.after before).files.readText s.body =
      (start.after earlier).files.readText s.body := by
    by_contra differs
    exact old (dated earlier before first prior g s declared time time' read read' differs)
  exact ⟨text, Generation.view_source_eq text (h.includes earlier before first prior g s declared)⟩

private theorem IsOrderly.isDated (h : start.IsOrderly acts) (dated : start.NeverSetBack acts)
    (prior : before <+: acts) :
    (start.after before).pack.IsDated (start.Had before) (start.after before).files := by
  rw [pack_after]
  exact ⟨h.apart before prior, fun g s _ => ⟨before, List.prefix_rfl, rfl⟩,
    fun g s declared v had => h.sameUnlessNewer dated prior declared had⟩

private theorem storeIsSound_iff (s : PackSession) :
    s.pack.StoreIsSound s.files ↔ ∀ table, s.table? = some table → table.IsFrom s.pack.compiler := by
  constructor
  · intro sound table held
    obtain ⟨store, stored, rfl⟩ := Option.map_eq_some_iff.mp held
    exact sound store stored
  · intro sound store stored
    exact sound _ (by rw [table?, stored, Option.map_some])

/-- At every moment all that is cached was made from views that were had, and the store is sound. -/
theorem IsOrderly.isSoundOver (h : start.IsOrderly acts) (dated : start.NeverSetBack acts)
    (prior : before <+: acts) :
    (start.after before).pack.IsSoundOver (start.Had before) (start.after before).workspace := by
  induction before using List.reverseRecOn with
  | nil =>
    refine ⟨fun g s _ e known => ?_, h.store⟩
    have none : start.workspace.cache.entry? (start.pack.stageRun g s).identity = none := by
      rw [h.cache]
      rfl
    exact nomatch none.symm.trans known
  | append_singleton before a ih =>
    have first : before <+: acts := (List.prefix_append before [a]).trans prior
    have sound := ih first
    have later : ∀ g s v, start.Had before g s v → start.Had (before ++ [a]) g s v :=
      fun g s v had => had.concat a
    cases processes : a.isProcess with
    | true =>
      obtain ⟨name, rfl⟩ := PackAct.eq_process processes
      rw [after_concat]
      obtain ⟨_, sound, _⟩ := Pack.process_of_soundOver (h.regular before)
        (h.isDated dated first) sound (.refl _) name
      exact ⟨fun g s declared e known => (sound.cache g s declared e known).mono (later g s),
        sound.store⟩
    | false =>
      have pack := (start.after before).pack_act a
      refine ⟨fun g s declared e known => ?_, ?_⟩
      · rw [after_concat] at declared known ⊢
        rw [pack] at declared known ⊢
        rcases (start.after before).cache_act processes with same | ⟨_, emptied⟩
        · rw [same] at known
          exact ((sound.cache g s declared e known).mono (later g s)).withStore _
        · rw [emptied] at known
          exact nomatch known
      · have kept := h.kept before a prior processes
        have compiler : (start.after (before ++ [a])).pack.compiler =
            (start.after before).pack.compiler := by
          rw [after_concat, pack]
        refine (storeIsSound_iff _).mpr fun table held => ?_
        rw [compiler]
        exact (storeIsSound_iff _).mp sound.store table (kept ▸ held)

/-- Whether a stage has what it takes not to be compiled again. -/
private def IsReadyAt (start : PackSession) (g : ShaderGroup) (s : StageSource) (time : Int)
    (acts : List PackAct) : Prop :=
  ((start.after acts).pack.stageRun g s).IsReady time (start.after acts).workspace.cache

private theorem IsOrderly.isReadyAt (h : start.IsOrderly acts) {g : ShaderGroup} {s : StageSource}
    (declared : start.pack.Declares g s) {time : Int} {between : List PackAct}
    (ready : start.IsReadyAt g s time before)
    (open' : ∀ a ∈ between, a.isReopen = false)
    (kept : ∀ part, part <+: between →
      (start.after (before ++ part)).files.modificationTime s.body = .ok time) :
    start.IsReadyAt g s time (before ++ between) := by
  induction between using List.reverseRecOn with
  | nil => simpa using ready
  | append_singleton between a ih =>
    have first : between <+: between ++ [a] := List.prefix_append between [a]
    have ready := ih (fun b hb => open' b (List.mem_append_left _ hb))
      (fun part prior => kept part (prior.trans first))
    have read := kept between first
    rw [IsReadyAt, ← List.append_assoc, after_concat, pack_act]
    cases processes : a.isProcess with
    | true =>
      obtain ⟨name, rfl⟩ := PackAct.eq_process processes
      have declared' : (start.after (before ++ between)).pack.Declares g s := by
        rw [pack_after]
        exact declared
      exact (Pack.ready_of_process_of_ready (h.regular _) declared' name ready read).1
    | false =>
      rcases (start.after (before ++ between)).cache_act processes with same | ⟨reopens, _⟩
      · rw [same]
        exact ready
      · exact nomatch reopens.symm.trans (open' a (by simp))

/-- Caches and stores cannot be noticed: while no body is set back, every shader is processed as it would be by a pack
without a store whose cache is empty; and once a stage was compiled, no further processing with the same cache asks
for it while its body keeps its time. -/
theorem caching_unnoticed (start : PackSession) (acts : List PackAct) (h : start.IsOrderly acts)
    (dated : start.NeverSetBack acts) :
    (∀ before name, before ++ [.process name] <+: acts →
      let s := start.after before
      (s.pack.process name s.workspace).1 =
        (s.pack.withoutStore.process name ⟨s.files, .empty, []⟩).1) ∧
      ∀ before name between name',
        before ++ [.process name] ++ between ++ [.process name'] <+: acts →
        ∀ g s compiled, start.pack.catalog.shaderGroup? name = some g →
          (s, .ok compiled) ∈
            ((start.after before).pack.runStages g g.stages (start.after before).workspace).1 →
          (∀ a ∈ between, a.isReopen = false) →
          (∀ part, part <+: between →
            (start.after (before ++ [.process name] ++ part)).files.modificationTime s.body =
              (start.after before).files.modificationTime s.body) →
          let t := start.after (before ++ [.process name] ++ between)
          ∃ new, (t.pack.process name' t.workspace).2.requests = t.workspace.requests ++ new ∧
            ∀ q ∈ new, q.identity ≠ Identity.ofName g.name s.stage := by
  constructor
  · intro before name member s
    have prior : before <+: acts := (List.prefix_append before _).trans member
    have now := h.isDated dated prior
    obtain ⟨comes, _, _⟩ := Pack.process_of_soundOver (h.regular before) now
      (h.isSoundOver dated prior) (.refl _) name
    calc
      (s.pack.process name s.workspace).1 = s.pack.expected name s.files := comes
      _ = (s.pack.withoutStore.process name ⟨s.files, .empty, []⟩).1 :=
        (Pack.process_withoutStore (h.regular before) now.apart name).symm
  · intro before name between name' member g s compiled found done open' kept t
    have declared : ∀ acts, ∀ s ∈ g.stages, (start.after acts).pack.Declares g s := by
      intro acts s hs
      rw [pack_after]
      exact ⟨List.mem_of_find?_eq_some found, hs⟩
    obtain ⟨time, read, ready⟩ :=
      Pack.ready_of_runStages (h.regular before) (declared before) done
    have processed : start.IsReadyAt g s time (before ++ [.process name]) := by
      have same : (start.after before).pack.catalog.shaderGroup? name = some g := by
        rw [pack_after]
        exact found
      rw [IsReadyAt, after_concat]
      simp only [act, Pack.process, same, Pack.processGroup]
      exact ready
    have member' : s ∈ g.stages := Pack.mem_of_runStages done
    have kept' : ∀ part, part <+: between →
        (start.after (before ++ [.process name] ++ part)).files.modificationTime s.body = .ok time :=
      fun part prior => (kept part prior).trans read
    have later : start.IsReadyAt g s time (before ++ [.process name] ++ between) :=
      h.isReadyAt (declared [] s member') processed open' kept'
    exact (Pack.ready_of_process_of_ready (h.regular _) (declared _ s member') name' later
      (kept' between List.prefix_rfl)).2

/-- A session with the tinted shader, whose store is opened in a directory beside the body. -/
def tintSession : PackSession :=
  act
    { pack := .tint ⟨some ⟨"store"⟩, true⟩
      workspace := ⟨Pack.tintFiles, .empty, []⟩
      installation := ⟨"tints", "tints.db", "TINT_LIBRARY", "TINT_STORE"⟩
      environment := fun _ => none } .reopen

private theorem tintSession_pack :
    tintSession.pack = { Pack.tint ⟨some ⟨"store"⟩, true⟩ with store := tintSession.pack.store } :=
  pack_act _ _

private theorem eq_of_declares_tint {g : ShaderGroup} {s : StageSource}
    (declared : tintSession.pack.Declares g s) : g = Pack.tintGroup ∧ s = Pack.tintStage := by
  rw [tintSession_pack] at declared
  obtain ⟨hg, hs⟩ := declared
  obtain rfl := List.mem_singleton.mp hg
  exact ⟨rfl, List.mem_singleton.mp hs⟩

/-- Whether the body has the given time and text after each number of acts. -/
private def TintShows (acts : List PackAct) (body : Nat → Int × String) : Prop :=
  ∀ n ∈ List.range (acts.length + 1), Pack.tintBody? (tintSession.after (acts.take n)).files =
    (some (body n).1, some (body n).2)

private theorem TintShows.reads {body : Nat → Int × String} (shows : TintShows acts body)
    (prior : before <+: acts) :
    (tintSession.after before).files.modificationTime Pack.tintStage.body =
        .ok (body before.length).1 ∧
      (tintSession.after before).files.readText Pack.tintStage.body = .ok (body before.length).2 := by
  have length := prior.length_le
  have shown := shows before.length (List.mem_range.mpr (by omega))
  rw [← List.prefix_iff_eq_take.mp prior] at shown
  exact Pack.reads_of_tintBody? shown

private theorem TintShows.isOrderly {body : Nat → Int × String} (shows : TintShows acts body)
    (texts : ∀ n, (body n).2 ∈ Pack.tintTexts)
    (tables : ∀ n ∈ List.range acts.length, (acts[n]?.any (·.isProcess)) = true ∨
      (tintSession.after (acts.take (n + 1))).table? = (tintSession.after (acts.take n)).table?) :
    tintSession.IsOrderly acts := by
  refine
    { accepted := by rw [tintSession_pack]; rfl
      known := ?_
      names := ?_
      stagewise := ?_
      cache := rfl
      store := ?_
      kept := ?_
      apart := ?_
      includes := ?_ }
  · intro g s declared
    obtain ⟨_, rfl⟩ := eq_of_declares_tint declared
    exact ⟨.vertex, rfl⟩
  · rw [tintSession_pack]
    intro g hg g' hg' _
    rw [List.mem_singleton.mp hg, List.mem_singleton.mp hg']
  · rw [tintSession_pack]
    exact fun _ _ _ _ _ compiled => compiled
  · refine (storeIsSound_iff _).mpr fun table held => ?_
    have fresh : tintSession.table? = some .empty := by decide +kernel
    obtain rfl := Option.some.inj (fresh.symm.trans held)
    exact BinaryTable.isFrom_empty _
  · intro before a prior other
    have length := prior.length_le
    have one := List.prefix_iff_eq_take.mp prior
    have none := List.prefix_iff_eq_take.mp ((List.prefix_append before [a]).trans prior)
    obtain ⟨rest, rfl⟩ := prior
    simp only [List.length_append, List.length_singleton] at length one
    rcases tables before.length (List.mem_range.mpr (by simp)) with processes | same
    · simp [other] at processes
    · rwa [← one, ← none] at same
  · intro before prior g s declared
    obtain ⟨rfl, rfl⟩ := eq_of_declares_tint declared
    exact Pack.tint_keepsApart (shows.reads prior).2 (texts _)
  · intro earlier later first prior g s declared body' read' target includer asks
    obtain ⟨rfl, rfl⟩ := eq_of_declares_tint declared
    obtain rfl := Except.ok.inj ((shows.reads (first.trans prior)).2.symm.trans read')
    exact absurd asks (Pack.tint_asks_nothing (texts _) _ _ _ _)

/-- The tinted shader is processed, its body is written anew, and the pack is opened again over its store. -/
def tintEdits : List PackAct :=
  [.process "tint", .process "tint", .write Pack.tintStage.body "void main() { }".toUTF8 20, .reopen,
    .process "tint"]

private def editedBody (n : Nat) : Int × String :=
  if n < 3 then (10, "void main() {}") else (20, "void main() { }")

private theorem tintEdits_isOrderly : TintShows tintEdits editedBody ∧ tintSession.IsOrderly tintEdits := by
  have shows : TintShows tintEdits editedBody := by
    rw [TintShows]
    decide +kernel
  refine ⟨shows, shows.isOrderly (fun n => ?_) (by decide +kernel)⟩
  rw [editedBody]
  split <;> decide

private theorem tintEdits_neverSetBack : tintSession.NeverSetBack tintEdits := by
  intro earlier later first prior g s declared time time' read read' differs
  obtain ⟨rfl, rfl⟩ := eq_of_declares_tint declared
  have now := tintEdits_isOrderly.1.reads prior
  have before' := tintEdits_isOrderly.1.reads (first.trans prior)
  have short : earlier.length ≤ later.length := first.length_le
  obtain rfl := Except.ok.inj (read.symm.trans before'.1)
  obtain rfl := Except.ok.inj (read'.symm.trans now.1)
  have text : (editedBody later.length).2 ≠ (editedBody earlier.length).2 := fun same =>
    differs (by rw [now.2, before'.2, same])
  rw [editedBody, editedBody] at text ⊢
  split at text <;> split at text
  · exact absurd rfl text
  · omega
  · rename_i late early
    rw [if_pos early, if_neg late]
    decide
  · exact absurd rfl text

private theorem tint_compiles :
    (tintSession.pack.runStages Pack.tintGroup Pack.tintGroup.stages tintSession.workspace).1.map
      (fun p => (p.1, p.2.toOption.isSome)) = [(Pack.tintStage, true)] := by
  decide +kernel

theorem caching_unnoticed_of_tintEdits :
    tintSession.IsOrderly tintEdits ∧ tintSession.NeverSetBack tintEdits ∧
      (let s := tintSession.after (tintEdits.take 4)
      (s.pack.process "tint" s.workspace).1 =
        (s.pack.withoutStore.process "tint" ⟨s.files, .empty, []⟩).1) ∧
      let t := tintSession.after (tintEdits.take 1)
      ∃ new, (t.pack.process "tint" t.workspace).2.requests = t.workspace.requests ++ new ∧
        ∀ q ∈ new, q.identity ≠ Identity.ofName "tint" (.of .vertex) := by
  have holds := caching_unnoticed tintSession tintEdits tintEdits_isOrderly.2 tintEdits_neverSetBack
  refine ⟨tintEdits_isOrderly.2, tintEdits_neverSetBack, holds.1 (tintEdits.take 4) "tint" ⟨[], rfl⟩, ?_⟩
  have one : (Pack.tintStage, true) ∈ (tintSession.pack.runStages Pack.tintGroup
      Pack.tintGroup.stages tintSession.workspace).1.map fun p => (p.1, p.2.toOption.isSome) := by
    rw [tint_compiles]
    exact List.mem_singleton_self _
  obtain ⟨⟨stage, outcome⟩, member, same⟩ := List.mem_map.mp one
  obtain ⟨rfl, isSome⟩ := Prod.mk.inj same
  obtain ⟨compiled, made⟩ := Option.isSome_iff_exists.mp isSome
  obtain rfl := Outcome.toOption_eq_some.mp made
  refine holds.2 [] "tint" [] "tint" ⟨tintEdits.drop 2, rfl⟩ Pack.tintGroup Pack.tintStage compiled ?_
    member (fun a ha => nomatch ha) fun part prior => ?_
  · rw [tintSession_pack]
    rfl
  · obtain rfl := List.prefix_nil.mp prior
    have now := tintEdits_isOrderly.1.reads List.nil_prefix
    have next := tintEdits_isOrderly.1.reads (List.take_prefix 1 tintEdits)
    exact next.1.trans now.1.symm

/-- The body of the tinted shader is written anew and then set back to a time before it was first read. -/
def tintSetBack : List PackAct :=
  [.process "tint", .write Pack.tintStage.body "void main() { }".toUTF8 20,
    .touch Pack.tintStage.body 5, .process "tint"]

private def setBackBody (n : Nat) : Int × String :=
  if n < 2 then (10, "void main() {}")
  else if n < 3 then (20, "void main() { }")
  else (5, "void main() { }")

private theorem tintSetBack_isOrderly : TintShows tintSetBack setBackBody ∧ tintSession.IsOrderly tintSetBack := by
  have shows : TintShows tintSetBack setBackBody := by
    rw [TintShows]
    decide +kernel
  refine ⟨shows, shows.isOrderly (fun n => ?_) (by decide +kernel)⟩
  rw [setBackBody]
  split
  · decide
  · split <;> decide

private theorem tintSetBack_editsAdvance : tintSession.EditsAdvance tintSetBack := by
  intro before a prior g s declared differs earlier first time time' read read'
  obtain ⟨rfl, rfl⟩ := eq_of_declares_tint declared
  have whole : before <+: tintSetBack := (List.prefix_append before [a]).trans prior
  have now := tintSetBack_isOrderly.1.reads prior
  have just := tintSetBack_isOrderly.1.reads whole
  have before' := tintSetBack_isOrderly.1.reads (first.trans whole)
  have short : earlier.length ≤ before.length := first.length_le
  obtain rfl := Except.ok.inj (read.symm.trans before'.1)
  obtain rfl := Except.ok.inj (read'.symm.trans now.1)
  rw [List.length_append, List.length_singleton] at now ⊢
  -- Only the second act changes the text.
  have second : before.length = 1 := by
    by_contra other
    refine differs ?_
    rw [now.2, just.2, setBackBody, setBackBody]
    by_cases early : before.length < 2
    · rw [if_pos early, if_pos (by omega)]
    · rw [if_neg early, if_neg (by omega), if_neg (by omega)]
      split <;> rfl
  have early : setBackBody earlier.length = (10, "void main() {}") := if_pos (by omega)
  rw [second, early]
  decide

/-- The texts of the sources that a processed shader has, if it came out. -/
def stageSources? (x : Except PackError ProcessedShader) : Option (List String) :=
  x.toOption.map fun p => p.stages.map (·.source)

/-- A body that is set back to an earlier time is not read anew: every edit came later than all before, but what is
processed is not what is there. -/
theorem tintSetBack_noticed :
    tintSession.IsOrderly tintSetBack ∧ tintSession.EditsAdvance tintSetBack ∧
      tintSetBack.take 3 ++ [.process "tint"] = tintSetBack ∧
      let s := tintSession.after (tintSetBack.take 3)
      (s.pack.process "tint" s.workspace).1 ≠
        (s.pack.withoutStore.process "tint" ⟨s.files, .empty, []⟩).1 := by
  refine ⟨tintSetBack_isOrderly.2, tintSetBack_editsAdvance, rfl, fun same => ?_⟩
  have differ : ∀ s, s = tintSession.after (tintSetBack.take 3) →
      stageSources? (s.pack.process "tint" s.workspace).1 ≠
        stageSources? (s.pack.withoutStore.process "tint" ⟨s.files, .empty, []⟩).1 := by
    rintro s rfl
    decide +kernel
  exact differ _ rfl (congrArg stageSources? same)

end PackSession

end ShaderPipeline
