import ShaderPipeline.Proofs.Pack.Processing
import ShaderPipeline.Proofs.Shader.Acceptance

/-!
What becomes of every stage of a shader.

Whatever happens between the steps of their runs, the stages of a shader come to results of which each is settled in its
turn: the stage is folded into the tables, or it is withheld.  The only errors that stop the whole shader are the
mismatches that reflections report, since nothing that keeps a stage from being compiled does.  Main statement: a shader
is given up exactly for the first mismatch in order of declaration; otherwise every stage is either among those that
were folded in, or has its one error and the report that it was withheld.
-/

set_option autoImplicit false
set_option relaxedAutoImplicit false

namespace ShaderPipeline

open Outcome

/-- Whether an error is one that keeps a stage from being compiled. -/
def PackError.StopsStage : PackError → Prop
  | source _ | compile _ | cache _ => True
  | _ => False

private theorem PackError.kind_of_stopsStage {e : PackError} (h : e.StopsStage) :
    e.kind.isFatal = false ∧ e.kind ≠ .stageWithheld := by
  have cached : ∀ e : CacheError, e.kind.isFatal = false ∧ e.kind ≠ .stageWithheld := by
    intro e
    cases e <;> exact ⟨rfl, nofun⟩
  cases e with
  | source e =>
    cases e with
    | cache e => exact cached e
    | _ => exact ⟨rfl, nofun⟩
  | compile e => cases e <;> exact ⟨rfl, nofun⟩
  | cache e => exact cached e
  | _ => cases h

namespace CollateError

def mismatch? : CollateError → Option ReflectError
  | reflection e => if e.kind = .bindingMismatch then some e else none
  | _ => none

private theorem kind_ne_stageWithheld (e : CollateError) : e.kind ≠ .stageWithheld := by
  cases e with
  | reflection e => cases e <;> exact nofun
  | _ => exact nofun

private theorem isFatal_iff {e : CollateError} :
    e.kind.isFatal = true ↔ ∃ reported, e.mismatch? = some reported := by
  cases e with
  | reflection e => cases e <;> simp [kind, ReflectError.kind, ErrorKind.isFatal, mismatch?]
  | _ => simp [kind, ErrorKind.isFatal, mismatch?]

private theorem eq_of_mismatch? {e : CollateError} {reported : ReflectError}
    (h : e.mismatch? = some reported) : e = .reflection reported := by
  cases e with
  | reflection e =>
    rw [mismatch?] at h
    split at h
    · rw [Option.some.inj h]
    · cases h
  | _ => cases h

end CollateError

namespace StageRun

variable {r : StageRun} {phase : Phase}

/-- How far a run may come, whatever happens to what it works on between its steps. -/
inductive Reaches (r : StageRun) : Phase → Prop
  | start : r.Reaches (.generate .readTime)
  | step (w : Workspace) {phase : Phase} : r.Reaches phase → r.Reaches (r.step w phase).1

theorem Reaches.steps (h : r.Reaches phase) (n : Nat) (w : Workspace) :
    r.Reaches (r.steps n w phase).1 := by
  induction n generalizing w phase with
  | zero => exact h
  | succ n ih => exact ih (h.step w) _

private theorem reaches_run (r : StageRun) (w : Workspace) : r.Reaches (.finished (r.run w).1) := by
  have ends : (r.steps 15 w (.generate .readTime)).1 = .finished (r.run w).1 := by
    rw [steps_start]
    rfl
  exact ends ▸ Reaches.start.steps 15 w

/-- Whether a run that has ended has compiled its own stage, or has failed as a stage does. -/
def Phase.EndsOwn (r : StageRun) : Phase → Prop
  | finished (.ok compiled) => compiled.identity = r.identity
  | finished (.error e) => e.StopsStage
  | _ => True

private theorem endsOwn_step (w : Workspace) (h : phase.EndsOwn r) : (r.step w phase).1.EndsOwn r := by
  cases phase with
  | generate phase =>
    have after : ∀ next, (afterGeneration next).EndsOwn r := by
      intro next
      cases next with
      | finished result => cases result <;> trivial
      | _ => trivial
    exact after _
  | findBinary source =>
    simp only [step]
    split <;> trivial
  | loadBinary source =>
    simp only [step]
    split <;> trivial
  | compile source =>
    simp only [step]
    split <;> trivial
  | storeBinary source binary => trivial
  | cacheBinary source binary =>
    simp only [step]
    split <;> trivial
  | findGroups source binary => exact rfl
  | finished result => exact h

private theorem Reaches.endsOwn (h : r.Reaches phase) : phase.EndsOwn r := by
  induction h with
  | start => trivial
  | step w _ ih => exact endsOwn_step w ih

end StageRun

namespace Shader

private theorem parse_eq_ok {s s' : Shader} {c : StageContext} {i : Identity} {binary : List UInt32} :
    s.parse c i binary = .ok s' ↔
      ∃ found, StageReflection.ofBinary c i.stage binary = .ok found ∧ s.collate i found = .ok s' := by
  have parsed := @ShaderCall.on_eq_ok s s' (.parse c i binary)
  simpa only [ShaderCall.on, ShaderCall.reflection, ShaderCall.identity, mapError_eq_ok] using parsed

private theorem parsed_of_parse {s s' : Shader} {c : StageContext} {i : Identity} {binary : List UInt32}
    (done : s.parse c i binary = .ok s') : s'.parsed = s.parsed ++ [i] := by
  obtain ⟨found, _, folded⟩ := parse_eq_ok.mp done
  obtain ⟨_, _, pushBlocks, _, rfl⟩ := (@collate_eq_ok s s' (i, found)).mp folded
  rfl

private theorem mismatch?_of_collate {s : Shader} {i : Identity} {found : StageReflection}
    {e : CollateError} (failed : s.collate i found = .error e) : e.mismatch? = none := by
  rcases (@collate_eq_error s (i, found) e).mp failed with again | ⟨_, conflict | ⟨_, overflow⟩⟩
  · obtain ⟨_, rfl⟩ := checkUnparsed_eq_error.mp again
    rfl
  · obtain ⟨_, _, _, _, _, refused⟩ := checkKinds_eq_error.mp conflict
    obtain ⟨_, _, _, rfl⟩ := checkKinds_singleton_eq_error.mp refused
    rfl
  · obtain ⟨_, rfl⟩ := exists_of_pushBlocksWith_eq_error overflow
    rfl

private theorem mismatch?_of_parse {s : Shader} {c : StageContext} {i : Identity} {binary : List UInt32}
    {e : CollateError} (free : ∀ j ∈ s.parsed, j.stage ≠ i.stage)
    (refused : s.parse c i binary = .error e) :
    e.mismatch? = match StageReflection.ofBinary c i.stage binary with
      | .ok _ => none
      | .error e => if e.kind = .bindingMismatch then some e else none := by
  have checked : s.checkUnparsed i = .ok () := checkUnparsed_eq_ok.mpr free
  cases reflected : StageReflection.ofBinary c i.stage binary with
  | error reason =>
    have same : CollateError.reflection reason = e := by
      simpa [parse, checked, reflected, bind, Except.bind, Except.mapError] using refused
    rw [← same, CollateError.mismatch?]
  | ok found =>
    have collates : s.collate i found = .error e := by
      simpa [parse, checked, reflected, bind, Except.bind, Except.mapError] using refused
    exact mismatch?_of_collate collates

end Shader

namespace Pack

variable {p : Pack} {g : ShaderGroup} {results : List (StageSource × Except PackError CompiledStage)}
  {ran : StageSource × Except PackError CompiledStage}

/-- What the stages of a shader may come to, in order of declaration, whatever happens between the steps of their
runs. -/
structure MayComeTo (p : Pack) (g : ShaderGroup)
    (results : List (StageSource × Except PackError CompiledStage)) : Prop where
  stages : results.map (·.1) = g.stages
  reached : ∀ ran ∈ results, (p.stageRun g ran.1).Reaches (.finished ran.2)

/-- What a shader is processed to when its stages have come to some results. -/
def settle (p : Pack) (g : ShaderGroup)
    (results : List (StageSource × Except PackError CompiledStage)) :
    Except PackError ProcessedShader :=
  (results.foldl (ProcessedShader.fold p.catalog g) (.start g)).finish g.name

def context (p : Pack) (g : ShaderGroup) (compiled : CompiledStage) : StageContext :=
  ⟨p.catalog, g.name, compiled.resourceGroups⟩

/-- The mismatch that the reflection of a compiled stage reports, if it does. -/
def mismatch? (p : Pack) (g : ShaderGroup)
    (ran : StageSource × Except PackError CompiledStage) : Option ReflectError :=
  match ran.2 with
  | .ok compiled =>
      match StageReflection.ofBinary (p.context g compiled) ran.1.stage compiled.binary with
      | .ok _ => none
      | .error e => if e.kind = .bindingMismatch then some e else none
  | .error _ => none

/-- The shader of a group with compiled stages folded in one after another, if each of them can be. -/
def folded (p : Pack) (g : ShaderGroup) (stages : List CompiledStage) : Except CollateError Shader :=
  stages.foldlM (fun s compiled => s.parse (p.context g compiled) compiled.identity compiled.binary)
    (.ofGroup g)

/-- What becomes of a stage in its turn: it is folded into the shader at hand, or an error keeps it out. -/
def fate (p : Pack) (g : ShaderGroup) (s : Shader)
    (ran : StageSource × Except PackError CompiledStage) : Except Diagnostic CompiledStage :=
  match ran.2 with
  | .error e => .error (.ofError e)
  | .ok compiled =>
      match s.parse (p.context g compiled) (.ofName g.name ran.1.stage) compiled.binary with
      | .ok _ => .ok compiled
      | .error e => .error (.ofError e)

/-- The stages that were folded in, of those whose fates are known. -/
def foldedIn (ledger : List (StageSource × Except Diagnostic CompiledStage)) : List CompiledStage :=
  ledger.filterMap (·.2.toOption)

/-- What is reported of a stage: nothing if it was folded in, else its error and that it was withheld. -/
def reports (g : ShaderGroup) (entry : StageSource × Except Diagnostic CompiledStage) :
    List Diagnostic :=
  match entry.2 with
  | .ok _ => []
  | .error d => [d, ProcessedShader.withheldReport (.ofName g.name entry.1.stage)]

/-- Whether a ledger has the fate of every stage that was run, in order, and a processed shader is what it says. -/
structure Balances (p : Pack) (g : ShaderGroup)
    (results : List (StageSource × Except PackError CompiledStage)) (q : ProcessedShader)
    (ledger : List (StageSource × Except Diagnostic CompiledStage)) : Prop where
  declared : ledger.map (·.1) = results.map (·.1)
  fates : ∀ k ran, results[k]? = some ran → ∃ s, p.folded g (foldedIn (ledger.take k)) = .ok s ∧
    ledger[k]? = some (ran.1, p.fate g s ran)
  stages : q.stages = foldedIn ledger
  shader : p.folded g q.stages = .ok q.shader
  errors : q.errors.diagnostics = ledger.flatMap (reports g)

/-- Whether what a shader is processed to accounts for the results of its stages: the first mismatch stops it, and
otherwise every stage was folded in or has its error and the report that it was withheld. -/
structure Accounts (p : Pack) (g : ShaderGroup)
    (results : List (StageSource × Except PackError CompiledStage))
    (outcome : Except PackError ProcessedShader) : Prop where
  aborted_iff : (∃ shader d, outcome = .error (.aborted shader d)) ↔
    ∃ ran ∈ results, (p.mismatch? g ran).isSome
  first : ∀ e, results.findSome? (p.mismatch? g) = some e →
    outcome = .error (.aborted g.name (.ofError (CollateError.reflection e)))
  otherwise : (∀ ran ∈ results, p.mismatch? g ran = none) → ∃ q ledger, outcome = .ok q ∧
    ledger.map (·.1) = g.stages ∧ p.Balances g results q ledger ∧
      q.stages.length + (q.errors.diagnostics.filter (·.kind == .stageWithheld)).length =
        g.stages.length

private theorem mayComeTo_runStages (p : Pack) (g : ShaderGroup) (w : Workspace) :
    p.MayComeTo g (p.runStages g g.stages w).1 := by
  suffices ∀ stages w, (p.runStages g stages w).1.map (·.1) = stages ∧
      ∀ ran ∈ (p.runStages g stages w).1, (p.stageRun g ran.1).Reaches (.finished ran.2) from
    ⟨(this g.stages w).1, (this g.stages w).2⟩
  intro stages
  induction stages with
  | nil => exact fun _ => ⟨rfl, nofun⟩
  | cons s rest ih =>
    intro w
    obtain ⟨names, reached⟩ := ih ((p.stageRun g s).run w).2
    refine ⟨congrArg (s :: ·) names, fun ran member => ?_⟩
    rcases List.mem_cons.mp member with rfl | later
    · exact (p.stageRun g s).reaches_run w
    · exact reached ran later

private theorem fold_of_ok {q : ProcessedShader} {compiled : CompiledStage}
    (fate : p.fate g q.shader ran = .ok compiled) :
    ∃ s, q.shader.parse (p.context g compiled) (.ofName g.name ran.1.stage) compiled.binary = .ok s ∧
      ran.2 = .ok compiled ∧
        ProcessedShader.fold p.catalog g q ran =
          { q with shader := s, stages := q.stages ++ [compiled] } := by
  rw [Pack.fate] at fate
  cases result : ran.2 with
  | error e => simp [result] at fate
  | ok made =>
    cases parsed : q.shader.parse (p.context g made) (.ofName g.name ran.1.stage) made.binary with
    | error e => simp [result, parsed] at fate
    | ok s =>
      obtain rfl : made = compiled := by simpa [result, parsed] using fate
      refine ⟨s, parsed, rfl, ?_⟩
      rw [context] at parsed
      simp only [ProcessedShader.fold, result, parsed]

private theorem fold_of_error {q : ProcessedShader} {d : Diagnostic}
    (fate : p.fate g q.shader ran = .error d) :
    ProcessedShader.fold p.catalog g q ran =
      { q with
        errors :=
          (q.errors.add d).add (ProcessedShader.withheldReport (.ofName g.name ran.1.stage)) } := by
  rw [Pack.fate] at fate
  cases result : ran.2 with
  | error e =>
    obtain rfl : Diagnostic.ofError e = d := by simpa [result] using fate
    simp only [ProcessedShader.fold, result, ProcessedShader.withhold, Session.report]
  | ok made =>
    cases parsed : q.shader.parse (p.context g made) (.ofName g.name ran.1.stage) made.binary with
    | ok s => simp [result, parsed] at fate
    | error e =>
      obtain rfl : Diagnostic.ofError e = d := by simpa [result, parsed] using fate
      rw [context] at parsed
      simp only [ProcessedShader.fold, result, parsed, ProcessedShader.withhold, Session.report]

private theorem errors_fold (p : Pack) (g : ShaderGroup) (q : ProcessedShader)
    (ran : StageSource × Except PackError CompiledStage) :
    (ProcessedShader.fold p.catalog g q ran).errors.diagnostics =
      q.errors.diagnostics ++ reports g (ran.1, p.fate g q.shader ran) := by
  cases fate : p.fate g q.shader ran with
  | ok compiled =>
    obtain ⟨s, _, _, after⟩ := fold_of_ok fate
    rw [after]
    exact (List.append_nil _).symm
  | error d =>
    rw [fold_of_error fate]
    simp [reports, Session.add]

private theorem foldedIn_concat (ledger : List (StageSource × Except Diagnostic CompiledStage))
    (entry : StageSource × Except Diagnostic CompiledStage) :
    foldedIn (ledger ++ [entry]) = foldedIn ledger ++ entry.2.toOption.toList := by
  obtain ⟨source, fate⟩ := entry
  rw [foldedIn, List.filterMap_append, foldedIn]
  cases fate <;> rfl

private theorem folded_concat {stages : List CompiledStage} {compiled : CompiledStage} {s s' : Shader}
    (before : p.folded g stages = .ok s)
    (parsed : s.parse (p.context g compiled) compiled.identity compiled.binary = .ok s') :
    p.folded g (stages ++ [compiled]) = .ok s' := by
  rw [folded, List.foldlM_append, ← folded, before]
  simp [parsed, bind, Except.bind, pure, Except.pure]

theorem Balances.fold {q : ProcessedShader}
    {ledger : List (StageSource × Except Diagnostic CompiledStage)}
    (h : p.Balances g results q ledger)
    (own : ∀ compiled, ran.2 = .ok compiled → compiled.identity = .ofName g.name ran.1.stage) :
    p.Balances g (results ++ [ran]) (ProcessedShader.fold p.catalog g q ran)
      (ledger ++ [(ran.1, p.fate g q.shader ran)]) := by
  have same : ledger.length = results.length := by
    simpa using congrArg List.length h.declared
  have before : p.folded g (foldedIn ledger) = .ok q.shader := h.stages ▸ h.shader
  have fates : ∀ k ran', (results ++ [ran])[k]? = some ran' →
      ∃ s, p.folded g (foldedIn ((ledger ++ [(ran.1, p.fate g q.shader ran)]).take k)) = .ok s ∧
        (ledger ++ [(ran.1, p.fate g q.shader ran)])[k]? = some (ran'.1, p.fate g s ran') := by
    intro k ran' found
    rcases Nat.lt_or_ge k results.length with earlier | last
    · rw [List.getElem?_append_left earlier] at found
      rw [List.take_append_of_le_length (by omega), List.getElem?_append_left (by omega)]
      exact h.fates k ran' found
    · obtain rfl : k = results.length := by
        have bound : k < (results ++ [ran]).length := (List.getElem?_eq_some_iff.mp found).1
        simp at bound
        omega
      obtain rfl : ran = ran' := by simpa using found
      refine ⟨q.shader, ?_, ?_⟩
      · rw [← same, List.take_left']
        · exact before
        · rfl
      · rw [← same, List.getElem?_concat_length]
  have declared : (ledger ++ [(ran.1, p.fate g q.shader ran)]).map (·.1) =
      (results ++ [ran]).map (·.1) := by
    simp [h.declared]
  have errors : (ProcessedShader.fold p.catalog g q ran).errors.diagnostics =
      (ledger ++ [(ran.1, p.fate g q.shader ran)]).flatMap (reports g) := by
    rw [errors_fold, h.errors, List.flatMap_append]
    simp
  cases fate : p.fate g q.shader ran with
  | ok compiled =>
    rw [fate] at fates declared errors
    obtain ⟨s, parsed, result, after⟩ := fold_of_ok fate
    rw [after]
    have extended : q.stages ++ [compiled] = foldedIn (ledger ++ [(ran.1, .ok compiled)]) := by
      rw [foldedIn_concat, h.stages]
      rfl
    refine ⟨declared, fates, extended, ?_, ?_⟩
    · rw [← own compiled result] at parsed
      exact folded_concat h.shader parsed
    · rw [← after, errors]
  | error d =>
    rw [fate] at fates declared errors
    rw [fold_of_error fate] at errors ⊢
    have kept : q.stages = foldedIn (ledger ++ [(ran.1, .error d)]) := by
      rw [foldedIn_concat, ← h.stages]
      exact (List.append_nil _).symm
    exact ⟨declared, fates, kept, h.shader, errors⟩

private theorem exists_balances
    (own : ∀ ran ∈ results, ∀ compiled, ran.2 = .ok compiled →
      compiled.identity = .ofName g.name ran.1.stage) :
    ∃ ledger, p.Balances g results
      (results.foldl (ProcessedShader.fold p.catalog g) (.start g)) ledger := by
  induction results using List.reverseRecOn with
  | nil => exact ⟨[], rfl, nofun, rfl, rfl, rfl⟩
  | append_singleton results ran ih =>
    obtain ⟨ledger, balances⟩ := ih fun ran' member => own ran' (List.mem_append_left _ member)
    rw [List.foldl_append]
    exact ⟨_, balances.fold (own ran (by simp))⟩

private theorem find?_reports {s : Shader}
    (stops : ∀ e, ran.2 = .error e → e.StopsStage)
    (free : ∀ j ∈ s.parsed, j.stage ≠ ran.1.stage) :
    (reports g (ran.1, p.fate g s ran)).find? (·.kind.isFatal) =
      (p.mismatch? g ran).map fun e => .ofError (CollateError.reflection e) := by
  have withheld : (ProcessedShader.withheldReport (.ofName g.name ran.1.stage)).kind.isFatal = false :=
    rfl
  cases result : ran.2 with
  | error e =>
    have harmless : (Diagnostic.ofError e).kind.isFatal = false :=
      (PackError.kind_of_stopsStage (stops e result)).1
    simp [fate, mismatch?, result, reports, withheld, harmless]
  | ok compiled =>
    cases parsed : s.parse (p.context g compiled) (.ofName g.name ran.1.stage) compiled.binary with
    | ok s' =>
      obtain ⟨found, reflected, _⟩ := Shader.parse_eq_ok.mp parsed
      have reflected : StageReflection.ofBinary (p.context g compiled) ran.1.stage compiled.binary =
          .ok found := reflected
      simp [fate, mismatch?, result, reports, parsed, reflected]
    | error e =>
      have same : e.mismatch? = p.mismatch? g ran := by
        rw [Shader.mismatch?_of_parse free parsed, mismatch?, result]
        rfl
      simp only [fate, result, parsed, reports, ← same]
      cases reported : e.mismatch? with
      | none =>
        have harmless : (Diagnostic.ofError e).kind.isFatal = false := by
          refine Bool.eq_false_iff.mpr fun fatal => ?_
          obtain ⟨e', some'⟩ := CollateError.isFatal_iff.mp fatal
          exact nomatch reported.symm.trans some'
        simp [withheld, harmless]
      | some e' =>
        have fatal : (Diagnostic.ofError e).kind.isFatal = true :=
          CollateError.isFatal_iff.mpr ⟨e', reported⟩
        obtain rfl := CollateError.eq_of_mismatch? reported
        simp [fatal]

private theorem parsed_fold {q : ProcessedShader} {j : Identity}
    (member : j ∈ (ProcessedShader.fold p.catalog g q ran).shader.parsed) :
    j ∈ q.shader.parsed ∨ j.stage = ran.1.stage := by
  cases fate : p.fate g q.shader ran with
  | ok compiled =>
    obtain ⟨s, parsed, _, after⟩ := fold_of_ok fate
    rw [after] at member
    have member : j ∈ s.parsed := member
    rw [Shader.parsed_of_parse parsed] at member
    rcases List.mem_append.mp member with earlier | new
    · exact .inl earlier
    · rw [List.mem_singleton.mp new]
      exact .inr rfl
  | error d =>
    rw [fold_of_error fate] at member
    exact .inl member

private theorem firstFatal?_foldl (distinct : (results.map (·.1.stage)).Nodup)
    (stops : ∀ ran ∈ results, ∀ e, ran.2 = .error e → e.StopsStage) :
    (∀ j ∈ (results.foldl (ProcessedShader.fold p.catalog g) (.start g)).shader.parsed,
      ∃ ran ∈ results, j.stage = ran.1.stage) ∧
    (results.foldl (ProcessedShader.fold p.catalog g) (.start g)).errors.firstFatal? =
      (results.findSome? (p.mismatch? g)).map fun e => .ofError (CollateError.reflection e) := by
  -- The stages that were parsed are carried along: that the next one is not among them leaves only its own mismatch.
  induction results using List.reverseRecOn with
  | nil => exact ⟨nofun, rfl⟩
  | append_singleton results ran ih =>
    rw [List.map_append, List.nodup_append] at distinct
    obtain ⟨earlier, _, apart⟩ := distinct
    obtain ⟨parsed, first⟩ := ih earlier fun ran' member => stops ran' (List.mem_append_left _ member)
    rw [List.foldl_append]
    simp only [List.foldl_cons, List.foldl_nil]
    refine ⟨fun j member => ?_, ?_⟩
    · rcases parsed_fold member with old | new
      · obtain ⟨ran', member', same⟩ := parsed j old
        exact ⟨ran', List.mem_append_left _ member', same⟩
      · exact ⟨ran, by simp, new⟩
    · rw [Session.firstFatal?] at first ⊢
      rw [errors_fold, List.find?_append, first, List.findSome?_append]
      rw [find?_reports (stops ran (by simp))]
      · have last : [ran].findSome? (p.mismatch? g) = p.mismatch? g ran := by
          simp
        rw [last]
        cases results.findSome? (p.mismatch? g) <;> rfl
      · intro j member same
        obtain ⟨ran', member', same'⟩ := parsed j member
        exact apart _ (List.mem_map_of_mem member') _ (by simp) (same'.symm.trans same)

private theorem kind_of_fate {s : Shader} {d : Diagnostic} (stops : ∀ e, ran.2 = .error e → e.StopsStage)
    (fate : p.fate g s ran = .error d) : d.kind ≠ .stageWithheld := by
  rw [Pack.fate] at fate
  split at fate
  · rename_i e result
    rw [← Except.error.inj fate]
    exact (PackError.kind_of_stopsStage (stops e result)).2
  · split at fate
    · cases fate
    · rename_i e _
      rw [← Except.error.inj fate]
      exact e.kind_ne_stageWithheld

private theorem length_foldedIn_add (ledger : List (StageSource × Except Diagnostic CompiledStage))
    (other : ∀ entry ∈ ledger, ∀ d, entry.2 = .error d → d.kind ≠ .stageWithheld) :
    (foldedIn ledger).length +
      ((ledger.flatMap (reports g)).filter (·.kind == .stageWithheld)).length = ledger.length := by
  induction ledger with
  | nil => rfl
  | cons entry rest ih =>
    obtain ⟨first, later⟩ := List.forall_mem_cons.mp other
    have rest' := ih later
    obtain ⟨source, fate⟩ := entry
    cases fate with
    | ok compiled =>
      simp only [foldedIn, List.filterMap_cons, Except.toOption, List.flatMap_cons, reports,
        List.nil_append, List.length_cons] at rest' ⊢
      omega
    | error d =>
      have own : (d.kind == .stageWithheld) = false := by
        simpa using first d rfl
      simp [foldedIn, Except.toOption, reports, own, ProcessedShader.withheldReport] at rest' ⊢
      omega

theorem MayComeTo.own (h : p.MayComeTo g results) : ∀ ran ∈ results, ∀ compiled, ran.2 = .ok compiled →
    compiled.identity = .ofName g.name ran.1.stage := by
  intro ran member compiled result
  have own := (h.reached ran member).endsOwn
  rw [result] at own
  exact own

/-- The tables of a processed shader are what its stages, one after another, were folded into. -/
theorem folded_of_process {name : String} {w w' : Workspace} {q : ProcessedShader}
    (done : p.process name w = (.ok q, w')) : ∃ g, p.folded g q.stages = .ok q.shader := by
  rw [process] at done
  split at done
  · rename_i g _
    obtain ⟨ledger, balances⟩ := exists_balances (p.mayComeTo_runStages g w).own
    have finished := congrArg Prod.fst done
    simp only [processGroup, ProcessedShader.finish] at finished
    split at finished
    · cases finished
    · obtain rfl := Except.ok.inj finished
      exact ⟨g, balances.shader⟩
  · cases congrArg Prod.fst done

private theorem accounts_settle (distinct : (g.stages.map (·.stage)).Nodup) (h : p.MayComeTo g results) :
    p.Accounts g results (p.settle g results) := by
  have stops : ∀ ran ∈ results, ∀ e, ran.2 = .error e → e.StopsStage := by
    intro ran member e result
    have own := (h.reached ran member).endsOwn
    rw [result] at own
    exact own
  have own := h.own
  have stages : (results.map (·.1.stage)).Nodup := by
    rw [← h.stages, List.map_map] at distinct
    exact distinct
  obtain ⟨ledger, balances⟩ := exists_balances (p := p) (g := g) own
  have fatal := (firstFatal?_foldl (p := p) (g := g) stages stops).2
  have settled : p.settle g results =
      ProcessedShader.finish g.name (results.foldl (ProcessedShader.fold p.catalog g) (.start g)) := rfl
  rw [ProcessedShader.finish, fatal] at settled
  have some_iff : (∃ ran ∈ results, (p.mismatch? g ran).isSome) ↔
      ∃ e, results.findSome? (p.mismatch? g) = some e := by
    rw [← Option.isSome_iff_exists, List.findSome?_isSome_iff]
  refine ⟨?_, fun e found => ?_, fun none' => ?_⟩
  · rw [some_iff, settled]
    cases results.findSome? (p.mismatch? g) <;> simp
  · rw [found] at settled
    exact settled
  · have found : results.findSome? (p.mismatch? g) = none := List.findSome?_eq_none_iff.mpr none'
    have whole : ledger.map (·.1) = g.stages := balances.declared.trans h.stages
    have length : ledger.length = g.stages.length := by
      simpa using congrArg List.length whole
    have other : ∀ entry ∈ ledger, ∀ d, entry.2 = .error d → d.kind ≠ .stageWithheld := by
      intro entry member d refused
      obtain ⟨k, bound, at_k⟩ := List.getElem_of_mem member
      have bound' : k < results.length := by
        have same : ledger.length = results.length := by
          simpa using congrArg List.length balances.declared
        omega
      obtain ⟨s, _, fate⟩ := balances.fates k results[k] (List.getElem?_eq_getElem bound')
      rw [List.getElem?_eq_getElem bound, at_k] at fate
      obtain rfl := Option.some.inj fate
      exact kind_of_fate (stops results[k] (List.getElem_mem bound')) refused
    rw [found] at settled
    refine ⟨_, ledger, settled, whole, balances, ?_⟩
    rw [balances.stages, balances.errors, ← length]
    exact length_foldedIn_add ledger other

/-- A shader is given up for the first mismatch in order of declaration, and for nothing else; otherwise it has every
stage that was compiled and could be folded in, and every other stage has its error and the report that it was withheld.
This holds for the stages run one after another and whatever happens between the steps of their runs. -/
theorem every_stage_accounted_for (p : Pack) (g : ShaderGroup)
    (accepted : Catalog.ofGroups p.catalog.shaderGroups p.catalog.resourceGroups = .ok p.catalog)
    (declared : g ∈ p.catalog.shaderGroups) :
    (∀ w, p.Accounts g (p.runStages g g.stages w).1 (p.process g.name w).1) ∧
      ∀ results, p.MayComeTo g results → p.Accounts g results (p.settle g results) := by
  have stages := Catalog.stagesDistinct_of_ofGroups accepted
  have found : p.catalog.shaderGroup? g.name = some g :=
    (find?_eq_some_of_nodup stages.names).mpr ⟨declared, rfl⟩
  refine ⟨fun w => ?_, fun results h => accounts_settle (stages.stages g declared) h⟩
  have processed : (p.process g.name w).1 = p.settle g (p.runStages g g.stages w).1 := by
    simp only [process, found, processGroup, settle]
  rw [processed]
  exact accounts_settle (stages.stages g declared) (p.mayComeTo_runStages g w)

/-- A shader of two stages, of which the second has no body. -/
def duskGroup : ShaderGroup :=
  ⟨"dusk", [tintStage, ⟨.of .fragment, ⟨"dusk.frag"⟩⟩], [], [], [], [], []⟩

def dusk : Pack :=
  ⟨⟨[duskGroup], []⟩, tintCompiler, ⟨.standard, .standard, []⟩, none⟩

theorem every_stage_accounted_for_of_dusk :
    (Catalog.ofGroups dusk.catalog.shaderGroups dusk.catalog.resourceGroups = .ok dusk.catalog ∧
      duskGroup ∈ dusk.catalog.shaderGroups) ∧
    ((∀ w, dusk.Accounts duskGroup (dusk.runStages duskGroup duskGroup.stages w).1
        (dusk.process duskGroup.name w).1) ∧
      ∀ results, dusk.MayComeTo duskGroup results →
        dusk.Accounts duskGroup results (dusk.settle duskGroup results)) ∧
    (dusk.process "dusk" ⟨tintFiles, .empty, []⟩).1.toOption.map
        (fun q => (q.stages.map (·.identity.stage), q.errors.diagnostics.map (·.kind))) =
      some ([.of .vertex], [.missingBody, .stageWithheld]) := by
  have accepted : Catalog.ofGroups dusk.catalog.shaderGroups dusk.catalog.resourceGroups =
      .ok dusk.catalog := rfl
  have declared : duskGroup ∈ dusk.catalog.shaderGroups := List.mem_singleton_self _
  exact ⟨⟨accepted, declared⟩, every_stage_accounted_for dusk duskGroup accepted declared,
    by decide +kernel⟩

end Pack

end ShaderPipeline
