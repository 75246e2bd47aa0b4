import ShaderPipeline.Proofs.Outcome
import ShaderPipeline.Proofs.Shader.Collation

/-!
Which stages a shader takes in, and what is left when it refuses one.

A shader is changed in place, one table after another, and an error leaves what was written before it.  Since all
refusals come before the first write, a call that fails leaves every table as it was.  Main statement: whatever
calls were made before, a stage is folded in exactly when its place is free, its usages agree in kind with those
that the tables hold, and all push-constant blocks fit; and a history comes to the same without its failed calls.
-/

set_option autoImplicit false
set_option relaxedAutoImplicit false

namespace ShaderPipeline

open Outcome

/-- A change to a shader in place; what was written before an error stays written. -/
abbrev InPlace (α : Type) := ExceptT CollateError (StateM Shader) α

namespace InPlace

variable {α β : Type}

/-- The outcome of a change, and the shader after it. -/
def on (change : InPlace α) (s : Shader) : Except CollateError α × Shader :=
  change.run.run s

def check (test : Shader → Except CollateError α) : InPlace α := do
  liftM (test (← get))

def writeEach (write : α → Shader → Shader) (l : List α) : InPlace Unit :=
  l.forM fun a => modify (write a)

private theorem on_bind (change : InPlace α) (next : α → InPlace β) (s : Shader) :
    (change >>= next).on s =
      match change.on s with
      | (.ok a, s') => (next a).on s'
      | (.error e, s') => (.error e, s') := by
  have first : (change >>= next).on s =
      (ExceptT.bindCont next (change.on s).1).run (change.on s).2 := rfl
  rw [first]
  cases change.on s with
  | mk outcome s' => cases outcome <;> rfl

private theorem on_check_bind (test : Shader → Except CollateError α) (next : α → InPlace β) (s : Shader) :
    (check test >>= next).on s =
      match test s with
      | .ok a => (next a).on s
      | .error e => (.error e, s) := by
  have tested : (check test).on s = (test s, s) := rfl
  rw [on_bind, tested]
  cases test s <;> rfl

private theorem on_modify (write : Shader → Shader) (s : Shader) :
    (modify write : InPlace Unit).on s = (.ok (), write s) := rfl

private theorem on_writeEach (write : α → Shader → Shader) (l : List α) (s : Shader) :
    (writeEach write l).on s = (.ok (), l.foldl (fun s a => write a s) s) := by
  induction l generalizing s with
  | nil => rfl
  | cons a l ih =>
    have first : writeEach write (a :: l) = (modify (write a) >>= fun _ => writeEach write l) := rfl
    rw [first, on_bind, on_modify]
    exact ih (write a s)

end InPlace

namespace Shader

open InPlace

def enterInPlace (i : Identity) (r : StageReflection) (pushBlocks : List PushBlock) :
    InPlace Unit := do
  modify fun s => { s with stages := s.stagesWith i.stage }
  writeEach (fun u s => { s with setTable := s.setTable.enter u }) r.usages
  modify fun s => { s with pushBlocks }
  modify fun s => { s with inputTable := setAttributes s.inputTable i.stage r.inputs }
  modify fun s => { s with outputTable := setAttributes s.outputTable i.stage r.outputs }
  writeEach (fun c s => { s with constants := c.insert s.constants }) r.constants
  modify fun s => { s with parsed := s.parsed ++ [i] }

def collateInPlace (i : Identity) (r : StageReflection) : InPlace Unit := do
  check (·.checkUnparsed i)
  check (·.checkKinds r.usages)
  let pushBlocks ← check (·.pushBlocksWith i.stage r.pushConstant)
  enterInPlace i r pushBlocks

def parseInPlace (c : StageContext) (i : Identity) (binary : List UInt32) : InPlace Unit := do
  check (·.checkUnparsed i)
  let r ← check fun _ => (StageReflection.ofBinary c i.stage binary).mapError .reflection
  collateInPlace i r

/-- What a call comes to in place: the shader it makes, or its error and the shader as it was. -/
def landed (s : Shader) : Except CollateError Shader → Except CollateError Unit × Shader
  | .ok s' => (.ok (), s')
  | .error e => (.error e, s)

private theorem foldl_usages (us : List Usage) (s : Shader) :
    us.foldl (fun s u => { s with setTable := s.setTable.enter u }) s =
      { s with setTable := us.foldl .enter s.setTable } := by
  induction us generalizing s with
  | nil => rfl
  | cons u us ih => rw [List.foldl_cons, ih, List.foldl_cons]

private theorem foldl_constants (cs : List SpecConstant) (s : Shader) :
    cs.foldl (fun s c => { s with constants := c.insert s.constants }) s =
      { s with constants := cs.foldl (fun table c => c.insert table) s.constants } := by
  induction cs generalizing s with
  | nil => rfl
  | cons c cs ih => rw [List.foldl_cons, ih, List.foldl_cons]

private theorem on_enterInPlace (s : Shader) (i : Identity) (r : StageReflection)
    (pushBlocks : List PushBlock) :
    (enterInPlace i r pushBlocks).on s = (.ok (), s.extended (i, r) pushBlocks) := by
  simp only [enterInPlace, on_bind, on_modify, on_writeEach, foldl_usages, foldl_constants]
  rfl

private theorem on_collateInPlace (s : Shader) (i : Identity) (r : StageReflection) :
    (collateInPlace i r).on s = s.landed (s.collate i r) := by
  simp only [collateInPlace, on_check_bind, on_enterInPlace]
  simp only [collate, bind, Except.bind]
  cases s.checkUnparsed i with
  | error e => rfl
  | ok =>
    cases s.checkKinds r.usages with
    | error e => rfl
    | ok => cases s.pushBlocksWith i.stage r.pushConstant <;> rfl

private theorem on_parseInPlace (s : Shader) (c : StageContext) (i : Identity) (binary : List UInt32) :
    (parseInPlace c i binary).on s = s.landed (s.parse c i binary) := by
  simp only [parseInPlace, on_check_bind, on_collateInPlace]
  simp only [parse, bind, Except.bind]
  cases s.checkUnparsed i with
  | error e => rfl
  | ok => cases StageReflection.ofBinary c i.stage binary <;> rfl

end Shader

/-- A call that folds a stage in: with what was found out about it, or with its binary. -/
inductive ShaderCall where
  | collate (identity : Identity) (reflection : StageReflection)
  | parse (context : StageContext) (identity : Identity) (binary : List UInt32)

namespace ShaderCall

def identity : ShaderCall → Identity
  | collate i _ | parse _ i _ => i

/-- What is found out about the stage of a call. -/
def reflection : ShaderCall → Except CollateError StageReflection
  | collate _ r => .ok r
  | parse c i binary => (StageReflection.ofBinary c i.stage binary).mapError .reflection

def on (s : Shader) : ShaderCall → Except CollateError Shader
  | collate i r => s.collate i r
  | parse c i binary => s.parse c i binary

def inPlace : ShaderCall → InPlace Unit
  | collate i r => Shader.collateInPlace i r
  | parse c i binary => Shader.parseInPlace c i binary

private theorem on_inPlace (s : Shader) (call : ShaderCall) :
    call.inPlace.on s = s.landed (call.on s) := by
  cases call with
  | collate i r => exact s.on_collateInPlace i r
  | parse c i binary => exact s.on_parseInPlace c i binary

theorem on_eq_ok {s s' : Shader} {call : ShaderCall} :
    call.on s = .ok s' ↔
      ∃ r, call.reflection = .ok r ∧ s.collate call.identity r = .ok s' := by
  cases call with
  | collate i r =>
    constructor
    · intro done
      exact ⟨r, rfl, done⟩
    · rintro ⟨r', reflects, done⟩
      obtain rfl : r = r' := Except.ok.inj reflects
      exact done
  | parse c i binary =>
    simp only [on, Shader.parse, bind_eq_ok, identity, reflection]
    constructor
    · rintro ⟨_, _, r, reflects, done⟩
      exact ⟨r, reflects, done⟩
    · rintro ⟨r, reflects, done⟩
      have free : s.checkUnparsed i = .ok () :=
        Shader.checkUnparsed_eq_ok.mpr ((@Shader.collate_eq_ok s s' (i, r)).mp done).1
      exact ⟨(), free, r, reflects, done⟩

end ShaderCall

namespace Shader

open ShaderCall

/-- The outcomes of calls made in place one after another, and the shader in the end. -/
def runInPlace (s : Shader) : List ShaderCall → List (Except CollateError Unit) × Shader
  | [] => ([], s)
  | call :: later =>
      let (outcome, s') := call.inPlace.on s
      let (outcomes, last) := runInPlace s' later
      (outcome :: outcomes, last)

/-- The calls that succeed when all are made in place. -/
def acceptedInPlace (s : Shader) : List ShaderCall → List ShaderCall
  | [] => []
  | call :: later =>
      match call.inPlace.on s with
      | (.ok _, s') => call :: acceptedInPlace s' later
      | (.error _, s') => acceptedInPlace s' later

/-- What a stage has to meet to be folded in behind others. -/
structure Admits (s : Shader) (folded : List Identity) (i : Identity) (r : StageReflection) :
    Prop where
  free : ∀ j ∈ folded, j.stage ≠ i.stage
  kinds : ∀ u ∈ r.usages, ∀ known, s.Holds u.set u.binding known → known.kind = u.kind
  fits : ∀ block, r.pushConstant = some block → PushBlock.Fits 0 (s.pushBlocks ++ [block])

theorem runInPlace_cons_of_ok {s s' : Shader} {call : ShaderCall} (done : call.on s = .ok s')
    (later : List ShaderCall) :
    s.runInPlace (call :: later) =
      (.ok () :: (s'.runInPlace later).1, (s'.runInPlace later).2) := by
  have placed : call.inPlace.on s = (.ok (), s') := by rw [on_inPlace, done]; rfl
  simp only [runInPlace, placed]

private theorem runInPlace_cons_of_error {s : Shader} {call : ShaderCall} {e : CollateError}
    (failed : call.on s = .error e) (later : List ShaderCall) :
    s.runInPlace (call :: later) =
      (.error e :: (s.runInPlace later).1, (s.runInPlace later).2) := by
  have placed : call.inPlace.on s = (.error e, s) := by rw [on_inPlace, failed]; rfl
  simp only [runInPlace, placed]

theorem acceptedInPlace_cons_of_ok {s s' : Shader} {call : ShaderCall} (done : call.on s = .ok s')
    (later : List ShaderCall) :
    s.acceptedInPlace (call :: later) = call :: s'.acceptedInPlace later := by
  have placed : call.inPlace.on s = (.ok (), s') := by rw [on_inPlace, done]; rfl
  simp only [acceptedInPlace, placed]

private theorem acceptedInPlace_cons_of_error {s : Shader} {call : ShaderCall} {e : CollateError}
    (failed : call.on s = .error e) (later : List ShaderCall) :
    s.acceptedInPlace (call :: later) = s.acceptedInPlace later := by
  have placed : call.inPlace.on s = (.error e, s) := by rw [on_inPlace, failed]; rfl
  simp only [acceptedInPlace, placed]

private theorem runInPlace_accepted (s : Shader) (calls : List ShaderCall) :
    s.runInPlace (s.acceptedInPlace calls) =
      ((s.acceptedInPlace calls).map fun _ => .ok (), (s.runInPlace calls).2) := by
  induction calls generalizing s with
  | nil => rfl
  | cons call later ih =>
    cases result : call.on s with
    | ok s' =>
      rw [acceptedInPlace_cons_of_ok result, runInPlace_cons_of_ok result, ih,
        runInPlace_cons_of_ok result, List.map_cons]
    | error e =>
      rw [acceptedInPlace_cons_of_error result, runInPlace_cons_of_error result, ih]

theorem runInPlace_induction {P : Shader → List ShaderCall → Prop} {s : Shader}
    {before calls : List ShaderCall} (start : P s before)
    (step : ∀ call ∈ calls, ∀ s s' done, P s done → call.on s = .ok s' → P s' (done ++ [call])) :
    P (s.runInPlace calls).2 (before ++ s.acceptedInPlace calls) := by
  induction calls generalizing s before with
  | nil => simpa [runInPlace, acceptedInPlace] using start
  | cons call later ih =>
    obtain ⟨first, step⟩ := List.forall_mem_cons.mp step
    cases result : call.on s with
    | ok s' =>
      rw [acceptedInPlace_cons_of_ok result, runInPlace_cons_of_ok result, List.append_cons]
      exact ih (first s s' before start result) step
    | error e =>
      rw [acceptedInPlace_cons_of_error result, runInPlace_cons_of_error result]
      exact ih start step

private theorem parsed_and_keyed (name : String) (stages : List StageSet)
    (calls : List ShaderCall) :
    let start := Shader.new name stages
    (start.runInPlace calls).2.parsed = (start.acceptedInPlace calls).map (·.identity) ∧
      (start.runInPlace calls).2.Keyed := by
  intro start
  have kept : start.parsed = ([] : List ShaderCall).map (·.identity) ∧ start.Keyed :=
    ⟨rfl, SetTable.keyed_nil⟩
  refine runInPlace_induction
    (P := fun s done => s.parsed = done.map (·.identity) ∧ s.Keyed) kept ?_
  rintro call _ s s' done ⟨parsed, keyed⟩ result
  obtain ⟨r, _, collated⟩ := on_eq_ok.mp result
  obtain ⟨_, _, blocks, _, rfl⟩ := (@collate_eq_ok s s' (call.identity, r)).mp collated
  refine ⟨by simp [extended, parsed], ?_⟩
  exact keyed.enterAll r.usages

private theorem collate_isOk_iff {s : Shader} {folded : List Identity} (parsed : s.parsed = folded)
    (keyed : s.Keyed) (i : Identity) (r : StageReflection) :
    (∃ s', s.collate i r = .ok s') ↔ s.Admits folded i r := by
  have found : ∀ (u known : Usage),
      s.usageAt? u.slot = some known ↔ s.Holds u.set u.binding known :=
    fun _ _ => keyed.holds_iff.symm
  constructor
  · rintro ⟨s', done⟩
    obtain ⟨free, kinds, blocks, stacked, _⟩ := (@collate_eq_ok s s' (i, r)).mp done
    refine ⟨parsed ▸ free, fun u hu known held => kinds u hu known ((found u known).mpr held), ?_⟩
    intro block hb
    simp only [hb, pushBlocksWith] at stacked
    exact (PushBlock.stack_isOk_iff _ _).mp ⟨blocks, stacked⟩
  · rintro ⟨free, kinds, fits⟩
    have stacked : ∃ blocks, s.pushBlocksWith i.stage r.pushConstant = .ok blocks := by
      cases hb : r.pushConstant with
      | none => exact ⟨s.pushBlocks, rfl⟩
      | some block => exact (PushBlock.stack_isOk_iff _ _).mpr (fits block hb)
    obtain ⟨blocks, stacked⟩ := stacked
    have agree : ∀ u ∈ r.usages, ∀ known, s.usageAt? u.slot = some known → known.kind = u.kind :=
      fun u hu known held => kinds u hu known ((found u known).mp held)
    exact ⟨s.extended (i, r) blocks, (@collate_eq_ok s _ (i, r)).mpr
      ⟨parsed ▸ free, agree, blocks, stacked, rfl⟩⟩

/-- After any calls, a stage is folded in exactly when no call about it succeeded before, its usages have the
kinds that the tables hold at their slots, and its push-constant block fits behind the others.  A call that fails
in place leaves the shader as it was, what is called later comes out as without it, and the whole history comes to
what its successful calls alone come to. -/
theorem admits_iff_and_failure_leaves_tables (name : String) (stages : List StageSet)
    (history : List ShaderCall) :
    let start := Shader.new name stages
    let s := (start.runInPlace history).2
    let accepted := start.acceptedInPlace history
    let folded := accepted.map (·.identity)
    (∀ i r, (∃ s', s.collate i r = .ok s') ↔ s.Admits folded i r) ∧
      (∀ c i binary, (∃ s', s.parse c i binary = .ok s') ↔
        ∃ r, StageReflection.ofBinary c i.stage binary = .ok r ∧ s.Admits folded i r) ∧
        (∀ call : ShaderCall, call.inPlace.on s = s.landed (call.on s)) ∧
          (∀ (call : ShaderCall) e s', call.inPlace.on s = (.error e, s') →
            s' = s ∧ ∀ later, s.runInPlace (call :: later) =
              (.error e :: (s.runInPlace later).1, (s.runInPlace later).2)) ∧
            start.runInPlace accepted = (accepted.map fun _ => .ok (), s) := by
  intro start s accepted folded
  obtain ⟨parsed, keyed⟩ := parsed_and_keyed name stages history
  have isOk_iff : ∀ i r, (∃ s', s.collate i r = .ok s') ↔ s.Admits folded i r :=
    collate_isOk_iff parsed keyed
  refine ⟨isOk_iff, ?_, on_inPlace s, ?_, runInPlace_accepted start history⟩
  · intro c i binary
    constructor
    · rintro ⟨s', done⟩
      obtain ⟨r, reflects, collated⟩ := (@on_eq_ok s s' (.parse c i binary)).mp done
      exact ⟨r, mapError_eq_ok.mp reflects, (isOk_iff i r).mp ⟨s', collated⟩⟩
    · rintro ⟨r, reflects, admits⟩
      obtain ⟨s', collated⟩ := (isOk_iff i r).mpr admits
      exact ⟨s', (@on_eq_ok s s' (.parse c i binary)).mpr
        ⟨r, mapError_eq_ok.mpr reflects, collated⟩⟩
  · intro call e s' failed
    rw [on_inPlace] at failed
    cases result : call.on s with
    | ok s'' => simp [result, landed] at failed
    | error e' =>
      obtain ⟨same, rfl⟩ : e' = e ∧ s = s' := by simpa [result, landed] using failed
      subst same
      exact ⟨rfl, runInPlace_cons_of_error result⟩

end Shader

end ShaderPipeline
