import Mathlib.Data.List.Nodup
import ShaderPipeline.Proofs.Stage
import ShaderPipeline.Source.Assembly

/-!
The interface that a stage has by default.

Variables are declared at the locations of their positions, inputs and outputs each from zero.  A stage may take in what
it puts out; its inputs then bear a mark, so that they are other names than its outputs.  The mark goes by whether inputs
are arrays, and so is missing from a stage that passes variables on but takes in no arrays.  Main statement: what the
default interface declares, and exactly when it declares a name twice.
-/

set_option autoImplicit false
set_option relaxedAutoImplicit false

namespace ShaderPipeline

inductive InterfaceDirection where
  | input | output
  deriving DecidableEq

def InterfaceDirection.word : InterfaceDirection → String
  | input => "in"
  | output => "out"

structure InterfaceDeclaration where
  location : Nat
  direction : InterfaceDirection
  type : String
  name : String
  isArray : Bool
  deriving DecidableEq

namespace InterfaceDeclaration

def written (d : InterfaceDeclaration) : String :=
  let brackets := if d.isArray then "[]" else ""
  s!"layout(location = {d.location}) {d.direction.word} {d.type} {d.name}{brackets};"

/-- The fragment of some declarations, if there are any. -/
def fragments (kind : FragmentKind) (ds : List InterfaceDeclaration) : List Fragment :=
  if ds.isEmpty then [] else [⟨kind, Text.unlines (ds.map written)⟩]

def ofVariables (direction : InterfaceDirection) (mark : String) (isArray : Bool) (vs : List InterfaceVariable) :
    List InterfaceDeclaration :=
  vs.zipIdx.map fun (v, location) => ⟨location, direction, v.type, mark ++ v.name, isArray⟩

/-- Whether declarations are those of variables in one direction, in order and at the locations 0, 1, 2 and so on. -/
structure DeclareInOrder (direction : InterfaceDirection) (mark : String) (vs : List InterfaceVariable)
    (ds : List InterfaceDeclaration) : Prop where
  directions : ∀ d ∈ ds, d.direction = direction
  locations : ds.map (·.location) = List.range vs.length
  names : ds.map (fun d => (d.type, d.name)) = vs.map fun v => (v.type, mark ++ v.name)

section OfVariables

variable {direction : InterfaceDirection} {mark : String} {isArray : Bool} {vs : List InterfaceVariable}

@[simp] theorem isEmpty_ofVariables : (ofVariables direction mark isArray vs).isEmpty = vs.isEmpty := by
  cases vs <;> rfl

private theorem declareInOrder_ofVariables (direction : InterfaceDirection) (mark : String) (isArray : Bool)
    (vs : List InterfaceVariable) : DeclareInOrder direction mark vs (ofVariables direction mark isArray vs) := by
  refine ⟨fun d hd => ?_, ?_, ?_⟩
  · obtain ⟨⟨v, location⟩, _, rfl⟩ := List.mem_map.mp hd
    rfl
  · rw [ofVariables, List.map_map, List.range_eq_range', ← List.zipIdx_map_snd 0 vs]
    rfl
  · rw [ofVariables, List.map_map]
    conv_rhs => rw [← List.zipIdx_map_fst 0 vs, List.map_map]
    rfl

private theorem name_ofVariables : (ofVariables direction mark isArray vs).map (·.name) = vs.map (mark ++ ·.name) := by
  have names := congrArg (List.map Prod.snd) (declareInOrder_ofVariables direction mark isArray vs).names
  rw [List.map_map, List.map_map] at names
  exact names

private theorem written_mk (location : Nat) (type name : String) :
    written ⟨location, direction, type, mark ++ name, isArray⟩ =
      let brackets := if isArray then "[]" else ""
      s!"layout(location = {location}) {direction.word} {type} {mark}{name}{brackets};" := by
  dsimp only [written]
  generalize (if isArray then "[]" else "") = brackets
  simp only [toString, String.append_assoc]

private theorem declareInterface_eq : StageRequest.declareInterface direction.word mark (if isArray then "[]" else "") vs =
    Text.unlines ((ofVariables direction mark isArray vs).map written) := by
  have lines : (ofVariables direction mark isArray vs).map written = vs.zipIdx.map fun p =>
      written ⟨p.2, direction, p.1.type, mark ++ p.1.name, isArray⟩ := by
    rw [ofVariables, List.map_map]
    rfl
  rw [lines, StageRequest.declareInterface]
  simp only [written_mk]

end OfVariables

end InterfaceDeclaration

def ShaderGroup.interfaceVariables (g : ShaderGroup) : List InterfaceVariable :=
  g.vertexInputs ++ g.varyings ++ g.fragmentOutputs

namespace StageRequest

def declaredInputs (shader : ShaderGroup) (stage : StageSet) : List InterfaceDeclaration :=
  InterfaceDeclaration.ofVariables .input (inputMark shader stage) stage.hasArrayedInputs (shader.defaultInputs stage)

/-- What a stage declares that it puts out, unless a fragment stage is asked to put out nothing. -/
def declaredOutputs (shader : ShaderGroup) (stage : StageSet) (asked : InterfaceRequest) : List InterfaceDeclaration :=
  if asked.noFragmentOutput && stage == .of .fragment then []
  else InterfaceDeclaration.ofVariables .output "" stage.hasArrayedOutputs (shader.defaultOutputs stage)

/-- The names that the block of positions declares. -/
def perVertexNames : List String :=
  ["gl_PerVertex", "gl_Position"]

def inputNames (shader : ShaderGroup) (stage : StageSet) : List String :=
  (declaredInputs shader stage).map (·.name)

/-- The names of a stage's outputs, those of the block of positions with them. -/
def outputNames (shader : ShaderGroup) (stage : StageSet) (asked : InterfaceRequest) : List String :=
  (declaredOutputs shader stage asked).map (·.name) ++ if stage.hasPerVertexOutput then perVertexNames else []

/-- Whether a stage passes variables on under the names that it takes them in by: the mesh stage does, and what is no
known stage. -/
def PassesUnmarked (stage : StageSet) : Prop :=
  ∀ s, s ≠ .mesh → stage ≠ .of s

section Fragments

variable {shader : ShaderGroup} {stage : StageSet} {asked : InterfaceRequest}

private theorem interfaceFragments_eq (noOverride : asked.override = none) :
    interfaceFragments shader stage asked =
      InterfaceDeclaration.fragments .interfaceInput (declaredInputs shader stage) ++
        InterfaceDeclaration.fragments .interfaceOutput (declaredOutputs shader stage asked) ++
          if stage.hasPerVertexOutput then [⟨.perVertex, perVertexText⟩] else [] := by
  rw [interfaceFragments, noOverride]
  have inputs : inputText shader stage =
      Text.unlines ((declaredInputs shader stage).map InterfaceDeclaration.written) := by
    rw [declaredInputs, ← InterfaceDeclaration.declareInterface_eq]
    rfl
  have outputs : outputText shader stage = Text.unlines
      ((InterfaceDeclaration.ofVariables .output "" stage.hasArrayedOutputs (shader.defaultOutputs stage)).map
        InterfaceDeclaration.written) := by
    rw [← InterfaceDeclaration.declareInterface_eq]
    rfl
  simp only [inputs, outputs, InterfaceDeclaration.fragments, declaredOutputs]
  by_cases dropped : (asked.noFragmentOutput && stage == .of .fragment) = true
  · simp [dropped, declaredInputs]
  · simp [dropped, declaredInputs]

end Fragments

section Names

variable {shader : ShaderGroup} {stage : StageSet} {asked : InterfaceRequest}

private theorem inputNames_eq :
    inputNames shader stage = (shader.defaultInputs stage).map (inputMark shader stage ++ ·.name) :=
  InterfaceDeclaration.name_ofVariables

private theorem outputNames_eq (stays : (asked.noFragmentOutput && stage == .of .fragment) = false) :
    outputNames shader stage asked = (shader.defaultOutputs stage).map (·.name) ++
      if stage.hasPerVertexOutput then perVertexNames else [] := by
  rw [outputNames, declaredOutputs, stays]
  simp [InterfaceDeclaration.name_ofVariables]

private theorem interface_cases (stage : StageSet) : stage = .of .vertex ∨ stage = .of .fragment ∨
    ShaderGroup.standsAlone stage ∨ stage.hasArrayedInputs ∨ PassesUnmarked stage := by
  by_cases known : ∃ s, s ≠ .mesh ∧ stage = .of s
  · obtain ⟨s, other, rfl⟩ := known
    cases s with
    | vertex => exact .inl rfl
    | fragment => exact .inr (.inl rfl)
    | compute | task => exact .inr (.inr (.inl rfl))
    | tessControl | tessEvaluation | geometry => exact .inr (.inr (.inr (.inl rfl)))
    | mesh => exact absurd rfl other
  · exact .inr (.inr (.inr (.inr fun s other same => known ⟨s, other, same⟩)))

private theorem hasArrayedInputs_iff : stage.hasArrayedInputs ↔
    stage = .of .geometry ∨ stage = .of .tessControl ∨ stage = .of .tessEvaluation := by
  constructor
  · intro arrayed
    obtain ⟨single, held⟩ := Bool.and_eq_true_iff.mp arrayed
    simpa [StageSet.contains_iff_eq single] using held
  · rintro (rfl | rfl | rfl) <;> rfl

private theorem hasPerVertexOutput_iff : stage.hasPerVertexOutput ↔
    stage = .of .vertex ∨ stage = .of .geometry ∨ stage = .of .tessEvaluation := by
  constructor
  · intro positions
    obtain ⟨single, held⟩ := Bool.and_eq_true_iff.mp positions
    simpa [StageSet.contains_iff_eq single] using held
  · rintro (rfl | rfl | rfl) <;> rfl

private theorem not_passesUnmarked (s : Stage) (other : s ≠ .mesh) : ¬ PassesUnmarked (.of s) := fun unmarked =>
  unmarked s other rfl

private theorem interface_of_arrayed (arrayed : stage.hasArrayedInputs) :
    shader.defaultInputs stage = shader.varyings ∧ shader.defaultOutputs stage = shader.varyings ∧
      (shader.varyings ≠ [] → inputMark shader stage = "in_") := by
  have passes : shader.defaultInputs stage = shader.varyings ∧ shader.defaultOutputs stage = shader.varyings := by
    rcases hasArrayedInputs_iff.mp arrayed with rfl | rfl | rfl <;> exact ⟨rfl, rfl⟩
  refine ⟨passes.1, passes.2, fun some' => ?_⟩
  have nonempty : shader.varyings.isEmpty = false := List.isEmpty_eq_false_iff.mpr some'
  rw [inputMark, arrayed, passes.2, nonempty]
  rfl

private theorem inputMark_of_not_arrayed (plain : stage.hasArrayedInputs = false) : inputMark shader stage = "" := by
  rw [inputMark, plain]
  rfl

private theorem interface_of_unmarked (unmarked : PassesUnmarked stage) :
    shader.defaultInputs stage = shader.varyings ∧ shader.defaultOutputs stage = shader.varyings ∧
      stage.hasArrayedInputs = false ∧ stage.hasPerVertexOutput = false ∧ (stage == .of .fragment) = false := by
  have other : ∀ s, s ≠ .mesh → (stage == .of s) = false := fun s known => beq_false_of_ne (unmarked s known)
  refine ⟨?_, ?_, ?_, ?_, other .fragment nofun⟩
  · simp [ShaderGroup.defaultInputs, ShaderGroup.standsAlone, other]
  · simp [ShaderGroup.defaultOutputs, ShaderGroup.standsAlone, other]
  · rw [Bool.eq_false_iff]
    intro arrayed
    rcases hasArrayedInputs_iff.mp arrayed with rfl | rfl | rfl <;> exact not_passesUnmarked _ (by decide) unmarked
  · rw [Bool.eq_false_iff]
    intro positions
    rcases hasPerVertexOutput_iff.mp positions with rfl | rfl | rfl <;> exact not_passesUnmarked _ (by decide) unmarked

end Names

section Distinct

variable {shader : ShaderGroup} {stage : StageSet} {asked : InterfaceRequest}

private theorem defaultInputs_sublist : (shader.defaultInputs stage).Sublist shader.interfaceVariables := by
  have first := List.sublist_append_left shader.vertexInputs shader.varyings
  have second := List.sublist_append_right shader.vertexInputs shader.varyings
  rw [ShaderGroup.defaultInputs, ShaderGroup.interfaceVariables]
  split
  · exact first.trans (List.sublist_append_left ..)
  · split
    · exact List.nil_sublist _
    · exact second.trans (List.sublist_append_left ..)

private theorem defaultOutputs_sublist : (shader.defaultOutputs stage).Sublist shader.interfaceVariables := by
  have second := List.sublist_append_right shader.vertexInputs shader.varyings
  rw [ShaderGroup.defaultOutputs, ShaderGroup.interfaceVariables]
  split
  · exact List.sublist_append_right ..
  · split
    · exact List.nil_sublist _
    · exact second.trans (List.sublist_append_left ..)

private theorem nodup_inputNames (distinct : (shader.interfaceVariables.map (·.name)).Nodup) : (inputNames shader stage).Nodup := by
  have names : ((shader.defaultInputs stage).map (·.name)).Nodup := distinct.sublist (defaultInputs_sublist.map _)
  have marked : Function.Injective (inputMark shader stage ++ ·) := fun _ _ same => by simpa using same
  have both := names.map marked
  rw [List.map_map] at both
  rw [inputNames_eq]
  exact both

private theorem perVertexNames_nodup : perVertexNames.Nodup := by
  decide

private theorem outputNames_of_dropped (dropped : (asked.noFragmentOutput && stage == .of .fragment) = true) :
    stage = .of .fragment ∧ outputNames shader stage asked = [] := by
  obtain ⟨_, same⟩ := Bool.and_eq_true_iff.mp dropped
  obtain rfl := eq_of_beq same
  rw [outputNames, declaredOutputs, dropped]
  exact ⟨rfl, rfl⟩

private theorem nodup_outputNames_iff (distinct : (shader.interfaceVariables.map (·.name)).Nodup) :
    (outputNames shader stage asked).Nodup ↔
      (stage.hasPerVertexOutput → ∀ v ∈ shader.defaultOutputs stage, v.name ∉ perVertexNames) := by
  have names : ((shader.defaultOutputs stage).map (·.name)).Nodup := distinct.sublist (defaultOutputs_sublist.map _)
  cases dropped : asked.noFragmentOutput && stage == .of .fragment with
  | true =>
    obtain ⟨rfl, none'⟩ := @outputNames_of_dropped shader stage asked dropped
    rw [none']
    exact ⟨fun _ positions => absurd positions (by decide), fun _ => List.nodup_nil⟩
  | false =>
    rw [outputNames_eq dropped, List.nodup_append]
    cases stage.hasPerVertexOutput with
    | true => simp [names, perVertexNames_nodup, List.forall_mem_ne]
    | false => simp [names]

private theorem varyings_apart (distinct : (shader.interfaceVariables.map (·.name)).Nodup) :
    (∀ v ∈ shader.vertexInputs, ∀ w ∈ shader.varyings, v.name ≠ w.name) ∧
      ∀ v ∈ shader.varyings, ∀ w ∈ shader.fragmentOutputs, v.name ≠ w.name := by
  simp only [ShaderGroup.interfaceVariables, List.map_append, List.nodup_append, List.mem_append, List.mem_map] at distinct
  obtain ⟨⟨_, _, first⟩, _, second⟩ := distinct
  exact ⟨fun v hv w hw => first _ ⟨v, hv, rfl⟩ _ ⟨w, hw, rfl⟩, fun v hv w hw => second _ (.inr ⟨v, hv, rfl⟩) _ ⟨w, hw, rfl⟩⟩

private theorem unmarked_of_mem_outputNames {name : String}
    (unmarked : ∀ v ∈ shader.interfaceVariables, ¬ "in_".toList <+: v.name.toList)
    (put : name ∈ outputNames shader stage asked) : ¬ "in_".toList <+: name.toList := by
  cases dropped : asked.noFragmentOutput && stage == .of .fragment with
  | true =>
    rw [(outputNames_of_dropped dropped).2] at put
    cases put
  | false =>
    rw [outputNames_eq dropped, List.mem_append] at put
    rcases put with own | positions
    · obtain ⟨v, hv, rfl⟩ := List.mem_map.mp own
      exact unmarked v (defaultOutputs_sublist.subset hv)
    · have apart : ∀ name ∈ perVertexNames, ¬ "in_".toList <+: name.toList := by decide
      split at positions
      · exact apart name positions
      · cases positions

private theorem inputNames_of_not_arrayed (plain : stage.hasArrayedInputs = false) :
    inputNames shader stage = (shader.defaultInputs stage).map (·.name) := by
  rw [inputNames_eq, inputMark_of_not_arrayed plain]
  simp

private theorem names_of_vertex : inputNames shader (.of .vertex) = shader.vertexInputs.map (·.name) ∧
    outputNames shader (.of .vertex) asked = shader.varyings.map (·.name) ++ perVertexNames := by
  have stays : (asked.noFragmentOutput && StageSet.of .vertex == .of .fragment) = false :=
    Bool.and_false _
  exact ⟨inputNames_of_not_arrayed rfl, outputNames_eq stays⟩

private theorem names_of_fragment : inputNames shader (.of .fragment) = shader.varyings.map (·.name) ∧
    ∀ name ∈ outputNames shader (.of .fragment) asked, ∃ v ∈ shader.fragmentOutputs, v.name = name := by
  refine ⟨inputNames_of_not_arrayed rfl, fun name put => ?_⟩
  cases dropped : asked.noFragmentOutput && StageSet.of .fragment == .of .fragment with
  | true =>
    rw [(outputNames_of_dropped dropped).2] at put
    cases put
  | false =>
    have only : outputNames shader (.of .fragment) asked = shader.fragmentOutputs.map (·.name) :=
      (outputNames_eq dropped).trans (List.append_nil _)
    rw [only] at put
    exact List.mem_map.mp put

private theorem inputNames_of_standsAlone (alone : ShaderGroup.standsAlone stage) :
    inputNames shader stage = [] ∧ ¬ PassesUnmarked stage ∧ stage ≠ .of .vertex := by
  rcases Bool.or_eq_true_iff.mp alone with same | same
  · obtain rfl := eq_of_beq same
    exact ⟨rfl, not_passesUnmarked .compute (by decide), by decide⟩
  · obtain rfl := eq_of_beq same
    exact ⟨rfl, not_passesUnmarked .task (by decide), by decide⟩

private theorem apart_of_arrayed (arrayed : stage.hasArrayedInputs) : ¬ PassesUnmarked stage ∧ stage ≠ .of .vertex := by
  rcases hasArrayedInputs_iff.mp arrayed with rfl | rfl | rfl <;>
    exact ⟨not_passesUnmarked _ (by decide), by decide⟩

private theorem marked_of_arrayed {name : String} (arrayed : stage.hasArrayedInputs)
    (taken : name ∈ inputNames shader stage) : "in_".toList <+: name.toList := by
  obtain ⟨takes, _, marks⟩ := @interface_of_arrayed shader stage arrayed
  rw [inputNames_eq, takes] at taken
  obtain ⟨v, hv, rfl⟩ := List.mem_map.mp taken
  rw [marks (List.ne_nil_of_mem hv), String.toList_append]
  exact List.prefix_append ..

private theorem names_of_unmarked (passes : PassesUnmarked stage) :
    inputNames shader stage = shader.varyings.map (·.name) ∧
      outputNames shader stage asked = shader.varyings.map (·.name) := by
  obtain ⟨takes, puts, plain, silent, other⟩ := @interface_of_unmarked shader stage passes
  have stays : (asked.noFragmentOutput && stage == .of .fragment) = false := by
    rw [other, Bool.and_false]
  constructor
  · rw [inputNames_of_not_arrayed plain, takes]
  · rw [outputNames_eq stays, puts, silent]
    exact List.append_nil _

/-- A name is declared in both directions exactly if a stage passes variables on unmarked, or if a vertex input is named
as the block of positions. -/
private theorem exists_shared_iff (distinct : (shader.interfaceVariables.map (·.name)).Nodup)
    (unmarked : ∀ v ∈ shader.interfaceVariables, ¬ "in_".toList <+: v.name.toList) :
    (∃ name ∈ inputNames shader stage, name ∈ outputNames shader stage asked) ↔
      PassesUnmarked stage ∧ shader.varyings ≠ [] ∨
        stage = .of .vertex ∧ ∃ v ∈ shader.vertexInputs, v.name ∈ perVertexNames := by
  obtain ⟨first, second⟩ := varyings_apart distinct
  rcases interface_cases stage with rfl | rfl | alone | arrayed | passes
  · have known := not_passesUnmarked .vertex (by decide)
    obtain ⟨takes, puts⟩ := @names_of_vertex shader asked
    have own : (∃ name ∈ inputNames shader (.of .vertex), name ∈ outputNames shader (.of .vertex) asked) ↔
        ∃ v ∈ shader.vertexInputs, v.name ∈ perVertexNames := by
      rw [takes, puts]
      constructor
      · rintro ⟨name, taken, put⟩
        obtain ⟨v, hv, rfl⟩ := List.mem_map.mp taken
        rcases List.mem_append.mp put with passed | position
        · obtain ⟨w, hw, same⟩ := List.mem_map.mp passed
          exact absurd same.symm (first v hv w hw)
        · exact ⟨v, hv, position⟩
      · rintro ⟨v, hv, position⟩
        exact ⟨v.name, List.mem_map_of_mem hv, List.mem_append_right _ position⟩
    simp only [own, known, false_and, false_or, true_and]
  · have known := not_passesUnmarked .fragment (by decide)
    obtain ⟨takes, puts⟩ := @names_of_fragment shader asked
    have apart : ¬ ∃ name ∈ inputNames shader (.of .fragment), name ∈ outputNames shader (.of .fragment) asked := by
      rintro ⟨name, taken, put⟩
      rw [takes] at taken
      obtain ⟨v, hv, rfl⟩ := List.mem_map.mp taken
      obtain ⟨w, hw, same⟩ := puts _ put
      exact second v hv w hw same.symm
    have other : StageSet.of .fragment ≠ .of .vertex := by decide
    simp only [apart, known, other, false_and, or_false]
  · obtain ⟨none', known, other⟩ := @inputNames_of_standsAlone shader stage alone
    simp only [none', known, other, List.not_mem_nil, false_and, exists_false, or_false]
  · obtain ⟨known, other⟩ := apart_of_arrayed arrayed
    have apart : ¬ ∃ name ∈ inputNames shader stage, name ∈ outputNames shader stage asked := fun ⟨_, taken, put⟩ =>
      unmarked_of_mem_outputNames unmarked put (marked_of_arrayed arrayed taken)
    simp only [apart, known, other, false_and, or_false]
  · obtain ⟨takes, puts⟩ := @names_of_unmarked shader stage asked passes
    have other : stage ≠ .of .vertex := passes .vertex (by decide)
    rw [takes, puts]
    simp [passes, other, List.eq_nil_iff_forall_not_mem]

/-- Without an override a stage declares each variable that it takes in by default once, and each that it puts out,
unless it is a fragment stage that is asked to put out nothing; locations follow the order of the catalog.  If the
variables of the shader have distinct names without the mark, no name is declared twice in one direction, unless a
variable that is put out is named as the block of positions, and a name is declared in both directions exactly if the
stage passes variables on unmarked or a vertex input is named as that block. -/
theorem default_interface_names (shader : ShaderGroup) (stage : StageSet) (asked : InterfaceRequest)
    (noOverride : asked.override = none) (distinct : (shader.interfaceVariables.map (·.name)).Nodup)
    (unmarked : ∀ v ∈ shader.interfaceVariables, ¬ "in_".toList <+: v.name.toList) :
    interfaceFragments shader stage asked =
      InterfaceDeclaration.fragments .interfaceInput (declaredInputs shader stage) ++
        InterfaceDeclaration.fragments .interfaceOutput (declaredOutputs shader stage asked) ++
          (if stage.hasPerVertexOutput then [⟨.perVertex, perVertexText⟩] else []) ∧
    InterfaceDeclaration.DeclareInOrder .input (inputMark shader stage) (shader.defaultInputs stage)
      (declaredInputs shader stage) ∧
    (if asked.noFragmentOutput ∧ stage = .of .fragment then declaredOutputs shader stage asked = []
      else InterfaceDeclaration.DeclareInOrder .output "" (shader.defaultOutputs stage)
        (declaredOutputs shader stage asked)) ∧
    (inputNames shader stage).Nodup ∧
    ((outputNames shader stage asked).Nodup ↔
      (stage.hasPerVertexOutput → ∀ v ∈ shader.defaultOutputs stage, v.name ∉ perVertexNames)) ∧
    ((∃ name ∈ inputNames shader stage, name ∈ outputNames shader stage asked) ↔
      PassesUnmarked stage ∧ shader.varyings ≠ [] ∨
        stage = .of .vertex ∧ ∃ v ∈ shader.vertexInputs, v.name ∈ perVertexNames) := by
  refine ⟨interfaceFragments_eq noOverride, InterfaceDeclaration.declareInOrder_ofVariables .., ?_,
    nodup_inputNames distinct, nodup_outputNames_iff distinct, exists_shared_iff distinct unmarked⟩
  have dropped : (asked.noFragmentOutput && stage == .of .fragment) = true ↔
      asked.noFragmentOutput ∧ stage = .of .fragment := by simp
  simp only [declaredOutputs, dropped]
  split
  · rfl
  · exact InterfaceDeclaration.declareInOrder_ofVariables ..

end Distinct

section Veil

/-- A shader whose geometry passes two variables on. -/
def veil : ShaderGroup :=
  { ShaderGroup.named "veil" with
    stages := [⟨.of .geometry, ⟨"veil.geom"⟩⟩, ⟨.of .mesh, ⟨"veil.mesh"⟩⟩]
    vertexInputs := [⟨"position", "vec3"⟩]
    varyings := [⟨"normal", "vec3"⟩, ⟨"uv", "vec2"⟩]
    fragmentOutputs := [⟨"color", "vec4"⟩] }

private theorem veil_distinct : (veil.interfaceVariables.map (·.name)).Nodup := by
  decide

private theorem veil_unmarked : ∀ v ∈ veil.interfaceVariables, ¬ "in_".toList <+: v.name.toList := by
  decide

theorem default_interface_names_of_veil :
    (InterfaceRequest.empty.override = none ∧ (veil.interfaceVariables.map (·.name)).Nodup ∧
      ∀ v ∈ veil.interfaceVariables, ¬ "in_".toList <+: v.name.toList) ∧
    inputNames veil (.of .geometry) = ["in_normal", "in_uv"] ∧
    outputNames veil (.of .geometry) .empty = ["normal", "uv", "gl_PerVertex", "gl_Position"] ∧
    (outputNames veil (.of .geometry) .empty).Nodup ∧
    ¬ ∃ name ∈ inputNames veil (.of .geometry), name ∈ outputNames veil (.of .geometry) .empty := by
  obtain ⟨_, _, _, _, once, shared⟩ :=
    default_interface_names veil (.of .geometry) .empty rfl veil_distinct veil_unmarked
  refine ⟨⟨rfl, veil_distinct, veil_unmarked⟩, rfl, rfl, once.mpr fun _ => by decide, fun both => ?_⟩
  rcases shared.mp both with ⟨passes, _⟩ | ⟨vertex, _⟩
  · exact passes .geometry (by decide) rfl
  · exact absurd vertex (by decide)

/-- A mesh stage, which a catalog may have, declares the same names in both directions. -/
theorem mesh_declares_names_twice :
    (Catalog.ofGroups [veil] []).isOk ∧ (StageSet.of .mesh).isSingle ∧ ⟨.of .mesh, ⟨"veil.mesh"⟩⟩ ∈ veil.stages ∧
    (veil.interfaceVariables.map (·.name)).Nodup ∧
    (∀ v ∈ veil.interfaceVariables, ¬ "in_".toList <+: v.name.toList) ∧
    interfaceFragments veil (.of .mesh) .empty =
      [⟨.interfaceInput, "layout(location = 0) in vec3 normal;
layout(location = 1) in vec2 uv;
"⟩,
        ⟨.interfaceOutput, "layout(location = 0) out vec3 normal[];
layout(location = 1) out vec2 uv[];
"⟩] ∧
    "normal" ∈ inputNames veil (.of .mesh) ∧ "normal" ∈ outputNames veil (.of .mesh) .empty := by
  refine ⟨by decide, by decide, by decide, veil_distinct, veil_unmarked, by decide +kernel, by decide, by decide⟩

end Veil

end StageRequest

end ShaderPipeline
