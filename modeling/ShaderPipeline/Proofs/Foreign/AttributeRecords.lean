import ShaderPipeline.Proofs.Foreign.Queries
import ShaderPipeline.Proofs.Pack.Settlement
import ShaderPipeline.Proofs.Shader.VertexLayout

/-!
The attribute records that a caller gets for a processed shader.

The tables of a processed shader have for its vertex stage what the binary of that stage shows, and the records are
written as they stand there.  Main statement: the records are the vertex attributes in the order in which the binary
declares them, each once, behind the sizes of all before it; they ascend by location just if the binary declares them
so.
-/

set_option autoImplicit false
set_option relaxedAutoImplicit false

namespace ShaderPipeline

open Outcome Spirv

namespace Pack

variable {p : Pack} {g : ShaderGroup}

def parseCall (p : Pack) (g : ShaderGroup) (compiled : CompiledStage) : ShaderCall :=
  .parse (p.context g compiled) compiled.identity compiled.binary

private theorem holdsInputs_of_folded {stages : List CompiledStage} {s : Shader} (done : p.folded g stages = .ok s) :
    s.HoldsInputs (stages.map (p.parseCall g)) := by
  induction stages using List.reverseRecOn generalizing s with
  | nil =>
    obtain rfl := Except.ok.inj done
    exact ⟨rfl, nofun, fun _ _ => rfl⟩
  | append_singleton stages compiled ih =>
    rw [folded, List.foldlM_append, bind_eq_ok] at done
    obtain ⟨before, earlier, done⟩ := done
    obtain ⟨s', parsed, last⟩ := bind_eq_ok.mp done
    obtain rfl := Except.ok.inj last
    have folds : (p.parseCall g compiled).on before = .ok s' := parsed
    rw [List.map_append, List.map_singleton]
    exact (ih earlier).on folds

end Pack

/-- Whether the tables of a processed shader are what its stages were folded into, one after another. -/
def ProcessedShader.IsFolded (q : ProcessedShader) : Prop :=
  ∃ (p : Pack) (g : ShaderGroup), p.folded g q.stages = .ok q.shader

/-- The attribute record of a vertex attribute. -/
def Attribute.record (a : Attribute) : AttributeRecord :=
  ⟨a.location, 0, a.format.code, a.offset⟩

namespace Spirv.Module

variable {m : Module}

/-- The variables of a module that are vertex attributes, in the order of their declaration. -/
def vertexInputs (m : Module) : List Variable :=
  m.attributeVariables (.of .vertex) .input

/-- The locations of the vertex attributes of a module, in the order of their declaration. -/
def vertexLocations (m : Module) : List Nat :=
  m.vertexInputs.filterMap fun v => m.decorationWord? v.id .location

/-- Whether records are those of the vertex attributes of a module, in the order of their declaration. -/
structure RecordsDeclared (m : Module) (records : List AttributeRecord) : Prop where
  length_eq : records.length = m.vertexInputs.length
  /-- Each record has the location of its variable, and the sizes of all variables before it as its offset. -/
  record_eq : ∀ (i : Nat) v, m.vertexInputs[i]? = some v →
    ∃ location, m.decorationWord? v.id .location = some location ∧
      records[i]? = some
        ⟨location, 0, (m.attributeShape v.target).1.code, ((m.spans false m.vertexInputs).take i).sum⟩

private theorem recordsDeclared {found : List Attribute} (done : m.attributes (.of .vertex) .input = .ok found) :
    m.RecordsDeclared (found.map (·.record)) := by
  have whole : Direction.input.isArrayed (.of .vertex) = false := by decide
  have packed := (m.attributesPacked (.of .vertex) .input).packed found done
  rw [whole] at packed
  refine ⟨by rw [List.length_map, packed.1, vertexInputs], fun i v hv => ?_⟩
  obtain ⟨location, located, at_place⟩ := packed.2 i v hv
  exact ⟨location, located, by rw [List.getElem?_map, at_place]; rfl⟩

private theorem RecordsDeclared.locations_eq {records : List AttributeRecord} (h : m.RecordsDeclared records) :
    records.map (·.location) = m.vertexLocations := by
  have all : m.vertexLocations = m.vertexInputs.map fun v => (m.decorationWord? v.id .location).getD 0 := by
    rw [vertexLocations, ← List.filterMap_eq_map]
    refine List.filterMap_congr fun v hv => ?_
    obtain ⟨i, hi⟩ := List.mem_iff_getElem?.mp hv
    obtain ⟨location, located, _⟩ := h.record_eq i v hi
    simp [located]
  rw [all]
  refine List.ext_getElem? fun i => ?_
  rw [List.getElem?_map, List.getElem?_map]
  cases hv : m.vertexInputs[i]? with
  | none =>
    have beyond : records.length ≤ i := h.length_eq ▸ List.getElem?_eq_none_iff.mp hv
    rw [List.getElem?_eq_none beyond]
    rfl
  | some v =>
    obtain ⟨location, located, at_place⟩ := h.record_eq i v hv
    simp [at_place, located]

end Spirv.Module

namespace ForeignSession

/-- After any calls, a processed shader without a vertex stage has no attribute records; else it has those of the vertex
attributes of that stage's binary, in the order of their declaration.  They are in order of location just if the binary
declares them so. -/
theorem attributes_in_declaration_order (n : Installation) (environment : String → Option String) (files : FileTree)
    (history : List ForeignCall) :
    let s := (start n environment files).run history
    ∀ p, s.shader = some p → ∃ records, Answers (s.call .attributes) records ∧
      (((∀ c ∈ p.stages, c.identity.stage ≠ .of .vertex) ∧ records = []) ∨
        ∃ c ∈ p.stages, c.identity.stage = .of .vertex ∧ ∃ m, Module.ofWords c.binary = .ok m ∧
          m.RecordsDeclared records ∧
            (records.Pairwise (·.location ≤ ·.location) ↔ m.vertexLocations.Pairwise (· ≤ ·))) := by
  intro s p handle
  have none_yet : ∀ p, (start n environment files).shader = some p → p.IsFolded := nofun
  obtain ⟨pack, g, done⟩ : p.IsFolded :=
    forall_shader_run (fun pack _ _ _ _ done => ⟨pack, Pack.folded_of_process done⟩) none_yet history p handle
  have held := Pack.holdsInputs_of_folded done
  have there : s.items? .attributes = some ((p.shader.inputs (.of .vertex)).map (·.record)) := by
    simp only [items?, handle, Option.map_some, Shader.vertexAttributes, List.map_map]
    rfl
  refine ⟨_, .of_pass fun _ cell => ask_of_items there cell, ?_⟩
  by_cases none : ∀ c ∈ p.stages, c.identity.stage ≠ .of .vertex
  · refine .inl ⟨none, ?_⟩
    rw [held.others (.of .vertex) (List.forall_mem_map.mpr none)]
    rfl
  · push Not at none
    obtain ⟨c, hc, vertex⟩ := none
    have member : pack.parseCall g c ∈ p.stages.map (pack.parseCall g) := List.mem_map_of_mem hc
    obtain ⟨r, reflects, _⟩ := held.own _ member
    have parses : (pack.parseCall g c).Parses := trivial
    obtain ⟨m, reads⟩ := parses.exists_reads reflects
    have declared := Module.recordsDeclared (held.attributes_eq member vertex reads)
    refine .inr ⟨c, hc, vertex, m, reads, declared, ?_⟩
    rw [← declared.locations_eq]
    exact List.pairwise_map.symm

/-- A module whose vertices have a position of three numbers at location 1 and then a place on a plane at location 0. -/
def tideWords : List UInt32 :=
  [0x07230203, 0x00010000, 0, 12, 0,
    0x00040047, 8, 30, 1,
    0x00040047, 9, 30, 0,
    0x00030016, 1, 32,
    0x00040017, 2, 1, 3,
    0x00040017, 3, 1, 2,
    0x00040020, 4, 1, 2,
    0x00040020, 5, 1, 3,
    0x0004003b, 4, 8, 1,
    0x0004003b, 5, 9, 1]

/-- A session that processes the shader of the moon with a compiler that gives the binary of the tide. -/
def tideCalls : List ForeignCall :=
  [.load (some "catalog.json".toUTF8.toList) true none (some ⟨fun _ => .ok tideWords, fun _ _ => .error .cannotRecompile⟩),
    .process true (some "moon".toUTF8.toList) true]

def tide : ForeignSession :=
  (start ⟨"shaders", "shaders.db", "LIBRARY", "STORE"⟩ (fun _ => none) moonFiles).run tideCalls

def tideRecords : List AttributeRecord :=
  [⟨1, 0, 106, 0⟩, ⟨0, 0, 103, 12⟩]

private theorem tide_processed :
    tide.shader.map (fun p => (p.stages.map (·.identity.stage), p.shader.vertexAttributes.map
      fun a => (⟨a.location, a.binding, a.format.code, a.offset⟩ : AttributeRecord))) =
        some ([.of .vertex], tideRecords) := by
  decide +kernel

/-- The attribute at location 1 is written before the one at location 0. -/
theorem tide_attributes_descend :
    tide.call .attributes ⟨some tideRecords.reverse, 2⟩ = (.ok (), ⟨some tideRecords, 2⟩) ∧
      ¬ tideRecords.Pairwise (·.location ≤ ·.location) := by
  refine ⟨?_, by decide⟩
  obtain ⟨p, handle, shown⟩ := Option.map_eq_some_iff.mp tide_processed
  have there : tide.items? .attributes = some tideRecords := by
    rw [items?, handle]
    exact congrArg some (Prod.mk.inj shown).2
  have answers : Answers (tide.call .attributes) tideRecords := .of_pass fun _ cell => ask_of_items there cell
  exact answers.fill tideRecords.reverse 2 (by decide) (by decide)

theorem attributes_in_declaration_order_of_tide :
    ∃ p, tide.shader = some p ∧ ∃ records, Answers (tide.call .attributes) records ∧
      ∃ c ∈ p.stages, ∃ m, Module.ofWords c.binary = .ok m ∧ m.RecordsDeclared records ∧
        (records.Pairwise (·.location ≤ ·.location) ↔ m.vertexLocations.Pairwise (· ≤ ·)) := by
  obtain ⟨p, handle, shown⟩ := Option.map_eq_some_iff.mp tide_processed
  obtain ⟨stages, _⟩ := Prod.mk.inj shown
  obtain ⟨records, answers, absent | ⟨c, hc, _, m, read, declared, ascending⟩⟩ :=
    attributes_in_declaration_order ⟨"shaders", "shaders.db", "LIBRARY", "STORE"⟩ (fun _ => none) moonFiles tideCalls p
      handle
  · have vertex : .of .vertex ∈ p.stages.map (·.identity.stage) := stages ▸ List.mem_singleton_self _
    obtain ⟨c, hc, same⟩ := List.mem_map.mp vertex
    exact absurd same (absent.1 c hc)
  · exact ⟨p, handle, records, answers, c, hc, m, read, declared, ascending⟩

end ForeignSession

end ShaderPipeline
