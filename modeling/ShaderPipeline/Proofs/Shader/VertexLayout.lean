import Mathlib.Data.List.Find
import ShaderPipeline.Proofs.Reflection.Attributes
import ShaderPipeline.Proofs.Shader.SpecRecords

/-!
The vertices that a shader takes in after its stages were folded in.

A stage is folded in once at most, so what the tables have for it is what its binary showed.  Main statements: no
vertex attribute ends beyond a word, one with a known format ends within the stride, and the stride is the size of all
vertex attributes together up to what the format of the last one leaves out.
-/

set_option autoImplicit false
set_option relaxedAutoImplicit false

namespace ShaderPipeline

open Outcome Spirv

namespace Spirv.Module

private theorem inputs_of_reflection {m : Module} {c : StageContext} {stage : StageSet} {r : StageReflection}
    (done : m.reflection c stage = .ok r) : m.attributes stage .input = .ok r.inputs :=
  (reflection_eq_ok.mp done).2.2.2.1

end Spirv.Module

namespace ShaderCall

def Reads (call : ShaderCall) (m : Module) : Prop :=
  match call with
  | parse _ _ binary => Module.ofWords binary = .ok m
  | collate _ _ => False

private theorem inputs_of_reads {call : ShaderCall} {m : Module} (reads : call.Reads m) {r : StageReflection}
    (reflects : call.reflection = .ok r) : m.attributes call.identity.stage .input = .ok r.inputs := by
  cases call with
  | collate i r' => exact absurd reads id
  | parse c i binary =>
    obtain ⟨m', read, reflected⟩ := StageReflection.ofBinary_eq_ok.mp (mapError_eq_ok.mp reflects)
    obtain rfl : m = m' := Except.ok.inj (reads.symm.trans read)
    exact Module.inputs_of_reflection reflected

theorem Parses.exists_reads {call : ShaderCall} (parses : call.Parses) {r : StageReflection}
    (reflects : call.reflection = .ok r) : ∃ m, call.Reads m := by
  cases call with
  | collate i r' => exact absurd parses id
  | parse c i binary =>
    obtain ⟨m, read, _⟩ := StageReflection.ofBinary_eq_ok.mp (mapError_eq_ok.mp reflects)
    exact ⟨m, read⟩

end ShaderCall

namespace Shader

open ShaderCall

section Tables

private theorem attributesOf_setAttributes (table : AttributeTable) (stage other : StageSet)
    (attributes : List Attribute) :
    attributesOf (setAttributes table stage attributes) other =
      if other = stage then attributes else attributesOf table other := by
  unfold attributesOf setAttributes
  rw [List.find?_append]
  by_cases same : other = stage
  · subst same
    have gone : (table.filter (·.1 != other)).find? (·.1 == other) = none :=
      List.find?_eq_none.mpr fun entry he => by simpa using (List.mem_filter.mp he).2
    rw [gone, if_pos rfl]
    simp
  · have kept : (table.filter (·.1 != stage)).find? (·.1 == other) = table.find? (·.1 == other) := by
      rw [List.find?_filter]
      refine List.find?_congr fun entry _ => ?_
      by_cases found : entry.1 = other
      · simp [found, same]
      · simp [found]
    have apart : (stage == other) = false := beq_false_of_ne (Ne.symm same)
    rw [kept, if_neg same, List.find?_singleton, apart]
    simp

/-- What the input table of a shader has after some calls were folded in. -/
structure HoldsInputs (s : Shader) (folded : List ShaderCall) : Prop where
  parsed : s.parsed = folded.map (·.identity)
  own : ∀ call ∈ folded, ∃ r, call.reflection = .ok r ∧ s.inputs call.identity.stage = r.inputs
  others : ∀ stage, (∀ call ∈ folded, call.identity.stage ≠ stage) → s.inputs stage = []

theorem HoldsInputs.on {s s' : Shader} {folded : List ShaderCall} (h : s.HoldsInputs folded)
    {call : ShaderCall} (done : call.on s = .ok s') : s'.HoldsInputs (folded ++ [call]) := by
  obtain ⟨r, reflects, collated⟩ := on_eq_ok.mp done
  obtain ⟨free, _, blocks, _, rfl⟩ := (@collate_eq_ok s s' (call.identity, r)).mp collated
  have inputs : ∀ stage, (s.extended (call.identity, r) blocks).inputs stage =
      if stage = call.identity.stage then r.inputs else s.inputs stage :=
    fun stage => attributesOf_setAttributes s.inputTable call.identity.stage stage r.inputs
  refine ⟨?_, ?_, ?_⟩
  · simp [extended, h.parsed]
  · intro c hc
    rcases List.mem_append.mp hc with hc | hc
    · obtain ⟨r', reflects', held⟩ := h.own c hc
      have apart : c.identity.stage ≠ call.identity.stage :=
        free c.identity (h.parsed ▸ List.mem_map_of_mem hc)
      exact ⟨r', reflects', (inputs _).trans ((if_neg apart).trans held)⟩
    · obtain rfl := List.mem_singleton.mp hc
      exact ⟨r, reflects, (inputs _).trans (if_pos rfl)⟩
  · intro stage never
    obtain ⟨never, last⟩ := List.forall_mem_append.mp never
    have apart : stage ≠ call.identity.stage := fun same => last call (List.mem_singleton_self _) same.symm
    exact (inputs _).trans ((if_neg apart).trans (h.others stage never))

private theorem holdsInputs (name : String) (stages : List StageSet) (history : List ShaderCall) :
    ((new name stages).runInPlace history).2.HoldsInputs ((new name stages).acceptedInPlace history) := by
  have none : (new name stages).HoldsInputs [] := ⟨rfl, nofun, fun _ _ => rfl⟩
  exact runInPlace_induction (P := HoldsInputs) none fun _ _ _ _ _ h done => h.on done

private theorem acceptedInPlace_subset (s : Shader) (calls : List ShaderCall) : s.acceptedInPlace calls ⊆ calls := by
  apply runInPlace_induction (P := fun _ folded => folded ⊆ calls) (s := s) (List.nil_subset calls)
  intro call hc _ _ folded sub _
  exact List.append_subset.mpr ⟨sub, by simpa using hc⟩

end Tables

section Vertices

private theorem le_foldl_max (l : List Nat) (reached : Nat) :
    reached ≤ l.foldl max reached ∧ ∀ n ∈ l, n ≤ l.foldl max reached := by
  induction l generalizing reached with
  | nil => exact ⟨Nat.le_refl _, nofun⟩
  | cons a l ih =>
    obtain ⟨grown, bound⟩ := ih (max reached a)
    refine ⟨by simp only [List.foldl_cons]; omega, ?_⟩
    refine List.forall_mem_cons.mpr ⟨?_, bound⟩
    simp only [List.foldl_cons]
    omega

private theorem end_le_vertexStride {s : Shader} {a : Attribute} (ha : a ∈ s.inputs (.of .vertex)) :
    a.offset + a.format.attributeSize ≤ s.vertexStride :=
  (le_foldl_max _ 0).2 _ (List.mem_map_of_mem ha)

theorem HoldsInputs.attributes_eq {s : Shader} {folded : List ShaderCall} (h : s.HoldsInputs folded)
    {call : ShaderCall} (hc : call ∈ folded) {stage : StageSet} (at_stage : call.identity.stage = stage)
    {m : Module} (reads : call.Reads m) : m.attributes stage .input = .ok (s.inputs stage) := by
  obtain ⟨r, reflects, held⟩ := h.own call hc
  rw [← at_stage, held]
  exact inputs_of_reads reads reflects

theorem HoldsInputs.exists_reads {s : Shader} {folded : List ShaderCall} (h : s.HoldsInputs folded)
    (parses : ∀ call ∈ folded, call.Parses) (stage : StageSet) :
    s.inputs stage = [] ∨ ∃ call ∈ folded, call.identity.stage = stage ∧ ∃ m, call.Reads m := by
  by_cases never : ∀ call ∈ folded, call.identity.stage ≠ stage
  · exact .inl (h.others stage never)
  · push Not at never
    obtain ⟨call, hc, at_stage⟩ := never
    obtain ⟨r, reflects, _⟩ := h.own call hc
    exact .inr ⟨call, hc, at_stage, (parses call hc).exists_reads reflects⟩

/-- The attributes of every module are packed in order.  After binaries were parsed, failures included, no vertex
attribute ends beyond a word by its format, and one with a known format ends within the stride. -/
theorem attributes_packed_within_stride (m : Module) (acyclic : m.Acyclic) (name : String)
    (stages : List StageSet) (history : List ShaderCall) (parses : ∀ call ∈ history, call.Parses) :
    let start := new name stages
    let s := (start.runInPlace history).2
    let arrayed := Direction.input.isArrayed (.of .vertex)
    ((∀ id, m.extent id = m.reckon m.extent id) ∧ (∀ id, m.tally? id = m.reckonTally m.tally? id) ∧
      ∀ stage d, m.AttributesPacked stage d) ∧
    (∀ a ∈ s.inputs (.of .vertex), a.offset + a.format.attributeSize < UInt32.size) ∧
      ∀ call ∈ start.acceptedInPlace history, call.identity.stage = .of .vertex →
        ∃ m, call.Reads m ∧ m.attributes (.of .vertex) .input = .ok (s.inputs (.of .vertex)) ∧
          ∀ (i : Nat) v a, (m.attributeVariables (.of .vertex) .input)[i]? = some v →
            (s.inputs (.of .vertex))[i]? = some a → a.format ≠ .unknown →
              a.offset + (m.span (m.passedType arrayed v)).value ≤ s.vertexStride := by
  intro start s arrayed
  have held := holdsInputs name stages history
  have parsed : ∀ call ∈ start.acceptedInPlace history, call.Parses :=
    fun call hc => parses call (start.acceptedInPlace_subset history hc)
  refine ⟨⟨acyclic.extent_eq, acyclic.tally?_eq, m.attributesPacked⟩, ?_, ?_⟩
  · rcases held.exists_reads parsed (.of .vertex) with none | ⟨call, hc, vertex, m, reads⟩
    · rw [none]
      exact nofun
    · exact (Module.attributes_eq_ok.mp (held.attributes_eq hc vertex reads)).end_lt
  · intro call hc vertex
    obtain ⟨r, reflects, _⟩ := held.own call hc
    obtain ⟨m, reads⟩ := (parsed call hc).exists_reads reflects
    have found := held.attributes_eq hc vertex reads
    refine ⟨m, reads, found, fun i v a hv ha known => ?_⟩
    have packed := Module.attributes_eq_ok.mp found
    obtain ⟨location, _, at_place⟩ := packed.getElem?_eq hv
    obtain rfl := Option.some.inj (at_place.symm.trans ha)
    have size := (m.attributeShape_size (m.passedType arrayed v)).trans
      (Reckoning.toWord?_eq_some.mpr ⟨(packed.hasRoom (by decide)).1 v (List.mem_of_getElem? hv), rfl⟩)
    have whole := (Module.attributeSize_of_shape size).2 known
    rw [← whole]
    exact end_le_vertexStride (List.mem_of_getElem? ha)

/-- A module of which the vertices have a position of three numbers and a place on a plane of two. -/
def meshWords : List UInt32 :=
  [0x07230203, 0x00010000, 0, 12, 0,
    0x00040047, 8, 30, 0,
    0x00040047, 9, 30, 1,
    0x00030016, 1, 32,
    0x00040017, 2, 1, 3,
    0x00040017, 3, 1, 2,
    0x00040020, 4, 1, 2,
    0x00040020, 5, 1, 3,
    0x0004003b, 4, 8, 1,
    0x0004003b, 5, 9, 1]

/-- Parses a binary as the vertex stage of a shader. -/
def meshCall (binary : List UInt32) : ShaderCall :=
  .parse (StageReflection.lightContext 2) ⟨0, .of .vertex⟩ binary

/-- A shader with the vertex stage of a binary. -/
def meshOf (binary : List UInt32) : Shader :=
  ((new "mesh" [.of .vertex]).runInPlace [meshCall binary]).2

private theorem accepted_meshCall {binary : List UInt32} {s : Shader}
    (done : (meshCall binary).on (new "mesh" [.of .vertex]) = .ok s) :
    (new "mesh" [.of .vertex]).acceptedInPlace [meshCall binary] = [meshCall binary] ∧ meshOf binary = s := by
  rw [meshOf, acceptedInPlace_cons_of_ok done, runInPlace_cons_of_ok done]
  exact ⟨rfl, rfl⟩

/-- The sizes of the vertex attributes of a binary, if it is ascending, and the stride of its vertices. -/
private def outlineOf (binary : List UInt32) : Option (Bool × List Nat × Nat) := do
  let m ← (Module.ofWords binary).toOption
  let s ← ((meshCall binary).on (new "mesh" [.of .vertex])).toOption
  pure (m.isAscending, m.spans (Direction.input.isArrayed (.of .vertex))
    (m.attributeVariables (.of .vertex) .input), s.vertexStride)

private theorem outlineOf_eq_some {binary : List UInt32} {ascending : Bool} {spans : List Nat} {stride : Nat}
    (shown : outlineOf binary = some (ascending, spans, stride)) :
    ∃ m, Module.ofWords binary = .ok m ∧ m.isAscending = ascending ∧
      m.spans (Direction.input.isArrayed (.of .vertex)) (m.attributeVariables (.of .vertex) .input) = spans ∧
        (meshOf binary).vertexStride = stride ∧
          meshCall binary ∈ (new "mesh" [.of .vertex]).acceptedInPlace [meshCall binary] := by
  obtain ⟨m, read, shown⟩ := Option.bind_eq_some_iff.mp shown
  obtain ⟨s, done, shown⟩ := Option.bind_eq_some_iff.mp shown
  obtain ⟨rfl, rfl, rfl⟩ : m.isAscending = ascending ∧ _ = spans ∧ s.vertexStride = stride := by
    simpa using Option.some.inj shown
  obtain ⟨accepted, made⟩ := accepted_meshCall (toOption_eq_some.mp done)
  exact ⟨m, toOption_eq_some.mp read, rfl, rfl, by rw [made], by simp [accepted]⟩

private theorem outlineOf_meshWords : outlineOf meshWords = some (true, [12, 8], 20) := by
  decide +kernel

/-- A module of which an input is an array without elements of arrays that fill more than a word; the length of the
outer array is defined by the given operation, as a constant or not. -/
def hollowWords (length : List UInt32) : List UInt32 :=
  [0x07230203, 0x00010000, 0, 9, 0,
    0x00040047, 8, 30, 0,
    0x00030016, 1, 32,
    0x00040015, 2, 32, 0,
    0x0004002b, 2, 3, 0x40000000] ++ length ++
    [0x0004001c, 5, 1, 3,
    0x0004001c, 6, 5, 4,
    0x00040020, 7, 1, 6,
    0x0004003b, 7, 8, 1]

private theorem hollowWords_parsed :
    ∀ length ∈ [[0x0004002b, 2, 4, 0], [0x00040032, 2, 4, 2]],
      ((Module.ofWords (hollowWords length)).map fun m => (m.isAscending,
        m.spans (Direction.input.isArrayed (.of .vertex)) (m.attributeVariables (.of .vertex) .input),
          m.attributes (.of .vertex) .input)) = .ok (true, [0], .error (.attributeTooLarge "_8")) := by
  decide +kernel

/-- Whether a binary has one vertex attribute, which takes no bytes and is refused for its size. -/
def RefusesNothing (binary : List UInt32) (name : String) : Prop :=
  ∃ m, Module.ofWords binary = .ok m ∧ m.Acyclic ∧
    m.spans (Direction.input.isArrayed (.of .vertex)) (m.attributeVariables (.of .vertex) .input) = [0] ∧
      m.attributes (.of .vertex) .input = .error (.attributeTooLarge name)

private theorem refusesNothing_hollowWords :
    ∀ length ∈ [[0x0004002b, 2, 4, 0], [0x00040032, 2, 4, 2]], RefusesNothing (hollowWords length) "_8" := by
  intro length listed
  obtain ⟨m, read, shown⟩ := map_eq_ok.mp (hollowWords_parsed length listed)
  simp only [Prod.mk.injEq] at shown
  obtain ⟨ascending, sizes, refused⟩ := shown
  exact ⟨m, read, Module.acyclic_of_isAscending ascending, sizes, refused⟩

/-- An array without elements, or without a known number of them, is refused for the size of the elements that it does
not have. -/
theorem hollow_array_refused :
    RefusesNothing (hollowWords [0x0004002b, 2, 4, 0]) "_8" ∧
      RefusesNothing (hollowWords [0x00040032, 2, 4, 2]) "_8" := by
  obtain ⟨zero, last⟩ := List.forall_mem_cons.mp refusesNothing_hollowWords
  exact ⟨zero, last _ (List.mem_singleton_self _)⟩

theorem attributes_packed_within_stride_of_meshWords :
    ∃ m, Module.ofWords meshWords = .ok m ∧ m.Acyclic ∧ m.AttributesPacked (.of .vertex) .input ∧
      (meshOf meshWords).vertexStride = 20 ∧
        ∀ a ∈ (meshOf meshWords).inputs (.of .vertex), a.offset + a.format.attributeSize < UInt32.size := by
  obtain ⟨m, read, ascending, _, stride, _⟩ := outlineOf_eq_some outlineOf_meshWords
  have acyclic := Module.acyclic_of_isAscending ascending
  have parses : ∀ call ∈ [meshCall meshWords], call.Parses :=
    List.forall_mem_singleton.mpr trivial
  obtain ⟨⟨_, _, packed⟩, bounded, _⟩ :=
    attributes_packed_within_stride m acyclic "mesh" [.of .vertex] [meshCall meshWords] parses
  exact ⟨m, read, acyclic, packed _ _, stride, bounded⟩

/-- The stride falls short of the size of all vertex attributes by what the format of the last one leaves out. -/
theorem vertexStride_add_unseen (name : String) (stages : List StageSet) (history : List ShaderCall)
    (call : ShaderCall) (folded : call ∈ (new name stages).acceptedInPlace history)
    (vertex : call.identity.stage = .of .vertex) (m : Module) (reads : call.Reads m) :
    let s := ((new name stages).runInPlace history).2
    let arrayed := Direction.input.isArrayed (.of .vertex)
    let vs := m.attributeVariables (.of .vertex) .input
    let total := (m.spans arrayed vs).sum
    m.attributes (.of .vertex) .input = .ok (s.inputs (.of .vertex)) ∧
      s.vertexStride + m.unseen arrayed vs = total ∧
        (s.vertexStride = total ↔ ∀ v, vs.getLast? = some v →
          (m.attributeShape (m.passedType arrayed v)).1 = .unknown →
            (m.span (m.passedType arrayed v)).value = 0) := by
  intro s arrayed vs total
  have found := (holdsInputs name stages history).attributes_eq folded vertex reads
  have packed := Module.attributes_eq_ok.mp found
  have size : s.vertexStride + m.unseen arrayed vs = total := by
    have reached := packed.furthest_add_unseen (fun _ => rfl) (Nat.le_refl 0)
    rwa [Nat.zero_add] at reached
  refine ⟨found, size, ?_⟩
  have short : s.vertexStride = total ↔ m.unseen arrayed vs = 0 := by omega
  rw [short, Module.unseen]
  cases vs.getLast? with
  | none => simp
  | some v => simp

/-- A module of which the vertices have a matrix of sixteen numbers. -/
def matrixWords : List UInt32 :=
  [0x07230203, 0x00010000, 0, 6, 0,
    0x00040047, 5, 30, 0,
    0x00030016, 1, 32,
    0x00040017, 2, 1, 4,
    0x00040018, 3, 2, 4,
    0x00040020, 4, 1, 3,
    0x0004003b, 4, 5, 1]

private theorem outlineOf_matrixWords : outlineOf matrixWords = some (true, [64], 0) := by
  decide +kernel

/-- A matrix takes sixty-four bytes, and the stride of vertices that have nothing else is zero. -/
theorem vertexStride_misses_matrix :
    ∃ m, Module.ofWords matrixWords = .ok m ∧ m.Acyclic ∧
      meshCall matrixWords ∈ (new "mesh" [.of .vertex]).acceptedInPlace [meshCall matrixWords] ∧
        (m.spans (Direction.input.isArrayed (.of .vertex))
          (m.attributeVariables (.of .vertex) .input)).sum = 64 ∧
          (meshOf matrixWords).vertexStride = 0 := by
  obtain ⟨m, read, ascending, sizes, stride, accepted⟩ := outlineOf_eq_some outlineOf_matrixWords
  exact ⟨m, read, Module.acyclic_of_isAscending ascending, accepted, by rw [sizes]; rfl, stride⟩

theorem vertexStride_add_unseen_of_meshWords :
    ∃ m, Module.ofWords meshWords = .ok m ∧
      meshCall meshWords ∈ (new "mesh" [.of .vertex]).acceptedInPlace [meshCall meshWords] ∧
        m.attributes (.of .vertex) .input = .ok ((meshOf meshWords).inputs (.of .vertex)) ∧
          (meshOf meshWords).vertexStride = 20 ∧
            m.unseen (Direction.input.isArrayed (.of .vertex)) (m.attributeVariables (.of .vertex) .input) = 0 := by
  obtain ⟨m, read, _, sizes, stride, accepted⟩ := outlineOf_eq_some outlineOf_meshWords
  obtain ⟨found, total, _⟩ :=
    vertexStride_add_unseen "mesh" [.of .vertex] [meshCall meshWords] (meshCall meshWords) accepted rfl m read
  rw [sizes] at total
  have whole : (meshOf meshWords).vertexStride + m.unseen (Direction.input.isArrayed (.of .vertex))
      (m.attributeVariables (.of .vertex) .input) = 20 := total
  exact ⟨m, read, accepted, found, stride, by omega⟩

end Vertices

end Shader

end ShaderPipeline
