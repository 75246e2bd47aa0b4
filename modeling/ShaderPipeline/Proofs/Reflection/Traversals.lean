import ShaderPipeline.Proofs.Outcome
import ShaderPipeline.Proofs.Reflection.Sizes

/-!
Traversals of types.

A traversal makes the result for a type from the results for its parts.  It is run here without a bound on its depth:
it comes to a result at a type once it has come to results at all parts.  Main statement: where every type is made of
types that are defined before it, stripping arrays and counting components and bytes come to one result each, which is
that of the same traversal without a bound on numbers, unless a number that comes up there does not fit in a word.
-/

set_option autoImplicit false
set_option relaxedAutoImplicit false

namespace ShaderPipeline.Spirv

namespace Reckoning

/-- Whether a word is what a reckoning comes to, or there is none because a number that comes up does not fit in one. -/
def Gives (r : Reckoning) (word? : Option Nat) : Prop :=
  (∀ n, word? = some n ↔ r.value = n ∧ ∀ k ∈ r.met, k < UInt32.size) ∧
    (word? = none ↔ ∃ k ∈ r.met, UInt32.size ≤ k)

private theorem gives_toWord? (r : Reckoning) : r.Gives r.toWord? := by
  constructor
  · intro n
    rw [toWord?_eq_some, and_comm]
    rfl
  · rw [toWord?_eq_none]
    simp [Fits]

end Reckoning

namespace Module

variable {m : Module}

section Order

/-- Whether ids are defined once, and the types that a type is made of are defined before it. -/
structure DefinesInOrder (m : Module) : Prop where
  once : (m.globals.filterMap (·.result)).Nodup
  before : ∀ (k : Nat) (hk : k < m.globals.length),
    (m.globals[k]).parts ⊆ (m.globals.take k).filterMap (·.result)

private theorem definesInOrder_iff : m.DefinesInOrder ↔ (m.globals.filterMap (·.result)).Nodup ∧
    ∀ (k : Nat) (hk : k < m.globals.length), (m.globals[k]).parts ⊆ (m.globals.take k).filterMap (·.result) :=
  ⟨fun h => ⟨h.once, h.before⟩, fun h => ⟨h.1, h.2⟩⟩

instance : Decidable m.DefinesInOrder :=
  decidable_of_iff _ definesInOrder_iff.symm

private theorem DefinesInOrder.idxOf_lt (h : m.DefinesInOrder) {whole part : Id} (has : m.HasPart whole part) :
    (m.globals.filterMap (·.result)).idxOf part < (m.globals.filterMap (·.result)).idxOf whole := by
  obtain ⟨i, known, listed⟩ := has
  obtain ⟨hi, result⟩ := mem_of_definition? known
  obtain ⟨k, hk, rfl⟩ := List.getElem_of_mem hi
  have earlier := h.before k hk listed
  have split : m.globals = m.globals.take k ++ m.globals[k] :: m.globals.drop (k + 1) := by
    rw [List.getElem_cons_drop, List.take_append_drop]
  have ids : m.globals.filterMap (·.result) =
      (m.globals.take k).filterMap (·.result) ++ whole :: (m.globals.drop (k + 1)).filterMap (·.result) := by
    conv_lhs => rw [split]
    rw [List.filterMap_append, List.filterMap_cons_some result]
  have fresh : whole ∉ (m.globals.take k).filterMap (·.result) := by
    intro known
    have distinct := h.once
    rw [ids] at distinct
    exact (List.nodup_append.mp distinct).2.2 whole known whole List.mem_cons_self rfl
  have place := List.idxOf_lt_length_of_mem earlier
  rw [ids, List.idxOf_append_of_mem earlier, List.idxOf_append_of_notMem fresh, List.idxOf_cons_self]
  omega

theorem DefinesInOrder.acyclic (h : m.DefinesInOrder) : m.Acyclic :=
  acyclic_of_rank (m.globals.filterMap (·.result)).idxOf fun _ _ => h.idxOf_lt

end Order

section Computations

variable {α : Type} {step : (Id → α) → Id → α}

/-- Whether a traversal comes to a result at a type: it makes it from results that it comes to at the parts. -/
inductive Computes (m : Module) (step : (Id → α) → Id → α) : Id → α → Prop
  | ofParts {id : Id} {results : Id → α}
      (parts : ∀ part, m.HasPart id part → Computes m step part (results part)) :
      Computes m step id (step results id)

/-- Whether a traversal ends at a type, with one result only. -/
def EndsWith (m : Module) (step : (Id → α) → Id → α) (id : Id) (result : α) : Prop :=
  ∀ a, m.Computes step id a ↔ a = result

/-- Whether a traversal looks at nothing but the results for the parts of a type. -/
def IsLocal (m : Module) (step : (Id → α) → Id → α) : Prop :=
  ∀ f g id, (∀ part, m.HasPart id part → f part = g part) → step f id = step g id

theorem Computes.unique (within : m.IsLocal step) {id : Id} {a b : α} (ha : m.Computes step id a)
    (hb : m.Computes step id b) : a = b := by
  induction ha generalizing b with
  | @ofParts id results parts ih =>
    cases hb with
    | @ofParts _ results' parts' =>
      apply within
      intro part has
      exact ih part has (parts' part has)

private theorem Acyclic.endsWith (acyclic : m.Acyclic) {within : Nat → Id → α}
    (succ : ∀ depth id, within (depth + 1) id = step (within depth) id) (local' : m.IsLocal step) (id : Id) :
    m.EndsWith step id (within m.typeDepth id) := by
  obtain ⟨height, falls, _⟩ := acyclic.exists_height
  -- The parts of a type are lower than the type, so that the traversal has come to results there.
  have computes : ∀ n id, height id = n → m.Computes step id (within m.typeDepth id) := by
    intro n
    induction n using Nat.strong_induction_on with
    | _ n ih =>
      intro id at_height
      have parts : ∀ part, m.HasPart id part → m.Computes step part (within m.typeDepth part) := by
        intro part has
        have lower := falls id part has
        exact ih (height part) (by omega) part rfl
      rw [acyclic.fixpoint succ local' id]
      exact .ofParts parts
  have own := computes (height id) id rfl
  intro a
  constructor
  · intro other
    exact other.unique local' own
  · rintro rfl
    exact own

end Computations

section Traversals

/-- Strips arrays from a type, given how to strip them from its elements. -/
def stripFrom (m : Module) (strip : Id → Nat → Id × Nat) (id : Id) (count : Nat) : Id × Nat :=
  match m.arrayShape? id with
  | none => (id, count)
  | some (element, length) => strip element (saturated (count * length.getD 0))

/-- The components of a type, given those of its columns if it is a matrix. -/
def componentsFrom? (m : Module) (components? : Id → Option Components) (id : Id) : Option Components :=
  match m.shape id with
  | .matrix column columns => (components? column).bind fun rows =>
      (inWord? (rows.count * columns)).map fun count => ⟨rows.scalar, count, true⟩
  | .vector component count => (m.scalarKind? component).map fun scalar => ⟨scalar, count, false⟩
  | _ => (m.scalarKind? id).map fun scalar => ⟨scalar, 1, false⟩

/-- The size of a type, given those of its parts. -/
def sizeFrom? (m : Module) (size? : Id → Option Nat) (id : Id) : Option Nat :=
  match m.shape id with
  | .scalar bytes => some bytes
  | .vector part count | .matrix part count => (size? part).bind fun size => inWord? (size * count)
  | .array element length =>
      ((m.decorationWord? id .arrayStride).or (size? element)).bind fun stride =>
        inWord? (stride * (m.constantWord? length).getD 0)
  | .struct members => membersEnd? size? (m.memberDecorationWord? id · .offset) 0 0 members
  | .other => some 0

private theorem membersEnd?_congr {size? size?' : Id → Option Nat} (offset? : Nat → Option Nat) (index reached : Nat)
    {members : List Id} (same : ∀ member ∈ members, size? member = size?' member) :
    membersEnd? size? offset? index reached members = membersEnd? size?' offset? index reached members := by
  induction members generalizing index reached with
  | nil => rfl
  | cons member rest ih =>
    obtain ⟨first, same⟩ := List.forall_mem_cons.mp same
    simp only [membersEnd?, first, fun index reached => ih index reached same]

private theorem isLocal_stripFrom : m.IsLocal m.stripFrom := by
  intro f g id same
  funext count
  unfold stripFrom
  cases shape : m.arrayShape? id with
  | none => rfl
  | some found =>
    have element := same found.1 (hasPart_of_arrayShape? shape)
    simp only [element]

private theorem isLocal_componentsFrom? : m.IsLocal m.componentsFrom? := by
  intro f g id same
  unfold componentsFrom?
  cases shape : m.shape id with
  | matrix column columns =>
    have part : m.HasPart id column := hasPart_of_mem_parts (by simp [shape, Shape.parts])
    simp only [same column part]
  | scalar | vector | array | struct | other => rfl

private theorem isLocal_sizeFrom? : m.IsLocal m.sizeFrom? := by
  intro f g id same
  have agree : ∀ part ∈ (m.shape id).parts, f part = g part :=
    fun part listed => same part (hasPart_of_mem_parts listed)
  unfold sizeFrom?
  cases shape : m.shape id with
  | scalar bytes => rfl
  | vector part count | matrix part count | array part length =>
    rw [shape] at agree
    simp only [agree part (List.mem_singleton_self part)]
  | struct members =>
    rw [shape] at agree
    exact membersEnd?_congr _ _ _ agree
  | other => rfl

private theorem Acyclic.stripArrays_ends (acyclic : m.Acyclic) (id : Id) :
    m.EndsWith m.stripFrom id fun count => m.stripArraysWithin m.typeDepth count id := by
  let within : Nat → Id → Nat → Id × Nat := fun depth id count => m.stripArraysWithin depth count id
  have succ : ∀ depth id, within (depth + 1) id = m.stripFrom (within depth) id := by
    intro depth id
    funext count
    exact stripArraysWithin_succ depth count id
  exact acyclic.endsWith succ isLocal_stripFrom id

private theorem Acyclic.components?_ends (acyclic : m.Acyclic) (id : Id) :
    m.EndsWith m.componentsFrom? id (m.components? id) :=
  acyclic.endsWith (fun depth id => componentsWithin?_succ depth id) isLocal_componentsFrom? id

private theorem Acyclic.size?_ends (acyclic : m.Acyclic) (id : Id) : m.EndsWith m.sizeFrom? id (m.size? id) :=
  acyclic.endsWith (fun depth id => sizeWithin?_succ depth id) isLocal_sizeFrom? id

private theorem Acyclic.extent_ends (acyclic : m.Acyclic) (id : Id) : m.EndsWith m.reckon id (m.extent id) :=
  acyclic.endsWith (fun _ _ => rfl) (fun _ _ _ => reckon_congr) id

private theorem Acyclic.tally?_ends (acyclic : m.Acyclic) (id : Id) : m.EndsWith m.reckonTally id (m.tally? id) :=
  acyclic.endsWith (fun _ _ => rfl) (fun _ _ _ => reckonTally_congr) id

private theorem components?_of_tally? {type : Id} {t : Tally} (tallied : m.tally? type = some t) :
    t.count.Gives ((m.components? type).map (·.count)) ∧
      ∀ c ∈ m.components? type, c.scalar = t.scalar ∧ c.isMatrix = t.isMatrix := by
  have known : m.components? type = t.count.toWord?.map fun count => ⟨t.scalar, count, t.isMatrix⟩ := by
    rw [components?_eq, tallied]
    rfl
  rw [known]
  constructor
  · rw [Option.map_map]
    have counts : (·.count) ∘ (fun count => (⟨t.scalar, count, t.isMatrix⟩ : Components)) = id := rfl
    rw [counts, Option.map_id]
    exact t.count.gives_toWord?
  · intro c hc
    obtain ⟨_, _, rfl⟩ := Option.map_eq_some_iff.mp hc
    exact ⟨rfl, rfl⟩

/-- Traversals end at every type, each with one result.  The number of components and the size of a type are those of
the same traversals without a bound on numbers, if all numbers that come up there fit in words; otherwise there are
none.  What comes up are sizes and numbers of parts times their number, strides times a number of elements, and offsets
of members plus their sizes.  Either way an array has no elements if its length is no constant that fits in a word. -/
theorem traversals_end_without_wrapping (ordered : m.DefinesInOrder) (id : Id) :
    (∃ strip, m.EndsWith m.stripFrom id strip ∧ m.stripArrays id = strip 1) ∧
      (m.EndsWith m.componentsFrom? id (m.components? id) ∧
        ∃ tally, m.EndsWith m.reckonTally id tally ∧ (tally = none → m.components? id = none) ∧
          ∀ t, tally = some t → t.count.Gives ((m.components? id).map (·.count)) ∧
            ∀ c ∈ m.components? id, c.scalar = t.scalar ∧ c.isMatrix = t.isMatrix) ∧
      m.EndsWith m.sizeFrom? id (m.size? id) ∧
        ∃ extent, m.EndsWith m.reckon id extent ∧ extent.Gives (m.size? id) := by
  have acyclic := ordered.acyclic
  refine ⟨⟨_, acyclic.stripArrays_ends id, rfl⟩, ⟨acyclic.components?_ends id, ?_⟩, acyclic.size?_ends id, ?_⟩
  · refine ⟨m.tally? id, acyclic.tally?_ends id, ?_, fun t => components?_of_tally?⟩
    intro untallied
    rw [components?_eq, untallied]
    rfl
  · refine ⟨m.extent id, acyclic.extent_ends id, ?_⟩
    rw [size?_eq]
    exact (m.extent id).gives_toWord?

/-- A module with a structure 7 of a vector and a matrix, and an array 6 of too many matrices. -/
def crateWords : List UInt32 :=
  [0x07230203, 0x00010000, 0, 8, 0,
    0x00030016, 1, 32,
    0x00040017, 2, 1, 3,
    0x00040018, 3, 2, 3,
    0x00040015, 4, 32, 0,
    0x0004002b, 4, 5, 0x40000000,
    0x0004001c, 6, 3, 5,
    0x0004001e, 7, 2, 3]

private theorem crateWords_sizes :
    (ofWords crateWords).map (fun m => (decide m.DefinesInOrder, m.size? 7, m.size? 6, m.components? 3)) =
      .ok (true, some 48, none, some ⟨.float32, 9, true⟩) := by
  decide +kernel

/-- The structure takes 48 bytes, and the number that does not fit is that of the bytes of all matrices. -/
theorem traversals_end_without_wrapping_of_crateWords :
    ∃ m, ofWords crateWords = .ok m ∧ m.DefinesInOrder ∧
      (∃ extent, m.EndsWith m.reckon 7 extent ∧ extent.value = 48) ∧
      (∃ extent, m.EndsWith m.reckon 6 extent ∧ ∃ k ∈ extent.met, UInt32.size ≤ k) ∧
      ∃ tally, m.EndsWith m.reckonTally 3 tally ∧ tally ≠ none := by
  obtain ⟨m, read, shown⟩ := Outcome.map_eq_ok.mp crateWords_sizes
  simp only [Prod.mk.injEq, decide_eq_true_eq] at shown
  obtain ⟨ordered, structure', array, matrix⟩ := shown
  obtain ⟨_, _, _, extent, ends, exact'⟩ := traversals_end_without_wrapping ordered 7
  obtain ⟨_, _, _, large, ends', missing⟩ := traversals_end_without_wrapping ordered 6
  obtain ⟨_, ⟨_, tally, ends'', untallied, _⟩, _⟩ := traversals_end_without_wrapping ordered 3
  refine ⟨m, read, ordered, ⟨extent, ends, ?_⟩, ⟨large, ends', missing.2.mp array⟩, tally, ends'', ?_⟩
  · exact ((exact'.1 48).mp structure').1
  · intro none'
    have absent := untallied none'
    rw [matrix] at absent
    cases absent

end Traversals

end Module

end ShaderPipeline.Spirv
