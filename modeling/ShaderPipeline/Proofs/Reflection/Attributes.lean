import ShaderPipeline.Proofs.Outcome
import ShaderPipeline.Proofs.Reflection.Sizes
import ShaderPipeline.Reflection.Stage

/-!
Where the attributes of a stage lie.

Attributes are packed: each starts where the one before it ends.  Main statements: the attributes of a direction are
its variables that have a location and are not built in, in order, if their sizes fit in words one after another;
otherwise the first one that does not fit is what is wrong with the binary.  A format that is known has the size of
its attribute.
-/

set_option autoImplicit false
set_option relaxedAutoImplicit false

namespace ShaderPipeline

open Outcome Spirv

namespace Format

private theorem attributeSize_ofComponents {k : ScalarKind} {n : Nat} (known : ofComponents k n ≠ unknown) :
    (ofComponents k n).attributeSize = n * k.byteWidth := by
  unfold ofComponents at *
  split at known <;> first | rfl | exact absurd rfl known

@[simp] theorem attributeSize_unknown : unknown.attributeSize = 0 := rfl

end Format

/-- The two ways in which data passes through a stage. -/
inductive Direction where
  | input
  | output
  deriving DecidableEq, Repr

namespace Direction

def storage : Direction → StorageClass
  | input => .input
  | output => .output

/-- Whether the variables of a stage are arrays with one element for each vertex. -/
def isArrayed (stage : StageSet) : Direction → Bool
  | input => stage.hasArrayedInputs
  | output => stage.hasArrayedOutputs

end Direction

namespace Spirv.Module

variable {m : Module}

section Shapes

/-- How many bytes an attribute of a type takes. -/
def span (m : Module) (type : Id) : Reckoning :=
  match m.tally? type with
  | some t => t.count.times t.scalar.byteWidth
  | none => m.extent type

theorem attributeShape_size (type : Id) : (m.attributeShape type).2 = (m.span type).toWord? := by
  unfold attributeShape span
  rw [components?_eq]
  cases tallied : m.tally? type with
  | none => exact size?_eq type
  | some t =>
    rw [Reckoning.toWord?_times]
    cases counted : t.count.toWord? with
    | none =>
      -- A number of components that does not fit leaves the size, which does not fit either.
      have unfit : ¬ (m.extent type).Fits := by
        intro fits
        obtain ⟨count, _⟩ := extentWithin_of_tallyWithin? tallied fits
        exact Reckoning.toWord?_eq_none.mp counted count
      simp only [Option.bind_some, Tally.toComponents?, counted, Option.map_none, Option.bind_none, size?_eq,
        Reckoning.toWord?_eq_none.mpr unfit]
    | some count =>
      simp only [Option.bind_some, Tally.toComponents?, counted, Option.map_some]

theorem attributeSize_of_shape {type : Id} {size : Nat} (sized : (m.attributeShape type).2 = some size) :
    (m.attributeShape type).1.attributeSize ≤ size ∧
      ((m.attributeShape type).1 ≠ .unknown → (m.attributeShape type).1.attributeSize = size) := by
  unfold attributeShape at *
  cases components : m.components? type with
  | none => simp
  | some c =>
    rw [components] at sized
    obtain ⟨_, rfl⟩ := inWord?_eq_some.mp sized
    dsimp only
    cases c.isMatrix with
    | true => simp
    | false =>
      by_cases known : Format.ofComponents c.scalar c.count = .unknown
      · simp [known]
      · simp [Format.attributeSize_ofComponents known]

end Shapes

section Packing

/-- Whether a variable, or a member of its type, is built into the pipeline. -/
def IsBuiltIn (m : Module) (id type : Id) : Prop :=
  m.isDecorated id .builtIn = true ∨
    ∃ members, m.members? type = some members ∧
      ∃ k < members.length, m.isMemberDecorated type k .builtIn = true

private theorem isBuiltIn_iff {id type : Id} : m.isBuiltIn id type = true ↔ m.IsBuiltIn id type := by
  unfold isBuiltIn IsBuiltIn
  cases m.members? type <;> simp

instance (id type : Id) : Decidable (m.IsBuiltIn id type) :=
  decidable_of_iff _ isBuiltIn_iff

/-- The type of the data that passes through a variable. -/
def passedType (m : Module) (isArrayed : Bool) (v : Variable) : Id :=
  if isArrayed then m.elementType v.target else v.target

def IsAttribute (m : Module) (isArrayed : Bool) (v : Variable) : Prop :=
  ¬ m.IsBuiltIn v.id (m.passedType isArrayed v) ∧ (m.decorationWord? v.id .location).isSome = true

instance (isArrayed : Bool) : DecidablePred (m.IsAttribute isArrayed) := fun v =>
  inferInstanceAs (Decidable (¬ m.IsBuiltIn v.id (m.passedType isArrayed v) ∧
    (m.decorationWord? v.id .location).isSome = true))

def attributeAt (m : Module) (isArrayed : Bool) (v : Variable) (location offset : Nat) : Attribute :=
  let type := m.passedType isArrayed v
  ⟨m.variableName v.id type, location, offset, (m.attributeShape type).1⟩

/-- Whether attributes are those of some variables, one behind the other from an offset on. -/
inductive Packs (m : Module) (isArrayed : Bool) : Nat → List Variable → List Attribute → Prop
  | nil {offset : Nat} : Packs m isArrayed offset [] []
  | cons {offset location : Nat} {v : Variable} {rest : List Variable} {attributes : List Attribute}
      (located : m.decorationWord? v.id .location = some location)
      (fits : (m.span (m.passedType isArrayed v)).Fits)
      (room : offset + (m.span (m.passedType isArrayed v)).value < UInt32.size)
      (later : Packs m isArrayed (offset + (m.span (m.passedType isArrayed v)).value) rest attributes) :
      Packs m isArrayed offset (v :: rest) (m.attributeAt isArrayed v location offset :: attributes)

variable {isArrayed : Bool}

private theorem attributesFrom_cons_of_not {v : Variable} (other : ¬ m.IsAttribute isArrayed v) (offset : Nat)
    (rest : List Variable) :
    m.attributesFrom isArrayed offset (v :: rest) = m.attributesFrom isArrayed offset rest := by
  rw [attributesFrom]
  by_cases built : m.IsBuiltIn v.id (m.passedType isArrayed v)
  · have marked := isBuiltIn_iff.mpr built
    rw [passedType] at marked
    simp only [marked]
  · cases located : m.decorationWord? v.id .location with
    | none =>
      dsimp only
      split <;> first | rfl | simp_all
    | some location => exact absurd ⟨built, by simp [located]⟩ other

private theorem attributesFrom_cons {v : Variable} (built : ¬ m.IsBuiltIn v.id (m.passedType isArrayed v)) {location : Nat}
    (located : m.decorationWord? v.id .location = some location) (offset : Nat) (rest : List Variable) :
    m.attributesFrom isArrayed offset (v :: rest) =
      if (m.span (m.passedType isArrayed v)).Fits ∧
          offset + (m.span (m.passedType isArrayed v)).value < UInt32.size then
        (m.attributesFrom isArrayed (offset + (m.span (m.passedType isArrayed v)).value) rest).map
          (m.attributeAt isArrayed v location offset :: ·)
      else .error (.attributeTooLarge (m.variableName v.id (m.passedType isArrayed v))) := by
  have unmarked : m.isBuiltIn v.id (m.passedType isArrayed v) = false := by
    rw [← Bool.not_eq_true, isBuiltIn_iff]
    exact built
  have size := m.attributeShape_size (m.passedType isArrayed v)
  rw [attributesFrom]
  unfold attributeAt
  generalize opened : m.passedType isArrayed v = type at *
  rw [passedType] at opened
  simp only [opened, unmarked, located, size]
  by_cases fits : (m.span type).Fits
  · by_cases room : offset + (m.span type).value < UInt32.size
    · simp only [Reckoning.toWord?, fits, room, inWord?, if_true, Option.bind_some, and_self]
      cases m.attributesFrom isArrayed (offset + (m.span type).value) rest <;> rfl
    · simp only [Reckoning.toWord?, fits, room, inWord?, if_true, if_false, Option.bind_some, and_false]
      rfl
  · simp only [Reckoning.toWord?, fits, if_false, Option.bind_none, false_and]
    rfl

private theorem attributesFrom_eq_ok {offset : Nat} {vs : List Variable} {attributes : List Attribute} :
    m.attributesFrom isArrayed offset vs = .ok attributes ↔
      m.Packs isArrayed offset (vs.filter (m.IsAttribute isArrayed)) attributes := by
  induction vs generalizing offset attributes with
  | nil =>
    rw [attributesFrom, List.filter_nil]
    constructor
    · intro done
      obtain rfl := Except.ok.inj done
      exact .nil
    · rintro ⟨⟩
      rfl
  | cons v rest ih =>
    by_cases listed : m.IsAttribute isArrayed v
    · obtain ⟨built, known⟩ := listed
      obtain ⟨location, located⟩ := Option.isSome_iff_exists.mp known
      rw [attributesFrom_cons built located, List.filter_cons_of_pos (by simpa using ⟨built, known⟩)]
      constructor
      · intro done
        split at done
        · rename_i room
          obtain ⟨later, packed, rfl⟩ := map_eq_ok.mp done
          exact .cons located room.1 room.2 (ih.mp packed)
        · cases done
      · intro packed
        cases packed with
        | cons located' fits room later =>
          obtain rfl := Option.some.inj (located.symm.trans located')
          rw [if_pos ⟨fits, room⟩, ih.mpr later]
          rfl
    · rw [attributesFrom_cons_of_not listed, List.filter_cons_of_neg (by simpa using listed), ih]

def spans (m : Module) (isArrayed : Bool) (vs : List Variable) : List Nat :=
  vs.map fun v => (m.span (m.passedType isArrayed v)).value

/-- Whether there is room for some variables as attributes from an offset on. -/
def HasRoom (m : Module) (isArrayed : Bool) (offset : Nat) (vs : List Variable) : Prop :=
  (∀ v ∈ vs, (m.span (m.passedType isArrayed v)).Fits) ∧
    ∀ n, offset + ((m.spans isArrayed vs).take n).sum < UInt32.size

private theorem hasRoom_nil {offset : Nat} : m.HasRoom isArrayed offset [] ↔ offset < UInt32.size := by
  simp [HasRoom, spans]

private theorem hasRoom_cons {offset : Nat} {v : Variable} {rest : List Variable} :
    m.HasRoom isArrayed offset (v :: rest) ↔
      offset < UInt32.size ∧ (m.span (m.passedType isArrayed v)).Fits ∧
        m.HasRoom isArrayed (offset + (m.span (m.passedType isArrayed v)).value) rest := by
  unfold HasRoom
  rw [List.forall_mem_cons]
  constructor
  · rintro ⟨⟨fits, others⟩, sums⟩
    refine ⟨sums 0, fits, others, fun n => ?_⟩
    have sum := sums (n + 1)
    simp only [spans, List.map_cons, List.take_succ_cons, List.sum_cons] at sum
    rwa [Nat.add_assoc]
  · rintro ⟨start, fits, others, sums⟩
    refine ⟨⟨fits, others⟩, fun n => ?_⟩
    cases n with
    | zero => exact start
    | succ n =>
      have sum := sums n
      simp only [spans, List.map_cons, List.take_succ_cons, List.sum_cons]
      rwa [← Nat.add_assoc]

theorem HasRoom.of_append {offset : Nat} {vs more : List Variable}
    (room : m.HasRoom isArrayed offset (vs ++ more)) : m.HasRoom isArrayed offset vs := by
  induction vs generalizing offset with
  | nil => exact hasRoom_nil.mpr (room.2 0)
  | cons v rest ih =>
    obtain ⟨start, fits, later⟩ := hasRoom_cons.mp room
    exact hasRoom_cons.mpr ⟨start, fits, ih later⟩

theorem Packs.hasRoom {offset : Nat} (start : offset < UInt32.size) {vs : List Variable} {attributes : List Attribute}
    (packed : m.Packs isArrayed offset vs attributes) : m.HasRoom isArrayed offset vs := by
  induction packed with
  | nil => exact hasRoom_nil.mpr start
  | cons located fits room _ ih => exact hasRoom_cons.mpr ⟨start, fits, ih room⟩

private theorem attributesFrom_eq_error {offset : Nat} (start : offset < UInt32.size) {vs : List Variable}
    {e : ReflectError} (failed : m.attributesFrom isArrayed offset vs = .error e) :
    ∃ before v after, vs.filter (m.IsAttribute isArrayed) = before ++ v :: after ∧
      m.HasRoom isArrayed offset before ∧ ¬ m.HasRoom isArrayed offset (before ++ [v]) ∧
        e = .attributeTooLarge (m.variableName v.id (m.passedType isArrayed v)) := by
  induction vs generalizing offset with
  | nil => cases failed
  | cons v rest ih =>
    by_cases listed : m.IsAttribute isArrayed v
    · obtain ⟨built, known⟩ := listed
      obtain ⟨location, located⟩ := Option.isSome_iff_exists.mp known
      rw [attributesFrom_cons built located] at failed
      rw [List.filter_cons_of_pos (by simpa using ⟨built, known⟩)]
      split at failed
      · rename_i room
        have later : m.attributesFrom isArrayed (offset + (m.span (m.passedType isArrayed v)).value) rest =
            .error e := by
          cases run : m.attributesFrom isArrayed (offset + (m.span (m.passedType isArrayed v)).value) rest with
          | ok found => simp [run, Except.map] at failed
          | error e' => simpa [run, Except.map] using failed
        obtain ⟨before, w, after, split, fits, full, rfl⟩ := ih room.2 later
        refine ⟨v :: before, w, after, ?_, hasRoom_cons.mpr ⟨start, room.1, fits⟩, ?_, rfl⟩
        · rw [split, List.cons_append]
        · intro all
          obtain ⟨_, _, rest⟩ := hasRoom_cons.mp all
          exact full rest
      · rename_i full
        obtain rfl := Except.error.inj failed
        refine ⟨[], v, _, rfl, hasRoom_nil.mpr start, ?_, rfl⟩
        intro all
        obtain ⟨_, fits, next⟩ := hasRoom_cons.mp all
        exact full ⟨fits, hasRoom_nil.mp next⟩
    · rw [attributesFrom_cons_of_not listed] at failed
      rw [List.filter_cons_of_neg (by simpa using listed)]
      exact ih start failed

theorem Packs.getElem?_eq {offset : Nat} {vs : List Variable} {attributes : List Attribute}
    (packed : m.Packs isArrayed offset vs attributes) {i : Nat} {v : Variable} (hv : vs[i]? = some v) :
    ∃ location, m.decorationWord? v.id .location = some location ∧
      attributes[i]? =
        some (m.attributeAt isArrayed v location (offset + ((m.spans isArrayed vs).take i).sum)) := by
  induction packed generalizing i with
  | nil => simp at hv
  | @cons offset location w rest attributes located _ _ _ ih =>
    cases i with
    | zero =>
      obtain rfl := Option.some.inj hv
      exact ⟨location, located, rfl⟩
    | succ i =>
      obtain ⟨location', located', found⟩ := ih hv
      refine ⟨location', located', ?_⟩
      rw [List.getElem?_cons_succ, found]
      simp only [spans, List.map_cons, List.take_succ_cons, List.sum_cons, Nat.add_assoc]

/-- What the format of the last of some variables leaves out of its size. -/
def unseen (m : Module) (isArrayed : Bool) (vs : List Variable) : Nat :=
  match vs.getLast? with
  | none => 0
  | some v =>
      let type := m.passedType isArrayed v
      if (m.attributeShape type).1 = .unknown then (m.span type).value else 0

private theorem attributeSize_add_unseen {v : Variable} (fits : (m.span (m.passedType isArrayed v)).Fits) :
    (m.attributeShape (m.passedType isArrayed v)).1.attributeSize + m.unseen isArrayed [v] =
      (m.span (m.passedType isArrayed v)).value := by
  have sized := (m.attributeShape_size (m.passedType isArrayed v)).trans
    (Reckoning.toWord?_eq_some.mpr ⟨fits, rfl⟩)
  obtain ⟨_, exact⟩ := attributeSize_of_shape sized
  by_cases known : (m.attributeShape (m.passedType isArrayed v)).1 = .unknown
  · simp [unseen, known]
  · simp [unseen, known, exact known]

theorem Packs.end_lt {offset : Nat} {vs : List Variable} {attributes : List Attribute}
    (packed : m.Packs isArrayed offset vs attributes) :
    ∀ a ∈ attributes, a.offset + a.format.attributeSize < UInt32.size := by
  induction packed with
  | nil => nofun
  | @cons offset location v rest attributes located fits room _ ih =>
    refine List.forall_mem_cons.mpr ⟨?_, ih⟩
    have size := attributeSize_add_unseen fits
    show offset + (m.attributeShape (m.passedType isArrayed v)).1.attributeSize < UInt32.size
    omega

/-- The furthest end of packed attributes, by their formats, with what the last format leaves out is where one more
attribute would start. -/
theorem Packs.furthest_add_unseen {offset reached : Nat} {vs : List Variable} {attributes : List Attribute}
    (packed : m.Packs isArrayed offset vs attributes) (start : vs = [] → reached = offset)
    (before : reached ≤ offset) :
    (attributes.map fun a => a.offset + a.format.attributeSize).foldl max reached + m.unseen isArrayed vs =
      offset + (m.spans isArrayed vs).sum := by
  induction packed generalizing reached with
  | nil =>
    obtain rfl := start rfl
    rfl
  | @cons offset location v rest attributes located fits room later ih =>
    have size := attributeSize_add_unseen fits
    have stop : (m.attributeAt isArrayed v location offset).offset +
        (m.attributeAt isArrayed v location offset).format.attributeSize =
          offset + (m.attributeShape (m.passedType isArrayed v)).1.attributeSize := rfl
    rw [List.map_cons, List.foldl_cons, stop]
    cases later with
    | nil =>
      simp only [List.map_nil, List.foldl_nil, spans, List.map_cons, List.sum_cons, List.sum_nil]
      omega
    | cons located' fits' room' later' =>
      have onward := @ih (max reached (offset + (m.attributeShape (m.passedType isArrayed v)).1.attributeSize))
        nofun (by omega)
      rw [unseen, List.getLast?_cons_cons]
      simp only [spans, List.map_cons, List.sum_cons, unseen] at onward ⊢
      omega

theorem Packs.length_eq {offset : Nat} {vs : List Variable} {attributes : List Attribute}
    (packed : m.Packs isArrayed offset vs attributes) : attributes.length = vs.length := by
  induction packed with
  | nil => rfl
  | cons _ _ _ _ ih => rw [List.length_cons, List.length_cons, ih]

end Packing

section Directions

def attributes (m : Module) (stage : StageSet) : Direction → Except ReflectError (List Attribute)
  | .input => m.inputs stage
  | .output => m.outputs stage

/-- The variables of a stage that are attributes in a direction, in order of declaration. -/
def attributeVariables (m : Module) (stage : StageSet) (d : Direction) : List Variable :=
  m.globalVariables.filter fun v => v.storage = d.storage ∧ m.IsAttribute (d.isArrayed stage) v

theorem attributes_eq (stage : StageSet) (d : Direction) :
    m.attributes stage d =
      m.attributesFrom (d.isArrayed stage) 0 (m.globalVariables.filter (·.storage = d.storage)) := by
  cases d <;> rfl

private theorem filter_isAttribute (stage : StageSet) (d : Direction) :
    (m.globalVariables.filter (·.storage = d.storage)).filter (m.IsAttribute (d.isArrayed stage)) =
      m.attributeVariables stage d := by
  rw [List.filter_filter, attributeVariables]
  apply List.filter_congr
  intro v _
  rw [Bool.decide_and, Bool.and_comm]

/-- What is known of the attributes of a stage in a direction. -/
structure AttributesPacked (m : Module) (stage : StageSet) (d : Direction) : Prop where
  listed : ∀ v, v ∈ m.attributeVariables stage d ↔ v ∈ m.globalVariables ∧ v.storage = d.storage ∧
    ¬ m.IsBuiltIn v.id (m.passedType (d.isArrayed stage) v) ∧
      ∃ location, m.decorationWord? v.id .location = some location
  inOrder : (m.attributeVariables stage d).Sublist m.globalVariables
  accepted : (∃ found, m.attributes stage d = .ok found) ↔
    m.HasRoom (d.isArrayed stage) 0 (m.attributeVariables stage d)
  /-- Each attribute starts behind the sizes of all attributes before it. -/
  packed : ∀ found, m.attributes stage d = .ok found →
    found.length = (m.attributeVariables stage d).length ∧
      ∀ (i : Nat) v, (m.attributeVariables stage d)[i]? = some v →
        ∃ location, m.decorationWord? v.id .location = some location ∧
          found[i]? = some (m.attributeAt (d.isArrayed stage) v location
            ((m.spans (d.isArrayed stage) (m.attributeVariables stage d)).take i).sum)
  /-- The first attribute that there is no room for is what is wrong. -/
  refused : ∀ e, m.attributes stage d = .error e → e.kind = .invalidBinary ∧
    ∃ before v after, m.attributeVariables stage d = before ++ v :: after ∧
      m.HasRoom (d.isArrayed stage) 0 before ∧ ¬ m.HasRoom (d.isArrayed stage) 0 (before ++ [v]) ∧
        e = .attributeTooLarge (m.variableName v.id (m.passedType (d.isArrayed stage) v))

theorem attributes_eq_ok {stage : StageSet} {d : Direction} {found : List Attribute} :
    m.attributes stage d = .ok found ↔
      m.Packs (d.isArrayed stage) 0 (m.attributeVariables stage d) found := by
  rw [attributes_eq, attributesFrom_eq_ok, filter_isAttribute]

theorem attributesPacked (m : Module) (stage : StageSet) (d : Direction) : m.AttributesPacked stage d := by
  have start : 0 < UInt32.size := by decide
  have refused : ∀ e, m.attributes stage d = .error e →
      ∃ before v after, m.attributeVariables stage d = before ++ v :: after ∧
        m.HasRoom (d.isArrayed stage) 0 before ∧ ¬ m.HasRoom (d.isArrayed stage) 0 (before ++ [v]) ∧
          e = .attributeTooLarge (m.variableName v.id (m.passedType (d.isArrayed stage) v)) := by
    intro e failed
    rw [attributes_eq] at failed
    have first := attributesFrom_eq_error start failed
    rwa [filter_isAttribute] at first
  refine ⟨?_, List.filter_sublist, ⟨?_, ?_⟩, ?_, ?_⟩
  · intro v
    rw [attributeVariables, List.mem_filter, decide_eq_true_iff, IsAttribute, Option.isSome_iff_exists]
  · rintro ⟨found, done⟩
    exact (attributes_eq_ok.mp done).hasRoom start
  · intro room
    cases run : m.attributes stage d with
    | ok found => exact ⟨found, rfl⟩
    | error e =>
      obtain ⟨before, v, after, split, _, full, _⟩ := refused e run
      rw [split, List.append_cons] at room
      exact absurd room.of_append full
  · intro found done
    have packed := attributes_eq_ok.mp done
    refine ⟨packed.length_eq, fun i v hv => ?_⟩
    obtain ⟨location, located, at_place⟩ := packed.getElem?_eq hv
    rw [Nat.zero_add] at at_place
    exact ⟨location, located, at_place⟩
  · intro e failed
    obtain ⟨before, v, after, split, room, full, rfl⟩ := refused e failed
    exact ⟨rfl, before, v, after, split, room, full, rfl⟩

end Directions

end Spirv.Module

end ShaderPipeline
