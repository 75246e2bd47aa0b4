import Mathlib.Logic.Relation
import ShaderPipeline.Proofs.Reflection.Sizes

/-!
Where the parts of a block lie.

A part of a block is a type at a place.  Parts hold others: members at their offsets, elements by the stride of their
array, columns by the stride of the matrix, components one behind the other.  Main statement: what has no parts lies
within the size of the type, unless it is in a matrix with a stride that is wider than its columns or in an array with
more elements than a word can count, which the size leaves out.
-/

set_option autoImplicit false
set_option relaxedAutoImplicit false

namespace ShaderPipeline.Spirv

/-- A part of a block, with the stride that its matrices are decorated with. -/
structure Part where
  type : Id
  start : Nat
  matrixStride : Option Nat
  deriving DecidableEq, Repr

namespace Module

variable {m : Module}

section Parts

def constantNumber? (m : Module) (id : Id) : Option Nat :=
  (m.definition? id).bind fun i =>
    match i.op, i.operands with
    | .constant, .literal w :: _ => some w.toNat
    | .constant, .wideLiteral w :: _ => some w.toNat
    | _, _ => none

/-- The stride of matrices that an annotation gives to a member of a structure. -/
def givenMatrixStride? (id : Id) (member : Nat) (i : Instruction) : Option Nat :=
  match i.op, i.operands with
  | .memberDecorate, [.id target, .literal index, .symbol .decoration 7, .literal stride] =>
      if target = id ∧ index.toNat = member then some stride.toNat else none
  | _, _ => none

def matrixStride? (m : Module) (id : Id) (member : Nat) : Option Nat :=
  (m.ofSection .annotations).findSome? (givenMatrixStride? id member)

def scalarBytes? (m : Module) (id : Id) : Option Nat :=
  match m.shape id with
  | .scalar bytes => some bytes
  | _ => none

def vectorBytes? (m : Module) (id : Id) : Option Nat :=
  match m.shape id with
  | .vector component count => (m.scalarBytes? component).map (· * count)
  | _ => none

inductive MemberOf (m : Module) : Part → Part → Prop
  | intro {p : Part} {members : List Id} {index offset : Nat} {member : Id}
      (shape : m.shape p.type = .struct members) (listed : members[index]? = some member)
      (decorated : m.memberDecorationWord? p.type index .offset = some offset) :
      MemberOf m p ⟨member, p.start + offset, m.matrixStride? p.type index⟩

/-- An element of an array that is decorated with a stride. -/
inductive ElementOf (m : Module) (stride : Nat) : Part → Part → Prop
  | intro {p : Part} {element length : Id} {count index : Nat} (shape : m.shape p.type = .array element length)
      (decorated : m.decorationWord? p.type .arrayStride = some stride)
      (counted : m.constantNumber? length = some count) (bound : index < count) :
      ElementOf m stride p ⟨element, p.start + index * stride, p.matrixStride⟩

inductive Holds (m : Module) : Part → Part → Prop
  | member {p q : Part} (member : m.MemberOf p q) : Holds m p q
  | element {p q : Part} {stride : Nat} (element : m.ElementOf stride p q) : Holds m p q
  | column {p : Part} {column : Id} {columns bytes index : Nat} (shape : m.shape p.type = .matrix column columns)
      (tight : m.vectorBytes? column = some bytes) (bound : index < columns) :
      Holds m p ⟨column, p.start + index * p.matrixStride.getD bytes, none⟩
  | component {p : Part} {component : Id} {count bytes index : Nat} (shape : m.shape p.type = .vector component count)
      (scalar : m.scalarBytes? component = some bytes) (bound : index < count) :
      Holds m p ⟨component, p.start + index * bytes, none⟩

/-- The parts that a part holds at any depth, itself among them. -/
abbrev Reaches (m : Module) : Part → Part → Prop :=
  Relation.ReflTransGen m.Holds

/-- Whether the scalars in the elements of each array lie within its stride. -/
def IsRoomy (m : Module) (root : Part) : Prop :=
  ∀ whole part stride, m.Reaches root whole → m.ElementOf stride whole part →
    ∀ leaf bytes, m.Reaches part leaf → m.scalarBytes? leaf.type = some bytes →
      leaf.start + bytes ≤ part.start + stride

/-- Whether the size of a part leaves some of it out: for a stride of its columns, or for a number of elements that
does not fit in a word. -/
inductive Understates (m : Module) (p : Part) : Prop
  | matrix {column : Id} {columns bytes stride : Nat} (shape : m.shape p.type = .matrix column columns)
      (tight : m.vectorBytes? column = some bytes) (decorated : p.matrixStride = some stride)
      (several : 2 ≤ columns) (wide : bytes < stride)
  | array {element length : Id} {count : Nat} (shape : m.shape p.type = .array element length)
      (counted : m.constantNumber? length = some count) (many : UInt32.size ≤ count)

end Parts

section Coverage

theorem shape_of_scalarBytes? {id : Id} {bytes : Nat} (known : m.scalarBytes? id = some bytes) :
    m.shape id = .scalar bytes := by
  unfold scalarBytes? at known
  split at known
  · rename_i shape
    rw [shape, Option.some.inj known]
  · cases known

theorem members?_of_shape {id : Id} {members : List Id} (shape : m.shape id = .struct members) :
    (m.members? id).getD [] = members := by
  unfold Module.shape at shape
  split at shape
  · cases shape
  · split at shape <;> cases shape
    rfl

private theorem shape_of_vectorBytes? {id : Id} {bytes : Nat} (known : m.vectorBytes? id = some bytes) :
    ∃ component count width, m.shape id = .vector component count ∧ m.shape component = .scalar width ∧
      bytes = width * count := by
  unfold vectorBytes? at known
  split at known
  · rename_i component count shape
    obtain ⟨width, scalar, rfl⟩ := Option.map_eq_some_iff.mp known
    exact ⟨component, count, width, shape, shape_of_scalarBytes? scalar, rfl⟩
  · cases known

theorem holds_by_shape {p q : Part} (held : m.Holds p q) :
    match m.shape p.type with
    | .struct _ => m.MemberOf p q
    | .array _ _ => ∃ stride, m.ElementOf stride p q
    | .matrix column columns => ∃ bytes index, m.vectorBytes? column = some bytes ∧ index < columns ∧
        q = ⟨column, p.start + index * p.matrixStride.getD bytes, none⟩
    | .vector component count => ∃ bytes index, m.scalarBytes? component = some bytes ∧ index < count ∧
        q = ⟨component, p.start + index * bytes, none⟩
    | .scalar _ | .other => False := by
  cases held with
  | member member =>
    cases member with
    | intro shape listed decorated =>
      rw [shape]
      exact .intro shape listed decorated
  | element element =>
    cases element with
    | intro shape decorated counted bound =>
      rw [shape]
      exact ⟨_, .intro shape decorated counted bound⟩
  | column shape tight bound =>
    rw [shape]
    exact ⟨_, _, tight, bound, rfl⟩
  | component shape scalar bound =>
    rw [shape]
    exact ⟨_, _, scalar, bound, rfl⟩

theorem eq_of_scalar_reaches {p q : Part} {bytes : Nat} (scalar : m.shape p.type = .scalar bytes)
    (path : m.Reaches p q) : q = p := by
  rcases Relation.ReflTransGen.cases_head path with rfl | ⟨next, held, _⟩
  · rfl
  · have none := holds_by_shape held
    rw [scalar] at none
    exact none.elim

private theorem mul_add_self_le {index count n : Nat} (bound : index < count) : index * n + n ≤ n * count := by
  have room : (index + 1) * n ≤ count * n := Nat.mul_le_mul_right n bound
  rwa [Nat.add_mul, Nat.one_mul, Nat.mul_comm count] at room

private theorem leaf_in_vector {p leaf : Part} {component : Id} {count width bytes : Nat}
    (shape : m.shape p.type = .vector component count) (scalar : m.shape component = .scalar width)
    (path : m.Reaches p leaf) (sized : m.scalarBytes? leaf.type = some bytes) :
    leaf.start + bytes ≤ p.start + width * count := by
  have leafShape := shape_of_scalarBytes? sized
  rcases Relation.ReflTransGen.cases_head path with rfl | ⟨next, held, path⟩
  · simp [shape] at leafShape
  · have components := holds_by_shape held
    rw [shape] at components
    obtain ⟨bytes', index, known, bound, rfl⟩ := components
    have width_eq := shape_of_scalarBytes? known
    obtain rfl := Shape.scalar.inj (scalar.symm.trans width_eq)
    obtain rfl := eq_of_scalar_reaches width_eq path
    obtain rfl := Shape.scalar.inj (scalar.symm.trans leafShape)
    have room := mul_add_self_le (n := width) bound
    show p.start + index * width + width ≤ p.start + width * count
    omega

theorem le_of_membersEnd? {size? : Id → Option Nat} {offset? : Nat → Option Nat} {index reached n : Nat}
    {members : List Id} (ends : membersEnd? size? offset? index reached members = some n) :
    reached ≤ n ∧ ∀ (j : Nat) member offset, members[j]? = some member → offset? (index + j) = some offset →
      ∃ size, size? member = some size ∧ offset + size ≤ n := by
  induction members generalizing index reached with
  | nil =>
    obtain rfl := Option.some.inj ends
    exact ⟨Nat.le_refl _, by simp⟩
  | cons first rest ih =>
    rw [membersEnd?] at ends
    obtain ⟨size, sized, ends⟩ := Option.bind_eq_some_iff.mp ends
    obtain ⟨stop, fits, ends⟩ := Option.bind_eq_some_iff.mp ends
    obtain ⟨_, rfl⟩ := inWord?_eq_some.mp fits
    obtain ⟨grown, later⟩ := ih ends
    refine ⟨by omega, fun j member offset listed decorated => ?_⟩
    cases j with
    | zero =>
      obtain rfl := Option.some.inj listed
      refine ⟨size, sized, ?_⟩
      have own : (offset? index).getD reached = offset := by
        rw [Nat.add_zero] at decorated
        rw [decorated, Option.getD_some]
      omega
    | succ j =>
      refine later j member offset listed ?_
      rwa [Nat.add_assoc, Nat.add_comm 1]

/-- The parts that are members of a part at any depth, itself among them. -/
abbrev IsMemberWithin (m : Module) : Part → Part → Prop :=
  Relation.ReflTransGen m.MemberOf

theorem IsRoomy.of_reaches {p q : Part} (roomy : m.IsRoomy p) (path : m.Reaches p q) : m.IsRoomy q :=
  fun whole part stride below => roomy whole part stride (path.trans below)

private theorem constantWord?_eq_filter (id : Id) :
    m.constantWord? id = (m.constantNumber? id).filter (· < UInt32.size) := by
  rw [constantWord?, constantNumber?]
  cases m.definition? id with
  | none => rfl
  | some i =>
    obtain ⟨op, type, result, operands⟩ := i
    cases op with
    | constant =>
      cases operands with
      | nil => rfl
      | cons o rest =>
        cases o with
        | literal w => simp [Option.filter, w.toNat_lt_size]
        | wideLiteral w => simp [Option.filter]
        | id | text | symbol | mask | operation => rfl
    | _ => rfl

theorem constantWord?_eq_some {id : Id} {n : Nat} :
    m.constantWord? id = some n ↔ m.constantNumber? id = some n ∧ n < UInt32.size := by
  rw [constantWord?_eq_filter, Option.filter_eq_some_iff, decide_eq_true_eq]

private theorem sizeWithin?_of_vectorBytes? {depth : Nat} {id : Id} {bytes n : Nat}
    (known : m.vectorBytes? id = some bytes) (size : m.sizeWithin? depth id = some n) : n = bytes := by
  obtain ⟨component, count, width, vector, scalar, rfl⟩ := shape_of_vectorBytes? known
  cases depth with
  | zero => cases size
  | succ depth =>
    rw [sizeWithin?_succ, vector] at size
    obtain ⟨width', sized, whole⟩ := Option.bind_eq_some_iff.mp size
    obtain ⟨_, rfl⟩ := inWord?_eq_some.mp whole
    cases depth with
    | zero => cases sized
    | succ depth =>
      rw [sizeWithin?_succ, scalar] at sized
      rw [Option.some.inj sized]

private theorem in_size_of_element {depth stride : Nat} {p element : Part} (held : m.ElementOf stride p element) {n stop : Nat}
    (size : m.sizeWithin? (depth + 1) p.type = some n) (inside : stop ≤ element.start + stride) :
    stop ≤ p.start + n ∨ m.Understates p := by
  cases held with
  | @intro element length count index shape decorated counted bound =>
    by_cases many : UInt32.size ≤ count
    · exact .inr (.array shape counted many)
    · have word := constantWord?_eq_some.mpr ⟨counted, by omega⟩
      rw [sizeWithin?_succ, shape] at size
      simp only [decorated, word, Option.some_or, Option.bind_some, Option.getD_some] at size
      obtain ⟨_, rfl⟩ := inWord?_eq_some.mp size
      have room := mul_add_self_le (n := stride) bound
      dsimp only at inside
      exact .inl (by omega)

/-- What lies within a column lies within the size of the matrix, unless the size leaves out what is between the
columns. -/
private theorem in_size_of_column {depth : Nat} {p : Part} {column : Id} {columns bytes index : Nat}
    (shape : m.shape p.type = .matrix column columns) (tight : m.vectorBytes? column = some bytes)
    (bound : index < columns) {n stop : Nat} (size : m.sizeWithin? (depth + 1) p.type = some n)
    (inside : stop ≤ p.start + index * p.matrixStride.getD bytes + bytes) :
    stop ≤ p.start + n ∨ m.Understates p := by
  rw [sizeWithin?_succ, shape] at size
  obtain ⟨size', columnSize, whole⟩ := Option.bind_eq_some_iff.mp size
  obtain ⟨_, rfl⟩ := inWord?_eq_some.mp whole
  obtain rfl := sizeWithin?_of_vectorBytes? tight columnSize
  have room := mul_add_self_le (n := size') bound
  cases decorated : p.matrixStride with
  | none =>
    rw [decorated, Option.getD_none] at inside
    exact .inl (by omega)
  | some stride =>
    rw [decorated, Option.getD_some] at inside
    by_cases wide : size' < stride
    · by_cases several : 2 ≤ columns
      · exact .inr (.matrix shape tight decorated several wide)
      · -- The only column starts where the matrix does.
        obtain rfl : index = 0 := by omega
        exact .inl (by omega)
    · have narrow : index * stride ≤ index * size' := Nat.mul_le_mul_left index (by omega)
      exact .inl (by omega)

/-- Scalars lie within the size of the type that they are reached from, as far as the size leaves nothing out. -/
theorem leaf_in_size {depth : Nat} {p leaf : Part} {n bytes : Nat} (size : m.sizeWithin? depth p.type = some n)
    (roomy : m.IsRoomy p) (path : m.Reaches p leaf) (sized : m.scalarBytes? leaf.type = some bytes) :
    leaf.start + bytes ≤ p.start + n ∨
      ∃ part, m.IsMemberWithin p part ∧ m.Reaches part leaf ∧ m.Understates part := by
  induction depth generalizing p n with
  | zero => cases size
  | succ depth ih =>
    rcases Relation.ReflTransGen.cases_head path with rfl | ⟨next, held, below⟩
    · rw [sizeWithin?_succ, shape_of_scalarBytes? sized] at size
      obtain rfl := Option.some.inj size
      exact .inl (Nat.le_refl _)
    · cases held with
      | member member =>
        have roomy' := roomy.of_reaches (.single (.member member))
        cases member with
        | intro shape listed decorated =>
          rw [sizeWithin?_succ, shape] at size
          obtain ⟨size', sized', stop⟩ := (le_of_membersEnd? size).2 _ _ _ listed (by rwa [Nat.zero_add])
          rcases ih sized' roomy' below with inside | ⟨part, within, reached, understated⟩
          · dsimp only at inside
            exact .inl (by omega)
          · exact .inr ⟨part, within.head (.intro shape listed decorated), reached, understated⟩
      | element element =>
        have inside := roomy p next _ .refl element leaf bytes below sized
        exact (in_size_of_element element size inside).imp_right fun short => ⟨p, .refl, path, short⟩
      | column shape tight bound =>
        obtain ⟨component, count, width, vector, scalar, rfl⟩ := shape_of_vectorBytes? tight
        have inside := leaf_in_vector vector scalar below sized
        exact (in_size_of_column shape tight bound size inside).imp_right fun short => ⟨p, .refl, path, short⟩
      | @component _ count width _ shape scalar bound =>
        have inside := leaf_in_vector shape (shape_of_scalarBytes? scalar) path sized
        have tight : m.vectorBytes? p.type = some (width * count) := by
          rw [vectorBytes?, shape]
          simp only [scalar, Option.map_some]
        obtain rfl := sizeWithin?_of_vectorBytes? tight size
        exact .inl inside

end Coverage

end Module

end ShaderPipeline.Spirv
