import ShaderPipeline.Proofs.Reflection.Nesting
import ShaderPipeline.Proofs.Shader.PushBlocks

/-!
Sizes and numbers of components, reckoned without a bound.

Every number that comes up on the way is kept beside the result.  Main statements: a size is known if all numbers that
come up fit in words, and it is the result then; so is a number of components; and scalars, vectors and matrices take
as many bytes as their components have together.
-/

set_option autoImplicit false
set_option relaxedAutoImplicit false

namespace ShaderPipeline

private theorem ScalarKind.byteWidth_pos (k : ScalarKind) : 0 < k.byteWidth := by
  cases k <;> decide

namespace Spirv

/-- A number, and the numbers that come up while it is reckoned. -/
structure Reckoning where
  value : Nat
  met : List Nat
  deriving DecidableEq, Repr

namespace Reckoning

/-- Whether all numbers that come up fit in words. -/
def Fits (r : Reckoning) : Prop :=
  ∀ n ∈ r.met, n < UInt32.size

instance (r : Reckoning) : Decidable r.Fits :=
  inferInstanceAs (Decidable (∀ n ∈ r.met, n < UInt32.size))

def toWord? (r : Reckoning) : Option Nat :=
  if r.Fits then some r.value else none

def exactly (n : Nat) : Reckoning :=
  ⟨n, []⟩

def next (r : Reckoning) (n : Nat) : Reckoning :=
  ⟨n, r.met ++ [n]⟩

def times (r : Reckoning) (n : Nat) : Reckoning :=
  r.next (r.value * n)

theorem toWord?_eq_some {r : Reckoning} {n : Nat} : r.toWord? = some n ↔ r.Fits ∧ r.value = n := by
  simp [toWord?]

theorem toWord?_eq_none {r : Reckoning} : r.toWord? = none ↔ ¬ r.Fits := by
  simp [toWord?]

@[simp] theorem toWord?_exactly (n : Nat) : (exactly n).toWord? = some n :=
  toWord?_eq_some.mpr ⟨nofun, rfl⟩

private theorem fits_next {r : Reckoning} {n : Nat} : (r.next n).Fits ↔ r.Fits ∧ n < UInt32.size := by
  simp [Fits, next, or_imp, forall_and]

private theorem toWord?_next (r : Reckoning) (n : Nat) :
    (r.next n).toWord? = r.toWord?.bind fun _ => inWord? n := by
  by_cases fits : r.Fits
  · simp only [toWord?, inWord?, fits_next, fits, true_and, if_true, Option.bind_some]
    rfl
  · simp [toWord?, fits_next, fits]

theorem toWord?_times (r : Reckoning) (n : Nat) :
    (r.times n).toWord? = r.toWord?.bind fun value => inWord? (value * n) := by
  rw [times, toWord?_next]
  by_cases fits : r.Fits
  · simp [toWord?, fits]
  · simp [toWord?, fits]

def followedBy (r later : Reckoning) : Reckoning :=
  ⟨later.value, r.met ++ later.met⟩

private theorem fits_followedBy {r later : Reckoning} : (r.followedBy later).Fits ↔ r.Fits ∧ later.Fits := by
  simp [Fits, followedBy, or_imp, forall_and]

private theorem toWord?_followedBy (r later : Reckoning) :
    (r.followedBy later).toWord? = r.toWord?.bind fun _ => later.toWord? := by
  by_cases fits : r.Fits
  · simp only [toWord?, fits_followedBy, fits, true_and, if_true, Option.bind_some]
    rfl
  · simp [toWord?, fits_followedBy, fits]

end Reckoning

namespace Module

variable {m : Module}

section Shapes

/-- What kind of type a type is, with the parts that its values are made of. -/
inductive Shape where
  | scalar (bytes : Nat)
  | vector (component : Id) (count : Nat)
  | matrix (column : Id) (columns : Nat)
  | array (element length : Id)
  | struct (members : List Id)
  | other
  deriving DecidableEq, Repr

def shape (m : Module) (id : Id) : Shape :=
  match m.definition? id with
  | none => .other
  | some i =>
      match i.op, i.operands with
      | .typeBool, _ => .scalar 4
      | .typeInt, .literal width :: _ | .typeFloat, .literal width :: _ => .scalar (width.toNat / 8)
      | .typeVector, [.id component, .literal count] => .vector component count.toNat
      | .typeMatrix, [.id column, .literal columns] => .matrix column columns.toNat
      | .typeArray, [.id element, .id length] => .array element length
      | .typeStruct, _ => .struct ((m.members? id).getD [])
      | _, _ => .other

theorem sizeWithin?_succ (depth : Nat) (id : Id) :
    m.sizeWithin? (depth + 1) id =
      match m.shape id with
      | .scalar bytes => some bytes
      | .vector part count | .matrix part count =>
          (m.sizeWithin? depth part).bind fun size => inWord? (size * count)
      | .array element length =>
          ((m.decorationWord? id .arrayStride).or (m.sizeWithin? depth element)).bind fun stride =>
            inWord? (stride * (m.constantWord? length).getD 0)
      | .struct members =>
          membersEnd? (m.sizeWithin? depth) (m.memberDecorationWord? id · .offset) 0 0 members
      | .other => some 0 := by
  rw [sizeWithin?, shape]
  cases m.definition? id with
  | none => rfl
  | some i =>
    obtain ⟨op, type, result, operands⟩ := i
    dsimp only
    split
    · rfl
    · rfl
    · rfl
    · rfl
    · rfl
    · cases m.decorationWord? id .arrayStride <;> rfl
    · rfl
    · -- The operation and operands are none of the above.
      simp only

def Shape.parts : Shape → List Id
  | scalar _ | other => []
  | vector part _ | matrix part _ | array part _ => [part]
  | struct members => members

theorem hasPart_of_mem_parts {id part : Id} (listed : part ∈ (m.shape id).parts) : m.HasPart id part := by
  unfold shape at listed
  cases known : m.definition? id with
  | none => simp [known, Shape.parts] at listed
  | some i =>
    refine ⟨i, known, ?_⟩
    simp only [known] at listed
    split at listed
    · cases listed
    · cases listed
    · cases listed
    · rename_i op operands
      simpa [Shape.parts, Instruction.parts, op, operands] using listed
    · rename_i op operands
      simpa [Shape.parts, Instruction.parts, op, operands] using listed
    · rename_i op operands
      simpa [Shape.parts, Instruction.parts, op, operands] using listed
    · rename_i op
      simp only [members?, known, Option.bind_eq_bind, Option.bind_some, op, Option.getD_some] at listed
      simp only [Instruction.parts, op]
      exact listed
    · cases listed

end Shapes

section Extents

/-- The end of the furthest of some members, with all numbers that come up; a member without an offset starts at the
end so far. -/
def reckonEnd (extent : Id → Reckoning) (offset? : Nat → Option Nat) : Nat → Nat → List Id → Reckoning
  | _, reached, [] => .exactly reached
  | index, reached, member :: rest =>
      let size := extent member
      let stop := (offset? index).getD reached + size.value
      (size.next stop).followedBy (reckonEnd extent offset? (index + 1) (max reached stop) rest)

/-- The extent of a type, given those of its parts.  An array has the stride that it is decorated with, and no
elements if its length is not known. -/
def reckon (m : Module) (extent : Id → Reckoning) (id : Id) : Reckoning :=
  match m.shape id with
  | .scalar bytes => .exactly bytes
  | .vector part count | .matrix part count => (extent part).times count
  | .array element length =>
      let stride := ((m.decorationWord? id .arrayStride).map Reckoning.exactly).getD (extent element)
      stride.times ((m.constantWord? length).getD 0)
  | .struct members => reckonEnd extent (m.memberDecorationWord? id · .offset) 0 0 members
  | .other => .exactly 0

/-- The extent of a type that is nested no deeper than given; deeper ones do not fit. -/
def extentWithin (m : Module) : Nat → Id → Reckoning
  | 0, _ => ⟨0, [UInt32.size]⟩
  | depth + 1, id => m.reckon (m.extentWithin depth) id

def extent (m : Module) (id : Id) : Reckoning :=
  m.extentWithin m.typeDepth id

private theorem toWord?_reckonEnd {size? : Id → Option Nat} {extent : Id → Reckoning}
    (sized : ∀ id, size? id = (extent id).toWord?) (offset? : Nat → Option Nat) (index reached : Nat)
    (members : List Id) :
    membersEnd? size? offset? index reached members =
      (reckonEnd extent offset? index reached members).toWord? := by
  induction members generalizing index reached with
  | nil => exact (Reckoning.toWord?_exactly reached).symm
  | cons member rest ih =>
    rw [membersEnd?, reckonEnd, sized, Reckoning.toWord?_followedBy, Reckoning.toWord?_next]
    cases size : (extent member).toWord? with
    | none => rfl
    | some n =>
      obtain ⟨_, rfl⟩ := Reckoning.toWord?_eq_some.mp size
      cases stop : inWord? ((offset? index).getD reached + (extent member).value) with
      | none => simp [stop]
      | some n =>
        obtain ⟨_, rfl⟩ := inWord?_eq_some.mp stop
        simp only [Option.bind_eq_bind, Option.bind_some, stop, ih]

private theorem sizeWithin?_eq (depth : Nat) (id : Id) :
    m.sizeWithin? depth id = (m.extentWithin depth id).toWord? := by
  induction depth generalizing id with
  | zero => exact (Reckoning.toWord?_eq_none.mpr (by simp [extentWithin, Reckoning.Fits])).symm
  | succ depth ih =>
    rw [sizeWithin?_succ, extentWithin, reckon]
    cases m.shape id with
    | scalar bytes => exact (Reckoning.toWord?_exactly bytes).symm
    | vector part count | matrix part count => rw [Reckoning.toWord?_times, ← ih]
    | array element length =>
      simp only [Reckoning.toWord?_times]
      cases m.decorationWord? id .arrayStride with
      | none => simp only [Option.none_or, Option.map_none, Option.getD_none, ih]
      | some stride =>
        simp only [Option.some_or, Option.map_some, Option.getD_some, Reckoning.toWord?_exactly]
    | struct members => exact toWord?_reckonEnd ih _ _ _ _
    | other => exact (Reckoning.toWord?_exactly 0).symm

theorem size?_eq (id : Id) : m.size? id = (m.extent id).toWord? :=
  sizeWithin?_eq m.typeDepth id

private theorem reckonEnd_congr {extent extent' : Id → Reckoning} (offset? : Nat → Option Nat) (index reached : Nat)
    {members : List Id} (same : ∀ member ∈ members, extent member = extent' member) :
    reckonEnd extent offset? index reached members = reckonEnd extent' offset? index reached members := by
  induction members generalizing index reached with
  | nil => rfl
  | cons member rest ih =>
    obtain ⟨first, same⟩ := List.forall_mem_cons.mp same
    simp only [reckonEnd, first, ih _ _ same]

theorem reckon_congr {extent extent' : Id → Reckoning} {id : Id}
    (same : ∀ part, m.HasPart id part → extent part = extent' part) :
    m.reckon extent id = m.reckon extent' id := by
  have agree : ∀ part ∈ (m.shape id).parts, extent part = extent' part :=
    fun part listed => same part (hasPart_of_mem_parts listed)
  unfold reckon
  cases shape : m.shape id with
  | scalar bytes => rfl
  | vector part count | matrix part count | array part length =>
    rw [shape] at agree
    simp only [agree part (List.mem_singleton_self part)]
  | struct members =>
    rw [shape] at agree
    exact reckonEnd_congr _ _ _ agree
  | other => rfl

theorem Acyclic.extent_eq (acyclic : m.Acyclic) (id : Id) : m.extent id = m.reckon m.extent id :=
  acyclic.fixpoint (fun _ _ => rfl) (fun _ _ _ => reckon_congr) id

end Extents

section Tallies

/-- The kind of the components of a type, and how many there are. -/
structure Tally where
  scalar : ScalarKind
  count : Reckoning
  isMatrix : Bool

def Tally.toComponents? (t : Tally) : Option Components :=
  t.count.toWord?.map fun count => ⟨t.scalar, count, t.isMatrix⟩

/-- The tally of a type, given that of its columns if it is a matrix. -/
def reckonTally (m : Module) (tally? : Id → Option Tally) (id : Id) : Option Tally :=
  match m.shape id with
  | .matrix column columns => (tally? column).map fun rows => ⟨rows.scalar, rows.count.times columns, true⟩
  | .vector component count => (m.scalarKind? component).map fun scalar => ⟨scalar, .exactly count, false⟩
  | _ => (m.scalarKind? id).map fun scalar => ⟨scalar, .exactly 1, false⟩

def tallyWithin? (m : Module) : Nat → Id → Option Tally
  | 0, _ => none
  | depth + 1, id => m.reckonTally (m.tallyWithin? depth) id

/-- The tally of a scalar, vector or matrix type. -/
def tally? (m : Module) (id : Id) : Option Tally :=
  m.tallyWithin? m.typeDepth id

theorem componentsWithin?_succ (depth : Nat) (id : Id) :
    m.componentsWithin? (depth + 1) id =
      match m.shape id with
      | .matrix column columns => (m.componentsWithin? depth column).bind fun rows =>
          (inWord? (rows.count * columns)).map fun count => ⟨rows.scalar, count, true⟩
      | .vector component count => (m.scalarKind? component).map fun scalar => ⟨scalar, count, false⟩
      | _ => (m.scalarKind? id).map fun scalar => ⟨scalar, 1, false⟩ := by
  rw [componentsWithin?, shape]
  cases known : m.definition? id with
  | none => simp [scalarKind?, known]
  | some i =>
    obtain ⟨op, type, result, operands⟩ := i
    simp only [Option.bind_eq_bind, Option.bind_some]
    split
    · rename_i component count
      simp only
      cases m.scalarKind? component <;> rfl
    · rename_i column columns
      simp only
      cases m.componentsWithin? depth column with
      | none => rfl
      | some rows =>
        simp only [Option.bind_some]
        cases inWord? (rows.count * columns.toNat) <;> rfl
    · rename_i vector matrix
      split
      · rename_i column columns found
        split at found <;> cases found
        exact absurd rfl (matrix _ _ rfl)
      · rename_i component count found
        split at found <;> cases found
        exact absurd rfl (vector _ _ rfl)
      · cases m.scalarKind? id <;> rfl

private theorem componentsWithin?_eq (depth : Nat) (id : Id) :
    m.componentsWithin? depth id = (m.tallyWithin? depth id).bind Tally.toComponents? := by
  induction depth generalizing id with
  | zero => rfl
  | succ depth ih =>
    rw [componentsWithin?_succ, tallyWithin?, reckonTally]
    cases m.shape id with
    | matrix column columns =>
      cases tally : m.tallyWithin? depth column with
      | none => simp [ih, tally]
      | some rows =>
        simp only [ih, tally, Option.bind_some, Option.map_some, Tally.toComponents?,
          Reckoning.toWord?_times]
        cases rows.count.toWord? with
        | none => rfl
        | some count => rfl
    | vector component count =>
      simp only
      cases m.scalarKind? component <;> simp [Tally.toComponents?]
    | scalar | array | struct | other =>
      simp only
      cases m.scalarKind? id <;> simp [Tally.toComponents?]

theorem components?_eq (id : Id) : m.components? id = (m.tally? id).bind Tally.toComponents? :=
  componentsWithin?_eq m.typeDepth id

theorem reckonTally_congr {tally? tally?' : Id → Option Tally} {id : Id}
    (same : ∀ part, m.HasPart id part → tally? part = tally?' part) :
    m.reckonTally tally? id = m.reckonTally tally?' id := by
  unfold reckonTally
  cases shape : m.shape id with
  | matrix column columns =>
    have part : m.HasPart id column := hasPart_of_mem_parts (by simp [shape, Shape.parts])
    simp only [same column part]
  | scalar | vector | array | struct | other => rfl

theorem Acyclic.tally?_eq (acyclic : m.Acyclic) (id : Id) : m.tally? id = m.reckonTally m.tally? id :=
  acyclic.fixpoint (fun _ _ => rfl) (fun _ _ _ => reckonTally_congr) id

private theorem shape_of_scalarKind? {id : Id} {scalar : ScalarKind} (known : m.scalarKind? id = some scalar) :
    m.shape id = .scalar scalar.byteWidth := by
  obtain ⟨i, defined, found⟩ := Option.bind_eq_some_iff.mp known
  split at found
  · rename_i op
    obtain rfl := Option.some.inj found
    simp [shape, defined, op, ScalarKind.byteWidth]
  · rename_i width signed op operands
    have bits : width.toNat = scalar.byteWidth * 8 := by
      split at found <;> cases found <;> assumption
    simp [shape, defined, op, operands, bits]
  · rename_i width rest op operands
    have bits : width.toNat = scalar.byteWidth * 8 := by
      split at found <;> cases found <;> assumption
    simp [shape, defined, op, operands, bits]
  · cases found

theorem extentWithin_of_tallyWithin? {depth : Nat} {id : Id} {t : Tally}
    (tallied : m.tallyWithin? depth id = some t) (fits : (m.extentWithin depth id).Fits) :
    t.count.Fits ∧ (m.extentWithin depth id).value = t.count.value * t.scalar.byteWidth := by
  induction depth generalizing id t with
  | zero => cases tallied
  | succ depth ih =>
    rw [tallyWithin?, reckonTally] at tallied
    rw [extentWithin, reckon] at fits ⊢
    cases shape : m.shape id with
    | matrix column columns =>
      simp only [shape] at tallied fits ⊢
      obtain ⟨rows, below, rfl⟩ := Option.map_eq_some_iff.mp tallied
      obtain ⟨inner, whole⟩ := Reckoning.fits_next.mp fits
      obtain ⟨counted, value⟩ := ih below inner
      have total : (m.extentWithin depth column).value * columns =
          rows.count.value * columns * rows.scalar.byteWidth := by
        rw [value, Nat.mul_right_comm]
      refine ⟨Reckoning.fits_next.mpr ⟨counted, ?_⟩, total⟩
      have le := Nat.le_mul_of_pos_right (rows.count.value * columns) rows.scalar.byteWidth_pos
      omega
    | vector component count =>
      simp only [shape] at tallied fits ⊢
      obtain ⟨scalar, kind, rfl⟩ := Option.map_eq_some_iff.mp tallied
      obtain ⟨inner, _⟩ := Reckoning.fits_next.mp fits
      have scalarExtent : m.extentWithin depth component = .exactly scalar.byteWidth := by
        cases depth with
        | zero => exact absurd (inner UInt32.size (List.mem_singleton_self _)) (Nat.lt_irrefl _)
        | succ depth => rw [extentWithin, reckon, shape_of_scalarKind? kind]
      refine ⟨nofun, ?_⟩
      show (m.extentWithin depth component).value * count = count * scalar.byteWidth
      rw [scalarExtent, Nat.mul_comm]
      rfl
    | scalar bytes =>
      simp only [shape] at tallied ⊢
      obtain ⟨scalar, kind, rfl⟩ := Option.map_eq_some_iff.mp tallied
      obtain rfl := Shape.scalar.inj (shape.symm.trans (shape_of_scalarKind? kind))
      exact ⟨nofun, (Nat.one_mul _).symm⟩
    | array | struct | other =>
      simp only [shape] at tallied
      obtain ⟨scalar, kind, _⟩ := Option.map_eq_some_iff.mp tallied
      rw [shape_of_scalarKind? kind] at shape
      cases shape

end Tallies

end Module

end Spirv

end ShaderPipeline
