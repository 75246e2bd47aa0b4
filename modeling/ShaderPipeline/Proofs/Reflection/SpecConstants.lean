import ShaderPipeline.Proofs.Outcome
import ShaderPipeline.Reflection.Stage

/-!
The specialization constants that a module declares.

A global is one of them if its operation is that of a scalar constant and it has a number.  What it states is its
literal, or one or zero for a truth value; every accepted kind keeps these bits.  A module is refused if a number stands
on a composite, or on a literal of a kind that is not kept.
-/

set_option autoImplicit false
set_option relaxedAutoImplicit false

namespace ShaderPipeline

open Outcome

namespace Spirv

/-- Whether an operation declares a scalar specialization constant. -/
def Op.IsSpecScalar (op : Op) : Prop :=
  op = .specConstantTrue ∨ op = .specConstantFalse ∨ op = .specConstant

namespace Module

/-- The number of a global as a specialization constant, which its own first decoration of this kind gives. -/
def specNumber? (m : Module) (i : Instruction) : Option Nat :=
  i.result.bind (m.decorationWord? · .specId)

/-- Whether a global is a scalar specialization constant with a number. -/
structure Numbers (m : Module) (k : Nat) (i : Instruction) : Prop where
  scalar : i.op.IsSpecScalar
  number : m.specNumber? i = some k

/-- Whether a scalar constant is of a kind and states a value with these bits: its literal with zeros before it, or one
or zero for a truth value. -/
inductive States (m : Module) (i : Instruction) : ScalarKind → UInt64 → Prop
  | yes (op : i.op = .specConstantTrue) : States m i .bool 1
  | no (op : i.op = .specConstantFalse) : States m i .bool 0
  | word {kind : ScalarKind} {w : UInt32} {rest : List Operand} {bits : UInt64}
      (op : i.op = .specConstant) (type : i.type.bind m.scalarKind? = some kind)
      (width : kind ∈ [.int32, .uint32, .float32]) (literal : i.operands = .literal w :: rest)
      (same : bits.toNat = w.toNat) : States m i kind bits
  | wide {kind : ScalarKind} {bits : UInt64} {rest : List Operand}
      (op : i.op = .specConstant) (type : i.type.bind m.scalarKind? = some kind)
      (width : kind ∈ [.int64, .uint64, .float64]) (literal : i.operands = .wideLiteral bits :: rest) :
      States m i kind bits

/-- Whether a global has a number but is a composite, or a literal that is neither an integer nor a floating-point
number of 32 or 64 bits. -/
structure IsUnsupported (m : Module) (i : Instruction) : Prop where
  number : (m.specNumber? i).isSome = true
  shape : i.op = .specConstantComposite ∨
    i.op = .specConstant ∧ ∀ kind, i.type.bind m.scalarKind? = some kind → kind = .bool

/-- Whether a declaration, which is a global of a module, is the first of several with a number. -/
structure IsFirst (k : Nat) (declared : List (Module × Instruction)) (d : Module × Instruction) : Prop where
  numbers : d.1.Numbers k d.2
  first : ∃ earlier later, declared = earlier ++ d :: later ∧ ∀ e ∈ earlier, ¬ e.1.Numbers k e.2

variable {m : Module} {i : Instruction}

private theorem states_of_constantValue? (scalar : i.op.IsSpecScalar) {v : SpecValue}
    (found : m.constantValue? i = some v) : m.States i v.kind v.raw := by
  rw [constantValue?] at found
  rcases scalar with op | op | op <;> simp only [op] at found
  · obtain rfl := Option.some.inj found
    exact .yes op
  · obtain rfl := Option.some.inj found
    exact .no op
  · split at found
    case h_1 | h_2 => contradiction
    case h_9 => cases found
    all_goals
      rename_i type literal _ _
      obtain rfl := Option.some.inj found
    · exact .word op type (by simp [SpecValue.kind]) literal (by simp [SpecValue.raw])
    · exact .word op type (by simp [SpecValue.kind]) literal (by simp [SpecValue.raw])
    · exact .word op type (by simp [SpecValue.kind]) literal (by simp [SpecValue.raw])
    · exact .wide op type (by simp [SpecValue.kind]) (by simpa [SpecValue.raw] using literal)
    · exact .wide op type (by simp [SpecValue.kind]) literal
    · exact .wide op type (by simp [SpecValue.kind]) literal

private theorem constantValue?_eq_none (op : i.op = .specConstant)
    (other : ∀ kind, i.type.bind m.scalarKind? = some kind → kind = .bool) :
    m.constantValue? i = none := by
  simp only [constantValue?, op]
  split
  case h_1 | h_2 => contradiction
  case h_9 => rfl
  all_goals
    rename_i type _ _ _
    exact absurd (other _ type) (by decide)

private theorem constant?_of_unnumbered (number : m.specNumber? i = none) : m.constant? i = .ok none := by
  rw [constant?]
  cases result : i.result with
  | none => rfl
  | some id =>
    have absent : m.decorationWord? id .specId = none := by simpa [specNumber?, result] using number
    simp only [absent]
    rfl

private theorem constant?_of_scalar {k : Nat} (number : m.specNumber? i = some k) (scalar : i.op.IsSpecScalar)
    {found : Option SpecConstant} (done : m.constant? i = .ok found) :
    ∃ c, found = some c ∧ c.id = k ∧ m.constantValue? i = some c.value := by
  obtain ⟨id, result, given⟩ := Option.bind_eq_some_iff.mp number
  cases known : m.constantValue? i with
  | none =>
    have refused : m.constant? i = .error (.constantNotScalar (m.nameOrNumber id)) := by
      rw [constant?]
      rcases scalar with op | op | op <;> simp only [result, given, op, known] <;> rfl
    cases refused.symm.trans done
  | some value =>
    have valued : m.constant? i = .ok (some ⟨k, m.nameOrNumber id, value⟩) := by
      rw [constant?]
      rcases scalar with op | op | op <;> simp only [result, given, op, known] <;> rfl
    exact ⟨⟨k, m.nameOrNumber id, value⟩, Except.ok.inj (done.symm.trans valued), rfl, rfl⟩

private theorem constant?_of_not_scalar {k : Nat} (number : m.specNumber? i = some k)
    (other : ¬ i.op.IsSpecScalar) {found : Option SpecConstant} (done : m.constant? i = .ok found) :
    found = none ∧ i.op ≠ .specConstantComposite := by
  obtain ⟨id, result, given⟩ := Option.bind_eq_some_iff.mp number
  rw [constant?] at done
  simp only [result, given] at done
  split at done
  case h_1 op | h_2 op | h_3 op => exact absurd (by simp [Op.IsSpecScalar, op]) other
  case h_4 => cases done
  case h_5 composite => exact ⟨(Except.ok.inj done).symm, composite⟩

private theorem constant?_eq_ok {found : Option SpecConstant} (done : m.constant? i = .ok found) :
    (∀ c, found = some c → m.Numbers c.id i ∧ m.States i c.value.kind c.value.raw) ∧
      (∀ k, m.Numbers k i → ∃ c, found = some c ∧ c.id = k) ∧ ¬ m.IsUnsupported i := by
  cases number : m.specNumber? i with
  | none =>
    rw [constant?_of_unnumbered number] at done
    obtain rfl := Except.ok.inj done
    refine ⟨nofun, fun k numbers => ?_, fun unsupported => ?_⟩
    · exact absurd (number.symm.trans numbers.number) nofun
    · exact absurd unsupported.number (by simp [number])
  | some k =>
    by_cases scalar : i.op.IsSpecScalar
    · obtain ⟨c, rfl, rfl, value⟩ := constant?_of_scalar number scalar done
      refine ⟨?_, ?_, ?_⟩
      · rintro d same
        obtain rfl := Option.some.inj same
        exact ⟨⟨scalar, number⟩, states_of_constantValue? scalar value⟩
      · rintro k' ⟨_, number'⟩
        exact ⟨c, rfl, Option.some.inj (number.symm.trans number')⟩
      · rintro ⟨_, composite | ⟨op, other⟩⟩
        · exact absurd scalar (by simp [Op.IsSpecScalar, composite])
        · rw [constantValue?_eq_none op other] at value
          cases value
    · obtain ⟨rfl, composite⟩ := constant?_of_not_scalar number scalar done
      refine ⟨nofun, fun k' numbers => absurd numbers.scalar scalar, ?_⟩
      rintro ⟨_, composite' | ⟨op, _⟩⟩
      · exact composite composite'
      · exact scalar (.inr (.inr op))

/-- Of what accepted declarations come to, the constant that is found under a number is that of the first declaration
with this number. -/
theorem find?_declared {declared : List (Module × Instruction)} {found : List (Option SpecConstant)}
    (each : List.Forall₂ (fun d o => d.1.constant? d.2 = .ok o) declared found) (k : Nat) :
    ((found.filterMap id).find? (·.id == k) = none → ∀ d ∈ declared, ¬ d.1.Numbers k d.2) ∧
      ∀ c, (found.filterMap id).find? (·.id == k) = some c →
        ∃ d, IsFirst k declared d ∧ d.1.States d.2 c.value.kind c.value.raw := by
  induction each with
  | nil => exact ⟨by simp, by simp⟩
  | @cons d o declared found first _ ih =>
    obtain ⟨stated, numbered, _⟩ := constant?_eq_ok first
    by_cases own : d.1.Numbers k d.2
    · obtain ⟨c, rfl, rfl⟩ := numbered k own
      have here : ((some c :: found).filterMap id).find? (·.id == c.id) = some c := by simp
      rw [here]
      refine ⟨nofun, fun c' same => ?_⟩
      obtain rfl := Option.some.inj same
      exact ⟨d, ⟨own, [], declared, rfl, by simp⟩, (stated c rfl).2⟩
    · have passed : ((o :: found).filterMap id).find? (·.id == k) =
          (found.filterMap id).find? (·.id == k) := by
        cases o with
        | none => rfl
        | some c =>
          have other : c.id ≠ k := fun same => own (same ▸ (stated c rfl).1)
          simp [other]
      rw [passed]
      refine ⟨fun absent => List.forall_mem_cons.mpr ⟨own, ih.1 absent⟩, fun c held => ?_⟩
      obtain ⟨e, ⟨numbers, earlier, later, split, before⟩, states⟩ := ih.2 c held
      exact ⟨e, ⟨numbers, d :: earlier, later, by rw [split, List.cons_append],
        List.forall_mem_cons.mpr ⟨own, before⟩⟩, states⟩

theorem constants_eq_ok {cs : List SpecConstant} :
    m.constants = .ok cs ↔
      ∃ found, List.Forall₂ (m.constant? · = .ok ·) m.globals found ∧ found.filterMap id = cs := by
  rw [constants, bind_eq_ok]
  simp only [mapM_eq_ok, pure_eq_ok]

theorem not_isUnsupported_of_constants {cs : List SpecConstant} (done : m.constants = .ok cs) :
    ∀ i ∈ m.globals, ¬ m.IsUnsupported i := by
  obtain ⟨found, each, -⟩ := constants_eq_ok.mp done
  clear done
  generalize m.globals = globals at each
  induction each with
  | nil => exact fun i hi => absurd hi List.not_mem_nil
  | cons first _ ih => exact List.forall_mem_cons.mpr ⟨(constant?_eq_ok first).2.2, ih⟩

end Module

end Spirv

end ShaderPipeline
