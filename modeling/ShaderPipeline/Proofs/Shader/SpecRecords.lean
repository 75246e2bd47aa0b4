import ShaderPipeline.Proofs.Reflection.Slots
import ShaderPipeline.Proofs.Reflection.SpecConstants
import ShaderPipeline.Proofs.Shader.Acceptance
import ShaderPipeline.Proofs.Shader.Constants
import ShaderPipeline.Shader.Layout

/-!
The specialization constants of a shader after its stages were parsed.

The declarations of all accepted binaries form one sequence: binary after binary, and global after global in each.  Main
statement: after any parsing, failed calls included, there is one record for each number that is declared, by increasing
number, and it keeps kind and bits of the first declaration with this number.
-/

set_option autoImplicit false
set_option relaxedAutoImplicit false

namespace ShaderPipeline

open Outcome Spirv

namespace Spirv.Module

private theorem constants_of_reflection {m : Module} {c : StageContext} {stage : StageSet}
    {r : StageReflection} (done : m.reflection c stage = .ok r) : m.constants = .ok r.constants :=
  (reflection_eq_ok.mp done).2.2.2.2.2

def decorationGroups (m : Module) (id : Id) : List Id :=
  (m.ofSection .annotations).filterMap fun a =>
    match a.op, a.operands with
    | .groupDecorate, .id group :: targets => if .id id ∈ targets then some group else none
    | _, _ => none

/-- The numbers as a specialization constant that all decorations of a global state, those of its groups included. -/
def statedNumbers (m : Module) (i : Instruction) : List Nat :=
  let own := fun id => (m.ofSection .annotations).filterMap fun a =>
    (givenDecoration? id .specId a).bind firstWord?
  i.result.toList.flatMap fun id => own id ++ (m.decorationGroups id).flatMap own

end Spirv.Module

namespace ShaderCall

def Parses : ShaderCall → Prop
  | parse _ _ _ => True
  | collate _ _ => False

/-- The globals that a call declares, each with the module it stands in. -/
def declared : ShaderCall → List (Module × Instruction)
  | parse _ _ binary =>
      match Module.ofWords binary with
      | .ok m => m.globals.map (m, ·)
      | .error _ => []
  | collate _ _ => []

private theorem constants_of_reflection {call : ShaderCall} (parses : call.Parses) {r : StageReflection}
    (reflects : call.reflection = .ok r) :
    ∃ found, List.Forall₂ (fun d o => d.1.constant? d.2 = .ok o) call.declared found ∧
      found.filterMap id = r.constants := by
  cases call with
  | collate i r' => exact absurd parses id
  | parse c i binary =>
    obtain ⟨m, read, reflected⟩ := StageReflection.ofBinary_eq_ok.mp (mapError_eq_ok.mp reflects)
    obtain ⟨found, each, kept⟩ :=
      Module.constants_eq_ok.mp (Module.constants_of_reflection reflected)
    refine ⟨found, ?_, kept⟩
    simp only [declared, read]
    exact List.forall₂_map_left_iff.mpr each

end ShaderCall

namespace Shader

open ShaderCall

/-- What the tables hold after some binaries were folded in. -/
structure HoldsFirst (s : Shader) (folded : List ShaderCall) : Prop where
  ordered : SpecConstant.Ordered s.constants
  first : ∃ found, List.Forall₂ (fun d o => d.1.constant? d.2 = .ok o) (folded.flatMap declared) found ∧
    ∀ k, s.constants.find? (·.id == k) = (found.filterMap id).find? (·.id == k)

private theorem HoldsFirst.on {s s' : Shader} {folded : List ShaderCall} (h : s.HoldsFirst folded)
    {call : ShaderCall} (parses : call.Parses) (done : call.on s = .ok s') :
    s'.HoldsFirst (folded ++ [call]) := by
  obtain ⟨r, reflects, collated⟩ := on_eq_ok.mp done
  obtain ⟨_, _, blocks, _, rfl⟩ := (@collate_eq_ok s s' (call.identity, r)).mp collated
  obtain ⟨more, each', kept⟩ := constants_of_reflection parses reflects
  obtain ⟨found, each, first⟩ := h.first
  have table : (s.extended (call.identity, r) blocks).constants =
      r.constants.foldl (fun cs c => c.insert cs) s.constants := rfl
  refine ⟨(SpecConstant.insertAll_spec h.ordered r.constants).1, found ++ more, ?_, fun k => ?_⟩
  · rw [List.flatMap_append, List.flatMap_singleton]
    exact List.rel_append each each'
  · rw [table, SpecConstant.find?_insertAll h.ordered, List.find?_append, first, List.filterMap_append,
      List.find?_append, kept]

/-- How the records of a shader stand to the declarations of the binaries that were folded in. -/
structure SpecLayout (s : Shader) (declared : List (Module × Instruction)) : Prop where
  ascending : (s.specRecords.map (·.id)).Pairwise (· < ·)
  /-- There is a record for each number that a scalar constant has. -/
  numbered : ∀ k, (∃ record ∈ s.specRecords, record.id = k) ↔ ∃ d ∈ declared, d.1.Numbers k d.2
  /-- A record has the kind and the bits of the first constant with its number. -/
  first : ∀ record ∈ s.specRecords, ∃ d, Module.IsFirst record.id declared d ∧
    d.1.States d.2 record.kind record.value

private theorem HoldsFirst.specLayout {s : Shader} {folded : List ShaderCall} (h : s.HoldsFirst folded) :
    s.SpecLayout (folded.flatMap declared) := by
  obtain ⟨found, each, first⟩ := h.first
  have declares := Module.find?_declared each
  have held : ∀ c ∈ s.constants, ∃ d, Module.IsFirst c.id (folded.flatMap declared) d ∧
      d.1.States d.2 c.value.kind c.value.raw := by
    intro c hc
    have known : s.constants.find? (·.id == c.id) = some c :=
      (find?_eq_some_of_nodup h.ordered.nodup).mpr ⟨hc, rfl⟩
    exact (declares c.id).2 c ((first c.id).symm.trans known)
  refine ⟨?_, fun k => ⟨?_, ?_⟩, ?_⟩
  · rw [specRecords, List.map_map]
    exact List.pairwise_map.mpr h.ordered
  · rintro ⟨record, hr, rfl⟩
    obtain ⟨c, hc, rfl⟩ := List.mem_map.mp hr
    obtain ⟨d, ⟨numbers, earlier, later, split, _⟩, _⟩ := held c hc
    exact ⟨d, by simp [split], numbers⟩
  · rintro ⟨d, hd, numbers⟩
    cases known : s.constants.find? (·.id == k) with
    | none => exact absurd numbers ((declares k).1 ((first k).symm.trans known) d hd)
    | some c =>
      obtain ⟨hc, same⟩ := (find?_eq_some_of_nodup h.ordered.nodup).mp known
      exact ⟨_, List.mem_map_of_mem hc, same⟩
  · intro record hr
    obtain ⟨c, hc, rfl⟩ := List.mem_map.mp hr
    exact held c hc

/-- After binaries were parsed, in any order and with failures among them, the records list the declared numbers
upwards, each with kind and bits of the first scalar constant that has it.  A binary of which a global has a number but
is a composite, or a literal of a kind that is not kept, is never folded in. -/
theorem parsed_specRecords_keep_first (name : String) (stages : List StageSet)
    (history : List ShaderCall) (parses : ∀ call ∈ history, call.Parses) :
    let start := new name stages
    (start.runInPlace history).2.SpecLayout ((start.acceptedInPlace history).flatMap declared) ∧
      ∀ (s : Shader) c i binary m, Module.ofWords binary = .ok m →
        (∃ g ∈ m.globals, m.IsUnsupported g) → ∀ s', s.parse c i binary ≠ .ok s' := by
  intro start
  have none : start.HoldsFirst [] := ⟨.nil, [], .nil, fun _ => rfl⟩
  have kept : (start.runInPlace history).2.HoldsFirst (start.acceptedInPlace history) :=
    runInPlace_induction (P := HoldsFirst) none fun call hc _ _ _ h done => h.on (parses call hc) done
  refine ⟨kept.specLayout, ?_⟩
  rintro s c i binary m read ⟨g, hg, unsupported⟩ s' done
  obtain ⟨r, reflects, _⟩ := (@on_eq_ok s s' (.parse c i binary)).mp done
  obtain ⟨m', read', reflected⟩ := StageReflection.ofBinary_eq_ok.mp (mapError_eq_ok.mp reflects)
  obtain rfl := Except.ok.inj (read.symm.trans read')
  exact Module.not_isUnsupported_of_constants (Module.constants_of_reflection reflected) g hg unsupported

/-- A module with a number that two constants have, one of which is not a number in its bits. -/
def gustWords : List UInt32 :=
  [0x07230203, 0x00010000, 0, 13, 0,
    0x00040047, 10, 1, 2,
    0x00040047, 11, 1, 1,
    0x00040047, 12, 1, 1,
    0x00030016, 1, 32,
    0x00040015, 2, 64, 1,
    0x00050032, 2, 10, 1, 0xffffffff,
    0x00040032, 1, 11, 0x7fc00001,
    0x00040032, 1, 12, 0x3f800000]

/-- A module with two truth values, of which the first has a number of the gusty module. -/
def lullWords : List UInt32 :=
  [0x07230203, 0x00010000, 0, 12, 0,
    0x00040047, 10, 1, 2,
    0x00040047, 11, 1, 3,
    0x00020014, 1,
    0x00030031, 1, 10,
    0x00030030, 1, 11]

def windCall (stage : Stage) (binary : List UInt32) : ShaderCall :=
  .parse (StageReflection.lightContext 2) ⟨0, .of stage⟩ binary

private theorem windCalls_records :
    ((new "wind" [.of .vertex, .of .fragment]).runInPlace
      [windCall .vertex gustWords, windCall .vertex lullWords, windCall .fragment lullWords]).2.specRecords =
        [⟨1, .float32, 0x7fc00001⟩, ⟨2, .int64, 0xffffffff00000001⟩, ⟨3, .bool, 1⟩] := by
  decide +kernel

/-- A module of which a composite has a number. -/
def squallWords : List UInt32 :=
  [0x07230203, 0x00010000, 0, 10, 0,
    0x00040047, 8, 1, 5,
    0x00040015, 3, 32, 0,
    0x00040017, 4, 3, 2,
    0x00030001, 4, 9,
    0x00050033, 4, 8, 9, 9]

private theorem squallWords_unsupported :
    ∃ m, Module.ofWords squallWords = .ok m ∧ ∃ g ∈ m.globals, m.IsUnsupported g := by
  have shown : (Module.ofWords squallWords).map
      (fun m => m.globals.map fun i => (i.op, m.specNumber? i)) =
        .ok [(.typeInt, none), (.typeVector, none), (.undef, none), (.specConstantComposite, some 5)] := by
    decide +kernel
  obtain ⟨m, read, globals⟩ := map_eq_ok.mp shown
  obtain ⟨g, hg, same⟩ : ∃ g ∈ m.globals, (g.op, m.specNumber? g) = (.specConstantComposite, some 5) :=
    List.mem_map.mp (globals ▸ by simp)
  obtain ⟨op, number⟩ := Prod.mk.inj same
  exact ⟨m, read, g, hg, ⟨number ▸ rfl, .inl op⟩⟩

/-- The second call fails, and the third brings one number that is known and one that is new.  The composite is not
folded in. -/
theorem parsed_specRecords_keep_first_of_gustWords :
    let history := [windCall .vertex gustWords, windCall .vertex lullWords, windCall .fragment lullWords]
    let start := new "wind" [.of .vertex, .of .fragment]
    let s := (start.runInPlace history).2
    (∀ call ∈ history, call.Parses) ∧ s.SpecLayout ((start.acceptedInPlace history).flatMap declared) ∧
      s.specRecords = [⟨1, .float32, 0x7fc00001⟩, ⟨2, .int64, 0xffffffff00000001⟩, ⟨3, .bool, 1⟩] ∧
        ∀ s', start.parse (StageReflection.lightContext 2) ⟨0, .of .vertex⟩ squallWords ≠ .ok s' := by
  intro history start s
  have parses : ∀ call ∈ history, call.Parses := by
    simp [history, windCall, Parses]
  obtain ⟨laid, refused⟩ :=
    parsed_specRecords_keep_first "wind" [.of .vertex, .of .fragment] history parses
  obtain ⟨m, read, unsupported⟩ := squallWords_unsupported
  exact ⟨parses, laid, windCalls_records, refused start _ _ squallWords m read unsupported⟩

/-- A module of which a group of decorations gives a number to a constant; another constant has two numbers, and a
third is a truth value by its operation but not by its type. -/
def eddyWords : List UInt32 :=
  [0x07230203, 0x00010000, 0, 8, 0,
    0x00040047, 1, 1, 7,
    0x00020049, 1,
    0x0003004a, 1, 5,
    0x00040047, 6, 1, 3,
    0x00040047, 6, 1, 9,
    0x00040047, 7, 1, 4,
    0x00020014, 2,
    0x00040015, 3, 32, 0,
    0x00030030, 2, 5,
    0x00030030, 2, 6,
    0x00030030, 3, 7]

/-- A module of which an operation on constants has a number and makes a vector. -/
def swirlWords : List UInt32 :=
  [0x07230203, 0x00010000, 0, 10, 0,
    0x00040047, 8, 1, 5,
    0x00040015, 3, 32, 0,
    0x00040017, 4, 3, 2,
    0x00030001, 4, 9,
    0x00060034, 4, 8, 128, 9, 9]

/-- The operation of each global, the numbers that decorations state of it, and the kind and the components of its
type. -/
private def outline (m : Module) : List (Op × List Nat × Option ScalarKind × Option Nat) :=
  m.globals.map fun i =>
    (i.op, m.statedNumbers i, i.type.bind m.scalarKind?, (i.type.bind m.components?).map (·.count))

private theorem exists_of_mem_outline {m : Module} {op : Op} {numbers : List Nat} {kind : Option ScalarKind}
    {count : Option Nat} (listed : (op, numbers, kind, count) ∈ outline m) :
    ∃ i ∈ m.globals, i.op = op ∧ m.statedNumbers i = numbers ∧ i.type.bind m.scalarKind? = kind ∧
      (i.type.bind m.components?).map (·.count) = count := by
  obtain ⟨i, hi, same⟩ := List.mem_map.mp listed
  simp only [Prod.mk.injEq] at same
  exact ⟨i, hi, same⟩

private theorem outline_eddyWords :
    (Module.ofWords eddyWords).map outline = .ok
      [(.typeBool, [], none, none), (.typeInt, [], none, none),
        (.specConstantTrue, [7], some .bool, some 1), (.specConstantTrue, [3, 9], some .bool, some 1),
        (.specConstantTrue, [4], some .uint32, some 1)] := by
  decide +kernel

private theorem outline_swirlWords :
    (Module.ofWords swirlWords).map outline = .ok
      [(.typeInt, [], none, none), (.typeVector, [], none, none), (.undef, [], none, some 2),
        (.specConstantOp, [5], none, some 2)] := by
  decide +kernel

private theorem eddyWords_records :
    ((windCall .vertex eddyWords).on (new "wind" [.of .vertex])).map (·.specRecords) =
      .ok [⟨3, .bool, 1⟩, ⟨4, .bool, 1⟩] := by
  decide +kernel

private theorem swirlWords_records :
    ((windCall .vertex swirlWords).on (new "wind" [.of .vertex])).map (·.specRecords) = .ok [] := by
  decide +kernel

/-- A number that comes by a group, or second, has no record; a truth value is one whatever its type; and a number on a
vector that an operation makes is no reason to fail. -/
theorem stated_numbers_without_record :
    let parse := fun words => (windCall .vertex words).on (new "wind" [.of .vertex])
    (∃ m s, Module.ofWords eddyWords = .ok m ∧ parse eddyWords = .ok s ∧
      (∀ k ∈ [7, 9], (∃ i ∈ m.globals, i.op.IsSpecScalar ∧ k ∈ m.statedNumbers i) ∧
        ∀ record ∈ s.specRecords, record.id ≠ k) ∧
      (∃ i ∈ m.globals, i.op.IsSpecScalar ∧ 4 ∈ m.statedNumbers i ∧
        i.type.bind m.scalarKind? = some .uint32) ∧ ⟨4, .bool, 1⟩ ∈ s.specRecords) ∧
      ∃ m s, Module.ofWords swirlWords = .ok m ∧ parse swirlWords = .ok s ∧
        ∃ i ∈ m.globals, 5 ∈ m.statedNumbers i ∧ (i.type.bind m.components?).map (·.count) = some 2 := by
  intro parse
  constructor
  · obtain ⟨m, read, shown⟩ := map_eq_ok.mp outline_eddyWords
    obtain ⟨s, parsed, records⟩ := map_eq_ok.mp eddyWords_records
    have listed : (.specConstantTrue, [7], some .bool, some 1) ∈ outline m ∧
        (.specConstantTrue, [3, 9], some .bool, some 1) ∈ outline m ∧
          (.specConstantTrue, [4], some .uint32, some 1) ∈ outline m := by
      simp [shown]
    obtain ⟨grouped, hg, op, numbers, _⟩ := exists_of_mem_outline listed.1
    obtain ⟨twice, ht, op', numbers', _⟩ := exists_of_mem_outline listed.2.1
    obtain ⟨typed, hd, op'', numbers'', kind, _⟩ := exists_of_mem_outline listed.2.2
    refine ⟨m, s, read, parsed, ?_, ⟨typed, hd, .inl op'', by simp [numbers''], kind⟩, by simp [records]⟩
    simp only [List.forall_mem_cons, List.not_mem_nil, false_imp_iff, implies_true, and_true]
    exact ⟨⟨⟨grouped, hg, .inl op, by simp [numbers]⟩, by simp [records]⟩,
      ⟨twice, ht, .inl op', by simp [numbers']⟩, by simp [records]⟩
  · obtain ⟨m, read, shown⟩ := map_eq_ok.mp outline_swirlWords
    obtain ⟨s, parsed, _⟩ := map_eq_ok.mp swirlWords_records
    have listed : (.specConstantOp, [5], none, some 2) ∈ outline m := by simp [shown]
    obtain ⟨made, hm, _, numbers, _, count⟩ := exists_of_mem_outline listed
    exact ⟨m, s, read, parsed, made, hm, by simp [numbers], count⟩

end Shader

end ShaderPipeline
