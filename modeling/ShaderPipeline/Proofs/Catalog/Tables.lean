import Mathlib.Data.Nat.Bitwise
import ShaderPipeline.Proofs.Catalog.Acceptance
import ShaderPipeline.Proofs.Stage

/-!
Catalogs that are checked and looked up with hash tables.

While groups are read, their names are entered into a table with their places, and later look-ups go through it; the
names and bindings of a group and the names of shaders have tables too, and the stages of a shader are kept as one set.
What a table holds is told by the members that were entered, so the checks refuse what the plain ones refuse, with the
same error, and the table of places leads to the same groups.
-/

set_option autoImplicit false
set_option relaxedAutoImplicit false

namespace ShaderPipeline

open Outcome

namespace StageSet

def covers (a b : StageSet) : Bool :=
  a.bits &&& b.bits == b.bits

private theorem covers_eq_intersects {a b : StageSet} (single : b.isSingle = true) :
    a.covers b = a.intersects b := by
  obtain ⟨i, power⟩ := isSingle_iff_isPowerOfTwo.mp single
  have nonzero : b.bits ≠ 0 := by
    intro zero
    rw [zero] at power
    exact (Nat.two_pow_pos i).ne power
  rw [Bool.eq_iff_iff, covers, intersects, beq_iff_eq, bne_iff_ne]
  constructor
  · intro all
    rwa [all]
  · intro some
    have bit : a.bits.toNat.testBit i = true := by
      by_contra clear
      refine some (UInt32.toNat_inj.mp ?_)
      have clear : a.bits.toNat.testBit i = false := Bool.not_eq_true _ ▸ clear
      rw [UInt32.toNat_and, power, Nat.and_two_pow, clear]
      simp
    refine UInt32.toNat_inj.mp ?_
    rw [UInt32.toNat_and, power, Nat.and_two_pow, bit]
    simp

private theorem union_intersects (a b c : StageSet) :
    (a.union b).intersects c = (a.intersects c || b.intersects c) := by
  have distributes : (a.bits ||| b.bits) &&& c.bits = a.bits &&& c.bits ||| b.bits &&& c.bits := by
    refine UInt32.toNat_inj.mp ?_
    simp only [UInt32.toNat_and, UInt32.toNat_or]
    exact Nat.and_or_distrib_right _ _ _
  rw [Bool.eq_iff_iff]
  simp only [intersects, union, distributes, Bool.or_eq_true, bne_iff_ne, ne_eq,
    UInt32.or_eq_zero_iff, not_and_or]

end StageSet

namespace Catalog

/-- Enters the names of resources, and the bindings of those that take one, and refuses the first resource with a name
or a binding that is there. -/
def enterResources (group : String) :
    Std.HashSet String → Std.HashMap Nat String → List Resource → Except CatalogError Unit
  | _, _, [] => .ok ()
  | names, bindings, r :: rest =>
      if r.name ∈ names then .error (.duplicateName "resource" (group ++ "." ++ r.name))
      else if r.kind.isDescriptor then
        match bindings[r.binding]? with
        | some first => .error (.duplicateBinding group r.binding first r.name)
        | none => enterResources group (names.insert r.name) (bindings.insert r.binding r.name) rest
      else enterResources group (names.insert r.name) bindings rest

/-- Enters the names of resource groups with their places, from a place on. -/
def enterResourceGroups : Std.HashMap String Nat → Nat → List ResourceGroup →
    Except CatalogError (Std.HashMap String Nat)
  | places, _, [] => .ok places
  | places, place, g :: rest =>
      if g.name ∈ places then .error (.duplicateName "resource group" g.name)
      else do
        enterResources g.name ∅ ∅ g.resources
        enterResourceGroups (places.insert g.name place) (place + 1) rest

/-- Adds the stages of a shader to a set, and refuses the first that is not single or in the set. -/
def enterStages (shader : String) : StageSet → List StageSource → Except CatalogError Unit
  | _, [] => .ok ()
  | seen, s :: rest =>
      if !s.stage.isSingle || seen.covers s.stage then
        .error (.invalidValue shader "stage" s.stage.display)
      else enterStages shader (seen.union s.stage) rest

def enterShaderGroups : Std.HashSet String → List ShaderGroup → Except CatalogError Unit
  | _, [] => .ok ()
  | names, g :: rest =>
      if g.name ∈ names then .error (.duplicateName "shader group" g.name)
      else do
        enterStages g.name .empty g.stages
        enterShaderGroups (names.insert g.name) rest

/-- The table of bindings for some resources: the first one at each binding. -/
private def binding? (entered : List Resource) (binding : Nat) : Option String :=
  (entered.find? fun r => r.kind.isDescriptor && r.binding == binding).map (·.name)

private theorem binding?_concat (entered : List Resource) (r : Resource) (binding : Nat) :
    binding? (entered ++ [r]) binding = (binding? entered binding).or
      (if r.kind.isDescriptor ∧ r.binding = binding then some r.name else none) := by
  simp only [binding?, List.find?_append, Option.map_or]
  congr 1
  by_cases own : r.kind.isDescriptor ∧ r.binding = binding
  · simp [own]
  · have apart : (r.kind.isDescriptor && r.binding == binding) = false := by
      simpa using own
    simp [apart, own]

private theorem enterResources_eq {group : String} {names : Std.HashSet String}
    {bindings : Std.HashMap Nat String} {entered rest : List Resource}
    (named : ∀ name, name ∈ names ↔ ∃ r ∈ entered, r.name = name)
    (bound : ∀ binding, bindings[binding]? = binding? entered binding) :
    enterResources group names bindings rest = checkResources group entered rest := by
  induction rest generalizing names bindings entered with
  | nil => rfl
  | cons r rest ih =>
    have named' : ∀ name, name ∈ names.insert r.name ↔ ∃ s ∈ entered ++ [r], s.name = name := by
      intro name
      simp [Std.HashSet.mem_insert, named, or_comm, or_and_right, exists_or]
    rw [enterResources, checkResources]
    by_cases known : r.name ∈ names
    · obtain ⟨s, hs, same⟩ := (named r.name).mp known
      have found : entered.any (·.name == r.name) = true :=
        List.any_eq_true.mpr ⟨s, hs, beq_iff_eq.mpr same⟩
      rw [if_pos known, if_pos found]
    · have absent : ¬ entered.any (·.name == r.name) = true := by
        rw [named] at known
        simpa using known
      rw [if_neg known, if_neg absent]
      by_cases descriptor : r.kind.isDescriptor = true
      · simp only [descriptor, if_true, Bool.and_true, bound, binding?]
        cases found : entered.find? fun s => s.kind.isDescriptor && s.binding == r.binding with
        | some s => rfl
        | none =>
          refine ih named' fun binding => ?_
          rw [Std.HashMap.getElem?_insert, binding?_concat, bound]
          by_cases own : r.binding = binding
          · subst own
            simp [descriptor, binding?, found]
          · simp [own]
      · have none : entered.find? (fun s =>
            s.kind.isDescriptor && r.kind.isDescriptor && s.binding == r.binding) = none := by
          simp [descriptor]
        rw [if_neg descriptor, none]
        refine ih named' fun binding => ?_
        rw [bound, binding?_concat]
        simp [descriptor]

private theorem idxOf?_concat {names : List String} {name : String} (fresh : name ∉ names)
    (other : String) : (names ++ [name]).idxOf? other =
      if name = other then some names.length else names.idxOf? other := by
  have last : [name].idxOf? other = if name = other then some 0 else none := by
    simp [List.idxOf?_cons]
  have parted : (names ++ [name]).idxOf? other =
      (names.idxOf? other).or (([name].idxOf? other).map (· + names.length)) :=
    List.findIdx?_append
  rw [parted, last]
  by_cases same : name = other
  · subst same
    rw [List.idxOf?_eq_none_iff.mpr fresh]
    simp
  · simp [same]

private theorem enterResourceGroups_eq {places : Std.HashMap String Nat} {entered : List String}
    (placed : ∀ name, places[name]? = entered.idxOf? name) (rest : List ResourceGroup) :
    (∃ e, enterResourceGroups places entered.length rest = .error e ∧
        checkResourceGroups entered rest = .error e) ∨
      ∃ all, enterResourceGroups places entered.length rest = .ok all ∧
        checkResourceGroups entered rest = .ok () ∧
          ∀ name, all[name]? = (entered ++ rest.map (·.name)).idxOf? name := by
  induction rest generalizing places entered with
  | nil => exact .inr ⟨places, rfl, rfl, by simpa using placed⟩
  | cons g rest ih =>
    have known : g.name ∈ places ↔ g.name ∈ entered := by
      rw [Std.HashMap.mem_iff_isSome_getElem?, placed, Option.isSome_iff_ne_none, ne_eq,
        List.idxOf?_eq_none_iff, not_not]
    have own : enterResources g.name ∅ ∅ g.resources = checkResources g.name [] g.resources :=
      enterResources_eq (by simp) (by simp [binding?])
    rw [enterResourceGroups, checkResourceGroups, own]
    by_cases old : g.name ∈ entered
    · rw [if_pos (known.mpr old), if_pos (List.contains_iff_mem.mpr old)]
      exact .inl ⟨_, rfl, rfl⟩
    · rw [if_neg (mt known.mp old), if_neg (mt List.contains_iff_mem.mp old)]
      cases checkResources g.name [] g.resources with
      | error e => exact .inl ⟨e, rfl, rfl⟩
      | ok =>
        have placed' : ∀ name, (places.insert g.name entered.length)[name]? =
            (entered ++ [g.name]).idxOf? name := by
          intro name
          rw [Std.HashMap.getElem?_insert, idxOf?_concat old, placed]
          simp
        have later := ih placed'
        rw [List.length_append, List.length_singleton] at later
        have names : entered ++ (g :: rest).map (·.name) =
            entered ++ [g.name] ++ rest.map (·.name) := by simp
        rw [names]
        exact later

private theorem enterStages_eq {shader : String} {seen : StageSet} {entered : List StageSet}
    {rest : List StageSource} (singles : ∀ s ∈ entered, s.isSingle = true)
    (held : ∀ s : StageSet, s.isSingle = true → (seen.covers s = true ↔ s ∈ entered)) :
    enterStages shader seen rest = checkStages shader entered rest := by
  induction rest generalizing seen entered with
  | nil => rfl
  | cons s rest ih =>
    rw [enterStages, checkStages]
    by_cases single : s.stage.isSingle = true
    · have same : seen.covers s.stage = entered.contains s.stage := by
        rw [Bool.eq_iff_iff, held s.stage single, List.contains_iff_mem]
      rw [same]
      split
      · rfl
      · refine ih ?_ fun t one => ?_
        · intro t ht
          rcases List.mem_append.mp ht with ht | ht
          · exact singles t ht
          · exact List.mem_singleton.mp ht ▸ single
        · rw [StageSet.covers_eq_intersects one, StageSet.union_intersects, Bool.or_eq_true,
            ← StageSet.covers_eq_intersects one, held t one, StageSet.intersects_iff_eq single one,
            List.mem_append, List.mem_singleton, eq_comm (a := t)]
    · simp [single]

private theorem enterShaderGroups_eq {names : Std.HashSet String} {entered : List String}
    {rest : List ShaderGroup} (named : ∀ name, name ∈ names ↔ name ∈ entered) :
    enterShaderGroups names rest = checkShaderGroups entered rest := by
  induction rest generalizing names entered with
  | nil => rfl
  | cons g rest ih =>
    have own : enterStages g.name .empty g.stages = checkStages g.name [] g.stages := by
      refine enterStages_eq (by simp) fun s single => ?_
      rw [StageSet.covers_eq_intersects single]
      simp [StageSet.intersects, StageSet.empty]
    have later : enterShaderGroups (names.insert g.name) rest =
        checkShaderGroups (entered ++ [g.name]) rest := by
      refine ih fun name => ?_
      rw [Std.HashSet.mem_insert, named, beq_iff_eq, List.mem_append, List.mem_singleton, or_comm,
        eq_comm]
    rw [enterShaderGroups, checkShaderGroups, own, later]
    by_cases old : g.name ∈ entered
    · rw [if_pos ((named g.name).mpr old), if_pos (List.contains_iff_mem.mpr old)]
    · rw [if_neg (mt (named g.name).mp old), if_neg (mt List.contains_iff_mem.mp old)]

/-- A catalog with the places of its resource groups by name. -/
structure Indexed where
  catalog : Catalog
  places : Std.HashMap String Nat

/-- The catalog of some groups, checked with tables. -/
def ofGroupsIndexed (shaders : List ShaderGroup) (resources : List ResourceGroup) :
    Except CatalogError Indexed := do
  let places ← enterResourceGroups ∅ 0 resources
  enterShaderGroups ∅ shaders
  pure ⟨⟨shaders, resources⟩, places⟩

namespace Indexed

variable {c : Indexed} {shaders : List ShaderGroup} {resources : List ResourceGroup}

def resourceGroup? (c : Indexed) (name : String) : Option ResourceGroup :=
  c.places[name]?.bind (c.catalog.resourceGroups[·]?)

def resource? (c : Indexed) (key : ResourceKey) : Option Resource :=
  (c.resourceGroup? key.group).bind (·.resource? key.name)

/-- The resource with a given name in the first of the groups that there are among some. -/
def findResource? (c : Indexed) (groups : List String) (name : String) : Option Resource :=
  (groups.filterMap c.resourceGroup?).findSome? (·.resource? name)

/-- Whether look-ups through the places find what they find without them. -/
structure LooksUp (c : Indexed) : Prop where
  resourceGroup? : ∀ name, c.resourceGroup? name = c.catalog.resourceGroup? name
  resource? : ∀ key, c.resource? key = c.catalog.resource? key
  findResource? : ∀ groups name, c.findResource? groups name = c.catalog.findResource? groups name

private theorem bind_idxOf? (groups : List ResourceGroup) (name : String) :
    ((groups.map (·.name)).idxOf? name).bind (groups[·]?) = groups.find? (·.name == name) := by
  induction groups with
  | nil => rfl
  | cons g rest ih =>
    rw [List.map_cons, List.idxOf?_cons, List.find?_cons]
    by_cases same : g.name = name
    · simp [same]
    · have other : (g.name == name) = false := beq_eq_false_iff_ne.mpr same
      simp [other, ← ih, Option.bind_map]

private theorem looksUp_of_places (placed : ∀ name,
    c.places[name]? = (c.catalog.resourceGroups.map (·.name)).idxOf? name) : c.LooksUp := by
  have groups : ∀ name, c.resourceGroup? name = c.catalog.resourceGroup? name := by
    intro name
    rw [resourceGroup?, placed, bind_idxOf?]
    rfl
  refine ⟨groups, fun key => ?_, fun listed name => ?_⟩
  · rw [resource?, groups]
    rfl
  · rw [findResource?, Catalog.findResource?, funext groups]
    induction listed with
    | nil => rfl
    | cons group rest ih =>
      rw [List.filterMap_cons, List.findSome?_cons, ← ih]
      cases c.catalog.resourceGroup? group with
      | none => rfl
      | some g => rw [List.findSome?_cons]; rfl

end Indexed

/-- Tables refuse the groups that the plain checks refuse, with the same error, and lead to what is found without
them. -/
theorem ofGroupsIndexed_spec (shaders : List ShaderGroup) (resources : List ResourceGroup) :
    (ofGroupsIndexed shaders resources).map (·.catalog) = ofGroups shaders resources ∧
      ∀ c, ofGroupsIndexed shaders resources = .ok c → c.LooksUp := by
  have named : enterShaderGroups ∅ shaders = checkShaderGroups [] shaders :=
    enterShaderGroups_eq (by simp)
  have placed : ∀ name, (∅ : Std.HashMap String Nat)[name]? = ([] : List String).idxOf? name := by
    simp
  rw [ofGroupsIndexed, ofGroups, named]
  rcases enterResourceGroups_eq placed resources with
    ⟨e, entered, checked⟩ | ⟨all, entered, checked, places⟩
  · rw [List.length_nil] at entered
    rw [entered, checked]
    exact ⟨rfl, fun c made => by cases made⟩
  · rw [List.length_nil] at entered
    rw [entered, checked]
    cases checkShaderGroups [] shaders with
    | error e => exact ⟨rfl, fun c made => by cases made⟩
    | ok =>
      refine ⟨rfl, fun c made => ?_⟩
      obtain rfl := Except.ok.inj made
      exact Indexed.looksUp_of_places places

end Catalog

end ShaderPipeline
