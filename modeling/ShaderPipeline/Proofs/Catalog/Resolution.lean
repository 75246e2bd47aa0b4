import ShaderPipeline.Proofs.Catalog.Tables
import ShaderPipeline.Proofs.Distinct

/-!
Which groups make a catalog, and what is found in the catalog of a document.

A list of groups is accepted exactly when nothing in it is ambiguous.  Main statement: so it is, and in the catalog of
an accepted document every resource is what its entry says and is found under its own key, and a name among some groups
stands for the resource that the first of them declares; tables of names and places come to the same.
-/

set_option autoImplicit false
set_option relaxedAutoImplicit false

namespace ShaderPipeline

open Outcome

/-- Whether a resource is named and sized as an entry of a document says. -/
structure ResourceEntry.Describes (e : ResourceEntry) (r : Resource) : Prop where
  name : r.name = e.name
  binding : r.binding = e.binding
  unbounded : r.isUnbounded = true ↔ e.unbounded = true
  size : e.arraySize = if r.isArray && !r.isUnbounded then some r.arraySize else none
  positive : r.isArray = true → r.isUnbounded = false → 0 < r.arraySize

private theorem describes_of_resolve {e : ResourceEntry} {group : String} {r : Resource}
    (resolved : e.resolve group = .ok r) : e.Describes r := by
  simp only [ResourceEntry.resolve, bind_eq_ok, pure_eq_ok] at resolved
  obtain ⟨_, _, _, _, _, _, ⟨isArray, arraySize⟩, shape, rfl⟩ := resolved
  rw [ResourceEntry.resolveArray] at shape
  split at shape
  · rename_i unbounded size
    obtain ⟨rfl, rfl⟩ := Prod.mk.inj (Except.ok.inj shape)
    constructor <;> simp [unbounded, size, Resource.isUnbounded]
  · rename_i unbounded size
    obtain ⟨rfl, rfl⟩ := Prod.mk.inj (Except.ok.inj shape)
    constructor <;> simp [unbounded, size, Resource.isUnbounded]
  · cases shape
  · rename_i length unbounded size
    split at shape
    · cases shape
    · rename_i positive
      obtain ⟨rfl, rfl⟩ := Prod.mk.inj (Except.ok.inj shape)
      constructor <;> simp [unbounded, size, positive, Resource.isUnbounded, Nat.pos_iff_ne_zero]

/-- Whether a resource group has the name of an entry and the resources that its entries describe. -/
structure ResourceGroupEntry.Describes (e : ResourceGroupEntry) (g : ResourceGroup) : Prop where
  name : g.name = e.name
  resources : List.Forall₂ ResourceEntry.Describes e.resources g.resources

private theorem group_describes_of_resolve {e : ResourceGroupEntry} {g : ResourceGroup}
    (resolved : e.resolve = .ok g) : e.Describes g := by
  simp only [ResourceGroupEntry.resolve, bind_eq_ok, pure_eq_ok] at resolved
  obtain ⟨resources, each, rfl⟩ := resolved
  exact ⟨rfl, (mapM_eq_ok.mp each).imp fun _ _ => describes_of_resolve⟩

namespace Catalog

/-- Whether nothing in some groups is ambiguous: names are distinct, so are the resources of a group by name and, if
they take one, by binding, and the stages of a shader are single and distinct. -/
structure Distinguishes (shaders : List ShaderGroup) (resources : List ResourceGroup) : Prop where
  groupNames : (resources.map (·.name)).Nodup
  resourceNames : ∀ g ∈ resources, (g.resources.map (·.name)).Nodup
  bindings : ∀ g ∈ resources, ((g.resources.filter (·.kind.isDescriptor)).map (·.binding)).Nodup
  shaderNames : (shaders.map (·.name)).Nodup
  singles : ∀ g ∈ shaders, ∀ s ∈ g.stages, s.stage.isSingle = true
  stages : ∀ g ∈ shaders, (g.stages.map (·.stage)).Nodup

private theorem goTogether_iff {rs : List Resource} :
    rs.Pairwise Resource.GoesWith ↔
      (rs.map (·.name)).Nodup ∧ ((rs.filter (·.kind.isDescriptor)).map (·.binding)).Nodup := by
  have names : (rs.map (·.name)).Nodup ↔ rs.Pairwise fun a b => a.name ≠ b.name :=
    List.pairwise_map
  have bindings : ((rs.filter (·.kind.isDescriptor)).map (·.binding)).Nodup ↔
      rs.Pairwise fun a b => a.kind.isDescriptor → b.kind.isDescriptor → a.binding ≠ b.binding :=
    List.pairwise_map.trans List.pairwise_filter
  rw [names, bindings]
  exact List.pairwise_and_iff

private theorem ofGroups_eq_ok {shaders : List ShaderGroup} {resources : List ResourceGroup} {c : Catalog} :
    ofGroups shaders resources = .ok c ↔
      Distinguishes shaders resources ∧ c = ⟨shaders, resources⟩ := by
  have checked : ofGroups shaders resources = .ok c ↔
      checkResourceGroups [] resources = .ok () ∧ checkShaderGroups [] shaders = .ok () ∧
        c = ⟨shaders, resources⟩ := by
    rw [ofGroups]
    simp only [bind_eq_ok, pure_eq_ok]
    constructor
    · rintro ⟨_, groups, _, names, rfl⟩
      exact ⟨groups, names, rfl⟩
    · rintro ⟨groups, names, rfl⟩
      exact ⟨_, groups, _, names, rfl⟩
  rw [checked, checkResourceGroups_eq_ok, checkShaderGroups_eq_ok]
  simp only [goTogether_iff]
  constructor
  · rintro ⟨⟨_, groupNames, together⟩, ⟨_, shaderNames, each⟩, rfl⟩
    exact ⟨⟨groupNames, fun g hg => (together g hg).1, fun g hg => (together g hg).2, shaderNames,
      fun g hg => (each g hg).1, fun g hg => (each g hg).2⟩, rfl⟩
  · rintro ⟨h, rfl⟩
    refine ⟨⟨by simp, h.groupNames, fun g hg => ⟨h.resourceNames g hg, h.bindings g hg⟩⟩,
      ⟨by simp, h.shaderNames, fun g hg => ⟨h.singles g hg, h.stages g hg⟩⟩, rfl⟩

private theorem describes_of_ofText {text : String} {root : Path} {c : Catalog}
    (accepted : ofText text root = .ok c) :
    ∃ v d entries, Json.read? text = some v ∧ CatalogDocument.ofJson? v = some d ∧
      d.resourceGroups = some entries ∧
        List.Forall₂ ResourceGroupEntry.Describes entries c.resourceGroups := by
  rw [ofText] at accepted
  split at accepted
  · rename_i v read
    rw [ofJson] at accepted
    split at accepted
    · rename_i d known
      rw [ofDocument] at accepted
      cases hs : d.shaderGroups with
      | none => simp [hs] at accepted
      | some shaders =>
        cases hg : d.resourceGroups with
        | none => simp [hs, hg] at accepted
        | some entries =>
          simp only [hs, hg, bind_eq_ok] at accepted
          obtain ⟨_, _, groups, each, made⟩ := accepted
          obtain ⟨_, rfl⟩ := ofGroups_eq_ok.mp made
          exact ⟨v, d, entries, read, known, hg,
            (mapM_eq_ok.mp each).imp fun _ _ => group_describes_of_resolve⟩
    · cases accepted
  · cases accepted

/-- Whether a group of a name has a resource of a name. -/
def Declares (c : Catalog) (group name : String) (r : Resource) : Prop :=
  ∃ g ∈ c.resourceGroups, g.name = group ∧ r ∈ g.resources ∧ r.name = name

variable {c : Catalog} {group name : String} {r : Resource}

private theorem IsUnambiguous.declared?_eq_some (h : c.IsUnambiguous) :
    c.declared? name group = some r ↔ c.Declares group name r := by
  rw [declared?, Option.bind_eq_some_iff]
  constructor
  · rintro ⟨g, known, declares⟩
    obtain ⟨hg, named⟩ := name_of_resourceGroup? known
    obtain ⟨hr, called⟩ := name_of_resource? declares
    exact ⟨g, hg, named, hr, called⟩
  · rintro ⟨g, hg, named, hr, called⟩
    have distinct : (g.resources.map (·.name)).Nodup := (goTogether_iff.mp (h.goTogether g hg)).1
    exact ⟨g, (find?_eq_some_of_nodup h.groupsDistinct).mpr ⟨hg, named⟩,
      (find?_eq_some_of_nodup distinct).mpr ⟨hr, called⟩⟩

private theorem IsUnambiguous.resource?_key (h : c.IsUnambiguous) {g : ResourceGroup}
    (hg : g ∈ c.resourceGroups) (hr : r ∈ g.resources) : c.resource? r.key = some r :=
  h.declared?_eq_some.mpr ⟨g, hg, (h.labelled g hg r hr).symm, hr, rfl⟩

private theorem IsUnambiguous.declared?_eq_none (h : c.IsUnambiguous) :
    c.declared? name group = none ↔ ∀ r, ¬ c.Declares group name r := by
  simp only [Option.eq_none_iff_forall_ne_some, ne_eq, h.declared?_eq_some]

/-- Whether a resource is the one that the first of some groups to declare a name declares. -/
def IsFirstDeclared (c : Catalog) (groups : List String) (name : String) (r : Resource) : Prop :=
  ∃ before group after, groups = before ++ group :: after ∧ c.Declares group name r ∧
    ∀ earlier ∈ before, ∀ s, ¬ c.Declares earlier name s

theorem IsUnambiguous.findResource?_eq_some (h : c.IsUnambiguous) {groups : List String} :
    c.findResource? groups name = some r ↔ c.IsFirstDeclared groups name r := by
  refine List.findSome?_eq_some_iff.trans ?_
  constructor
  · rintro ⟨before, group, after, split, declares, passed⟩
    exact ⟨before, group, after, split, h.declared?_eq_some.mp declares,
      fun earlier he => h.declared?_eq_none.mp (passed earlier he)⟩
  · rintro ⟨before, group, after, split, declares, passed⟩
    exact ⟨before, group, after, split, h.declared?_eq_some.mpr declares,
      fun earlier he => h.declared?_eq_none.mpr (passed earlier he)⟩

/-- Groups make a catalog exactly when nothing in them is ambiguous, whether names are looked for in lists or in
tables.  In the catalog of an accepted document the resources are those that its entries describe, each is found under
its own key, and a name among some groups stands for what the first group to declare it declares, if there is one. -/
theorem accepts_exactly_unambiguous_and_keys_resolve :
    (∀ shaders resources, ((∃ c, ofGroups shaders resources = .ok c) ↔
        Distinguishes shaders resources) ∧
      (ofGroupsIndexed shaders resources).map (·.catalog) = ofGroups shaders resources ∧
        ∀ c, ofGroupsIndexed shaders resources = .ok c → c.LooksUp) ∧
    ∀ text root c, ofText text root = .ok c →
      (∃ v d entries, Json.read? text = some v ∧ CatalogDocument.ofJson? v = some d ∧
        d.resourceGroups = some entries ∧
          List.Forall₂ ResourceGroupEntry.Describes entries c.resourceGroups) ∧
      (∀ g ∈ c.resourceGroups, ∀ r ∈ g.resources, c.resource? r.key = some r) ∧
        ∀ groups name, (∀ r, c.findResource? groups name = some r ↔ c.IsFirstDeclared groups name r) ∧
          (c.findResource? groups name = none ↔
            ∀ group ∈ groups, ∀ r, ¬ c.Declares group name r) := by
  refine ⟨fun shaders resources => ⟨?_, ofGroupsIndexed_spec shaders resources⟩, ?_⟩
  · constructor
    · rintro ⟨c, made⟩
      exact (ofGroups_eq_ok.mp made).1
    · intro distinct
      exact ⟨_, ofGroups_eq_ok.mpr ⟨distinct, rfl⟩⟩
  · intro text root c accepted
    have unambiguous : c.IsUnambiguous := isUnambiguous_of_ofText accepted
    refine ⟨describes_of_ofText accepted, fun g hg r hr => unambiguous.resource?_key hg hr, ?_⟩
    intro groups name
    refine ⟨fun r => unambiguous.findResource?_eq_some, ?_⟩
    rw [findResource?_eq_none]
    simp only [unambiguous.declared?_eq_none]

/-- A document of two groups that share a name, with an array that has a length and one that has none. -/
def seaDocument : String :=
  "\x7b\"shader_groups\":[],\"resource_groups\":[\x7b\"name\":\"Sea\",\"resources\":[" ++
    "\x7b\"name\":\"foam\",\"kind\":\"sampler\",\"array_size\":4\x7d]\x7d,\x7b\"name\":\"Ice\"," ++
    "\"resources\":[\x7b\"name\":\"foam\",\"kind\":\"sampler\",\"unbounded\":true\x7d]\x7d]\x7d"

def foam (group : String) (arraySize : Nat) : Resource :=
  ⟨"foam", .sampler, 0, group, .unknown, default, true, arraySize, "", [], "", 0, []⟩

def seaCatalog : Catalog :=
  ⟨[], [⟨"Sea", [foam "Sea" 4], []⟩, ⟨"Ice", [foam "Ice" 0], []⟩]⟩

private theorem seaDocument_read : (ofText seaDocument ⟨"."⟩).toOption = some seaCatalog := by
  decide +kernel

theorem accepts_exactly_unambiguous_and_keys_resolve_of_sea :
    ofText seaDocument ⟨"."⟩ = .ok seaCatalog ∧ Distinguishes [] seaCatalog.resourceGroups ∧
      (foam "Ice" 0).isUnbounded = true ∧ seaCatalog.resource? ⟨"Ice", "foam"⟩ = some (foam "Ice" 0) ∧
        seaCatalog.findResource? ["Fog", "Sea", "Ice"] "foam" = some (foam "Sea" 4) ∧
          seaCatalog.findResource? ["Fog", "Sea"] "ice" = none := by
  have accepted : ofText seaDocument ⟨"."⟩ = .ok seaCatalog := toOption_eq_some.mp seaDocument_read
  obtain ⟨built, lookups⟩ := accepts_exactly_unambiguous_and_keys_resolve
  obtain ⟨_, keys, finds⟩ := lookups seaDocument ⟨"."⟩ seaCatalog accepted
  refine ⟨accepted, (built [] _).1.mp ⟨seaCatalog, rfl⟩, rfl, ?_, ?_, ?_⟩
  · exact keys ⟨"Ice", [foam "Ice" 0], []⟩ (by decide) (foam "Ice" 0) (by decide)
  · refine ((finds _ _).1 _).mpr ⟨["Fog"], "Sea", ["Ice"], rfl, ?_, ?_⟩
    · exact ⟨⟨"Sea", [foam "Sea" 4], []⟩, by decide, rfl, by decide, rfl⟩
    · simp [Declares, seaCatalog]
  · refine ((finds _ _).2).mpr ?_
    simp [Declares, seaCatalog, foam]

end Catalog

end ShaderPipeline
