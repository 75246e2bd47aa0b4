import ShaderPipeline.Catalog.Basic

/-!
Looking up resources by name in a list of resource groups.

A name stands for the resource that the first listed group with a resource of that name declares.  Groups that the
catalog does not have are passed over, and a group that is listed again adds nothing.
-/

set_option autoImplicit false
set_option relaxedAutoImplicit false

namespace ShaderPipeline.Catalog

/-- Whether resources carry the names of the groups they are in. -/
def IsLabelled (c : Catalog) : Prop :=
  ∀ g ∈ c.resourceGroups, ∀ r ∈ g.resources, r.group = g.name

def declared? (c : Catalog) (name group : String) : Option Resource :=
  (c.resourceGroup? group).bind (·.resource? name)

/-- The first of the listed groups that declares a name has a given place and declares a given resource. -/
structure DeclaredFirst (c : Catalog) (groups : List String) (name : String) (place : Nat)
    (r : Resource) : Prop where
  declares : ∃ group, groups[place]? = some group ∧ c.declared? name group = some r
  first : ∀ earlier < place, ∀ group, groups[earlier]? = some group →
    c.declared? name group = none

variable {c : Catalog} {groups : List String} {name group : String} {place : Nat} {r : Resource}

theorem name_of_resourceGroup? {g : ResourceGroup} (found : c.resourceGroup? group = some g) :
    g ∈ c.resourceGroups ∧ g.name = group :=
  ⟨List.mem_of_find?_eq_some found, by simpa using List.find?_some found⟩

theorem name_of_resource? {g : ResourceGroup} (found : g.resource? name = some r) :
    r ∈ g.resources ∧ r.name = name :=
  ⟨List.mem_of_find?_eq_some found, by simpa using List.find?_some found⟩

theorem key_of_declared? (labelled : c.IsLabelled) (found : c.declared? name group = some r) :
    r.key = ⟨group, name⟩ := by
  obtain ⟨g, known, declares⟩ := Option.bind_eq_some_iff.mp found
  obtain ⟨hg, named⟩ := name_of_resourceGroup? known
  obtain ⟨hr, called⟩ := name_of_resource? declares
  rw [Resource.key, labelled g hg r hr, named, called]

theorem findResource?_eq_some :
    c.findResource? groups name = some r ↔ ∃ place, c.DeclaredFirst groups name place r := by
  refine List.findSome?_eq_some_iff.trans ⟨?_, ?_⟩
  · rintro ⟨before, group, after, rfl, declares, none⟩
    refine ⟨before.length, ⟨group, by simp, declares⟩, fun earlier le other listed => ?_⟩
    rw [List.getElem?_append_left le] at listed
    exact none other (List.mem_of_getElem? listed)
  · rintro ⟨place, ⟨group, listed, declares⟩, first⟩
    obtain ⟨bound, rfl⟩ := List.getElem?_eq_some_iff.mp listed
    refine ⟨groups.take place, groups[place], groups.drop (place + 1), ?_, declares, ?_⟩
    · rw [List.getElem_cons_drop, List.take_append_drop]
    · intro other member
      obtain ⟨earlier, le, rfl⟩ := List.mem_take_iff_getElem.mp member
      exact first earlier (by omega) _ (List.getElem?_eq_getElem _)

theorem findResource?_eq_none :
    c.findResource? groups name = none ↔ ∀ group ∈ groups, c.declared? name group = none :=
  List.findSome?_eq_none_iff

theorem DeclaredFirst.idxOf? (labelled : c.IsLabelled) (h : c.DeclaredFirst groups name place r) :
    groups.idxOf? r.group = some place := by
  obtain ⟨group, listed, declares⟩ := h.declares
  obtain ⟨bound, at_place⟩ := List.getElem?_eq_some_iff.mp listed
  have label : r.group = group := congrArg ResourceKey.group (key_of_declared? labelled declares)
  refine List.idxOf?_eq_some_iff.mpr ⟨bound, at_place.trans label.symm, fun earlier le same => ?_⟩
  have absent := h.first earlier le groups[earlier] (List.getElem?_eq_getElem _)
  rw [same, label, declares] at absent
  cases absent

end ShaderPipeline.Catalog
