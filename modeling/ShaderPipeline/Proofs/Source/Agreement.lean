import ShaderPipeline.Proofs.Reflection.Slots
import ShaderPipeline.Proofs.Source.Blocks
import ShaderPipeline.Proofs.Source.Provenance

/-!
The layout that sources are written with and the layout that compiled stages are checked against.

Both number the descriptor sets of a stage on their own: the generator counts the groups that it has met, and the
check looks a group up in the list of groups that the source came with.  Main statement: they agree on every
resource whose name no earlier group declares, and the list in the cache is that of the source.
-/

set_option autoImplicit false
set_option relaxedAutoImplicit false

namespace ShaderPipeline

private theorem Catalog.declared?_of_mem {c : Catalog} (h : c.IsUnambiguous) {group : String}
    {g : ResourceGroup} (known : c.resourceGroup? group = some g) {r : Resource}
    (hr : r ∈ g.resources) : c.declared? r.name group = some r := by
  have hg : g ∈ c.resourceGroups := (name_of_resourceGroup? known).1
  have distinct : (g.resources.map (·.name)).Nodup :=
    List.pairwise_map.mpr ((h.goTogether g hg).imp And.left)
  have found : g.resource? r.name = some r := (find?_eq_some_of_nodup distinct).mpr ⟨hr, rfl⟩
  rw [declared?, known]
  exact found

/-- Whether the check accepts a resource in one set and at its binding only. -/
def StageContext.AcceptsOnly (c : StageContext) (r : Resource) (place : Nat) : Prop :=
  ∀ set binding, c.checkSlot r.name set binding =
    if place = set ∧ r.binding = binding then .ok (some r)
    else .error (.slotMismatch r.key place r.binding set binding)

namespace AssembledSource

/-- Whether a resource of the block at a place is the first one of its name in a source. -/
def DeclaresFirst (source : AssembledSource) (catalog : Catalog) (place : Nat) (r : Resource) :
    Prop :=
  ∀ earlier ∈ source.blocks.take place, catalog.declared? r.name earlier.group = none

/-- Whether a source is laid out as the check will expect.  Its blocks, which make up its block fragments, are those
of the groups that are used, in the order of first use; each declares its group in the set with the number of its
place; and the check against its groups accepts each resource there and nowhere else, if it is the first of its
name. -/
structure IsLaidOut (source : AssembledSource) (catalog : Catalog) (shader : String)
    (uses : List String) : Prop where
  groups : source.resourceGroups = uses.eraseDups
  written : source.fragments.filter (·.kind == .resourceBlock) =
    source.blocks.map fun b => ⟨.resourceBlock, b.text⟩
  declared : ∀ place (b : ResourceBlock), source.blocks[place]? = some b →
    ∃ g, b.DeclaresGroup catalog shader place g ∧
      ∀ r ∈ g.resources, source.DeclaresFirst catalog place r → r.key = ⟨b.group, r.name⟩ ∧
        ∀ name, StageContext.AcceptsOnly ⟨catalog, name, source.resourceGroups⟩ r place

variable {source : AssembledSource} {catalog : Catalog} {shader : String} {uses : List String}

private theorem DeclaresFirst.declaredFirst (unambiguous : catalog.IsUnambiguous) {place : Nat}
    {b : ResourceBlock} (at_place : source.blocks[place]? = some b) {g : ResourceGroup}
    (known : catalog.resourceGroup? b.group = some g) {r : Resource} (hr : r ∈ g.resources)
    (fresh : source.DeclaresFirst catalog place r) :
    catalog.DeclaredFirst source.resourceGroups r.name place r := by
  refine ⟨⟨b.group, ?_, Catalog.declared?_of_mem unambiguous known hr⟩, ?_⟩
  · rw [resourceGroups, List.getElem?_map, at_place]
    rfl
  · intro earlier before group listed
    rw [resourceGroups, List.getElem?_map, Option.map_eq_some_iff] at listed
    obtain ⟨b', at_earlier, rfl⟩ := listed
    have taken : (source.blocks.take place)[earlier]? = some b' := by
      rw [List.getElem?_take_of_lt before, at_earlier]
    exact fresh b' (List.mem_of_getElem? taken)

private theorem isLaidOut_of_followUses (unambiguous : catalog.IsUnambiguous)
    (follow : ResourceBlock.FollowUses catalog shader uses source.blocks)
    (written : source.fragments.filter (·.kind == .resourceBlock) =
      source.blocks.map fun b => ⟨.resourceBlock, b.text⟩) :
    source.IsLaidOut catalog shader uses := by
  refine ⟨follow.groups, written, fun place b at_place => ?_⟩
  obtain ⟨g, declares⟩ := follow.placed place b at_place
  refine ⟨g, declares, fun r hr fresh => ?_⟩
  have known : catalog.resourceGroup? b.group = some g := declares.2.1
  have found := Catalog.declared?_of_mem unambiguous known hr
  have first := fresh.declaredFirst unambiguous at_place known hr
  refine ⟨Catalog.key_of_declared? unambiguous.labelled found, fun name set binding => ?_⟩
  exact StageContext.checkSlot_of_declared unambiguous.labelled first

end AssembledSource

/-- An accepted catalog lays every assembled source out as the check will expect, by the groups that its body uses
once all includes are spliced; and a generation that ends with a source leaves in the cache the groups that came with
it, whether nothing comes between its steps or whatever does. -/
theorem generated_layout_agrees_with_check {text : String} {root : Path} {catalog : Catalog}
    (accepted : Catalog.ofText text root = .ok catalog) :
    (∀ (r : StageRequest) (options : SourceOptions) (files : FileTree) (body : String)
        (source : AssembledSource), r.assemble catalog options files body = .ok source →
      ∃ expanded, (r.includePlan options).expand files r.path body = .ok expanded ∧
        source.IsLaidOut catalog r.shader.name (Directive.usedGroups false (Text.lines expanded))) ∧
    ∀ history : List CacheAct, let s := CacheSession.after history
      (∀ (g : Generation) (files : FileTree) (source : String),
        (g.run files s.cache).1 = .ok source →
        let whole := history ++ CacheSession.alone g files s.tasks.length
        (CacheSession.after whole).cache = (g.run files s.cache).2 ∧
          CacheSession.Serves whole (CacheSession.after whole) g.identity source) ∧
      ∀ (task : Nat) (files : FileTree) (t t' : GenerationTask) (source : String),
        s.tasks[task]? = some t → (∀ result, t.phase ≠ .finished result) →
        (s.advance task files).tasks[task]? = some t' → t'.phase = .finished (.ok source) →
        CacheSession.Serves (history ++ [.advance task files]) (s.advance task files)
          t.generation.identity source := by
  refine ⟨?_, fun history => ⟨?_, ?_⟩⟩
  · intro r options files body source made
    obtain ⟨expanded, spliced, follow, written⟩ := StageRequest.assemble_blocks made
    have unambiguous := Catalog.isUnambiguous_of_ofText accepted
    exact ⟨expanded, spliced, AssembledSource.isLaidOut_of_followUses unambiguous follow written⟩
  · intro g files source done
    exact CacheSession.serves_of_run history done
  · intro task files t t' source begun under next ended
    exact CacheSession.serves_of_advance begun under next ended

/-- A catalog document with an empty group and a group of one resource. -/
def skyDocument : String :=
  "\x7b\"shader_groups\":[],\"resource_groups\":[\x7b\"name\":\"Fog\"\x7d,\x7b\"name\":\"Sky\"," ++
    "\"resources\":[\x7b\"name\":\"sun\",\"kind\":\"sampler\",\"binding\":2\x7d]\x7d]\x7d"

def sun : Resource :=
  ⟨"sun", .sampler, 2, "Sky", .unknown, default, false, 0, "", [], "", 0, []⟩

def skyCatalog : Catalog :=
  ⟨[], [⟨"Fog", [], []⟩, ⟨"Sky", [sun], []⟩]⟩

/-- A body that uses the empty group before the other. -/
def skyBody : String :=
  "#pragma use_resource_block Fog\n#pragma use_resource_block Sky"

def skyGeneration : Generation :=
  ⟨default, ⟨.named "sky", .of .fragment, ⟨"sky"⟩, [], []⟩, skyCatalog, .standard⟩

def skyFiles : FileTree :=
  ⟨[(["sky"], .file skyBody.toUTF8 7)], [], []⟩

private theorem skyDocument_read :
    (Catalog.ofText skyDocument ⟨"."⟩).toOption = some skyCatalog := by
  decide +kernel

private theorem skyBody_groups :
    (skyGeneration.request.assemble skyCatalog .standard skyFiles skyBody).toOption.map
      (·.resourceGroups) = some ["Fog", "Sky"] := by
  decide +kernel

private theorem skyFiles_hold : (skyFiles.readText ⟨"sky"⟩).toOption = some skyBody ∧
    (skyFiles.modificationTime ⟨"sky"⟩).toOption = some 7 := by
  decide +kernel

theorem generated_layout_agrees_with_check_of_sky :
    Catalog.ofText skyDocument ⟨"."⟩ = .ok skyCatalog ∧
      ∃ source, skyGeneration.request.assemble skyCatalog .standard skyFiles skyBody = .ok source ∧
        source.resourceGroups = ["Fog", "Sky"] ∧
        StageContext.AcceptsOnly ⟨skyCatalog, "sky", source.resourceGroups⟩ sun 1 ∧
        (skyGeneration.run skyFiles (CacheSession.after []).cache).1 = .ok source.text ∧
        let whole := [] ++ CacheSession.alone skyGeneration skyFiles (CacheSession.after []).tasks.length
        CacheSession.Serves whole (CacheSession.after whole) skyGeneration.identity source.text := by
  have accepted : Catalog.ofText skyDocument ⟨"."⟩ = .ok skyCatalog :=
    Outcome.toOption_eq_some.mp skyDocument_read
  have agree := generated_layout_agrees_with_check accepted
  obtain ⟨source, made, groups⟩ := Option.map_eq_some_iff.mp skyBody_groups
  have made := Outcome.toOption_eq_some.mp made
  obtain ⟨_, _, laidOut⟩ := agree.1 _ _ _ _ source made
  refine ⟨accepted, source, made, groups, ?_, ?_⟩
  · obtain ⟨fog, _, blocks, first, others⟩ := List.map_eq_cons_iff.mp groups
    obtain ⟨sky, _, rfl, second, _⟩ := List.map_eq_cons_iff.mp others
    obtain ⟨g, declares, accepts⟩ := laidOut.declared 1 sky (by simp [blocks])
    have own : g = ⟨"Sky", [sun], []⟩ := by
      have known : skyCatalog.resourceGroup? "Sky" = some g := second ▸ declares.2.1
      exact (Option.some.inj known).symm
    refine (accepts sun (by simp [own]) fun earlier before => ?_).2 "sky"
    have only : earlier = fog := by
      simpa [blocks] using before
    rw [only, first]
    rfl
  · have run : skyGeneration.run skyFiles (CacheSession.after []).cache = (.ok source.text, _) :=
      Generation.run_of_assemble (Outcome.toOption_eq_some.mp skyFiles_hold.2) rfl
        (Outcome.toOption_eq_some.mp skyFiles_hold.1) made rfl
    have done : (skyGeneration.run skyFiles (CacheSession.after []).cache).1 = .ok source.text :=
      congrArg Prod.fst run
    exact ⟨done, ((agree.2 []).1 skyGeneration skyFiles source.text done).2⟩

end ShaderPipeline
