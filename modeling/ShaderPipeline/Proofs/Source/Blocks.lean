import ShaderPipeline.Proofs.Catalog.Acceptance
import ShaderPipeline.Proofs.Distinct
import ShaderPipeline.Proofs.Source.Uses
import ShaderPipeline.Source.Assembly

/-!
The blocks of a source: one for each resource group that its body uses.

A declaration gives the set and the binding of its resource in a layout qualifier.  The pass over block directives
keeps the blocks found so far laid out: the block at a place is that of a group of its own, declared in the set with
the number of the place.  Main statement: the blocks of an assembled source are those of the groups that its body
uses, each at the place of its first use.
-/

set_option autoImplicit false
set_option relaxedAutoImplicit false

namespace ShaderPipeline

open Outcome

namespace Resource

/-- The struct of the elements of an unbounded buffer, which is declared before the buffer. -/
def elementStruct (r : Resource) : String :=
  s!"struct {r.name}_element {braced (memberLines r.layout)};\n"

/-- Whether a text declares a resource in a set: it names the resource last, and its layout qualifier holds the
set and the binding of the resource, an attachment index before them and a memory layout or format after them. -/
def IsDeclaredIn (r : Resource) (set : Nat) (text : String) : Prop :=
  ∃ opening before after usage suffix,
    text = opening ++ "layout(" ++ before ++ s!"set = {set}, binding = {r.binding}" ++ after ++ ") " ++
      usage ++ r.name ++ suffix ++ ";" ∧
    (opening = "" ∨ r.isUnbounded ∧ opening = r.elementStruct) ∧
    (before = "" ∨ before = s!"input_attachment_index = {r.attachmentIndex}, ") ∧
    (after = "" ∨ after = ", std140" ∨ after = ", std430" ∨
      ∃ format, r.format.layoutQualifier? = some format ∧ after = ", " ++ format) ∧
    (suffix = "" ∨ suffix = r.arraySuffix)

variable {r : Resource} {set : Nat}

private theorem isDeclaredIn_of_eq {text : String} (after usage : String)
    (whole : text = "layout(" ++ s!"set = {set}, binding = {r.binding}" ++ after ++ ") " ++ usage ++
      r.name ++ r.arraySuffix ++ ";")
    (ending : after = "" ∨ after = ", std140" ∨ after = ", std430" ∨
      ∃ format, r.format.layoutQualifier? = some format ∧ after = ", " ++ format) :
    r.IsDeclaredIn set text :=
  ⟨"", "", after, usage, r.arraySuffix, by simpa using whole, .inl rfl, .inl rfl, ending, .inr rfl⟩

private theorem isDeclaredIn_of_format {text : String} (usage : String)
    (whole : text = "layout(" ++ (match r.format.layoutQualifier? with
        | some format => s!"set = {set}, binding = {r.binding}, {format}"
        | none => s!"set = {set}, binding = {r.binding}") ++ ") " ++ usage ++
      r.name ++ r.arraySuffix ++ ";") :
    r.IsDeclaredIn set text := by
  cases format : r.format.layoutQualifier? with
  | none =>
    refine isDeclaredIn_of_eq "" usage ?_ (.inl rfl)
    rw [whole, format, String.append_empty]
  | some name =>
    refine isDeclaredIn_of_eq (", " ++ name) usage ?_ (.inr (.inr (.inr ⟨name, format, rfl⟩)))
    rw [whole, format]
    apply String.ext
    simp [toString]

private theorem isDeclaredIn_of_declaration? {shader text : String} (descriptor : r.kind.isDescriptor)
    (declared : r.declaration? set shader = some text) : r.IsDeclaredIn set text := by
  unfold declaration? at declared
  cases kind : r.kind with
  | uniformBuffer =>
    simp only [kind, Option.some.injEq] at declared
    subst declared
    refine isDeclaredIn_of_eq ", std140"
      (s!"uniform {r.name}_block {braced (memberLines r.layout)} ") ?_ (.inr (.inl rfl))
    apply String.ext
    simp [toString]
  | storageBuffer =>
    simp only [kind] at declared
    split at declared
    · rename_i unbounded
      simp only [Option.some.injEq] at declared
      subst declared
      refine ⟨r.elementStruct, "", ", std430", ?_, "", ?_, .inr ⟨unbounded, rfl⟩, .inl rfl,
        .inr (.inr (.inl rfl)), .inl rfl⟩
      · exact s!"{qualifierText (r.qualifiersFor shader)}buffer {r.name}_block " ++
          braced s!"    {r.name}_element {r.name}_data[];\n" ++ " "
      · apply String.ext
        simp [toString, elementStruct]
    · simp only [Option.some.injEq] at declared
      subst declared
      refine isDeclaredIn_of_eq ", std430"
        (s!"{qualifierText (r.qualifiersFor shader)}buffer {r.name}_block " ++
          braced (memberLines r.layout) ++ " ") ?_ (.inr (.inr (.inl rfl)))
      apply String.ext
      simp [toString]
  | sampler =>
    simp only [kind, Option.some.injEq] at declared
    subst declared
    refine isDeclaredIn_of_eq "" "uniform sampler " ?_ (.inl rfl)
    apply String.ext
    simp [toString]
  | combinedImageSampler =>
    simp only [kind, Option.some.injEq] at declared
    subst declared
    refine isDeclaredIn_of_eq ""
      (s!"uniform {r.format.samplerMark}sampler{r.dimension.name} ") ?_ (.inl rfl)
    apply String.ext
    simp [toString]
  | sampledImage =>
    simp only [kind, Option.some.injEq] at declared
    subst declared
    refine isDeclaredIn_of_eq ""
      (s!"uniform {r.format.samplerMark}texture{r.dimension.name} ") ?_ (.inl rfl)
    apply String.ext
    simp [toString]
  | storageImage =>
    simp only [kind, Option.some.injEq] at declared
    subst declared
    refine isDeclaredIn_of_format
      (s!"{qualifierText (r.qualifiersFor shader)}uniform {r.format.samplerMark}image{r.dimension.name} ") ?_
    cases r.format.layoutQualifier? <;> exact String.ext (by simp [toString])
  | uniformTexelBuffer =>
    simp only [kind, Option.some.injEq] at declared
    subst declared
    refine isDeclaredIn_of_eq "" (s!"uniform {r.format.samplerMark}textureBuffer ") ?_ (.inl rfl)
    apply String.ext
    simp [toString]
  | storageTexelBuffer =>
    simp only [kind, Option.some.injEq] at declared
    subst declared
    refine isDeclaredIn_of_format
      (s!"{qualifierText (r.qualifiersFor shader)}uniform {r.format.samplerMark}imageBuffer ") ?_
    cases r.format.layoutQualifier? <;> exact String.ext (by simp [toString])
  | inputAttachment =>
    simp only [kind, Option.some.injEq] at declared
    subst declared
    refine ⟨"", s!"input_attachment_index = {r.attachmentIndex}, ", "",
      s!"uniform {r.format.samplerMark}subpassInput ", r.arraySuffix, ?_, .inl rfl, .inr rfl,
      .inl rfl, .inr rfl⟩
    apply String.ext
    simp [toString]
  | pushConstant => simp [kind, DescriptorKind.isDescriptor] at descriptor
  | accelerationStructure => simp [kind] at declared

end Resource

namespace ResourceBlock

open Directive (usedGroup?)

/-- Whether a block declares a group of a catalog in a set: each resource has its declaration, and those that take
bindings are declared at them. -/
def DeclaresGroup (catalog : Catalog) (shader : String) (set : Nat) (b : ResourceBlock)
    (g : ResourceGroup) : Prop :=
  b.set = set ∧ catalog.resourceGroup? b.group = some g ∧
    ∃ declarations, b.text = Text.joinLines declarations ∧
      List.Forall₂ (fun r text => r.declaration? set shader = some text ∧
        (r.kind.isDescriptor → r.IsDeclaredIn set text)) g.resources declarations

/-- Whether blocks follow the uses of groups: one for each group, in the order of first use, each in the set with the
number of its place. -/
structure FollowUses (catalog : Catalog) (shader : String) (uses : List String)
    (blocks : List ResourceBlock) : Prop where
  groups : blocks.map (·.group) = uses.eraseDups
  placed : ∀ place (b : ResourceBlock), blocks[place]? = some b →
    ∃ g, b.DeclaresGroup catalog shader place g

variable {catalog : Catalog} {shader name : String} {uses : List String}
  {blocks blocks' : List ResourceBlock} {b : ResourceBlock}

private theorem declaration_of_declare {r : Resource} {set : Nat} {text : String} :
    r.declare set shader = .ok text ↔ r.declaration? set shader = some text := by
  rw [Resource.declare]
  cases r.declaration? set shader <;> simp

private theorem declaresGroup_of_ofName {set : Nat} (made : ofName catalog name set shader = .ok b) :
    b.group = name ∧ ∃ g, b.DeclaresGroup catalog shader set g := by
  rw [ofName] at made
  split at made
  · rename_i g known
    obtain ⟨declarations, each, written⟩ := bind_eq_ok.mp made
    cases pure_eq_ok.mp written
    have named : g.name = name := (Catalog.name_of_resourceGroup? known).2
    refine ⟨named, g, rfl, named.symm ▸ known, declarations, rfl, ?_⟩
    refine (mapM_eq_ok.mp each).imp fun r text declared => ?_
    have known := declaration_of_declare.mp declared
    exact ⟨known, fun descriptor => Resource.isDeclaredIn_of_declaration? descriptor known⟩
  · cases made

namespace FollowUses

theorem nil (catalog : Catalog) (shader : String) : FollowUses catalog shader [] [] :=
  ⟨rfl, nofun⟩

private theorem mem_groups (h : FollowUses catalog shader uses blocks) :
    name ∈ blocks.map (·.group) ↔ name ∈ uses := by
  rw [h.groups, mem_eraseDups]

theorem again (h : FollowUses catalog shader uses blocks) (known : name ∈ uses) :
    FollowUses catalog shader (uses ++ [name]) blocks := by
  refine ⟨?_, h.placed⟩
  rw [eraseDups_concat, if_pos known, h.groups]

theorem first (h : FollowUses catalog shader uses blocks) (fresh : name ∉ uses)
    (made : ofName catalog name blocks.length shader = .ok b) :
    FollowUses catalog shader (uses ++ [name]) (blocks ++ [b]) := by
  obtain ⟨rfl, declares⟩ := declaresGroup_of_ofName made
  refine ⟨?_, fun place c at_place => ?_⟩
  · rw [eraseDups_concat, if_neg fresh, List.map_append, h.groups]
    rfl
  · rcases Nat.lt_trichotomy place blocks.length with before | rfl | beyond
    · rw [List.getElem?_append_left before] at at_place
      exact h.placed place c at_place
    · rw [List.getElem?_append_right (Nat.le_refl _)] at at_place
      simp only [Nat.sub_self, List.getElem?_cons_zero, Option.some.injEq] at at_place
      exact at_place ▸ declares
    · rw [List.getElem?_eq_none (by simp; omega)] at at_place
      cases at_place

end FollowUses

theorem extractFrom_cons {line : String} {rest ls' : List String}
    (done : extractFrom catalog shader blocks (line :: rest) = .ok (ls', blocks')) :
    ∃ kept further after, ls' = kept :: after ∧ extractFrom catalog shader further rest = .ok (after, blocks') ∧
      ((Directive.recognizeBlock line.toList = .ordinary ∧ kept = line ∧ further = blocks) ∨
        ∃ name, Directive.recognizeBlock line.toList = .directive name ∧ kept = "" ∧
          if blocks.any (·.group == name) then further = blocks
          else ∃ block, ofName catalog name blocks.length shader = .ok block ∧ further = blocks ++ [block]) := by
  obtain ⟨read, known, done⟩ := bind_eq_ok.mp done
  rcases Recognition.value?_eq_ok.mp known with ⟨recognized, rfl⟩ | ⟨name, recognized, rfl⟩
  · obtain ⟨⟨after, later⟩, tail, written⟩ := bind_eq_ok.mp done
    cases pure_eq_ok.mp written
    exact ⟨line, blocks, after, rfl, tail, .inl ⟨recognized, rfl, rfl⟩⟩
  · by_cases listed : blocks.any (·.group == name)
    · simp only [listed, if_true] at done
      obtain ⟨⟨after, later⟩, tail, written⟩ := bind_eq_ok.mp done
      cases pure_eq_ok.mp written
      exact ⟨"", blocks, after, rfl, tail, .inr ⟨name, recognized, rfl, by rw [if_pos listed]⟩⟩
    · simp only [listed, Bool.false_eq_true, if_false] at done
      obtain ⟨block, made, done⟩ := bind_eq_ok.mp done
      obtain ⟨⟨after, later⟩, tail, written⟩ := bind_eq_ok.mp done
      cases pure_eq_ok.mp written
      exact ⟨"", blocks ++ [block], after, rfl, tail,
        .inr ⟨name, recognized, rfl, by rw [if_neg listed]; exact ⟨block, made, rfl⟩⟩⟩

private theorem followUses_of_extractFrom {ls ls' : List String}
    (done : extractFrom catalog shader blocks ls = .ok (ls', blocks'))
    (h : FollowUses catalog shader uses blocks) :
    FollowUses catalog shader (uses ++ ls.filterMap usedGroup?) blocks' := by
  induction ls generalizing uses blocks ls' with
  | nil =>
    cases done
    simpa using h
  | cons line rest ih =>
    obtain ⟨kept, further, after, rfl, tail, fate⟩ := extractFrom_cons done
    rcases fate with ⟨recognized, _, rfl⟩ | ⟨name, recognized, _, fate⟩
    · have unused : usedGroup? line = none := by
        rw [usedGroup?, recognized]
      rw [List.filterMap_cons_none unused]
      exact ih tail h
    · have used : usedGroup? line = some name := by
        rw [usedGroup?, recognized]
      rw [List.filterMap_cons_some used, List.append_cons]
      by_cases old : name ∈ uses
      · have listed : blocks.any (·.group == name) := by
          simpa using h.mem_groups.mpr old
        rw [if_pos listed] at fate
        exact ih (fate ▸ tail) (h.again old)
      · have unlisted : ¬ blocks.any (·.group == name) := by
          simpa using fun b hb same => old (h.mem_groups.mp (List.mem_map.mpr ⟨b, hb, same⟩))
        rw [if_neg unlisted] at fate
        obtain ⟨block, made, rfl⟩ := fate
        exact ih tail (h.first old made)

end ResourceBlock

namespace Fragment

private theorem filter_kind (fragments : List Fragment) (kind kind' : FragmentKind) :
    (fragments.filter (·.kind == kind')).filter (·.kind == kind) =
      if kind' = kind then fragments.filter (·.kind == kind) else [] := by
  rw [List.filter_filter]
  split
  · rename_i same
    simp [same]
  · rename_i other
    refine List.filter_eq_nil_iff.mpr fun f _ both => other ?_
    have kinds : f.kind = kind ∧ f.kind = kind' := by
      simpa using both
    exact kinds.2.symm.trans kinds.1

private theorem filter_map_kind {α : Type} (text : α → String) (kind kind' : FragmentKind)
    (l : List α) :
    (l.map fun a => (⟨kind', text a⟩ : Fragment)).filter (·.kind == kind) =
      if kind' = kind then l.map fun a => ⟨kind', text a⟩ else [] := by
  rw [List.filter_map]
  split
  · rename_i same
    simp [same, Function.comp_def]
  · rename_i other
    simp [other, Function.comp_def]

theorem filter_arrange (fragments : List Fragment) (kind : FragmentKind) :
    (arrange fragments).filter (·.kind == kind) = fragments.filter (·.kind == kind) := by
  rw [arrange, List.filter_flatMap]
  simp only [filter_kind]
  cases kind <;> simp [FragmentKind.ordered]

end Fragment

namespace SourceAssembly

private theorem fragments_pushAll (a : SourceAssembly) (fragments : List Fragment) :
    (a.pushAll fragments).fragments = a.fragments ++ fragments := by
  induction fragments generalizing a with
  | nil => exact (List.append_nil _).symm
  | cons f fragments ih =>
    rw [pushAll, List.foldl_cons]
    refine (ih _).trans ?_
    rw [push, List.append_assoc, List.singleton_append]

end SourceAssembly

namespace StageRequest

variable {r : StageRequest} {catalog : Catalog} {options : SourceOptions} {files : FileTree}
  {body : String} {source : AssembledSource}

private theorem interfaceFragments_kind {shader : ShaderGroup} {stage : StageSet}
    {asked : InterfaceRequest} {f : Fragment} (hf : f ∈ interfaceFragments shader stage asked) :
    f.kind ∈ [.interfaceInput, .interfaceOutput, .perVertex] := by
  rw [interfaceFragments] at hf
  split at hf
  · rw [List.mem_singleton.mp hf]
    exact List.mem_cons_self
  · simp only [List.mem_append, List.mem_ite_nil_left, List.mem_ite_nil_right,
      List.mem_singleton] at hf
    rcases hf with (⟨_, rfl⟩ | ⟨_, rfl⟩) | ⟨_, rfl⟩ <;> simp

private theorem filter_interfaceFragments {shader : ShaderGroup} {stage : StageSet} {asked : InterfaceRequest}
    {kind : FragmentKind} (other : kind ∉ [.interfaceInput, .interfaceOutput, .perVertex]) :
    (interfaceFragments shader stage asked).filter (·.kind == kind) = [] := by
  refine List.filter_eq_nil_iff.mpr fun f hf same => other ?_
  have kinds : f.kind = kind := beq_iff_eq.mp same
  exact kinds ▸ interfaceFragments_kind hf

/-- What a source is made of, in the order in which it is made. -/
def pieces (r : StageRequest) (options : SourceOptions) (version : String) (asked : InterfaceRequest)
    (constants : List SourceConstant) (blocks : List ResourceBlock) (rest : String) : List Fragment :=
  [⟨.version, version⟩] ++ (r.extensionNames options).map (fun e => ⟨.extension, s!"#extension {e} : require"⟩) ++
    interfaceFragments r.shader r.stage asked ++ constants.map (fun c => ⟨.specConstant, c.declaration⟩) ++
    blocks.map (fun b => ⟨.resourceBlock, b.text⟩) ++ [⟨.body, r.bodyText options rest⟩]

theorem filter_pieces {version rest : String} {asked : InterfaceRequest} {constants : List SourceConstant}
    {blocks : List ResourceBlock} (kind : FragmentKind) :
    (Fragment.arrange (r.pieces options version asked constants blocks rest)).filter (·.kind == kind) =
      match kind with
      | .version => [⟨.version, version⟩]
      | .extension => (r.extensionNames options).map fun e => ⟨.extension, s!"#extension {e} : require"⟩
      | .specConstant => constants.map fun c => ⟨.specConstant, c.declaration⟩
      | .resourceBlock => blocks.map fun b => ⟨.resourceBlock, b.text⟩
      | .body => [⟨.body, r.bodyText options rest⟩]
      | kind => (interfaceFragments r.shader r.stage asked).filter (·.kind == kind) := by
  simp only [pieces, Fragment.filter_arrange, List.filter_append, Fragment.filter_map_kind]
  cases kind with
  | interfaceInput | interfaceOutput | perVertex => simp
  | version | extension | specConstant | resourceBlock | body =>
    rw [filter_interfaceFragments (by decide)]
    simp

theorem exists_passes_of_assemble (done : r.assemble catalog options files body = .ok source) :
    ∃ expanded outside plain rest asked, (r.includePlan options).expand files r.path body = .ok expanded ∧
      Extraction.interface (Text.lines (Text.unlines (Extraction.version (Text.lines expanded)).2)) =
        .ok (outside, asked) ∧
      Extraction.constants 0 (Text.lines (Text.unlines outside)) = .ok (plain, source.constants) ∧
      ResourceBlock.extract catalog r.shader.name (Text.lines (Text.unlines plain)) = .ok (rest, source.blocks) ∧
      ∃ pieces, pieces = r.pieces options
          ((Extraction.version (Text.lines expanded)).1.getD s!"#version {options.defaultVersion}") asked
          source.constants source.blocks (Text.unlines rest) ∧
        source.fragments = Fragment.arrange pieces ∧ source.text = SourceAssembly.text ⟨pieces⟩ := by
  obtain ⟨expanded, spliced, done⟩ := bind_eq_ok.mp done
  obtain ⟨⟨outside, asked⟩, interfaces, done⟩ := bind_eq_ok.mp done
  obtain ⟨⟨plain, found⟩, declarations, done⟩ := bind_eq_ok.mp done
  obtain ⟨⟨rest, blocks⟩, extracted, done⟩ := bind_eq_ok.mp done
  cases pure_eq_ok.mp done
  refine ⟨expanded, outside, plain, rest, asked, spliced, interfaces, declarations, extracted, _, rfl, ?_⟩
  have pushed : ∀ a : SourceAssembly, ∀ pieces, a.fragments = pieces →
      Fragment.arrange a.fragments = Fragment.arrange pieces ∧ a.text = SourceAssembly.text ⟨pieces⟩ := by
    rintro a pieces rfl
    exact ⟨rfl, rfl⟩
  refine pushed _ _ ?_
  simp only [SourceAssembly.push, SourceAssembly.fragments_pushAll, SourceAssembly.empty, pieces, List.nil_append]

/-- The blocks of a source follow the uses of its body, with all includes spliced, and make up its block
fragments. -/
theorem assemble_blocks (done : r.assemble catalog options files body = .ok source) :
    ∃ expanded, (r.includePlan options).expand files r.path body = .ok expanded ∧
      ResourceBlock.FollowUses catalog r.shader.name
        (Directive.usedGroups false (Text.lines expanded)) source.blocks ∧
      source.fragments.filter (·.kind == .resourceBlock) =
        source.blocks.map fun b => ⟨.resourceBlock, b.text⟩ := by
  obtain ⟨expanded, outside, plain, rest, asked, spliced, interfaces, declarations, extracted, _, rfl, fragments, _⟩ :=
    exists_passes_of_assemble done
  refine ⟨expanded, spliced, ?_, ?_⟩
  · have follow := ResourceBlock.followUses_of_extractFrom extracted (.nil ..)
    rwa [Extraction.uses_of_passes interfaces declarations] at follow
  · rw [fragments]
    exact filter_pieces .resourceBlock

end StageRequest

end ShaderPipeline
