import ShaderPipeline.Proofs.Source.Versions

/-!
The fragments of a source, and its text.

Main statement: the text of a source is that of its fragments in order, each in lines of its own; they start with the
version and end with the body, and between them are one for each extension that is asked for, one for each constant and one
for each block.
-/

set_option autoImplicit false
set_option relaxedAutoImplicit false

namespace ShaderPipeline

open Outcome

namespace Fragment

private theorem exists_between (fragments : List Fragment) :
    ∃ between, arrange fragments = (arrange fragments).filter (·.kind == .version) ++ between ++
        (arrange fragments).filter (·.kind == .body) ∧
      ∀ f ∈ between, f.kind ≠ .version ∧ f.kind ≠ .body := by
  let kinds : List FragmentKind :=
    [.extension, .interfaceInput, .interfaceOutput, .perVertex, .specConstant, .resourceBlock]
  have ordered : FragmentKind.ordered = [.version] ++ kinds ++ [.body] := rfl
  refine ⟨kinds.flatMap fun kind => fragments.filter (·.kind == kind), ?_, ?_⟩
  · rw [filter_arrange, filter_arrange, arrange, ordered, List.flatMap_append, List.flatMap_append]
    simp only [List.flatMap_singleton]
  · intro f hf
    obtain ⟨kind, listed, hf⟩ := List.mem_flatMap.mp hf
    rw [kind_of_mem_filter hf]
    constructor
    · rintro rfl
      exact absurd listed (by decide)
    · rintro rfl
      exact absurd listed (by decide)

section Written

/-- Whether a piece is a text without the newline at its end, or all of the text if there is none. -/
def LessNewline (text piece : String) : Prop :=
  text = piece ++ "\n" ∨ text = piece ∧ ∀ rest, text ≠ rest ++ "\n"

private theorem exists_written (f : Fragment) : ∃ piece, LessNewline f.text piece ∧ f.written = piece ++ "\n" := by
  refine ⟨String.ofList (dropNewline f.text.toList), ?_, ?_⟩
  · unfold dropNewline
    split
    · rename_i last
      refine .inl (String.toList_injective ?_)
      rw [String.toList_append, String.toList_ofList]
      exact (List.dropLast_append_getLast? _ last).symm
    · rename_i last
      refine .inr ⟨(String.ofList_toList).symm, ?_⟩
      rintro rest whole
      apply last
      rw [whole]
      simp
  · exact String.toList_injective (by simp [written])

end Written

end Fragment

namespace StageRequest

variable {r : StageRequest} {catalog : Catalog} {options : SourceOptions} {files : FileTree}
  {body : String} {source : AssembledSource}

/-- What extensions a stage asks for, in order: those of the options, of the shader and of the request, and then the one
that line marks need. -/
def requested (r : StageRequest) (options : SourceOptions) : List String :=
  options.defaultExtensions ++ r.shader.extensions ++ r.extensions ++
    if options.lineDirectives then [lineMarkExtension] else []

/-- The text of a source is that of its fragments, each less the newline that it may end in, in lines of their own.  They
are in the order of their kinds, from the one version to the one body, with one for each constant, one for each block and
one for each extension that is asked for, in the order in which it is first asked for. -/
theorem text_is_fragments (done : r.assemble catalog options files body = .ok source) :
    (∃ pieces, List.Forall₂ (fun f piece => Fragment.LessNewline f.text piece) source.fragments pieces ∧
        source.text = String.join (pieces.map (· ++ "\n"))) ∧
      Fragment.Arranged source.fragments ∧
      (∃ version between text, source.fragments = [⟨.version, version⟩] ++ between ++ [⟨.body, text⟩] ∧
        ∀ f ∈ between, f.kind ≠ .version ∧ f.kind ≠ .body) ∧
      source.fragments.filter (·.kind == .specConstant) =
        source.constants.map (fun c => ⟨.specConstant, c.declaration⟩) ∧
      source.fragments.filter (·.kind == .resourceBlock) = source.blocks.map (fun b => ⟨.resourceBlock, b.text⟩) ∧
      ∃ names : List String, source.fragments.filter (·.kind == .extension) =
          names.map (fun e => ⟨.extension, s!"#extension {e} : require"⟩) ∧
        names.Nodup ∧ (∀ e, e ∈ names ↔ e ∈ r.requested options) ∧
        names.Pairwise fun a b => (r.requested options).idxOf a < (r.requested options).idxOf b := by
  obtain ⟨_, _, _, _, _, _, _, _, _, _, rfl, fragments, _⟩ := exists_passes_of_assemble done
  refine ⟨?_, ?_, ?_, ?_, ?_, r.extensionNames options, ?_, ?_, ?_, ?_⟩
  · choose piece less written using Fragment.exists_written
    refine ⟨source.fragments.map piece, ?_, ?_⟩
    · exact List.forall₂_map_right_iff.mpr (List.forall₂_same.mpr fun f _ => less f)
    · rw [text_of_assemble done, List.map_map]
      exact congrArg String.join (List.map_congr_left fun f _ => written f)
  · rw [fragments]
    exact Fragment.arranged_arrange _
  · obtain ⟨between, whole, kinds⟩ := Fragment.exists_between (r.pieces options _ _ source.constants source.blocks _)
    rw [filter_pieces .version, filter_pieces .body, ← fragments] at whole
    exact ⟨_, between, _, whole, kinds⟩
  · rw [fragments]
    exact filter_pieces .specConstant
  · rw [fragments]
    exact filter_pieces .resourceBlock
  · rw [fragments]
    exact filter_pieces .extension
  · exact nodup_eraseDups _
  · exact mem_eraseDups _
  · exact pairwise_idxOf_eraseDups _

/-- A stage that asks for an extension of its shader again. -/
def lantern : StageRequest :=
  ⟨⟨"lantern", [], ["GL_EXT_wick"], [], [], [], []⟩, .of .fragment, ⟨"lantern.frag"⟩, ["GL_EXT_wick", "GL_EXT_glass"], []⟩

/-- Options that ask for an extension and for line marks. -/
def lanternOptions : SourceOptions :=
  ⟨none, 450, ["GL_EXT_oil"], true⟩

def lanternCatalog : Catalog :=
  ⟨[], [⟨"Night", [⟨"moth", .sampler, 1, "Night", .unknown, default, false, 0, "", [], "", 0, []⟩], []⟩]⟩

def lanternBody : String :=
  "spec_const int N = 4;\n#pragma use_resource_block Night\nvoid main() \x7b\x7d\n"

private theorem lantern_assembled :
    (lantern.assemble lanternCatalog lanternOptions .empty lanternBody).toOption.map (fun source =>
      (source.constants.length, source.blocks.length)) = some (1, 1) := by
  decide +kernel

theorem text_is_fragments_of_lantern :
    ∃ source, lantern.assemble lanternCatalog lanternOptions .empty lanternBody = .ok source ∧
      source.constants.length = 1 ∧ source.blocks.length = 1 ∧
      (∃ pieces, List.Forall₂ (fun f piece => Fragment.LessNewline f.text piece) source.fragments pieces ∧
        source.text = String.join (pieces.map (· ++ "\n"))) ∧
      ∃ names : List String, source.fragments.filter (·.kind == .extension) =
          names.map (fun e => ⟨.extension, s!"#extension {e} : require"⟩) ∧
        names.Nodup ∧ ∀ e, e ∈ names ↔ e ∈ lantern.requested lanternOptions := by
  obtain ⟨source, assembled, shown⟩ := Option.map_eq_some_iff.mp lantern_assembled
  have done := toOption_eq_some.mp assembled
  simp only [Prod.mk.injEq] at shown
  obtain ⟨constants, blocks⟩ := shown
  obtain ⟨text, _, _, _, _, names, extensions, once, asked, _⟩ := text_is_fragments done
  exact ⟨source, done, constants, blocks, text, names, extensions, once, asked⟩

end StageRequest

end ShaderPipeline
