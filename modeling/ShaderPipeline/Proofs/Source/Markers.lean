import ShaderPipeline.Proofs.Source.Blocks
import ShaderPipeline.Proofs.Source.Families

/-!
Which directives are left in an assembled source.

Each pass over a body takes out the directives of its family, and brings none of another family: it leaves lines as
they are, or empty.  So the body fragment is free from all families.  Lines of override regions are taken out before
constants and block directives are read, and written as they are.  Main statement: the body fragment of a source is
free from all directives, and the fragment of its override regions from include and interface directives, but from
constants and block directives only if the regions are.
-/

set_option autoImplicit false
set_option relaxedAutoImplicit false

namespace ShaderPipeline

open Outcome

namespace Extraction

variable {family : DirectiveFamily} {taken : String → Prop} {ls ls' : List String} {text : String}

theorem Blanks.passes (h : Blanks taken ls ls') (free : ∀ l ∈ ls, family.Passes l.toList) :
    ∀ l ∈ ls', family.Passes l.toList := by
  induction h with
  | nil => exact nofun
  | cons first _ ih =>
    obtain ⟨own, others⟩ := List.forall_mem_cons.mp free
    refine List.forall_mem_cons.mpr ⟨?_, ih others⟩
    rcases first with rfl | ⟨rfl, _⟩
    · exact own
    · exact DirectiveFamily.passes_nil family

private theorem Blanks.freeFrom_of_passes (h : Blanks taken (Text.lines text) ls')
    (pass : ∀ l ∈ ls', family.Passes l.toList) : family.FreeFrom (Text.unlines ls') := by
  have lines : ∀ l ∈ ls', '\n' ∉ l.toList := h.newline_free fun _ => Text.newline_free_of_mem_lines
  exact (DirectiveFamily.freeFrom_unlines lines).mpr pass

private theorem Blanks.freeFrom (h : Blanks taken (Text.lines text) ls') (free : family.FreeFrom text) :
    family.FreeFrom (Text.unlines ls') :=
  h.freeFrom_of_passes (h.passes free)

private theorem constants_pass {first : UInt32} {found : List SourceConstant}
    (done : constants first ls = .ok (ls', found)) : ∀ l ∈ ls', DirectiveFamily.constants.Passes l.toList := by
  induction ls generalizing first ls' found with
  | nil =>
    cases done
    exact nofun
  | cons line rest ih =>
    obtain ⟨kept, first', later, after, rfl, tail, fate⟩ := constants_cons done
    refine List.forall_mem_cons.mpr ⟨?_, ih tail⟩
    rcases fate with ⟨recognized, rfl⟩ | ⟨_, _, rfl⟩
    · exact recognized
    · exact DirectiveFamily.passes_nil .constants

/-- What is left of a line by the pass over interface directives, and what goes to the region that is open, is none of
them. -/
private theorem interfaceFrom_passes {region : Option (List String)} {request asked : InterfaceRequest}
    (done : interfaceFrom region request ls = .ok (ls', asked)) :
    ∀ l ∈ ls', DirectiveFamily.interfaces.Passes l.toList := by
  induction ls generalizing region request ls' with
  | nil =>
    cases region with
    | none =>
      cases done
      exact nofun
    | some lines => cases done
  | cons line rest ih =>
    obtain ⟨kept, region', request', after, rfl, tail, fate⟩ := interfaceFrom_cons done
    refine List.forall_mem_cons.mpr ⟨?_, ih tail⟩
    have empty := DirectiveFamily.passes_nil .interfaces
    cases recognized : Directive.recognizeInterface line.toList with
    | ordinary =>
      rw [recognized] at fate
      rw [fate.1]
      split
      · exact empty
      · exact recognized
    | malformed =>
      rw [recognized] at fate
      exact fate.elim
    | directive d =>
      rw [recognized] at fate
      cases d <;> exact fate.1 ▸ empty

private theorem override_of_interfaceFrom {P : String → Prop} {region : Option (List String)}
    {request asked : InterfaceRequest} (done : interfaceFrom region request ls = .ok (ls', asked))
    (own : ∀ l ∈ ls, DirectiveFamily.interfaces.Passes l.toList → P l)
    (opened : ∀ lines, region = some lines → ∀ l ∈ lines, P l)
    (closed : ∀ lines, request.override = some lines → ∀ l ∈ lines, P l) :
    ∀ lines, asked.override = some lines → ∀ l ∈ lines, P l := by
  induction ls generalizing region request ls' with
  | nil =>
    cases region with
    | none =>
      cases done
      exact closed
    | some lines => cases done
  | cons line rest ih =>
    obtain ⟨first, others⟩ := List.forall_mem_cons.mp own
    obtain ⟨kept, region', request', after, _, tail, fate⟩ := interfaceFrom_cons done
    cases recognized : Directive.recognizeInterface line.toList with
    | malformed =>
      rw [recognized] at fate
      exact fate.elim
    | ordinary =>
      rw [recognized] at fate
      obtain ⟨_, rfl, rfl⟩ := fate
      refine ih tail others (fun lines known => ?_) closed
      obtain ⟨before, known', rfl⟩ := Option.map_eq_some_iff.mp known
      intro l hl
      rcases List.mem_append.mp hl with old | new
      · exact opened before known' l old
      · rw [List.mem_singleton.mp new]
        exact first recognized
    | directive d =>
      rw [recognized] at fate
      cases d with
      | overrideBegin =>
        obtain ⟨_, _, rfl, rfl⟩ := fate
        refine ih tail others (fun lines known => ?_) closed
        cases known
        exact nofun
      | overrideEnd =>
        obtain ⟨_, lines, known, rfl, rfl⟩ := fate
        refine ih tail others nofun fun all whole => ?_
        have joined : request.override.getD [] ++ lines = all := Option.some.inj whole
        rw [← joined]
        intro l hl
        rcases List.mem_append.mp hl with old | new
        · cases before : request.override with
          | none => simp [before] at old
          | some lines' =>
            rw [before] at old
            exact closed lines' before l old
        · exact opened lines known l new
      | noFragmentOutput =>
        obtain ⟨_, rfl, rfl⟩ := fate
        exact ih tail others opened closed

end Extraction

namespace ResourceBlock

variable {catalog : Catalog} {shader : String} {blocks blocks' : List ResourceBlock} {ls ls' : List String}

private theorem blanks_of_extractFrom (done : extractFrom catalog shader blocks ls = .ok (ls', blocks')) :
    Extraction.Blanks (fun _ => True) ls ls' ∧ ∀ l ∈ ls', DirectiveFamily.blocks.Passes l.toList := by
  induction ls generalizing blocks ls' with
  | nil =>
    cases done
    exact ⟨.nil, nofun⟩
  | cons line rest ih =>
    obtain ⟨kept, further, after, rfl, tail, fate⟩ := extractFrom_cons done
    obtain ⟨blanks, pass⟩ := ih tail
    rcases fate with ⟨recognized, rfl, _⟩ | ⟨_, _, rfl, _⟩
    · exact ⟨.cons (.inl rfl) blanks, List.forall_mem_cons.mpr ⟨recognized, pass⟩⟩
    · exact ⟨.cons (.inr ⟨rfl, trivial⟩) blanks,
        List.forall_mem_cons.mpr ⟨DirectiveFamily.passes_nil .blocks, pass⟩⟩

end ResourceBlock

theorem toList_lineMark (number : Nat) (file : String) :
    (lineMark number file).toList =
      "#line ".toList ++ ((toString number).toList ++ (" \"".toList ++ (file.toList ++ ['"']))) := by
  have written : lineMark number file = "#line " ++ toString number ++ " \"" ++ file ++ "\"" := rfl
  rw [written]
  simp

theorem passes_lineMark (family : DirectiveFamily) (number : Nat) (file : String) :
    family.Passes (lineMark number file).toList := by
  rw [toList_lineMark]
  exact DirectiveFamily.passes_of_unnamed rfl rfl rfl family

theorem newline_free_toString (number : Nat) : '\n' ∉ (toString number).toList := by
  intro newline
  rw [Nat.toString_eq_repr, Nat.toList_repr] at newline
  have digit := Nat.isDigit_of_mem_toDigits (by decide) (by decide) newline
  exact absurd digit (by decide)

theorem newline_free_lineMark (number : Nat) {file : String} (line : '\n' ∉ file.toList) :
    '\n' ∉ (lineMark number file).toList := by
  rw [toList_lineMark]
  simp only [List.mem_append, not_or]
  exact ⟨by decide, newline_free_toString number, by decide, line, by decide⟩

namespace IncludePlan

variable {plan : IncludePlan} {files : FileTree} {path found : Path} {included : String} {target : Include}

private theorem isFile_of_fetch (fetched : plan.fetch files target path = .ok (found, included)) : files.isFile found := by
  rw [fetch] at fetched
  split at fetched
  · cases fetched
  · rename_i candidate resolved
    have isFile : files.isFile candidate := List.find?_some resolved
    split at fetched
    · cases fetched
      exact isFile
    · cases fetched
    · cases fetched

/-- Whether every line mark that is written is one line. -/
def MarksStayLines (plan : IncludePlan) (files : FileTree) (path : Path) : Prop :=
  plan.marksLines = true → '\n' ∉ path.markName.toList ∧ ∀ p, files.isFile p → '\n' ∉ p.markName.toList

theorem passes_of_splice (levels : Nat) (path : Path) (text : String) {ls : List String}
    (marks : plan.MarksStayLines files path) (done : plan.splice files levels path text = .ok ls) :
    ∀ l ∈ ls, '\n' ∉ l.toList ∧ DirectiveFamily.includes.Passes l.toList := by
  induction levels generalizing path text ls with
  | zero => cases done
  | succ levels ih =>
    obtain ⟨parts, each, written⟩ := bind_eq_ok.mp done
    cases pure_eq_ok.mp written
    intro l hl
    obtain ⟨part, hpart, hl⟩ := List.mem_flatten.mp hl
    obtain ⟨⟨line, index⟩, hline, made⟩ := exists_of_mapM_eq_ok each hpart
    obtain ⟨read, known, made⟩ := bind_eq_ok.mp made
    have own : line ∈ Text.lines text := List.fst_mem_of_mem_zipIdx hline
    rcases Recognition.value?_eq_ok.mp known with ⟨recognized, rfl⟩ | ⟨target, _, rfl⟩
    · cases pure_eq_ok.mp made
      obtain rfl := List.mem_singleton.mp hl
      exact ⟨Text.newline_free_of_mem_lines own, recognized⟩
    · obtain ⟨⟨found, included⟩, fetched, made⟩ := bind_eq_ok.mp made
      obtain ⟨inner, spliced, made⟩ := bind_eq_ok.mp made
      have isFile := isFile_of_fetch fetched
      have marks' : plan.MarksStayLines files found := fun marked =>
        ⟨(marks marked).2 found isFile, (marks marked).2⟩
      have later := ih found included marks' spliced
      split at made
      · rename_i marked
        cases pure_eq_ok.mp made
        rcases List.mem_cons.mp hl with rfl | hl
        · exact ⟨newline_free_lineMark _ ((marks marked).2 found isFile), passes_lineMark _ _ _⟩
        · rcases List.mem_append.mp hl with hl | hl
          · exact later l hl
          · rw [List.mem_singleton.mp hl]
            exact ⟨newline_free_lineMark _ (marks marked).1, passes_lineMark _ _ _⟩
      · cases pure_eq_ok.mp made
        exact later l hl

theorem freeFrom_expand {body expanded : String} (marks : plan.MarksStayLines files path)
    (done : plan.expand files path body = .ok expanded) : DirectiveFamily.includes.FreeFrom expanded := by
  rw [expand, map_eq_ok] at done
  obtain ⟨ls, spliced, rfl⟩ := done
  have lines := passes_of_splice _ path body marks spliced
  exact (DirectiveFamily.freeFrom_unlines fun l hl => (lines l hl).1).mpr fun l hl => (lines l hl).2

end IncludePlan

namespace StageRequest

variable {r : StageRequest} {catalog : Catalog} {options : SourceOptions} {files : FileTree}
  {body : String} {source : AssembledSource}

/-- What the interface directives of a body ask for when its includes are spliced. -/
def interfaceRequest (r : StageRequest) (options : SourceOptions) (files : FileTree) (body : String) :
    Except SourceError InterfaceRequest := do
  let expanded ← (r.includePlan options).expand files r.path body
  let (_, rest) := Extraction.version (Text.lines expanded)
  let (_, asked) ← Extraction.interface (Text.lines (Text.unlines rest))
  pure asked

private theorem freeFrom_bodyText {family : DirectiveFamily} {rest : String}
    (marks : (r.includePlan options).MarksStayLines files r.path) (free : family.FreeFrom rest) :
    family.FreeFrom (r.bodyText options rest) := by
  have trimmed := DirectiveFamily.freeFrom_trimEnd free
  rw [bodyText]
  split
  · rename_i marked
    have line := newline_free_lineMark 1 (marks marked).1
    exact (DirectiveFamily.freeFrom_append line).mpr ⟨passes_lineMark family 1 _, trimmed⟩
  · exact trimmed

private theorem filter_interfaceInput {asked : InterfaceRequest} {lines : List String}
    (override : asked.override = some lines) :
    (interfaceFragments r.shader r.stage asked).filter (·.kind == .interfaceInput) =
      [⟨.interfaceInput, Text.joinLines lines⟩] := by
  rw [interfaceFragments, override]
  rfl

/-- No directive reaches the body fragment.  Of the directives in override regions, include and interface directives
do not reach the interface fragment, and constants and block directives do. -/
theorem directives_left_in_source (marks : (r.includePlan options).MarksStayLines files r.path)
    (done : r.assemble catalog options files body = .ok source) :
    (∃ text, source.fragments.filter (·.kind == .body) = [⟨.body, text⟩] ∧
      ∀ family : DirectiveFamily, family.FreeFrom text) ∧
    ∃ asked, r.interfaceRequest options files body = .ok asked ∧
      ∀ lines, asked.override = some lines →
        source.fragments.filter (·.kind == .interfaceInput) = [⟨.interfaceInput, Text.joinLines lines⟩] ∧
          DirectiveFamily.includes.FreeFrom (Text.joinLines lines) ∧
          DirectiveFamily.interfaces.FreeFrom (Text.joinLines lines) ∧
          ∀ family : DirectiveFamily,
            family.FreeFrom (Text.joinLines lines) ↔ ∀ l ∈ lines, family.Passes l.toList := by
  obtain ⟨expanded, outside, plain, rest, asked, spliced, interfaces, declarations, extracted, _, rfl, fragments, _⟩ :=
    exists_passes_of_assemble done
  have versions := Extraction.version_blanks (Text.lines expanded)
  have outsides := Extraction.interfaceFrom_blanks interfaces
  have plains := Extraction.constants_blanks declarations
  obtain ⟨rests, blocksPass⟩ := ResourceBlock.blanks_of_extractFrom extracted
  have includesFree := versions.freeFrom (IncludePlan.freeFrom_expand marks spliced)
  refine ⟨⟨r.bodyText options (Text.unlines rest), ?_, fun family => freeFrom_bodyText marks ?_⟩,
    asked, ?_, fun lines override => ?_⟩
  · rw [fragments]
    exact filter_pieces .body
  · -- Each family is taken out by its pass, and the passes after it bring none of it back.
    cases family with
    | includes => exact rests.freeFrom (plains.freeFrom (outsides.freeFrom includesFree))
    | interfaces =>
      have interfacesFree := outsides.freeFrom_of_passes (Extraction.interfaceFrom_passes interfaces)
      exact rests.freeFrom (plains.freeFrom interfacesFree)
    | constants => exact rests.freeFrom (plains.freeFrom_of_passes (Extraction.constants_pass declarations))
    | blocks => exact rests.freeFrom_of_passes blocksPass
  · simp only [interfaceRequest, spliced, interfaces, bind, Except.bind, pure, Except.pure]
  · have regions : ∀ l ∈ lines, ('\n' ∉ l.toList ∧ DirectiveFamily.includes.Passes l.toList) ∧
        DirectiveFamily.interfaces.Passes l.toList := by
      refine Extraction.override_of_interfaceFrom interfaces (fun l hl pass => ?_) nofun nofun lines override
      exact ⟨⟨Text.newline_free_of_mem_lines hl, includesFree l hl⟩, pass⟩
    have free : ∀ family : DirectiveFamily,
        family.FreeFrom (Text.joinLines lines) ↔ ∀ l ∈ lines, family.Passes l.toList :=
      fun _ => DirectiveFamily.freeFrom_joinLines fun l hl => (regions l hl).1.1
    refine ⟨?_, (free .includes).mpr fun l hl => (regions l hl).1.2,
      (free .interfaces).mpr fun l hl => (regions l hl).2, free⟩
    rw [fragments]
    exact (filter_pieces .interfaceInput).trans (filter_interfaceInput override)

def duskAt (path : String) : StageRequest :=
  ⟨⟨"dusk", [], [], [], [], [], []⟩, .of .vertex, ⟨path⟩, [], []⟩

/-- A body with a constant and a block directive in an override region. -/
def regionBody : String :=
  Text.joinLines ["#pragma interface_override begin", "spec_const int N = 4;",
    "#pragma use_resource_block Frame", "#pragma interface_override end", "void main() \x7b\x7d"]

def regionText : String :=
  "spec_const int N = 4;\n#pragma use_resource_block Frame"

private theorem assemble_regionBody :
    ((duskAt "dusk.vert").assemble ⟨[], []⟩ .standard .empty regionBody).toOption.map (·.fragments) =
      some [⟨.version, "#version 450"⟩, ⟨.interfaceInput, regionText⟩,
        ⟨.body, "\n\n\n\nvoid main() \x7b\x7d"⟩] := by
  decide +kernel

theorem directives_left_in_source_of_regionBody :
    ((duskAt "dusk.vert").includePlan .standard).MarksStayLines .empty (duskAt "dusk.vert").path ∧
    ∃ source, (duskAt "dusk.vert").assemble ⟨[], []⟩ .standard .empty regionBody = .ok source ∧
      ∃ text, source.fragments.filter (·.kind == .body) = [⟨.body, text⟩] ∧
        ∀ family : DirectiveFamily, family.FreeFrom text := by
  have marks : ((duskAt "dusk.vert").includePlan .standard).MarksStayLines .empty (duskAt "dusk.vert").path :=
    nofun
  obtain ⟨source, assembled, _⟩ := Option.map_eq_some_iff.mp assemble_regionBody
  have done := toOption_eq_some.mp assembled
  exact ⟨marks, source, done, (directives_left_in_source marks done).1⟩

def brokenMark : String :=
  "#line 1 \"dusk\nspec_const int N = 4;\n.vert\"\nvoid main() \x7b\x7d"

/-- Constants and block directives of override regions reach the interface fragment, and a line mark for a name of
several lines brings the others of them into the body fragment. -/
theorem directives_reach_source :
    (((duskAt "dusk.vert").assemble ⟨[], []⟩ .standard .empty regionBody).toOption.map (·.fragments) =
        some [⟨.version, "#version 450"⟩, ⟨.interfaceInput, regionText⟩,
          ⟨.body, "\n\n\n\nvoid main() \x7b\x7d"⟩] ∧
      ¬ DirectiveFamily.constants.FreeFrom regionText ∧ ¬ DirectiveFamily.blocks.FreeFrom regionText) ∧
    ((duskAt "dusk\nspec_const int N = 4;\n.vert").assemble ⟨[], []⟩
        { SourceOptions.standard with lineDirectives := true } .empty "void main() \x7b\x7d").toOption.map
          (·.fragments.filter (·.kind == .body)) = some [⟨.body, brokenMark⟩] ∧
      ¬ DirectiveFamily.constants.FreeFrom brokenMark := by
  refine ⟨⟨assemble_regionBody, ?_, ?_⟩, ?_, ?_⟩
  · decide +kernel
  · decide +kernel
  · decide +kernel
  · decide +kernel

end StageRequest

end ShaderPipeline
