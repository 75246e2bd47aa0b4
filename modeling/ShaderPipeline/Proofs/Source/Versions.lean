import ShaderPipeline.Proofs.Source.Arrangement
import ShaderPipeline.Proofs.Source.Markers
import ShaderPipeline.Proofs.Source.Passes

/-!
The version of a source, and the version lines that stay in its body.

The version is the first version line of a body, if no code stands before it, and only that line is taken out.  The
passes after it take out no version line, unless one stands in an override region; it does not when all version lines
stand before all code.  Main statement: then a source starts with its one version, and the version lines of its body
fragment are those of the body, with its includes spliced, but for the first.
-/

set_option autoImplicit false
set_option relaxedAutoImplicit false

namespace ShaderPipeline

open Outcome

namespace Directive

theorem OpensPragma.isCode {line : List Char} (h : OpensPragma line) :
    Extraction.isCode (Text.dropBlankEnds line) := by
  obtain ⟨between, after, opening, _⟩ := h.dropBlankStart
  have some' : Text.dropBlankEnds line ≠ [] := by
    intro blank
    rw [Text.dropBlankEnds, opening, Text.dropBlankEnd_eq_nil] at blank
    have mark := blank '#' List.mem_cons_self
    exact absurd mark (by decide)
  have comment : ¬ Extraction.startsWith "//" (Text.dropBlankEnds line) := by
    intro starts
    obtain ⟨rest, opening'⟩ := exists_of_startsWith starts
    cases opening.symm.trans opening'
  have mark : ¬ Extraction.startsWith "#line" (Text.dropBlankEnds line) := by
    intro starts
    obtain ⟨rest, opening'⟩ := exists_of_startsWith starts
    have second : isGap 'l' ∨ 'l' = 'p' := h.second opening'
    exact absurd second (by decide)
  simp [Extraction.isCode, some', comment, mark]

end Directive

namespace Extraction

open Text (bare)

def isVersion (line : String) : Bool :=
  startsWith "#version" (Text.dropBlankEnds line.toList)

/-- Whether a line may stand before a version: it is empty, a comment, a line mark or a version. -/
def mayLead (line : String) : Bool :=
  isVersion line || !isCode (Text.dropBlankEnds line.toList)

/-- The version lines among some lines, trimmed. -/
def versionLines (ls : List String) : List String :=
  (ls.filter isVersion).map Text.trim

/-- Whether nothing stands before a version line but what may. -/
def VersionsLead (ls : List String) : Prop :=
  ∀ i, LineAt (isVersion ·) ls i → ∀ k < i, LineAt (mayLead ·) ls k

variable {ls ls' : List String} {line line' : String} {i : Nat}

private theorem isVersion_congr (same : Text.trim line = Text.trim line') : isVersion line = isVersion line' := by
  have ends : Text.dropBlankEnds line.toList = Text.dropBlankEnds line'.toList := String.ofList_injective same
  rw [isVersion, isVersion, ends]

private theorem lineAt_isVersion : LineAt (isVersion ·) ls i ↔ isVersion (ls[i]?.getD "") := by
  have empty : isVersion "" = false := by decide
  cases listed : ls[i]? with
  | none => simp [LineAt, listed, empty]
  | some line => simp [LineAt, listed]

private theorem versionLines_cons (line : String) (ls : List String) :
    versionLines (line :: ls) = if isVersion line then Text.trim line :: versionLines ls else versionLines ls := by
  rw [versionLines, List.filter_cons]
  split <;> rfl

private theorem versionLines_eq_nil (none' : ∀ i : Nat, ¬ isVersion (ls[i]?.getD "")) : versionLines ls = [] := by
  rw [versionLines, List.map_eq_nil_iff, List.filter_eq_nil_iff]
  intro l hl
  obtain ⟨i, listed⟩ := List.mem_iff_getElem?.mp hl
  simpa [listed] using none' i

private theorem versionLines_congr
    (same : ∀ i : Nat, isVersion (ls[i]?.getD "") ∨ isVersion (ls'[i]?.getD "") →
      Text.trim (ls[i]?.getD "") = Text.trim (ls'[i]?.getD "")) : versionLines ls = versionLines ls' := by
  induction ls generalizing ls' with
  | nil =>
    refine (versionLines_eq_nil fun i version => ?_).symm
    rw [← isVersion_congr (same i (.inr version))] at version
    cases version
  | cons line ls ih =>
    cases ls' with
    | nil =>
      refine versionLines_eq_nil fun i version => ?_
      rw [isVersion_congr (same i (.inl version))] at version
      cases version
    | cons line' ls' =>
      have rest := ih fun i => same (i + 1)
      have first : isVersion line ∨ isVersion line' → Text.trim line = Text.trim line' := same 0
      rw [versionLines_cons, versionLines_cons, rest]
      by_cases version : isVersion line ∨ isVersion line'
      · rw [isVersion_congr (first version), first version]
      · obtain ⟨plain, plain'⟩ := not_or.mp version
        rw [if_neg plain, if_neg plain']

private theorem versionsLead_cons : VersionsLead (line :: ls) ↔
    VersionsLead ls ∧ (mayLead line ∨ ∀ l ∈ ls, ¬ isVersion l) := by
  constructor
  · intro lead
    refine ⟨fun i version k before => lead (i + 1) version (k + 1) (Nat.succ_lt_succ before), ?_⟩
    by_contra neither
    obtain ⟨code, versions⟩ := not_or.mp neither
    refine versions fun l hl version => code ?_
    obtain ⟨i, listed⟩ := List.mem_iff_getElem?.mp hl
    exact lineAt_zero.mp (lead (i + 1) ⟨l, listed, version⟩ 0 i.succ_pos)
  · rintro ⟨lead, first⟩ i version k before
    obtain ⟨i, rfl⟩ := Nat.exists_eq_add_one.mpr (Nat.zero_lt_of_lt before)
    cases k with
    | succ k => exact lead i version k (Nat.lt_of_succ_lt_succ before)
    | zero =>
      obtain ⟨l, listed, opens⟩ := version
      exact lineAt_zero.mpr (first.resolve_right fun none' => none' l (List.mem_of_getElem? listed) opens)

private theorem versionsLead_nil : VersionsLead [] := by
  rintro i ⟨l, listed, _⟩
  cases listed

instance decidableVersionsLead : (ls : List String) → Decidable (VersionsLead ls)
  | [] => isTrue versionsLead_nil
  | _ :: ls =>
      have : Decidable (VersionsLead ls) := decidableVersionsLead ls
      decidable_of_iff _ versionsLead_cons.symm

private theorem version_of_versionsLead (lead : VersionsLead ls) :
    (version ls).1 = (versionLines ls).head? ∧ versionLines (version ls).2 = (versionLines ls).tail := by
  induction ls with
  | nil => exact ⟨rfl, rfl⟩
  | cons line rest ih =>
    obtain ⟨lead, first⟩ := versionsLead_cons.mp lead
    rw [version, versionLines_cons]
    split
    · rename_i opens
      have opens : isVersion line := opens
      rw [if_pos opens, versionLines_cons]
      exact ⟨rfl, rfl⟩
    · rename_i closed
      have closed : ¬ isVersion line := closed
      rw [if_neg closed]
      split
      · rename_i code
        have none' : versionLines rest = [] := by
          have plain : ¬ mayLead line := by simp [mayLead, closed, code]
          rw [versionLines, List.filter_eq_nil_iff.mpr (first.resolve_left plain)]
          rfl
        simp only [versionLines_cons, if_neg closed, none']
        exact ⟨rfl, rfl⟩
      · simp only [versionLines_cons, if_neg closed]
        exact ih lead

private theorem passes_of_version (version : isVersion line) (family : DirectiveFamily) : family.Passes line.toList := by
  have plain := Directive.not_opensPragma_of_version version
  obtain ⟨rest, opening⟩ := Directive.exists_of_startsWith version
  refine DirectiveFamily.passes_of_unnamed (Directive.pragmaName?_of_not_opensPragma plain) ?_ ?_ family
  · rw [Directive.opensWith, opening]
    rfl
  · rw [Directive.opensWith, opening]
    rfl

private theorem not_inRegion_of_versionsLead (lead : VersionsLead ls) (version : LineAt (isVersion ·) ls i) :
    ¬ InRegion (ls.map bare) i := by
  rintro ⟨k, before, ⟨l, listed, begins⟩, _⟩
  obtain ⟨line, listed', rfl⟩ : ∃ line, ls[k]? = some line ∧ bare line = l := by simpa using listed
  have pragma : Directive.OpensPragma line.toList := by
    by_contra plain
    have ordinary := Directive.recognizeInterface_of_not_opensPragma (Directive.not_opensPragma_bare plain)
    cases ordinary.symm.trans begins
  obtain ⟨line', again, leads⟩ := lead i version k before
  obtain rfl := Option.some.inj (listed'.symm.trans again)
  have plain : ¬ isVersion line := fun opens => Directive.not_opensPragma_of_version opens pragma
  simp [mayLead, plain, pragma.isCode] at leads

private theorem versionAt_of_takenAt (lead : VersionsLead ls) (version : LineAt (isVersion ·) ls i) (taken : TakenAt ls i) :
    VersionAt ls i := by
  have outside := not_inRegion_of_versionsLead lead version
  obtain ⟨line, listed, opens⟩ := version
  exact (versionAt_or_inRegion_of_takenAt (passes_of_version opens) listed taken).resolve_right outside

private theorem versionLines_of_passes {text : String} {rest : List String} (lead : VersionsLead (Text.lines text))
    (h : EmptiedAt (TakenAt (Text.lines text)) ((((Text.lines text).map bare).map bare).map bare) rest) :
    versionLines (Text.lines (Text.trimEnd (Text.unlines rest))) = (versionLines (Text.lines text)).tail := by
  rw [← (version_of_versionsLead lead).2]
  have first := version_emptiedAt (Text.lines text)
  refine versionLines_congr fun i version => ?_
  obtain ⟨out, stays⟩ := lineAt_of_emptiedAt h i
  rw [← Text.lineAt_trimEnd] at out stays
  by_cases taken : TakenAt (Text.lines text) i
  · have empty : Text.trim ((Text.lines (Text.trimEnd (Text.unlines rest)))[i]?.getD "") = Text.trim "" := by
      rw [← Text.trim_trimEnd]
      exact congrArg Text.trim (out taken)
    -- Only the version is a version line that is taken out, and the first pass has left it empty, too.
    have here : VersionAt (Text.lines text) i := by
      by_contra later
      rw [first.kept i later, isVersion_congr empty] at version
      have opens := version.resolve_left (by decide)
      exact later (versionAt_of_takenAt lead (lineAt_isVersion.mpr opens) taken)
    obtain ⟨line, listed, _⟩ := here.1
    obtain ⟨inside, _⟩ := List.getElem?_eq_some_iff.mp listed
    rw [empty, first.emptied i inside here, Option.getD_some]
  · have early : ¬ VersionAt (Text.lines text) i := fun at' => taken (.inl at')
    rw [first.kept i early, ← Text.trim_trimEnd, ← Text.trim_trimEnd ((Text.lines text)[i]?.getD "")]
    exact congrArg Text.trim (stays taken)

private theorem newline_free_of_mem_versionLines {text : String} (hl : line ∈ versionLines (Text.lines text)) :
    '\n' ∉ line.toList := by
  obtain ⟨l, kept, rfl⟩ := List.mem_map.mp hl
  intro newline
  rw [Text.trim, String.toList_ofList] at newline
  have within := (Text.dropBlankEnd_prefix _).subset newline
  exact Text.newline_free_of_mem_lines (List.mem_filter.mp kept).1 ((List.dropWhile_suffix Text.isBlank).subset within)

private theorem versionLines_append {text : String} (free : '\n' ∉ line.toList) (plain : ¬ isVersion line) :
    versionLines (Text.lines (line ++ "\n" ++ text)) = versionLines (Text.lines text) := by
  have shifted : versionLines (Text.lines (line ++ "\n" ++ text)) = versionLines (line :: Text.lines text) := by
    refine versionLines_congr fun i _ => ?_
    have place : Text.lineAt (line ++ "\n" ++ text) i = _ := Text.lineAt_append free i
    rw [← Text.trim_trimEnd, ← Text.lineAt, place]
    cases i with
    | zero => exact Text.trim_trimEnd line
    | succ i => exact Text.trim_trimEnd _
  rw [shifted, versionLines_cons, if_neg plain]

private theorem not_isVersion_lineMark (number : Nat) (file : String) : ¬ isVersion (lineMark number file) := by
  intro version
  obtain ⟨rest, opening⟩ := Directive.exists_of_startsWith version
  rw [toList_lineMark] at opening
  cases opening

end Extraction

namespace Fragment

/-- The fragments behind the versions, in the order in which they are written. -/
def arrangeOthers (fragments : List Fragment) : List Fragment :=
  FragmentKind.ordered.tail.flatMap fun kind => fragments.filter (·.kind == kind)

private theorem arrange_eq_append (fragments : List Fragment) :
    arrange fragments = (arrange fragments).filter (·.kind == .version) ++ arrangeOthers fragments := by
  rw [filter_arrange]
  rfl

private theorem kind_of_mem_arrangeOthers {fragments : List Fragment} {f : Fragment} (hf : f ∈ arrangeOthers fragments) :
    f.kind ≠ .version := by
  intro version
  obtain ⟨kind, listed, hf⟩ := List.mem_flatMap.mp hf
  have same : f.kind = kind := beq_iff_eq.mp (List.mem_filter.mp hf).2
  rw [← same, version] at listed
  exact absurd listed (by decide)

private theorem written_of_newline_free (kind : FragmentKind) {text : String} (free : '\n' ∉ text.toList) :
    (⟨kind, text⟩ : Fragment).written = text ++ "\n" := by
  have kept : dropNewline text.toList = text.toList := by
    rw [dropNewline, if_neg]
    exact fun last => free (List.mem_of_getLast? last)
  rw [written, kept]
  exact String.toList_injective (by simp)

end Fragment

namespace StageRequest

open Extraction (VersionsLead versionLines)

variable {r : StageRequest} {catalog : Catalog} {options : SourceOptions} {files : FileTree}
  {body : String} {source : AssembledSource}

private theorem versionLines_bodyText {rest : String} (name : options.lineDirectives = true → '\n' ∉ r.path.markName.toList) :
    versionLines (Text.lines (r.bodyText options rest)) = versionLines (Text.lines (Text.trimEnd rest)) := by
  rw [bodyText]
  split
  · rename_i marked
    exact Extraction.versionLines_append (newline_free_lineMark 1 (name marked)) (Extraction.not_isVersion_lineMark 1 _)
  · rfl

/-- The version of a source whose body has some version lines. -/
def versionOf (options : SourceOptions) (versions : List String) : String :=
  versions.head?.getD s!"#version {options.defaultVersion}"

private theorem newline_free_versionOf {text : String} :
    '\n' ∉ (versionOf options (versionLines (Text.lines text))).toList := by
  rw [versionOf]
  cases first : (versionLines (Text.lines text)).head? with
  | some line => exact Extraction.newline_free_of_mem_versionLines (List.mem_of_head? first)
  | none =>
    have written : s!"#version {options.defaultVersion}" = "#version " ++ toString options.defaultVersion := rfl
    rw [Option.getD_none, written, String.toList_append, List.mem_append, not_or]
    exact ⟨by decide, newline_free_toString _⟩

private theorem assemble_version (done : r.assemble catalog options files body = .ok source) :
    ∃ expanded, (r.includePlan options).expand files r.path body = .ok expanded ∧
      source.fragments.filter (·.kind == .version) =
        [⟨.version, (Extraction.version (Text.lines expanded)).1.getD s!"#version {options.defaultVersion}"⟩] ∧
      ∃ fragments, source.fragments = Fragment.arrange fragments := by
  obtain ⟨expanded, _, _, _, _, spliced, _, _, _, _, rfl, fragments, _⟩ := exists_passes_of_assemble done
  refine ⟨expanded, spliced, ?_, _, fragments⟩
  rw [fragments]
  exact filter_pieces .version

/-- A source starts with its one version, which is the first version line of its body, with its includes spliced, or
the default, if all version lines stand before all code.  The other version lines, and no others, are those of the
body fragment, unless a line mark for a name of several lines brings in more. -/
theorem one_version_leads (done : r.assemble catalog options files body = .ok source) :
    ∃ expanded fragment, (r.includePlan options).expand files r.path body = .ok expanded ∧
      source.fragments.filter (·.kind == .body) = [⟨.body, fragment⟩] ∧
      (VersionsLead (Text.lines expanded) →
        (∃ others, source.fragments = ⟨.version, versionOf options (versionLines (Text.lines expanded))⟩ :: others ∧
          (∀ f ∈ others, f.kind ≠ .version) ∧
          source.text = versionOf options (versionLines (Text.lines expanded)) ++ "\n" ++
            String.join (others.map Fragment.written)) ∧
        ((options.lineDirectives = true → '\n' ∉ r.path.markName.toList) →
          versionLines (Text.lines fragment) = (versionLines (Text.lines expanded)).tail)) := by
  obtain ⟨expanded, rest, spliced, fragment, emptied⟩ := assemble_body done
  obtain ⟨expanded', spliced', version, fragments, arranged⟩ := assemble_version done
  obtain rfl := Except.ok.inj (spliced.symm.trans spliced')
  refine ⟨expanded, _, spliced, fragment, fun lead => ⟨?_, fun name => ?_⟩⟩
  · have whole : source.fragments = ⟨.version, versionOf options (versionLines (Text.lines expanded))⟩ ::
        Fragment.arrangeOthers fragments := by
      rw [arranged, Fragment.arrange_eq_append, ← arranged, version, (Extraction.version_of_versionsLead lead).1]
      rfl
    refine ⟨_, whole, fun _ => Fragment.kind_of_mem_arrangeOthers, ?_⟩
    rw [text_of_assemble done, whole, List.map_cons, Fragment.written_of_newline_free .version newline_free_versionOf]
    exact String.toList_injective (by simp [String.toList_join])
  · rw [versionLines_bodyText name]
    exact Extraction.versionLines_of_passes lead emptied

/-- A body with two versions before its code. -/
def twiceBody : String :=
  "// dusk\n#version 450\n#version 460\nvoid main() \x7b\x7d\n"

private theorem evaluate_twiceBody :
    VersionsLead (Text.lines twiceBody) ∧
      versionLines (Text.lines twiceBody) = ["#version 450", "#version 460"] ∧
      (((duskAt "dusk.vert").includePlan .standard).expand .empty ⟨"dusk.vert"⟩ twiceBody).toOption = some twiceBody ∧
      ((duskAt "dusk.vert").assemble ⟨[], []⟩ .standard .empty twiceBody).toOption.map (·.fragments) =
        some [⟨.version, "#version 450"⟩, ⟨.perVertex, perVertexText⟩,
          ⟨.body, "// dusk\n\n#version 460\nvoid main() \x7b\x7d"⟩] := by
  decide +kernel

theorem one_version_leads_of_twiceBody :
    ∃ source, (duskAt "dusk.vert").assemble ⟨[], []⟩ .standard .empty twiceBody = .ok source ∧
      ∃ fragment, source.fragments.filter (·.kind == .body) = [⟨.body, fragment⟩] ∧
        (∃ others, source.fragments = ⟨.version, "#version 450"⟩ :: others ∧ ∀ f ∈ others, f.kind ≠ .version) ∧
        versionLines (Text.lines fragment) = ["#version 460"] := by
  obtain ⟨lead, versions, expands, assembles⟩ := evaluate_twiceBody
  obtain ⟨source, assembled, _⟩ := Option.map_eq_some_iff.mp assembles
  have done := toOption_eq_some.mp assembled
  obtain ⟨expanded, fragment, spliced, own, led⟩ := one_version_leads done
  obtain rfl := Except.ok.inj ((toOption_eq_some.mp expands).symm.trans spliced)
  obtain ⟨⟨others, leads, kinds, _⟩, left⟩ := led lead
  rw [versions] at leads left
  have unmarked : SourceOptions.standard.lineDirectives ≠ true := Bool.false_ne_true
  exact ⟨source, done, fragment, own, ⟨others, leads, kinds⟩, left fun marked => absurd marked unmarked⟩

/-- A stage whose path has two lines, one of them a version. -/
def duskInTwoLines : StageRequest :=
  duskAt "dusk\n#version 460.vert"

def onceBody : String :=
  "#version 450\nvoid main() \x7b\x7d\n"

/-- A line mark for that path before the rest of a body. -/
def versionMark : String :=
  "#line 1 \"dusk\n#version 460.vert\"\n\nvoid main() \x7b\x7d"

/-- Of two versions before all code the second stays in the body fragment, and a line mark for a name of several
lines brings in a version that is not in the body. -/
theorem versions_left_in_body :
    (VersionsLead (Text.lines twiceBody) ∧
      (((duskAt "dusk.vert").includePlan .standard).expand .empty ⟨"dusk.vert"⟩ twiceBody).toOption = some twiceBody ∧
      ((duskAt "dusk.vert").assemble ⟨[], []⟩ .standard .empty twiceBody).toOption.map
        (·.fragments.filter (·.kind == .body)) =
          some [⟨.body, "// dusk\n\n#version 460\nvoid main() \x7b\x7d"⟩] ∧
      "#version 460" ∈ Text.lines "// dusk\n\n#version 460\nvoid main() \x7b\x7d") ∧
    VersionsLead (Text.lines onceBody) ∧
      ((duskInTwoLines.includePlan { SourceOptions.standard with lineDirectives := true }).expand .empty
        duskInTwoLines.path onceBody).toOption = some onceBody ∧
      (duskInTwoLines.assemble ⟨[], []⟩ { SourceOptions.standard with lineDirectives := true } .empty
        onceBody).toOption.map (·.fragments.filter (·.kind == .body)) = some [⟨.body, versionMark⟩] ∧
      "#version 460.vert\"" ∈ Text.lines versionMark := by
  obtain ⟨lead, _, expands, assembles⟩ := evaluate_twiceBody
  obtain ⟨source, assembled, fragments⟩ := Option.map_eq_some_iff.mp assembles
  refine ⟨⟨lead, expands, ?_, by decide +kernel⟩, by decide +kernel⟩
  rw [assembled, Option.map_some, fragments]
  rfl

end StageRequest

end ShaderPipeline
