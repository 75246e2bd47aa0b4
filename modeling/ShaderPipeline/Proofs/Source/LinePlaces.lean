import ShaderPipeline.Proofs.Files.Directories
import ShaderPipeline.Proofs.Source.Passes
import ShaderPipeline.Proofs.Source.Unfolding

/-!
What line marks tell of the lines of a body fragment.

The fragment starts with a mark, and splicing writes one before and one behind each included file, so that every line
is counted from the mark nearest before it.  The passes keep lines in their places, and take out marks only with the
override regions they stand in.  Main statement: a line is told the file and number that it comes from, unless the mark
nearest before it stood in an override region.
-/

set_option autoImplicit false
set_option relaxedAutoImplicit false

namespace ShaderPipeline

open Outcome

/-- Whether a line is a line mark, after blanks. -/
def IsLineMark (line : String) : Prop :=
  Extraction.startsWith "#line" (Text.dropBlankStart line.toList)

instance (line : String) : Decidable (IsLineMark line) :=
  inferInstanceAs (Decidable (_ = _))

/-- Whether the mark nearest before a place of a text tells a name and a number for the line there. -/
def ToldAt (text : String) (i : Nat) (name : String) (number : Nat) : Prop :=
  ∃ j < i, ∃ first, Text.lineAt text j = lineMark first name ∧
    (∀ k, j < k → k ≤ i → ¬ IsLineMark (Text.lineAt text k)) ∧ number = first + (i - j - 1)

private theorem isLineMark_lineMark (number : Nat) (file : String) : IsLineMark (lineMark number file) := by
  rw [IsLineMark, toList_lineMark]
  rfl

private theorem not_isLineMark_empty : ¬ IsLineMark "" := by
  decide

private theorem not_isLineMark_trimEnd {line : String} (plain : ¬ IsLineMark line) : ¬ IsLineMark (Text.trimEnd line) := by
  intro mark
  obtain ⟨blanks, whole, blank⟩ := Text.exists_blanks_after line.toList
  have solid : ∀ c ∈ "#line".toList, ¬ Text.isBlank c := Directive.solid_of_all (by decide)
  have skipped := Directive.skipWord?_dropWhile_append Text.isBlank solid (by decide) blank
    (Text.dropBlankEnd line.toList)
  rw [← whole] at skipped
  have opens : (Directive.skipWord? "#line" (line.toList.dropWhile Text.isBlank)).isSome := by
    rw [skipped, Option.isSome_map, ← Text.toList_trimEnd]
    exact mark
  exact plain opens

private theorem exists_lineMark_eq (number : Nat) (file : String) : ∃ cs, (lineMark number file).toList = cs ++ ['"'] := by
  refine ⟨"#line ".toList ++ (toString number).toList ++ " \"".toList ++ file.toList, ?_⟩
  rw [toList_lineMark]
  simp only [List.append_assoc]

private theorem trimEnd_lineMark (number : Nat) (file : String) :
    Text.trimEnd (lineMark number file) = lineMark number file := by
  obtain ⟨cs, whole⟩ := exists_lineMark_eq number file
  apply String.ext
  rw [Text.toList_trimEnd, whole, Text.dropBlankEnd, List.reverse_append, List.reverse_singleton,
    List.singleton_append, List.dropWhile_cons_of_neg (by decide), List.reverse_cons, List.reverse_reverse]

private theorem bare_lineMark (number : Nat) (file : String) : Text.bare (lineMark number file) = lineMark number file := by
  obtain ⟨cs, whole⟩ := exists_lineMark_eq number file
  rcases Text.dropReturn_cases (lineMark number file).toList with same | dropped
  · rw [Text.bare, same, String.ofList_toList]
  · have last := congrArg List.getLast? (whole.symm.trans dropped)
    simp at last

namespace Entry

variable {entries : List Entry} {name : String} {number i j : Nat} {file : Path} {l : SourceLine}

/-- Whether the mark at a place is the one nearest before another place. -/
structure NearestMark (entries : List Entry) (i j number : Nat) (file : Path) : Prop where
  before : j < i
  here : entries[j]? = some (.mark number file)
  last : ∀ k, j < k → k < i → ∀ number' file', entries[k]? ≠ some (.mark number' file')

private theorem exists_nearestMark (number : Nat) (file : Path) (entries : List Entry) (i : Nat) :
    ∃ j number' file', NearestMark (.mark number file :: entries) (i + 1) j number' file' := by
  induction i with
  | zero => exact ⟨0, number, file, by omega, rfl, fun k after before => by omega⟩
  | succ i ih =>
    by_cases own : ∃ number' file', entries[i]? = some (.mark number' file')
    · obtain ⟨number', file', here⟩ := own
      exact ⟨i + 1, number', file', by omega, here, fun k after before => by omega⟩
    · obtain ⟨j, number', file', before, here, last⟩ := ih
      refine ⟨j, number', file', by omega, here, fun k after hk number'' file'' found => ?_⟩
      rcases Nat.lt_succ_iff_lt_or_eq.mp hk with earlier | rfl
      · exact last k after earlier number'' file'' found
      · exact own ⟨number'', file'', found⟩

private theorem counted_of_unmarked (counted : Counted name number entries) (listed : entries[i]? = some (.line l))
    (unmarked : ∀ k < i, ∀ number' file', entries[k]? ≠ some (.mark number' file')) :
    l.file.markName = name ∧ l.number = number + i := by
  induction entries generalizing name number i with
  | nil => cases listed
  | cons entry entries ih =>
    cases i with
    | zero =>
      cases listed
      exact ⟨counted.1, counted.2.1⟩
    | succ i =>
      cases entry with
      | mark number' file' => exact absurd rfl (unmarked 0 (by omega) number' file')
      | line l' =>
        have later : ∀ k < i, ∀ number' file', entries[k]? ≠ some (.mark number' file') :=
          fun k hk => unmarked (k + 1) (by omega)
        obtain ⟨same, counts⟩ := ih counted.2.2 listed later
        exact ⟨same, by omega⟩

private theorem counted_of_nearestMark {name' : String} {number' : Nat} (counted : Counted name' number' entries)
    (listed : entries[i]? = some (.line l)) (nearest : NearestMark entries i j number file) :
    l.file.markName = file.markName ∧ l.number = number + (i - j - 1) := by
  obtain ⟨before, here, last⟩ := nearest
  -- The lines up to the mark are of no account: the induction drops them, and counts anew behind it.
  induction entries generalizing name' number' i j with
  | nil => cases listed
  | cons entry entries ih =>
    obtain ⟨i, rfl⟩ := Nat.exists_eq_add_one_of_ne_zero (Nat.ne_zero_of_lt before)
    cases j with
    | zero =>
      cases here
      have unmarked : ∀ k < i, ∀ number' file', entries[k]? ≠ some (.mark number' file') :=
        fun k hk => last (k + 1) (by omega) (by omega)
      have inner : Counted file.markName number entries := counted
      obtain ⟨same, counts⟩ := counted_of_unmarked inner listed unmarked
      exact ⟨same, by omega⟩
    | succ j =>
      have tail : ∃ name number, Counted name number entries := by
        cases entry with
        | line l' => exact ⟨_, _, counted.2.2⟩
        | mark n f => exact ⟨_, _, counted⟩
      obtain ⟨_, _, counted⟩ := tail
      have last' : ∀ k, j < k → k < i → ∀ number' file', entries[k]? ≠ some (.mark number' file') :=
        fun k after hk => last (k + 1) (by omega) (by omega)
      obtain ⟨same, counts⟩ := ih counted listed (by omega) here last'
      exact ⟨same, by omega⟩

end Entry

namespace Extraction

open Text (bare)

variable {ls : List String} {i number : Nat} {file : String}

private theorem inRegion_of_takenAt_lineMark (listed : ls[i]? = some (lineMark number file)) (taken : TakenAt ls i) :
    InRegion (ls.map bare) i := by
  refine (versionAt_or_inRegion_of_takenAt (passes_lineMark · number file) listed taken).resolve_left fun version => ?_
  have opens := (lineAt_of_eq_some listed).mp version.1
  obtain ⟨after, opening⟩ := Directive.exists_of_startsWith opens
  rw [toList_lineMark] at opening
  cases opening

end Extraction

namespace Path

variable {p : Path} {name : String}

private theorem mem_steps_of_mem_components (listed : .name name ∈ p.components) : name ∈ p.steps := by
  have later : ∀ segments : List String, .name name ∈ (segments.filter fun s => !isSkipped s).map Component.ofSegment →
      name ∈ segments.filter fun s => !isSkipped s := by
    intro segments member
    obtain ⟨segment, kept, same⟩ := List.mem_map.mp member
    rw [Component.ofSegment] at same
    split at same
    · cases same
    · cases same
      exact kept
  rw [components] at listed
  rw [steps]
  cases known : p.segments with
  | nil =>
    rw [known] at listed
    cases listed
  | cons first rest =>
    have further : ∀ start : Component, start ≠ .name name →
        .name name ∈ start :: (rest.filter fun s => !isSkipped s).map Component.ofSegment →
          name ∈ (first :: rest).filter fun s => !isSkipped s := by
      intro start differs member
      have inner := later rest ((List.mem_cons.mp member).resolve_left differs.symm)
      exact ((List.sublist_cons_self first rest).filter _).subset inner
    simp only [known] at listed
    split at listed
    · exact further .root (by simp) listed
    · split at listed
      · exact further .here (by simp) listed
      · exact later (first :: rest) listed

private theorem markName_mem_steps (p : Path) : p.markName = "" ∨ p.markName ∈ p.steps := by
  rw [markName, fileName?]
  split
  · rename_i name last
    exact .inr (mem_steps_of_mem_components (List.mem_of_getLast? last))
  · exact .inl rfl

end Path

namespace FileTree

variable {t : FileTree} {start place : Place} {p : Path} {node : FileNode} {segments : List String}

private theorem exists_entry_of_nodeAt {name : String} (named : name ≠ "..")
    (stands : t.nodeAt (start ++ [name]) = some node) : ∃ entry ∈ t.nodes, name ∈ entry.1 := by
  have low : ¬ Place.isTop (start ++ [name]) := by
    simp [Place.isTop, named]
  rw [nodeAt, if_neg low, Option.map_eq_some_iff] at stands
  obtain ⟨entry, found, _⟩ := stands
  have same : entry.1 = start ++ [name] := by
    simpa using List.find?_some found
  exact ⟨entry, List.mem_of_find?_eq_some found, same ▸ List.mem_append_right start List.mem_cons_self⟩

private theorem named_of_follow (led : t.follow start segments = .ok place) (stands : t.nodeAt place = some node) :
    (∃ node', t.nodeAt start = some node') ∧
      ∀ s ∈ segments, Path.isSkipped s ∨ s = ".." ∨ ∃ entry ∈ t.nodes, s ∈ entry.1 := by
  induction segments generalizing start with
  | nil =>
    cases led
    exact ⟨⟨node, stands⟩, nofun⟩
  | cons segment rest ih =>
    rw [follow] at led
    cases here : t.nodeAt start with
    | none => simp [here] at led
    | some node' =>
      refine ⟨⟨node', rfl⟩, List.forall_mem_cons.mpr ?_⟩
      cases node' with
      | directory =>
        simp only [here] at led
        split at led
        · rename_i skipped
          exact ⟨.inl skipped, (ih led).2⟩
        · split at led
          · rename_i up
            exact ⟨.inr (.inl (beq_iff_eq.mp up)), (ih led).2⟩
          · rename_i named
            split at led
            · cases led
            · obtain ⟨⟨_, below⟩, later⟩ := ih led
              have differs : segment ≠ ".." := fun same => named (beq_iff_eq.mpr same)
              exact ⟨.inr (.inr (exists_entry_of_nodeAt differs below)), later⟩
      | _ => simp [here] at led

private theorem named_of_isFile (file : t.isFile p) :
    ∀ s ∈ p.steps, s = ".." ∨ s ∈ t.mount ∨ ∃ entry ∈ t.nodes, s ∈ entry.1 := by
  have found : ∃ node, t.node p = .ok node := by
    rw [isFile] at file
    cases known : t.node p with
    | ok node => exact ⟨node, rfl⟩
    | error fault => simp [known] at file
  obtain ⟨node, known⟩ := found
  obtain ⟨place, led, stands⟩ := bind_eq_ok.mp known
  obtain ⟨segments, fromTop, led⟩ := bind_eq_ok.mp led
  have there : ∃ node', t.nodeAt place = some node' := by
    cases at' : t.nodeAt place with
    | some node' => exact ⟨node', rfl⟩
    | none =>
      rw [at'] at stands
      cases stands
  obtain ⟨node', there⟩ := there
  have below : ∀ s ∈ segments.filter fun s => !Path.isSkipped s, s = ".." ∨ ∃ entry ∈ t.nodes, s ∈ entry.1 := by
    intro s hs
    obtain ⟨listed, kept⟩ := List.mem_filter.mp hs
    exact ((named_of_follow led there).2 s listed).resolve_left (by simpa using kept)
  have enters : t.Enters p (segments.filter fun s => !Path.isSkipped s) := enters_iff.mpr ⟨segments, fromTop, rfl⟩
  have steps := enters.steps
  intro s hs
  split at steps
  · rw [steps.2] at hs
    rcases List.mem_append.mp hs with mounted | inside
    · exact .inr (.inl mounted)
    · exact (below s inside).imp_right .inr
  · rw [steps] at hs
    exact (below s hs).imp_right .inr

end FileTree

namespace IncludePlan

private theorem marksStayLines_of_names {plan : IncludePlan} {files : FileTree} {path : Path}
    (own : '\n' ∉ path.markName.toList) (mount : ∀ name ∈ files.mount, '\n' ∉ name.toList)
    (names : ∀ entry ∈ files.nodes, ∀ name ∈ entry.1, '\n' ∉ name.toList) : plan.MarksStayLines files path := by
  refine fun _ => ⟨own, fun p file => ?_⟩
  rcases p.markName_mem_steps with empty | listed
  · rw [empty]
    decide
  · rcases FileTree.named_of_isFile file _ listed with up | mounted | ⟨entry, given, inside⟩
    · rw [up]
      decide
    · exact mount _ mounted
    · exact names entry given _ inside

end IncludePlan

namespace StageRequest

variable {r : StageRequest} {catalog : Catalog} {options : SourceOptions} {files : FileTree}
  {body : String} {source : AssembledSource}

/-- The body fragment under line marks has at each place what splicing writes there after a first mark, or nothing; and
of the marks those are left that stand in no override region. -/
private theorem exists_entries_of_assemble (marked : options.lineDirectives = true)
    (names : (r.includePlan options).MarksStayLines files r.path)
    (done : r.assemble catalog options files body = .ok source) :
    ∃ entries fragment expanded, expanded = Text.unlines (entries.map Entry.text) ∧
      (r.includePlan options).expand files r.path body = .ok expanded ∧
      (r.includePlan options).Accounts files r.path 1 (Text.lines body) entries ∧
      source.fragments.filter (·.kind == .body) = [⟨.body, fragment⟩] ∧
      (∀ i, Text.lineAt fragment i = "" ∨ ∃ entry, (Entry.mark 1 r.path :: entries)[i]? = some entry ∧
        Text.lineAt fragment i = Text.trimEnd entry.text) ∧
      ∀ j number file, (Entry.mark 1 r.path :: entries)[j]? = some (.mark number file) →
        Text.lineAt fragment j = lineMark number file.markName ∨
          ∃ k, j = k + 1 ∧ Extraction.InRegion ((Text.lines expanded).map Text.bare) k := by
  obtain ⟨expanded, rest, spliced, fragment, emptied⟩ := assemble_body done
  obtain ⟨written, splice, rfl⟩ := map_eq_ok.mp spliced
  have free : ∀ l ∈ written, '\n' ∉ l.toList := fun l hl =>
    (IncludePlan.passes_of_splice _ r.path body names splice l hl).1
  obtain ⟨entries, rfl, accounts⟩ := IncludePlan.exists_accounts_of_splice splice
  have own : r.bodyText options (Text.unlines rest) =
      lineMark 1 r.path.markName ++ "\n" ++ Text.trimEnd (Text.unlines rest) := by
    rw [bodyText, marked]
    rfl
  have first : '\n' ∉ (lineMark 1 r.path.markName).toList := newline_free_lineMark 1 (names marked).1
  have places : ∀ i, Text.lineAt (r.bodyText options (Text.unlines rest)) (i + 1) =
      Text.lineAt (Text.unlines rest) i := by
    intro i
    rw [own, Text.lineAt_append first]
    exact Text.lineAt_trimEnd _ i
  have start : Text.lineAt (r.bodyText options (Text.unlines rest)) 0 = lineMark 1 r.path.markName := by
    rw [own, Text.lineAt_append first]
    exact trimEnd_lineMark 1 _
  refine ⟨entries, _, _, rfl, spliced, accounts, fragment, fun i => ?_, fun j number file here => ?_⟩
  · cases i with
    | zero => exact .inr ⟨_, rfl, start.trans (trimEnd_lineMark 1 _).symm⟩
    | succ i =>
      rw [places]
      by_cases taken : Extraction.TakenAt (Text.lines (Text.unlines (entries.map Entry.text))) i
      · exact .inl ((Extraction.lineAt_of_emptiedAt emptied i).1 taken)
      · rw [(Extraction.lineAt_of_emptiedAt emptied i).2 taken, Text.lineAt_unlines free, List.getElem?_map]
        cases listed : entries[i]? with
        | none => exact .inl rfl
        | some entry => exact .inr ⟨entry, listed, rfl⟩
  · cases j with
    | zero =>
      cases here
      exact .inl start
    | succ j =>
      have listed : (entries.map Entry.text)[j]? = some (lineMark number file.markName) := by
        rw [List.getElem?_map, show entries[j]? = _ from here]
        rfl
      have reread : (Text.lines (Text.unlines (entries.map Entry.text)))[j]? =
          some (lineMark number file.markName) := by
        rw [Text.lines_unlines free, List.getElem?_map, listed, Option.map_some, bare_lineMark]
      by_cases taken : Extraction.TakenAt (Text.lines (Text.unlines (entries.map Entry.text))) j
      · exact .inr ⟨j, rfl, Extraction.inRegion_of_takenAt_lineMark reread taken⟩
      · left
        rw [places, (Extraction.lineAt_of_emptiedAt emptied j).2 taken, Text.lineAt_unlines free, listed]
        exact trimEnd_lineMark number _

/-- A line of the body fragment that is neither blank nor a mark comes from a line of the body or of an included file,
and is told the name and number of that line, unless the mark nearest before it stood in an override region. -/
theorem lines_told_unless_mark_in_region (marked : options.lineDirectives = true)
    (names : (r.includePlan options).MarksStayLines files r.path)
    (plain : ∀ unfolded, (r.includePlan options).Unfolds files r.path 1 (Text.lines body) unfolded →
      ∀ l ∈ unfolded, ¬ IsLineMark l.text)
    (done : r.assemble catalog options files body = .ok source) :
    ∃ entries fragment expanded, expanded = Text.unlines (entries.map Entry.text) ∧
      (r.includePlan options).expand files r.path body = .ok expanded ∧
      (r.includePlan options).Unfolds files r.path 1 (Text.lines body) (entries.filterMap Entry.line?) ∧
      source.fragments.filter (·.kind == .body) = [⟨.body, fragment⟩] ∧
      ∀ i, Text.lineAt fragment i ≠ "" → ¬ IsLineMark (Text.lineAt fragment i) →
        ∃ l, (Entry.mark 1 r.path :: entries)[i]? = some (.line l) ∧ Text.lineAt fragment i = Text.trimEnd l.text ∧
          ∃ j number file, Entry.NearestMark (.mark 1 r.path :: entries) i j number file ∧
            (ToldAt fragment i l.file.markName l.number ∨
              ∃ k, j = k + 1 ∧ Extraction.InRegion ((Text.lines expanded).map Text.bare) k) := by
  obtain ⟨entries, fragment, expanded, written, spliced, accounts, body', lines, marks⟩ :=
    exists_entries_of_assemble marked names done
  refine ⟨entries, fragment, expanded, written, spliced, accounts.unfolds, body', fun i solid unmarked => ?_⟩
  obtain ⟨entry, listed, text⟩ := (lines i).resolve_left solid
  cases entry with
  | mark number file =>
    rw [text] at unmarked
    exact absurd ((trimEnd_lineMark number _).symm ▸ isLineMark_lineMark number _) unmarked
  | line l =>
    cases i with
    | zero => cases listed
    | succ i =>
      obtain ⟨j, number, file, nearest⟩ := Entry.exists_nearestMark 1 r.path entries i
      obtain ⟨same, counts⟩ := Entry.counted_of_nearestMark
        (show Entry.Counted r.path.markName 1 (.mark 1 r.path :: entries) from accounts.counted marked) listed nearest
      refine ⟨l, listed, text, j, number, file, nearest, (marks j number file nearest.here).imp_left fun left => ?_⟩
      refine ⟨j, nearest.before, number, same ▸ left, fun k after upTo => ?_, counts⟩
      -- Behind the nearest mark stand lines of files, none of which is a mark.
      rcases lines k with empty | ⟨entry, listed', text'⟩
      · exact empty ▸ not_isLineMark_empty
      · cases entry with
        | mark number' file' =>
          rcases Nat.lt_or_eq_of_le upTo with earlier | rfl
          · exact absurd listed' (nearest.last k after earlier number' file')
          · cases listed.symm.trans listed'
        | line l' =>
          obtain ⟨k, rfl⟩ := Nat.exists_eq_add_one_of_ne_zero (Nat.ne_zero_of_lt after)
          have member : l' ∈ entries.filterMap Entry.line? :=
            List.mem_filterMap.mpr ⟨.line l', List.mem_of_getElem? listed', rfl⟩
          exact text' ▸ not_isLineMark_trimEnd (plain _ accounts.unfolds l' member)

def hazeFiles : FileTree :=
  ⟨[(["haze.glsl"], .file "in vec4 haze;".toUTF8 0)], [], []⟩

def markedOptions : SourceOptions :=
  { SourceOptions.standard with lineDirectives := true }

def hazePlan : IncludePlan :=
  (duskAt "dusk.vert").includePlan markedOptions

def clearBody : String :=
  Text.joinLines ["#include \"haze.glsl\"", "void main() \x7b\x7d"]

def clearLines : List SourceLine :=
  [⟨⟨"haze.glsl"⟩, 1, "in vec4 haze;"⟩, ⟨⟨"dusk.vert"⟩, 2, "void main() \x7b\x7d"⟩]

def clearText : String :=
  Text.joinLines ["#line 1 \"dusk.vert\"", "#line 1 \"haze.glsl\"", "in vec4 haze;", "#line 2 \"dusk.vert\"",
    "void main() \x7b\x7d"]

/-- A body with an include in an override region. -/
def hazeBody : String :=
  Text.joinLines ["#pragma interface_override begin", "#include \"haze.glsl\"", "#pragma interface_override end",
    "void main() \x7b\x7d"]

def hazeLines : List SourceLine :=
  [⟨⟨"dusk.vert"⟩, 1, "#pragma interface_override begin"⟩, ⟨⟨"haze.glsl"⟩, 1, "in vec4 haze;"⟩,
    ⟨⟨"dusk.vert"⟩, 3, "#pragma interface_override end"⟩, ⟨⟨"dusk.vert"⟩, 4, "void main() \x7b\x7d"⟩]

def hazeText : String :=
  "#line 1 \"dusk.vert\"\n\n\n\n\n\nvoid main() \x7b\x7d"

private theorem unfolds_hazeFiles : hazePlan.Unfolds hazeFiles ⟨"dusk.vert"⟩ 1 (Text.lines clearBody) clearLines ∧
    hazePlan.Unfolds hazeFiles ⟨"dusk.vert"⟩ 1 (Text.lines hazeBody) hazeLines := by
  have finds : hazePlan.Finds hazeFiles ⟨"dusk.vert"⟩ ⟨"haze.glsl", false⟩ ⟨"haze.glsl"⟩ :=
    IncludePlan.resolve?_eq_some.mp (by decide +kernel)
  have read : hazeFiles.readText ⟨"haze.glsl"⟩ = .ok "in vec4 haze;" := toOption_eq_some.mp (by decide +kernel)
  have recognized : Directive.recognizeInclude "#include \"haze.glsl\"".toList = .directive ⟨"haze.glsl", false⟩ := by
    decide +kernel
  have inside : hazePlan.Unfolds hazeFiles ⟨"haze.glsl"⟩ 1 (Text.lines "in vec4 haze;")
      [⟨⟨"haze.glsl"⟩, 1, "in vec4 haze;"⟩] := by
    have lines : Text.lines "in vec4 haze;" = ["in vec4 haze;"] := by decide +kernel
    rw [lines]
    exact .line (by decide +kernel) .nil
  have clear : Text.lines clearBody = ["#include \"haze.glsl\"", "void main() \x7b\x7d"] := by decide +kernel
  have region : Text.lines hazeBody = ["#pragma interface_override begin", "#include \"haze.glsl\"",
    "#pragma interface_override end", "void main() \x7b\x7d"] := by decide +kernel
  rw [clear, region]
  constructor
  · exact .splice recognized finds read inside (.line (by decide +kernel) .nil)
  · exact .line (by decide +kernel) (.splice recognized finds read inside
      (.line (by decide +kernel) (.line (by decide +kernel) .nil)))

private theorem assemble_hazeFiles :
    ((duskAt "dusk.vert").assemble ⟨[], []⟩ markedOptions hazeFiles clearBody).toOption.map
        (·.fragments.filter (·.kind == .body)) = some [⟨.body, clearText⟩] ∧
      ((duskAt "dusk.vert").assemble ⟨[], []⟩ markedOptions hazeFiles hazeBody).toOption.map
        (·.fragments.filter (·.kind == .body)) = some [⟨.body, hazeText⟩] := by
  constructor
  · decide +kernel
  · decide +kernel

theorem lines_told_unless_mark_in_region_of_clearBody :
    hazePlan.MarksStayLines hazeFiles ⟨"dusk.vert"⟩ ∧
    (∀ unfolded, hazePlan.Unfolds hazeFiles ⟨"dusk.vert"⟩ 1 (Text.lines clearBody) unfolded →
      ∀ l ∈ unfolded, ¬ IsLineMark l.text) ∧
    ∃ entries expanded,
      hazePlan.Unfolds hazeFiles ⟨"dusk.vert"⟩ 1 (Text.lines clearBody) (entries.filterMap Entry.line?) ∧
      ∀ i, Text.lineAt clearText i ≠ "" → ¬ IsLineMark (Text.lineAt clearText i) →
        ∃ l, (Entry.mark 1 ⟨"dusk.vert"⟩ :: entries)[i]? = some (.line l) ∧
          Text.lineAt clearText i = Text.trimEnd l.text ∧
          ∃ j number file, Entry.NearestMark (.mark 1 ⟨"dusk.vert"⟩ :: entries) i j number file ∧
            (ToldAt clearText i l.file.markName l.number ∨
              ∃ k, j = k + 1 ∧ Extraction.InRegion ((Text.lines expanded).map Text.bare) k) := by
  have marks : hazePlan.MarksStayLines hazeFiles ⟨"dusk.vert"⟩ :=
    IncludePlan.marksStayLines_of_names (by decide +kernel) nofun (by decide +kernel)
  have plain : ∀ unfolded, hazePlan.Unfolds hazeFiles ⟨"dusk.vert"⟩ 1 (Text.lines clearBody) unfolded →
      ∀ l ∈ unfolded, ¬ IsLineMark l.text := by
    intro unfolded unfolds
    have known : ∀ l ∈ clearLines, ¬ IsLineMark l.text := by decide +kernel
    exact unfolds_hazeFiles.1.unique unfolds ▸ known
  obtain ⟨source, assembled, fragments⟩ := Option.map_eq_some_iff.mp assemble_hazeFiles.1
  obtain ⟨entries, fragment, expanded, _, _, unfolds, body, told⟩ :=
    lines_told_unless_mark_in_region rfl marks plain (toOption_eq_some.mp assembled)
  cases body.symm.trans fragments
  exact ⟨marks, plain, entries, expanded, unfolds, told⟩

/-- The marks around an include in an override region are taken out with it, and what follows is told a wrong number. -/
theorem line_told_wrong_after_region :
    ((duskAt "dusk.vert").assemble ⟨[], []⟩ markedOptions hazeFiles hazeBody).toOption.map
        (·.fragments.filter (·.kind == .body)) = some [⟨.body, hazeText⟩] ∧
      hazePlan.Unfolds hazeFiles ⟨"dusk.vert"⟩ 1 (Text.lines hazeBody) hazeLines ∧
      (∀ l ∈ hazeLines, ¬ IsLineMark l.text) ∧
      Text.lineAt hazeText 6 ≠ "" ∧ ¬ IsLineMark (Text.lineAt hazeText 6) ∧
      ∀ l ∈ hazeLines, l.text = Text.lineAt hazeText 6 → ¬ ToldAt hazeText 6 l.file.markName l.number := by
  refine ⟨assemble_hazeFiles.2, unfolds_hazeFiles.2, by decide +kernel, by decide +kernel, by decide +kernel, ?_⟩
  have last : ∀ l ∈ hazeLines, l.text = Text.lineAt hazeText 6 → l.number = 4 := by decide +kernel
  rintro l hl same ⟨j, before, first, mark, _, counts⟩
  rw [last l hl same] at counts
  rcases Nat.eq_zero_or_pos j with rfl | later
  · omega
  · have blank : ∀ j < 6, 0 < j → Text.lineAt hazeText j = "" := by decide +kernel
    rw [blank j before later] at mark
    exact not_isLineMark_empty (mark ▸ isLineMark_lineMark first _)

end StageRequest

end ShaderPipeline
