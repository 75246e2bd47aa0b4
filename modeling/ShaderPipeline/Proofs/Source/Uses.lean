import Mathlib.Data.List.TakeWhile
import ShaderPipeline.Proofs.Outcome
import ShaderPipeline.Proofs.Text.Lines
import ShaderPipeline.Source.Extraction

/-!
The resource groups that a body uses.

A group is used by a directive that stands outside override regions.  The passes before the one that reads these
directives take lines out that are no such directives, and write all lines anew, so that a line has lost a return
for each pass when it is read.  Main statement: the lines that are left after these passes ask for the same groups
in the same order.
-/

set_option autoImplicit false
set_option relaxedAutoImplicit false

namespace ShaderPipeline

open Outcome

theorem Recognition.value?_eq_ok {α : Type} {r : Recognition α} {line : String} {read : Option α} :
    r.value? line = .ok read ↔ (r = .ordinary ∧ read = none) ∨ ∃ d, r = .directive d ∧ read = some d := by
  cases r <;> simp [Recognition.value?, eq_comm]

namespace Text

private theorem dropStart?_eq_some {start cs rest : List Char} :
    dropStart? start cs = some rest ↔ cs = start ++ rest := by
  fun_induction dropStart? start cs with
  | case1 cs => simp [eq_comm]
  | case2 => simp
  | case3 p ps cs ih => simpa using ih
  | case4 p ps c cs other => simp [Ne.symm other]

theorem dropBlankEnd_prefix (cs : List Char) : dropBlankEnd cs <+: cs := by
  have suffix := List.dropWhile_suffix isBlank (l := cs.reverse)
  rw [← List.reverse_prefix, List.reverse_reverse] at suffix
  exact suffix

theorem bare_prefix (line : String) : (bare line).toList <+: line.toList := by
  rw [bare, String.toList_ofList]
  rcases dropReturn_cases line.toList with same | dropped
  · exact ⟨[], by rw [same, List.append_nil]⟩
  · exact ⟨['\r'], dropped.symm⟩

end Text

namespace Directive

open Text (bare)

theorem skipWord?_eq_some {word : String} {cs rest : List Char} :
    skipWord? word cs = some rest ↔ cs = word.toList ++ rest :=
  Text.dropStart?_eq_some

def OpensPragma (line : List Char) : Prop :=
  ∃ before between after, line = before ++ '#' :: (between ++ "pragma".toList ++ after) ∧
    (∀ c ∈ before, isGap c) ∧ ∀ c ∈ between, isGap c

theorem gap_skipGap (cs : List Char) :
    ∃ gap, cs = gap ++ skipGap cs ∧ ∀ c ∈ gap, isGap c :=
  ⟨cs.takeWhile isGap, List.takeWhile_append_dropWhile.symm, fun _ => List.mem_takeWhile_imp⟩

private theorem opensPragma_of_pragmaName? {line : List Char} {name : String}
    (named : pragmaName? line = some name) : OpensPragma line := by
  obtain ⟨before, hline, hbefore⟩ := gap_skipGap line
  cases marked : skipWord? "#" (skipGap line) with
  | none => simp [pragmaName?, pragmaBody?, marked] at named
  | some rest =>
    obtain ⟨between, hrest, hbetween⟩ := gap_skipGap rest
    cases keyword : skipWord? "pragma" (skipGap rest) with
    | none => simp [pragmaName?, pragmaBody?, marked, keyword] at named
    | some after =>
      refine ⟨before, between, after, ?_, hbefore, hbetween⟩
      rw [hline, skipWord?_eq_some.mp marked, hrest, skipWord?_eq_some.mp keyword]
      simp

private theorem OpensPragma.of_prefix {line line' : List Char} (h : OpensPragma line)
    (start : line <+: line') : OpensPragma line' := by
  obtain ⟨before, between, after, rfl, hbefore, hbetween⟩ := h
  obtain ⟨more, rfl⟩ := start
  exact ⟨before, between, after ++ more, by simp, hbefore, hbetween⟩

theorem isBlank_of_isGap {c : Char} (gap : isGap c) : Text.isBlank c := by
  rcases (by simpa [isGap] using gap : c = ' ' ∨ c = '\t') with rfl | rfl <;> decide

theorem OpensPragma.dropBlankStart {line : List Char} (h : OpensPragma line) :
    ∃ between after, Text.dropBlankStart line = '#' :: (between ++ 'p' :: after) ∧
      ∀ c ∈ between, isGap c := by
  obtain ⟨before, between, after, rfl, hbefore, hbetween⟩ := h
  refine ⟨between, "ragma".toList ++ after, ?_, hbetween⟩
  rw [Text.dropBlankStart, List.dropWhile_append_of_pos fun c hc => isBlank_of_isGap (hbefore c hc),
    List.dropWhile_cons_of_neg (by decide)]
  simp

theorem OpensPragma.second {line rest : List Char} {c : Char} (h : OpensPragma line)
    (opening : Text.dropBlankStart line = '#' :: c :: rest) : isGap c ∨ c = 'p' := by
  obtain ⟨between, after, opening', gaps⟩ := h.dropBlankStart
  obtain ⟨_, both⟩ := List.cons.inj (opening.symm.trans opening')
  cases between with
  | nil => exact .inr (List.cons.inj both).1
  | cons d between =>
    obtain ⟨rfl, _⟩ := List.cons.inj both
    exact .inl (gaps c List.mem_cons_self)

theorem exists_of_startsWith {word : String} {line : List Char}
    (starts : Extraction.startsWith word (Text.dropBlankEnds line)) :
    ∃ rest, Text.dropBlankStart line = word.toList ++ rest := by
  obtain ⟨rest, starts⟩ := Option.isSome_iff_exists.mp starts
  obtain ⟨blanks, whole⟩ := Text.dropBlankEnd_prefix (Text.dropBlankStart line)
  have trimmed : Text.dropBlankEnd (Text.dropBlankStart line) = word.toList ++ rest :=
    Text.dropStart?_eq_some.mp starts
  exact ⟨rest ++ blanks, by rw [← whole, trimmed, List.append_assoc]⟩

theorem not_opensPragma_of_version {line : List Char}
    (version : Extraction.startsWith "#version" (Text.dropBlankEnds line)) : ¬ OpensPragma line := by
  intro pragma
  obtain ⟨rest, opening⟩ := exists_of_startsWith version
  have second : isGap 'v' ∨ 'v' = 'p' := pragma.second opening
  exact absurd second (by decide)

private theorem not_opensPragma_of_constant {line : List Char} {d : ConstantDeclaration}
    (constant : recognizeConstant line = .directive d) : ¬ OpensPragma line := by
  intro pragma
  obtain ⟨between, after, opening, _⟩ := pragma.dropBlankStart
  have closed : opensWith "spec_const" line = false := by
    rw [opensWith, opening]
    rfl
  rw [recognizeConstant, closed] at constant
  cases constant

theorem pragmaName?_of_not_opensPragma {line : List Char} (plain : ¬ OpensPragma line) : pragmaName? line = none :=
  Option.eq_none_iff_forall_ne_some.mpr fun _ named => plain (opensPragma_of_pragmaName? named)

theorem recognizeInterface_of_not_opensPragma {line : List Char} (plain : ¬ OpensPragma line) :
    recognizeInterface line = .ordinary := by
  rw [recognizeInterface, pragmaName?_of_not_opensPragma plain]

private theorem recognizeBlock_of_not_opensPragma {line : List Char} (plain : ¬ OpensPragma line) :
    recognizeBlock line = .ordinary := by
  rw [recognizeBlock, pragmaName?_of_not_opensPragma plain]

def usedGroup? (line : String) : Option String :=
  match recognizeBlock line.toList with
  | .directive group => some group
  | _ => none

/-- The groups that lines use, in order, when the first stands inside an override region or not.  Interface directives
are read when the lines have been written anew once, block directives when they have been three times. -/
def usedGroups (inside : Bool) : List String → List String
  | [] => []
  | line :: rest =>
      match recognizeInterface (bare line).toList with
      | .directive .overrideBegin => usedGroups true rest
      | .directive .overrideEnd => usedGroups false rest
      | .directive .noFragmentOutput => usedGroups inside rest
      | _ =>
          if inside then usedGroups inside rest
          else (usedGroup? (bare (bare (bare line)))).toList ++ usedGroups inside rest

private theorem usedGroups_cons (inside : Bool) (line : String) (rest : List String) :
    usedGroups inside (line :: rest) =
      match recognizeInterface (bare line).toList with
      | .directive .overrideBegin => usedGroups true rest
      | .directive .overrideEnd => usedGroups false rest
      | .directive .noFragmentOutput => usedGroups inside rest
      | _ =>
          if inside then usedGroups inside rest
          else (usedGroup? (bare (bare (bare line)))).toList ++ usedGroups inside rest := rfl

private theorem usedGroup?_of_not_opensPragma {line : String} (plain : ¬ OpensPragma line.toList) :
    usedGroup? line = none := by
  rw [usedGroup?, recognizeBlock_of_not_opensPragma plain]

theorem not_opensPragma_bare {line : String} (plain : ¬ OpensPragma line.toList) :
    ¬ OpensPragma (bare line).toList :=
  fun pragma => plain (pragma.of_prefix (Text.bare_prefix line))

private theorem usedGroups_cons_of_not_opensPragma {inside : Bool} {line : String} {rest : List String}
    (plain : ¬ OpensPragma line.toList) :
    usedGroups inside (line :: rest) = usedGroups inside rest := by
  have once := not_opensPragma_bare plain
  have thrice := not_opensPragma_bare (not_opensPragma_bare once)
  rw [usedGroups_cons, recognizeInterface_of_not_opensPragma once,
    usedGroup?_of_not_opensPragma thrice]
  simp

end Directive

namespace Extraction

open Directive
open Text (bare)

/-- Whether lines are others of which some, all of a kind, have been taken out and left empty. -/
def Blanks (taken : String → Prop) (ls ls' : List String) : Prop :=
  List.Forall₂ (fun l l' => l' = l ∨ l' = "" ∧ taken l) ls ls'

namespace Blanks

variable {taken : String → Prop} {ls ls' : List String}

theorem refl (taken : String → Prop) (ls : List String) : Blanks taken ls ls :=
  List.forall₂_same.mpr fun _ _ => .inl rfl

theorem newline_free (h : Blanks taken ls ls') (free : ∀ l ∈ ls, '\n' ∉ l.toList) :
    ∀ l ∈ ls', '\n' ∉ l.toList := by
  induction h with
  | nil => exact nofun
  | cons first _ ih =>
    rw [List.forall_mem_cons] at free ⊢
    refine ⟨?_, ih free.2⟩
    rcases first with rfl | ⟨rfl, _⟩
    · exact free.1
    · simp

theorem reread (h : Blanks taken ls ls') (free : ∀ l ∈ ls, '\n' ∉ l.toList) :
    Text.lines (Text.unlines ls') = ls'.map bare :=
  Text.lines_unlines (h.newline_free free)

private theorem not_opensPragma_empty : ¬ OpensPragma "".toList := by
  rintro ⟨before, between, after, whole, _⟩
  simp at whole

theorem usedGroups (h : Blanks taken ls ls') (plain : ∀ l, taken l → ¬ OpensPragma l.toList)
    (inside : Bool) : usedGroups inside ls' = usedGroups inside ls := by
  induction h generalizing inside with
  | nil => rfl
  | cons first rest ih =>
    rcases first with rfl | ⟨rfl, out⟩
    · simp only [usedGroups_cons, ih]
    · rw [usedGroups_cons_of_not_opensPragma not_opensPragma_empty,
        usedGroups_cons_of_not_opensPragma (plain _ out), ih]

private theorem filterMap_usedGroup? (h : Blanks taken ls ls')
    (plain : ∀ l, taken l → ¬ OpensPragma l.toList) :
    (ls'.map bare).filterMap usedGroup? = (ls.map bare).filterMap usedGroup? := by
  induction h with
  | nil => rfl
  | cons first rest ih =>
    rw [List.map_cons, List.map_cons, List.filterMap_cons, List.filterMap_cons, ih]
    rcases first with rfl | ⟨rfl, out⟩
    · rfl
    · rw [usedGroup?_of_not_opensPragma (not_opensPragma_bare not_opensPragma_empty),
        usedGroup?_of_not_opensPragma (not_opensPragma_bare (plain _ out))]

end Blanks

theorem version_blanks (ls : List String) :
    Blanks (fun l => startsWith "#version" (Text.dropBlankEnds l.toList)) ls (version ls).2 := by
  induction ls with
  | nil => exact .nil
  | cons line rest ih =>
    rw [version]
    split
    · rename_i opens
      exact .cons (.inr ⟨rfl, opens⟩) (Blanks.refl _ rest)
    · split
      · exact Blanks.refl _ _
      · exact .cons (.inl rfl) ih

theorem constants_cons {first : UInt32} {line : String} {rest ls' : List String} {found : List SourceConstant}
    (done : constants first (line :: rest) = .ok (ls', found)) :
    ∃ kept first' later after, ls' = kept :: after ∧ constants first' rest = .ok (after, later) ∧
      ((recognizeConstant line.toList = .ordinary ∧ kept = line) ∨
        ∃ d, recognizeConstant line.toList = .directive d ∧ kept = "") := by
  obtain ⟨read, known, done⟩ := bind_eq_ok.mp done
  rcases Recognition.value?_eq_ok.mp known with ⟨recognized, rfl⟩ | ⟨d, recognized, rfl⟩
  · obtain ⟨⟨after, later⟩, tail, written⟩ := bind_eq_ok.mp done
    cases pure_eq_ok.mp written
    exact ⟨line, first, found, after, rfl, tail, .inl ⟨recognized, rfl⟩⟩
  · obtain ⟨⟨after, later⟩, tail, written⟩ := bind_eq_ok.mp done
    cases pure_eq_ok.mp written
    exact ⟨"", first + 1, later, after, rfl, tail, .inr ⟨d, recognized, rfl⟩⟩

theorem constants_blanks {first : UInt32} {ls ls' : List String} {found : List SourceConstant}
    (done : constants first ls = .ok (ls', found)) :
    Blanks (fun l => ∃ d, recognizeConstant l.toList = .directive d) ls ls' := by
  induction ls generalizing first ls' found with
  | nil =>
    cases done
    exact .nil
  | cons line rest ih =>
    obtain ⟨kept, first', later, after, rfl, tail, fate⟩ := constants_cons done
    rcases fate with ⟨_, rfl⟩ | ⟨d, recognized, rfl⟩
    · exact .cons (.inl rfl) (ih tail)
    · exact .cons (.inr ⟨rfl, d, recognized⟩) (ih tail)

private theorem interfaceFrom_tail {region : Option (List String)}
    {request asked : InterfaceRequest} {kept : String} {rest ls' : List String}
    (done : (do
      let (after, request) ← interfaceFrom region request rest
      pure (kept :: after, request)) = Except.ok (ls', asked)) :
    ∃ after, ls' = kept :: after ∧ interfaceFrom region request rest = .ok (after, asked) := by
  obtain ⟨⟨after, last⟩, tail, written⟩ := bind_eq_ok.mp done
  cases pure_eq_ok.mp written
  exact ⟨after, rfl, tail⟩

/-- What becomes of a line in the pass over interface directives, of the region that is open, and of the request. -/
theorem interfaceFrom_cons {region : Option (List String)} {request asked : InterfaceRequest}
    {line : String} {rest ls' : List String}
    (done : interfaceFrom region request (line :: rest) = .ok (ls', asked)) :
    ∃ kept region' request' after, ls' = kept :: after ∧
      interfaceFrom region' request' rest = .ok (after, asked) ∧
      match recognizeInterface line.toList with
      | .directive .overrideBegin => kept = "" ∧ region = none ∧ region' = some [] ∧ request' = request
      | .directive .overrideEnd =>
          kept = "" ∧ ∃ lines, region = some lines ∧ region' = none ∧ request' = request.addRegion lines
      | .directive .noFragmentOutput =>
          kept = "" ∧ region' = region ∧ request' = { request with noFragmentOutput := true }
      | .ordinary =>
          kept = (if region.isSome then "" else line) ∧ region' = region.map (· ++ [line]) ∧ request' = request
      | .malformed => False := by
  rw [interfaceFrom] at done
  obtain ⟨read, known, done⟩ := bind_eq_ok.mp done
  rcases Recognition.value?_eq_ok.mp known with ⟨recognized, rfl⟩ | ⟨d, recognized, rfl⟩
  · rw [recognized]
    cases region with
    | none =>
      obtain ⟨after, written, tail⟩ := interfaceFrom_tail done
      exact ⟨line, none, request, after, written, tail, rfl, rfl, rfl⟩
    | some lines =>
      obtain ⟨after, written, tail⟩ := interfaceFrom_tail done
      exact ⟨"", some (lines ++ [line]), request, after, written, tail, rfl, rfl, rfl⟩
  · rw [recognized]
    cases d with
    | overrideBegin =>
      cases region with
      | none =>
        obtain ⟨after, written, tail⟩ := interfaceFrom_tail done
        exact ⟨"", some [], request, after, written, tail, rfl, rfl, rfl, rfl⟩
      | some lines => cases done
    | overrideEnd =>
      cases region with
      | none => cases done
      | some lines =>
        obtain ⟨after, written, tail⟩ := interfaceFrom_tail done
        exact ⟨"", none, request.addRegion lines, after, written, tail, rfl, lines, rfl, rfl, rfl⟩
    | noFragmentOutput =>
      obtain ⟨after, written, tail⟩ := interfaceFrom_tail done
      exact ⟨"", region, _, after, written, tail, rfl, rfl, rfl⟩

theorem interfaceFrom_blanks {region : Option (List String)} {request asked : InterfaceRequest}
    {ls ls' : List String} (done : interfaceFrom region request ls = .ok (ls', asked)) :
    Blanks (fun _ => True) ls ls' := by
  induction ls generalizing region request ls' with
  | nil =>
    cases region with
    | none =>
      cases done
      exact .nil
    | some lines => cases done
  | cons line rest ih =>
    obtain ⟨kept, region', request', after, rfl, tail, fate⟩ := interfaceFrom_cons done
    refine .cons ?_ (ih tail)
    split at fate
    · exact .inr ⟨fate.1, trivial⟩
    · exact .inr ⟨fate.1, trivial⟩
    · exact .inr ⟨fate.1, trivial⟩
    · rw [fate.1]
      split
      · exact .inr ⟨rfl, trivial⟩
      · exact .inl rfl
    · exact fate.elim

private theorem filterMap_usedGroup?_cons (line : String) (rest : List String) :
    (line :: rest).filterMap usedGroup? =
      (usedGroup? line).toList ++ rest.filterMap usedGroup? := by
  rw [List.filterMap_cons]
  cases usedGroup? line <;> rfl

private theorem interfaceFrom_uses {region : Option (List String)} {request asked : InterfaceRequest}
    {ls ls' : List String} (done : interfaceFrom region request (ls.map bare) = .ok (ls', asked)) :
    ((ls'.map bare).map bare).filterMap usedGroup? = usedGroups region.isSome ls := by
  induction ls generalizing region request ls' with
  | nil =>
    cases region with
    | none =>
      cases done
      rfl
    | some lines => cases done
  | cons line rest ih =>
    obtain ⟨kept, region', request', after, rfl, tail, fate⟩ := interfaceFrom_cons done
    have later := ih tail
    have taken : usedGroup? (bare (bare "")) = none := by
      decide
    rw [List.map_cons, List.map_cons, filterMap_usedGroup?_cons, later, usedGroups_cons]
    cases recognized : recognizeInterface (bare line).toList with
    | malformed =>
      rw [recognized] at fate
      exact fate.elim
    | ordinary =>
      rw [recognized] at fate
      obtain ⟨rfl, rfl, _⟩ := fate
      cases region with
      | none => rfl
      | some lines => simp [taken]
    | directive d =>
      rw [recognized] at fate
      cases d with
      | overrideBegin =>
        obtain ⟨rfl, rfl, rfl, _⟩ := fate
        rw [taken]
        rfl
      | overrideEnd =>
        obtain ⟨rfl, lines, rfl, rfl, _⟩ := fate
        rw [taken]
        rfl
      | noFragmentOutput =>
        obtain ⟨rfl, rfl, _⟩ := fate
        rw [taken]
        rfl

/-- The lines that the pass over block directives reads ask for the groups that the text uses. -/
theorem uses_of_passes {text : String} {outside plain : List String} {asked : InterfaceRequest}
    {found : List SourceConstant}
    (interfaces :
      interface (Text.lines (Text.unlines (version (Text.lines text)).2)) = .ok (outside, asked))
    (declarations : constants 0 (Text.lines (Text.unlines outside)) = .ok (plain, found)) :
    (Text.lines (Text.unlines plain)).filterMap usedGroup? = usedGroups false (Text.lines text) := by
  have versions := version_blanks (Text.lines text)
  have free : ∀ l ∈ Text.lines text, '\n' ∉ l.toList := fun _ => Text.newline_free_of_mem_lines
  have free_outside : ∀ l ∈ outside, '\n' ∉ l.toList :=
    (interfaceFrom_blanks interfaces).newline_free fun _ => Text.newline_free_of_mem_lines
  have removed := constants_blanks declarations
  rw [removed.reread fun _ => Text.newline_free_of_mem_lines,
    removed.filterMap_usedGroup? fun l ⟨d, hd⟩ => not_opensPragma_of_constant hd,
    Text.lines_unlines free_outside]
  rw [versions.reread free] at interfaces
  rw [interfaceFrom_uses interfaces]
  exact versions.usedGroups (fun l opens => not_opensPragma_of_version opens) false

end Extraction

end ShaderPipeline
