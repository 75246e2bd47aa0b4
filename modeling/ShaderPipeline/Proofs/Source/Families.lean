import Mathlib
import ShaderPipeline.Proofs.Text.Trimmed
import ShaderPipeline.Source.Directive

/-!
Lines that are none of a family of directives.

Whether a line belongs to a family is decided by how it opens, so blanks at its end do not matter.  What holds of the
lines of a text therefore holds of the pieces between its newlines, and stays true when lines are written, joined,
marked, or trimmed at the end.
-/

set_option autoImplicit false
set_option relaxedAutoImplicit false

namespace ShaderPipeline

inductive DirectiveFamily where
  | includes | interfaces | constants | blocks
  deriving DecidableEq

/-- Whether a line is none of a family of directives, neither a good nor a malformed one. -/
def DirectiveFamily.Passes : DirectiveFamily → List Char → Prop
  | includes, line => Directive.recognizeInclude line = .ordinary
  | interfaces, line => Directive.recognizeInterface line = .ordinary
  | constants, line => Directive.recognizeConstant line = .ordinary
  | blocks, line => Directive.recognizeBlock line = .ordinary

instance (family : DirectiveFamily) (line : List Char) : Decidable (family.Passes line) :=
  match family with
  | .includes | .interfaces | .constants | .blocks => inferInstanceAs (Decidable (_ = _))

/-- Whether no line of a text is one of a family of directives. -/
def DirectiveFamily.FreeFrom (family : DirectiveFamily) (text : String) : Prop :=
  ∀ line ∈ Text.lines text, family.Passes line.toList

instance (family : DirectiveFamily) (text : String) : Decidable (family.FreeFrom text) :=
  inferInstanceAs (Decidable (∀ line ∈ Text.lines text, family.Passes line.toList))

namespace Text

variable {blanks : List Char}

private theorem dropStart?_append_blanks {start : List Char} (solid : ∀ c ∈ start, ¬ isBlank c)
    (nonempty : start ≠ []) (blank : ∀ c ∈ blanks, isBlank c) (cs : List Char) :
    dropStart? start (cs ++ blanks) = (dropStart? start cs).map (· ++ blanks) := by
  induction start generalizing cs with
  | nil => exact absurd rfl nonempty
  | cons p ps ih =>
    obtain ⟨first, others⟩ := List.forall_mem_cons.mp solid
    cases cs with
    | nil =>
      cases blanks with
      | nil => rfl
      | cons b bs =>
        have differs : p ≠ b := by
          rintro rfl
          exact first (blank p List.mem_cons_self)
        simp [dropStart?, differs]
    | cons c cs =>
      rw [List.cons_append, dropStart?, dropStart?]
      split
      · cases ps with
        | nil => rfl
        | cons q qs => exact ih others nofun cs
      · rfl

private theorem dropStart?_of_blank {start : List Char} (solid : ∀ c ∈ start, ¬ isBlank c)
    (nonempty : start ≠ []) (blank : ∀ c ∈ blanks, isBlank c) : dropStart? start blanks = none := by
  have whole := dropStart?_append_blanks solid nonempty blank []
  cases start with
  | nil => exact absurd rfl nonempty
  | cons p ps => exact whole

end Text

namespace Directive

open Text (isBlank)

variable {blanks : List Char} {keyword : String}

private theorem not_isIdentifierChar_of_isBlank {c : Char} (blank : isBlank c) :
    isIdentifierChar c = false := by
  have range : c.toNat ≤ 32 ∨ 133 ≤ c.toNat := by
    simp only [isBlank, Bool.or_eq_true, Bool.and_eq_true, decide_eq_true_eq, beq_iff_eq] at blank
    omega
  have code : c.val.toNat = c.toNat := rfl
  have underscore : c ≠ '_' := by
    rintro rfl
    revert range
    decide
  have alphanum : c.isAlphanum = false := by
    simp only [Char.isAlphanum, Char.isAlpha, Char.isUpper, Char.isLower, Char.isDigit, ge_iff_le,
      UInt32.le_iff_toNat_le, code, Bool.or_eq_false_iff, Bool.and_eq_false_iff, decide_eq_false_iff_not,
      Char.reduceVal, UInt32.reduceToNat]
    omega
  simp [isIdentifierChar, alphanum, underscore]

private theorem takeWhile_isIdentifierChar_append (blank : ∀ c ∈ blanks, isBlank c) (cs : List Char) :
    (cs ++ blanks).takeWhile isIdentifierChar = cs.takeWhile isIdentifierChar := by
  have none' : blanks.takeWhile isIdentifierChar = [] := by
    cases blanks with
    | nil => rfl
    | cons b bs => rw [List.takeWhile_cons, not_isIdentifierChar_of_isBlank (blank b List.mem_cons_self)]; rfl
  rw [List.takeWhile_append, none', List.append_nil]
  split
  · rename_i whole
    exact (List.takeWhile_prefix isIdentifierChar |>.eq_of_length whole).symm
  · rfl

theorem solid_of_all (all : keyword.toList.all (!isBlank ·) = true) :
    ∀ c ∈ keyword.toList, ¬ isBlank c := by
  intro c hc
  simpa using List.all_eq_true.mp all c hc

theorem skipWord?_dropWhile_append (skips : Char → Bool) (solid : ∀ c ∈ keyword.toList, ¬ isBlank c)
    (nonempty : keyword.toList ≠ []) (blank : ∀ c ∈ blanks, isBlank c) (cs : List Char) :
    skipWord? keyword ((cs ++ blanks).dropWhile skips) =
      (skipWord? keyword (cs.dropWhile skips)).map (· ++ blanks) := by
  rw [List.dropWhile_append]
  split
  · rename_i nothing
    have left : ∀ c ∈ blanks.dropWhile skips, isBlank c := by
      intro c hc
      exact blank c ((List.dropWhile_suffix skips).subset hc)
    have bare : cs.dropWhile skips = [] := List.isEmpty_iff.mp nothing
    rw [bare, skipWord?, skipWord?, Text.dropStart?_of_blank solid nonempty left,
      Text.dropStart?_of_blank solid nonempty (by simp), Option.map_none]
  · exact Text.dropStart?_append_blanks solid nonempty blank _

private theorem opensWith_append_blanks (solid : keyword.toList.all (!isBlank ·) = true)
    (nonempty : keyword.toList ≠ []) (blank : ∀ c ∈ blanks, isBlank c) (line : List Char) :
    opensWith keyword (line ++ blanks) = opensWith keyword line := by
  have skipped := skipWord?_dropWhile_append isBlank (solid_of_all solid) nonempty blank line
  rw [opensWith, opensWith, Text.dropBlankStart, Text.dropBlankStart, skipped]
  cases found : skipWord? keyword (line.dropWhile isBlank) with
  | none => rfl
  | some rest =>
    cases rest with
    | cons c cs => rfl
    | nil =>
      cases blanks with
      | nil => rfl
      | cons b bs => simp [blank b List.mem_cons_self]

private theorem identifier?_skipGap?_append (blank : ∀ c ∈ blanks, isBlank c) (cs : List Char) :
    ((skipGap? (cs ++ blanks)).bind identifier?).map (·.1) = ((skipGap? cs).bind identifier?).map (·.1) := by
  have taken : ∀ l, (identifier? l).map (·.1) =
      if l.takeWhile isIdentifierChar = [] then none else some (l.takeWhile isIdentifierChar) := by
    intro l
    rw [identifier?, takeSome?]
    split
    · rename_i nothing
      rw [nothing]
      rfl
    · rename_i something
      rw [if_neg something]
      rfl
  have unnamed : ∀ l : List Char, (∀ c ∈ l, isBlank c) → l.takeWhile isIdentifierChar = [] := by
    intro l all
    simpa using takeWhile_isIdentifierChar_append all []
  have gaps : ∀ l : List Char, (skipGap (l ++ blanks)).takeWhile isIdentifierChar =
      (skipGap l).takeWhile isIdentifierChar := by
    intro l
    rw [skipGap, skipGap, List.dropWhile_append]
    split
    · rename_i nothing
      rw [List.isEmpty_iff.mp nothing]
      exact unnamed _ fun c hc => blank c ((List.dropWhile_suffix isGap).subset hc)
    · exact takeWhile_isIdentifierChar_append blank _
  cases cs with
  | nil =>
    cases blanks with
    | nil => rfl
    | cons b bs =>
      have rest := unnamed _ fun c hc => blank c (List.mem_cons_of_mem b ((List.dropWhile_suffix isGap).subset hc))
      rw [List.nil_append, skipGap?]
      split
      · rw [Option.bind_some, taken, skipGap, rest]
        rfl
      · rfl
  | cons c cs =>
    rw [List.cons_append, skipGap?, skipGap?]
    split
    · rw [Option.bind_some, Option.bind_some, taken, taken, gaps]
    · rfl

private theorem pragmaName?_append_blanks (blank : ∀ c ∈ blanks, isBlank c) (line : List Char) :
    pragmaName? (line ++ blanks) = pragmaName? line := by
  have named : ∀ line, pragmaName? line = (((skipWord? "#" (skipGap line)).bind fun cs =>
      (skipWord? "pragma" (skipGap cs)).bind fun cs =>
        ((skipGap? cs).bind identifier?).map (·.1)).map String.ofList) := by
    intro line
    simp only [pragmaName?, pragmaBody?, bind, pure, Option.bind_assoc, Option.map_eq_bind]
    rfl
  have solid : ∀ c ∈ "#".toList, ¬ isBlank c := solid_of_all (by decide)
  have solid' : ∀ c ∈ "pragma".toList, ¬ isBlank c := solid_of_all (by decide)
  have mark := skipWord?_dropWhile_append isGap solid (by decide) blank
  have word := skipWord?_dropWhile_append isGap solid' (by decide) blank
  rw [named, named, skipGap, mark, skipGap]
  cases skipWord? "#" (line.dropWhile isGap) with
  | none => rfl
  | some rest =>
    simp only [Option.map_some, Option.bind_some, skipGap, word]
    cases skipWord? "pragma" (rest.dropWhile isGap) with
    | none => rfl
    | some rest =>
      simp only [Option.map_some, Option.bind_some, identifier?_skipGap?_append blank]

end Directive

namespace DirectiveFamily

open Text (isBlank)

variable {family : DirectiveFamily} {text : String} {ls : List String}

private theorem ofParsed_ne_ordinary {α : Type} (parsed : Option α) :
    Recognition.ofParsed parsed ≠ .ordinary := by
  cases parsed <;> exact nofun

theorem passes_iff {line : List Char} : family.Passes line ↔
    match family with
    | includes => Directive.opensWith "#include" line = false
    | interfaces => Directive.pragmaName? line ≠ some "no_fragment_output" ∧
        Directive.pragmaName? line ≠ some "interface_override"
    | constants => Directive.opensWith "spec_const" line = false
    | blocks => Directive.pragmaName? line ≠ some "use_resource_block" := by
  cases family with
  | includes =>
    rw [Passes, Directive.recognizeInclude]
    cases Directive.opensWith "#include" line <;> simp [ofParsed_ne_ordinary]
  | constants =>
    rw [Passes, Directive.recognizeConstant]
    cases Directive.opensWith "spec_const" line <;> simp [ofParsed_ne_ordinary]
  | interfaces =>
    rw [Passes, Directive.recognizeInterface]
    split
    · rename_i named
      simp [named]
    · rename_i named
      simp [named, ofParsed_ne_ordinary]
    · rename_i quiet outside
      exact iff_of_true rfl ⟨quiet, outside⟩
  | blocks =>
    rw [Passes, Directive.recognizeBlock]
    split
    · rename_i named
      simp [named, ofParsed_ne_ordinary]
    · rename_i other
      exact iff_of_true rfl other

theorem passes_of_unnamed {line : List Char} (unnamed : Directive.pragmaName? line = none)
    (noInclude : Directive.opensWith "#include" line = false)
    (noConstant : Directive.opensWith "spec_const" line = false) (family : DirectiveFamily) : family.Passes line := by
  rw [passes_iff, unnamed]
  cases family with
  | includes => exact noInclude
  | constants => exact noConstant
  | interfaces => simp
  | blocks => simp

private theorem passes_append_blanks {blanks : List Char} (blank : ∀ c ∈ blanks, isBlank c) (line : List Char) :
    family.Passes (line ++ blanks) ↔ family.Passes line := by
  rw [passes_iff, passes_iff, Directive.pragmaName?_append_blanks blank,
    Directive.opensWith_append_blanks (by decide) (by decide) blank,
    Directive.opensWith_append_blanks (by decide) (by decide) blank]

theorem passes_nil (family : DirectiveFamily) : family.Passes [] := by
  cases family <;> decide

private theorem passes_append_return (line : List Char) : family.Passes (line ++ ['\r']) ↔ family.Passes line :=
  passes_append_blanks (List.forall_mem_singleton.mpr rfl) line

theorem passes_bare {line : String} : family.Passes (Text.bare line).toList ↔ family.Passes line.toList := by
  rw [Text.bare, String.toList_ofList]
  rcases Text.dropReturn_cases line.toList with same | dropped
  · rw [same]
  · conv => rhs; rw [dropped, passes_append_return]

private theorem freeFrom_iff : family.FreeFrom text ↔ ∀ p ∈ Text.pieces (· == '\n') text.toList, family.Passes p := by
  constructor
  · intro free p hp
    rcases Text.mem_charLines_of_mem_pieces hp with rfl | ⟨l, hl, same⟩
    · exact passes_nil family
    · have passes : family.Passes l := by
        simpa using free (String.ofList l) (List.mem_map_of_mem hl)
      rcases same with rfl | rfl
      · exact passes
      · exact (passes_append_return l).mpr passes
  · intro free line hline
    obtain ⟨l, hl, rfl⟩ := List.mem_map.mp hline
    rw [String.toList_ofList]
    rcases Text.mem_pieces_of_mem_charLines hl with same | returned
    · exact free l same
    · exact (passes_append_return l).mp (free _ returned)

theorem freeFrom_unlines (lines : ∀ l ∈ ls, '\n' ∉ l.toList) :
    family.FreeFrom (Text.unlines ls) ↔ ∀ l ∈ ls, family.Passes l.toList := by
  rw [freeFrom_iff, Text.pieces_unlines lines]
  constructor
  · intro free l hl
    exact free l.toList (List.mem_append_left _ (List.mem_map_of_mem hl))
  · intro free p hp
    rcases List.mem_append.mp hp with own | last
    · obtain ⟨l, hl, rfl⟩ := List.mem_map.mp own
      exact free l hl
    · rw [List.mem_singleton.mp last]
      exact passes_nil family

theorem freeFrom_joinLines (lines : ∀ l ∈ ls, '\n' ∉ l.toList) :
    family.FreeFrom (Text.joinLines ls) ↔ ∀ l ∈ ls, family.Passes l.toList := by
  cases ls with
  | nil =>
    have empty : family.FreeFrom (Text.joinLines []) := nofun
    simpa using empty
  | cons l ls =>
    rw [freeFrom_iff, Text.pieces_joinLines lines]
    simp

theorem freeFrom_append {mark : String} (line : '\n' ∉ mark.toList) :
    family.FreeFrom (mark ++ "\n" ++ text) ↔ family.Passes mark.toList ∧ family.FreeFrom text := by
  rw [freeFrom_iff, freeFrom_iff, Text.pieces_line_append line, List.forall_mem_cons]

theorem freeFrom_trimEnd (free : family.FreeFrom text) : family.FreeFrom (Text.trimEnd text) := by
  rw [freeFrom_iff] at free ⊢
  intro p hp
  rw [Text.toList_trimEnd] at hp
  obtain ⟨blanks, whole, blank⟩ := Text.exists_blanks_after text.toList
  obtain ⟨more, subset, longer⟩ := Text.exists_mem_pieces_append blanks hp
  rw [← whole] at longer
  exact (passes_append_blanks (fun c hc => blank c (subset hc)) p).mp (free _ longer)

end DirectiveFamily

end ShaderPipeline
