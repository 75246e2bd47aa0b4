import Mathlib.Data.List.TakeWhile
import ShaderPipeline.Proofs.Text.Lines

/-!
Lines of a text up to the blanks at their ends.

A carriage return is blank, and the blanks that are trimmed from the end of a text are blanks at the ends of its lines.
So the lines of a text can be compared, up to those blanks, with the pieces between its newlines.
-/

set_option autoImplicit false
set_option relaxedAutoImplicit false

namespace ShaderPipeline.Text

/-- The line of a text at a place, without the blanks at its end; beyond the last line it is empty. -/
def lineAt (text : String) (place : Nat) : String :=
  trimEnd ((lines text)[place]?.getD "")

variable {cs blanks : List Char} {text : String}

theorem dropBlankEnd_eq_nil : dropBlankEnd cs = [] ↔ ∀ c ∈ cs, isBlank c := by
  rw [dropBlankEnd, List.reverse_eq_nil_iff, List.dropWhile_eq_nil_iff]
  simp only [List.mem_reverse]

private theorem dropBlankEnd_append (blank : ∀ c ∈ blanks, isBlank c) : dropBlankEnd (cs ++ blanks) = dropBlankEnd cs := by
  rw [dropBlankEnd, List.reverse_append, List.dropWhile_append_of_pos, dropBlankEnd]
  intro c hc
  exact blank c (List.mem_reverse.mp hc)

private theorem dropBlankEnd_dropReturn (cs : List Char) : dropBlankEnd (dropReturn cs) = dropBlankEnd cs := by
  rcases dropReturn_cases cs with same | dropped
  · rw [same]
  · have blank : ∀ c ∈ ['\r'], isBlank c := List.forall_mem_singleton.mpr rfl
    conv => rhs; rw [dropped, dropBlankEnd_append blank]

theorem exists_blanks_after (cs : List Char) : ∃ blanks, cs = dropBlankEnd cs ++ blanks ∧ ∀ c ∈ blanks, isBlank c := by
  refine ⟨(cs.reverse.takeWhile isBlank).reverse, ?_, ?_⟩
  · rw [dropBlankEnd, ← List.reverse_append, List.takeWhile_append_dropWhile, List.reverse_reverse]
  · intro c hc
    exact List.mem_takeWhile_imp (List.mem_reverse.mp hc)

theorem toList_trimEnd (text : String) : (trimEnd text).toList = dropBlankEnd text.toList := by
  rw [trimEnd, String.toList_ofList]

theorem trimEnd_bare (line : String) : trimEnd (bare line) = trimEnd line := by
  rw [trimEnd, bare, String.toList_ofList, dropBlankEnd_dropReturn, trimEnd]

private theorem dropBlankEnds_append (blank : ∀ c ∈ blanks, isBlank c) :
    dropBlankEnds (cs ++ blanks) = dropBlankEnds cs := by
  rw [dropBlankEnds, dropBlankEnds, dropBlankStart, List.dropWhile_append]
  split
  · rename_i nothing
    have none' : dropBlankStart cs = [] := List.isEmpty_iff.mp nothing
    have blank' : dropBlankEnd (blanks.dropWhile isBlank) = [] :=
      dropBlankEnd_eq_nil.mpr fun c hc => blank c ((List.dropWhile_suffix isBlank).subset hc)
    rw [blank', none']
    rfl
  · exact dropBlankEnd_append blank

theorem trim_trimEnd (line : String) : trim (trimEnd line) = trim line := by
  obtain ⟨blanks, whole, blank⟩ := exists_blanks_after line.toList
  rw [trim, trim, toList_trimEnd]
  conv => rhs; rw [whole, dropBlankEnds_append blank]

private theorem dropBlankEnd_linesOfPieces (ps : List (List Char)) (place : Nat) :
    dropBlankEnd ((linesOfPieces ps)[place]?.getD []) = dropBlankEnd (ps[place]?.getD []) := by
  fun_induction linesOfPieces ps generalizing place with
  | case1 => rfl
  | case2 last empty =>
    rw [List.isEmpty_iff.mp empty]
    cases place <;> rfl
  | case3 last => rfl
  | case4 p q ps ih =>
    cases place with
    | zero => exact dropBlankEnd_dropReturn p
    | succ place => exact ih place

private theorem lineAt_eq (text : String) (place : Nat) :
    lineAt text place = String.ofList (dropBlankEnd ((pieces (· == '\n') text.toList)[place]?.getD [])) := by
  have taken : ((lines text)[place]?.getD "").toList = (charLines text.toList)[place]?.getD [] := by
    rw [lines, List.getElem?_map]
    cases (charLines text.toList)[place]? with
    | none => rfl
    | some l => exact String.toList_ofList
  rw [lineAt, trimEnd, taken, charLines, dropBlankEnd_linesOfPieces]

theorem lineAt_unlines {ls : List String} (free : ∀ l ∈ ls, '\n' ∉ l.toList) (place : Nat) :
    lineAt (unlines ls) place = trimEnd (ls[place]?.getD "") := by
  rw [lineAt, lines_unlines free, List.getElem?_map]
  cases ls[place]? with
  | none => rfl
  | some l => exact trimEnd_bare l

private theorem subset_of_mem_pieces {isSeparator : Char → Bool} {p : List Char} (hp : p ∈ pieces isSeparator cs) : p ⊆ cs := by
  induction cs generalizing p with
  | nil =>
    rw [List.mem_singleton.mp hp]
    exact List.nil_subset []
  | cons c cs ih =>
    rw [pieces] at hp
    split at hp
    · rcases List.mem_cons.mp hp with rfl | later
      · exact List.nil_subset _
      · exact List.subset_cons_of_subset c (ih later)
    · cases cut : pieces isSeparator cs with
      | nil => exact absurd cut (pieces_ne_nil _ _)
      | cons q ps =>
        rw [cut] at hp ih
        rcases List.mem_cons.mp hp with rfl | later
        · exact List.cons_subset_cons c (ih List.mem_cons_self)
        · exact List.subset_cons_of_subset c (ih (List.mem_cons_of_mem q later))

theorem lineAt_trimEnd (text : String) (place : Nat) : lineAt (trimEnd text) place = lineAt text place := by
  obtain ⟨blanks, whole, blank⟩ := exists_blanks_after text.toList
  obtain ⟨before, last, first, after, own, cut, joined⟩ :=
    pieces_append_eq (· == '\n') (dropBlankEnd text.toList) blanks
  rw [← whole] at joined
  have blankPiece : ∀ p ∈ first :: after, ∀ c ∈ p, isBlank c := by
    intro p hp c hc
    exact blank c (subset_of_mem_pieces (cut ▸ hp) hc)
  rw [lineAt_eq, lineAt_eq, toList_trimEnd, own, joined]
  congr 1
  rcases Nat.lt_trichotomy place before.length with inside | rfl | beyond
  · rw [List.getElem?_append_left inside, List.getElem?_append_left inside]
  · -- The last piece that is left goes on in blanks.
    simpa using (dropBlankEnd_append (blankPiece first List.mem_cons_self)).symm
  · obtain ⟨more, rfl⟩ := Nat.exists_eq_add_of_lt beyond
    have own : (before ++ [last])[before.length + more + 1]? = none := List.getElem?_eq_none (by simp)
    have later : (before ++ (last ++ first) :: after)[before.length + more + 1]? = after[more]? := by
      rw [List.getElem?_append_right (by omega), show before.length + more + 1 - before.length = more + 1 by omega,
        List.getElem?_cons_succ]
    rw [own, later]
    refine (dropBlankEnd_eq_nil.mpr ?_).symm
    cases found : after[more]? with
    | none => exact nofun
    | some p => exact blankPiece p (List.mem_cons_of_mem first (List.mem_of_getElem? found))

private theorem length_linesOfPieces (before : List (List Char)) (last : List Char) :
    (linesOfPieces (before ++ [last])).length = before.length + if last.isEmpty then 0 else 1 := by
  induction before with
  | nil =>
    rw [List.nil_append, linesOfPieces]
    split <;> rfl
  | cons p before ih =>
    have step : linesOfPieces (p :: before ++ [last]) = dropReturn p :: linesOfPieces (before ++ [last]) := by
      cases before <;> rfl
    rw [step, List.length_cons, List.length_cons, ih]
    omega

theorem length_lines_trimEnd_le (text : String) : (lines (trimEnd text)).length ≤ (lines text).length := by
  obtain ⟨blanks, whole, _⟩ := exists_blanks_after text.toList
  obtain ⟨before, last, first, after, own, _, joined⟩ :=
    pieces_append_eq (· == '\n') (dropBlankEnd text.toList) blanks
  rw [← whole] at joined
  have trimmed : (lines (trimEnd text)).length = before.length + if last.isEmpty then 0 else 1 := by
    rw [lines, List.length_map, toList_trimEnd, charLines, own, length_linesOfPieces]
  rw [trimmed, lines, List.length_map, charLines, joined]
  rcases List.eq_nil_or_concat after with rfl | ⟨after, final, rfl⟩
  · rw [length_linesOfPieces]
    cases last <;> simp
  · rw [List.concat_eq_append, ← List.cons_append, ← List.append_assoc, length_linesOfPieces, List.length_append,
      List.length_cons]
    split <;> omega

/-- A text that starts with a whole line has that line at its first place, and all others one place later. -/
theorem lineAt_append {line : String} (free : '\n' ∉ line.toList) (place : Nat) :
    lineAt (line ++ "\n" ++ text) place =
      match place with
      | 0 => trimEnd line
      | place + 1 => lineAt text place := by
  rw [lineAt_eq, pieces_line_append free]
  cases place with
  | zero => rfl
  | succ place => exact (lineAt_eq text place).symm

end ShaderPipeline.Text
