import ShaderPipeline.Text.Line

/-!
Writing lines and reading them again.

The lines of a text hold no newlines.  When such lines are written one after the other and read again, each comes
back without one carriage return at its end; so a text that passes from one reader to the next keeps its lines up to
the returns at their ends.
-/

set_option autoImplicit false
set_option relaxedAutoImplicit false

namespace ShaderPipeline.Text

theorem dropReturn_cases (cs : List Char) : dropReturn cs = cs ∨ cs = dropReturn cs ++ ['\r'] := by
  fun_induction dropReturn cs with
  | case1 => exact .inl rfl
  | case2 => exact .inr rfl
  | case3 c cs _ ih =>
    rcases ih with same | dropped
    · exact .inl (congrArg (c :: ·) same)
    · exact .inr (congrArg (c :: ·) dropped)

private theorem mem_of_mem_dropReturn {c : Char} {cs : List Char} (hc : c ∈ dropReturn cs) : c ∈ cs := by
  rcases dropReturn_cases cs with same | dropped
  · exact same ▸ hc
  · rw [dropped]
    exact List.mem_append_left _ hc

theorem pieces_ne_nil (isSeparator : Char → Bool) (cs : List Char) : pieces isSeparator cs ≠ [] := by
  cases cs with
  | nil => exact nofun
  | cons c cs =>
    rw [pieces]
    split
    · exact nofun
    · split <;> exact nofun

private theorem pieces_append {isSeparator : Char → Bool} {p : List Char} {c : Char} (cs : List Char)
    (inner : ∀ d ∈ p, ¬ isSeparator d) (outer : isSeparator c) :
    pieces isSeparator (p ++ c :: cs) = p :: pieces isSeparator cs := by
  induction p with
  | nil => simp [pieces, outer]
  | cons d p ih =>
    have rest := ih fun e he => inner e (List.mem_cons_of_mem d he)
    have kept := inner d List.mem_cons_self
    rw [List.cons_append, pieces, if_neg kept, rest]

theorem pieces_of_free {isSeparator : Char → Bool} {p : List Char} (inner : ∀ d ∈ p, ¬ isSeparator d) :
    pieces isSeparator p = [p] := by
  induction p with
  | nil => rfl
  | cons d p ih =>
    have rest := ih fun e he => inner e (List.mem_cons_of_mem d he)
    rw [pieces, if_neg (inner d List.mem_cons_self), rest]

private theorem separator_free_of_mem_pieces {isSeparator : Char → Bool} {cs p : List Char}
    (hp : p ∈ pieces isSeparator cs) : ∀ d ∈ p, ¬ isSeparator d := by
  induction cs generalizing p with
  | nil => simp_all [pieces]
  | cons c cs ih =>
    rw [pieces] at hp
    split at hp
    · rcases List.mem_cons.mp hp with rfl | hp
      · exact nofun
      · exact ih hp
    · rename_i plain
      cases known : pieces isSeparator cs with
      | nil => exact absurd known (pieces_ne_nil _ _)
      | cons q ps =>
        rw [known] at hp ih
        rcases List.mem_cons.mp hp with rfl | hp
        · intro d hd
          rcases List.mem_cons.mp hd with rfl | hd
          · exact plain
          · exact ih List.mem_cons_self d hd
        · exact ih (List.mem_cons_of_mem q hp)

private theorem newline_free_of_mem_linesOfPieces {ps : List (List Char)}
    (free : ∀ p ∈ ps, '\n' ∉ p) : ∀ l ∈ linesOfPieces ps, '\n' ∉ l := by
  fun_induction linesOfPieces ps with
  | case1 => exact nofun
  | case2 last => exact nofun
  | case3 last => exact free
  | case4 p q ps ih =>
    intro l hl newline
    rcases List.mem_cons.mp hl with rfl | hl
    · exact free p List.mem_cons_self (mem_of_mem_dropReturn newline)
    · exact ih (fun r hr => free r (List.mem_cons_of_mem p hr)) l hl newline

theorem newline_free_of_mem_lines {s l : String} (hl : l ∈ lines s) : '\n' ∉ l.toList := by
  obtain ⟨cs, hcs, rfl⟩ := List.mem_map.mp hl
  rw [String.toList_ofList]
  refine newline_free_of_mem_linesOfPieces (fun p hp newline => ?_) cs hcs
  exact separator_free_of_mem_pieces hp '\n' newline (by decide)

private theorem charLines_written {ls : List (List Char)} (free : ∀ l ∈ ls, '\n' ∉ l) :
    charLines (ls.flatMap (· ++ ['\n'])) = ls.map dropReturn := by
  induction ls with
  | nil => rfl
  | cons l ls ih =>
    have own : ∀ d ∈ l, ¬ (d == '\n') := by
      intro d hd newline
      obtain rfl := beq_iff_eq.mp newline
      exact free l List.mem_cons_self hd
    have rest := ih fun m hm => free m (List.mem_cons_of_mem l hm)
    rw [List.flatMap_cons, List.append_assoc, charLines, List.singleton_append,
      pieces_append _ own (by decide), List.map_cons, ← rest, charLines]
    cases later : pieces (· == '\n') (ls.flatMap (· ++ ['\n'])) with
    | nil => exact absurd later (pieces_ne_nil _ _)
    | cons q ps => rfl

/-- A line without one carriage return at its end. -/
def bare (line : String) : String :=
  String.ofList (dropReturn line.toList)

private theorem toList_unlines (ls : List String) :
    (unlines ls).toList = (ls.map String.toList).flatMap (· ++ ['\n']) := by
  rw [unlines, String.toList_join, List.flatMap_map, List.flatMap_map]
  simp

theorem lines_unlines {ls : List String} (free : ∀ l ∈ ls, '\n' ∉ l.toList) :
    lines (unlines ls) = ls.map bare := by
  rw [lines, toList_unlines, charLines_written, List.map_map, List.map_map]
  · rfl
  · simpa using free

theorem mem_pieces_of_mem_charLines {cs l : List Char} (hl : l ∈ charLines cs) :
    l ∈ pieces (· == '\n') cs ∨ l ++ ['\r'] ∈ pieces (· == '\n') cs := by
  rw [charLines] at hl
  generalize pieces (· == '\n') cs = ps at hl ⊢
  fun_induction linesOfPieces ps with
  | case1 => cases hl
  | case2 last => cases hl
  | case3 last => exact .inl hl
  | case4 p q ps ih =>
    rcases List.mem_cons.mp hl with rfl | hl
    · rcases dropReturn_cases p with same | dropped
      · exact .inl (same.symm ▸ List.mem_cons_self)
      · exact .inr (dropped ▸ List.mem_cons_self)
    · rcases ih hl with same | dropped
      · exact .inl (List.mem_cons_of_mem p same)
      · exact .inr (List.mem_cons_of_mem p dropped)

theorem mem_charLines_of_mem_pieces {cs p : List Char} (hp : p ∈ pieces (· == '\n') cs) :
    p = [] ∨ ∃ l ∈ charLines cs, p = l ∨ p = l ++ ['\r'] := by
  rw [charLines]
  generalize pieces (· == '\n') cs = ps at hp ⊢
  fun_induction linesOfPieces ps with
  | case1 => cases hp
  | case2 last empty =>
    rw [List.mem_singleton.mp hp]
    exact .inl (List.isEmpty_iff.mp empty)
  | case3 last => exact .inr ⟨p, hp, .inl rfl⟩
  | case4 q r ps ih =>
    rcases List.mem_cons.mp hp with rfl | hp
    · exact .inr ⟨dropReturn p, List.mem_cons_self, (dropReturn_cases p).imp Eq.symm id⟩
    · exact (ih hp).imp_right fun ⟨l, hl, same⟩ => ⟨l, List.mem_cons_of_mem _ hl, same⟩

private theorem prefix_of_pieces_eq_cons {isSeparator : Char → Bool} {cs p : List Char} {ps : List (List Char)}
    (cut : pieces isSeparator cs = p :: ps) : p <+: cs := by
  induction cs generalizing p ps with
  | nil =>
    cases cut
    exact List.prefix_rfl
  | cons c cs ih =>
    rw [pieces] at cut
    split at cut
    · cases cut
      exact List.nil_prefix
    · cases later : pieces isSeparator cs with
      | nil => exact absurd later (pieces_ne_nil _ _)
      | cons q qs =>
        rw [later] at cut
        cases cut
        exact List.cons_prefix_cons.mpr ⟨rfl, ih later⟩

theorem pieces_append_eq (isSeparator : Char → Bool) (cs later : List Char) :
    ∃ before last first after, pieces isSeparator cs = before ++ [last] ∧
      pieces isSeparator later = first :: after ∧
        pieces isSeparator (cs ++ later) = before ++ (last ++ first) :: after := by
  cases cut : pieces isSeparator later with
  | nil => exact absurd cut (pieces_ne_nil _ _)
  | cons first after =>
    induction cs with
    | nil => exact ⟨[], [], first, after, rfl, rfl, cut⟩
    | cons c cs ih =>
      obtain ⟨before, last, _, _, own, ⟨⟩, whole⟩ := ih
      by_cases separator : isSeparator c
      · exact ⟨[] :: before, last, first, after, by simp [pieces, separator, own], rfl,
          by simp [pieces, separator, whole]⟩
      · cases before with
        | nil =>
          exact ⟨[], c :: last, first, after, by simp [pieces, separator, own], rfl,
            by simp [pieces, separator, whole]⟩
        | cons p before =>
          exact ⟨(c :: p) :: before, last, first, after, by simp [pieces, separator, own], rfl,
            by simp [pieces, separator, whole]⟩

theorem exists_mem_pieces_append {isSeparator : Char → Bool} {cs p : List Char} (later : List Char)
    (hp : p ∈ pieces isSeparator cs) :
    ∃ more, more ⊆ later ∧ p ++ more ∈ pieces isSeparator (cs ++ later) := by
  obtain ⟨before, last, first, after, own, cut, whole⟩ := pieces_append_eq isSeparator cs later
  rw [own] at hp
  rw [whole]
  rcases List.mem_append.mp hp with inner | final
  · exact ⟨[], List.nil_subset later, by simp [inner]⟩
  · rw [List.mem_singleton.mp final]
    exact ⟨first, (prefix_of_pieces_eq_cons cut).subset, by simp⟩

private theorem separator_free {p : List Char} (free : '\n' ∉ p) : ∀ c ∈ p, ¬ (c == '\n') := by
  intro c hc newline
  exact free (beq_iff_eq.mp newline ▸ hc)

theorem pieces_line_append {line : String} (free : '\n' ∉ line.toList) (text : String) :
    pieces (· == '\n') (line ++ "\n" ++ text).toList = line.toList :: pieces (· == '\n') text.toList := by
  rw [String.toList_append, String.toList_append, List.append_assoc]
  exact pieces_append _ (separator_free free) (by decide)

theorem pieces_unlines {ls : List String} (free : ∀ l ∈ ls, '\n' ∉ l.toList) :
    pieces (· == '\n') (unlines ls).toList = ls.map String.toList ++ [[]] := by
  rw [toList_unlines]
  induction ls with
  | nil => rfl
  | cons l ls ih =>
    obtain ⟨own, others⟩ := List.forall_mem_cons.mp free
    rw [List.map_cons, List.flatMap_cons, List.append_assoc, List.singleton_append,
      pieces_append _ (separator_free own) (by decide), ih others, List.cons_append]

theorem pieces_joinLines {l : String} {ls : List String} (free : ∀ m ∈ l :: ls, '\n' ∉ m.toList) :
    pieces (· == '\n') (joinLines (l :: ls)).toList = (l :: ls).map String.toList := by
  rw [joinLines]
  induction ls generalizing l with
  | nil =>
    exact pieces_of_free (separator_free (free l List.mem_cons_self))
  | cons m ls ih =>
    obtain ⟨own, others⟩ := List.forall_mem_cons.mp free
    have rest := ih others
    rw [String.intercalate_cons_cons, String.toList_append, String.toList_append, List.append_assoc]
    exact (pieces_append _ (separator_free own) (by decide)).trans (congrArg _ rest)

end ShaderPipeline.Text
