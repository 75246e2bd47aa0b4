import ShaderPipeline.Proofs.Text.Trimmed

/-!
Words of a text.

A word is a run of characters that are not blank, with a blank or an end of the text on either side.  Main statements:
the words of a text are those that stand in it so, those of two texts with a blank between them are those of the one and
those of the other, and blanks at the ends of a text do not matter.
-/

set_option autoImplicit false
set_option relaxedAutoImplicit false

namespace ShaderPipeline.Text

/-- Whether a run of characters stands in a text by itself: what is around it ends and starts with a blank. -/
def StandsIn (w cs : List Char) : Prop :=
  ∃ before after, cs = before ++ w ++ after ∧ (∀ c ∈ before.getLast?, isBlank c) ∧ ∀ c ∈ after.head?, isBlank c

def HasWord (word text : String) : Prop :=
  StandsIn word.toList text.toList

variable {cs later blanks w : List Char} {c : Char}

private theorem pieces_bounded {isSeparator : Char → Bool} {p : List Char} {ps : List (List Char)}
    (cut : pieces isSeparator cs = p :: ps) :
    (∃ after, cs = p ++ after ∧ ∀ c ∈ after.head?, isSeparator c) ∧
      ∀ w ∈ ps, ∃ before c after, cs = before ++ c :: w ++ after ∧ isSeparator c ∧
        ∀ d ∈ after.head?, isSeparator d := by
  induction cs generalizing p ps with
  | nil =>
    cases cut
    exact ⟨⟨[], rfl, nofun⟩, nofun⟩
  | cons c cs ih =>
    obtain ⟨q, qs, known⟩ := List.exists_cons_of_ne_nil (pieces_ne_nil isSeparator cs)
    obtain ⟨⟨after, whole, bounded⟩, others⟩ := ih known
    rw [pieces, known] at cut
    have shifted : ∀ w ∈ qs, ∃ before d after, c :: cs = before ++ d :: w ++ after ∧ isSeparator d ∧
        ∀ e ∈ after.head?, isSeparator e := by
      intro w hw
      obtain ⟨before, d, after, same, separator, bounded⟩ := others w hw
      exact ⟨c :: before, d, after, congrArg _ same, separator, bounded⟩
    by_cases separator : isSeparator c
    · rw [if_pos separator] at cut
      cases cut
      refine ⟨⟨c :: cs, rfl, fun d hd => ?_⟩, fun w hw => ?_⟩
      · obtain rfl := Option.some.inj hd
        exact separator
      · rcases List.mem_cons.mp hw with rfl | hw
        · exact ⟨[], c, after, congrArg _ whole, separator, bounded⟩
        · exact shifted w hw
    · rw [if_neg separator] at cut
      cases cut
      exact ⟨⟨after, congrArg _ whole, bounded⟩, shifted⟩

private theorem standsIn_of_mem_pieces (hw : w ∈ pieces isBlank cs) : StandsIn w cs := by
  obtain ⟨p, ps, cut⟩ := List.exists_cons_of_ne_nil (pieces_ne_nil isBlank cs)
  obtain ⟨⟨after, whole, bounded⟩, others⟩ := pieces_bounded cut
  rw [cut] at hw
  rcases List.mem_cons.mp hw with rfl | hw
  · exact ⟨[], after, whole, nofun, bounded⟩
  · obtain ⟨before, c, after, same, blank, bounded⟩ := others w hw
    refine ⟨before ++ [c], after, by simpa using same, fun d hd => ?_, bounded⟩
    rw [List.getLast?_concat] at hd
    obtain rfl := Option.some.inj hd
    exact blank

private theorem blankWords_append (cs later : List Char) (blank : isBlank c) :
    blankWords (cs ++ c :: later) = blankWords cs ++ blankWords later := by
  obtain ⟨before, last, first, after, own, cut, whole⟩ := pieces_append_eq isBlank cs (c :: later)
  rw [pieces, if_pos blank] at cut
  cases cut
  have pasted : pieces isBlank (cs ++ c :: later) = pieces isBlank cs ++ pieces isBlank later := by
    rw [whole, own, List.append_nil, List.append_assoc, List.singleton_append]
  rw [blankWords, pasted, List.filter_append, blankWords, blankWords]

private theorem blankWords_of_word (some' : w ≠ []) (solid : ∀ c ∈ w, ¬ isBlank c) : blankWords w = [w] := by
  rw [blankWords, pieces_of_free solid]
  simp [some']

private theorem mem_blankWords (some' : w ≠ []) (solid : ∀ c ∈ w, ¬ isBlank c) : w ∈ blankWords cs ↔ StandsIn w cs := by
  constructor
  · intro hw
    exact standsIn_of_mem_pieces (List.mem_filter.mp hw).1
  · rintro ⟨before, after, rfl, opens, closes⟩
    have first : w ∈ blankWords (w ++ after) := by
      cases after with
      | nil => rw [List.append_nil, blankWords_of_word some' solid]; exact List.mem_singleton_self w
      | cons d after =>
        rw [blankWords_append _ _ (closes d rfl), blankWords_of_word some' solid]
        exact List.mem_cons_self
    rcases List.eq_nil_or_concat before with rfl | ⟨before, c, rfl⟩
    · exact first
    · rw [List.concat_eq_append] at opens ⊢
      have blank : isBlank c := opens c List.getLast?_concat
      have split : before ++ [c] ++ w ++ after = before ++ c :: (w ++ after) := by simp
      rw [split, blankWords_append _ _ blank]
      exact List.mem_append_right _ first

private theorem blankWords_blanks_append (blank : ∀ c ∈ blanks, isBlank c) (cs : List Char) :
    blankWords (blanks ++ cs) = blankWords cs := by
  induction blanks with
  | nil => rfl
  | cons c blanks ih =>
    obtain ⟨first, rest⟩ := List.forall_mem_cons.mp blank
    exact (blankWords_append [] (blanks ++ cs) first).trans (ih rest)

private theorem blankWords_append_blanks (blank : ∀ c ∈ blanks, isBlank c) (cs : List Char) :
    blankWords (cs ++ blanks) = blankWords cs := by
  cases blanks with
  | nil => rw [List.append_nil]
  | cons c blanks =>
    obtain ⟨first, rest⟩ := List.forall_mem_cons.mp blank
    have none' := blankWords_blanks_append rest []
    rw [List.append_nil] at none'
    rw [blankWords_append _ _ first, none']
    exact List.append_nil _

theorem mem_words {word text : String} (some' : word.toList ≠ []) (solid : ∀ c ∈ word.toList, ¬ isBlank c) :
    word ∈ words text ↔ HasWord word text := by
  rw [HasWord, ← mem_blankWords some' solid, words, List.mem_map]
  constructor
  · rintro ⟨w, hw, rfl⟩
    rwa [String.toList_ofList]
  · exact fun hw => ⟨_, hw, String.ofList_toList⟩

theorem words_append (first second : String) : words (first ++ " " ++ second) = words first ++ words second := by
  have split : (first ++ " " ++ second).toList = first.toList ++ ' ' :: second.toList := by
    rw [String.toList_append, String.toList_append, List.append_assoc]
    rfl
  rw [words, split, blankWords_append _ _ (by decide), List.map_append, words, words]

theorem words_of_isBlankText {text : String} (blank : isBlankText text) : words text = [] := by
  have none' := blankWords_blanks_append (List.all_eq_true.mp blank) []
  rw [List.append_nil] at none'
  rw [words, none']
  rfl

theorem words_trim (text : String) : words (trim text) = words text := by
  have start : blankWords (dropBlankStart text.toList) = blankWords text.toList := by
    have parts : text.toList.takeWhile isBlank ++ dropBlankStart text.toList = text.toList :=
      List.takeWhile_append_dropWhile
    have blank : ∀ c ∈ text.toList.takeWhile isBlank, isBlank c := fun _ => List.mem_takeWhile_imp
    exact (blankWords_blanks_append blank _).symm.trans (congrArg _ parts)
  obtain ⟨blanks, whole, blank⟩ := exists_blanks_after (dropBlankStart text.toList)
  rw [whole, blankWords_append_blanks blank] at start
  rw [words, trim, String.toList_ofList, dropBlankEnds, start, words]

end ShaderPipeline.Text
