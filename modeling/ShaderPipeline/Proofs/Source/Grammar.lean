import ShaderPipeline.Proofs.Source.Families
import ShaderPipeline.Proofs.Source.Uses

/-!
The grammar of directives.

The parts of a directive are stated as forms that a line may have, without saying how a line is read.  Readers take as
much as they can; where the grammar leaves a choice, what follows a part cannot be taken into it, so that both come to
the same.  Main statement: each reader gives a directive exactly for the lines of its grammar, refuses all others that
open as its directives do, and passes over the rest.
-/

set_option autoImplicit false
set_option relaxedAutoImplicit false

namespace ShaderPipeline.Directive

open Text (isBlank)

def IsGap (cs : List Char) : Prop :=
  ∀ c ∈ cs, c = ' ' ∨ c = '\t'

/-- Whether a text is a gap that separates words. -/
def IsWideGap (cs : List Char) : Prop :=
  cs ≠ [] ∧ IsGap cs

/-- Whether a text is made of letters, digits and underscores. -/
def IsIdentifier (cs : List Char) : Prop :=
  cs ≠ [] ∧ ∀ c ∈ cs, c.isAlphanum ∨ c = '_'

/-- Whether a text may follow a directive: a gap, and a comment or nothing. -/
def IsTail (cs : List Char) : Prop :=
  ∃ gap after, cs = gap ++ after ∧ IsGap gap ∧ (after = [] ∨ ∃ comment, after = "//".toList ++ comment)

/-- Whether a text goes on with no character that passes a test. -/
def Stops (test : Char → Bool) (cs : List Char) : Prop :=
  ∀ c ∈ cs.head?, test c = false

/-- Whether a line opens with a keyword: blanks may stand before it, and it ends there or a blank, a quote or an angle
follows. -/
def OpensWithKeyword (keyword : String) (line : List Char) : Prop :=
  ∃ blanks rest, line = blanks ++ keyword.toList ++ rest ∧ (∀ c ∈ blanks, isBlank c) ∧
    ∀ c ∈ rest.head?, isBlank c ∨ c = '"' ∨ c = '<'

/-- Whether a text is what stands before the name of a pragma. -/
def IsPragmaOpening (opening : List Char) : Prop :=
  ∃ before between wide, opening = before ++ '#' :: between ++ "pragma".toList ++ wide ∧
    IsGap before ∧ IsGap between ∧ IsWideGap wide

/-- Whether a line is a pragma of a name, which goes as far as an identifier can. -/
def IsPragma (name : String) (line : List Char) : Prop :=
  ∃ opening rest, line = opening ++ name.toList ++ rest ∧ IsPragmaOpening opening ∧ IsIdentifier name.toList ∧
    Stops isIdentifierChar rest

inductive IncludeLine : List Char → Include → Prop
  | quoted {before between name tail : List Char} :
      IsGap before → IsGap between → name ≠ [] → '"' ∉ name → IsTail tail →
      IncludeLine (before ++ "#include".toList ++ between ++ '"' :: name ++ '"' :: tail) ⟨.ofList name, false⟩
  | angled {before between name tail : List Char} :
      IsGap before → IsGap between → name ≠ [] → '>' ∉ name → IsTail tail →
      IncludeLine (before ++ "#include".toList ++ between ++ '<' :: name ++ '>' :: tail) ⟨.ofList name, true⟩

inductive InterfaceLine : List Char → InterfaceDirective → Prop
  | overrideBegin {opening wide tail : List Char} : IsPragmaOpening opening → IsWideGap wide → IsTail tail →
      InterfaceLine (opening ++ "interface_override".toList ++ wide ++ "begin".toList ++ tail) .overrideBegin
  | overrideEnd {opening wide tail : List Char} : IsPragmaOpening opening → IsWideGap wide → IsTail tail →
      InterfaceLine (opening ++ "interface_override".toList ++ wide ++ "end".toList ++ tail) .overrideEnd
  | noFragmentOutput {line : List Char} : IsPragma "no_fragment_output" line →
      InterfaceLine line .noFragmentOutput

inductive BlockLine : List Char → String → Prop
  | quoted {opening wide name tail : List Char} :
      IsPragmaOpening opening → IsWideGap wide → name ≠ [] → '"' ∉ name → IsTail tail →
      BlockLine (opening ++ "use_resource_block".toList ++ wide ++ '"' :: name ++ '"' :: tail) (.ofList name)
  | plain {opening wide name tail : List Char} :
      IsPragmaOpening opening → IsWideGap wide → IsIdentifier name → IsTail tail →
      BlockLine (opening ++ "use_resource_block".toList ++ wide ++ name ++ tail) (.ofList name)

/-- The lines that declare constants.  The value is not blank, and given without the gap before it and the blanks after
it. -/
inductive ConstantLine : List Char → ConstantDeclaration → Prop
  | intro {before wide type wide' name gap gap' value tail : List Char} :
      IsGap before → IsWideGap wide → IsIdentifier type → IsWideGap wide' → IsIdentifier name → IsGap gap →
      IsGap gap' → ';' ∉ value → Text.dropBlankEnd value ≠ [] → IsTail tail →
      ConstantLine (before ++ "spec_const".toList ++ wide ++ type ++ wide' ++ name ++ gap ++ '=' :: gap' ++ value ++
          ';' :: tail)
        ⟨.ofList type, .ofList name, .ofList (Text.dropBlankEnd (skipGap value))⟩

section Runs

variable {test : Char → Bool} {cs taken rest gap : List Char} {c : Char}

@[simp] theorem stops_nil (test : Char → Bool) : Stops test [] :=
  nofun

@[simp] theorem stops_cons : Stops test (c :: cs) ↔ test c = false := by
  simp [Stops]

private theorem isGap_iff : isGap c ↔ c = ' ' ∨ c = '\t' := by
  simp [isGap]

private theorem isIdentifierChar_iff : isIdentifierChar c ↔ c.isAlphanum ∨ c = '_' := by
  simp [isIdentifierChar]

private theorem isGap_append : IsGap (gap ++ rest) ↔ IsGap gap ∧ IsGap rest :=
  List.forall_mem_append

private theorem stops_word {word : String} (first : word.toList.head?.any (!test ·)) : Stops test (word.toList ++ rest) := by
  obtain ⟨c, known, fails⟩ := (Option.any_eq_true ..).mp first
  intro d hd
  rw [List.head?_append, known] at hd
  obtain rfl := Option.some.inj hd
  simpa using fails

private theorem stops_dropWhile (test : Char → Bool) (cs : List Char) : Stops test (cs.dropWhile test) := by
  induction cs with
  | nil => exact stops_nil test
  | cons c cs ih =>
    rw [List.dropWhile_cons]
    split
    · exact ih
    · rename_i fails
      exact stops_cons.mpr (Bool.eq_false_iff.mpr fails)

private theorem dropWhile_of_stops (stops : Stops test cs) : cs.dropWhile test = cs := by
  cases cs with
  | nil => rfl
  | cons c cs => rw [List.dropWhile_cons_of_neg (by simpa using stops)]

private theorem takeWhile_of_stops (stops : Stops test cs) : cs.takeWhile test = [] := by
  cases cs with
  | nil => rfl
  | cons c cs => rw [List.takeWhile_cons_of_neg (by simpa using stops)]

private theorem dropWhile_run (run : ∀ c ∈ taken, test c) (stops : Stops test rest) :
    (taken ++ rest).dropWhile test = rest := by
  rw [List.dropWhile_append_of_pos run, dropWhile_of_stops stops]

private theorem takeWhile_run (run : ∀ c ∈ taken, test c) (stops : Stops test rest) :
    (taken ++ rest).takeWhile test = taken := by
  rw [List.takeWhile_append_of_pos run, takeWhile_of_stops stops, List.append_nil]

private theorem takeSome?_eq_some : takeSome? test cs = some (taken, rest) ↔
    cs = taken ++ rest ∧ taken ≠ [] ∧ (∀ c ∈ taken, test c) ∧ Stops test rest := by
  constructor
  · intro read
    rw [takeSome?] at read
    split at read
    · cases read
    · rename_i something
      cases read
      exact ⟨List.takeWhile_append_dropWhile.symm, something, fun _ => List.mem_takeWhile_imp,
        stops_dropWhile test cs⟩
  · rintro ⟨rfl, something, run, stops⟩
    rw [takeSome?, takeWhile_run run stops, dropWhile_run run stops]
    cases taken with
    | nil => exact absurd rfl something
    | cons c cs => rfl

private theorem skipGap_eq : skipGap cs = rest ↔ ∃ gap, cs = gap ++ rest ∧ IsGap gap ∧ Stops isGap rest := by
  constructor
  · rintro rfl
    obtain ⟨gap, whole, gaps⟩ := gap_skipGap cs
    exact ⟨gap, whole, fun c hc => isGap_iff.mp (gaps c hc), stops_dropWhile isGap cs⟩
  · rintro ⟨gap, rfl, gaps, stops⟩
    exact dropWhile_run (fun c hc => isGap_iff.mpr (gaps c hc)) stops

private theorem skipGap?_eq_some : skipGap? cs = some rest ↔
    ∃ gap, cs = gap ++ rest ∧ IsWideGap gap ∧ Stops isGap rest := by
  cases cs with
  | nil =>
    simp only [skipGap?, IsWideGap, List.nil_eq_append_iff, reduceCtorEq, false_iff, not_exists]
    rintro gap ⟨⟨rfl, _⟩, ⟨something, _⟩, _⟩
    exact something rfl
  | cons c cs =>
    rw [skipGap?]
    constructor
    · intro read
      split at read
      · rename_i first
        obtain ⟨gap, whole, gaps, stops⟩ := skipGap_eq.mp (Option.some.inj read)
        refine ⟨c :: gap, congrArg (c :: ·) whole, ⟨List.cons_ne_nil c gap, ?_⟩, stops⟩
        exact List.forall_mem_cons.mpr ⟨isGap_iff.mp first, gaps⟩
      · cases read
    · rintro ⟨gap, whole, ⟨something, gaps⟩, stops⟩
      cases gap with
      | nil => exact absurd rfl something
      | cons d gap =>
        obtain ⟨rfl, later⟩ := List.cons.inj whole
        obtain ⟨first, others⟩ := List.forall_mem_cons.mp gaps
        rw [if_pos (isGap_iff.mpr first), skipGap_eq.mpr ⟨gap, later, others, stops⟩]

private theorem identifier?_eq_some : identifier? cs = some (taken, rest) ↔
    cs = taken ++ rest ∧ IsIdentifier taken ∧ Stops isIdentifierChar rest := by
  rw [identifier?, takeSome?_eq_some, IsIdentifier, and_assoc]
  simp only [isIdentifierChar_iff]

private theorem delimited?_eq_some {first last : Char} : delimited? first last cs = some (taken, rest) ↔
    cs = first :: taken ++ last :: rest ∧ taken ≠ [] ∧ last ∉ taken := by
  cases cs with
  | nil => simp [delimited?]
  | cons c cs =>
    constructor
    · intro read
      simp only [delimited?, bind, Option.bind_eq_some_iff, Prod.exists] at read
      obtain ⟨_, opens, inner, after, taking, read⟩ := read
      obtain ⟨rfl, something, run, stops⟩ := takeSome?_eq_some.mp taking
      cases after with
      | nil => cases read
      | cons d after =>
        cases read
        have opened : c = first := by
          by_contra other
          simp [guard, other] at opens
        have closed : d = last := by
          simpa using stops
        subst opened closed
        refine ⟨rfl, something, fun held => ?_⟩
        simpa using run d held
    · rintro ⟨whole, something, free⟩
      obtain ⟨rfl, rfl⟩ := List.cons.inj whole
      have run : ∀ d ∈ taken, (d != last) = true := by
        intro d hd
        simpa using fun same : d = last => free (same ▸ hd)
      have taking : takeSome? (· != last) (taken ++ last :: rest) = some (taken, last :: rest) :=
        takeSome?_eq_some.mpr ⟨rfl, something, run, by simp⟩
      simp [delimited?, taking]

private theorem endsLine_iff : endsLine cs ↔ IsTail cs := by
  constructor
  · intro ends
    obtain ⟨gap, whole, gaps, _⟩ := skipGap_eq.mp (rfl : skipGap cs = skipGap cs)
    refine ⟨gap, skipGap cs, whole, gaps, ?_⟩
    rw [endsLine] at ends
    split at ends
    · rename_i nothing
      exact .inl nothing
    · obtain ⟨comment, commented⟩ := Option.isSome_iff_exists.mp ends
      exact .inr ⟨comment, skipWord?_eq_some.mp commented⟩
  · rintro ⟨gap, after, rfl, gaps, rfl | ⟨comment, rfl⟩⟩
    · rw [endsLine, skipGap_eq.mpr ⟨gap, rfl, gaps, stops_nil isGap⟩]
    · rw [endsLine, skipGap_eq.mpr ⟨gap, rfl, gaps, by simp; decide⟩]
      rfl

theorem IsGap.stops (h : IsGap gap) (after : Stops isIdentifierChar rest) : Stops isIdentifierChar (gap ++ rest) := by
  cases gap with
  | nil => exact after
  | cons c gap =>
    rcases h c List.mem_cons_self with rfl | rfl <;> exact stops_cons.mpr (by decide)

theorem IsTail.stops (h : IsTail cs) : Stops isIdentifierChar cs := by
  obtain ⟨gap, after, rfl, gaps, ending⟩ := h
  refine gaps.stops ?_
  rcases ending with rfl | ⟨comment, rfl⟩
  · exact stops_nil isIdentifierChar
  · exact stops_word (by decide)

theorem IsIdentifier.stops (h : IsIdentifier taken) : Stops isGap (taken ++ rest) := by
  obtain ⟨something, run⟩ := h
  cases taken with
  | nil => exact absurd rfl something
  | cons c taken =>
    have first := run c List.mem_cons_self
    refine stops_cons.mpr (Bool.eq_false_iff.mpr fun gap => ?_)
    rcases isGap_iff.mp gap with rfl | rfl <;> exact absurd first (by decide)

theorem IsWideGap.stops (h : IsWideGap gap) : Stops isIdentifierChar (gap ++ rest) := by
  obtain ⟨something, gaps⟩ := h
  cases gap with
  | nil => exact absurd rfl something
  | cons c gap =>
    rcases gaps c List.mem_cons_self with rfl | rfl <;> exact stops_cons.mpr (by decide)

end Runs

section Readers

variable {line cs rest name : List Char}

private theorem opensWith_iff {keyword : String} (solid : keyword.toList.head?.any (!isBlank ·)) :
    opensWith keyword line ↔ OpensWithKeyword keyword line := by
  constructor
  · intro opens
    rw [opensWith] at opens
    have whole : line = line.takeWhile isBlank ++ Text.dropBlankStart line :=
      List.takeWhile_append_dropWhile.symm
    have blank : ∀ c ∈ line.takeWhile isBlank, isBlank c := fun _ => List.mem_takeWhile_imp
    cases found : skipWord? keyword (Text.dropBlankStart line) with
    | none =>
      rw [found] at opens
      cases opens
    | some rest =>
      refine ⟨_, rest, ?_, blank, ?_⟩
      · rw [List.append_assoc, ← skipWord?_eq_some.mp found]
        exact whole
      · cases rest with
        | nil =>
          intro c hc
          cases hc
        | cons c rest =>
          rw [found] at opens
          simpa [or_assoc] using opens
  · rintro ⟨blanks, rest, rfl, blank, follows⟩
    have opened : Text.dropBlankStart (blanks ++ keyword.toList ++ rest) = keyword.toList ++ rest := by
      rw [List.append_assoc]
      exact dropWhile_run blank (stops_word solid)
    rw [opensWith, opened, skipWord?_eq_some.mpr rfl]
    cases rest with
    | nil => rfl
    | cons c rest => simpa [or_assoc] using follows c rfl

private theorem pragmaBody?_eq_some : pragmaBody? line = some rest ↔
    ∃ opening, line = opening ++ rest ∧ IsPragmaOpening opening ∧ Stops isGap rest := by
  simp only [pragmaBody?, bind, Option.bind_eq_some_iff, skipWord?_eq_some, skipGap_eq, skipGap?_eq_some]
  constructor
  · rintro ⟨_, ⟨before, rfl, gaps, _⟩, _, ⟨between, rfl, gaps', _⟩, wide, rfl, wides, stops⟩
    exact ⟨_, by simp, ⟨before, between, wide, rfl, gaps, gaps', wides⟩, stops⟩
  · rintro ⟨_, rfl, ⟨before, between, wide, rfl, gaps, gaps', wides⟩, stops⟩
    exact ⟨between ++ ("pragma".toList ++ (wide ++ rest)), ⟨before, by simp, gaps, stops_word (by decide)⟩,
      wide ++ rest, ⟨between, rfl, gaps', stops_word (by decide)⟩, wide, rfl, wides, stops⟩

private theorem pragmaName?_eq_some {name : String} : pragmaName? line = some name ↔ IsPragma name line := by
  simp only [pragmaName?, bind, Option.bind_eq_some_iff, pragmaBody?_eq_some, Prod.exists, identifier?_eq_some]
  constructor
  · rintro ⟨_, ⟨opening, rfl, opens, _⟩, taken, rest, ⟨rfl, identifier, stops⟩, named⟩
    obtain rfl := Option.some.inj named
    rw [IsPragma, String.toList_ofList]
    exact ⟨opening, rest, by simp, opens, identifier, stops⟩
  · rintro ⟨opening, rest, rfl, opens, identifier, stops⟩
    exact ⟨_, ⟨opening, by rw [List.append_assoc], opens, identifier.stops⟩, name.toList, rest,
      ⟨rfl, identifier, stops⟩, congrArg some String.ofList_toList⟩

private theorem guard_eq_some {b : Bool} {done : Unit} : (guard b : Option Unit) = some done ↔ b := by
  cases b <;> simp [guard]

private theorem delimited?_of_other {first last c : Char} (other : c ≠ first) : delimited? first last (c :: cs) = none := by
  have refused : (c == first) = false := beq_false_of_ne other
  simp only [delimited?, bind, guard, refused]
  rfl

private theorem includeTarget?_eq_some {target : Include} : includeTarget? cs = some (target, rest) ↔
    ∃ name, name ≠ [] ∧
      (target = ⟨.ofList name, false⟩ ∧ '"' ∉ name ∧ cs = '"' :: name ++ '"' :: rest ∨
        target = ⟨.ofList name, true⟩ ∧ '>' ∉ name ∧ cs = '<' :: name ++ '>' :: rest) := by
  rw [includeTarget?]
  constructor
  · intro read
    split at read
    · rename_i name after quoted
      obtain ⟨rfl, something, free⟩ := delimited?_eq_some.mp quoted
      cases read
      exact ⟨name, something, .inl ⟨rfl, free, rfl⟩⟩
    · obtain ⟨⟨name, after⟩, angled, made⟩ := Option.map_eq_some_iff.mp read
      obtain ⟨whole, something, free⟩ := delimited?_eq_some.mp angled
      cases made
      exact ⟨name, something, .inr ⟨rfl, free, whole⟩⟩
  · rintro ⟨name, something, ⟨rfl, free, rfl⟩ | ⟨rfl, free, rfl⟩⟩
    · rw [delimited?_eq_some.mpr ⟨rfl, something, free⟩]
    · rw [List.cons_append, delimited?_of_other (by decide), ← List.cons_append,
        delimited?_eq_some.mpr ⟨rfl, something, free⟩, Option.map_some]

private theorem parseInclude?_eq_some {target : Include} :
    parseInclude? line = some target ↔ IncludeLine line target := by
  simp only [parseInclude?, bind, pure, Option.bind_eq_some_iff, skipWord?_eq_some, skipGap_eq, Prod.exists,
    includeTarget?_eq_some, guard_eq_some, endsLine_iff, Option.some.injEq]
  constructor
  · rintro ⟨after, ⟨before, rfl, gaps, _⟩, _, tail, ⟨name, something, form⟩, _, ends, rfl⟩
    rcases form with ⟨rfl, free, between, rfl, gaps', _⟩ | ⟨rfl, free, between, rfl, gaps', _⟩
    · simpa using IncludeLine.quoted gaps gaps' something free ends
    · simpa using IncludeLine.angled gaps gaps' something free ends
  · intro form
    cases form with
    | @quoted before between name tail gaps gaps' something free ends =>
      exact ⟨between ++ ('"' :: name ++ '"' :: tail), ⟨before, by simp, gaps, stops_word (by decide)⟩, _, tail,
        ⟨name, something, .inl ⟨rfl, free, between, rfl, gaps', stops_cons.mpr (by decide)⟩⟩, (), ends, rfl⟩
    | @angled before between name tail gaps gaps' something free ends =>
      exact ⟨between ++ ('<' :: name ++ '>' :: tail), ⟨before, by simp, gaps, stops_word (by decide)⟩, _, tail,
        ⟨name, something, .inr ⟨rfl, free, between, rfl, gaps', stops_cons.mpr (by decide)⟩⟩, (), ends, rfl⟩

private theorem overrideEdge?_eq_some {edge : InterfaceDirective} : overrideEdge? cs = some (edge, rest) ↔
    edge = .overrideBegin ∧ cs = "begin".toList ++ rest ∨ edge = .overrideEnd ∧ cs = "end".toList ++ rest := by
  rw [overrideEdge?]
  constructor
  · intro read
    split at read
    · rename_i after begins
      cases read
      exact .inl ⟨rfl, skipWord?_eq_some.mp begins⟩
    · obtain ⟨after, ends, made⟩ := Option.map_eq_some_iff.mp read
      cases made
      exact .inr ⟨rfl, skipWord?_eq_some.mp ends⟩
  · rintro (⟨rfl, rfl⟩ | ⟨rfl, rfl⟩)
    · rw [skipWord?_eq_some.mpr rfl]
    · have other : skipWord? "begin" ("end".toList ++ rest) = none := rfl
      rw [other, skipWord?_eq_some.mpr rfl, Option.map_some]

private theorem groupName?_eq_some : groupName? cs = some (name, rest) ↔
    cs = '"' :: name ++ '"' :: rest ∧ name ≠ [] ∧ '"' ∉ name ∨
      cs = name ++ rest ∧ IsIdentifier name ∧ Stops isIdentifierChar rest := by
  rw [groupName?]
  constructor
  · intro read
    split at read
    · rename_i quoted
      cases read
      exact .inl (delimited?_eq_some.mp quoted)
    · exact .inr (identifier?_eq_some.mp read)
  · rintro (quoted | plain)
    · rw [delimited?_eq_some.mpr quoted]
    · rw [identifier?_eq_some.mpr plain]
      obtain ⟨rfl, ⟨something, run⟩, _⟩ := plain
      cases name with
      | nil => exact absurd rfl something
      | cons c name =>
        have first := run c List.mem_cons_self
        have other : c ≠ '"' := by
          rintro rfl
          exact absurd first (by decide)
        rw [List.cons_append, delimited?_of_other other]

private theorem parseOverride?_eq_some {edge : InterfaceDirective} : parseOverride? line = some edge ↔
    edge ≠ .noFragmentOutput ∧ InterfaceLine line edge := by
  simp only [parseOverride?, bind, pure, Option.bind_eq_some_iff, pragmaBody?_eq_some, skipWord?_eq_some,
    skipGap?_eq_some, Prod.exists, overrideEdge?_eq_some, guard_eq_some, endsLine_iff, Option.some.injEq]
  constructor
  · rintro ⟨_, ⟨opening, rfl, opens, _⟩, _, rfl, _, ⟨wide, rfl, wides, _⟩, _, tail, form, _, ends, rfl⟩
    rcases form with ⟨rfl, rfl⟩ | ⟨rfl, rfl⟩
    · exact ⟨nofun, by simpa using InterfaceLine.overrideBegin opens wides ends⟩
    · exact ⟨nofun, by simpa using InterfaceLine.overrideEnd opens wides ends⟩
  · rintro ⟨edges, form⟩
    cases form with
    | @overrideBegin opening wide tail opens wides ends =>
      exact ⟨_, ⟨opening, by simp only [List.append_assoc], opens, stops_word (by decide)⟩, _, rfl, _,
        ⟨wide, rfl, wides, stops_word (by decide)⟩, _, tail, .inl ⟨rfl, rfl⟩, (), ends, rfl⟩
    | @overrideEnd opening wide tail opens wides ends =>
      exact ⟨_, ⟨opening, by simp only [List.append_assoc], opens, stops_word (by decide)⟩, _, rfl, _,
        ⟨wide, rfl, wides, stops_word (by decide)⟩, _, tail, .inr ⟨rfl, rfl⟩, (), ends, rfl⟩
    | noFragmentOutput => exact absurd rfl edges

private theorem parseBlock?_eq_some {group : String} : parseBlock? line = some group ↔ BlockLine line group := by
  simp only [parseBlock?, bind, pure, Option.bind_eq_some_iff, pragmaBody?_eq_some, skipWord?_eq_some,
    skipGap?_eq_some, Prod.exists, groupName?_eq_some, guard_eq_some, endsLine_iff, Option.some.injEq]
  constructor
  · rintro ⟨_, ⟨opening, rfl, opens, _⟩, _, rfl, _, ⟨wide, rfl, wides, _⟩, name, tail, form, _, ends, rfl⟩
    rcases form with ⟨rfl, something, free⟩ | ⟨rfl, identifier, _⟩
    · simpa using BlockLine.quoted opens wides something free ends
    · simpa using BlockLine.plain opens wides identifier ends
  · intro form
    cases form with
    | @quoted opening wide name tail opens wides something free ends =>
      exact ⟨"use_resource_block".toList ++ (wide ++ ('"' :: name ++ '"' :: tail)),
        ⟨opening, by simp only [List.append_assoc], opens, stops_word (by decide)⟩, _, rfl, _,
        ⟨wide, rfl, wides, stops_cons.mpr (by decide)⟩, name, tail, .inl ⟨rfl, something, free⟩, (), ends, rfl⟩
    | @plain opening wide name tail opens wides identifier ends =>
      exact ⟨_, ⟨opening, by simp only [List.append_assoc], opens, stops_word (by decide)⟩, _, rfl, _,
        ⟨wide, rfl, wides, identifier.stops⟩, name, tail, .inr ⟨rfl, identifier, ends.stops⟩, (), ends, rfl⟩

private theorem exists_gap_before_value {value : List Char} (solid : Text.dropBlankEnd value ≠ []) :
    ∃ gap, value = gap ++ skipGap value ∧ IsGap gap ∧ Stops isGap (skipGap value) ∧
      Text.dropBlankEnd (skipGap value) ≠ [] := by
  obtain ⟨gap, cut, gaps, stops⟩ := skipGap_eq.mp (rfl : skipGap value = skipGap value)
  refine ⟨gap, cut, gaps, stops, fun blank => solid (Text.dropBlankEnd_eq_nil.mpr fun c hc => ?_)⟩
  rw [cut] at hc
  rcases List.mem_append.mp hc with before | after
  · exact isBlank_of_isGap (isGap_iff.mpr (gaps c before))
  · exact Text.dropBlankEnd_eq_nil.mp blank c after

private theorem parseConstant?_eq_some {d : ConstantDeclaration} : parseConstant? line = some d ↔ ConstantLine line d := by
  simp only [parseConstant?, bind, pure, Option.bind_eq_some_iff, skipWord?_eq_some, skipGap_eq, skipGap?_eq_some,
    Prod.exists, identifier?_eq_some, takeSome?_eq_some, guard_eq_some, endsLine_iff, Option.some.injEq]
  constructor
  · rintro ⟨_, ⟨before, rfl, gaps, _⟩, _, ⟨wide, rfl, wides, _⟩, type, _, ⟨rfl, identifier, _⟩, _,
      ⟨wide', rfl, wides', _⟩, name, _, ⟨rfl, identifier', _⟩, _, ⟨gap, rfl, spaced, _⟩, value, _,
      ⟨⟨gap', rfl, spaced', starts⟩, something, run, _⟩, tail, rfl, _, ends, _, solid, rfl⟩
    have free : ';' ∉ value := fun held => by simpa using run ';' held
    have solid : Text.dropBlankEnd value ≠ [] := by simpa using solid
    have starts : Stops isGap value := by
      rwa [Stops, List.head?_append_of_ne_nil _ something] at starts
    have whole : skipGap value = value := dropWhile_of_stops starts
    simpa [whole] using ConstantLine.intro gaps wides identifier wides' identifier' spaced spaced' free solid ends
  · intro form
    cases form with
    | @intro before wide type wide' name gap gap' value tail gaps wides identifier wides' identifier' spaced spaced'
        free solid ends =>
      -- The gap before the value may be cut anywhere; the reader takes all of it, and the value goes on behind it.
      obtain ⟨more, cut, spaced'', starts, solid'⟩ := exists_gap_before_value solid
      have something : skipGap value ≠ [] := by
        intro nothing
        rw [nothing] at solid'
        exact solid' rfl
      have run : ∀ c ∈ skipGap value, (c != ';') = true := by
        intro c hc
        have held : c ∈ value := cut ▸ List.mem_append_right more hc
        simpa using fun same : c = ';' => free (same ▸ held)
      have starts' : Stops isGap (skipGap value ++ ';' :: tail) := by
        rwa [Stops, List.head?_append_of_ne_nil _ something]
      have rest : gap' ++ value ++ ';' :: tail = (gap' ++ more) ++ (skipGap value ++ ';' :: tail) := by
        nth_rewrite 1 [cut]
        simp
      exact ⟨wide ++ (type ++ (wide' ++ (name ++ (gap ++ '=' :: (gap' ++ value ++ ';' :: tail))))),
        ⟨before, by simp, gaps, stops_word (by decide)⟩, _, ⟨wide, rfl, wides, identifier.stops⟩,
        type, _, ⟨rfl, identifier, wides'.stops⟩, _, ⟨wide', rfl, wides', identifier'.stops⟩, name, _,
        ⟨rfl, identifier', spaced.stops (stops_cons.mpr (by decide))⟩, gap' ++ value ++ ';' :: tail,
        ⟨gap, rfl, spaced, stops_cons.mpr (by decide)⟩, skipGap value, ';' :: tail,
        ⟨⟨gap' ++ more, rest, isGap_append.mpr ⟨spaced', spaced''⟩, starts'⟩, something, run,
          stops_cons.mpr (by decide)⟩, tail, rfl, (), ends, (), by simpa using solid', rfl⟩

end Readers

section Openings

variable {line : List Char}

theorem IsGap.blank {gap : List Char} (h : IsGap gap) : ∀ c ∈ gap, isBlank c :=
  fun c hc => isBlank_of_isGap (isGap_iff.mpr (h c hc))

private theorem opensWithKeyword_of_gap {keyword : String} {before gap rest : List Char} (gaps : IsGap before)
    (gaps' : IsGap gap) (follows : ∀ c ∈ rest.head?, isBlank c ∨ c = '"' ∨ c = '<') :
    OpensWithKeyword keyword (before ++ keyword.toList ++ (gap ++ rest)) := by
  refine ⟨before, gap ++ rest, rfl, gaps.blank, ?_⟩
  cases gap with
  | nil => exact follows
  | cons c gap =>
    intro d hd
    obtain rfl := Option.some.inj hd
    exact .inl (gaps'.blank c List.mem_cons_self)

theorem IncludeLine.opens {target : Include} (form : IncludeLine line target) : OpensWithKeyword "#include" line := by
  cases form with
  | @quoted before between name tail gaps gaps' =>
    have opened : OpensWithKeyword "#include"
        (before ++ "#include".toList ++ (between ++ ('"' :: name ++ '"' :: tail))) :=
      opensWithKeyword_of_gap gaps gaps' (by simp)
    simpa using opened
  | @angled before between name tail gaps gaps' =>
    have opened : OpensWithKeyword "#include"
        (before ++ "#include".toList ++ (between ++ ('<' :: name ++ '>' :: tail))) :=
      opensWithKeyword_of_gap gaps gaps' (by simp)
    simpa using opened

theorem ConstantLine.opens {d : ConstantDeclaration} (form : ConstantLine line d) :
    OpensWithKeyword "spec_const" line := by
  cases form with
  | @intro before wide type wide' name gap gap' value tail gaps wides =>
    obtain ⟨something, gaps'⟩ := wides
    refine ⟨before, wide ++ (type ++ (wide' ++ (name ++ (gap ++ '=' :: (gap' ++ value ++ ';' :: tail))))), by simp,
      gaps.blank, ?_⟩
    cases wide with
    | nil => exact absurd rfl something
    | cons c wide =>
      intro d hd
      obtain rfl := Option.some.inj hd
      exact .inl (gaps'.blank c List.mem_cons_self)

private theorem isPragma_of_opening {name : String} {opening rest : List Char} (opens : IsPragmaOpening opening)
    (identifier : IsIdentifier name.toList) (stops : Stops isIdentifierChar rest) :
    IsPragma name (opening ++ name.toList ++ rest) :=
  ⟨opening, rest, rfl, opens, identifier, stops⟩

theorem InterfaceLine.opens {d : InterfaceDirective} (form : InterfaceLine line d) :
    IsPragma (if d = .noFragmentOutput then "no_fragment_output" else "interface_override") line := by
  have identifier : IsIdentifier "interface_override".toList := by
    simp [IsIdentifier]
  cases form with
  | @overrideBegin opening wide tail opens wides ends =>
    have stops : Stops isIdentifierChar (wide ++ ("begin".toList ++ tail)) := wides.stops
    simpa using isPragma_of_opening opens identifier stops
  | @overrideEnd opening wide tail opens wides ends =>
    have stops : Stops isIdentifierChar (wide ++ ("end".toList ++ tail)) := wides.stops
    simpa using isPragma_of_opening opens identifier stops
  | noFragmentOutput named => exact named

theorem BlockLine.opens {group : String} (form : BlockLine line group) : IsPragma "use_resource_block" line := by
  have identifier : IsIdentifier "use_resource_block".toList := by
    simp [IsIdentifier]
  cases form with
  | @quoted opening wide name tail opens wides something free ends =>
    have stops : Stops isIdentifierChar (wide ++ ('"' :: name ++ '"' :: tail)) := wides.stops
    simpa using isPragma_of_opening opens identifier stops
  | @plain opening wide name tail opens wides identifier' ends =>
    have stops : Stops isIdentifierChar (wide ++ (name ++ tail)) := wides.stops
    simpa using isPragma_of_opening opens identifier stops

end Openings

section Families

variable {α : Type} {line : List Char}

private theorem ofParsed_eq_directive {parsed : Option α} {d : α} :
    Recognition.ofParsed parsed = .directive d ↔ parsed = some d := by
  cases parsed <;> simp [Recognition.ofParsed]

private theorem ordinary_ne_directive {α : Type} (d : α) : Recognition.ordinary ≠ .directive d := by
  simp

private theorem recognizeInclude_eq_directive {target : Include} :
    recognizeInclude line = .directive target ↔ IncludeLine line target := by
  have opens : IncludeLine line target → opensWith "#include" line := fun form =>
    (opensWith_iff (by decide)).mpr form.opens
  rw [recognizeInclude]
  split
  · rw [ofParsed_eq_directive, parseInclude?_eq_some]
  · rename_i closed
    exact iff_of_false (ordinary_ne_directive _) fun form => absurd (opens form) closed

private theorem recognizeConstant_eq_directive {d : ConstantDeclaration} :
    recognizeConstant line = .directive d ↔ ConstantLine line d := by
  have opens : ConstantLine line d → opensWith "spec_const" line := fun form =>
    (opensWith_iff (by decide)).mpr form.opens
  rw [recognizeConstant]
  split
  · rw [ofParsed_eq_directive, parseConstant?_eq_some]
  · rename_i closed
    exact iff_of_false (ordinary_ne_directive _) fun form => absurd (opens form) closed

private theorem recognizeBlock_eq_directive {group : String} :
    recognizeBlock line = .directive group ↔ BlockLine line group := by
  have named : BlockLine line group → pragmaName? line = some "use_resource_block" := fun form =>
    pragmaName?_eq_some.mpr form.opens
  rw [recognizeBlock]
  split
  · rw [ofParsed_eq_directive, parseBlock?_eq_some]
  · rename_i other
    exact iff_of_false (ordinary_ne_directive _) fun form => absurd (named form) other

private theorem recognizeInterface_eq_directive {d : InterfaceDirective} :
    recognizeInterface line = .directive d ↔ InterfaceLine line d := by
  have named : InterfaceLine line d → pragmaName? line =
      some (if d = .noFragmentOutput then "no_fragment_output" else "interface_override") := fun form =>
    pragmaName?_eq_some.mpr form.opens
  rw [recognizeInterface]
  split
  · rename_i quiet
    constructor
    · intro same
      cases same
      exact .noFragmentOutput (pragmaName?_eq_some.mp quiet)
    · intro form
      have same := (named form).symm.trans quiet
      cases d <;> simp at same ⊢
  · rename_i override
    rw [ofParsed_eq_directive, parseOverride?_eq_some]
    refine ⟨And.right, fun form => ⟨?_, form⟩⟩
    rintro rfl
    exact absurd ((named form).symm.trans override) (by simp)
  · rename_i quiet override
    refine iff_of_false (ordinary_ne_directive _) fun form => ?_
    have pragma := named form
    split at pragma
    · exact absurd pragma quiet
    · exact absurd pragma override

/-- What a reader of directives has to do with a line: a line of its grammar is a directive, any other that opens as
one is malformed, and every line that does not open so is none. -/
structure Reads (read : Except SourceError (Option α)) (line : String) (opens : Prop) (form : α → Prop) : Prop where
  accepted : ∀ d, read = .ok (some d) ↔ form d
  refused : read = .error (.malformedDirective (Text.trim line)) ↔ opens ∧ ∀ d, ¬ form d
  passed : read = .ok none ↔ ¬ opens

private theorem reads_of_recognition {r : Recognition α} {line : String} {opens : Prop} {form : α → Prop}
    (directive : ∀ d, r = .directive d ↔ form d) (ordinary : r = .ordinary ↔ ¬ opens) :
    Reads (r.value? line) line opens form := by
  have accepted : ∀ d, r.value? line = .ok (some d) ↔ form d := by
    intro d
    rw [Recognition.value?_eq_ok, ← directive d]
    simp
  have passed : r.value? line = .ok none ↔ ¬ opens := by
    rw [Recognition.value?_eq_ok, ← ordinary]
    simp
  have refused : r.value? line = .error (.malformedDirective (Text.trim line)) ↔ r = .malformed := by
    cases r <;> simp [Recognition.value?]
  refine ⟨accepted, refused.trans ?_, passed⟩
  constructor
  · rintro rfl
    constructor
    · by_contra closed
      cases ordinary.mpr closed
    · intro d form
      cases (directive d).mpr form
  · rintro ⟨opens, formless⟩
    cases r with
    | ordinary => exact absurd opens (ordinary.mp rfl)
    | malformed => rfl
    | directive d => exact absurd ((directive d).mp rfl) (formless d)

/-- Each reader accepts exactly the lines of its grammar and gives their parts, refuses every other line that opens as
its directives do, and finds nothing in the rest. -/
theorem readers_accept_exactly_their_grammar (line : String) :
    Reads ((recognizeInclude line.toList).value? line) line (OpensWithKeyword "#include" line.toList)
        (IncludeLine line.toList) ∧
      Reads ((recognizeInterface line.toList).value? line) line
        (IsPragma "no_fragment_output" line.toList ∨ IsPragma "interface_override" line.toList)
        (InterfaceLine line.toList) ∧
      Reads ((recognizeBlock line.toList).value? line) line (IsPragma "use_resource_block" line.toList)
        (BlockLine line.toList) ∧
      Reads ((recognizeConstant line.toList).value? line) line (OpensWithKeyword "spec_const" line.toList)
        (ConstantLine line.toList) := by
  refine ⟨reads_of_recognition (fun _ => recognizeInclude_eq_directive) ?_,
    reads_of_recognition (fun _ => recognizeInterface_eq_directive) ?_,
    reads_of_recognition (fun _ => recognizeBlock_eq_directive) ?_,
    reads_of_recognition (fun _ => recognizeConstant_eq_directive) ?_⟩
  · rw [← opensWith_iff (by decide), Bool.not_eq_true]
    exact (DirectiveFamily.passes_iff : DirectiveFamily.includes.Passes line.toList ↔ _)
  · rw [← pragmaName?_eq_some, ← pragmaName?_eq_some, not_or]
    exact (DirectiveFamily.passes_iff : DirectiveFamily.interfaces.Passes line.toList ↔ _)
  · rw [← pragmaName?_eq_some]
    exact (DirectiveFamily.passes_iff : DirectiveFamily.blocks.Passes line.toList ↔ _)
  · rw [← opensWith_iff (by decide), Bool.not_eq_true]
    exact (DirectiveFamily.passes_iff : DirectiveFamily.constants.Passes line.toList ↔ _)

-- A line may open after any blanks, but a directive has no others before it than spaces and tabs.
example : recognizeInclude "\u00a0#include \"sky.glsl\"".toList = .malformed := by
  decide

end Families

end ShaderPipeline.Directive
