import ShaderPipeline.Proofs.Source.Blocks
import ShaderPipeline.Proofs.Source.Families
import ShaderPipeline.Proofs.Text.Trimmed

/-!
What the passes over a body do to its lines.

Each pass reads the lines of a text and writes them anew.  It leaves some lines empty, those of its own directives and
those inside override regions, and all others where they are, less a carriage return.  Main statement: which lines each
pass leaves empty, which constants the pass over constants finds, and hence which lines of a body, with its includes
spliced, are missing in the body fragment.
-/

set_option autoImplicit false
set_option relaxedAutoImplicit false

namespace ShaderPipeline

open Outcome

namespace Extraction

open Text (bare)

/-- Whether lines are others of which those at certain places have been taken out and left empty. -/
structure EmptiedAt (taken : Nat → Prop) (ls ls' : List String) : Prop where
  length : ls'.length = ls.length
  emptied : ∀ i < ls.length, taken i → ls'[i]? = some ""
  kept : ∀ i, ¬ taken i → ls'[i]? = ls[i]?

def LineAt (kind : String → Prop) (ls : List String) (i : Nat) : Prop :=
  ∃ l ∈ ls[i]?, kind l

/-- Whether the version stands at a place: it opens the first line that is a version or code. -/
def VersionAt (ls : List String) (i : Nat) : Prop :=
  LineAt (fun l => startsWith "#version" (Text.dropBlankEnds l.toList)) ls i ∧
    ∀ k < i, ¬ LineAt (fun l => startsWith "#version" (Text.dropBlankEnds l.toList) ∨
      isCode (Text.dropBlankEnds l.toList)) ls k

/-- Whether an interface directive stands at a place. -/
def InterfaceAt (d : InterfaceDirective) : List String → Nat → Prop :=
  LineAt fun l => Directive.recognizeInterface l.toList = .directive d

/-- Whether a place lies in an override region: one begins before it and does not end before it. -/
def InRegion (ls : List String) (i : Nat) : Prop :=
  ∃ j < i, InterfaceAt .overrideBegin ls j ∧ ∀ k, j < k → k < i → ¬ InterfaceAt .overrideEnd ls k

/-- Whether a constant is declared at a place. -/
def ConstantAt : List String → Nat → Prop :=
  LineAt fun l => ∃ d, Directive.recognizeConstant l.toList = .directive d

def BlockAt : List String → Nat → Prop :=
  LineAt fun l => ∃ group, Directive.recognizeBlock l.toList = .directive group

section EmptiedAt

variable {taken taken' : Nat → Prop} {ls ls' ls'' : List String} {line kept : String}

theorem lineAt_zero {kind : String → Prop} : LineAt kind (line :: ls) 0 ↔ kind line := by
  simp [LineAt]

theorem lineAt_succ {kind : String → Prop} {i : Nat} : LineAt kind (line :: ls) (i + 1) ↔ LineAt kind ls i :=
  Iff.rfl

namespace EmptiedAt

theorem nil (taken : Nat → Prop) : EmptiedAt taken [] [] :=
  ⟨rfl, nofun, fun _ _ => rfl⟩

theorem refl (stay : ∀ i, ¬ taken i) (ls : List String) : EmptiedAt taken ls ls :=
  ⟨rfl, fun i _ out => absurd out (stay i), fun _ _ => rfl⟩

theorem cons (first : taken 0 ∧ kept = "" ∨ ¬ taken 0 ∧ kept = line)
    (rest : EmptiedAt (fun i => taken (i + 1)) ls ls') : EmptiedAt taken (line :: ls) (kept :: ls') := by
  obtain ⟨length, emptied, others⟩ := rest
  refine ⟨congrArg (· + 1) length, ?_, ?_⟩
  · intro i inside out
    cases i with
    | zero =>
      rcases first with ⟨_, rfl⟩ | ⟨stays, _⟩
      · rfl
      · exact absurd out stays
    | succ i => exact emptied i (Nat.lt_of_succ_lt_succ inside) out
  · intro i stays
    cases i with
    | zero =>
      rcases first with ⟨out, _⟩ | ⟨_, rfl⟩
      · exact absurd out stays
      · rfl
    | succ i => exact others i stays

theorem congr (h : EmptiedAt taken ls ls') (same : ∀ i < ls.length, taken i ↔ taken' i) :
    EmptiedAt taken' ls ls' := by
  refine ⟨h.length, fun i inside out => h.emptied i inside ((same i inside).mpr out), fun i stays => ?_⟩
  by_cases inside : i < ls.length
  · exact h.kept i fun out => stays ((same i inside).mp out)
  · have beyond : ls.length ≤ i := Nat.le_of_not_lt inside
    rw [List.getElem?_eq_none beyond, List.getElem?_eq_none (h.length.trans_le beyond)]

private theorem map_bare (h : EmptiedAt taken ls ls') : EmptiedAt taken (ls.map bare) (ls'.map bare) := by
  refine ⟨by simpa using h.length, fun i inside out => ?_, fun i stays => ?_⟩
  · rw [List.getElem?_map, h.emptied i (by simpa using inside) out]
    rfl
  · rw [List.getElem?_map, List.getElem?_map, h.kept i stays]

theorem trans (first : EmptiedAt taken ls ls') (second : EmptiedAt taken' ls' ls'') :
    EmptiedAt (fun i => taken i ∨ taken' i) ls ls'' := by
  refine ⟨second.length.trans first.length, fun i inside out => ?_, fun i stays => ?_⟩
  · by_cases out' : taken' i
    · exact second.emptied i (first.length ▸ inside) out'
    · rw [second.kept i out']
      exact first.emptied i inside (out.resolve_right out')
  · obtain ⟨stays, stays'⟩ := not_or.mp stays
    rw [second.kept i stays', first.kept i stays]

theorem newline_free (h : EmptiedAt taken ls ls') (free : ∀ l ∈ ls, '\n' ∉ l.toList) :
    ∀ l ∈ ls', '\n' ∉ l.toList := by
  intro l hl
  obtain ⟨i, known⟩ := List.mem_iff_getElem?.mp hl
  by_cases out : taken i
  · have inside : i < ls.length := by
      obtain ⟨inside, _⟩ := List.getElem?_eq_some_iff.mp known
      exact h.length ▸ inside
    rw [h.emptied i inside out] at known
    cases known
    exact nofun
  · rw [h.kept i out] at known
    exact free l (List.mem_of_getElem? known)

theorem newline_free_map_bare (free : ∀ l ∈ ls, '\n' ∉ l.toList) : ∀ l ∈ ls.map bare, '\n' ∉ l.toList := by
  intro l hl newline
  obtain ⟨m, hm, rfl⟩ := List.mem_map.mp hl
  exact free m hm ((Text.bare_prefix m).subset newline)

theorem reread (h : EmptiedAt taken ls ls') (free : ∀ l ∈ ls, '\n' ∉ l.toList) :
    EmptiedAt taken (ls.map bare) (Text.lines (Text.unlines ls')) := by
  rw [Text.lines_unlines (h.newline_free free)]
  exact h.map_bare

end EmptiedAt

end EmptiedAt

section Passes

variable {ls ls' : List String}

private theorem versionAt_succ {line : String} {i : Nat} : VersionAt (line :: ls) (i + 1) ↔
    ¬ (startsWith "#version" (Text.dropBlankEnds line.toList) ∨ isCode (Text.dropBlankEnds line.toList)) ∧
      VersionAt ls i := by
  rw [VersionAt, VersionAt, lineAt_succ, Nat.forall_lt_succ_left, lineAt_zero]
  simp only [lineAt_succ]
  tauto

theorem version_emptiedAt (ls : List String) : EmptiedAt (VersionAt ls) ls (version ls).2 := by
  induction ls with
  | nil => exact .nil _
  | cons line rest ih =>
    rw [version]
    split
    · rename_i opens
      have here : VersionAt (line :: rest) 0 :=
        ⟨lineAt_zero.mpr opens, fun k before => absurd before (Nat.not_lt_zero k)⟩
      exact .cons (.inl ⟨here, rfl⟩) (.refl (fun i later => (versionAt_succ.mp later).1 (.inl opens)) rest)
    · rename_i closed
      have here : ¬ VersionAt (line :: rest) 0 := fun opens => closed (lineAt_zero.mp opens.1)
      split
      · rename_i code
        exact .cons (.inr ⟨here, rfl⟩) (.refl (fun i later => (versionAt_succ.mp later).1 (.inr code)) rest)
      · rename_i plain
        have later : ∀ i, VersionAt rest i ↔ VersionAt (line :: rest) (i + 1) := fun i =>
          ⟨fun at' => versionAt_succ.mpr ⟨not_or.mpr ⟨closed, plain⟩, at'⟩, fun at' => (versionAt_succ.mp at').2⟩
        exact .cons (.inr ⟨here, rfl⟩) (ih.congr fun i _ => later i)

theorem VersionAt.unique {i j : Nat} (h : VersionAt ls i) (h' : VersionAt ls j) : i = j := by
  obtain ⟨l, hl, opens⟩ := h.1
  obtain ⟨l', hl', opens'⟩ := h'.1
  rcases Nat.lt_trichotomy i j with before | same | after
  · exact absurd ⟨l, hl, .inl opens⟩ (h'.2 i before)
  · exact same
  · exact absurd ⟨l', hl', .inl opens'⟩ (h.2 j after)

theorem inRegion_succ {line : String} {i : Nat} : InRegion (line :: ls) (i + 1) ↔
    (Directive.recognizeInterface line.toList = .directive .overrideBegin ∧
      ∀ k < i, ¬ InterfaceAt .overrideEnd ls k) ∨ InRegion ls i := by
  constructor
  · rintro ⟨j, before, opens, stays⟩
    cases j with
    | zero => exact .inl ⟨lineAt_zero.mp opens, fun k hk => stays (k + 1) k.succ_pos (Nat.succ_lt_succ hk)⟩
    | succ j =>
      exact .inr ⟨j, Nat.lt_of_succ_lt_succ before, opens, fun k after hk =>
        stays (k + 1) (Nat.succ_lt_succ after) (Nat.succ_lt_succ hk)⟩
  · rintro (⟨opens, stays⟩ | ⟨j, before, opens, stays⟩)
    · refine ⟨0, i.succ_pos, lineAt_zero.mpr opens, fun k after hk => ?_⟩
      obtain ⟨k, rfl⟩ := Nat.exists_eq_add_one.mpr after
      exact stays k (Nat.lt_of_succ_lt_succ hk)
    · refine ⟨j + 1, Nat.succ_lt_succ before, opens, fun k after hk => ?_⟩
      obtain ⟨k, rfl⟩ := Nat.exists_eq_add_one.mpr (Nat.zero_lt_of_lt after)
      exact stays k (Nat.lt_of_succ_lt_succ after) (Nat.lt_of_succ_lt_succ hk)

private theorem interfaceFrom_emptiedAt {region : Option (List String)} {request asked : InterfaceRequest}
    (done : interfaceFrom region request ls = .ok (ls', asked)) :
    EmptiedAt (fun i => (∃ d, InterfaceAt d ls i) ∨ InRegion ls i ∨
      region.isSome ∧ ∀ k < i, ¬ InterfaceAt .overrideEnd ls k) ls ls' := by
  induction ls generalizing region request ls' with
  | nil =>
    cases region with
    | none =>
      cases done
      exact .nil _
    | some lines => cases done
  | cons line rest ih =>
    obtain ⟨kept, region', request', after, rfl, tail, fate⟩ := interfaceFrom_cons done
    have own : ((∃ d, Directive.recognizeInterface line.toList = .directive d) ∨ region.isSome) ∧ kept = "" ∨
        ¬ ((∃ d, Directive.recognizeInterface line.toList = .directive d) ∨ region.isSome) ∧ kept = line := by
      cases recognized : Directive.recognizeInterface line.toList with
      | malformed => simp [recognized] at fate
      | ordinary =>
        rw [recognized] at fate
        cases region <;> simp [fate.1]
      | directive d => cases d <;> simp_all
    have opened : region'.isSome ↔ Directive.recognizeInterface line.toList = .directive .overrideBegin ∨
        region.isSome ∧ Directive.recognizeInterface line.toList ≠ .directive .overrideEnd := by
      cases recognized : Directive.recognizeInterface line.toList with
      | malformed => simp [recognized] at fate
      | ordinary =>
        rw [recognized] at fate
        simp [fate.2.1]
      | directive d =>
        rw [recognized] at fate
        cases d with
        | overrideBegin => simp [fate.2.2.1]
        | overrideEnd =>
          obtain ⟨_, lines, _, rfl, _⟩ := fate
          simp
        | noFragmentOutput => simp [fate.2.1]
    -- What follows reads on with the region as this line leaves it: opened, closed, or as it was.
    refine .cons ?_ ((ih tail).congr fun i _ => ?_)
    · have first : ¬ InRegion (line :: rest) 0 := fun ⟨j, before, _⟩ => Nat.not_lt_zero j before
      simpa only [InterfaceAt, lineAt_zero, first, false_or, Nat.not_lt_zero, false_imp_iff, implies_true,
        and_true] using own
    · rw [inRegion_succ, opened, Nat.forall_lt_succ_left]
      simp only [InterfaceAt, lineAt_succ, lineAt_zero]
      constructor
      · rintro (own | inside | ⟨begins | ⟨stands, goes⟩, stays⟩)
        · exact .inl own
        · exact .inr (.inl (.inr inside))
        · exact .inr (.inl (.inl ⟨begins, stays⟩))
        · exact .inr (.inr ⟨stands, goes, stays⟩)
      · rintro (own | (⟨begins, stays⟩ | inside) | ⟨stands, goes, stays⟩)
        · exact .inl own
        · exact .inr (.inr ⟨.inl begins, stays⟩)
        · exact .inr (.inl inside)
        · exact .inr (.inr ⟨.inr ⟨stands, goes⟩, stays⟩)

theorem interface_emptiedAt {asked : InterfaceRequest} (done : interface ls = .ok (ls', asked)) :
    EmptiedAt (fun i => (∃ d, InterfaceAt d ls i) ∨ InRegion ls i) ls ls' :=
  (interfaceFrom_emptiedAt done).congr fun i _ => by simp

def declaration? (line : String) : Option ConstantDeclaration :=
  match Directive.recognizeConstant line.toList with
  | .directive d => some d
  | _ => none

private theorem constants_emptiedAt {first : UInt32} {found : List SourceConstant}
    (done : constants first ls = .ok (ls', found)) : EmptiedAt (ConstantAt ls) ls ls' := by
  induction ls generalizing first ls' found with
  | nil =>
    cases done
    exact .nil _
  | cons line rest ih =>
    obtain ⟨kept, first', later, after, rfl, tail, fate⟩ := constants_cons done
    refine .cons ?_ (ih tail)
    rw [ConstantAt, lineAt_zero]
    rcases fate with ⟨recognized, rfl⟩ | ⟨d, recognized, rfl⟩
    · exact .inr ⟨by simp [recognized], rfl⟩
    · exact .inl ⟨⟨d, recognized⟩, rfl⟩

private theorem constants_found {first : UInt32} {found : List SourceConstant}
    (done : constants first ls = .ok (ls', found)) :
    found = (ls.filterMap declaration?).zipIdx.map fun (d, k) => ⟨first + .ofNat k, d.type, d.name, d.value⟩ := by
  induction ls generalizing first ls' found with
  | nil =>
    cases done
    rfl
  | cons line rest ih =>
    obtain ⟨read, known, done⟩ := bind_eq_ok.mp done
    rcases Recognition.value?_eq_ok.mp known with ⟨recognized, rfl⟩ | ⟨d, recognized, rfl⟩
    · obtain ⟨⟨after, later⟩, tail, written⟩ := bind_eq_ok.mp done
      cases pure_eq_ok.mp written
      have none' : declaration? line = none := by
        rw [declaration?, recognized]
      rw [List.filterMap_cons_none none']
      exact ih tail
    · obtain ⟨⟨after, later⟩, tail, written⟩ := bind_eq_ok.mp done
      cases pure_eq_ok.mp written
      have some' : declaration? line = some d := by
        rw [declaration?, recognized]
      have next : ∀ k : Nat, first + 1 + .ofNat k = first + .ofNat (k + 1) := fun k => by
        rw [UInt32.add_assoc, UInt32.ofNat_add, UInt32.add_comm (.ofNat k)]
        rfl
      rw [List.filterMap_cons_some some', List.zipIdx_cons', List.map_cons, List.map_map, ih tail]
      have start : first + .ofNat 0 = first := UInt32.add_zero first
      simp only [Function.comp_def, Prod.map, next, start, id_eq]

private theorem id_of_found {first : UInt32} {ds : List ConstantDeclaration} {k : Nat} {c : SourceConstant}
    (listed : (ds.zipIdx.map fun (d, k) => (⟨first + .ofNat k, d.type, d.name, d.value⟩ : SourceConstant))[k]? = some c)
    (fits : first.toNat + k < UInt32.size) : c.id = first.toNat + k := by
  rw [List.getElem?_map, List.getElem?_zipIdx, Nat.zero_add] at listed
  obtain ⟨⟨d, j⟩, known, rfl⟩ := Option.map_eq_some_iff.mp listed
  obtain ⟨d', _, same⟩ := Option.map_eq_some_iff.mp known
  obtain ⟨rfl, rfl⟩ := Prod.mk.inj same
  have small : k < UInt32.size := by omega
  rw [SourceConstant.id, UInt32.toNat_add, UInt32.toNat_ofNat_of_lt' small, Nat.mod_eq_of_lt fits]

end Passes

end Extraction

private theorem ResourceBlock.extractFrom_emptiedAt {catalog : Catalog} {shader : String} {ls ls' : List String}
    {blocks blocks' : List ResourceBlock} (done : extractFrom catalog shader blocks ls = .ok (ls', blocks')) :
    Extraction.EmptiedAt (Extraction.BlockAt ls) ls ls' := by
  induction ls generalizing blocks ls' with
  | nil =>
    cases done
    exact .nil _
  | cons line rest ih =>
    obtain ⟨kept, further, after, rfl, tail, fate⟩ := extractFrom_cons done
    refine .cons ?_ (ih tail)
    rw [Extraction.BlockAt, Extraction.lineAt_zero]
    rcases fate with ⟨recognized, rfl, _⟩ | ⟨name, recognized, rfl, _⟩
    · exact .inr ⟨by simp [recognized], rfl⟩
    · exact .inl ⟨⟨name, recognized⟩, rfl⟩

namespace Extraction

open Text (bare)

/-- Whether the passes take out the line at a place.  Each pass after the first reads lines that have been written once
more, and lost a return. -/
def TakenAt (ls : List String) (i : Nat) : Prop :=
  VersionAt ls i ∨ ((∃ d, InterfaceAt d (ls.map bare) i) ∨ InRegion (ls.map bare) i) ∨
    ConstantAt ((ls.map bare).map bare) i ∨ BlockAt (((ls.map bare).map bare).map bare) i

variable {ls ls' : List String} {i : Nat}

theorem lineAt_of_eq_some {kind : String → Prop} {line : String} (listed : ls[i]? = some line) :
    LineAt kind ls i ↔ kind line := by
  simp [LineAt, listed]

theorem versionAt_or_inRegion_of_takenAt {line : String} (passes : ∀ family : DirectiveFamily, family.Passes line.toList)
    (listed : ls[i]? = some line) (taken : TakenAt ls i) : VersionAt ls i ∨ InRegion (ls.map bare) i := by
  have again : ∀ {ls : List String} {line : String}, ls[i]? = some line → (ls.map bare)[i]? = some (bare line) := by
    intro ls line listed
    rw [List.getElem?_map, listed, Option.map_some]
  have still : ∀ {line : String}, (∀ family : DirectiveFamily, family.Passes line.toList) →
      ∀ family : DirectiveFamily, family.Passes (bare line).toList :=
    fun passes family => DirectiveFamily.passes_bare.mpr (passes family)
  rcases taken with version | (⟨d, interface⟩ | region) | constant | block
  · exact .inl version
  · have directive := (lineAt_of_eq_some (again listed)).mp interface
    cases (still passes .interfaces).symm.trans directive
  · exact .inr region
  · obtain ⟨d, directive⟩ := (lineAt_of_eq_some (again (again listed))).mp constant
    cases (still (still passes) .constants).symm.trans directive
  · obtain ⟨group, directive⟩ := (lineAt_of_eq_some (again (again (again listed)))).mp block
    cases (still (still (still passes)) .blocks).symm.trans directive

private theorem lineAt_congr {kind : String → Prop} (same : ls[i]? = ls'[i]?) : LineAt kind ls i ↔ LineAt kind ls' i := by
  rw [LineAt, LineAt, same]

private theorem inRegion_congr (same : ∀ d k, InterfaceAt d ls k ↔ InterfaceAt d ls' k) : InRegion ls i ↔ InRegion ls' i := by
  simp only [InRegion, same]

private theorem interfaceAt_of_version (d : InterfaceDirective) (h : EmptiedAt (VersionAt ls) (ls.map bare) ls') :
    InterfaceAt d ls' i ↔ InterfaceAt d (ls.map bare) i := by
  by_cases version : VersionAt ls i
  · obtain ⟨l, hl, opens⟩ := version.1
    have plain := Directive.not_opensPragma_bare (Directive.not_opensPragma_of_version opens)
    have before : (ls.map bare)[i]? = some (bare l) := by
      rw [List.getElem?_map, Option.mem_def.mp hl]
      rfl
    obtain ⟨inside, _⟩ := List.getElem?_eq_some_iff.mp before
    have empty : Directive.recognizeInterface "".toList = .ordinary := rfl
    simp only [InterfaceAt, LineAt, h.emptied i inside version, before, Option.mem_some_iff, exists_eq_left', empty,
      Directive.recognizeInterface_of_not_opensPragma plain]
  · exact lineAt_congr (h.kept i version)

private theorem emptiedAt_of_passes {text shader : String} {catalog : Catalog} {outside plain rest : List String}
    {asked : InterfaceRequest} {found : List SourceConstant} {blocks blocks' : List ResourceBlock}
    (interfaces : interface (Text.lines (Text.unlines (version (Text.lines text)).2)) = .ok (outside, asked))
    (declarations : constants 0 (Text.lines (Text.unlines outside)) = .ok (plain, found))
    (extracted : ResourceBlock.extractFrom catalog shader blocks (Text.lines (Text.unlines plain)) =
      .ok (rest, blocks')) :
    EmptiedAt (TakenAt (Text.lines text)) ((((Text.lines text).map bare).map bare).map bare) rest := by
  have free : ∀ s, ∀ l ∈ Text.lines s, '\n' ∉ l.toList := fun _ _ => Text.newline_free_of_mem_lines
  have versions := (version_emptiedAt (Text.lines text)).reread (free text)
  have outsides := versions.map_bare.trans ((interface_emptiedAt interfaces).reread (free _))
  have plains := outsides.map_bare.trans ((constants_emptiedAt declarations).reread (free _))
  have rests := plains.trans (ResourceBlock.extractFrom_emptiedAt extracted)
  have same : ∀ d k, InterfaceAt d (Text.lines (Text.unlines (version (Text.lines text)).2)) k ↔
      InterfaceAt d ((Text.lines text).map bare) k := fun d _ => interfaceAt_of_version d versions
  refine rests.congr fun i _ => ?_
  -- A pass reads what is left by those before it: the line as it was, unless one of them has taken it.
  have block : _ ∨ BlockAt (Text.lines (Text.unlines plain)) i ↔ _ ∨ BlockAt _ i :=
    or_congr_right' fun stays => lineAt_congr (plains.kept i stays)
  have constant : _ ∨ ConstantAt (Text.lines (Text.unlines outside)) i ↔ _ ∨ ConstantAt _ i :=
    or_congr_right' fun stays => lineAt_congr (outsides.kept i stays)
  refine (block.trans (or_congr_left constant)).trans ?_
  simp only [TakenAt, same, inRegion_congr same, or_assoc]

theorem lineAt_of_emptiedAt {text : String} {rest : List String} (h : EmptiedAt (TakenAt (Text.lines text))
      ((((Text.lines text).map bare).map bare).map bare) rest) (i : Nat) :
    (TakenAt (Text.lines text) i → Text.lineAt (Text.unlines rest) i = "") ∧
      (¬ TakenAt (Text.lines text) i → Text.lineAt (Text.unlines rest) i = Text.lineAt text i) := by
  have lines : ∀ l ∈ Text.lines text, '\n' ∉ l.toList := fun _ => Text.newline_free_of_mem_lines
  have free := h.newline_free
    (EmptiedAt.newline_free_map_bare (EmptiedAt.newline_free_map_bare (EmptiedAt.newline_free_map_bare lines)))
  rw [Text.lineAt_unlines free]
  constructor
  · intro taken
    have inside : rest[i]?.getD "" = "" := by
      by_cases inside : i < ((((Text.lines text).map bare).map bare).map bare).length
      · rw [h.emptied i inside taken]
        rfl
      · rw [List.getElem?_eq_none (h.length.trans_le (Nat.le_of_not_lt inside))]
        rfl
    rw [inside]
    rfl
  · intro stays
    rw [h.kept i stays, Text.lineAt, List.getElem?_map, List.getElem?_map, List.getElem?_map]
    cases (Text.lines text)[i]? with
    | none => rfl
    | some l => simp only [Option.map_some, Option.getD_some, Text.trimEnd_bare]

end Extraction

namespace StageRequest

open Extraction (EmptiedAt TakenAt VersionAt InterfaceAt InRegion ConstantAt BlockAt declaration?)
open Text (bare)

variable {r : StageRequest} {catalog : Catalog} {options : SourceOptions} {files : FileTree}
  {body : String} {source : AssembledSource}

/-- The body fragment of a source is what the passes leave of the body with its includes spliced. -/
theorem assemble_body (done : r.assemble catalog options files body = .ok source) :
    ∃ expanded rest, (r.includePlan options).expand files r.path body = .ok expanded ∧
      source.fragments.filter (·.kind == .body) = [⟨.body, r.bodyText options (Text.unlines rest)⟩] ∧
      EmptiedAt (TakenAt (Text.lines expanded)) ((((Text.lines expanded).map bare).map bare).map bare) rest := by
  obtain ⟨expanded, outside, plain, rest, asked, spliced, interfaces, declarations, extracted, _, rfl, fragments, _⟩ :=
    exists_passes_of_assemble done
  have emptied := Extraction.emptiedAt_of_passes interfaces declarations extracted
  refine ⟨expanded, rest, spliced, ?_, emptied⟩
  rw [fragments]
  exact filter_pieces .body

/-- Each pass leaves every line in its place, less a carriage return, but empties those that it takes out: the version,
interface directives and what stands in override regions, constants, block directives.  The constants come in order and
are numbered in one word, so that they have the numbers from the first on as long as these are below 2^32.  So the body
fragment has each line of the body, with its includes spliced, in its place or empty, up to blanks at the end. -/
theorem passes_keep_lines_in_place (text : String) :
    (EmptiedAt (VersionAt (Text.lines text)) ((Text.lines text).map bare)
        (Text.lines (Text.unlines (Extraction.version (Text.lines text)).2)) ∧
      ∀ i j, VersionAt (Text.lines text) i → VersionAt (Text.lines text) j → i = j) ∧
    (∀ rest asked, Extraction.interface (Text.lines text) = .ok (rest, asked) →
      EmptiedAt (fun i => (∃ d, InterfaceAt d (Text.lines text) i) ∨ InRegion (Text.lines text) i)
        ((Text.lines text).map bare) (Text.lines (Text.unlines rest))) ∧
    (∀ first rest found, Extraction.constants first (Text.lines text) = .ok (rest, found) →
      EmptiedAt (ConstantAt (Text.lines text)) ((Text.lines text).map bare) (Text.lines (Text.unlines rest)) ∧
        found = ((Text.lines text).filterMap declaration?).zipIdx.map (fun (d, k) =>
          ⟨first + .ofNat k, d.type, d.name, d.value⟩) ∧
        ∀ k c, found[k]? = some c → first.toNat + k < UInt32.size → c.id = first.toNat + k) ∧
    (∀ catalog shader rest blocks, ResourceBlock.extract catalog shader (Text.lines text) = .ok (rest, blocks) →
      EmptiedAt (BlockAt (Text.lines text)) ((Text.lines text).map bare) (Text.lines (Text.unlines rest))) ∧
    ∀ (r : StageRequest) catalog options files source, options.lineDirectives = false →
      r.assemble catalog options files text = .ok source →
      ∃ expanded fragment, (r.includePlan options).expand files r.path text = .ok expanded ∧
        source.fragments.filter (·.kind == .body) = [⟨.body, fragment⟩] ∧
        (Text.lines fragment).length ≤ (Text.lines expanded).length ∧
        ∀ i, (TakenAt (Text.lines expanded) i → Text.lineAt fragment i = "") ∧
          (¬ TakenAt (Text.lines expanded) i → Text.lineAt fragment i = Text.lineAt expanded i) := by
  have free : ∀ l ∈ Text.lines text, '\n' ∉ l.toList := fun _ => Text.newline_free_of_mem_lines
  refine ⟨⟨(Extraction.version_emptiedAt _).reread free, fun _ _ => Extraction.VersionAt.unique⟩, ?_, ?_, ?_, ?_⟩
  · intro rest asked done
    exact (Extraction.interface_emptiedAt done).reread free
  · intro first rest found done
    obtain rfl := Extraction.constants_found done
    exact ⟨(Extraction.constants_emptiedAt done).reread free, rfl, fun k c => Extraction.id_of_found⟩
  · intro catalog shader rest blocks done
    exact (ResourceBlock.extractFrom_emptiedAt done).reread free
  · intro r catalog options files source unmarked done
    obtain ⟨expanded, rest, spliced, fragment, emptied⟩ := assemble_body done
    have own : r.bodyText options (Text.unlines rest) = Text.trimEnd (Text.unlines rest) := by
      rw [bodyText, unmarked]
      rfl
    have written : ∀ l ∈ rest, '\n' ∉ l.toList := by
      refine emptied.newline_free ?_
      refine EmptiedAt.newline_free_map_bare (EmptiedAt.newline_free_map_bare (EmptiedAt.newline_free_map_bare ?_))
      exact fun _ => Text.newline_free_of_mem_lines
    refine ⟨expanded, _, spliced, own ▸ fragment, ?_, fun i => ?_⟩
    · calc (Text.lines (Text.trimEnd (Text.unlines rest))).length
        _ ≤ (Text.lines (Text.unlines rest)).length := Text.length_lines_trimEnd_le _
        _ = rest.length := by rw [Text.lines_unlines written, List.length_map]
        _ = (Text.lines expanded).length := by rw [emptied.length]; simp only [List.length_map]
    · rw [Text.lineAt_trimEnd]
      exact Extraction.lineAt_of_emptiedAt emptied i

end StageRequest

end ShaderPipeline
