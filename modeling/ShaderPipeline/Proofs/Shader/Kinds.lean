import ShaderPipeline.Proofs.Shader.Acceptance

/-!
Which kind the tables have at a slot when a stage may use a slot more than once.

The kinds of a stage are compared with the tables as they are before the stage, and merging keeps the kind that is
there.  The kind at a slot is so that of the first usage there, and a stage whose own usages of a slot differ is
folded in all the same.  Main statement: after any calls, a usage of a folded stage has the kind that the tables
have at its slot exactly when an earlier stage used the slot or the first usage of the slot in its own stage has
its kind, and a stage is refused for a conflict exactly at its first usage that differs from the tables.
-/

set_option autoImplicit false
set_option relaxedAutoImplicit false

namespace ShaderPipeline

open Outcome

namespace Usage

/-- The kind of the first of some usages at a slot. -/
def kindAt? (slot : Nat × Nat) (us : List Usage) : Option DescriptorKind :=
  (us.find? (·.slot == slot)).map (·.kind)

variable {table us : List Usage} {slot : Nat × Nat}

private theorem kindAt?_append (slot : Nat × Nat) (us vs : List Usage) :
    kindAt? slot (us ++ vs) = (kindAt? slot us).or (kindAt? slot vs) := by
  simp only [kindAt?, List.find?_append]
  cases us.find? (·.slot == slot) <;> rfl

private theorem kindAt?_eq_none : kindAt? slot us = none ↔ ∀ u ∈ us, u.slot ≠ slot := by
  simp [kindAt?]

private theorem exists_of_kindAt?_eq_some {kind : DescriptorKind} (first : kindAt? slot us = some kind) :
    ∃ u ∈ us, u.slot = slot ∧ u.kind = kind := by
  obtain ⟨u, found, has_kind⟩ := Option.map_eq_some_iff.mp first
  exact ⟨u, List.mem_of_find?_eq_some found, by simpa using List.find?_some found, has_kind⟩

private theorem exists_kindAt?_of_mem {u : Usage} (hu : u ∈ us) : ∃ kind, kindAt? u.slot us = some kind :=
  Option.ne_none_iff_exists'.mp fun none => kindAt?_eq_none.mp none u hu rfl

def KindsAgree (us : List Usage) : Prop :=
  ∀ u ∈ us, ∀ v ∈ us, u.slot = v.slot → u.kind = v.kind

private theorem KindsAgree.kindAt?_eq_some (agree : KindsAgree us) {u : Usage} (hu : u ∈ us) :
    kindAt? u.slot us = some u.kind := by
  obtain ⟨kind, first⟩ := exists_kindAt?_of_mem hu
  obtain ⟨v, hv, same, rfl⟩ := exists_of_kindAt?_eq_some first
  rw [first, agree v hv u hu same]

private theorem kind_onto (u : Usage) (known? : Option Usage) :
    (u.onto known?).kind = ((known?.map (·.kind)).getD u.kind) := by
  cases known? <;> rfl

private theorem kindAt?_enterAll {t : SetTable} (keyed : t.Keyed) (vs : List Usage) (slot : Nat × Nat) :
    (SetTable.usageAt? (vs.foldl .enter t) slot).map (·.kind) =
      ((t.usageAt? slot).map (·.kind)).or (kindAt? slot vs) := by
  induction vs generalizing t with
  | nil => simp [kindAt?]
  | cons v vs ih =>
    rw [List.foldl_cons, ih (keyed.enter v), keyed.usageAt?_enter, ← List.singleton_append, kindAt?_append,
      ← Option.or_assoc]
    congr 1
    by_cases same : slot = v.slot
    · subst same
      rw [if_pos rfl, Option.map_some, kind_onto]
      cases t.usageAt? v.slot <;> simp [kindAt?]
    · have other : kindAt? slot [v] = none := kindAt?_eq_none.mpr (by simpa using Ne.symm same)
      rw [if_neg same, other, Option.or_none]

end Usage

namespace Shader

open Usage

/-- What a shader remembers of the calls that were folded in: which stages they are about, and at each slot the kind
of the first usage there. -/
structure Remembers (s : Shader) (folded : List StageCall) : Prop where
  keyed : s.Keyed
  parsed : s.parsed = folded.map (·.1)
  kinds : ∀ slot, (s.usageAt? slot).map (·.kind) = kindAt? slot (usagesOf folded)

private theorem remembers_new (name : String) (stages : List StageSet) : (new name stages).Remembers [] :=
  ⟨SetTable.keyed_nil, rfl, fun _ => rfl⟩

variable {s s' : Shader} {folded : List StageCall} {call : StageCall} {u : Usage}

theorem Remembers.collate (h : s.Remembers folded) (done : s.collate call.1 call.2 = .ok s') :
    s'.Remembers (folded ++ [call]) := by
  obtain ⟨_, _, pushBlocks, _, rfl⟩ := collate_eq_ok.mp done
  refine ⟨h.keyed.enterAll call.2.usages, by simp [extended, h.parsed], fun slot => ?_⟩
  rw [usagesOf_concat, kindAt?_append, ← h.kinds]
  exact kindAt?_enterAll h.keyed call.2.usages slot

private theorem remembers_of_collateAll {name : String} {stages : List StageSet} {calls : List StageCall}
    (done : (new name stages).collateAll calls = .ok s) : s.Remembers calls := by
  refine collateAll_induction (P := Remembers) (remembers_new name stages) ?_ done
  intro call _ s s' folded h folds
  exact h.collate folds

private theorem Remembers.exists_holds_iff (h : s.Remembers folded) (set binding : Nat)
    (kind : DescriptorKind) :
    (∃ known, s.Holds set binding known ∧ known.kind = kind) ↔
      kindAt? (set, binding) (usagesOf folded) = some kind := by
  simp only [← h.kinds, Option.map_eq_some_iff, h.keyed.holds_iff]

/-- Whether a usage has the kind that the tables have at its slot, if they have one. -/
def Suits (s : Shader) (u : Usage) : Prop :=
  ∀ known, s.Holds u.set u.binding known → known.kind = u.kind

private theorem checkKinds_eq_ok_iff_suits (keyed : s.Keyed) {us : List Usage} :
    s.checkKinds us = .ok () ↔ ∀ u ∈ us, s.Suits u := by
  simp only [checkKinds_eq_ok, Suits, keyed.holds_iff, Usage.slot]

private theorem Remembers.suits_iff (h : s.Remembers folded) (hu : u ∈ usagesOf folded) :
    s.Suits u ↔ kindAt? u.slot (usagesOf folded) = some u.kind := by
  constructor
  · intro suits
    obtain ⟨kind, first⟩ := exists_kindAt?_of_mem hu
    obtain ⟨known, held, rfl⟩ := (h.exists_holds_iff u.set u.binding kind).mpr first
    rw [first, suits known held]
  · intro first known held
    have recorded := (h.exists_holds_iff u.set u.binding known.kind).mp ⟨known, held, rfl⟩
    exact Option.some.inj (recorded.symm.trans first)

/-- A usage of a folded stage has the kind at its slot when an earlier stage used the slot, since it was compared
with the tables, or when it has the kind of the first usage there in its stage. -/
private theorem kindAt?_usagesOf_iff {before after : List StageCall} {name : String}
    {stages : List StageSet}
    (done : (new name stages).collateAll (before ++ call :: after) = .ok s)
    (hu : u ∈ call.2.usages) :
    kindAt? u.slot (usagesOf (before ++ call :: after)) = some u.kind ↔
      (∃ v ∈ usagesOf before, v.slot = u.slot) ∨ kindAt? u.slot call.2.usages = some u.kind := by
  have parts : usagesOf (before ++ call :: after) =
      usagesOf before ++ (call.2.usages ++ usagesOf after) := by
    simp [usagesOf]
  obtain ⟨kind, own⟩ := exists_kindAt?_of_mem hu
  rw [parts, kindAt?_append, kindAt?_append, own]
  cases earlier : kindAt? u.slot (usagesOf before) with
  | none =>
    have unused : ¬ ∃ v ∈ usagesOf before, v.slot = u.slot := by
      simpa using kindAt?_eq_none.mp earlier
    simp [unused]
  | some kind' =>
    obtain ⟨v, hv, same, _⟩ := exists_of_kindAt?_eq_some earlier
    have used : ∃ v ∈ usagesOf before, v.slot = u.slot := ⟨v, hv, same⟩
    simp only [used, true_or, iff_true, Option.some_or]
    -- The stage was compared with the tables as the calls before it left them.
    rw [Shader.collateAll, List.foldlM_append, bind_eq_ok] at done
    obtain ⟨mid, first, later⟩ := done
    rw [List.foldlM_cons, bind_eq_ok] at later
    obtain ⟨next, folds, _⟩ := later
    have remembers : mid.Remembers before := remembers_of_collateAll first
    obtain ⟨_, kinds, _⟩ := collate_eq_ok.mp folds
    obtain ⟨known, held, rfl⟩ := (remembers.exists_holds_iff u.set u.binding kind').mpr earlier
    rw [kinds u hu known (remembers.keyed.holds_iff.mp held)]

/-- The usage at which a stage is refused: those before it suit the tables, and it has another kind than they have
at its slot. -/
structure ConflictsAt (s : Shader) (earlier : List Usage) (u known : Usage) : Prop where
  suited : ∀ v ∈ earlier, s.Suits v
  held : s.Holds u.set u.binding known
  differs : known.kind ≠ u.kind

private theorem Remembers.collate_conflict_iff (h : s.Remembers folded) (call : StageCall)
    (set binding : Nat) (first second : DescriptorKind) :
    s.collate call.1 call.2 = .error (.kindConflict set binding first second) ↔
      (∀ c ∈ folded, c.1.stage ≠ call.1.stage) ∧
        ∃ earlier u later known, call.2.usages = earlier ++ u :: later ∧
          s.ConflictsAt earlier u known ∧ u.slot = (set, binding) ∧ known.kind = first ∧
            u.kind = second := by
  have free : s.checkUnparsed call.1 = .ok () ↔ ∀ c ∈ folded, c.1.stage ≠ call.1.stage := by
    simp [checkUnparsed_eq_ok, h.parsed]
  have others : s.pushBlocksWith call.1.stage call.2.pushConstant ≠
      .error (.kindConflict set binding first second) := by
    intro failed
    obtain ⟨_, overflow⟩ := exists_of_pushBlocksWith_eq_error failed
    cases overflow
  rw [collate_eq_error, checkUnparsed_eq_error, checkKinds_eq_error, free]
  simp only [reduceCtorEq, and_false, false_or, others, or_false,
    checkKinds_eq_ok_iff_suits h.keyed, checkKinds_singleton_eq_error, CollateError.kindConflict.injEq]
  refine and_congr_right fun _ => ?_
  constructor
  · rintro ⟨earlier, u, later, split, suited, known, found, differs, rfl, rfl, rfl, rfl⟩
    have held := h.keyed.holds_iff.mpr found
    exact ⟨earlier, u, later, known, split, ⟨suited, held, differs⟩, rfl, rfl, rfl⟩
  · rintro ⟨earlier, u, later, known, split, ⟨suited, held, differs⟩, at_slot, rfl, rfl⟩
    obtain ⟨rfl, rfl⟩ := Prod.mk.inj at_slot
    exact ⟨earlier, u, later, split, suited, known, h.keyed.holds_iff.mp held, differs, rfl, rfl, rfl, rfl⟩

/-- After any calls the tables have at each slot the kind of the first usage there that was folded in.  A usage of
a folded stage has that kind exactly when a stage folded in before used the slot, or the first usage of the slot in
its own stage has it; so no slot mixes kinds unless it does within a stage.  A call fails with a conflict exactly
when its place is free and one of its usages has another kind than the tables have at its slot, and then it names
the first such usage. -/
theorem kinds_are_those_of_first_usages (name : String) (stages : List StageSet)
    (calls : List StageCall) :
    let start := new name stages
    let s := start.attemptAll calls
    let accepted := start.accepted calls
    (∀ set binding kind, (∃ known, s.Holds set binding known ∧ known.kind = kind) ↔
      kindAt? (set, binding) (usagesOf accepted) = some kind) ∧
      (∀ before call after, accepted = before ++ call :: after → ∀ u ∈ call.2.usages,
        (s.Suits u ↔ (∃ v ∈ usagesOf before, v.slot = u.slot) ∨
          kindAt? u.slot call.2.usages = some u.kind)) ∧
        ((∀ call ∈ accepted, KindsAgree call.2.usages) → ∀ u ∈ usagesOf accepted, s.Suits u) ∧
          ∀ (call : StageCall) set binding first second,
            s.collate call.1 call.2 = .error (.kindConflict set binding first second) ↔
              (∀ c ∈ accepted, c.1.stage ≠ call.1.stage) ∧
                ∃ earlier u later known, call.2.usages = earlier ++ u :: later ∧
                  s.ConflictsAt earlier u known ∧ u.slot = (set, binding) ∧
                    known.kind = first ∧ u.kind = second := by
  intro start s accepted
  have done : start.collateAll accepted = .ok s := collateAll_accepted start calls
  have remembers : s.Remembers accepted := remembers_of_collateAll done
  have suits_iff : ∀ before call after, accepted = before ++ call :: after →
      ∀ u ∈ call.2.usages, (s.Suits u ↔ (∃ v ∈ usagesOf before, v.slot = u.slot) ∨
        kindAt? u.slot call.2.usages = some u.kind) := by
    intro before call after split u hu
    have folded : u ∈ usagesOf accepted :=
      List.mem_flatMap.mpr ⟨call, split ▸ List.mem_append_right _ List.mem_cons_self, hu⟩
    rw [remembers.suits_iff folded]
    rw [split] at done ⊢
    exact kindAt?_usagesOf_iff done hu
  refine ⟨remembers.exists_holds_iff, suits_iff, ?_, remembers.collate_conflict_iff⟩
  intro agree u hu
  obtain ⟨call, hc, hu⟩ := List.mem_flatMap.mp hu
  obtain ⟨before, after, split⟩ := List.append_of_mem hc
  exact (suits_iff before call after split u hu).mpr (.inr ((agree call hc).kindAt?_eq_some hu))

/-- A stage that has two kinds at one slot, one that has the first of them there, and one that has the second. -/
def mixedCalls : List StageCall :=
  [usageCall .vertex [lightUsage .vertex .read .uniformBuffer,
      lightUsage .vertex .read .storageBuffer],
    usageCall .fragment [lightUsage .fragment .read .uniformBuffer],
    usageCall .geometry [lightUsage .geometry .read .storageBuffer]]

theorem kinds_are_those_of_first_usages_of_mixedCalls :
    let s := (new "lit" [.of .vertex, .of .fragment]).attemptAll mixedCalls
    (∃ known, s.Holds 0 2 known ∧ known.kind = .uniformBuffer) ∧
      s.Suits (lightUsage .fragment .read .uniformBuffer) ∧
        ¬ s.Suits (lightUsage .vertex .read .storageBuffer) := by
  intro s
  have accepted : (new "lit" [.of .vertex, .of .fragment]).accepted mixedCalls =
      mixedCalls.take 2 := by
    decide
  obtain ⟨recorded, suits_iff, _⟩ :=
    kinds_are_those_of_first_usages "lit" [.of .vertex, .of .fragment] mixedCalls
  rw [accepted] at recorded suits_iff
  refine ⟨(recorded 0 2 .uniformBuffer).mpr (by decide), ?_, ?_⟩
  · exact (suits_iff (mixedCalls.take 1) _ [] rfl _ List.mem_cons_self).mpr (.inl (by decide))
  · exact mt (suits_iff [] _ ((mixedCalls.take 2).tail) rfl _ (by decide)).mp (by decide)

/-- The first of these stages is folded in with both of its kinds, of which the tables have one. -/
theorem two_kinds_folded_in :
    let start := new "lit" [.of .vertex, .of .fragment]
    let calls := mixedCalls.take 1
    start.accepted calls = calls ∧
      ∃ u ∈ usagesOf calls, ∃ known, (start.attemptAll calls).Holds u.set u.binding known ∧
        known.kind ≠ u.kind := by
  refine ⟨by decide, lightUsage .vertex .read .storageBuffer, by decide,
    (lightUsage .vertex .read .uniformBuffer).merge (lightUsage .vertex .read .storageBuffer),
    by decide, by decide⟩

end Shader

end ShaderPipeline
