import Mathlib
import ShaderPipeline.Proofs.Reflection.Slots
import ShaderPipeline.Proofs.Shader.Acceptance
import ShaderPipeline.Proofs.Stage
import ShaderPipeline.Shader.Layout

/-!
Where the push-constant blocks of a shader come to lie when its stages are parsed.

A binary shows at most one block, which belongs to the stage that it is parsed as; every new block makes the
shader order and place all of them again.  Main statement: after any parsing of single stages, failed calls
included, there is one block for each stage with push constants, the blocks stand in the order of the stages and
each begins where the one before it ends.
-/

set_option autoImplicit false
set_option relaxedAutoImplicit false

namespace ShaderPipeline

open Outcome

namespace Spirv.Module

variable {m : Module} {stage : StageSet}

theorem pushBlock_eq_ok {v : Variable} {b : PushBlock} (done : m.pushBlock stage v = .ok b) :
    b.stages = stage ∧ b.offset = 0 := by
  obtain ⟨members, _, made⟩ := bind_eq_ok.mp done
  obtain rfl := pure_eq_ok.mp made
  exact ⟨rfl, rfl⟩

private theorem pushConstant_eq_some {b : PushBlock} (done : m.pushConstant stage = .ok (some b)) :
    b.stages = stage ∧ b.offset = 0 := by
  unfold pushConstant at done
  split at done
  · cases done
  · rename_i first rest _
    obtain ⟨block, found, done⟩ := bind_eq_ok.mp done
    have same : block = b := by
      cases rest with
      | nil => exact Option.some.inj (pure_eq_ok.mp done)
      | cons second _ => exact absurd done throw_ne_ok
    exact same ▸ pushBlock_eq_ok found

theorem pushConstant_of_reflection {c : StageContext} {r : StageReflection}
    (done : m.reflection c stage = .ok r) : m.pushConstant stage = .ok r.pushConstant :=
  (reflection_eq_ok.mp done).2.2.1

end Spirv.Module

namespace StageReflection

private theorem pushConstant_of_ofBinary {c : StageContext} {stage : StageSet} {binary : List UInt32}
    {r : StageReflection} (done : ofBinary c stage binary = .ok r) {b : PushBlock}
    (shown : r.pushConstant = some b) : b.stages = stage ∧ b.offset = 0 := by
  obtain ⟨m, _, reflected⟩ := ofBinary_eq_ok.mp done
  have found := Spirv.Module.pushConstant_of_reflection reflected
  rw [shown] at found
  exact Spirv.Module.pushConstant_eq_some found

end StageReflection

namespace PushBlock

private theorem membersEnd?_eq_some {members : List PushMember} {reached stop : Nat}
    (known : membersEnd? reached members = some stop) :
    stop = (members.map fun m => m.offset + m.size).foldl max reached := by
  induction members generalizing reached with
  | nil => exact (Option.some.inj known).symm
  | cons m rest ih =>
    obtain ⟨next, inWord, known⟩ := Option.bind_eq_some_iff.mp known
    obtain ⟨_, rfl⟩ := Spirv.inWord?_eq_some.mp inWord
    exact ih known

private theorem size_eq_of_isSome {b : PushBlock} (known : b.size?.isSome) :
    b.size = (b.members.map fun m => m.offset + m.size).foldl max 0 :=
  membersEnd?_eq_some (size?_eq_size known)

private theorem offset_le_of_mem_place {offset : Nat} {blocks : List PushBlock} {b : PushBlock}
    (hb : b ∈ place offset blocks) : offset ≤ b.offset := by
  induction blocks generalizing offset with
  | nil => cases hb
  | cons a rest ih =>
    rcases List.mem_cons.mp hb with rfl | hb
    · exact Nat.le_refl offset
    · have later := ih hb
      omega

private theorem place_pairwise (offset : Nat) (blocks : List PushBlock) :
    (place offset blocks).Pairwise fun a b => a.offset + a.size ≤ b.offset := by
  induction blocks generalizing offset with
  | nil => exact .nil
  | cons a rest ih =>
    refine List.pairwise_cons.mpr ⟨fun b hb => ?_, ih (offset + a.size)⟩
    have later : offset + a.size ≤ b.offset := offset_le_of_mem_place hb
    exact later

private theorem offset_of_place {offset : Nat} {before after : List PushBlock} {b : PushBlock}
    (placed : place offset (before ++ b :: after) = before ++ b :: after) :
    b.offset = offset + (before.map size).sum := by
  induction before generalizing offset with
  | nil =>
    obtain ⟨first, _⟩ := List.cons.inj placed
    rw [← first]
    simp
  | cons a before ih =>
    obtain ⟨_, later⟩ := List.cons.inj placed
    have begins := ih later
    simp only [List.map_cons, List.sum_cons]
    omega

private theorem intersects_self {stage : StageSet} (single : stage.isSingle = true) :
    stage.intersects stage = true :=
  (StageSet.intersects_iff_eq single single).mpr rfl

private theorem rank_append {stages : List StageSet} {b : PushBlock} (single : b.stages.isSingle = true)
    (listed : b.stages ∈ stages) (more : List StageSet) :
    rank (stages ++ more) b = rank stages b := by
  have found : ∃ stage ∈ stages, b.stages.intersects stage = true :=
    ⟨b.stages, listed, intersects_self single⟩
  have bound : stages.findIdx (b.stages.intersects ·) < stages.length :=
    List.findIdx_lt_length_of_exists found
  simp only [rank, List.findIdx_append, bound, if_true]

private theorem rank_eq_idxOf {stages : List StageSet} (single : ∀ stage ∈ stages, stage.isSingle = true)
    {b : PushBlock} (one : b.stages.isSingle = true) : rank stages b = stages.idxOf b.stages := by
  induction stages with
  | nil => rfl
  | cons stage stages ih =>
    obtain ⟨first, single⟩ := List.forall_mem_cons.mp single
    have same : b.stages.intersects stage = (stage == b.stages) := by
      rw [Bool.eq_iff_iff, StageSet.intersects_iff_eq one first, beq_iff_eq, eq_comm]
    have later : stages.findIdx (b.stages.intersects ·) = stages.idxOf b.stages := ih single
    rw [rank, List.findIdx_cons, List.idxOf_cons, same, later]

private theorem IsStack.of_ranks {stages stages' : List StageSet} {table blocks : List PushBlock}
    (h : IsStack stages table blocks) (ranks : ∀ b ∈ table, rank stages' b = rank stages b) :
    IsStack stages' table blocks where
  perm := h.perm
  ordered := h.ordered.imp_of_mem fun {a b} ha hb le => by rwa [ranks a ha, ranks b hb]
  placed := h.placed
  fits := h.fits

end PushBlock

namespace ShaderCall

/-- Whether a call parses a binary as a single stage. -/
def ParsesSingle : ShaderCall → Prop
  | collate _ _ => False
  | parse _ i _ => i.stage.isSingle = true

/-- The push-constant block that a call brings. -/
def pushBlock? (call : ShaderCall) : Option PushBlock :=
  call.reflection.toOption.bind (·.pushConstant)

private theorem single_of_parsesSingle {call : ShaderCall} (parses : call.ParsesSingle) :
    call.identity.stage.isSingle = true := by
  cases call with
  | collate i r => exact parses.elim
  | parse c i binary => exact parses

private theorem stages_of_pushBlock? {call : ShaderCall} (parses : call.ParsesSingle) {b : PushBlock}
    (shown : call.pushBlock? = some b) : b.stages = call.identity.stage ∧ b.unplaced = b := by
  cases call with
  | collate i r => exact parses.elim
  | parse c i binary =>
    obtain ⟨r, reflects, shown⟩ := Option.bind_eq_some_iff.mp shown
    cases result : StageReflection.ofBinary c i.stage binary with
    | error e => simp [reflection, result, Except.mapError, Except.toOption] at reflects
    | ok r' =>
      obtain rfl : r' = r := by
        simpa [reflection, result, Except.mapError, Except.toOption] using reflects
      obtain ⟨stage, offset⟩ := StageReflection.pushConstant_of_ofBinary result shown
      refine ⟨stage, ?_⟩
      cases b
      simp_all [PushBlock.unplaced]

end ShaderCall

namespace Shader

open PushBlock ShaderCall

/-- What is known of the blocks while single stages are parsed. -/
private structure IsStacked (s : Shader) (folded : List ShaderCall) : Prop where
  single : ∀ call ∈ folded, call.ParsesSingle
  listed : ∀ call ∈ folded, call.identity.stage ∈ s.stages
  parsed : s.parsed = folded.map (·.identity)
  distinct : (folded.map (·.identity.stage)).Nodup
  stack : IsStack s.stages s.pushBlocks (folded.filterMap (·.pushBlock?))

private theorem IsStacked.call_of_mem {s : Shader} {folded : List ShaderCall} (h : IsStacked s folded)
    {b : PushBlock} (hb : b ∈ s.pushBlocks) :
    ∃ call ∈ folded, call.pushBlock? = some b.unplaced ∧ b.stages = call.identity.stage := by
  have listed : b.unplaced ∈ (folded.filterMap (·.pushBlock?)).map unplaced :=
    h.stack.perm.subset (List.mem_map_of_mem hb)
  obtain ⟨b', hb', same⟩ := List.mem_map.mp listed
  obtain ⟨call, hc, shown⟩ := List.mem_filterMap.mp hb'
  obtain ⟨stage, bare⟩ := stages_of_pushBlock? (h.single call hc) shown
  refine ⟨call, hc, ?_, ?_⟩
  · rw [shown, ← same, bare]
  · rw [← stage, ← bare, same]
    rfl

private theorem IsStacked.single_of_mem {s : Shader} {folded : List ShaderCall}
    (h : IsStacked s folded) {b : PushBlock} (hb : b ∈ s.pushBlocks) :
    b.stages.isSingle = true ∧ b.stages ∈ s.stages := by
  obtain ⟨call, hc, _, stage⟩ := h.call_of_mem hb
  rw [stage]
  exact ⟨single_of_parsesSingle (h.single call hc), h.listed call hc⟩

private theorem IsStacked.stages_nodup {s : Shader} {folded : List ShaderCall}
    (h : IsStacked s folded) : (s.pushBlocks.map (·.stages)).Nodup := by
  have distinct : folded.Pairwise fun c c' => c.identity.stage ≠ c'.identity.stage :=
    List.pairwise_map.mp h.distinct
  have blocks : ((folded.filterMap (·.pushBlock?)).map (·.stages)).Nodup := by
    refine List.pairwise_map.mpr (List.pairwise_filterMap.mpr (distinct.imp_of_mem ?_))
    intro c c' hc hc' different b hb b' hb'
    rw [(stages_of_pushBlock? (h.single c hc) hb).1, (stages_of_pushBlock? (h.single c' hc') hb').1]
    exact different
  have perm : (s.pushBlocks.map (·.stages)).Perm
      ((folded.filterMap (·.pushBlock?)).map (·.stages)) := by
    have tagged := h.stack.perm.map (·.stages)
    simpa [Function.comp_def, unplaced] using tagged
  exact perm.nodup_iff.mpr blocks

private theorem stagesWith_eq_append (s : Shader) (stage : StageSet) :
    ∃ more, s.stagesWith stage = s.stages ++ more ∧ stage ∈ s.stagesWith stage ∧
      ∀ other ∈ more, other = stage := by
  by_cases listed : stage ∈ s.stages
  · exact ⟨[], by simp [stagesWith, listed], by simp [stagesWith, listed], by simp⟩
  · exact ⟨[stage], by simp [stagesWith, listed], by simp [stagesWith, listed], by simp⟩

private theorem isStacked_new (name : String) (stages : List StageSet) :
    IsStacked (new name stages) [] where
  single := nofun
  listed := nofun
  parsed := rfl
  distinct := .nil
  stack := isStack_nil stages

private theorem IsStacked.on {s s' : Shader} {folded : List ShaderCall} {call : ShaderCall}
    (h : IsStacked s folded) (parses : call.ParsesSingle) (done : call.on s = .ok s') :
    IsStacked s' (folded ++ [call]) ∧
      (s'.pushBlocks.map unplaced).Perm (s.pushBlocks.map unplaced ++ call.pushBlock?.toList) ∧
        ∃ more, s'.stages = s.stages ++ more ∧ ∀ other ∈ more, other = call.identity.stage := by
  obtain ⟨r, reflects, collated⟩ := on_eq_ok.mp done
  obtain ⟨free, _, blocks, stacked, rfl⟩ := (@collate_eq_ok s s' (call.identity, r)).mp collated
  have shown : call.pushBlock? = r.pushConstant := by
    simp [ShaderCall.pushBlock?, reflects, Except.toOption]
  obtain ⟨more, extension, listed, added⟩ := stagesWith_eq_append s call.identity.stage
  have kept : IsStack (s.stagesWith call.identity.stage) s.pushBlocks
      (folded.filterMap (·.pushBlock?)) := by
    refine h.stack.of_ranks fun b hb => ?_
    obtain ⟨single, known⟩ := h.single_of_mem hb
    rw [extension, rank_append single known]
  -- A stage without push constants leaves the blocks where they are.
  have stack : IsStack (s.stagesWith call.identity.stage) blocks
        ((folded ++ [call]).filterMap (·.pushBlock?)) ∧
      (blocks.map unplaced).Perm (s.pushBlocks.map unplaced ++ call.pushBlock?.toList) := by
    have concat : (folded ++ [call]).filterMap (·.pushBlock?) =
        folded.filterMap (·.pushBlock?) ++ r.pushConstant.toList := by
      cases brought : r.pushConstant <;> simp [shown, brought]
    rw [concat, shown]
    cases brought : r.pushConstant with
    | none =>
      simp only [brought, pushBlocksWith] at stacked
      obtain rfl := Except.ok.inj stacked
      simpa using kept
    | some block =>
      simp only [brought, pushBlocksWith] at stacked
      have table := isStack_of_stack stacked
      have bare : block.unplaced = block := (stages_of_pushBlock? parses (shown.trans brought)).2
      constructor
      · refine table.of_unplaced ?_
        rw [List.map_append, List.map_append]
        exact h.stack.perm.append_right _
      · simpa [bare] using table.perm
  refine ⟨⟨?_, ?_, ?_, ?_, stack.1⟩, stack.2, more, extension, added⟩
  · intro c hc
    rcases List.mem_append.mp hc with hc | hc
    · exact h.single c hc
    · exact List.mem_singleton.mp hc ▸ parses
  · intro c hc
    rcases List.mem_append.mp hc with hc | hc
    · have known : c.identity.stage ∈ s.stagesWith call.identity.stage := by
        rw [extension]
        exact List.mem_append_left more (h.listed c hc)
      exact known
    · exact List.mem_singleton.mp hc ▸ listed
  · simp [extended, h.parsed]
  · rw [List.map_append, List.nodup_append]
    refine ⟨h.distinct, by simp, ?_⟩
    intro stage hs other ho
    obtain ⟨c, hc, rfl⟩ := List.mem_map.mp hs
    obtain rfl : other = call.identity.stage := by simpa using ho
    exact free c.identity (h.parsed ▸ List.mem_map_of_mem hc)

/-- How the push-constant blocks of a shader lie after some stages were folded in. -/
structure PushLayout (s : Shader) (folded : List ShaderCall) : Prop where
  /-- There is one block for each stage that brought one, and nothing of it but its place has changed. -/
  blocks : (s.pushBlocks.map unplaced).Perm (folded.filterMap (·.pushBlock?))
  tagged : ∀ call ∈ folded, ∀ b, call.pushBlock? = some b → b.stages = call.identity.stage
  stages : (s.pushBlocks.map (·.stages)).Nodup
  ordered : s.pushBlocks.Pairwise fun a b => a.rank s.stages ≤ b.rank s.stages
  offsets : ∀ before b after, s.pushBlocks = before ++ b :: after →
    b.offset = (before.map size).sum
  sizes : ∀ b ∈ s.pushBlocks, b.size? = some b.size ∧
    b.size = (b.members.map fun m => m.offset + m.size).foldl max 0
  disjoint : s.pushBlocks.Pairwise fun a b => a.offset + a.size ≤ b.offset
  bounded : ∀ b ∈ s.pushBlocks, b.offset + b.size < UInt32.size
  /-- Ranges give the sizes that the members have, not a bound in their stead. -/
  ranges : List.Forall₂
    (fun b range => range.stages = b.stages ∧ range.offset = b.offset ∧ b.size? = some range.size)
    s.pushBlocks s.pushRanges
  own : ∀ call ∈ folded, (s.pushBlock? call.identity.stage).map unplaced = call.pushBlock?

private theorem IsStacked.own {s : Shader} {folded : List ShaderCall} (h : IsStacked s folded)
    {call : ShaderCall} (hc : call ∈ folded) :
    (s.pushBlock? call.identity.stage).map unplaced = call.pushBlock? := by
  have single := single_of_parsesSingle (h.single call hc)
  have asked : s.pushBlock? call.identity.stage =
      s.pushBlocks.find? (·.stages == call.identity.stage) := by
    refine List.find?_congr fun b hb => ?_
    rw [Bool.eq_iff_iff, StageSet.intersects_iff_eq (h.single_of_mem hb).1 single, beq_iff_eq]
  have found : ∀ b, s.pushBlock? call.identity.stage = some b ↔
      b ∈ s.pushBlocks ∧ b.stages = call.identity.stage := fun b => by
    rw [asked]
    exact find?_eq_some_of_nodup h.stages_nodup
  cases shown : call.pushBlock? with
  | some block =>
    obtain ⟨stage, bare⟩ := stages_of_pushBlock? (h.single call hc) shown
    have brought : block ∈ (folded.filterMap (·.pushBlock?)).map unplaced :=
      List.mem_map.mpr ⟨block, List.mem_filterMap.mpr ⟨call, hc, shown⟩, bare⟩
    obtain ⟨b, hb, rfl⟩ := List.mem_map.mp (h.stack.perm.symm.subset brought)
    rw [(found b).mpr ⟨hb, stage⟩]
    rfl
  | none =>
    cases result : s.pushBlock? call.identity.stage with
    | none => rfl
    | some b =>
      obtain ⟨hb, stage⟩ := (found b).mp result
      obtain ⟨other, ho, brought, stage'⟩ := h.call_of_mem hb
      have same : other = call :=
        List.inj_on_of_nodup_map h.distinct ho hc (stage'.symm.trans stage)
      rw [same, shown] at brought
      cases brought

private theorem IsStacked.pushLayout {s : Shader} {folded : List ShaderCall} (h : IsStacked s folded) :
    PushLayout s folded := by
  have fits : Fits 0 s.pushBlocks := h.stack.fits.perm h.stack.perm.symm
  have sized : ∀ b ∈ s.pushBlocks, b.size? = some b.size := fun b hb => size?_eq_size (fits.1 b hb)
  have bare : (folded.filterMap (·.pushBlock?)).map unplaced = folded.filterMap (·.pushBlock?) := by
    refine (List.map_congr_left fun b hb => ?_).trans (List.map_id _)
    obtain ⟨call, hc, shown⟩ := List.mem_filterMap.mp hb
    exact (stages_of_pushBlock? (h.single call hc) shown).2
  have offsets : ∀ before b after, s.pushBlocks = before ++ b :: after →
      b.offset = (before.map size).sum := by
    intro before b after split
    have placed := h.stack.placed
    rw [split] at placed
    simpa using offset_of_place placed
  refine
    { blocks := bare ▸ h.stack.perm
      tagged := fun call hc b shown => (stages_of_pushBlock? (h.single call hc) shown).1
      stages := h.stages_nodup
      ordered := h.stack.ordered
      offsets := offsets
      sizes := fun b hb => ⟨sized b hb, size_eq_of_isSome (fits.1 b hb)⟩
      disjoint := h.stack.placed ▸ place_pairwise 0 s.pushBlocks
      bounded := ?_
      ranges := ?_
      own := fun call hc => h.own hc }
  · intro b hb
    obtain ⟨before, after, split⟩ := List.append_of_mem hb
    have total := fits.2
    have begins := offsets before b after split
    rw [split] at total
    simp only [List.map_append, List.map_cons, List.sum_append, List.sum_cons] at total
    omega
  · refine List.forall₂_map_right_iff.mpr (List.forall₂_same.mpr fun b hb => ?_)
    exact ⟨rfl, rfl, sized b hb⟩

/-- After binaries were parsed as single stages, in any order and with failures among them, the push-constant
blocks lie one behind the other in the order of the stages; if the stages were declared singly, the order is that
of the stage list.  Parsing one more binary adds its block and changes nothing of the others but where they
lie. -/
theorem parsed_pushBlocks_laid_out (name : String) (stages : List StageSet)
    (history : List ShaderCall) (parses : ∀ call ∈ history, call.ParsesSingle) :
    let start := new name stages
    let s := (start.runInPlace history).2
    PushLayout s (start.acceptedInPlace history) ∧
      ((∀ stage ∈ stages, stage.isSingle = true) →
        s.pushBlocks.Pairwise fun a b => s.stages.idxOf a.stages < s.stages.idxOf b.stages) ∧
        ∀ (call : ShaderCall) s', call.ParsesSingle → call.on s = .ok s' →
          (s'.pushBlocks.map unplaced).Perm
            (s.pushBlocks.map unplaced ++ call.pushBlock?.toList) := by
  intro start s
  have known : IsStacked s (start.acceptedInPlace history) ∧
      ((∀ stage ∈ stages, stage.isSingle = true) → ∀ stage ∈ s.stages, stage.isSingle = true) := by
    refine runInPlace_induction (P := fun s folded => IsStacked s folded ∧
        ((∀ stage ∈ stages, stage.isSingle = true) → ∀ stage ∈ s.stages, stage.isSingle = true))
      ⟨isStacked_new name stages, id⟩ ?_
    rintro call hc s s' folded ⟨stacked, single⟩ done
    obtain ⟨stacked', _, more, extension, added⟩ := stacked.on (parses call hc) done
    refine ⟨stacked', fun declared stage hs => ?_⟩
    rw [extension] at hs
    rcases List.mem_append.mp hs with hs | hs
    · exact single declared stage hs
    · exact added stage hs ▸ single_of_parsesSingle (parses call hc)
  obtain ⟨stacked, single⟩ := known
  refine ⟨stacked.pushLayout, fun declared => ?_, fun call s' once done => (stacked.on once done).2.1⟩
  have distinct : s.pushBlocks.Pairwise fun a b => a.stages ≠ b.stages :=
    List.pairwise_map.mp stacked.stages_nodup
  refine (stacked.stack.ordered.and distinct).imp_of_mem ?_
  rintro a b ha hb ⟨le, ne⟩
  obtain ⟨one, listed⟩ := stacked.single_of_mem ha
  rw [rank_eq_idxOf (single declared) one,
    rank_eq_idxOf (single declared) (stacked.single_of_mem hb).1] at le
  have apart : s.stages.idxOf a.stages ≠ s.stages.idxOf b.stages :=
    fun same => ne (List.idxOf_inj listed |>.mp same)
  omega

/-- A module with a block `tint` of four bytes of push constants. -/
def tintWords : List UInt32 :=
  [0x07230203, 0x00010000, 0, 5, 0,
    0x00040005, 4, 0x746e6974, 0,
    0x00050048, 2, 0, 35, 0,
    0x00030016, 1, 32,
    0x0003001e, 2, 1,
    0x00040020, 3, 9, 2,
    0x0004003b, 3, 4, 9]

/-- Parses the tinted module as a stage of a shader. -/
def tintCall (stage : Stage) : ShaderCall :=
  .parse (StageReflection.lightContext 2) ⟨0, .of stage⟩ tintWords

private theorem tintCalls_ranges :
    ((new "tint" [.of .vertex, .of .fragment]).runInPlace
      [tintCall .fragment, tintCall .vertex, tintCall .fragment]).2.pushRanges =
        [⟨.of .vertex, 0, 4⟩, ⟨.of .fragment, 4, 4⟩] := by
  cbv

theorem parsed_pushBlocks_laid_out_of_tintWords :
    let history := [tintCall .fragment, tintCall .vertex, tintCall .fragment]
    let start := new "tint" [.of .vertex, .of .fragment]
    let s := (start.runInPlace history).2
    (∀ call ∈ history, call.ParsesSingle) ∧ PushLayout s (start.acceptedInPlace history) ∧
      s.pushRanges = [⟨.of .vertex, 0, 4⟩, ⟨.of .fragment, 4, 4⟩] := by
  intro history start s
  have parses : ∀ call ∈ history, call.ParsesSingle := by
    intro call hc
    obtain ⟨stage, rfl⟩ : ∃ stage, call = tintCall stage := by
      simp only [history, List.mem_cons, List.not_mem_nil, or_false] at hc
      rcases hc with rfl | rfl | rfl <;> exact ⟨_, rfl⟩
    have single : (StageSet.of stage).isSingle = true := by cases stage <;> decide
    exact single
  obtain ⟨laid, _, _⟩ :=
    parsed_pushBlocks_laid_out "tint" [.of .vertex, .of .fragment] history parses
  exact ⟨parses, laid, tintCalls_ranges⟩

end Shader

end ShaderPipeline
