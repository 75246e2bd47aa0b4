import Mathlib.Data.List.Induction
import ShaderPipeline.Proofs.Shader.Collation
import ShaderPipeline.Proofs.Shader.Constants
import ShaderPipeline.Proofs.Stage

/-!
The order in which stages are folded into a shader.

For stages that are declared and folded in once each, the tables are those of the whole family: the merges of its
usages, the stack of its push-constant blocks, its attributes, and the numbers of its constants.  Main statement:
no order of a family can be folded in unless all can, and all of them make the same tables.
-/

set_option autoImplicit false
set_option relaxedAutoImplicit false

namespace ShaderPipeline

/-- Single stages that are declared once each. -/
structure DeclaredStages (stages : List StageSet) : Prop where
  single : ∀ stage ∈ stages, stage.isSingle = true
  distinct : stages.Nodup

/-- Calls about declared stages, at most one for each, whose usages do not share slots and whose push-constant
blocks belong to their stages. -/
structure StageFamily (stages : List StageSet) (family : List StageCall) : Prop where
  declared : ∀ call ∈ family, call.1.stage ∈ stages
  distinct : (family.map (·.1.stage)).Nodup
  slots : ∀ call ∈ family, (call.2.usages.map Usage.slot).Nodup
  tagged : ∀ call ∈ family, ∀ block, call.2.pushConstant = some block →
    block.stages = call.1.stage

namespace StageFamily

variable {stages : List StageSet} {family family' : List StageCall}

theorem perm (h : StageFamily stages family) (order : family.Perm family') :
    StageFamily stages family' where
  declared call hc := h.declared call (order.symm.subset hc)
  distinct := (order.map _).nodup_iff.mp h.distinct
  slots call hc := h.slots call (order.symm.subset hc)
  tagged call hc := h.tagged call (order.symm.subset hc)

theorem sublist (h : StageFamily stages family) (part : family'.Sublist family) :
    StageFamily stages family' where
  declared call hc := h.declared call (part.subset hc)
  distinct := h.distinct.sublist (part.map _)
  slots call hc := h.slots call (part.subset hc)
  tagged call hc := h.tagged call (part.subset hc)

end StageFamily

namespace Shader

def blocksOf (calls : List StageCall) : List PushBlock :=
  calls.filterMap (·.2.pushConstant)

def constantsOf (calls : List StageCall) : List SpecConstant :=
  calls.flatMap (·.2.constants)

/-- Whether the usages of some calls agree in kind and their push-constant blocks fit. -/
structure Compatible (calls : List StageCall) : Prop where
  kinds : ∀ u ∈ usagesOf calls, ∀ v ∈ usagesOf calls, u.slot = v.slot → u.kind = v.kind
  fits : PushBlock.Fits 0 (blocksOf calls)

/-- The tables are those of some calls together. -/
structure IsFold (stages : List StageSet) (calls : List StageCall) (s : Shader) : Prop where
  stages_eq : s.stages = stages
  parsed_eq : s.parsed = calls.map (·.1)
  sets : Usage.Tabulates s.setTable (usagesOf calls)
  pushBlocks : PushBlock.IsStack stages s.pushBlocks (blocksOf calls)
  inputs_eq : s.inputTable = calls.map fun call => (call.1.stage, call.2.inputs)
  outputs_eq : s.outputTable = calls.map fun call => (call.1.stage, call.2.outputs)
  constants_ordered : SpecConstant.Ordered s.constants
  constants_iff : ∀ id, (∃ c ∈ s.constants, c.id = id) ↔ ∃ c ∈ constantsOf calls, c.id = id

private theorem isFold_new (name : String) (stages : List StageSet) : IsFold stages [] (new name stages) where
  stages_eq := rfl
  parsed_eq := rfl
  sets := Usage.tabulates_nil
  pushBlocks := PushBlock.isStack_nil stages
  inputs_eq := rfl
  outputs_eq := rfl
  constants_ordered := .nil
  constants_iff := by simp [new, constantsOf]

variable {stages : List StageSet} {calls : List StageCall} {call : StageCall} {s s' : Shader}

theorem IsFold.kinds (h : IsFold stages calls s) :
    ∀ u ∈ usagesOf calls, ∀ v ∈ usagesOf calls, u.slot = v.slot → u.kind = v.kind := by
  intro u hu v hv same
  obtain ⟨w, hw⟩ := h.sets.covered u hu
  have merged := (h.sets.merged u.slot w hw).kind_eq
  rw [merged u (Usage.mem_atSlot.mpr ⟨hu, rfl⟩), merged v (Usage.mem_atSlot.mpr ⟨hv, same.symm⟩)]

private theorem IsFold.compatible (h : IsFold stages calls s) : Compatible calls :=
  ⟨h.kinds, h.pushBlocks.fits⟩

private theorem blocksOf_concat (calls : List StageCall) (call : StageCall) :
    blocksOf (calls ++ [call]) = blocksOf calls ++ call.2.pushConstant.toList := by
  cases block : call.2.pushConstant <;> simp [blocksOf, block]

private theorem constantsOf_concat (calls : List StageCall) (call : StageCall) :
    constantsOf (calls ++ [call]) = constantsOf calls ++ call.2.constants := by
  simp [constantsOf]

private theorem fresh_of_family (family : StageFamily stages (calls ++ [call])) :
    ∀ c ∈ calls, c.1.stage ≠ call.1.stage := by
  intro c hc
  have distinct := family.distinct
  rw [List.map_append, List.nodup_append] at distinct
  exact distinct.2.2 _ (List.mem_map_of_mem hc) _ (by simp)

private theorem stagesWith_of_family (h : IsFold stages calls s)
    (family : StageFamily stages (calls ++ [call])) : s.stagesWith call.1.stage = stages := by
  have declared := family.declared call (by simp)
  simp [stagesWith, h.stages_eq, declared]

private theorem setAttributes_of_fresh (attributes : StageReflection → List Attribute)
    (fresh : ∀ c ∈ calls, c.1.stage ≠ call.1.stage) :
    setAttributes (calls.map fun c => (c.1.stage, attributes c.2)) call.1.stage
        (attributes call.2) =
      (calls ++ [call]).map fun c => (c.1.stage, attributes c.2) := by
  have kept : (calls.map fun c => (c.1.stage, attributes c.2)).filter (·.1 != call.1.stage) =
      calls.map fun c => (c.1.stage, attributes c.2) := by
    refine List.filter_eq_self.mpr fun entry he => ?_
    obtain ⟨c, hc, rfl⟩ := List.mem_map.mp he
    simpa using fresh c hc
  rw [setAttributes, kept, List.map_append, List.map_singleton]

private theorem stacked_unplaced (h : IsFold stages calls s) (more : List PushBlock) :
    ((s.pushBlocks ++ more).map PushBlock.unplaced).Perm
      ((blocksOf calls ++ more).map PushBlock.unplaced) := by
  simpa using h.pushBlocks.perm.append_right (more.map PushBlock.unplaced)

private theorem pushBlocksWith_isOk_iff (h : IsFold stages calls s)
    (family : StageFamily stages (calls ++ [call])) :
    (∃ table, s.pushBlocksWith call.1.stage call.2.pushConstant = .ok table) ↔
      PushBlock.Fits 0 (blocksOf (calls ++ [call])) := by
  rw [blocksOf_concat]
  cases block : call.2.pushConstant with
  | none => simpa [pushBlocksWith] using h.pushBlocks.fits
  | some b =>
    simp only [pushBlocksWith, stagesWith_of_family h family, PushBlock.stack_isOk_iff,
      Option.toList_some]
    exact ⟨fun fits => fits.perm (stacked_unplaced h [b]),
      fun fits => fits.perm (stacked_unplaced h [b]).symm⟩

private theorem isStack_of_pushBlocksWith (h : IsFold stages calls s)
    (family : StageFamily stages (calls ++ [call])) {table : List PushBlock}
    (done : s.pushBlocksWith call.1.stage call.2.pushConstant = .ok table) :
    PushBlock.IsStack stages table (blocksOf (calls ++ [call])) := by
  rw [blocksOf_concat]
  cases block : call.2.pushConstant with
  | none =>
    rw [block] at done
    obtain rfl : s.pushBlocks = table := Except.ok.inj done
    simpa using h.pushBlocks
  | some b =>
    simp only [block, pushBlocksWith, stagesWith_of_family h family] at done
    exact (PushBlock.isStack_of_stack done).of_unplaced (stacked_unplaced h [b])

theorem IsFold.collate (h : IsFold stages calls s) (family : StageFamily stages (calls ++ [call]))
    (done : s.collate call.1 call.2 = .ok s') : IsFold stages (calls ++ [call]) s' := by
  have fresh := fresh_of_family family
  have sets : Usage.Tabulates s'.setTable (usagesOf (calls ++ [call])) := by
    rw [usagesOf_concat]
    exact tabulates_of_collate h.sets (family.slots call (by simp)) done
  obtain ⟨_, _, pushBlocks, stacked, rfl⟩ := collate_eq_ok.mp done
  obtain ⟨ordered, ids⟩ := SpecConstant.insertAll_spec h.constants_ordered call.2.constants
  exact
    { stages_eq := stagesWith_of_family h family
      parsed_eq := by simp [extended, h.parsed_eq]
      sets
      pushBlocks := isStack_of_pushBlocksWith h family stacked
      inputs_eq := by
        rw [extended, h.inputs_eq]
        exact setAttributes_of_fresh (·.inputs) fresh
      outputs_eq := by
        rw [extended, h.outputs_eq]
        exact setAttributes_of_fresh (·.outputs) fresh
      constants_ordered := ordered
      constants_iff := fun id => by
        rw [constantsOf_concat]
        refine (ids id).trans ?_
        simp only [List.mem_append, or_and_right, exists_or, h.constants_iff] }

theorem IsFold.collate_isOk_iff (h : IsFold stages calls s)
    (family : StageFamily stages (calls ++ [call])) :
    (∃ s', s.collate call.1 call.2 = .ok s') ↔ Compatible (calls ++ [call]) := by
  constructor
  · rintro ⟨s', done⟩
    exact (h.collate family done).compatible
  · rintro ⟨kinds, fits⟩
    obtain ⟨table, stacked⟩ := (pushBlocksWith_isOk_iff h family).mpr fits
    refine ⟨s.extended call table, collate_eq_ok.mpr ⟨?_, ?_, table, stacked, rfl⟩⟩
    · intro j hj
      rw [h.parsed_eq] at hj
      obtain ⟨c, hc, rfl⟩ := List.mem_map.mp hj
      exact fresh_of_family family c hc
    · intro u hu known found
      obtain ⟨v, hv, same⟩ := (h.sets.exists_usageAt?_iff u.slot).mp ⟨known, found⟩
      have agreed : v.kind = known.kind :=
        (h.sets.merged u.slot known found).kind_eq v (Usage.mem_atSlot.mpr ⟨hv, same⟩)
      rw [usagesOf_concat] at kinds
      rw [← agreed]
      exact kinds v (List.mem_append_left _ hv) u (List.mem_append_right _ hu) same

private theorem collateAll_concat (s : Shader) (calls : List StageCall) (call : StageCall) :
    s.collateAll (calls ++ [call]) =
      (s.collateAll calls).bind fun s => s.collate call.1 call.2 := by
  simp only [collateAll, List.foldlM_append, List.foldlM_cons, List.foldlM_nil, bind_pure]
  rfl

private theorem Compatible.of_concat (h : Compatible (calls ++ [call])) : Compatible calls := by
  obtain ⟨kinds, fits⟩ := h
  rw [usagesOf_concat] at kinds
  rw [blocksOf_concat] at fits
  exact ⟨fun u hu v hv => kinds u (List.mem_append_left _ hu) v (List.mem_append_left _ hv),
    fits.of_append⟩

private theorem Compatible.perm {calls calls' : List StageCall} (h : Compatible calls)
    (order : calls.Perm calls') : Compatible calls' := by
  have usages : (usagesOf calls).Perm (usagesOf calls') := order.flatMap_right _
  have blocks : (blocksOf calls).Perm (blocksOf calls') := order.filterMap _
  exact ⟨fun u hu v hv => h.kinds u (usages.symm.subset hu) v (usages.symm.subset hv),
    h.fits.perm (blocks.map _)⟩

/-- A family can be folded in exactly when its stages are compatible, and the tables are then those of all of
them together. -/
private theorem collateAll_family (name : String) {family : List StageCall}
    (h : StageFamily stages family) :
    ((∃ s, (new name stages).collateAll family = .ok s) ↔ Compatible family) ∧
      ∀ s, (new name stages).collateAll family = .ok s → IsFold stages family s := by
  induction family using List.reverseRecOn with
  | nil =>
    have start := isFold_new name stages
    exact ⟨⟨fun _ => start.compatible, fun _ => ⟨_, rfl⟩⟩, fun s done => Except.ok.inj done ▸ start⟩
  | append_singleton calls call ih =>
    obtain ⟨isOk_iff, isFold⟩ := ih (h.sublist (List.sublist_append_left calls [call]))
    rw [collateAll_concat]
    cases before : (new name stages).collateAll calls with
    | error e =>
      have incompatible : ¬ Compatible calls := by
        rw [← isOk_iff, before]
        simp
      exact ⟨⟨by simp [Except.bind], fun all => absurd all.of_concat incompatible⟩,
        by simp [Except.bind]⟩
    | ok s =>
      have fold := isFold s before
      exact ⟨fold.collate_isOk_iff h, fun s' done => fold.collate h done⟩

/-- What two shaders that were folded from the same stages have in common: everything but the values of their
constants and the order in which stages came. -/
structure SameTables (s s' : Shader) : Prop where
  sets : s.sets = s'.sets
  pushBlocks : s.pushBlocks = s'.pushBlocks
  inputs : ∀ stage, s.inputs stage = s'.inputs stage
  outputs : ∀ stage, s.outputs stage = s'.outputs stage
  inputTable : s.inputTable.Perm s'.inputTable
  outputTable : s.outputTable.Perm s'.outputTable
  stages : s.stages = s'.stages
  parsed : ∀ i, s.isParsed i = s'.isParsed i
  constantIds : s.constants.map (·.id) = s'.constants.map (·.id)

private theorem getElem_rank (declared : DeclaredStages stages) {b : PushBlock} (hb : b.stages ∈ stages) :
    ∃ bound : b.rank stages < stages.length, stages[b.rank stages] = b.stages := by
  have self : b.stages.intersects b.stages = true :=
    (StageSet.intersects_iff_eq (declared.single _ hb) (declared.single _ hb)).mpr rfl
  have bound : b.rank stages < stages.length := List.findIdx_lt_length_of_exists ⟨_, hb, self⟩
  have shared : b.stages.intersects stages[b.rank stages] = true :=
    List.findIdx_getElem (w := bound)
  exact ⟨bound, ((StageSet.intersects_iff_eq (declared.single _ hb)
    (declared.single _ (List.getElem_mem bound))).mp shared).symm⟩

private theorem stages_eq_of_rank_eq (declared : DeclaredStages stages) {a b : PushBlock}
    (ha : a.stages ∈ stages) (hb : b.stages ∈ stages) (same : a.rank stages = b.rank stages) :
    a.stages = b.stages := by
  obtain ⟨_, at_a⟩ := getElem_rank declared ha
  obtain ⟨_, at_b⟩ := getElem_rank declared hb
  rw [← at_a, ← at_b]
  simp only [same]

private theorem nodup_ranks (declared : DeclaredStages stages) {family : List StageCall}
    (h : StageFamily stages family) : ((blocksOf family).map (PushBlock.rank stages)).Nodup := by
  have distinct : family.Pairwise fun c c' => c.1.stage ≠ c'.1.stage :=
    List.pairwise_map.mp h.distinct
  refine List.pairwise_map.mpr (List.pairwise_filterMap.mpr (distinct.imp_of_mem ?_))
  intro c c' hc hc' different b hb b' hb' same
  have at_b := h.tagged c hc b hb
  have at_b' := h.tagged c' hc' b' hb'
  refine different ?_
  rw [← at_b, ← at_b']
  exact stages_eq_of_rank_eq declared (at_b ▸ h.declared c hc) (at_b' ▸ h.declared c' hc') same

private theorem attributesOf_perm {table table' : AttributeTable} (perm : table.Perm table')
    (distinct : (table.map (·.1)).Nodup) (stage : StageSet) :
    attributesOf table stage = attributesOf table' stage := by
  simp only [attributesOf, find?_perm perm distinct]

private theorem constantIds_eq {family family' : List StageCall} {s s' : Shader}
    (h : IsFold stages family s) (h' : IsFold stages family' s') (order : family.Perm family') :
    s.constants.map (·.id) = s'.constants.map (·.id) := by
  have rising : (s.constants.map (·.id)).Pairwise (· < ·) :=
    List.pairwise_map.mpr h.constants_ordered
  have rising' : (s'.constants.map (·.id)).Pairwise (· < ·) :=
    List.pairwise_map.mpr h'.constants_ordered
  have ids : ∀ id, id ∈ s.constants.map (·.id) ↔ id ∈ s'.constants.map (·.id) := by
    intro id
    simp only [List.mem_map, h.constants_iff, h'.constants_iff, (order.flatMap_right _).mem_iff,
      constantsOf]
  have perm : (s.constants.map (·.id)).Perm (s'.constants.map (·.id)) :=
    (List.perm_ext_iff_of_nodup (rising.imp Nat.ne_of_lt) (rising'.imp Nat.ne_of_lt)).mpr ids
  exact perm.eq_of_pairwise (fun a b _ _ ab ba => absurd (Nat.lt_trans ab ba) (Nat.lt_irrefl a))
    rising rising'

private theorem IsFold.sameTables (declared : DeclaredStages stages) {family family' : List StageCall}
    {s s' : Shader} (valid : StageFamily stages family) (h : IsFold stages family s)
    (h' : IsFold stages family' s') (order : family.Perm family') : SameTables s s' := by
  have table : s.setTable = s'.setTable := h.sets.unique h'.sets (order.flatMap_right _)
  have inputs : s.inputTable.Perm s'.inputTable := by
    rw [h.inputs_eq, h'.inputs_eq]
    exact order.map _
  have outputs : s.outputTable.Perm s'.outputTable := by
    rw [h.outputs_eq, h'.outputs_eq]
    exact order.map _
  exact
    { sets := congrArg (List.map Prod.snd) table
      pushBlocks := h.pushBlocks.unique h'.pushBlocks (order.filterMap _) (nodup_ranks declared valid)
      inputs := attributesOf_perm inputs (by simpa [h.inputs_eq, Function.comp_def] using valid.distinct)
      outputs :=
        attributesOf_perm outputs (by simpa [h.outputs_eq, Function.comp_def] using valid.distinct)
      inputTable := inputs
      outputTable := outputs
      stages := h.stages_eq.trans h'.stages_eq.symm
      parsed := fun i => by
        simp only [isParsed, h.parsed_eq, h'.parsed_eq]
        exact (order.map _).contains_eq
      constantIds := constantIds_eq h h' order }

/-- If a family of stages can be folded in, it can be in any order, and all orders make the same tables. -/
theorem collation_order_irrelevant (name : String) (stages : List StageSet)
    (family family' : List StageCall) (declared : DeclaredStages stages)
    (valid : StageFamily stages family) (order : family.Perm family') :
    ((∃ s, (new name stages).collateAll family = .ok s) ↔
        ∃ s, (new name stages).collateAll family' = .ok s) ∧
      ∀ s s', (new name stages).collateAll family = .ok s →
        (new name stages).collateAll family' = .ok s' → SameTables s s' := by
  obtain ⟨isOk_iff, isFold⟩ := collateAll_family name valid
  obtain ⟨isOk_iff', isFold'⟩ := collateAll_family name (valid.perm order)
  refine ⟨?_, fun s s' done done' => (isFold s done).sameTables declared valid (isFold' s' done') order⟩
  rw [isOk_iff, isOk_iff']
  exact ⟨fun h => h.perm order, fun h => h.perm order.symm⟩

/-- A call about a stage that uses the light buffer, has sixteen bytes of push constants, and sets a constant. -/
def pushCall (stage : Stage) (access : Access) (constant : Bool) : StageCall :=
  (⟨0, .of stage⟩,
    { stage := .of stage
      usages := [lightUsage stage access .storageBuffer]
      pushConstant := some ⟨.of stage, stage.shortName, [⟨"color", 16, 0⟩], 0⟩
      inputs := [⟨"position", 0, 0, .r32G32B32Sfloat⟩]
      outputs := []
      constants := [⟨3, "lit", .bool constant⟩] })

theorem collation_order_irrelevant_of_pushCalls :
    let stages := [StageSet.of .vertex, .of .geometry, .of .fragment]
    let family := [pushCall .fragment .write true, pushCall .vertex .read false]
    DeclaredStages stages ∧ StageFamily stages family ∧
      ∃ s s', (new "lit" stages).collateAll family = .ok s ∧
        (new "lit" stages).collateAll family.reverse = .ok s' ∧ SameTables s s' := by
  intro stages family
  have declared : DeclaredStages stages := ⟨by decide, by decide⟩
  have valid : StageFamily stages family := by
    refine ⟨by decide, by decide, by decide, ?_⟩
    simp [family, pushCall]
  have compatible : Compatible family := by
    refine ⟨by decide, ?_⟩
    simp only [PushBlock.Fits]
    decide
  obtain ⟨s, done⟩ := (collateAll_family "lit" valid).1.mpr compatible
  obtain ⟨isOk_iff, same⟩ := collation_order_irrelevant "lit" stages family family.reverse declared
    valid (List.reverse_perm family).symm
  obtain ⟨s', done'⟩ := isOk_iff.mp ⟨s, done⟩
  exact ⟨declared, valid, s, s', done, done', same s s' done done'⟩

end Shader

end ShaderPipeline
