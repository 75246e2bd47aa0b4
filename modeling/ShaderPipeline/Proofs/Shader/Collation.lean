import ShaderPipeline.Proofs.Distinct
import ShaderPipeline.Proofs.Outcome
import ShaderPipeline.Proofs.Shader.Merge
import ShaderPipeline.Proofs.Shader.PushBlocks

/-!
What folding stages into a shader does to its tables.

A stage is folded in when its place is free, its usages agree in kind with those that are there, and its
push-constant block fits behind the others.  Main statement: after any sequence of calls, failing ones included,
the descriptor tables hold at each slot the merge of the usages there that the successful calls folded in, and
nothing else.
-/

set_option autoImplicit false
set_option relaxedAutoImplicit false

namespace ShaderPipeline

open Std

/-- What one call folds in: an identity, and what was found out about its stage. -/
abbrev StageCall := Identity × StageReflection

namespace Shader

/-- The tables with a stage folded in, given its push-constant blocks. -/
def extended (s : Shader) (call : StageCall) (pushBlocks : List PushBlock) : Shader :=
  { s with
    stages := s.stagesWith call.1.stage
    parsed := s.parsed ++ [call.1]
    setTable := call.2.usages.foldl .enter s.setTable
    pushBlocks
    inputTable := setAttributes s.inputTable call.1.stage call.2.inputs
    outputTable := setAttributes s.outputTable call.1.stage call.2.outputs
    constants := call.2.constants.foldl (fun cs c => c.insert cs) s.constants }

theorem checkUnparsed_eq_ok {s : Shader} {i : Identity} :
    s.checkUnparsed i = .ok () ↔ ∀ j ∈ s.parsed, j.stage ≠ i.stage := by
  simp [checkUnparsed]

theorem checkKinds_eq_ok {s : Shader} {us : List Usage} :
    s.checkKinds us = .ok () ↔
      ∀ u ∈ us, ∀ known, s.usageAt? u.slot = some known → known.kind = u.kind := by
  induction us with
  | nil => simp [checkKinds]
  | cons u rest ih =>
    cases found : s.usageAt? u.slot with
    | none => simp [checkKinds, found, ih]
    | some known =>
      by_cases same : known.kind = u.kind
      · simp [checkKinds, found, same, ih]
      · simp [checkKinds, found, same]

theorem collate_eq_ok {s s' : Shader} {call : StageCall} :
    s.collate call.1 call.2 = .ok s' ↔
      (∀ j ∈ s.parsed, j.stage ≠ call.1.stage) ∧
        (∀ u ∈ call.2.usages, ∀ known, s.usageAt? u.slot = some known → known.kind = u.kind) ∧
          ∃ pushBlocks, s.pushBlocksWith call.1.stage call.2.pushConstant = .ok pushBlocks ∧
            s' = s.extended call pushBlocks := by
  rw [← checkUnparsed_eq_ok, ← checkKinds_eq_ok]
  simp only [collate, bind, Except.bind]
  cases s.checkUnparsed call.1 with
  | error e => simp
  | ok =>
    cases s.checkKinds call.2.usages with
    | error e => simp
    | ok =>
      cases s.pushBlocksWith call.1.stage call.2.pushConstant with
      | error e => simp
      | ok pushBlocks => simp [extended, pure, Except.pure, eq_comm]

theorem checkUnparsed_eq_error {s : Shader} {i : Identity} {e : CollateError} :
    s.checkUnparsed i = .error e ↔ (∃ j ∈ s.parsed, j.stage = i.stage) ∧ e = .alreadyParsed i := by
  rw [checkUnparsed]
  split
  · rename_i taken
    have again : ∃ j ∈ s.parsed, j.stage = i.stage := by simpa using taken
    rw [and_iff_right again, Except.error.injEq, eq_comm]
  · rename_i free
    have fresh : ¬ ∃ j ∈ s.parsed, j.stage = i.stage := by simpa using free
    simp [fresh]

private theorem checkKinds_append (s : Shader) (us vs : List Usage) :
    s.checkKinds (us ++ vs) = s.checkKinds us >>= fun _ => s.checkKinds vs := by
  induction us with
  | nil => rfl
  | cons u us ih =>
    simp only [List.cons_append, checkKinds, ih]
    split
    · split <;> rfl
    · rfl

theorem checkKinds_singleton_eq_error {s : Shader} {u : Usage} {e : CollateError} :
    s.checkKinds [u] = .error e ↔ ∃ known, s.usageAt? u.slot = some known ∧
      known.kind ≠ u.kind ∧ e = .kindConflict u.set u.binding known.kind u.kind := by
  cases found : s.usageAt? u.slot with
  | none => simp [checkKinds, found]
  | some known =>
    by_cases same : known.kind = u.kind
    · simp [checkKinds, found, same]
    · simp only [checkKinds, found, same, if_false, Except.error.injEq, Option.some.injEq]
      constructor
      · rintro rfl
        exact ⟨known, rfl, same, rfl⟩
      · rintro ⟨_, rfl, _, rfl⟩
        rfl

theorem checkKinds_eq_error {s : Shader} {us : List Usage} {e : CollateError} :
    s.checkKinds us = .error e ↔
      ∃ earlier u later, us = earlier ++ u :: later ∧ s.checkKinds earlier = .ok () ∧
        s.checkKinds [u] = .error e := by
  constructor
  · intro failed
    induction us with
    | nil => cases failed
    | cons u rest ih =>
      cases first : s.checkKinds [u] with
      | error e' =>
        rw [← List.singleton_append, checkKinds_append, first] at failed
        obtain rfl := Except.error.inj failed
        exact ⟨[], u, rest, rfl, rfl, first⟩
      | ok =>
        rw [← List.singleton_append, checkKinds_append, first] at failed
        obtain ⟨earlier, v, later, rfl, passed, refused⟩ := ih failed
        refine ⟨u :: earlier, v, later, rfl, ?_, refused⟩
        rw [← List.singleton_append, checkKinds_append, first]
        exact passed
  · rintro ⟨earlier, u, later, rfl, passed, refused⟩
    rw [checkKinds_append, passed, ← List.singleton_append, checkKinds_append, refused]
    rfl

theorem collate_eq_error {s : Shader} {call : StageCall} {e : CollateError} :
    s.collate call.1 call.2 = .error e ↔
      s.checkUnparsed call.1 = .error e ∨
        s.checkUnparsed call.1 = .ok () ∧
          (s.checkKinds call.2.usages = .error e ∨
            s.checkKinds call.2.usages = .ok () ∧
              s.pushBlocksWith call.1.stage call.2.pushConstant = .error e) := by
  simp only [collate, bind, Except.bind]
  cases s.checkUnparsed call.1 with
  | error e' => simp
  | ok =>
    cases s.checkKinds call.2.usages with
    | error e' => simp
    | ok => cases s.pushBlocksWith call.1.stage call.2.pushConstant <;> simp [pure, Except.pure]

theorem exists_of_pushBlocksWith_eq_error {s : Shader} {stage : StageSet} {block : Option PushBlock}
    {e : CollateError} (failed : s.pushBlocksWith stage block = .error e) :
    ∃ name, e = .pushOverflow name := by
  cases block with
  | none => cases failed
  | some block =>
    obtain ⟨b, _, named⟩ := PushBlock.exists_of_placeFrom_eq_error failed
    exact ⟨b.name, named⟩

/-- What is folded in one call after another, if no call fails. -/
def collateAll (s : Shader) (calls : List StageCall) : Except CollateError Shader :=
  calls.foldlM (fun s call => s.collate call.1 call.2) s

/-- The tables after a call; a call that fails leaves them. -/
def attempt (s : Shader) (call : StageCall) : Shader :=
  match s.collate call.1 call.2 with
  | .ok s' => s'
  | .error _ => s

def attemptAll (s : Shader) (calls : List StageCall) : Shader :=
  calls.foldl attempt s

def accepted (s : Shader) : List StageCall → List StageCall
  | [] => []
  | call :: rest =>
      match s.collate call.1 call.2 with
      | .ok s' => call :: accepted s' rest
      | .error _ => accepted s rest

def usagesOf (calls : List StageCall) : List Usage :=
  calls.flatMap (·.2.usages)

/-- The usage that the tables have under a set and, in it, under a binding. -/
def Holds (s : Shader) (set binding : Nat) (u : Usage) : Prop :=
  ∃ d ∈ s.sets, d.set = set ∧ u ∈ d.usages ∧ u.binding = binding

instance (s : Shader) (set binding : Nat) (u : Usage) : Decidable (s.Holds set binding u) :=
  inferInstanceAs (Decidable (∃ d ∈ s.sets, d.set = set ∧ u ∈ d.usages ∧ u.binding = binding))

theorem usagesOf_concat (calls : List StageCall) (call : StageCall) :
    usagesOf (calls ++ [call]) = usagesOf calls ++ call.2.usages := by
  simp [usagesOf]

theorem collateAll_induction {P : Shader → List StageCall → Prop} {s s' : Shader}
    {folded calls : List StageCall} (start : P s folded)
    (step : ∀ call ∈ calls, ∀ s s' folded, P s folded → s.collate call.1 call.2 = .ok s' →
      P s' (folded ++ [call]))
    (done : s.collateAll calls = .ok s') : P s' (folded ++ calls) := by
  induction calls generalizing s folded with
  | nil =>
    obtain rfl := Except.ok.inj done
    simpa using start
  | cons call rest ih =>
    obtain ⟨first, step⟩ := List.forall_mem_cons.mp step
    rw [collateAll, List.foldlM_cons, Outcome.bind_eq_ok] at done
    obtain ⟨next, folds, later⟩ := done
    rw [List.append_cons]
    exact ih (first s next folded start folds) step later

theorem collateAll_accepted (s : Shader) (calls : List StageCall) :
    s.collateAll (s.accepted calls) = .ok (s.attemptAll calls) := by
  induction calls generalizing s with
  | nil => rfl
  | cons call rest ih =>
    cases result : s.collate call.1 call.2 with
    | ok s' =>
      simp only [accepted, attemptAll, List.foldl_cons, attempt, result, collateAll,
        List.foldlM_cons]
      exact ih s'
    | error e =>
      simp only [accepted, attemptAll, List.foldl_cons, attempt, result]
      exact ih s

private theorem accepted_sublist (s : Shader) (calls : List StageCall) :
    (s.accepted calls).Sublist calls := by
  induction calls generalizing s with
  | nil => exact .slnil
  | cons call rest ih =>
    cases result : s.collate call.1 call.2 with
    | ok s' => simpa only [accepted, result] using (ih s').cons_cons call
    | error e => simpa only [accepted, result] using (ih s).cons call

end Shader

namespace Usage

theorem Tabulates.enterAll {t : SetTable} {us : List Usage} (h : Tabulates t us) {vs : List Usage}
    (distinct : (vs.map slot).Nodup)
    (kinds : ∀ v ∈ vs, ∀ known, t.usageAt? v.slot = some known → known.kind = v.kind) :
    Tabulates (vs.foldl .enter t) (us ++ vs) := by
  induction vs generalizing t us with
  | nil => simpa using h
  | cons v vs ih =>
    obtain ⟨fresh, distinct⟩ := List.nodup_cons.mp distinct
    obtain ⟨kind, kinds⟩ := List.forall_mem_cons.mp kinds
    rw [List.foldl_cons, List.append_cons]
    refine ih (h.enter kind) distinct fun w hw known found => kinds w hw known ?_
    have elsewhere : w.slot ≠ v.slot := fun same => fresh (List.mem_map.mpr ⟨w, hw, same⟩)
    rwa [h.keyed.usageAt?_enter, if_neg elsewhere] at found

end Usage

namespace Shader

open Usage

theorem tabulates_of_collate {s s' : Shader} {call : StageCall} {us : List Usage}
    (h : Tabulates s.setTable us) (distinct : (call.2.usages.map Usage.slot).Nodup)
    (done : s.collate call.1 call.2 = .ok s') :
    Tabulates s'.setTable (us ++ call.2.usages) := by
  obtain ⟨_, kinds, pushBlocks, _, rfl⟩ := collate_eq_ok.mp done
  exact h.enterAll distinct kinds

private theorem tabulates_of_collateAll {s s' : Shader} {calls : List StageCall}
    (h : Tabulates s.setTable [])
    (distinct : ∀ call ∈ calls, (call.2.usages.map Usage.slot).Nodup)
    (done : s.collateAll calls = .ok s') : Tabulates s'.setTable (usagesOf calls) := by
  have start : Tabulates s.setTable (usagesOf []) := h
  refine collateAll_induction (P := fun s folded => Tabulates s.setTable (usagesOf folded)) start ?_ done
  intro call hc s s' folded table folds
  rw [usagesOf_concat]
  exact tabulates_of_collate table (distinct call hc) folds

/-- Whether the descriptor tables have everything under its own keys, and no set is empty. -/
def Keyed (s : Shader) : Prop :=
  s.setTable.Keyed

variable {s : Shader} {d : DescriptorSet} {set binding : Nat} {u : Usage}

private theorem Keyed.mem_sets (h : s.Keyed) : d ∈ s.sets ↔ s.setTable.lookup d.set = some d := by
  rw [← h.ascends.mem_iff_lookup, sets, List.mem_map]
  constructor
  · rintro ⟨⟨set, d⟩, hd, rfl⟩
    exact (h.numbers set d hd).symm ▸ hd
  · exact fun hd => ⟨_, hd, rfl⟩

theorem Keyed.setUsages_of_mem (h : s.Keyed) (hd : d ∈ s.sets) : s.setUsages d.set = d.usages := by
  rw [setUsages, h.mem_sets.mp hd, Option.map_some, Option.getD_some]

theorem Keyed.mem_usages (h : s.Keyed) (hd : d ∈ s.sets) :
    u ∈ d.usages ∧ u.binding = binding ↔ d.bindings.lookup binding = some u := by
  have keyed := h.keyed d.set d (h.ascends.mem_iff_lookup.mpr (h.mem_sets.mp hd))
  rw [← keyed.ascends.mem_iff_lookup, DescriptorSet.usages, List.mem_map]
  constructor
  · rintro ⟨⟨⟨binding', u⟩, hu, rfl⟩, rfl⟩
    obtain ⟨_, rfl⟩ := Prod.mk.inj (keyed.slots binding' u hu)
    exact hu
  · intro hu
    exact ⟨⟨_, hu, rfl⟩, congrArg Prod.snd (keyed.slots binding u hu)⟩

theorem Keyed.holds_iff (h : s.Keyed) : s.Holds set binding u ↔ s.usageAt? (set, binding) = some u := by
  simp only [Holds, usageAt?, SetTable.usageAt?, Option.bind_eq_some_iff]
  constructor
  · rintro ⟨d, hd, rfl, hu⟩
    exact ⟨d, h.mem_sets.mp hd, (h.mem_usages hd).mp hu⟩
  · rintro ⟨d, found, hu⟩
    obtain rfl : d.set = set := h.numbers set d (h.ascends.mem_iff_lookup.mpr found)
    have hd := h.mem_sets.mpr found
    exact ⟨d, hd, rfl, (h.mem_usages hd).mpr hu⟩

theorem Keyed.setNumbers_increasing (h : s.Keyed) : s.setNumbers.Pairwise (· < ·) := by
  have keys : s.setNumbers = s.setTable.map (·.1) := by
    rw [setNumbers, sets, List.map_map]
    exact List.map_congr_left fun e he => h.numbers e.1 e.2 he
  rw [keys]
  exact List.pairwise_map.mpr h.ascends

private theorem Keyed.forall_mem_sets (h : s.Keyed) (hd : d ∈ s.sets) :
    d.usages ≠ [] ∧ (∀ u ∈ d.usages, u.set = d.set) ∧ (d.usages.map (·.binding)).Pairwise (· < ·) := by
  have member := h.ascends.mem_iff_lookup.mpr (h.mem_sets.mp hd)
  have keyed := h.keyed d.set d member
  have keys : d.usages.map (·.binding) = d.bindings.map (·.1) := by
    rw [DescriptorSet.usages, List.map_map]
    exact List.map_congr_left fun e he => congrArg Prod.snd (keyed.slots e.1 e.2 he)
  refine ⟨fun none => h.inhabited d.set d member (List.map_eq_nil_iff.mp none), fun u hu => ?_, ?_⟩
  · obtain ⟨⟨binding, u⟩, he, rfl⟩ := List.mem_map.mp hu
    exact congrArg Prod.fst (keyed.slots binding u he)
  · rw [keys]
    exact List.pairwise_map.mpr keyed.ascends

theorem Keyed.setUsages_increasing (h : s.Keyed) (set : Nat) :
    ((s.setUsages set).map (·.binding)).Pairwise (· < ·) := by
  cases found : s.setTable.lookup set with
  | none => simp [setUsages, found]
  | some d =>
    obtain rfl : d.set = set := h.numbers set d (h.ascends.mem_iff_lookup.mpr found)
    have hd := h.mem_sets.mpr found
    rw [h.setUsages_of_mem hd]
    exact (h.forall_mem_sets hd).2.2

/-- After any sequence of calls the descriptor tables hold at each slot the merge of the usages there that the
successful calls folded in, and nothing else; sets are listed once each, none of them empty, and so are the
bindings of each set. -/
theorem tables_hold_merge_of_accepted (name : String) (stages : List StageSet)
    (calls : List StageCall)
    (distinct : ∀ call ∈ calls, (call.2.usages.map Usage.slot).Nodup) :
    let start := Shader.new name stages
    let s := start.attemptAll calls
    let folded := usagesOf (start.accepted calls)
    start.collateAll (start.accepted calls) = .ok s ∧
      (∀ set binding, (∃ u, s.Holds set binding u) ↔ ∃ v ∈ folded, v.slot = (set, binding)) ∧
        (∀ set binding u, s.Holds set binding u →
          u.set = set ∧ u.binding = binding ∧ u.IsMerge (atSlot (set, binding) folded)) ∧
          (s.sets.map (·.set)).Pairwise (· < ·) ∧
            ∀ d ∈ s.sets, d.usages ≠ [] ∧ (∀ u ∈ d.usages, u.set = d.set) ∧
              (d.usages.map (·.binding)).Pairwise (· < ·) := by
  intro start s folded
  have done : start.collateAll (start.accepted calls) = .ok s := collateAll_accepted start calls
  have distinct_accepted : ∀ call ∈ start.accepted calls, (call.2.usages.map Usage.slot).Nodup :=
    fun call hc => distinct call ((accepted_sublist start calls).subset hc)
  have table : Tabulates s.setTable folded :=
    tabulates_of_collateAll tabulates_nil distinct_accepted done
  have keyed : s.Keyed := table.keyed
  refine ⟨done, ?_, ?_, keyed.setNumbers_increasing, fun d hd => keyed.forall_mem_sets hd⟩
  · intro set binding
    simp only [keyed.holds_iff]
    exact table.exists_usageAt?_iff (set, binding)
  · intro set binding u held
    have found := keyed.holds_iff.mp held
    obtain ⟨at_set, at_binding⟩ := Prod.mk.inj (table.keyed.slot_of_usageAt? found)
    exact ⟨at_set, at_binding, table.merged (set, binding) u found⟩

def lightUsage (stage : Stage) (access : Access) (kind : DescriptorKind) : Usage :=
  ⟨.of stage, stage.shortName, some ⟨"Lighting", "lights"⟩, access, kind, 2, 0, 1⟩

/-- A call about one stage that has some usages and nothing else. -/
def usageCall (stage : Stage) (usages : List Usage) : StageCall :=
  (⟨0, .of stage⟩, ⟨.of stage, usages, none, [], [], []⟩)

/-- Two stages that share a slot, a stage that conflicts with them, and a stage that comes twice. -/
def lightCalls : List StageCall :=
  [usageCall .vertex [lightUsage .vertex .read .storageBuffer],
    usageCall .geometry [lightUsage .geometry .read .uniformBuffer],
    usageCall .fragment [lightUsage .fragment .write .storageBuffer],
    usageCall .vertex []]

theorem tables_hold_merge_of_lightCalls :
    (∀ call ∈ lightCalls, (call.2.usages.map Usage.slot).Nodup) ∧
      ∃ u, ((new "lit" [.of .vertex, .of .fragment]).attemptAll lightCalls).Holds 0 2 u ∧
        u.IsMerge [lightUsage .vertex .read .storageBuffer,
          lightUsage .fragment .write .storageBuffer] := by
  have distinct : ∀ call ∈ lightCalls, (call.2.usages.map Usage.slot).Nodup := by decide
  have folded : usagesOf ((new "lit" [.of .vertex, .of .fragment]).accepted lightCalls) =
      [lightUsage .vertex .read .storageBuffer, lightUsage .fragment .write .storageBuffer] := by
    decide
  obtain ⟨_, held, merged, _⟩ :=
    tables_hold_merge_of_accepted "lit" [.of .vertex, .of .fragment] lightCalls distinct
  simp only [folded] at held merged
  obtain ⟨u, hu⟩ := (held 0 2).mpr ⟨_, List.mem_cons_self, rfl⟩
  exact ⟨distinct, u, hu, (merged 0 2 u hu).2.2⟩

end Shader

end ShaderPipeline
