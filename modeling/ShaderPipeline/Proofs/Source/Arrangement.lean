import ShaderPipeline.Proofs.Source.Blocks

/-!
Fragments in the order of their kinds.

The text of a source and the list of its fragments are made from the same pieces in two ways: for the text each piece is put
behind those that it may follow, and for the list the pieces of each kind are taken together.  Both keep the pieces of a kind
in order, and only one arrangement does that.  Main statement: the text is that of the fragments listed.
-/

set_option autoImplicit false
set_option relaxedAutoImplicit false

namespace ShaderPipeline

namespace FragmentKind

private theorem eq_of_rank_eq {a b : FragmentKind} (same : a.rank = b.rank) : a = b := by
  revert same
  cases a <;> cases b <;> decide

private theorem pairwise_ordered : ordered.Pairwise fun a b => a.rank < b.rank := by
  decide

end FragmentKind

namespace Fragment

section Arranged

variable {fragments others : List Fragment}

/-- Whether fragments are in the order of their kinds. -/
def Arranged (fragments : List Fragment) : Prop :=
  fragments.Pairwise fun f g => f.kind.rank ≤ g.kind.rank

theorem kind_of_mem_filter {kind : FragmentKind} {f : Fragment} (hf : f ∈ fragments.filter (·.kind == kind)) :
    f.kind = kind :=
  beq_iff_eq.mp (List.mem_filter.mp hf).2

private theorem arranged_filter (fragments : List Fragment) (kind : FragmentKind) :
    Arranged (fragments.filter (·.kind == kind)) := by
  refine List.pairwise_iff_getElem.mpr fun i j hi hj _ => ?_
  rw [kind_of_mem_filter (List.getElem_mem hi), kind_of_mem_filter (List.getElem_mem hj)]

theorem arranged_arrange (fragments : List Fragment) : Arranged (arrange fragments) := by
  refine List.pairwise_flatMap.mpr ⟨fun kind _ => arranged_filter fragments kind, ?_⟩
  refine FragmentKind.pairwise_ordered.imp fun {a b} before f hf g hg => ?_
  rw [kind_of_mem_filter hf, kind_of_mem_filter hg]
  exact Nat.le_of_lt before

private theorem mem_of_filter_eq (same : ∀ kind, fragments.filter (·.kind == kind) = others.filter (·.kind == kind))
    {f : Fragment} (hf : f ∈ fragments) : f ∈ others := by
  have own : f ∈ fragments.filter (·.kind == f.kind) := List.mem_filter.mpr ⟨hf, beq_self_eq_true _⟩
  rw [same] at own
  exact (List.mem_filter.mp own).1

private theorem Arranged.rank_head_le {f g : Fragment} (arranged : Arranged (f :: fragments)) (hg : g ∈ f :: fragments) :
    f.kind.rank ≤ g.kind.rank := by
  rcases List.mem_cons.mp hg with rfl | hg
  · exact Nat.le_refl _
  · exact (List.pairwise_cons.mp arranged).1 g hg

theorem Arranged.unique (arranged : Arranged fragments) (arranged' : Arranged others)
    (same : ∀ kind, fragments.filter (·.kind == kind) = others.filter (·.kind == kind)) : fragments = others := by
  induction fragments generalizing others with
  | nil =>
    cases others with
    | nil => rfl
    | cons g others => simpa using same g.kind
  | cons f fragments ih =>
    cases others with
    | nil => simpa using same f.kind
    | cons g others =>
      -- The first fragments are of the least kind there is, and so of one kind.
      have hf : f ∈ g :: others := mem_of_filter_eq same List.mem_cons_self
      have hg : g ∈ f :: fragments := mem_of_filter_eq (fun kind => (same kind).symm) List.mem_cons_self
      have kinds : f.kind = g.kind :=
        FragmentKind.eq_of_rank_eq (Nat.le_antisymm (arranged.rank_head_le hg) (arranged'.rank_head_le hf))
      have first : (f.kind == f.kind) = true := beq_self_eq_true _
      have first' : (g.kind == f.kind) = true := beq_iff_eq.mpr kinds.symm
      have heads := same f.kind
      simp only [List.filter_cons, first, first', if_true] at heads
      obtain ⟨rfl, _⟩ := List.cons.inj heads
      have rest : ∀ kind, fragments.filter (·.kind == kind) = others.filter (·.kind == kind) := by
        intro kind
        have whole := same kind
        simp only [List.filter_cons] at whole
        split at whole
        · exact (List.cons.inj whole).2
        · exact whole
      rw [ih arranged.of_cons arranged'.of_cons rest]

theorem arrange_eq_mergeSort (fragments : List Fragment) :
    arrange fragments = fragments.mergeSort fun f g => f.kind.rank ≤ g.kind.rank := by
  have trans : ∀ f g h : Fragment, decide (f.kind.rank ≤ g.kind.rank) → decide (g.kind.rank ≤ h.kind.rank) →
      decide (f.kind.rank ≤ h.kind.rank) := by
    simp only [decide_eq_true_eq]
    exact fun _ _ _ => Nat.le_trans
  have total : ∀ f g : Fragment, decide (f.kind.rank ≤ g.kind.rank) || decide (g.kind.rank ≤ f.kind.rank) := by
    simp only [Bool.or_eq_true, decide_eq_true_eq]
    exact fun _ _ => Nat.le_total _ _
  have sorted : Arranged (fragments.mergeSort fun f g => f.kind.rank ≤ g.kind.rank) :=
    (List.pairwise_mergeSort trans total fragments).imp of_decide_eq_true
  refine (arranged_arrange fragments).unique sorted fun kind => ?_
  rw [filter_arrange]
  have level : (fragments.filter (·.kind == kind)).Pairwise fun f g => decide (f.kind.rank ≤ g.kind.rank) :=
    (arranged_filter fragments kind).imp decide_eq_true
  have kept := (List.sublist_mergeSort trans total level List.filter_sublist).filter (·.kind == kind)
  simp only [List.filter_filter, Bool.and_self] at kept
  exact kept.eq_of_length ((List.mergeSort_perm fragments _).filter _).length_eq.symm

end Arranged

section Sorted

variable {fragments : List Fragment}

private theorem mem_insert {f g : Fragment} : g ∈ f.insert fragments ↔ g = f ∨ g ∈ fragments := by
  induction fragments with
  | nil => simp [insert]
  | cons h fragments ih =>
    rw [insert]
    split
    · exact List.mem_cons
    · rw [List.mem_cons, ih, List.mem_cons]
      tauto

private theorem arranged_insert (f : Fragment) (arranged : Arranged fragments) : Arranged (f.insert fragments) := by
  induction fragments with
  | nil => exact List.pairwise_singleton _ f
  | cons g fragments ih =>
    rw [insert]
    split
    · rename_i before
      exact List.pairwise_cons.mpr
        ⟨fun h listed => Nat.le_trans (Nat.le_of_lt before) (arranged.rank_head_le listed), arranged⟩
    · rename_i behind
      refine List.pairwise_cons.mpr ⟨fun h listed => ?_, ih arranged.of_cons⟩
      rcases mem_insert.mp listed with rfl | listed
      · exact Nat.le_of_not_lt behind
      · exact arranged.rank_head_le (List.mem_cons_of_mem g listed)

private theorem filter_insert (f : Fragment) (arranged : Arranged fragments) (kind : FragmentKind) :
    (f.insert fragments).filter (·.kind == kind) =
      fragments.filter (·.kind == kind) ++ [f].filter (·.kind == kind) := by
  induction fragments with
  | nil => rfl
  | cons g fragments ih =>
    rw [insert]
    split
    · rename_i before
      by_cases own : f.kind = kind
      · have none' : (g :: fragments).filter (·.kind == kind) = [] := by
          refine List.filter_eq_nil_iff.mpr fun h listed same => ?_
          have later := Nat.lt_of_lt_of_le before (arranged.rank_head_le listed)
          rw [beq_iff_eq.mp same, own] at later
          exact Nat.lt_irrefl _ later
        rw [none', List.filter_cons, none', List.nil_append, List.filter_cons, List.filter_nil]
      · have out : [f].filter (·.kind == kind) = [] := List.filter_eq_nil_iff.mpr (by simpa using own)
        rw [List.filter_cons_of_neg (by simpa using own), out, List.append_nil]
    · have parts : ∀ rest : List Fragment, (g :: rest).filter (·.kind == kind) =
          [g].filter (·.kind == kind) ++ rest.filter (·.kind == kind) := fun rest => List.filter_append [g] rest
      rw [parts (f.insert fragments), ih arranged.of_cons, parts fragments, List.append_assoc]

private theorem arranged_foldl (fragments : List Fragment) {sorted : List Fragment} (arranged : Arranged sorted) :
    Arranged (fragments.foldl (fun sorted f => f.insert sorted) sorted) ∧
      ∀ kind, (fragments.foldl (fun sorted f => f.insert sorted) sorted).filter (·.kind == kind) =
        sorted.filter (·.kind == kind) ++ fragments.filter (·.kind == kind) := by
  induction fragments generalizing sorted with
  | nil => exact ⟨arranged, fun kind => (List.append_nil _).symm⟩
  | cons f fragments ih =>
    obtain ⟨still, kept⟩ := ih (arranged_insert f arranged)
    refine ⟨still, fun kind => (kept kind).trans ?_⟩
    rw [filter_insert f arranged, List.append_assoc, ← List.filter_append, List.singleton_append]

end Sorted

end Fragment

namespace SourceAssembly

private theorem sorted_eq_arrange (a : SourceAssembly) : a.sorted = Fragment.arrange a.fragments := by
  obtain ⟨arranged, kept⟩ := Fragment.arranged_foldl a.fragments List.Pairwise.nil
  refine arranged.unique (Fragment.arranged_arrange _) fun kind => ?_
  rw [Fragment.filter_arrange]
  exact kept kind

end SourceAssembly

namespace StageRequest

variable {r : StageRequest} {catalog : Catalog} {options : SourceOptions} {files : FileTree}
  {body : String} {source : AssembledSource}

theorem text_of_assemble (done : r.assemble catalog options files body = .ok source) :
    source.text = String.join (source.fragments.map Fragment.written) := by
  obtain ⟨_, _, _, _, _, _, _, _, _, pieces, _, fragments, text⟩ := exists_passes_of_assemble done
  rw [text, SourceAssembly.text, SourceAssembly.sorted_eq_arrange, fragments, String.join, List.foldl_map]

end StageRequest

end ShaderPipeline
