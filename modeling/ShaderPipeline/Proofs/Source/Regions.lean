import ShaderPipeline.Proofs.Source.Passes

/-!
Override regions.

A region goes from the directive that begins it to the one that ends it, and what stands in it replaces the default
interface.  The pass over interface directives goes through the lines once and knows at each only whether a region is
open.  Main statement: it succeeds exactly if the directives that bound regions alternate, and then parts the lines
between the override and the body; of a body with regions nothing but the override is written as its interface.
-/

set_option autoImplicit false
set_option relaxedAutoImplicit false

namespace ShaderPipeline

open Outcome

namespace Extraction

/-- What a directive does to the region it bounds. -/
inductive RegionEdge where
  | begins | ends
  deriving DecidableEq

def edge? (line : String) : Option RegionEdge :=
  match Directive.recognizeInterface line.toList with
  | .directive .overrideBegin => some .begins
  | .directive .overrideEnd => some .ends
  | _ => none

/-- The directives among some lines that bound regions, in order. -/
def edges (ls : List String) : List RegionEdge :=
  ls.filterMap edge?

/-- Whether regions are begun and ended in turn: the first edge begins a region, the last one ends a region, and no two
in a row do the same. -/
structure Alternates (es : List RegionEdge) : Prop where
  first : ∀ e ∈ es.head?, e = .begins
  last : ∀ e ∈ es.getLast?, e = .ends
  differ : es.IsChain (· ≠ ·)

/-- Whether a line is no interface directive, not even a malformed one. -/
def isPlain (line : String) : Bool :=
  decide (Directive.recognizeInterface line.toList = .ordinary)

instance (kind : String → Prop) [DecidablePred kind] (ls : List String) (i : Nat) : Decidable (LineAt kind ls i) :=
  inferInstanceAs (Decidable (∃ l ∈ ls[i]?, kind l))

instance (d : InterfaceDirective) (ls : List String) (i : Nat) : Decidable (InterfaceAt d ls i) :=
  inferInstanceAs (Decidable (LineAt _ ls i))

instance (ls : List String) (i : Nat) : Decidable (InRegion ls i) :=
  decidable_of_iff (∃ j < i, InterfaceAt .overrideBegin ls j ∧ ∀ k < i, j < k → ¬ InterfaceAt .overrideEnd ls k)
    (exists_congr fun _ => and_congr_right fun _ => and_congr_right fun _ =>
      forall_congr' fun _ => ⟨fun h after before => h before after, fun h before after => h after before⟩)

/-- The lines that stand in override regions and are no directives, in order. -/
def regionLines (ls : List String) : List String :=
  (List.range ls.length).filterMap fun i => if InRegion ls i then ls[i]?.filter isPlain else none

section Edges

variable {es : List RegionEdge}

private theorem alternates_nil : Alternates [] :=
  ⟨nofun, nofun, .nil⟩

private theorem not_alternates_ends : ¬ Alternates (.ends :: es) := by
  intro h
  cases h.first .ends rfl

private theorem not_alternates_begins_twice : ¬ Alternates (.begins :: .begins :: es) := by
  intro h
  exact (List.isChain_cons_cons.mp h.differ).1 rfl

private theorem not_alternates_begins : ¬ Alternates [.begins] := by
  intro h
  cases h.last .begins rfl

private theorem alternates_region : Alternates (.begins :: .ends :: es) ↔ Alternates es := by
  cases es with
  | nil => exact ⟨fun _ => alternates_nil, fun _ => ⟨by simp, by simp, by simp⟩⟩
  | cons e es =>
    have later : (RegionEdge.begins :: .ends :: e :: es).getLast? = (e :: es).getLast? := by
      rw [List.getLast?_cons_cons, List.getLast?_cons_cons]
    constructor
    · rintro ⟨_, last, differ⟩
      obtain ⟨next, chain⟩ := List.isChain_cons_cons.mp (List.isChain_cons_cons.mp differ).2
      refine ⟨fun d hd => ?_, later ▸ last, chain⟩
      obtain rfl := Option.some.inj hd
      cases e with
      | begins => rfl
      | ends => exact absurd rfl next
    · rintro ⟨first, last, differ⟩
      have opens : e = .begins := first e rfl
      refine ⟨by simp, later ▸ last, ?_⟩
      exact .cons_cons nofun (.cons_cons (by simp [opens]) differ)

end Edges

section Pass

variable {line : String} {ls ls' rest : List String} {region : Option (List String)}
  {request asked : InterfaceRequest} {e : SourceError}

/-- The edges that are still to be matched when a region is open or not. -/
def pending (region : Option (List String)) : List RegionEdge :=
  if region.isSome then [.begins] else []

private theorem edges_cons (line : String) (rest : List String) : edges (line :: rest) = (edge? line).toList ++ edges rest := by
  rw [edges, List.filterMap_cons, edges]
  cases edge? line <;> rfl

private theorem alternates_of_interfaceFrom (done : interfaceFrom region request ls = .ok (ls', asked)) :
    (∀ l ∈ ls, Directive.recognizeInterface l.toList ≠ .malformed) ∧ Alternates (pending region ++ edges ls) := by
  induction ls generalizing region request ls' with
  | nil =>
    cases region with
    | none => exact ⟨nofun, alternates_nil⟩
    | some lines => cases done
  | cons line rest ih =>
    obtain ⟨kept, region', request', after, _, tail, fate⟩ := interfaceFrom_cons done
    obtain ⟨formed, alternate⟩ := ih tail
    rw [List.forall_mem_cons, edges_cons, edge?]
    cases recognized : Directive.recognizeInterface line.toList with
    | malformed =>
      rw [recognized] at fate
      exact fate.elim
    | ordinary =>
      rw [recognized] at fate
      obtain ⟨_, rfl, _⟩ := fate
      refine ⟨⟨nofun, formed⟩, ?_⟩
      cases region <;> exact alternate
    | directive d =>
      rw [recognized] at fate
      refine ⟨⟨nofun, formed⟩, ?_⟩
      cases d with
      | overrideBegin =>
        obtain ⟨_, rfl, rfl, _⟩ := fate
        exact alternate
      | overrideEnd =>
        obtain ⟨_, lines, rfl, rfl, _⟩ := fate
        exact alternates_region.mpr alternate
      | noFragmentOutput =>
        obtain ⟨_, rfl, _⟩ := fate
        exact alternate

private theorem interfaceFrom_eq_error (failed : interfaceFrom region request ls = .error e) :
    (∃ l ∈ ls, Directive.recognizeInterface l.toList = .malformed ∧ e = .malformedDirective (Text.trim l)) ∨
      e = .unbalancedOverride ∧ ¬ Alternates (pending region ++ edges ls) := by
  induction ls generalizing region request with
  | nil =>
    cases region with
    | none => cases failed
    | some lines =>
      obtain rfl := Except.error.inj failed
      exact .inr ⟨rfl, not_alternates_begins⟩
  | cons line rest ih =>
    -- If the pass fails on the lines after this one, it does so for what they are and for the region left open.
    have passed : ∀ (kept : String) (region' : Option (List String)) (request' : InterfaceRequest),
        (interfaceFrom region' request' rest >>= fun outcome => pure (kept :: outcome.1, outcome.2)) = .error e →
        (∃ l ∈ line :: rest, Directive.recognizeInterface l.toList = .malformed ∧
            e = .malformedDirective (Text.trim l)) ∨
          e = .unbalancedOverride ∧ ¬ Alternates (pending region' ++ edges rest) := by
      intro kept region' request' stopped
      have tail : interfaceFrom region' request' rest = .error e := by
        cases run : interfaceFrom region' request' rest with
        | ok outcome =>
          rw [run] at stopped
          cases stopped
        | error e' =>
          rw [run] at stopped
          exact stopped
      rcases ih tail with ⟨l, hl, wrong⟩ | uneven
      · exact .inl ⟨l, List.mem_cons_of_mem line hl, wrong⟩
      · exact .inr uneven
    rw [edges_cons, edge?]
    rw [interfaceFrom] at failed
    cases recognized : Directive.recognizeInterface line.toList with
    | malformed =>
      rw [recognized] at failed
      obtain rfl := Except.error.inj failed
      exact .inl ⟨line, List.mem_cons_self, recognized, rfl⟩
    | ordinary =>
      rw [recognized] at failed
      cases region with
      | none => exact passed line none request failed
      | some lines => exact passed "" (some (lines ++ [line])) request failed
    | directive d =>
      rw [recognized] at failed
      cases d with
      | overrideBegin =>
        cases region with
        | none => exact passed "" (some []) request failed
        | some lines =>
          obtain rfl := Except.error.inj failed
          exact .inr ⟨rfl, not_alternates_begins_twice⟩
      | overrideEnd =>
        cases region with
        | none =>
          obtain rfl := Except.error.inj failed
          exact .inr ⟨rfl, not_alternates_ends⟩
        | some lines =>
          rcases passed "" none (request.addRegion lines) failed with malformed | ⟨same, uneven⟩
          · exact .inl malformed
          · exact .inr ⟨same, fun even => uneven (alternates_region.mp even)⟩
      | noFragmentOutput => exact passed "" region { request with noFragmentOutput := true } failed

/-- The lines that stand in regions when a region is open before the first of them or not. -/
def linesWithin (inside : Bool) : List String → List String
  | [] => []
  | line :: rest =>
      match Directive.recognizeInterface line.toList with
      | .directive .overrideBegin => linesWithin true rest
      | .directive .overrideEnd => linesWithin false rest
      | .ordinary => if inside then line :: linesWithin inside rest else linesWithin inside rest
      | _ => linesWithin inside rest

/-- What the pass asks for: the lines of all regions behind those it had, and no fragment outputs if a directive says
so. -/
private theorem asked_of_interfaceFrom (done : interfaceFrom region request ls = .ok (ls', asked)) :
    asked.override.getD [] =
        request.override.getD [] ++ region.getD [] ++ linesWithin region.isSome ls ∧
      (asked.override.isSome ↔ request.override.isSome ∨ region.isSome ∨ RegionEdge.begins ∈ edges ls) ∧
      (asked.noFragmentOutput ↔ request.noFragmentOutput ∨
        ∃ l ∈ ls, Directive.recognizeInterface l.toList = .directive .noFragmentOutput) := by
  induction ls generalizing region request ls' with
  | nil =>
    cases region with
    | none =>
      cases done
      simp [linesWithin, edges]
    | some lines => cases done
  | cons line rest ih =>
    obtain ⟨kept, region', request', after, _, tail, fate⟩ := interfaceFrom_cons done
    obtain ⟨lines, regions, quiet⟩ := ih tail
    rw [lines, regions, quiet, linesWithin, edges_cons, edge?]
    simp only [List.exists_mem_cons_iff]
    cases recognized : Directive.recognizeInterface line.toList with
    | malformed =>
      rw [recognized] at fate
      exact fate.elim
    | ordinary =>
      rw [recognized] at fate
      obtain ⟨_, rfl, rfl⟩ := fate
      cases region <;> simp
    | directive d =>
      rw [recognized] at fate
      cases d with
      | overrideBegin =>
        obtain ⟨_, rfl, rfl, rfl⟩ := fate
        simp
      | overrideEnd =>
        obtain ⟨_, lines, rfl, rfl, rfl⟩ := fate
        simp [InterfaceRequest.addRegion]
      | noFragmentOutput =>
        obtain ⟨_, rfl, rfl⟩ := fate
        simp

private theorem inRegion_after {inside : Bool} {i : Nat} :
    (InRegion (line :: rest) (i + 1) ∨ inside ∧ ∀ k < i + 1, ¬ InterfaceAt .overrideEnd (line :: rest) k) ↔
      InRegion rest i ∨ (Directive.recognizeInterface line.toList = .directive .overrideBegin ∨
        inside ∧ Directive.recognizeInterface line.toList ≠ .directive .overrideEnd) ∧
          ∀ k < i, ¬ InterfaceAt .overrideEnd rest k := by
  rw [inRegion_succ, Nat.forall_lt_succ_left]
  simp only [InterfaceAt, lineAt_zero, lineAt_succ]
  tauto

private theorem linesWithin_eq (inside : Bool) (ls : List String) :
    linesWithin inside ls = (List.range ls.length).filterMap fun i =>
      if InRegion ls i ∨ inside ∧ ∀ k < i, ¬ InterfaceAt .overrideEnd ls k then ls[i]?.filter isPlain else none := by
  induction ls generalizing inside with
  | nil => rfl
  | cons line rest ih =>
    have first : ¬ InRegion (line :: rest) 0 := fun ⟨j, before, _⟩ => Nat.not_lt_zero j before
    rw [List.length_cons, List.range_succ_eq_map, List.filterMap_cons, List.filterMap_map, linesWithin]
    simp only [Function.comp_def, inRegion_after, first, List.getElem?_cons_succ, List.getElem?_cons_zero]
    cases recognized : Directive.recognizeInterface line.toList with
    | malformed => simp [isPlain, recognized, Option.filter_some, ih]
    | ordinary => cases inside <;> simp [isPlain, recognized, Option.filter_some, ih]
    | directive d => cases d <;> simp [isPlain, recognized, Option.filter_some, ih]

end Pass

section Source

variable {ls rest : List String} {asked : InterfaceRequest}

private theorem interface_eq_ok_iff : (∃ outcome, interface ls = .ok outcome) ↔
    (∀ l ∈ ls, Directive.recognizeInterface l.toList ≠ .malformed) ∧ Alternates (edges ls) := by
  constructor
  · rintro ⟨outcome, done⟩
    exact alternates_of_interfaceFrom done
  · rintro ⟨formed, alternate⟩
    cases run : interface ls with
    | ok outcome => exact ⟨outcome, rfl⟩
    | error e =>
      rcases interfaceFrom_eq_error run with ⟨l, hl, malformed, _⟩ | ⟨_, uneven⟩
      · exact absurd malformed (formed l hl)
      · exact absurd alternate uneven

private theorem interface_eq_unbalanced (formed : ∀ l ∈ ls, Directive.recognizeInterface l.toList ≠ .malformed)
    (uneven : ¬ Alternates (edges ls)) : interface ls = .error .unbalancedOverride := by
  cases run : interface ls with
  | ok outcome => exact absurd (alternates_of_interfaceFrom run).2 uneven
  | error e =>
    rcases interfaceFrom_eq_error run with ⟨l, hl, malformed, _⟩ | ⟨rfl, _⟩
    · exact absurd malformed (formed l hl)
    · rfl

private theorem override_of_interface (done : interface ls = .ok (rest, asked)) :
    asked.override = if RegionEdge.begins ∈ edges ls then some (regionLines ls) else none := by
  obtain ⟨lines, regions, _⟩ := asked_of_interfaceFrom done
  have within : linesWithin false ls = regionLines ls := by
    simp only [linesWithin_eq, regionLines, Bool.false_eq_true, false_and, or_false]
  simp only [InterfaceRequest.empty, Option.isSome_none, Bool.false_eq_true, false_or] at regions
  simp only [InterfaceRequest.empty, Option.getD_none, List.nil_append, Option.isSome_none, within] at lines
  split
  · rename_i begun
    obtain ⟨held, overridden⟩ := Option.isSome_iff_exists.mp (regions.mpr begun)
    rw [overridden] at lines
    rw [overridden, ← lines, Option.getD_some]
  · rename_i unbegun
    exact Option.not_isSome_iff_eq_none.mp fun overridden => unbegun (regions.mp overridden)

private theorem noFragmentOutput_of_interface (done : interface ls = .ok (rest, asked)) :
    asked.noFragmentOutput ↔ ∃ i, InterfaceAt .noFragmentOutput ls i := by
  obtain ⟨_, _, quiet⟩ := asked_of_interfaceFrom done
  rw [quiet]
  simp only [InterfaceRequest.empty, Bool.false_eq_true, false_or, InterfaceAt, LineAt, List.mem_iff_getElem?,
    Option.mem_def]
  constructor
  · rintro ⟨l, ⟨i, here⟩, quiet⟩
    exact ⟨i, l, here, quiet⟩
  · rintro ⟨i, l, here, quiet⟩
    exact ⟨l, ⟨i, here⟩, quiet⟩

/-- Override regions part the lines of a source.  Unless an interface directive is malformed, the source is read exactly
if the directives that bound regions begin and end them in turn.  There is then an override exactly if there is a
region: the lines in regions that are no directives, in order.  The body keeps all other lines that are no directives in
their places, and is empty in the places of these.  An override is all that is written as the interface of a stage. -/
theorem override_regions_part_source (text : String) :
    ((∃ outcome, interface (Text.lines text) = .ok outcome) ↔
      (∀ l ∈ Text.lines text, Directive.recognizeInterface l.toList ≠ .malformed) ∧
        Alternates (edges (Text.lines text))) ∧
    ((∀ l ∈ Text.lines text, Directive.recognizeInterface l.toList ≠ .malformed) →
      ¬ Alternates (edges (Text.lines text)) → interface (Text.lines text) = .error .unbalancedOverride) ∧
    ∀ rest asked, interface (Text.lines text) = .ok (rest, asked) →
      (asked.override =
        if RegionEdge.begins ∈ edges (Text.lines text) then some (regionLines (Text.lines text)) else none) ∧
      EmptiedAt (fun i => (∃ d, InterfaceAt d (Text.lines text) i) ∨ InRegion (Text.lines text) i)
        (Text.lines text) rest ∧
      (asked.noFragmentOutput ↔ ∃ i, InterfaceAt .noFragmentOutput (Text.lines text) i) ∧
      ∀ lines, asked.override = some lines → ∀ shader stage,
        StageRequest.interfaceFragments shader stage asked = [⟨.interfaceInput, Text.joinLines lines⟩] := by
  refine ⟨interface_eq_ok_iff, interface_eq_unbalanced, fun rest asked done => ?_⟩
  refine ⟨override_of_interface done, interface_emptiedAt done, noFragmentOutput_of_interface done, ?_⟩
  intro lines overridden shader stage
  rw [StageRequest.interfaceFragments, overridden]

/-- The lines of two regions, one of them with another directive in it. -/
example : regionLines ["#pragma interface_override begin", "in vec4 tint;", "#pragma interface_override end",
    "void main() \x7b\x7d", "#pragma interface_override begin", "#pragma no_fragment_output", "out float depth;",
    "#pragma interface_override end"] = ["in vec4 tint;", "out float depth;"] := by
  decide +kernel

end Source

end Extraction

end ShaderPipeline
