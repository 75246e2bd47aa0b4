import ShaderPipeline.Proofs.Foreign.Queries

/-!
Asking again after a buffer was too small.

A query that finds too few slots writes nothing, not even the number of its items: the cell goes on holding the
capacity.  Main statement: a caller who goes by the cell is refused however often it asks again, and one who goes by the
number in the error, or who asks for the number, has all items at the next call.
-/

set_option autoImplicit false
set_option relaxedAutoImplicit false

namespace ShaderPipeline

open Outcome

/-- Whether an error says that a buffer is too small. -/
def ForeignError.IsShortage (e : ForeignError) : Prop :=
  ∃ needed capacity, e = .bufferTooSmall needed capacity

@[simp] theorem ForeignError.isShortage_iff {e : ForeignError} :
    e.IsShortage ↔ ∃ needed capacity, e = .bufferTooSmall needed capacity :=
  Iff.rfl

namespace ForeignSession

variable {s : ForeignSession} {α : Type}

private theorem textArguments_cases (s : ForeignSession) (name : TextArgument) (stage : UInt32) {b : BufferArgument}
    (cell : b.hasCell = true) :
    (∃ e, s.textArguments true name stage b = .error e ∧ ¬ e.IsShortage) ∨
      ∃ p i, s.pack = some p ∧ identity? name stage = some i := by
  cases handle : s.pack with
  | none => exact .inl ⟨.invalidParameter "pack", by simp only [textArguments, deref, handle]; rfl, by simp⟩
  | some p =>
    cases name with
    | none => exact .inl ⟨.invalidParameter "name", by simp only [textArguments, deref, handle]; rfl, by simp⟩
    | some bytes =>
      cases read : foreignText bytes with
      | error e =>
        refine .inl ⟨e, ?_, ?_⟩
        · simp only [textArguments, deref, requireGiven, TextArgument.bytes, handle, cell, read, bind, Except.bind,
            pure, Except.pure, if_pos]
        · rw [foreignText] at read
          split at read <;> cases read
          simp
      | ok text =>
        cases single : singleStage stage with
        | error e =>
          refine .inl ⟨e, ?_, ?_⟩
          · simp only [textArguments, deref, requireGiven, TextArgument.bytes, handle, cell, read, single, bind,
              Except.bind, pure, Except.pure, if_pos]
          · rw [singleStage] at single
            split at single <;> cases single
            simp
        | ok known => exact .inr ⟨p, .ofName text known, rfl, by simp [identity?, read, single, Except.toOption]⟩

private theorem ask_of_no_items {q : Query α} (absent : s.items? q = none) {b : BufferArgument} (cell : b.hasCell = true) :
    ∃ e, (s.ask q b).1 = (.error e, b.cell) ∧ ¬ e.IsShortage := by
  have no_shader : s.shader = none → ∀ find : ProcessedShader → Except ForeignError (List α),
      s.items true b find = (.error (.invalidParameter "shader"), b.cell) := by
    intro handle find
    simp only [items, handle]
    rfl
  cases q with
  | sets | bindings | pushRanges | attributes | constants | errors =>
    exact ⟨_, no_shader (Option.map_eq_none_iff.mp absent) _, by simp⟩
  | bindingName set binding =>
    cases handle : s.shader with
    | none => exact ⟨_, no_shader handle _, by simp⟩
    | some p =>
      have unused : p.shader.usageAt? (set, binding) = none := by simpa [items?, handle] using absent
      refine ⟨.notFound, (items_of_shader handle cell).trans ?_, by simp⟩
      simp only [unused]
      rfl
  | fullSource name stage =>
    rcases s.textArguments_cases name stage cell with ⟨e, refused, other⟩ | ⟨p, i, handle, named⟩
    · exact ⟨e, by simp only [ask, fullSource, refused]; rfl, other⟩
    · have missing : p.cache.fullSource? i = none := by simpa [items?, handle, named] using absent
      refine ⟨.notFound, ?_, by simp⟩
      simp only [ask, fullSource, textArguments_of_identity? handle named cell, missing, bind, Except.bind]
      rfl
  | disassembly name stage =>
    rcases s.textArguments_cases name stage cell with ⟨e, refused, other⟩ | ⟨p, i, handle, named⟩
    · exact ⟨e, by simp only [ask, disassembly, refused]; rfl, other⟩
    · cases made : (p.pack.disassembly i (s.workspace p)).1 with
      | ok text => simp [items?, handle, named, made, Except.toOption] at absent
      | error e =>
        refine ⟨.pack e, ?_, by simp⟩
        simp only [ask, disassembly, textArguments_of_identity? handle named cell, made]
        rfl
  | errorText error => cases absent

private theorem items_of_shortage {q : Query α} {m : HostMemory α} {needed capacity : Nat}
    (short : (s.call q m).1 = .error (.bufferTooSmall needed capacity)) :
    ∃ items, s.items? q = some items ∧ items.length = needed ∧ m.cell = capacity ∧ capacity < needed ∧
      (s.call q m).2 = m := by
  cases there : s.items? q with
  | none =>
    obtain ⟨e, failed, other⟩ := ask_of_no_items there (b := m.argument) rfl
    rw [call, failed] at short
    exact absurd ⟨needed, capacity, Except.error.inj short⟩ other
  | some items =>
    have passed : s.call q m = m.received (m.argument.pass items) := by rw [call, ask_of_items there rfl]
    rw [passed] at short ⊢
    rw [BufferArgument.pass] at short ⊢
    split at short
    · rename_i buffer
      split at short
      · rename_i few
        obtain ⟨rfl, rfl⟩ : items.length = needed ∧ m.cell = capacity := by
          simpa [HostMemory.received, Except.map, HostMemory.argument] using short
        refine ⟨items, rfl, rfl, rfl, few, ?_⟩
        rw [if_pos buffer, if_pos few]
        rfl
      · cases short
    · cases short

/-- What a session and the memory come to when a query is made and then made again, each time with as many slots as the
cell tells after the call before. -/
inductive Repeats (s : ForeignSession) (q : Query α) (m : HostMemory α) : ForeignSession → HostMemory α → Prop
  | once : Repeats s q m (s.next q m) (s.call q m).2
  | again {s' : ForeignSession} {m' : HostMemory α} {held : List α} (before : Repeats s q m s' m')
      (as_told : held.length = m'.cell) :
      Repeats s q m (s'.next q ⟨some held, m'.cell⟩) (s'.call q ⟨some held, m'.cell⟩).2

theorem Repeats.kept {q : Query α} {m : HostMemory α} {items : List α} (there : s.items? q = some items)
    (few : m.cell < items.length) (unwritten : (s.call q m).2 = m) {s' : ForeignSession} {m' : HostMemory α}
    (repeated : s.Repeats q m s' m') : s'.items? q = some items ∧ m'.cell = m.cell := by
  induction repeated with
  | once => exact ⟨items_next there m, by rw [unwritten]⟩
  | @again s' m' held _ as_told ih =>
    obtain ⟨there, same⟩ := ih
    have answers : Answers (s'.call q) items := .of_pass fun _ cell => ask_of_items there cell
    refine ⟨items_next there _, ?_⟩
    rw [answers.refuse held m'.cell (same ▸ few) (Nat.le_of_eq as_told.symm)]
    exact same

/-- After a query found the buffer too small, the memory is as it was.  A caller who makes it again with as many slots as
the cell tells is refused again, however often; with as many slots as the error tells it has all items, and without
slots their number. -/
theorem retry_by_cell_refused (s : ForeignSession) (q : Query α) (m : HostMemory α) (needed capacity : Nat)
    (short : (s.call q m).1 = .error (.bufferTooSmall needed capacity)) :
    (s.call q m).2 = m ∧ m.cell = capacity ∧ capacity < needed ∧
      ∃ items, s.items? q = some items ∧ items.length = needed ∧
        ∀ s' m', s.Repeats q m s' m' → m'.cell = capacity ∧
          (∀ held, held.length = m'.cell → s'.call q ⟨some held, m'.cell⟩ =
            (.error (.bufferTooSmall needed capacity), ⟨some held, m'.cell⟩)) ∧
          (∀ held, held.length = needed → s'.call q ⟨some held, needed⟩ = (.ok (), ⟨some items, needed⟩)) ∧
            s'.call q ⟨none, m'.cell⟩ = (.ok (), ⟨none, needed⟩) := by
  obtain ⟨items, there, rfl, rfl, few, unwritten⟩ := items_of_shortage short
  refine ⟨unwritten, rfl, few, items, there, rfl, fun s' m' repeated => ?_⟩
  obtain ⟨there', same⟩ := repeated.kept there few unwritten
  have answers : Answers (s'.call q) items := .of_pass fun _ cell => ask_of_items there' cell
  refine ⟨same, fun held as_told => ?_, fun held enough => ?_, answers.query _⟩
  · rw [← same]
    exact answers.refuse held m'.cell (same ▸ few) (Nat.le_of_eq as_told.symm)
  · have filled := answers.fill held items.length (Nat.le_refl _) (Nat.le_of_eq enough.symm)
    rwa [List.drop_of_length_le (Nat.le_of_eq enough), List.append_nil] at filled

def lampName : Query UInt8 :=
  .bindingName 1 2

/-- Slots for the name of the lamp without its zero. -/
def fourSlots : HostMemory UInt8 :=
  ⟨some (List.replicate 4 7), 4⟩

private theorem refused_fourSlots : moon.call lampName fourSlots = (.error (.bufferTooSmall 5 4), fourSlots) := by
  have five : (terminatedBytes "lamp").length = 5 := by decide +kernel
  have answers : Answers (moon.call lampName) (terminatedBytes "lamp") :=
    .of_pass fun _ cell => ask_of_items moon_answers.2.1 cell
  have few : 4 < (terminatedBytes "lamp").length := five ▸ by decide
  rw [← five]
  exact answers.refuse (List.replicate 4 7) 4 few (by decide)

/-- The cell tells four after four slots were too few, and four slots are too few again. -/
theorem cell_tells_too_few :
    moon.call lampName fourSlots = (.error (.bufferTooSmall 5 4), fourSlots) ∧
      (moon.next lampName fourSlots).call lampName
        ⟨some (List.replicate 4 7), (moon.call lampName fourSlots).2.cell⟩ =
          (.error (.bufferTooSmall 5 4), fourSlots) := by
  refine ⟨refused_fourSlots, ?_⟩
  rw [refused_fourSlots]
  exact refused_fourSlots

theorem retry_by_cell_refused_of_moon :
    (moon.call lampName fourSlots).1 = .error (.bufferTooSmall 5 4) ∧
      ∃ items, moon.items? lampName = some items ∧ items.length = 5 ∧
        (moon.next lampName fourSlots).call lampName ⟨some (List.replicate 5 7), 5⟩ = (.ok (), ⟨some items, 5⟩) := by
  have short := congrArg Prod.fst refused_fourSlots
  obtain ⟨_, _, _, items, there, length, repeated⟩ := retry_by_cell_refused moon lampName fourSlots 5 4 short
  obtain ⟨_, _, filled, _⟩ := repeated _ _ .once
  exact ⟨short, items, there, length, filled _ (by decide)⟩

end ForeignSession

end ShaderPipeline
