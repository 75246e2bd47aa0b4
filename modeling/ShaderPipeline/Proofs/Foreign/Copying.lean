import Mathlib.Data.List.TakeDrop
import ShaderPipeline.Foreign.Buffer

/-!
Copying items into the memory of a caller.

The caller's memory is perhaps some slots, and a cell that says how many of them may be written.  Items are copied slot
by slot once the cell was looked at, and the cell is written last.  Main statement: passing items out comes to the same
as copying them, so a call that passes them out tells their number, or fills slots with exactly them, or writes nothing.
-/

set_option autoImplicit false
set_option relaxedAutoImplicit false

namespace ShaderPipeline

variable {α : Type}

/-- What a caller gives to be written to: perhaps slots, and a cell with the number of those that may be written. -/
structure HostMemory (α : Type) where
  /-- Nothing for a null pointer. -/
  slots : Option (List α)
  cell : Nat

namespace HostMemory

/-- Whether all slots that may be written are there. -/
def IsValid (m : HostMemory α) : Prop :=
  ∀ held, m.slots = some held → m.cell ≤ held.length

/-- Writes items into slots that follow each other, from an index on. -/
def writeFrom (m : HostMemory α) : Nat → List α → HostMemory α
  | _, [] => m
  | index, a :: items => writeFrom { m with slots := m.slots.map (·.set index a) } (index + 1) items

/-- Copies items, if there are slots and enough of them, and writes their number. -/
def copyItems (items : List α) (m : HostMemory α) : Except ForeignError Unit × HostMemory α :=
  if m.slots.isSome && m.cell < items.length then
    (.error (.bufferTooSmall items.length m.cell), m)
  else (.ok (), { m.writeFrom 0 items with cell := items.length })

private theorem writeFrom_of_room {items held : List α} {index cell : Nat}
    (room : index + items.length ≤ held.length) :
    writeFrom ⟨some held, cell⟩ index items =
      ⟨some (held.take index ++ items ++ held.drop (index + items.length)), cell⟩ := by
  induction items generalizing held index with
  | nil => simp [writeFrom]
  | cons a items ih =>
    have here : index < (held.set index a).length := by
      simp only [List.length_cons, List.length_set] at room ⊢
      omega
    have left : index + 1 + items.length ≤ (held.set index a).length := by
      simp only [List.length_cons, List.length_set] at room ⊢
      omega
    have before : (held.set index a).take (index + 1) = held.take index ++ [a] := by
      rw [List.take_succ_eq_append_getElem here, List.take_set, List.getElem_set_self,
        List.set_eq_of_length_le (List.length_take_le _ _)]
    have behind : (held.set index a).drop (index + 1 + items.length) =
        held.drop (index + (a :: items).length) := by
      rw [List.drop_set_of_lt (by omega), List.length_cons, Nat.add_assoc, Nat.add_comm 1]
    have rest := ih left
    rw [before, behind] at rest
    simpa [writeFrom] using rest

private theorem writeFrom_of_none {items : List α} {index cell : Nat} :
    writeFrom ⟨none, cell⟩ index items = ⟨none, cell⟩ := by
  induction items generalizing index with
  | nil => rfl
  | cons a items ih => exact ih

/-- What the memory comes in as: whether there are slots, and the cell. -/
def argument (m : HostMemory α) : BufferArgument :=
  ⟨m.slots.isSome, true, m.cell⟩

def after (m : HostMemory α) : Passed α → HostMemory α
  | (.ok written, cell) => ⟨m.slots.map fun held => written ++ held.drop written.length, cell⟩
  | (.error _, cell) => { m with cell }

/-- What a call that passed items out comes to for a caller with a memory. -/
def received (m : HostMemory α) (passed : Passed α) : Except ForeignError Unit × HostMemory α :=
  (passed.1.map fun _ => (), m.after passed)

private theorem received_pass {m : HostMemory α} (valid : m.IsValid) (items : List α) :
    m.received (m.argument.pass items) = m.copyItems items := by
  obtain ⟨slots, cell⟩ := m
  cases slots with
  | none =>
    simp only [copyItems, writeFrom_of_none]
    rfl
  | some held =>
    have known : cell ≤ held.length := valid held rfl
    by_cases few : cell < items.length
    · simp [received, after, argument, BufferArgument.pass, copyItems, few, Except.map]
    · have room : 0 + items.length ≤ held.length := by omega
      simp [received, after, argument, BufferArgument.pass, copyItems, few, Except.map,
        writeFrom_of_room room]

end HostMemory

/-- How a call answers that has items to copy. -/
structure Answers (call : HostMemory α → Except ForeignError Unit × HostMemory α) (items : List α) :
    Prop where
  /-- Without slots their number is told. -/
  query : ∀ cell, call ⟨none, cell⟩ = (.ok (), ⟨none, items.length⟩)
  /-- Enough slots receive them, and the slots behind them stay as they were. -/
  fill : ∀ held capacity, items.length ≤ capacity → capacity ≤ held.length →
    call ⟨some held, capacity⟩ = (.ok (), ⟨some (items ++ held.drop items.length), items.length⟩)
  /-- Too few slots are left alone, and so is the cell. -/
  refuse : ∀ held capacity, capacity < items.length → capacity ≤ held.length →
    call ⟨some held, capacity⟩ =
      (.error (.bufferTooSmall items.length capacity), ⟨some held, capacity⟩)

namespace HostMemory

private theorem copyItems_answers (items : List α) : Answers (copyItems items) items where
  query cell := by simp [copyItems, writeFrom_of_none]
  fill held capacity enough room := by
    have fits : 0 + items.length ≤ held.length := by omega
    simp [copyItems, writeFrom_of_room fits, Nat.not_lt.mpr enough]
  refuse held capacity few _ := by simp [copyItems, few]

end HostMemory

theorem Answers.of_pass {call : BufferArgument → Passed α} {items : List α}
    (passes : ∀ b : BufferArgument, b.hasCell = true → call b = b.pass items) :
    Answers (fun m => m.received (call m.argument)) items := by
  have copied : ∀ m : HostMemory α, m.IsValid →
      m.received (call m.argument) = m.copyItems items := by
    intro m valid
    rw [passes m.argument rfl, HostMemory.received_pass valid]
  have answers := HostMemory.copyItems_answers items
  refine ⟨fun cell => ?_, fun held capacity enough room => ?_, fun held capacity few room => ?_⟩
  · exact (copied ⟨none, cell⟩ nofun).trans (answers.query cell)
  · have valid : HostMemory.IsValid ⟨some held, capacity⟩ := by
      rintro _ ⟨⟩
      exact room
    exact (copied _ valid).trans (answers.fill held capacity enough room)
  · have valid : HostMemory.IsValid ⟨some held, capacity⟩ := by
      rintro _ ⟨⟩
      exact room
    exact (copied _ valid).trans (answers.refuse held capacity few room)

end ShaderPipeline
