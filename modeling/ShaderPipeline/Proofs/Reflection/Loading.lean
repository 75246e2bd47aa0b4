import ShaderPipeline.Proofs.Outcome
import ShaderPipeline.Spirv.Module

/-!
The instructions of a module that was read from words.

Each was read as an instruction of its operation before it was filed.  Main statement: an instruction of an operation that
takes some number of ids has just so many ids for operands.
-/

set_option autoImplicit false
set_option relaxedAutoImplicit false

namespace ShaderPipeline.Spirv

open Outcome

section Filing

variable {d d' : Draft} {i : Instruction}

private theorem Draft.mem_filed_of_place (placed : d.place i = .ok d') {p : Section × Instruction}
    (hp : p ∈ d'.module.filed) : p ∈ d.module.filed ∨ p.2 = i := by
  have inBlock : d.addToBlock i = .ok d' → p ∈ d.module.filed ∨ p.2 = i := by
    intro added
    unfold addToBlock at added
    split at added
    · obtain rfl := Except.ok.inj added
      exact .inl hp
    · cases added
  have filed : ∀ s, d.file s i = d' → p ∈ d.module.filed ∨ p.2 = i := by
    rintro s rfl
    rcases List.mem_append.mp hp with old | new
    · exact .inl old
    · exact .inr (congrArg Prod.snd (List.mem_singleton.mp new))
  -- Functions and blocks are opened and closed beside what is filed.
  unfold place at placed
  split at placed
  · split at placed
    · exact filed _ (Except.ok.inj placed)
    · exact inBlock placed
  · split at placed
    · exact filed _ (Except.ok.inj placed)
    · exact inBlock placed
  · unfold openFunction at placed
    split at placed <;> cases placed
    exact .inl hp
  · unfold addParameter at placed
    split at placed <;> cases placed
    exact .inl hp
  · unfold closeFunction at placed
    split at placed <;> cases placed
    exact .inl hp
  · unfold openBlock at placed
    split at placed <;> cases placed
    exact .inl hp
  · unfold closeBlock at placed
    split at placed <;> cases placed
    exact .inl hp
  · exact inBlock placed
  · exact filed _ (Except.ok.inj placed)

private theorem forall_filed_of_readInstructions {P : Instruction → Prop}
    (reads : ∀ types number first rest index i c,
      readInstruction types number first rest index = .ok (i, c) → P i)
    {steps number index : Nat} {types : NumericTypes} {words : List UInt32}
    (done : readInstructions steps types number index words d = .ok d') (before : ∀ p ∈ d.module.filed, P p.2) :
    ∀ p ∈ d'.module.filed, P p.2 := by
  induction steps generalizing types number index words d with
  | zero =>
    rw [readInstructions] at done
    obtain rfl := Except.ok.inj done
    exact before
  | succ steps ih =>
    cases words with
    | nil =>
      rw [readInstructions] at done
      · obtain rfl := Except.ok.inj done
        exact before
      · exact Nat.succ_ne_zero steps
    | cons first rest =>
      rw [readInstructions] at done
      obtain ⟨⟨i, c⟩, read, done⟩ := bind_eq_ok.mp done
      obtain ⟨next, placed, done⟩ := bind_eq_ok.mp done
      have placed' := mapError_eq_ok.mp placed
      apply ih done
      intro p hp
      rcases Draft.mem_filed_of_place placed' hp with old | rfl
      · exact before p old
      · exact reads _ _ _ _ _ _ _ read

private theorem Module.forall_globals_of_ofWords (P : Instruction → Prop)
    (reads : ∀ types number first rest index i c,
      readInstruction types number first rest index = .ok (i, c) → P i)
    {words : List UInt32} {m : Module} (read : ofWords words = .ok m) : ∀ i ∈ m.globals, P i := by
  obtain ⟨⟨header, rest⟩, _, read⟩ := bind_eq_ok.mp read
  obtain ⟨d, done, finished⟩ := bind_eq_ok.mp read
  have filed := forall_filed_of_readInstructions reads done (by simp [Draft.ofHeader])
  have whole : d.module = m := by
    have finished' := mapError_eq_ok.mp finished
    unfold Draft.finish at finished'
    split at finished'
    · cases finished'
    · cases finished'
    · exact Except.ok.inj finished'
  intro i hi
  obtain ⟨p, hp, rfl⟩ := List.mem_map.mp hi
  exact filed p (whole ▸ (List.mem_filter.mp hp).1)

end Filing

section Operands

variable {types : NumericTypes} {type : Option Id} {number : Nat}

private theorem exists_id_of_operand {c c' : Cursor} {operands : List Operand}
    (done : Cursor.operand .id c = .ok (operands, c')) : ∃ id, operands = [.id id] := by
  unfold Cursor.operand at done
  obtain ⟨⟨taken, after⟩, first, done⟩ := bind_eq_ok.mp done
  obtain ⟨⟨w, after'⟩, _, taken'⟩ := bind_eq_ok.mp first
  obtain ⟨rfl, rfl⟩ := Prod.mk.inj (pure_eq_ok.mp taken')
  obtain ⟨⟨more, last⟩, rest, done⟩ := bind_eq_ok.mp done
  obtain ⟨rfl, rfl⟩ := Prod.mk.inj (Except.ok.inj rest)
  obtain ⟨rfl, rfl⟩ := Prod.mk.inj (pure_eq_ok.mp done)
  exact ⟨w, rfl⟩

private theorem exists_ids_of_readOperands {steps count : Nat} (enough : count ≤ steps) {c c' : Cursor} {operands : List Operand}
    (done : readOperands types type number steps (List.replicate count (.id, .one)) c = .ok (operands, c')) :
    ∃ ids : List Id, ids.length = count ∧ operands = ids.map Operand.id := by
  induction count generalizing steps c operands with
  | zero =>
    rw [List.replicate_zero, readOperands] at done
    obtain ⟨rfl, rfl⟩ := Prod.mk.inj (Except.ok.inj done)
    exact ⟨[], rfl, rfl⟩
  | succ count ih =>
    obtain ⟨steps, rfl⟩ : ∃ n, steps = n + 1 := ⟨steps - 1, by omega⟩
    rw [List.replicate_succ, readOperands] at done
    split at done
    · cases done
    · obtain ⟨⟨first, after⟩, read, done⟩ := bind_eq_ok.mp done
      obtain ⟨id, rfl⟩ := exists_id_of_operand (mapError_eq_ok.mp read)
      obtain ⟨⟨later, last⟩, rest, done⟩ := bind_eq_ok.mp done
      obtain ⟨rfl, rfl⟩ := Prod.mk.inj (pure_eq_ok.mp done)
      obtain ⟨ids, length, rfl⟩ := ih (by omega) rest
      exact ⟨id :: ids, by simp [length], rfl⟩

private theorem exists_ids_of_readInstruction {first : UInt32} {rest : List UInt32} {index : Nat} {i : Instruction} {c : Cursor}
    (read : readInstruction types number first rest index = .ok (i, c)) {count : Nat}
    (takes : i.op.operands = List.replicate count (.id, .one)) :
    ∃ ids : List Id, ids.length = count ∧ i.operands = ids.map Operand.id := by
  unfold readInstruction at read
  dsimp only at read
  split at read
  · exact absurd read throw_ne_ok
  · split at read
    · obtain ⟨⟨type, typed⟩, _, read⟩ := bind_eq_ok.mp read
      obtain ⟨⟨result, named⟩, _, read⟩ := bind_eq_ok.mp read
      obtain ⟨⟨operands, last⟩, taken, read⟩ := bind_eq_ok.mp read
      dsimp only at read
      split at read
      · exact absurd read throw_ne_ok
      · obtain ⟨rfl, rfl⟩ := Prod.mk.inj (pure_eq_ok.mp read)
        dsimp only at takes taken
        have few : count ≤ first.toNat / UInt16.size + (List.replicate count (OperandKind.id, Quantity.one)).length := by
          rw [List.length_replicate]
          exact Nat.le_add_left _ _
        rw [takes] at taken
        exact exists_ids_of_readOperands few taken
    · exact absurd read throw_ne_ok

end Operands

theorem Module.exists_ids_of_ofWords {words : List UInt32} {m : Module} (read : ofWords words = .ok m)
    {i : Instruction} (hi : i ∈ m.globals) (count : Nat) (takes : i.op.operands = List.replicate count (.id, .one)) :
    ∃ ids : List Id, ids.length = count ∧ i.operands = ids.map Operand.id := by
  have all := forall_globals_of_ofWords
    (fun i => ∀ count, i.op.operands = List.replicate count (.id, .one) →
      ∃ ids : List Id, ids.length = count ∧ i.operands = ids.map Operand.id)
    (fun _ _ _ _ _ _ _ read _ => exists_ids_of_readInstruction read) read
  exact all i hi count takes

end ShaderPipeline.Spirv
