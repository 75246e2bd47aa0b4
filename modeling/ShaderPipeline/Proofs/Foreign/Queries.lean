import ShaderPipeline.Foreign.Session
import ShaderPipeline.Proofs.Cache.Entries
import ShaderPipeline.Proofs.Foreign.Copying
import ShaderPipeline.Proofs.Shader.Acceptance
import ShaderPipeline.Proofs.Text.Encoded

/-!
Queries for arrays and texts, which are asked for their length and then filled.

A query has items if the object that it is about exists; an answer changes nothing but what is cached, so the next
answer is the same.  Main statement: after any calls, every query that has items tells their number, fills slots with
them or writes nothing, and the queries about sets, bindings and names of bindings speak of the same slots.
-/

set_option autoImplicit false
set_option relaxedAutoImplicit false

namespace ShaderPipeline

open Outcome

private theorem length_terminatedBytes (text : String) :
    (terminatedBytes text).length = text.utf8ByteSize + 1 := by
  rw [terminatedBytes, List.length_append, Text.length_encoded, List.length_singleton]

namespace ProcessedShader

private theorem keyed_fold {c : Catalog} {g : ShaderGroup} {p : ProcessedShader} (keyed : p.shader.Keyed)
    (ran : StageSource × Except PackError CompiledStage) : (p.fold c g ran).shader.Keyed := by
  simp only [fold]
  split
  · exact keyed
  · rename_i compiled _
    split
    · rename_i s' done
      obtain ⟨r, _, collated⟩ := (@ShaderCall.on_eq_ok _ _ (.parse _ _ compiled.binary)).mp done
      obtain ⟨_, _, blocks, _, rfl⟩ := (@Shader.collate_eq_ok p.shader s' (_, r)).mp collated
      exact keyed.enterAll r.usages
    · exact keyed

end ProcessedShader

private theorem Pack.keyed_of_process {pack : Pack} {name : String} {w w' : Workspace} {p : ProcessedShader}
    (done : pack.process name w = (.ok p, w')) : p.shader.Keyed := by
  have folded : ∀ (c : Catalog) (g : ShaderGroup)
      (results : List (StageSource × Except PackError CompiledStage)) (p : ProcessedShader),
      p.shader.Keyed → (results.foldl (.fold c g) p).shader.Keyed := by
    intro c g results p keyed
    induction results generalizing p with
    | nil => exact keyed
    | cons ran later ih => exact ih _ (ProcessedShader.keyed_fold keyed ran)
  rw [process] at done
  split at done
  · rename_i g _
    have finished := congrArg Prod.fst done
    simp only [processGroup, ProcessedShader.finish] at finished
    split at finished
    · cases finished
    · obtain rfl := Except.ok.inj finished
      exact folded _ _ _ _ SetTable.keyed_nil
  · cases congrArg Prod.fst done

namespace SourceCache

private theorem disassemblyState_keepDisassembly {c : SourceCache} {i : Identity} {binary : StoredBinary}
    (pending : c.disassemblyState i = .ok (.pending binary)) (text : String) :
    (c.keepDisassembly i binary text).disassemblyState i = .ok (.cached text) := by
  cases entry : c.entry? i with
  | none => simp [disassemblyState, entry] at pending
  | some e =>
    have held : e.binary = some binary := by
      cases made : e.disassembly <;> cases compiled : e.binary <;>
        simp_all [disassemblyState]
    have kept : entry? (c.keepDisassembly i binary text) i = some { e with disassembly := some text } := by
      simp only [keepDisassembly, entry, held, if_true, entry?_setEntry]
    simp only [disassemblyState, kept]

private theorem disassemble_again {ε : Type} {c : SourceCache} {i : Identity} {ofCache : CacheError → ε}
    {make : Binary → Except ε String} {text : String} :
    let asked := fun c : SourceCache => c.disassemble i ofCache fun binary c => (make binary, c)
    (asked c).1 = .ok text → (asked (asked c).2).1 = .ok text := by
  intro asked made
  have asked_of_cached : ∀ {c : SourceCache} {known}, c.disassemblyState i = .ok (.cached known) →
      asked c = (.ok known, c) := by
    intro c known state
    simp only [asked, disassemble, state]
  cases state : c.disassemblyState i with
  | error e => simp [asked, disassemble, state] at made
  | ok found =>
    cases found with
    | cached known => simpa only [asked_of_cached state] using made
    | pending binary =>
      cases result : make binary.words with
      | error e => simp [asked, disassemble, state, result] at made
      | ok known =>
        have first : asked c = (.ok known, c.keepDisassembly i binary known) := by
          simp only [asked, disassemble, state, result]
        rw [first] at made ⊢
        rw [asked_of_cached (disassemblyState_keepDisassembly state known)]
        exact made

end SourceCache

/-- Queries of a session, by what they are answered with. -/
inductive Query : Type → Type
  | sets : Query Nat
  | bindings (set : Nat) : Query BindingRecord
  | bindingName (set binding : Nat) : Query UInt8
  | pushRanges : Query PushRange
  | attributes : Query AttributeRecord
  | constants : Query ConstantRecord
  | errors : Query Nat
  | fullSource (name : TextArgument) (stage : UInt32) : Query UInt8
  | disassembly (name : TextArgument) (stage : UInt32) : Query UInt8
  | errorText (error : ForeignError) : Query UInt8

/-- Calls that change a session, and changes of the files by others. -/
inductive ForeignCall where
  | load (path : TextArgument) (hasOut : Bool) (options : Option LoadOptions) (compiler : Option Compiler)
  | freePack (hasHandle : Bool)
  | freeShader (hasHandle : Bool)
  | process (hasHandle : Bool) (name : TextArgument) (hasOut : Bool)
  | disassembly (hasHandle : Bool) (name : TextArgument) (stage : UInt32) (b : BufferArgument)
  | edit (change : FileTree → FileTree)

namespace ForeignSession

def on (s : ForeignSession) : ForeignCall → ForeignSession
  | .load path hasOut options compiler => (s.load path hasOut options compiler).2
  | .freePack hasHandle => (s.freePack hasHandle).2
  | .freeShader hasHandle => (s.freeShader hasHandle).2
  | .process hasHandle name hasOut => (s.process hasHandle name hasOut).2
  | .disassembly hasHandle name stage b => (s.disassembly hasHandle name stage b).2
  | .edit change => { s with files := change s.files }

def run (s : ForeignSession) (history : List ForeignCall) : ForeignSession :=
  history.foldl on s

def ask (s : ForeignSession) {α : Type} : Query α → BufferArgument → Passed α × ForeignSession
  | .sets, b => (s.sets true b, s)
  | .bindings set, b => (s.bindings true set b, s)
  | .bindingName set binding, b => (s.bindingName true set binding b, s)
  | .pushRanges, b => (s.pushRanges true b, s)
  | .attributes, b => (s.attributes true b, s)
  | .constants, b => (s.constants true b, s)
  | .errors, b => (s.errors true b, s)
  | .fullSource name stage, b => (s.fullSource true name stage b, s)
  | .disassembly name stage, b => s.disassembly true name stage b
  | .errorText error, b => (ForeignError.write (some error) b, s)

/-- What a query comes to for a caller with a memory. -/
def call (s : ForeignSession) {α : Type} (q : Query α) (m : HostMemory α) :
    Except ForeignError Unit × HostMemory α :=
  m.received (s.ask q m.argument).1

def next (s : ForeignSession) {α : Type} (q : Query α) (m : HostMemory α) : ForeignSession :=
  (s.ask q m.argument).2

def identity? (name : TextArgument) (stage : UInt32) : Option Identity := do
  let bytes ← name
  let name ← (foreignText bytes).toOption
  let stage ← (singleStage stage).toOption
  some (.ofName name stage)

/-- The items of the object that a query is about, if that exists. -/
def items? (s : ForeignSession) {α : Type} : Query α → Option (List α)
  | .sets => s.shader.map (·.shader.setNumbers)
  | .bindings set => s.shader.map fun p => (p.shader.setUsages set).map bindingRecord
  | .bindingName set binding =>
      s.shader.bind fun p => (p.shader.usageAt? (set, binding)).map fun u => terminatedBytes u.name
  | .pushRanges => s.shader.map (·.shader.pushRanges)
  | .attributes => s.shader.map fun p => p.shader.vertexAttributes.map fun a =>
      ⟨a.location, a.binding, a.format.code, a.offset⟩
  | .constants => s.shader.map fun p => p.shader.specRecords.map fun c => ⟨c.id, c.kind.number, c.value⟩
  | .errors => s.shader.map (·.errors.diagnostics.map (·.kind.code))
  | .fullSource name stage =>
      s.pack.bind fun p => (identity? name stage).bind fun i =>
        (p.cache.fullSource? i).map terminatedBytes
  | .disassembly name stage =>
      s.pack.bind fun p => (identity? name stage).bind fun i =>
        (p.pack.disassembly i (s.workspace p)).1.toOption.map terminatedBytes
  | .errorText error => some (terminatedBytes error.message)

variable {s : ForeignSession}

theorem items_of_shader {α : Type} {p : ProcessedShader} (handle : s.shader = some p)
    {find : ProcessedShader → Except ForeignError (List α)} {b : BufferArgument} (cell : b.hasCell = true) :
    s.items true b find = b.passFound (find p) := by
  simp only [items, handle, cell]
  rfl

theorem textArguments_of_identity? {p : OpenPack} (handle : s.pack = some p) {name : TextArgument}
    {stage : UInt32} {i : Identity} (named : identity? name stage = some i) {b : BufferArgument}
    (cell : b.hasCell = true) : s.textArguments true name stage b = .ok (p, i) := by
  obtain ⟨bytes, given, named⟩ := Option.bind_eq_some_iff.mp named
  obtain ⟨text, read, named⟩ := Option.bind_eq_some_iff.mp named
  obtain ⟨known, single, named⟩ := Option.bind_eq_some_iff.mp named
  obtain rfl := Option.some.inj named
  simp only [textArguments, deref, requireGiven, TextArgument.bytes, handle, given, cell, bind,
    Except.bind, pure, Except.pure, if_pos, toOption_eq_some.mp read, toOption_eq_some.mp single]

theorem ask_of_items {α : Type} {q : Query α} {items : List α} (there : s.items? q = some items)
    {b : BufferArgument} (cell : b.hasCell = true) : (s.ask q b).1 = b.pass items := by
  cases q with
  | sets | bindings | pushRanges | attributes | constants | errors =>
    obtain ⟨p, handle, rfl⟩ := Option.map_eq_some_iff.mp there
    exact items_of_shader handle cell
  | bindingName set binding =>
    obtain ⟨p, handle, there⟩ := Option.bind_eq_some_iff.mp there
    obtain ⟨u, found, rfl⟩ := Option.map_eq_some_iff.mp there
    refine (items_of_shader handle cell).trans ?_
    simp only [found]
    rfl
  | fullSource name stage =>
    obtain ⟨p, handle, there⟩ := Option.bind_eq_some_iff.mp there
    obtain ⟨i, named, there⟩ := Option.bind_eq_some_iff.mp there
    obtain ⟨text, cached, rfl⟩ := Option.map_eq_some_iff.mp there
    simp only [ask, fullSource, textArguments_of_identity? handle named cell, cached, bind, Except.bind]
    rfl
  | disassembly name stage =>
    obtain ⟨p, handle, there⟩ := Option.bind_eq_some_iff.mp there
    obtain ⟨i, named, there⟩ := Option.bind_eq_some_iff.mp there
    obtain ⟨text, made, rfl⟩ := Option.map_eq_some_iff.mp there
    simp only [ask, disassembly, textArguments_of_identity? handle named cell, toOption_eq_some.mp made]
    rfl
  | errorText error =>
    obtain rfl := Option.some.inj there
    simp only [ask, ForeignError.write, cell]
    rfl

theorem items_next {α : Type} {q : Query α} {items : List α} (there : s.items? q = some items)
    (m : HostMemory α) : (s.next q m).items? q = some items := by
  cases q with
  | disassembly name stage =>
    obtain ⟨p, handle, there⟩ := Option.bind_eq_some_iff.mp there
    obtain ⟨i, named, there⟩ := Option.bind_eq_some_iff.mp there
    obtain ⟨text, made, rfl⟩ := Option.map_eq_some_iff.mp there
    have after : s.next (.disassembly name stage) m =
        s.after p (p.pack.disassembly i (s.workspace p)).2 := by
      have asked : s.textArguments true name stage m.argument = .ok (p, i) :=
        textArguments_of_identity? handle named rfl
      simp only [next, ask, disassembly, asked]
    have again := SourceCache.disassemble_again (toOption_eq_some.mp made)
    rw [after]
    simp only [items?, ForeignSession.after, named, Option.bind_some]
    exact congrArg (Option.map terminatedBytes) (toOption_eq_some.mpr again)
  | _ => exact there

/-- Whether the tables of the processed shader, if there is one, have everything under its own keys. -/
def IsKeyed (s : ForeignSession) : Prop :=
  ∀ p, s.shader = some p → p.shader.Keyed

private theorem shader_on (s : ForeignSession) (call : ForeignCall) :
    (s.on call).shader = s.shader ∨ (s.on call).shader = none ∨
      ∃ (pack : Pack) (name : String) (w w' : Workspace) (p : ProcessedShader),
        pack.process name w = (.ok p, w') ∧ (s.on call).shader = some p := by
  have closed : ∀ s' : ForeignSession, s'.withoutPack.shader = s'.shader := by
    intro s'
    rw [withoutPack]
    split <;> rfl
  cases call with
  | edit change => exact .inl rfl
  | load path hasOut options compiler =>
    refine .inl ?_
    simp only [ForeignSession.on, load]
    split
    · rfl
    · split
      · exact closed _
      · rfl
  | freePack hasHandle =>
    refine .inl ?_
    simp only [ForeignSession.on, freePack]
    split
    · exact closed s
    · rfl
  | freeShader hasHandle =>
    simp only [ForeignSession.on, freeShader]
    split
    · exact .inr (.inl rfl)
    · exact .inl rfl
  | process hasHandle name hasOut =>
    simp only [ForeignSession.on, process]
    split
    · exact .inl rfl
    · split
      · rename_i _ _ _ done
        exact .inr (.inr ⟨_, _, _, _, _, done, rfl⟩)
      · exact .inl rfl
  | disassembly hasHandle name stage b =>
    refine .inl ?_
    simp only [ForeignSession.on, disassembly]
    split <;> rfl

/-- What holds of every shader that is processed holds of the processed shader after any calls. -/
theorem forall_shader_run {P : ProcessedShader → Prop}
    (made : ∀ (pack : Pack) name w w' p, pack.process name w = (.ok p, w') → P p)
    (h : ∀ p, s.shader = some p → P p) (history : List ForeignCall) :
    ∀ p, (s.run history).shader = some p → P p := by
  induction history generalizing s with
  | nil => exact h
  | cons call later ih =>
    refine ih fun p handle => ?_
    rcases s.shader_on call with same | freed | ⟨pack, name, w, w', p', done, stored⟩
    · exact h p (same ▸ handle)
    · exact absurd (freed.symm.trans handle) nofun
    · obtain rfl := Option.some.inj (stored.symm.trans handle)
      exact made pack name w w' p' done

theorem IsKeyed.run (h : s.IsKeyed) (history : List ForeignCall) : (s.run history).IsKeyed :=
  forall_shader_run (fun _ _ _ _ _ done => Pack.keyed_of_process done) h history

/-- How what is told of sets, bindings and names of bindings agrees. -/
structure SlotsAgree (s : ForeignSession) (numbers : List Nat) (records : Nat → List BindingRecord) :
    Prop where
  sets : s.items? .sets = some numbers
  bindings : ∀ set, s.items? (.bindings set) = some (records set)
  setsAscend : numbers.Pairwise (· < ·)
  bindingsAscend : ∀ set, ((records set).map (·.binding)).Pairwise (· < ·)
  /-- A slot that is listed has a name. -/
  named : ∀ set ∈ numbers, ∀ record ∈ records set, ∃ name : String,
    s.items? (.bindingName set record.binding) = some (terminatedBytes name)
  /-- Any other slot is not found, and nothing is written. -/
  others : ∀ set binding, ¬ (set ∈ numbers ∧ ∃ record ∈ records set, record.binding = binding) →
    ∀ m, s.call (.bindingName set binding) m = (.error .notFound, m)

private theorem listed_iff {shader : Shader} (keyed : shader.Keyed) {set binding : Nat} :
    (set ∈ shader.setNumbers ∧
      ∃ record ∈ (shader.setUsages set).map bindingRecord, record.binding = binding) ↔
      ∃ u, shader.Holds set binding u := by
  simp only [Shader.setNumbers, List.mem_map, Shader.Holds]
  constructor
  · rintro ⟨⟨d, hd, rfl⟩, _, ⟨u, hu, rfl⟩, rfl⟩
    exact ⟨u, d, hd, rfl, keyed.setUsages_of_mem hd ▸ hu, rfl⟩
  · rintro ⟨u, d, hd, rfl, hu, rfl⟩
    exact ⟨⟨d, hd, rfl⟩, _, ⟨u, (keyed.setUsages_of_mem hd).symm ▸ hu, rfl⟩, rfl⟩

private theorem IsKeyed.slotsAgree (h : s.IsKeyed) {p : ProcessedShader} (handle : s.shader = some p) :
    s.SlotsAgree p.shader.setNumbers fun set => (p.shader.setUsages set).map bindingRecord := by
  have keyed : p.shader.Keyed := h p handle
  refine
    { sets := by simp [items?, handle]
      bindings := fun set => by simp [items?, handle]
      setsAscend := keyed.setNumbers_increasing
      bindingsAscend := fun set => ?_
      named := fun set hs record hr => ?_
      others := fun set binding unlisted m => ?_ }
  · rw [List.map_map]
    exact keyed.setUsages_increasing set
  · obtain ⟨u, held⟩ := (listed_iff keyed).mp ⟨hs, record, hr, rfl⟩
    have found := keyed.holds_iff.mp held
    exact ⟨u.name, by simp [items?, handle, found]⟩
  · have absent : p.shader.usageAt? (set, binding) = none := by
      refine Option.eq_none_iff_forall_not_mem.mpr fun u found => unlisted ((listed_iff keyed).mpr ⟨u, ?_⟩)
      exact keyed.holds_iff.mpr found
    have passed : (s.ask (.bindingName set binding) m.argument).1 = (.error .notFound, m.cell) := by
      refine (items_of_shader handle rfl).trans ?_
      simp only [absent]
      rfl
    rw [call, passed]
    rfl

/-- After any calls, a query whose object exists answers with its items, and goes on to do so after it was asked; so
when it was asked for the number of its items, that many slots are filled with them.  What is told of the sets, the
bindings and the names of a processed shader agrees. -/
theorem queries_answer_and_agree (n : Installation) (environment : String → Option String) (files : FileTree)
    (history : List ForeignCall) :
    let s := (start n environment files).run history
    (∀ (α : Type) (q : Query α) items, s.items? q = some items →
      Answers (s.call q) items ∧ (∀ m, Answers ((s.next q m).call q) items) ∧
        ∀ cell held, items.length ≤ held.length →
          (s.next q ⟨none, cell⟩).call q ⟨some held, (s.call q ⟨none, cell⟩).2.cell⟩ =
            (.ok (), ⟨some (items ++ held.drop items.length), items.length⟩)) ∧
      (∀ text, (terminatedBytes text).length = text.utf8ByteSize + 1) ∧
        ∀ p, s.shader = some p →
          s.SlotsAgree p.shader.setNumbers fun set => (p.shader.setUsages set).map bindingRecord := by
  intro s
  have keyed : s.IsKeyed := IsKeyed.run (nofun : (start n environment files).IsKeyed) history
  refine ⟨fun α q items there => ?_, length_terminatedBytes, fun p handle => keyed.slotsAgree handle⟩
  have answers : ∀ {s : ForeignSession}, s.items? q = some items → Answers (s.call q) items :=
    fun there => .of_pass fun b cell => ask_of_items there cell
  have again : ∀ m, Answers ((s.next q m).call q) items := fun m => answers (items_next there m)
  refine ⟨answers there, again, fun cell held room => ?_⟩
  rw [(answers there).query cell]
  exact (again ⟨none, cell⟩).fill held items.length (Nat.le_refl _) room

def moonDocument : String :=
  "\x7b\"shader_groups\": [\x7b\"name\": \"moon\", \"stages\": [\x7b\"stage\": \"vertex\", \"body\": \"moon.vert\"\x7d]\x7d], \"resource_groups\": []\x7d"

def moonFiles : FileTree :=
  ((FileTree.empty.write ⟨"catalog.json"⟩ moonDocument.toUTF8 0).2.write
    ⟨"moon.vert"⟩ "void main() {}".toUTF8 0).2

/-- A module with a buffer `lamp` at binding 2 of set 1. -/
def moonWords : List UInt32 :=
  [0x07230203, 0x00010000, 0, 5, 0,
    0x00040005, 4, 0x706d616c, 0,
    0x00030047, 2, 2,
    0x00050048, 2, 0, 35, 0,
    0x00040047, 4, 34, 1,
    0x00040047, 4, 33, 2,
    0x00030016, 1, 32,
    0x0003001e, 2, 1,
    0x00040020, 3, 2, 2,
    0x0004003b, 3, 4, 2]

/-- A session that loads the catalog of the moon and processes its shader. -/
def moonCalls : List ForeignCall :=
  [.load (some "catalog.json".toUTF8.toList) true none
      (some ⟨fun _ => .ok moonWords, fun _ _ => .ok "lamp"⟩),
    .process true (some "moon".toUTF8.toList) true]

def moon : ForeignSession :=
  (start ⟨"shaders", "shaders.db", "LIBRARY", "STORE"⟩ (fun _ => none) moonFiles).run moonCalls

-- The session is run once for all three: the kernel keeps what it has evaluated within one declaration.
theorem moon_answers :
    moon.shader.map (fun p => (p.shader.setNumbers, (p.shader.setUsages 1).map (·.binding))) = some ([1], [2]) ∧
      moon.items? (.bindingName 1 2) = some (terminatedBytes "lamp") ∧
      moon.items? (.disassembly (some "moon".toUTF8.toList) 1) = some (terminatedBytes "lamp") := by
  decide +kernel

/-- The name of the lamp has four bytes, and so has what its module is disassembled to; nothing is at the binding behind
it. -/
theorem queries_answer_and_agree_of_moon :
    moon.call (.bindingName 1 2) ⟨none, 0⟩ = (.ok (), ⟨none, 5⟩) ∧
      moon.call (.bindingName 1 2) ⟨some (List.replicate 8 7), 6⟩ =
        (.ok (), ⟨some [108, 97, 109, 112, 0, 7, 7, 7], 5⟩) ∧
      moon.call (.bindingName 1 2) ⟨some (List.replicate 8 7), 4⟩ =
        (.error (.bufferTooSmall 5 4), ⟨some (List.replicate 8 7), 4⟩) ∧
      moon.call (.bindingName 1 3) ⟨none, 0⟩ = (.error .notFound, ⟨none, 0⟩) ∧
      let disassembly := .disassembly (some "moon".toUTF8.toList) 1
      (moon.next disassembly ⟨none, 0⟩).call disassembly ⟨some [7, 7, 7, 7, 7], 5⟩ =
        (.ok (), ⟨some [108, 97, 109, 112, 0], 5⟩) := by
  obtain ⟨answered, _, agree⟩ := queries_answer_and_agree ⟨"shaders", "shaders.db", "LIBRARY", "STORE"⟩
    (fun _ => none) moonFiles moonCalls
  have five : terminatedBytes "lamp" = [108, 97, 109, 112, 0] := by decide +kernel
  obtain ⟨slots, named, disassembled⟩ := moon_answers
  obtain ⟨lamp, _, _⟩ := answered UInt8 (.bindingName 1 2) _ named
  obtain ⟨_, again, _⟩ := answered UInt8 _ _ disassembled
  rw [five] at lamp again
  refine ⟨lamp.query 0, lamp.fill _ 6 (by decide) (by decide), lamp.refuse _ 4 (by decide) (by decide), ?_,
    (again ⟨none, 0⟩).fill _ 5 (by decide) (by decide)⟩
  obtain ⟨p, handle, listed⟩ := Option.map_eq_some_iff.mp slots
  refine (agree p handle).others 1 3 ?_ _
  rintro ⟨_, record, hr, same⟩
  obtain ⟨u, hu, rfl⟩ := List.mem_map.mp hr
  have bound : u.binding ∈ (p.shader.setUsages 1).map (·.binding) := List.mem_map_of_mem hu
  have two : u.binding = 2 := by simpa [(Prod.mk.inj listed).2] using bound
  exact absurd (two.symm.trans same) (by decide)

end ForeignSession

end ShaderPipeline
