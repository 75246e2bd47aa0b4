import ShaderPipeline.Proofs.Outcome
import ShaderPipeline.Source.Generation

/-!
What a generation reads.

A generation looks at the time and text of its body and at the files that include directives lead to, and at
nothing else.  What it finds is its view of the files.  Main statements: a view depends only on what the
directives of the body ask for, and no database that the body and its includes keep away from has a part in it.
-/

set_option autoImplicit false
set_option relaxedAutoImplicit false

namespace ShaderPipeline

open Outcome

private theorem Outcome.mapM_congr {ε α β : Type} {f g : α → Except ε β} {l : List α}
    (same : ∀ a ∈ l, f a = g a) : l.mapM f = l.mapM g := by
  induction l with
  | nil => rfl
  | cons a l ih =>
    obtain ⟨first, later⟩ := List.forall_mem_cons.mp same
    rw [List.mapM_cons, List.mapM_cons, first, ih later]

namespace FileTree

/-- Trees that differ in nothing but what databases hold. -/
def AgreesWith (t t' : FileTree) : Prop :=
  ∃ databases, t' = { t with databases }

/-- Whether what stands at a path is no journal of a database. -/
def IsPlain (t : FileTree) (p : Path) : Prop :=
  ∀ number, t.node p ≠ .ok (.journal number)

variable {t t' t'' : FileTree} {p : Path}

theorem AgreesWith.refl (t : FileTree) : t.AgreesWith t := ⟨t.databases, rfl⟩

theorem AgreesWith.trans (first : t.AgreesWith t') (second : t'.AgreesWith t'') :
    t.AgreesWith t'' := by
  obtain ⟨_, rfl⟩ := first
  obtain ⟨databases, rfl⟩ := second
  exact ⟨databases, rfl⟩

theorem agreesWith_setDatabase (t : FileTree) (number : Nat) (database : Database) :
    t.AgreesWith (t.setDatabase number database) := ⟨_, rfl⟩

private theorem follow_databases (t : FileTree) (databases : List Database) (place : Place)
    (segments : List String) :
    follow { t with databases } place segments = t.follow place segments := by
  induction segments generalizing place with
  | nil => rfl
  | cons segment rest ih =>
    have node : nodeAt { t with databases } place = t.nodeAt place := rfl
    simp only [follow, node, ih]

private theorem AgreesWith.node_eq (h : t.AgreesWith t') (p : Path) : t'.node p = t.node p := by
  obtain ⟨databases, rfl⟩ := h
  have segments : segmentsFromTop { t with databases } p = t.segmentsFromTop p := rfl
  simp only [node, place, segments, follow_databases]
  rfl

private theorem AgreesWith.isFile_eq (h : t.AgreesWith t') (p : Path) : t'.isFile p = t.isFile p := by
  rw [isFile, h.node_eq, isFile]

theorem AgreesWith.modificationTime_eq (h : t.AgreesWith t') (p : Path) :
    t'.modificationTime p = t.modificationTime p := by
  rw [modificationTime, modified, h.node_eq, modificationTime, modified]

theorem AgreesWith.readText_eq (h : t.AgreesWith t') (plain : t.IsPlain p) :
    t'.readText p = t.readText p := by
  have bytes_eq : t'.bytes p = t.bytes p := by
    rw [bytes, h.node_eq, bytes]
    cases stands : t.node p with
    | error fault => rfl
    | ok node =>
      cases node with
      | journal number => exact absurd stands (plain number)
      | _ => rfl
  rw [readText, text, bytes_eq, readText, text]

theorem isPlain_of_readText {text : String} (read : t.readText p = .ok text) (some' : text ≠ "") :
    t.IsPlain p := by
  intro number stands
  obtain ⟨bytes, found, decoded⟩ := bind_eq_ok.mp (mapError_eq_ok.mp read)
  have journal : bytes = .empty := by
    simp only [FileTree.bytes, stands, bind, Except.bind] at found
    split at found
    · exact (pure_eq_ok.mp found).symm
    · exact absurd found throw_ne_ok
  subst journal
  have blank : String.fromUTF8? .empty = some "" := by decide +kernel
  simp only [blank] at decoded
  exact some' (pure_eq_ok.mp decoded).symm

end FileTree

namespace IncludePlan

variable {plan : IncludePlan} {files files' : FileTree} {path : Path} {text : String}

/-- Whether splicing the includes of a text that stands at a path comes to ask for a target in a file. -/
inductive Asks (plan : IncludePlan) (files : FileTree) : Path → String → Include → Path → Prop
  | here {path : Path} {text line : String} {target : Include} :
      line ∈ Text.lines text →
      (Directive.recognizeInclude line.toList).value? line = .ok (some target) →
      Asks plan files path text target path
  | inside {path found includer : Path} {text line included : String} {target inner : Include} :
      line ∈ Text.lines text →
      (Directive.recognizeInclude line.toList).value? line = .ok (some target) →
      plan.fetch files target path = .ok (found, included) →
      Asks plan files found included inner includer →
      Asks plan files path text inner includer

theorem not_asks {target : Include} {includer : Path}
    (bare : ∀ line ∈ Text.lines text,
      (Directive.recognizeInclude line.toList).value? line = .ok none) :
    ¬ plan.Asks files path text target includer := by
  intro asks
  cases asks with
  | here listed named => exact nomatch (bare _ listed).symm.trans named
  | inside listed named _ _ => exact nomatch (bare _ listed).symm.trans named

private theorem splice_congr {levels : Nat}
    (same : ∀ target includer, plan.Asks files path text target includer →
      plan.fetch files' target includer = plan.fetch files target includer) :
    plan.splice files' levels path text = plan.splice files levels path text := by
  induction levels generalizing path text with
  | zero => rfl
  | succ levels ih =>
    rw [splice, splice]
    congr 1
    refine mapM_congr fun (line, index) member => ?_
    have listed : line ∈ Text.lines text := List.fst_mem_of_mem_zipIdx member
    simp only [bind, Except.bind]
    cases named : (Directive.recognizeInclude line.toList).value? line with
    | error e => rfl
    | ok target =>
      cases target with
      | none => rfl
      | some target =>
        simp only [same target path (.here listed named)]
        cases fetched : plan.fetch files target path with
        | error e => rfl
        | ok file =>
          obtain ⟨found, included⟩ := file
          have inner : plan.splice files' levels found included =
              plan.splice files levels found included :=
            ih fun target includer asks => same target includer (.inside listed named fetched asks)
          simp only [inner]

private theorem expand_congr
    (same : ∀ target includer, plan.Asks files path text target includer →
      plan.fetch files' target includer = plan.fetch files target includer) :
    plan.expand files' path text = plan.expand files path text := by
  rw [expand, splice_congr same, expand]

private theorem resolve?_eq (h : files.AgreesWith files') (target : Include) (includer : Path) :
    plan.resolve? files' target includer = plan.resolve? files target includer := by
  have isFile : files'.isFile = files.isFile := funext h.isFile_eq
  rw [resolve?, isFile, resolve?]

/-- What an include finds is the same where databases alone differ, unless it finds a journal. -/
theorem fetch_eq (h : files.AgreesWith files') {target : Include} {includer : Path}
    (plain : ∀ q, plan.resolve? files target includer = some q → files.IsPlain q) :
    plan.fetch files' target includer = plan.fetch files target includer := by
  rw [fetch, resolve?_eq h, fetch]
  cases resolved : plan.resolve? files target includer with
  | none => rfl
  | some q => simp only [h.readText_eq (plain q resolved)]

end IncludePlan

namespace StageRequest

variable {r : StageRequest} {options : SourceOptions} {files files' : FileTree} {body : String}

/-- Whether the includes of a body lead to the same files. -/
def SameIncludes (r : StageRequest) (options : SourceOptions) (files files' : FileTree)
    (body : String) : Prop :=
  ∀ target includer, (r.includePlan options).Asks files r.path body target includer →
    (r.includePlan options).fetch files' target includer =
      (r.includePlan options).fetch files target includer

/-- Whether neither a body nor what it includes is a journal of a database. -/
structure KeepsApart (r : StageRequest) (options : SourceOptions) (files : FileTree) : Prop where
  body : files.IsPlain r.path
  includes : ∀ body, files.readText r.path = .ok body → ∀ target includer q,
    (r.includePlan options).Asks files r.path body target includer →
      (r.includePlan options).resolve? files target includer = some q → files.IsPlain q

theorem assemble_congr {catalog : Catalog} (same : r.SameIncludes options files files' body) :
    r.assemble catalog options files' body = r.assemble catalog options files body := by
  rw [assemble, IncludePlan.expand_congr same, assemble]

end StageRequest

/-- What a generation finds: when the body was last changed, its text, and the source that it comes to. -/
@[ext]
structure View where
  time : Except CacheError Int
  body : Except CacheError String
  source : Except SourceError AssembledSource

namespace Generation

variable {g : Generation} {files files' : FileTree}

def view (g : Generation) (files : FileTree) : View :=
  { time := files.modificationTime g.request.path
    body := files.readText g.request.path
    source :=
      match files.readText g.request.path with
      | .ok body => g.request.assemble g.catalog g.options files body
      | .error e => .error (.ofBodyAccess g.request.path e) }

theorem view_source_of_body {body : String} (read : (g.view files).body = .ok body) :
    (g.view files).source = g.request.assemble g.catalog g.options files body := by
  have read : files.readText g.request.path = .ok body := read
  simp only [view, read]

/-- Bodies that read the same and whose includes lead to the same files come to the same source. -/
theorem view_source_eq (text : (g.view files').body = (g.view files).body)
    (includes : ∀ body, (g.view files).body = .ok body →
      g.request.SameIncludes g.options files files' body) :
    (g.view files').source = (g.view files).source := by
  cases read : (g.view files).body with
  | error e =>
    have here : files.readText g.request.path = .error e := read
    have there : files'.readText g.request.path = .error e := text.trans read
    simp only [view, here, there]
  | ok body =>
    rw [view_source_of_body read, view_source_of_body (text.trans read)]
    exact StageRequest.assemble_congr (includes body read)

theorem view_eq (h : files.AgreesWith files') (apart : g.request.KeepsApart g.options files) :
    g.view files' = g.view files := by
  have time : (g.view files').time = (g.view files).time := h.modificationTime_eq _
  have text : (g.view files').body = (g.view files).body := h.readText_eq apart.body
  have source : (g.view files').source = (g.view files).source := by
    refine view_source_eq text fun body read target includer asks => ?_
    exact IncludePlan.fetch_eq h (apart.includes body read target includer · asks)
  exact View.ext time text source

end Generation

end ShaderPipeline
