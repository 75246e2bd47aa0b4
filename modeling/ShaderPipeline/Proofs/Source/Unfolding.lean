import ShaderPipeline.Proofs.Source.Markers

/-!
The unfolding of a body: its lines, and in place of each include the lines of the file that it finds.

A line of the unfolding stands at a place, the numbers of the includes that lead to it and its own number, so that
places in the order of the document are lists of numbers in the order of dictionaries.  An include can be at fault in
a few ways, one of which is that it is nested too deeply.  Where includes lead in a circle the unfolding has no end,
but a fault.  Main statement: splicing succeeds exactly when nothing in the unfolding is at fault, and else fails with
the first fault.
-/

set_option autoImplicit false
set_option relaxedAutoImplicit false

namespace ShaderPipeline

open Outcome

namespace Outcome

variable {ε α β : Type} {f : α → Except ε β} {l : List α}

private theorem ok_of_mapM_eq_ok {l' : List β} (done : l.mapM f = .ok l') : ∀ a ∈ l, ∃ b, f a = .ok b := by
  induction mapM_eq_ok.mp done with
  | nil => exact nofun
  | cons first rest ih => exact List.forall_mem_cons.mpr ⟨⟨_, first⟩, ih (mapM_eq_ok.mpr rest)⟩

private theorem exists_of_mapM_eq_error {e : ε} (failed : l.mapM f = .error e) :
    ∃ (i : Nat) (a : α), l[i]? = some a ∧ f a = .error e ∧ ∀ j < i, ∀ a', l[j]? = some a' → ∃ b, f a' = .ok b := by
  induction l with
  | nil => cases failed
  | cons first rest ih =>
    rw [List.mapM_cons] at failed
    cases own : f first with
    | error e' =>
      rw [own] at failed
      cases failed
      exact ⟨0, first, rfl, own, nofun⟩
    | ok b =>
      cases later : rest.mapM f with
      | ok bs =>
        rw [own, later] at failed
        cases failed
      | error e' =>
        rw [own, later] at failed
        cases failed
        obtain ⟨i, a, known, fails, before⟩ := ih later
        refine ⟨i + 1, a, known, fails, ?_⟩
        intro j hj a' known'
        cases j with
        | zero =>
          cases known'
          exact ⟨b, own⟩
        | succ j => exact before j (Nat.lt_of_succ_lt_succ hj) a' known'

/-- Whether a computation fails exactly if there are faults, and with the first of them. -/
def Decides (faults : List Nat → ε → Prop) : Except ε α → Prop
  | .ok _ => ∀ place e, ¬ faults place e
  | .error e => ∃ place, faults place e ∧ ∀ earlier < place, ∀ e', ¬ faults earlier e'

variable {faults : List Nat → ε → Prop} {x : Except ε α}

theorem Decides.map {g : α → β} (h : Decides faults x) : Decides faults (x.map g) := by
  cases x <;> exact h

private theorem Decides.ok_iff (h : Decides faults x) : (∃ a, x = .ok a) ↔ ∀ place e, ¬ faults place e := by
  cases x with
  | ok a => exact ⟨fun _ => h, fun _ => ⟨a, rfl⟩⟩
  | error e =>
    obtain ⟨place, here, _⟩ := h
    exact ⟨nofun, fun none => absurd here (none place e)⟩

private theorem Decides.error_iff (h : Decides faults x) (unique : ∀ place e e', faults place e → faults place e' → e = e')
    (e : ε) : x = .error e ↔ ∃ place, faults place e ∧ ∀ earlier < place, ∀ e', ¬ faults earlier e' := by
  cases x with
  | ok a => exact ⟨nofun, fun ⟨place, here, _⟩ => absurd here (h place e)⟩
  | error first =>
    constructor
    · rintro ⟨⟩
      exact h
    · rintro ⟨place, here, before⟩
      obtain ⟨place', here', before'⟩ := h
      rcases lt_trichotomy place place' with earlier | rfl | later
      · exact absurd here (before' place earlier e)
      · rw [unique place first e here' here]
      · exact absurd here' (before place' later first)

end Outcome

structure SourceLine where
  file : Path
  number : Nat
  text : String
  deriving DecidableEq, Repr

/-- What splicing writes: a line of a file, or a mark that a file goes on from a line. -/
inductive Entry where
  | line (line : SourceLine)
  | mark (number : Nat) (file : Path)
  deriving DecidableEq, Repr

namespace Entry

def text : Entry → String
  | line l => l.text
  | mark number file => lineMark number file.markName

def line? : Entry → Option SourceLine
  | line l => some l
  | mark _ _ => none

/-- Whether every line of a file among some entries has the name and number that it is counted to have, from a name
and a number on. -/
def Counted : String → Nat → List Entry → Prop
  | _, _, [] => True
  | name, number, line l :: rest => l.file.markName = name ∧ l.number = number ∧ Counted name (number + 1) rest
  | _, _, mark number file :: rest => Counted file.markName number rest

private theorem counted_append_mark {name : String} {number number' : Nat} {file : Path} {entries later : List Entry} :
    Counted name number (entries ++ mark number' file :: later) ↔
      Counted name number entries ∧ Counted file.markName number' later := by
  induction entries generalizing name number with
  | nil => exact (iff_of_eq (true_and _)).symm
  | cons entry entries ih =>
    cases entry with
    | line l => simp only [List.cons_append, Counted, ih, and_assoc]
    | mark n f => exact ih

private theorem map_text_of_lines {entries : List Entry} (lines : ∀ entry ∈ entries, ∃ l, entry = .line l) :
    entries.map Entry.text = (entries.filterMap Entry.line?).map SourceLine.text := by
  induction entries with
  | nil => rfl
  | cons entry entries ih =>
    obtain ⟨⟨l, rfl⟩, others⟩ := List.forall_mem_cons.mp lines
    exact congrArg (l.text :: ·) (ih others)

end Entry

namespace IncludePlan

variable {plan : IncludePlan} {files : FileTree} {path includer found : Path} {target : Include}
  {line text : String} {depth : Nat} {e : SourceError}

/-- Whether an include finds a file: one of the library under its root, any other in the first directory that has a
file of its name. -/
inductive Finds (plan : IncludePlan) (files : FileTree) (includer : Path) : Include → Path → Prop
  | library {name : String} {root : Path} (known : plan.libraryRoot = some root)
      (present : files.isFile (root.join name)) : Finds plan files includer ⟨name, true⟩ (root.join name)
  | quoted {name : String} {before after : List Path} {directory : Path}
      (listed : plan.searchPaths ++ includer.parent?.toList = before ++ directory :: after)
      (absent : ∀ earlier ∈ before, ¬ files.isFile (earlier.join name))
      (present : files.isFile (directory.join name)) :
      Finds plan files includer ⟨name, false⟩ (directory.join name)

/-- Whether an include is at fault at a depth: it is malformed, it finds no file that can be read, or it is nested too
deeply. -/
inductive Faults (plan : IncludePlan) (files : FileTree) (includer : Path) (line : String) (depth : Nat) :
    SourceError → Prop
  | malformed (recognized : Directive.recognizeInclude line.toList = .malformed) :
      Faults plan files includer line depth (.malformedDirective (Text.trim line))
  | missing {target : Include} (recognized : Directive.recognizeInclude line.toList = .directive target)
      (nowhere : ∀ found, ¬ plan.Finds files includer target found) :
      Faults plan files includer line depth (.missingInclude target.name includer)
  | gone {target : Include} {found path : Path}
      (recognized : Directive.recognizeInclude line.toList = .directive target)
      (finds : plan.Finds files includer target found) (read : files.readText found = .error (.pathMissing path)) :
      Faults plan files includer line depth (.missingInclude target.name includer)
  | unreadable {target : Include} {found : Path} {error : CacheError}
      (recognized : Directive.recognizeInclude line.toList = .directive target)
      (finds : plan.Finds files includer target found) (read : files.readText found = .error error)
      (present : ∀ path, error ≠ .pathMissing path) : Faults plan files includer line depth (.cache error)
  | tooDeep {target : Include} {found : Path} {text : String}
      (recognized : Directive.recognizeInclude line.toList = .directive target)
      (finds : plan.Finds files includer target found) (read : files.readText found = .ok text)
      (deep : includeDepthLimit < depth) : Faults plan files includer line depth (.includesTooDeep found)

/-- Whether a line of a file stands at a place of the unfolding of a text. -/
inductive Stands (plan : IncludePlan) (files : FileTree) : Path → String → List Nat → Path → String → Prop
  | here {path : Path} {text line : String} {i : Nat} (listed : (Text.lines text)[i]? = some line) :
      Stands plan files path text [i] path line
  | inside {path found includer : Path} {text line included line' : String} {i : Nat} {place : List Nat}
      {target : Include} (listed : (Text.lines text)[i]? = some line)
      (recognized : Directive.recognizeInclude line.toList = .directive target)
      (finds : plan.Finds files path target found) (read : files.readText found = .ok included)
      (stands : Stands plan files found included place includer line') :
      Stands plan files path text (i :: place) includer line'

/-- Whether something at fault stands at a place of the unfolding of a text that is itself at a depth. -/
def FaultsAt (plan : IncludePlan) (files : FileTree) (depth : Nat) (path : Path) (text : String) (place : List Nat)
    (e : SourceError) : Prop :=
  ∃ includer line, plan.Stands files path text place includer line ∧
    plan.Faults files includer line (depth + place.length) e

theorem resolve?_eq_some :
    plan.resolve? files target includer = some found ↔ plan.Finds files includer target found := by
  obtain ⟨name, library⟩ := target
  rw [resolve?, candidates]
  cases library with
  | true =>
    rw [if_pos rfl]
    constructor
    · intro resolved
      cases known : plan.libraryRoot with
      | none => simp [known] at resolved
      | some root =>
        simp only [known, Option.toList_some, List.map_cons, List.map_nil, List.find?_singleton] at resolved
        split at resolved
        · rename_i present
          cases resolved
          exact .library known present
        · cases resolved
    · rintro ⟨known, present⟩
      simp [known, present]
  | false =>
    rw [if_neg Bool.false_ne_true, List.find?_map, Option.map_eq_some_iff]
    simp only [List.find?_eq_some_iff_append]
    constructor
    · rintro ⟨directory, ⟨present, before, after, listed, absent⟩, rfl⟩
      exact .quoted listed (by simpa using absent) present
    · rintro (_ | ⟨listed, absent, present⟩)
      exact ⟨_, ⟨present, _, _, listed, by simpa using absent⟩, rfl⟩

theorem Finds.unique {found' : Path} (finds : plan.Finds files includer target found)
    (finds' : plan.Finds files includer target found') : found = found' := by
  have resolved := resolve?_eq_some.mpr finds
  rw [resolve?_eq_some.mpr finds'] at resolved
  exact (Option.some.inj resolved).symm

private theorem fetch_eq_ok : plan.fetch files target includer = .ok (found, text) ↔
    plan.Finds files includer target found ∧ files.readText found = .ok text := by
  rw [← resolve?_eq_some, fetch]
  cases resolved : plan.resolve? files target includer with
  | none => simp
  | some candidate =>
    rw [Option.some_inj]
    constructor
    · intro fetched
      simp only at fetched
      split at fetched
      · rename_i read
        cases fetched
        exact ⟨rfl, read⟩
      · cases fetched
      · cases fetched
    · rintro ⟨rfl, read⟩
      simp only [read]

private theorem not_faults_of_ordinary (recognized : Directive.recognizeInclude line.toList = .ordinary) :
    ¬ plan.Faults files includer line depth e := by
  intro faults
  cases faults with
  | malformed recognized' | missing recognized' | gone recognized' | unreadable recognized' | tooDeep recognized' =>
    cases recognized.symm.trans recognized'

private theorem faults_iff_of_malformed (recognized : Directive.recognizeInclude line.toList = .malformed) :
    plan.Faults files includer line depth e ↔ e = .malformedDirective (Text.trim line) := by
  constructor
  · intro faults
    cases faults with
    | malformed => rfl
    | missing recognized' | gone recognized' | unreadable recognized' | tooDeep recognized' =>
      cases recognized.symm.trans recognized'
  · rintro rfl
    exact .malformed recognized

private theorem faults_iff_of_directive (recognized : Directive.recognizeInclude line.toList = .directive target) :
    plan.Faults files includer line depth e ↔ plan.fetch files target includer = .error e ∨
      ∃ found text, plan.fetch files target includer = .ok (found, text) ∧ includeDepthLimit < depth ∧
        e = .includesTooDeep found := by
  constructor
  · intro faults
    cases faults with
    | malformed recognized' => cases recognized.symm.trans recognized'
    | missing recognized' nowhere =>
      cases recognized.symm.trans recognized'
      have resolved : plan.resolve? files target includer = none :=
        Option.eq_none_iff_forall_ne_some.mpr fun found resolved => nowhere found (resolve?_eq_some.mp resolved)
      left
      rw [fetch, resolved]
    | gone recognized' finds read =>
      cases recognized.symm.trans recognized'
      left
      rw [fetch, resolve?_eq_some.mpr finds]
      simp only [read]
    | unreadable recognized' finds read present =>
      cases recognized.symm.trans recognized'
      left
      rw [fetch, resolve?_eq_some.mpr finds]
      simp only [read]
    | tooDeep recognized' finds read deep =>
      cases recognized.symm.trans recognized'
      exact .inr ⟨_, _, fetch_eq_ok.mpr ⟨finds, read⟩, deep, rfl⟩
  · rintro (failed | ⟨found, text, fetched, deep, rfl⟩)
    · rw [fetch] at failed
      cases resolved : plan.resolve? files target includer with
      | none =>
        rw [resolved] at failed
        cases failed
        refine .missing recognized fun found finds => ?_
        cases resolved.symm.trans (resolve?_eq_some.mpr finds)
      | some found =>
        have finds := resolve?_eq_some.mp resolved
        simp only [resolved] at failed
        split at failed
        · cases failed
        · rename_i read
          cases failed
          exact .gone recognized finds read
        · rename_i present read
          cases failed
          exact .unreadable recognized finds read present
    · obtain ⟨finds, read⟩ := fetch_eq_ok.mp fetched
      exact .tooDeep recognized finds read deep

theorem Faults.unique {e' : SourceError} (faults : plan.Faults files includer line depth e)
    (faults' : plan.Faults files includer line depth e') : e = e' := by
  cases recognized : Directive.recognizeInclude line.toList with
  | ordinary => exact absurd faults (not_faults_of_ordinary recognized)
  | malformed =>
    rw [faults_iff_of_malformed recognized] at faults faults'
    rw [faults, faults']
  | directive target =>
    rw [faults_iff_of_directive recognized] at faults faults'
    rcases faults with failed | ⟨found, text, fetched, _, rfl⟩
    · rcases faults' with failed' | ⟨_, _, fetched', _⟩
      · cases failed.symm.trans failed'
        rfl
      · cases failed.symm.trans fetched'
    · rcases faults' with failed' | ⟨_, _, fetched', _, rfl⟩
      · cases fetched.symm.trans failed'
      · cases fetched.symm.trans fetched'
        rfl

private theorem stands_cons {i : Nat} {place : List Nat} {line' : String} :
    plan.Stands files path text (i :: place) includer line' ↔ ∃ line, (Text.lines text)[i]? = some line ∧
      (place = [] ∧ includer = path ∧ line' = line ∨
        ∃ target found included, Directive.recognizeInclude line.toList = .directive target ∧
          plan.fetch files target path = .ok (found, included) ∧
          plan.Stands files found included place includer line') := by
  constructor
  · rintro (listed | ⟨listed, recognized, finds, read, stands⟩)
    · exact ⟨_, listed, .inl ⟨rfl, rfl, rfl⟩⟩
    · exact ⟨_, listed, .inr ⟨_, _, _, recognized, fetch_eq_ok.mpr ⟨finds, read⟩, stands⟩⟩
  · rintro ⟨line, listed, ⟨rfl, rfl, rfl⟩ | ⟨target, found, included, recognized, fetched, stands⟩⟩
    · exact .here listed
    · obtain ⟨finds, read⟩ := fetch_eq_ok.mp fetched
      exact .inside listed recognized finds read stands

private theorem not_stands_nil : ¬ plan.Stands files path text [] includer line := nofun

theorem Stands.unique {place : List Nat} {includer' : Path} {line' : String}
    (stands : plan.Stands files path text place includer line)
    (stands' : plan.Stands files path text place includer' line') : includer = includer' ∧ line = line' := by
  induction place generalizing path text with
  | nil => exact absurd stands not_stands_nil
  | cons i place ih =>
    obtain ⟨l, listed, own⟩ := stands_cons.mp stands
    obtain ⟨l', listed', own'⟩ := stands_cons.mp stands'
    cases listed.symm.trans listed'
    rcases own with ⟨rfl, rfl, rfl⟩ | ⟨target, found, included, recognized, fetched, inner⟩
    · rcases own' with ⟨_, rfl, rfl⟩ | ⟨_, _, _, _, _, inner'⟩
      · exact ⟨rfl, rfl⟩
      · exact absurd inner' not_stands_nil
    · rcases own' with ⟨rfl, _, _⟩ | ⟨_, _, _, recognized', fetched', inner'⟩
      · exact absurd inner not_stands_nil
      · cases recognized.symm.trans recognized'
        cases fetched.symm.trans fetched'
        exact ih inner inner'

theorem FaultsAt.unique {place : List Nat} {e' : SourceError} (faults : plan.FaultsAt files depth path text place e)
    (faults' : plan.FaultsAt files depth path text place e') : e = e' := by
  obtain ⟨includer, line, stands, own⟩ := faults
  obtain ⟨includer', line', stands', own'⟩ := faults'
  obtain ⟨rfl, rfl⟩ := stands.unique stands'
  exact own.unique own'

section Line

variable {i : Nat} (listed : (Text.lines text)[i]? = some line)

include listed

private theorem faultsAt_singleton :
    plan.FaultsAt files depth path text [i] e ↔ plan.Faults files path line (depth + 1) e := by
  constructor
  · rintro ⟨includer, line', stands, faults⟩
    obtain ⟨l, listed', own⟩ := stands_cons.mp stands
    cases listed.symm.trans listed'
    rcases own with ⟨_, rfl, rfl⟩ | ⟨_, _, _, _, _, inner⟩
    · exact faults
    · exact absurd inner not_stands_nil
  · intro faults
    exact ⟨path, line, .here listed, faults⟩

private theorem faultsAt_cons_of_fetch {included : String} {j : Nat} {place : List Nat}
    (recognized : Directive.recognizeInclude line.toList = .directive target)
    (fetched : plan.fetch files target path = .ok (found, included)) :
    plan.FaultsAt files depth path text (i :: j :: place) e ↔
      plan.FaultsAt files (depth + 1) found included (j :: place) e := by
  have deeper : depth + (i :: j :: place).length = depth + 1 + (j :: place).length := by
    simp only [List.length_cons]
    omega
  rw [FaultsAt, FaultsAt, deeper]
  refine exists_congr fun includer => exists_congr fun line' => and_congr_left fun _ => ?_
  rw [stands_cons]
  constructor
  · rintro ⟨l, listed', ⟨⟨⟩, _⟩ | ⟨_, _, _, recognized', fetched', inner⟩⟩
    cases listed.symm.trans listed'
    cases recognized.symm.trans recognized'
    cases fetched.symm.trans fetched'
    exact inner
  · intro inner
    exact ⟨line, listed, .inr ⟨target, found, included, recognized, fetched, inner⟩⟩

end Line

/-- The lines that stand for a line of a file, with its index, when its include is spliced some levels down. -/
def spliceLine (plan : IncludePlan) (files : FileTree) (levels : Nat) (path : Path) :
    String × Nat → Except SourceError (List String)
  | (line, index) => do
      match ← (Directive.recognizeInclude line.toList).value? line with
      | none => pure [line]
      | some target =>
          let (found, included) ← plan.fetch files target path
          let inner ← plan.splice files levels found included
          if plan.marksLines then
            pure (lineMark 1 found.markName :: inner ++ [lineMark (index + 2) path.markName])
          else pure inner

private theorem splice_succ (levels : Nat) : plan.splice files (levels + 1) path text =
    ((Text.lines text).zipIdx.mapM (plan.spliceLine files levels path)).map List.flatten := by
  rw [splice]
  rfl

section SpliceLine

variable {levels index : Nat}

private theorem spliceLine_of_ordinary (recognized : Directive.recognizeInclude line.toList = .ordinary) :
    plan.spliceLine files levels path (line, index) = .ok [line] := by
  rw [spliceLine, recognized]
  rfl

private theorem spliceLine_of_malformed (recognized : Directive.recognizeInclude line.toList = .malformed) :
    plan.spliceLine files levels path (line, index) = .error (.malformedDirective (Text.trim line)) := by
  rw [spliceLine, recognized]
  rfl

private theorem spliceLine_of_fetch_error (recognized : Directive.recognizeInclude line.toList = .directive target)
    (failed : plan.fetch files target path = .error e) :
    plan.spliceLine files levels path (line, index) = .error e := by
  rw [spliceLine, recognized]
  simp only [Recognition.value?, bind, Except.bind, failed]

private theorem spliceLine_of_fetch {included : String}
    (recognized : Directive.recognizeInclude line.toList = .directive target)
    (fetched : plan.fetch files target path = .ok (found, included)) :
    plan.spliceLine files levels path (line, index) = (plan.splice files levels found included).map fun inner =>
      if plan.marksLines then lineMark 1 found.markName :: inner ++ [lineMark (index + 2) path.markName]
      else inner := by
  rw [spliceLine, recognized]
  simp only [Recognition.value?, fetched, bind, Except.bind]
  cases plan.splice files levels found included with
  | error e => rfl
  | ok inner =>
    simp only [Except.map]
    split <;> rfl

end SpliceLine

section Levels

variable {levels i : Nat}

/-- Splicing an include that can be fetched decides what is at fault below it.  With no level left it is itself too
deep; with one it is not. -/
private theorem decides_spliceLine_of_fetch {included : String} (listed : (Text.lines text)[i]? = some line)
    (level : levels + depth = includeDepthLimit)
    (recognized : Directive.recognizeInclude line.toList = .directive target)
    (fetched : plan.fetch files target path = .ok (found, included))
    (inner : 0 < levels →
      Decides (plan.FaultsAt files (depth + 1) found included) (plan.splice files levels found included)) :
    Decides (fun place => plan.FaultsAt files depth path text (i :: place))
      (plan.spliceLine files levels path (line, i)) := by
  have own : ∀ e, plan.FaultsAt files depth path text [i] e ↔
      includeDepthLimit < depth + 1 ∧ e = .includesTooDeep found := by
    intro e
    rw [faultsAt_singleton listed, faults_iff_of_directive recognized]
    simp [fetched]
  have below : ∀ j place e, plan.FaultsAt files depth path text (i :: j :: place) e ↔
      plan.FaultsAt files (depth + 1) found included (j :: place) e :=
    fun _ _ _ => faultsAt_cons_of_fetch listed recognized fetched
  rw [spliceLine_of_fetch recognized fetched]
  refine Decides.map ?_
  cases levels with
  | zero =>
    have deep : includeDepthLimit < depth + 1 := by omega
    exact ⟨[], (own _).mpr ⟨deep, rfl⟩, fun earlier before => absurd before (List.not_lt_nil earlier)⟩
  | succ levels =>
    have shallow : ∀ e, ¬ plan.FaultsAt files depth path text [i] e := by
      intro e faults
      have deep := ((own e).mp faults).1
      omega
    have decided := inner levels.succ_pos
    cases spliced : plan.splice files (levels + 1) found included with
    | ok ls =>
      rw [spliced] at decided
      intro place e faults
      cases place with
      | nil => exact shallow e faults
      | cons j place => exact decided _ e ((below j place e).mp faults)
    | error e =>
      rw [spliced] at decided
      obtain ⟨place, faults, before⟩ := decided
      cases place with
      | nil =>
        obtain ⟨_, _, stands, _⟩ := faults
        exact absurd stands not_stands_nil
      | cons j place =>
        refine ⟨j :: place, (below j place e).mpr faults, fun earlier hlt e' faults' => ?_⟩
        cases earlier with
        | nil => exact shallow e' faults'
        | cons k earlier => exact before _ hlt e' ((below k earlier e').mp faults')

private theorem decides_spliceLine (listed : (Text.lines text)[i]? = some line) (level : levels + depth = includeDepthLimit)
    (inner : ∀ found included, 0 < levels →
      Decides (plan.FaultsAt files (depth + 1) found included) (plan.splice files levels found included)) :
    Decides (fun place => plan.FaultsAt files depth path text (i :: place))
      (plan.spliceLine files levels path (line, i)) := by
  have here : ∀ e, plan.FaultsAt files depth path text [i] e ↔ plan.Faults files path line (depth + 1) e :=
    fun _ => faultsAt_singleton listed
  cases recognized : Directive.recognizeInclude line.toList with
  | ordinary =>
    rw [spliceLine_of_ordinary recognized]
    rintro place e ⟨includer, line', stands, faults⟩
    obtain ⟨l, listed', own⟩ := stands_cons.mp stands
    cases listed.symm.trans listed'
    rcases own with ⟨_, rfl, rfl⟩ | ⟨_, _, _, recognized', _⟩
    · exact not_faults_of_ordinary recognized faults
    · cases recognized.symm.trans recognized'
  | malformed =>
    rw [spliceLine_of_malformed recognized]
    refine ⟨[], (here _).mpr ?_, fun earlier before => absurd before (List.not_lt_nil earlier)⟩
    exact (faults_iff_of_malformed recognized).mpr rfl
  | directive target =>
    cases fetched : plan.fetch files target path with
    | error e =>
      rw [spliceLine_of_fetch_error recognized fetched]
      refine ⟨[], (here e).mpr ?_, fun earlier before => absurd before (List.not_lt_nil earlier)⟩
      exact (faults_iff_of_directive recognized).mpr (.inl fetched)
    | ok file => exact decides_spliceLine_of_fetch listed level recognized fetched (inner _ _)

private theorem decides_splice_of_lines (each : ∀ i line, (Text.lines text)[i]? = some line →
      Decides (fun place => plan.FaultsAt files depth path text (i :: place))
        (plan.spliceLine files levels path (line, i))) :
    Decides (plan.FaultsAt files depth path text) (plan.splice files (levels + 1) path text) := by
  have zipped : ∀ (i : Nat) (line : String × Nat), (Text.lines text).zipIdx[i]? = some line ↔
      (Text.lines text)[i]? = some line.1 ∧ line.2 = i := by
    intro i line
    rw [List.getElem?_zipIdx, Option.map_eq_some_iff]
    constructor
    · rintro ⟨l, listed, rfl⟩
      exact ⟨listed, Nat.zero_add i⟩
    · rintro ⟨listed, index⟩
      exact ⟨line.1, listed, by rw [Nat.zero_add, ← index]⟩
  have outside : ∀ place e, plan.FaultsAt files depth path text place e → ∃ i below line,
      place = i :: below ∧ (Text.lines text)[i]? = some line := by
    rintro place e ⟨_, _, stands, _⟩
    cases place with
    | nil => exact absurd stands not_stands_nil
    | cons i below =>
      obtain ⟨line, listed, _⟩ := stands_cons.mp stands
      exact ⟨i, below, line, rfl, listed⟩
  rw [splice_succ]
  refine Decides.map ?_
  cases spliced : (Text.lines text).zipIdx.mapM (plan.spliceLine files levels path) with
  | ok parts =>
    intro place e faults
    obtain ⟨i, below, line, rfl, listed⟩ := outside place e faults
    have member := List.mem_of_getElem? ((zipped i (line, i)).mpr ⟨listed, rfl⟩)
    obtain ⟨part, done⟩ := ok_of_mapM_eq_ok spliced _ member
    have decided := each i line listed
    rw [done] at decided
    exact decided below e faults
  | error e =>
    obtain ⟨i, ⟨line, index⟩, known, failed, before⟩ := exists_of_mapM_eq_error spliced
    obtain ⟨listed, rfl⟩ := (zipped i _).mp known
    have decided := each index line listed
    rw [failed] at decided
    obtain ⟨below, faults, first⟩ := decided
    refine ⟨index :: below, faults, fun earlier hlt e' faults' => ?_⟩
    obtain ⟨j, below', line', rfl, listed'⟩ := outside earlier e' faults'
    rcases List.cons_lt_cons_iff.mp hlt with sooner | ⟨rfl, lower⟩
    · obtain ⟨part, done⟩ := before j sooner _ ((zipped j (line', j)).mpr ⟨listed', rfl⟩)
      have decided' := each j line' listed'
      rw [done] at decided'
      exact decided' below' e' faults'
    · exact first below' lower e' faults'

private theorem decides_splice (level : levels + depth = includeDepthLimit) :
    Decides (plan.FaultsAt files depth path text) (plan.splice files (levels + 1) path text) := by
  -- A file that is spliced in is one level deeper and has one level less, so that the sum stays the limit.
  induction levels generalizing depth path text with
  | zero => exact decides_splice_of_lines fun i line listed => decides_spliceLine listed level nofun
  | succ levels ih =>
    refine decides_splice_of_lines fun i line listed => decides_spliceLine listed level fun found included _ => ?_
    exact ih (by omega)

end Levels

/-- Whether source lines are those of a file from a number on, with the unfolding of the file that it finds in place
of each include. -/
inductive Unfolds (plan : IncludePlan) (files : FileTree) : Path → Nat → List String → List SourceLine → Prop
  | nil {path : Path} {number : Nat} : Unfolds plan files path number [] []
  | line {path : Path} {number : Nat} {line : String} {rest : List String} {unfolded : List SourceLine}
      (recognized : Directive.recognizeInclude line.toList = .ordinary)
      (later : Unfolds plan files path (number + 1) rest unfolded) :
      Unfolds plan files path number (line :: rest) (⟨path, number, line⟩ :: unfolded)
  | splice {path found : Path} {number : Nat} {line included : String} {rest : List String} {target : Include}
      {inner unfolded : List SourceLine} (recognized : Directive.recognizeInclude line.toList = .directive target)
      (finds : plan.Finds files path target found) (read : files.readText found = .ok included)
      (inside : Unfolds plan files found 1 (Text.lines included) inner)
      (later : Unfolds plan files path (number + 1) rest unfolded) :
      Unfolds plan files path number (line :: rest) (inner ++ unfolded)

theorem Unfolds.unique {number : Nat} {ls : List String} {unfolded unfolded' : List SourceLine}
    (unfolds : plan.Unfolds files path number ls unfolded) (unfolds' : plan.Unfolds files path number ls unfolded') :
    unfolded = unfolded' := by
  induction unfolds generalizing unfolded' with
  | nil =>
    cases unfolds'
    rfl
  | line recognized later ih =>
    cases unfolds' with
    | line _ later' => rw [ih later']
    | splice recognized' => cases recognized.symm.trans recognized'
  | splice recognized finds read inside later ihInside ihLater =>
    cases unfolds' with
    | line recognized' => cases recognized.symm.trans recognized'
    | splice recognized' finds' read' inside' later' =>
      cases recognized.symm.trans recognized'
      cases finds.unique finds'
      cases read.symm.trans read'
      rw [ihInside inside', ihLater later']

/-- Whether entries account for what is written for the lines of a file from a number on: the lines of files among them
are the unfolding, and if marks are written every line is as it is counted by them. -/
structure Accounts (plan : IncludePlan) (files : FileTree) (path : Path) (number : Nat) (ls : List String)
    (entries : List Entry) : Prop where
  unfolds : plan.Unfolds files path number ls (entries.filterMap Entry.line?)
  counted : plan.marksLines = true → Entry.Counted path.markName number entries
  unmarked : plan.marksLines = false → ∀ entry ∈ entries, ∃ l, entry = .line l

namespace Accounts

variable {number : Nat} {rest : List String} {entries inner : List Entry}

theorem nil : plan.Accounts files path number [] [] :=
  ⟨.nil, fun _ => trivial, fun _ => nofun⟩

theorem own (recognized : Directive.recognizeInclude line.toList = .ordinary)
    (later : plan.Accounts files path (number + 1) rest entries) :
    plan.Accounts files path number (line :: rest) (.line ⟨path, number, line⟩ :: entries) where
  unfolds := .line recognized later.unfolds
  counted marked := ⟨rfl, rfl, later.counted marked⟩
  unmarked bare := List.forall_mem_cons.mpr ⟨⟨_, rfl⟩, later.unmarked bare⟩

theorem splice {included : String} (recognized : Directive.recognizeInclude line.toList = .directive target)
    (fetched : plan.fetch files target path = .ok (found, included))
    (inside : plan.Accounts files found 1 (Text.lines included) inner)
    (later : plan.Accounts files path (number + 1) rest entries) :
    plan.Accounts files path number (line :: rest)
      (if plan.marksLines then .mark 1 found :: inner ++ .mark (number + 1) path :: entries else inner ++ entries) := by
  obtain ⟨finds, read⟩ := fetch_eq_ok.mp fetched
  have unfolds := Unfolds.splice recognized finds read inside.unfolds later.unfolds
  rw [← List.filterMap_append] at unfolds
  cases marks : plan.marksLines with
  | true =>
    refine ⟨?_, fun _ => ?_, fun bare => absurd (marks.symm.trans bare) (by decide)⟩
    · simpa [List.filterMap_cons, Entry.line?] using unfolds
    · rw [if_pos rfl, List.cons_append, Entry.Counted, Entry.counted_append_mark]
      exact ⟨inside.counted marks, later.counted marks⟩
  | false =>
    refine ⟨by simpa using unfolds, fun marked => absurd (marks.symm.trans marked) (by decide), fun _ => ?_⟩
    rw [if_neg Bool.false_ne_true]
    exact List.forall_mem_append.mpr ⟨inside.unmarked marks, later.unmarked marks⟩

end Accounts

private theorem exists_accounts_of_spliceLines {levels index : Nat} {ls : List String} {parts : List (List String)}
    (inner : ∀ found included written, plan.splice files levels found included = .ok written →
      ∃ entries, written = entries.map Entry.text ∧ plan.Accounts files found 1 (Text.lines included) entries)
    (done : (ls.zipIdx index).mapM (plan.spliceLine files levels path) = .ok parts) :
    ∃ entries, parts.flatten = entries.map Entry.text ∧ plan.Accounts files path (index + 1) ls entries := by
  induction ls generalizing index parts with
  | nil =>
    cases done
    exact ⟨[], rfl, .nil⟩
  | cons line rest ih =>
    rw [List.zipIdx_cons, List.mapM_cons] at done
    obtain ⟨part, own, done⟩ := bind_eq_ok.mp done
    obtain ⟨parts, others, done⟩ := bind_eq_ok.mp done
    cases pure_eq_ok.mp done
    obtain ⟨entries, written, later⟩ := ih others
    cases recognized : Directive.recognizeInclude line.toList with
    | malformed => cases (spliceLine_of_malformed recognized).symm.trans own
    | ordinary =>
      cases (spliceLine_of_ordinary recognized).symm.trans own
      exact ⟨.line ⟨path, index + 1, line⟩ :: entries, congrArg (line :: ·) written, later.own recognized⟩
    | directive target =>
      cases fetched : plan.fetch files target path with
      | error e => cases (spliceLine_of_fetch_error recognized fetched).symm.trans own
      | ok file =>
        obtain ⟨found, included⟩ := file
        rw [spliceLine_of_fetch recognized fetched, map_eq_ok] at own
        obtain ⟨ls, spliced, rfl⟩ := own
        obtain ⟨entries', rfl, inside⟩ := inner found included ls spliced
        refine ⟨_, ?_, inside.splice recognized fetched later⟩
        rw [List.flatten_cons, written]
        split
        · simp [Entry.text]
        · simp

theorem exists_accounts_of_splice {levels : Nat} {written : List String}
    (done : plan.splice files levels path text = .ok written) :
    ∃ entries, written = entries.map Entry.text ∧ plan.Accounts files path 1 (Text.lines text) entries := by
  induction levels generalizing path text written with
  | zero => cases done
  | succ levels ih =>
    rw [splice_succ, map_eq_ok] at done
    obtain ⟨parts, each, rfl⟩ := done
    exact exists_accounts_of_spliceLines (fun _ _ _ inside => ih inside) each

/-- Splicing succeeds exactly if nothing in the unfolding of a body is at fault, and else fails with the fault that
comes first in the document.  What it writes without marks are the lines of the unfolding, and none of them is an
include. -/
theorem expand_unfolds (plan : IncludePlan) (files : FileTree) (path : Path) (body : String) :
    ((∃ expanded, plan.expand files path body = .ok expanded) ↔
      ∀ place e, ¬ plan.FaultsAt files 0 path body place e) ∧
    (∀ e, plan.expand files path body = .error e ↔ ∃ place, plan.FaultsAt files 0 path body place e ∧
      ∀ earlier < place, ∀ e', ¬ plan.FaultsAt files 0 path body earlier e') ∧
    ∀ expanded, plan.marksLines = false → plan.expand files path body = .ok expanded →
      (∃ unfolded, plan.Unfolds files path 1 (Text.lines body) unfolded ∧
        expanded = Text.unlines (unfolded.map SourceLine.text)) ∧
      ∀ line ∈ Text.lines expanded, Directive.recognizeInclude line.toList = .ordinary := by
  have limit : includeDepthLimit + 0 = includeDepthLimit := rfl
  have decided : Decides (plan.FaultsAt files 0 path body) (plan.expand files path body) := (decides_splice limit).map
  refine ⟨decided.ok_iff, decided.error_iff fun _ _ _ => FaultsAt.unique, fun expanded bare done => ⟨?_, ?_⟩⟩
  · obtain ⟨written, spliced, rfl⟩ := map_eq_ok.mp done
    obtain ⟨entries, rfl, accounts⟩ := exists_accounts_of_splice spliced
    exact ⟨_, accounts.unfolds, congrArg Text.unlines (Entry.map_text_of_lines (accounts.unmarked bare))⟩
  · exact freeFrom_expand (fun marked => absurd (marked.symm.trans bare) (by decide)) done

end IncludePlan

end ShaderPipeline
