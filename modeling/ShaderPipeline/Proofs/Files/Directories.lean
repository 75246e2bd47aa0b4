import Mathlib.Data.List.DropRight
import Mathlib.Data.List.Find
import ShaderPipeline.FileTree
import ShaderPipeline.Proofs.Outcome
import ShaderPipeline.Proofs.Text.Lines

/-!
Directories that paths lead to, and what lies in them.

Segments that are empty or a dot are no steps.  A path to a directory takes the same steps however it ends, and a file
in the directory is one step further; so once a directory was made, its files are found at their places for as long as
no directory is taken away.
-/

set_option autoImplicit false
set_option relaxedAutoImplicit false

namespace ShaderPipeline

open Outcome

namespace Path

def steps (p : Path) : List String :=
  p.segments.filter fun s => !isSkipped s

/-- Whether a text names a file in whatever directory it is looked for. -/
structure IsFileName (name : String) : Prop where
  whole : '/' ∉ name.toList
  step : isSkipped name = false
  down : name ≠ ".."

private theorem isAbsolute_iff {p : Path} : p.isAbsolute = true ↔ p.text.toList.head? = some '/' := by
  rw [isAbsolute]
  split
  · rename_i start
    simp [start]
  · rename_i other
    cases start : p.text.toList with
    | nil => simp
    | cons c rest =>
      have ne : c ≠ '/' := by
        rintro rfl
        exact other rest start
      simpa using ne

private theorem IsFileName.relative {name : String} (plain : IsFileName name) : isAbsolute ⟨name⟩ = false := by
  refine Bool.eq_false_iff.mpr fun absolute => plain.whole ?_
  exact List.mem_of_mem_head? (isAbsolute_iff.mp absolute)

theorem IsFileName.segments {name : String} (plain : IsFileName name) : segments ⟨name⟩ = [name] := by
  have free : ∀ c ∈ name.toList, ¬ (c == '/') := by
    rintro c hc same
    exact plain.whole (beq_iff_eq.mp same ▸ hc)
  simp [Path.segments, Text.splitAt, Text.pieces_of_free free]

private theorem segments_append (text later : String) :
    segments ⟨text ++ "/" ++ later⟩ = segments ⟨text⟩ ++ segments ⟨later⟩ := by
  obtain ⟨before, last, first, after, own, cut, whole⟩ :=
    Text.pieces_append_eq (· == '/') text.toList ('/' :: later.toList)
  obtain ⟨rfl, rfl⟩ : [] = first ∧ Text.pieces (· == '/') later.toList = after := by
    simpa [Text.pieces] using cut
  simp [segments, Text.splitAt, String.toList_append, own, whole]

private theorem steps_separator (text : String) : steps ⟨text ++ "/"⟩ = steps ⟨text⟩ := by
  have nothing : segments ⟨""⟩ = [""] := rfl
  have whole := segments_append text ""
  rw [String.append_empty, nothing] at whole
  simp [steps, whole, isSkipped]

private theorem steps_join {p : Path} {name : String} (plain : IsFileName name) (given : p.text ≠ "") :
    (p.join name).steps = p.steps ++ [name] := by
  have further : ∀ text : String, steps ⟨text ++ "/" ++ name⟩ = steps ⟨text⟩ ++ [name] := by
    intro text
    simp [steps, segments_append, plain.segments, plain.step]
  obtain ⟨text⟩ := p
  simp only [join, plain.relative, Bool.false_or, beq_iff_eq, if_neg given]
  split
  · rename_i ends
    obtain ⟨kept, cut⟩ := List.getLast?_eq_some_iff.mp ends
    have cut : text = String.ofList kept ++ "/" := by
      rw [← String.toList_inj, cut]
      simp
    rw [cut, further, steps_separator]
  · exact further text

private theorem steps_withoutTrailing (p : Path) : (FileTree.withoutTrailing p).steps = p.steps := by
  have dropped : ∀ reversed : List Char,
      steps ⟨String.ofList (reversed.dropWhile (· == '/')).reverse⟩ =
        steps ⟨String.ofList reversed.reverse⟩ := by
    intro reversed
    induction reversed with
    | nil => rfl
    | cons c reversed ih =>
      by_cases separator : c = '/'
      · have longer : String.ofList ('/' :: reversed).reverse = String.ofList reversed.reverse ++ "/" := by
          rw [← String.toList_inj]
          simp
        rw [separator, List.dropWhile_cons_of_pos (by rfl), ih, longer, steps_separator]
      · rw [List.dropWhile_cons_of_neg (by simpa using separator)]
  have whole : p = ⟨String.ofList p.text.toList.reverse.reverse⟩ := by simp
  rw [FileTree.withoutTrailing, dropped, ← whole]

private theorem isAbsolute_congr {p q : Path} (start : p.text.toList <+: q.text.toList) (given : p.text ≠ "") :
    q.isAbsolute = p.isAbsolute := by
  obtain ⟨rest, whole⟩ := start
  have same : q.text.toList.head? = p.text.toList.head? := by
    rw [← whole]
    cases chars : p.text.toList with
    | nil => exact absurd (String.toList_eq_nil_iff.mp chars) given
    | cons c chars => rfl
  rw [Bool.eq_iff_iff, isAbsolute_iff, isAbsolute_iff, same]

private theorem prefix_join {p : Path} {name : String} (plain : IsFileName name) :
    p.text.toList <+: (p.join name).text.toList := by
  rw [join, plain.relative, Bool.false_or]
  split
  · rename_i empty
    simp [beq_iff_eq.mp empty]
  · split
    · simp
    · simp

private theorem withoutTrailing_prefix (p : Path) :
    (FileTree.withoutTrailing p).text.toList <+: p.text.toList := by
  have kept : (FileTree.withoutTrailing p).text.toList = p.text.toList.rdropWhile (· == '/') := by
    simp [FileTree.withoutTrailing, List.rdropWhile]
  rw [kept]
  exact List.rdropWhile_prefix _ _

end Path

namespace FileTree

variable {t t' made : FileTree} {p : Path} {place q : Place} {steps : List String}

theorem nodeAt_take (t : FileTree) (place q : Place) :
    (t.take place).nodeAt q =
      if q.isTop then some .directory else if q = place then none else t.nodeAt q := by
  cases top : q.isTop with
  | true => simp [nodeAt, top]
  | false =>
    by_cases own : q = place
    · subst own
      simp [nodeAt, take, top]
    · have kept : (t.nodes.filter (·.1 != place)).find? (·.1 == q) = t.nodes.find? (·.1 == q) := by
        rw [List.find?_filter]
        refine List.find?_congr fun entry _ => ?_
        by_cases same : entry.1 = q
        · simp [same, own]
        · simp [same]
      simp [nodeAt, take, top, own, kept]

theorem nodeAt_put (t : FileTree) (place : Place) (node : FileNode) (q : Place) :
    (t.put place node).nodeAt q =
      if q.isTop then some .directory else if q = place then some node else t.nodeAt q := by
  cases top : q.isTop with
  | true => simp [nodeAt, top]
  | false =>
    by_cases own : q = place
    · subst own
      simp [nodeAt, put, top]
    · have found : (t.put place node).nodeAt q = (t.take place).nodeAt q := by
        simp [nodeAt, put, take, top, Ne.symm own]
      rw [found, nodeAt_take]
      simp [top, own]

structure Takes (p : Path) : Prop where
  whole : ∀ c ∈ p.text.toList, c.toNat ≠ 0
  given : p.text ≠ ""
  short : p.text.utf8ByteSize ≤ longestPath

theorem Takes.of_join {name : String} (takes : Takes (p.join name)) (plain : Path.IsFileName name)
    (given : p.text ≠ "") : Takes p := by
  obtain ⟨rest, whole⟩ := Path.prefix_join (p := p) plain
  have text : (p.join name).text = p.text ++ String.ofList rest := by
    rw [← String.toList_inj, ← whole]
    simp
  have short := takes.short
  rw [text, String.utf8ByteSize_append] at short
  exact ⟨fun c hc => takes.whole c (whole ▸ List.mem_append_left rest hc), given, by omega⟩

/-- Whether the steps of a path lead into a tree, and are these from its top on. -/
structure Enters (t : FileTree) (p : Path) (steps : List String) : Prop where
  takes : Takes p
  steps : if p.isAbsolute then t.mount ≠ [] ∧ p.steps = t.mount ++ steps else p.steps = steps

theorem takes_of_segmentsFromTop {segments : List String} (found : t.segmentsFromTop p = .ok segments) :
    Takes p := by
  rw [segmentsFromTop] at found
  split at found
  · cases found
  split at found
  · cases found
  split at found
  · cases found
  rename_i whole given short
  exact ⟨by simpa using whole, by simpa using given, Nat.le_of_not_lt short⟩

private theorem segmentsFromTop_of_takes (takes : Takes p) :
    t.segmentsFromTop p =
      if p.isAbsolute then
        if t.mount.isEmpty || p.steps.take t.mount.length != t.mount then .error .missing
        else .ok (p.steps.drop t.mount.length)
      else .ok p.segments := by
  have whole : p.text.toList.any (·.toNat == 0) = false := by simpa using takes.whole
  simp only [segmentsFromTop, whole, Bool.false_eq_true, if_false, beq_iff_eq, takes.given,
    Nat.not_lt.mpr takes.short, Path.steps]
  rfl

theorem enters_iff : t.Enters p steps ↔
    ∃ segments, t.segmentsFromTop p = .ok segments ∧ segments.filter (fun s => !Path.isSkipped s) = steps := by
  have kept : (p.steps.drop t.mount.length).filter (fun s => !Path.isSkipped s) =
      p.steps.drop t.mount.length :=
    List.filter_eq_self.mpr fun s hs => (List.mem_filter.mp (List.mem_of_mem_drop hs)).2
  constructor
  · rintro ⟨takes, steps⟩
    rw [segmentsFromTop_of_takes takes]
    split at steps
    · obtain ⟨mounted, split⟩ := steps
      rename_i absolute
      refine ⟨p.steps.drop t.mount.length, ?_, ?_⟩
      · rw [if_pos absolute, if_neg (by simp [mounted, split])]
      · rw [kept, split, List.drop_left]
    · rename_i relative
      exact ⟨p.segments, if_neg relative, steps⟩
  · rintro ⟨segments, found, rfl⟩
    have takes := takes_of_segmentsFromTop found
    refine ⟨takes, ?_⟩
    rw [segmentsFromTop_of_takes takes] at found
    split at found
    · split at found
      · cases found
      · rename_i absolute mounted
        obtain rfl := Except.ok.inj found
        simp only [Bool.or_eq_true, List.isEmpty_iff, bne_iff_ne, ne_eq, not_or, not_not] at mounted
        have split := List.take_append_drop t.mount.length p.steps
        rw [mounted.2] at split
        rw [if_pos absolute, kept]
        exact ⟨mounted.1, split.symm⟩
    · rename_i relative
      obtain rfl := Except.ok.inj found
      exact (if_neg relative).mpr rfl

private theorem directory_of_follow {segments : List String} (found : t.follow place segments = .ok q)
    (directory : t.nodeAt q = some .directory) : t.nodeAt place = some .directory := by
  cases segments with
  | nil =>
    obtain rfl := Except.ok.inj found
    exact directory
  | cons segment rest =>
    rw [follow] at found
    split at found
    · cases found
    · assumption
    · cases found

private theorem follow_filter {segments : List String} (directory : t.nodeAt q = some .directory) :
    t.follow place (segments.filter fun s => !Path.isSkipped s) = .ok q ↔ t.follow place segments = .ok q := by
  induction segments generalizing place with
  | nil => rfl
  | cons segment rest ih =>
    cases skipped : Path.isSkipped segment with
    | true =>
      rw [List.filter_cons_of_neg (by simp [skipped]), ih]
      constructor
      · intro found
        simp only [follow, directory_of_follow found directory, skipped, if_true, found]
      · intro found
        have here := directory_of_follow found directory
        simpa only [follow, here, skipped, if_true] using found
    | false =>
      rw [List.filter_cons_of_pos (by simp [skipped])]
      simp only [follow, skipped]
      cases t.nodeAt place with
      | none => rfl
      | some node =>
        cases node with
        | directory =>
          simp only [Bool.false_eq_true, if_false]
          split
          · exact ih
          · split
            · rfl
            · exact ih
        | _ => rfl

private theorem resolve_filter (segments : List String) :
    t.resolve place (segments.filter fun s => !Path.isSkipped s) = t.resolve place segments := by
  induction segments generalizing place with
  | nil => rfl
  | cons segment rest ih =>
    cases skipped : Path.isSkipped segment with
    | true =>
      rw [List.filter_cons_of_neg (by simp [skipped]), ih, resolve, if_pos skipped]
    | false =>
      rw [List.filter_cons_of_pos (by simp [skipped]), resolve, resolve]
      simp only [ih]

private theorem resolve_of_follow {segments : List String} (found : t.follow place segments = .ok q)
    (later : List String) : t.resolve place (segments ++ later) = t.resolve q later := by
  induction segments generalizing place with
  | nil =>
    obtain rfl := Except.ok.inj found
    rfl
  | cons segment rest ih =>
    rw [follow] at found
    split at found
    case h_1 | h_3 => cases found
    case h_2 here =>
      rw [List.cons_append, resolve]
      split at found
      · rename_i skipped
        rw [if_pos skipped, ih found]
      · rename_i step
        rw [if_neg step]
        split at found
        · rename_i up
          rw [if_pos up, ih found]
        · rename_i down
          rw [if_neg down]
          split at found
          · cases found
          · rename_i short
            rw [if_neg short, here]
            exact ih found

/-- Whether a path leads to the directory at a place; without a text it is the top. -/
def LeadsTo (t : FileTree) (p : Path) (place : Place) : Prop :=
  p.text = "" ∧ place = [] ∨
    ∃ steps, t.Enters p steps ∧ t.follow [] steps = .ok place ∧ t.nodeAt place = some .directory

theorem LeadsTo.directory (leads : t.LeadsTo p q) : t.nodeAt q = some .directory := by
  obtain ⟨_, rfl⟩ | ⟨_, _, _, directory⟩ := leads
  · rfl
  · exact directory

private theorem place_iff (directory : t.nodeAt q = some .directory) :
    t.place p = .ok q ↔ ∃ steps, t.Enters p steps ∧ t.follow [] steps = .ok q := by
  simp only [FileTree.place, bind_eq_ok, enters_iff]
  constructor
  · rintro ⟨segments, found, followed⟩
    exact ⟨_, ⟨segments, found, rfl⟩, (follow_filter directory).mpr followed⟩
  · rintro ⟨_, ⟨segments, found, rfl⟩, followed⟩
    exact ⟨segments, found, (follow_filter directory).mp followed⟩

private theorem leadsTo_iff (given : p.text ≠ "") :
    t.LeadsTo p q ↔ t.place p = .ok q ∧ t.nodeAt q = some .directory := by
  simp only [LeadsTo, given, false_and, false_or]
  constructor
  · rintro ⟨steps, enters, followed, directory⟩
    exact ⟨(place_iff directory).mpr ⟨steps, enters, followed⟩, directory⟩
  · rintro ⟨found, directory⟩
    obtain ⟨steps, enters, followed⟩ := (place_iff directory).mp found
    exact ⟨steps, enters, followed, directory⟩

private theorem isDirectory_iff : t.isDirectory p = true ↔ ∃ q, t.place p = .ok q ∧ t.nodeAt q = some .directory := by
  cases found : t.place p with
  | error fault => simp [isDirectory, node, found, bind, Except.bind]
  | ok place =>
    cases stands : t.nodeAt place with
    | none => simp [isDirectory, node, found, stands, bind, Except.bind, throw, throwThe, MonadExceptOf.throw]
    | some node => cases node <;> simp [isDirectory, FileTree.node, found, stands, bind, Except.bind, pure, Except.pure]

private theorem Enters.steps_eq {p' : Path} {steps' : List String} (h : t.Enters p steps) (h' : t.Enters p' steps')
    (absolute : p'.isAbsolute = p.isAbsolute) (same : p'.steps = p.steps) : steps' = steps := by
  have own := h.steps
  have other := h'.steps
  rw [absolute, same] at other
  split at own
  · rename_i root
    rw [if_pos root, own.2] at other
    exact (List.append_cancel_left other.2).symm
  · rename_i relative
    rw [if_neg relative, own] at other
    exact other.symm

private theorem place_withoutTrailing (leads : t.LeadsTo p q) (given : p.text ≠ "") {q' : Place}
    (found : t.place (withoutTrailing p) = .ok q') : q' = q := by
  obtain ⟨empty, _⟩ | ⟨steps, enters, followed, directory⟩ := leads
  · exact absurd empty given
  obtain ⟨segments, start, followed'⟩ := bind_eq_ok.mp found
  have enters' : t.Enters (withoutTrailing p) _ := enters_iff.mpr ⟨segments, start, rfl⟩
  have absolute : (withoutTrailing p).isAbsolute = p.isAbsolute :=
    (Path.isAbsolute_congr (Path.withoutTrailing_prefix p) enters'.takes.given).symm
  have same := enters.steps_eq enters' absolute (Path.steps_withoutTrailing p)
  rw [← same, follow_filter directory] at followed
  exact Except.ok.inj (followed'.symm.trans followed)

private theorem ensureDirectory_of_leadsTo (leads : t.LeadsTo p q) (given : p.text ≠ "") :
    t.ensureDirectory p = (.ok (), t) := by
  obtain ⟨found, directory⟩ := (leadsTo_iff given).mp leads
  have there : t.isDirectory p = true := isDirectory_iff.mpr ⟨q, found, directory⟩
  have refused : ∃ fault, t.makeDirectory p = .error fault := by
    cases place : t.place (withoutTrailing p) with
    | error fault => exact ⟨fault, by simp [makeDirectory, place, bind, Except.bind]⟩
    | ok q' =>
      obtain rfl := place_withoutTrailing leads given place
      have there : t.makeDirectory p = .error .exists := by
        simp [makeDirectory, place, directory, bind, Except.bind, throw, throwThe, MonadExceptOf.throw]
      exact ⟨.exists, there⟩
  obtain ⟨fault, refused⟩ := refused
  simp only [ensureDirectory, refused, there, if_true]

theorem makeDirectories_of_leadsTo (leads : t.LeadsTo p q) : t.makeDirectories p = (.ok (), t) := by
  by_cases given : p.text = ""
  · simp [makeDirectories, makeDirectoriesWithin, given]
  · simp [makeDirectories, makeDirectoriesWithin, given, ensureDirectory_of_leadsTo leads given]

/-- Whether a tree is another one with more directories. -/
structure Extends (t t' : FileTree) : Prop where
  mount : t'.mount = t.mount
  databases : t'.databases = t.databases
  nodes : ∀ q, t'.nodeAt q = t.nodeAt q ∨ t.nodeAt q = none ∧ t'.nodeAt q = some .directory

theorem Extends.refl (t : FileTree) : t.Extends t := ⟨rfl, rfl, fun _ => .inl rfl⟩

theorem Extends.trans {t'' : FileTree} (h : t.Extends t') (h' : t'.Extends t'') : t.Extends t'' := by
  refine ⟨h'.mount.trans h.mount, h'.databases.trans h.databases, fun q => ?_⟩
  rcases h'.nodes q with same | ⟨empty, made⟩
  · rw [same]
    exact h.nodes q
  · rcases h.nodes q with same | ⟨_, made'⟩
    · exact .inr ⟨same ▸ empty, made⟩
    · exact absurd (empty.symm.trans made') nofun

private theorem makeDirectory_eq_ok (done : t.makeDirectory p = .ok made) :
    ∃ q, t.place (withoutTrailing p) = .ok q ∧ t.nodeAt q = none ∧ made = t.put q .directory := by
  obtain ⟨q, found, done⟩ := bind_eq_ok.mp done
  refine ⟨q, found, ?_⟩
  split at done
  · cases done
  · rename_i empty _
    exact ⟨empty, (pure_eq_ok.mp done).symm⟩
  · cases done
  · cases done

private theorem extends_put (empty : t.nodeAt q = none) : t.Extends (t.put q .directory) := by
  refine ⟨rfl, rfl, fun q' => ?_⟩
  rw [nodeAt_put]
  split
  · rename_i top
    exact .inl (by simp [nodeAt, top])
  · split
    · rename_i own
      exact .inr ⟨own ▸ empty, rfl⟩
    · exact .inl rfl

private theorem extends_ensureDirectory (t : FileTree) (p : Path) : t.Extends (t.ensureDirectory p).2 := by
  rw [ensureDirectory]
  split
  · rename_i made done
    obtain ⟨q, _, empty, rfl⟩ := makeDirectory_eq_ok done
    exact extends_put empty
  · exact .refl t

private theorem eq_of_fst_eq_ok {outcome : Except FileFault Unit × FileTree} (done : outcome.1 = .ok ()) :
    outcome = (.ok (), outcome.2) := by
  obtain ⟨_, _⟩ := outcome
  obtain rfl := done
  rfl

private theorem makeDirectoriesWithin_spec (t : FileTree) (n : Nat) (p : Path) :
    t.Extends (t.makeDirectoriesWithin n p).2 ∧
      ((t.makeDirectoriesWithin n p).1 = .ok () → p.text ≠ "" →
        ∃ t', t.Extends t' ∧ t'.ensureDirectory p = (.ok (), (t.makeDirectoriesWithin n p).2)) := by
  induction n generalizing p with
  | zero => exact ⟨.refl t, nofun⟩
  | succ n ih =>
    rw [makeDirectoriesWithin]
    split
    · rename_i empty
      exact ⟨.refl t, fun _ given => absurd (beq_iff_eq.mp empty) given⟩
    · split
      · rename_i parent _ _
        obtain ⟨more, _⟩ := ih parent
        split
        · rename_i made above
          rw [above] at more
          exact ⟨more.trans (extends_ensureDirectory made p), fun done _ => ⟨made, more, eq_of_fst_eq_ok done⟩⟩
        · rename_i failed
          exact ⟨more, fun done => (failed _ (eq_of_fst_eq_ok done)).elim⟩
      · exact ⟨extends_ensureDirectory t p, fun done _ => ⟨t, .refl t, eq_of_fst_eq_ok done⟩⟩

/-- Whether all directories of a tree are directories of another. -/
structure Keeps (t t' : FileTree) : Prop where
  mount : t'.mount = t.mount
  directories : ∀ q, t.nodeAt q = some .directory → t'.nodeAt q = some .directory

theorem Extends.keeps (h : t.Extends t') : t.Keeps t' := by
  refine ⟨h.mount, fun q directory => ?_⟩
  rcases h.nodes q with same | ⟨empty, _⟩
  · rw [same, directory]
  · exact absurd (empty.symm.trans directory) nofun

theorem keeps_put (free : t.nodeAt place ≠ some .directory) (node : FileNode) : t.Keeps (t.put place node) := by
  refine ⟨rfl, fun q directory => ?_⟩
  have other : q ≠ place := by
    rintro rfl
    exact free directory
  rw [nodeAt_put, if_neg other, directory, ite_self]

theorem keeps_take (free : t.nodeAt place ≠ some .directory) : t.Keeps (t.take place) := by
  refine ⟨rfl, fun q directory => ?_⟩
  have other : q ≠ place := by
    rintro rfl
    exact free directory
  rw [nodeAt_take, if_neg other, directory, ite_self]

theorem keeps_setDatabase (t : FileTree) (number : Nat) (database : Database) :
    t.Keeps (t.setDatabase number database) :=
  ⟨rfl, fun _ directory => directory⟩

theorem Enters.congr (h : t.Enters p steps) (mount : t'.mount = t.mount) : t'.Enters p steps :=
  ⟨h.takes, mount ▸ h.steps⟩

theorem Keeps.follow (h : t.Keeps t') {segments : List String} (found : t.follow place segments = .ok q) :
    t'.follow place segments = .ok q := by
  induction segments generalizing place with
  | nil => exact found
  | cons segment rest ih =>
    rw [FileTree.follow] at found ⊢
    split at found
    case h_1 | h_3 => cases found
    case h_2 here =>
      rw [h.directories place here]
      dsimp only
      split at found
      · rename_i skipped
        rw [if_pos skipped, ih found]
      · rename_i step
        rw [if_neg step]
        split at found
        · rename_i up
          rw [if_pos up, ih found]
        · rename_i down
          rw [if_neg down]
          split at found
          · cases found
          · rename_i short
            rw [if_neg short, ih found]

theorem LeadsTo.keep (leads : t.LeadsTo p q) (h : t.Keeps t') : t'.LeadsTo p q := by
  obtain top | ⟨steps, enters, followed, directory⟩ := leads
  · exact .inl top
  · exact .inr ⟨steps, enters.congr h.mount, h.follow followed, h.directories q directory⟩

private theorem leadsTo_of_makeDirectory (takes : Takes p) (done : t.makeDirectory p = .ok made) :
    ∃ q, made.LeadsTo p q := by
  obtain ⟨q, found, empty, rfl⟩ := makeDirectory_eq_ok done
  have directory : (t.put q .directory).nodeAt q = some .directory := by
    rw [nodeAt_put]
    split
    · rfl
    · rw [if_pos rfl]
  obtain ⟨segments, start, followed⟩ := bind_eq_ok.mp found
  have enters := enters_iff.mpr ⟨segments, start, rfl⟩
  have absolute : p.isAbsolute = (withoutTrailing p).isAbsolute :=
    Path.isAbsolute_congr (Path.withoutTrailing_prefix p) enters.takes.given
  have steps := enters.steps
  rw [Path.steps_withoutTrailing, ← absolute] at steps
  exact ⟨q, .inr ⟨_, ⟨takes, steps⟩,
    (follow_filter directory).mpr ((extends_put empty).keeps.follow followed), directory⟩⟩

private theorem leadsTo_of_ensureDirectory (takes : Takes p) (done : t.ensureDirectory p = (.ok (), made)) :
    ∃ q, made.LeadsTo p q := by
  rw [ensureDirectory] at done
  split at done
  · rename_i made' first
    obtain ⟨_, rfl⟩ := Prod.mk.inj done
    exact leadsTo_of_makeDirectory takes first
  · obtain ⟨there, rfl⟩ := Prod.mk.inj done
    have there : t.isDirectory p = true := by
      by_contra missing
      simp [missing] at there
    obtain ⟨q, found⟩ := isDirectory_iff.mp there
    exact ⟨q, (leadsTo_iff takes.given).mpr found⟩

theorem leadsTo_of_makeDirectories (takes : p.text ≠ "" → Takes p)
    (done : t.makeDirectories p = (.ok (), made)) : t.Extends made ∧ ∃ q, made.LeadsTo p q := by
  obtain ⟨extended, ensured⟩ := t.makeDirectoriesWithin_spec (p.text.length + 1) p
  rw [← makeDirectories, done] at extended ensured
  refine ⟨extended, ?_⟩
  by_cases given : p.text = ""
  · exact ⟨[], .inl ⟨given, rfl⟩⟩
  · obtain ⟨t', _, last⟩ := ensured rfl given
    exact leadsTo_of_ensureDirectory (takes given) last

theorem Extends.resolve (h : t.Extends t') (segments : List String) :
    t'.resolve place segments = t.resolve place segments := by
  induction segments generalizing place with
  | nil => rfl
  | cons segment rest ih =>
    rw [FileTree.resolve, FileTree.resolve]
    simp only [ih]
    rcases h.nodes place with same | ⟨empty, made⟩
    · rw [same]
    · rw [empty, made]

theorem Extends.resolvedPlace (h : t.Extends t') (p : Path) : t'.resolvedPlace p = t.resolvedPlace p := by
  have start : t'.segmentsFromTop p = t.segmentsFromTop p := by
    simp only [segmentsFromTop, h.mount]
  simp only [FileTree.resolvedPlace, start, h.resolve]

theorem resolvedPlace_join (leads : t.LeadsTo p q) {name : String} (plain : Path.IsFileName name)
    (takes : Takes (p.join name)) :
    t.resolvedPlace (p.join name) =
      if longestName < name.utf8ByteSize then .error .nameTooLong else .ok (q ++ [name]) := by
  have last : t.nodeAt q = some .directory → t.resolve q [name] =
      if longestName < name.utf8ByteSize then .error .nameTooLong else .ok (q ++ [name]) := by
    intro directory
    simp [FileTree.resolve, plain.step, plain.down, directory]
  obtain ⟨empty, rfl⟩ | ⟨steps, enters, followed, directory⟩ := leads
  · have alone : p.join name = ⟨name⟩ := by simp [Path.join, empty]
    rw [alone] at takes ⊢
    have start : t.segmentsFromTop ⟨name⟩ = .ok [name] := by
      rw [segmentsFromTop_of_takes takes, plain.relative, plain.segments]
      rfl
    rw [FileTree.resolvedPlace, start]
    exact last rfl
  · have enters' : t.Enters (p.join name) (steps ++ [name]) := by
      have absolute : (p.join name).isAbsolute = p.isAbsolute :=
        Path.isAbsolute_congr (Path.prefix_join plain) enters.takes.given
      refine ⟨takes, ?_⟩
      have own := enters.steps
      rw [absolute, Path.steps_join plain enters.takes.given]
      split at own
      · rename_i root
        rw [if_pos root, own.2, List.append_assoc]
        exact ⟨own.1, rfl⟩
      · rename_i relative
        rw [if_neg relative, own]
    obtain ⟨segments, start, kept⟩ := enters_iff.mp enters'
    have resolved : t.resolvedPlace (p.join name) = t.resolve [] segments := by
      rw [FileTree.resolvedPlace, start]
      rfl
    rw [resolved, ← resolve_filter, kept, resolve_of_follow followed]
    exact last directory

end FileTree

end ShaderPipeline
