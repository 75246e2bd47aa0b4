import ShaderPipeline.Proofs.Pack.StageStep

/-!
One call for a source, while others change the cache and the body.

A generation reads the time of the body before its text, so the body may be written in between, and again before the
source is stored.  What is stored is then older than the body, but it never bears a later time than the text that it was
made from.  Main statements: this is what each step of every call preserves; over a cache for which it holds a call with
nothing between its steps comes to the source of the body as it is; and what a call holds that began after the last write
comes from the body as it is.
-/

set_option autoImplicit false
set_option relaxedAutoImplicit false

namespace ShaderPipeline

private theorem FileTree.exists_modificationTime {files : FileTree} {path : Path} {text : String}
    (read : files.readText path = .ok text) : ∃ time, files.modificationTime path = .ok time := by
  cases stands : files.node path with
  | error fault => simp [readText, FileTree.text, bytes, stands, bind, Except.bind, Except.mapError] at read
  | ok node =>
    rw [modificationTime, modified, stands]
    cases node <;> exact ⟨_, rfl⟩

namespace View

/-- Whether a view has a time, and none before the given one. -/
def NotBefore (v : View) (time : Int) : Prop :=
  ∃ own, v.time = .ok own ∧ time ≤ own

theorem Yields.unique {v : View} {text text' : String} (h : v.Yields text) (h' : v.Yields text') :
    text = text' := by
  obtain ⟨source, made, rfl⟩ := h
  obtain ⟨source', made', rfl⟩ := h'
  rw [Except.ok.inj (made.symm.trans made')]

end View

namespace Generation

variable {g : Generation} {files : FileTree} {c : SourceCache} {phase : Generation.Phase}
  {past : View → Prop} {v : View} {now : Int} {text : String}

/-- Whether the files come to a text without any cache. -/
def AssemblesTo (g : Generation) (files : FileTree) (text : String) : Prop :=
  ∃ body source, files.readText g.request.path = .ok body ∧
    g.request.assemble g.catalog g.options files body = .ok source ∧ source.text = text

theorem yields_iff_assemblesTo : (g.view files).Yields text ↔ g.AssemblesTo files text := by
  constructor
  · rintro ⟨source, made, same⟩
    cases read : files.readText g.request.path with
    | error e => simp [view, read] at made
    | ok body => exact ⟨body, source, read, (view_source_of_body read).symm.trans made, same⟩
  · rintro ⟨body, source, read, made, same⟩
    exact ⟨source, (view_source_of_body read).trans made, same⟩

/-- What the present files have to do with earlier views: their own view is one of them, all that show anything else
have an earlier time, and a body that was read before is still assembled as it was. -/
structure Follows (g : Generation) (files : FileTree) (past : View → Prop) : Prop where
  seen : past (g.view files)
  dated : ∀ v, past v → v = g.view files ∨
    ∀ time now, v.time = .ok time → (g.view files).time = .ok now → time < now
  includes : ∀ v body, past v → v.body = .ok body →
    g.request.assemble g.catalog g.options files body = v.source

namespace Phase

/-- Whether what a call holds was shown by an earlier view, which was not had before the time that the call holds. -/
def IsTraced (past : View → Prop) : Phase → Prop
  | readTime | finished _ => True
  | registerPath time | checkTime time | findSource time | invalidate time | readBody time =>
      ∃ v, past v ∧ v.NotBefore time
  | assemble time body => ∃ v, past v ∧ v.NotBefore time ∧ v.body = .ok body
  | store time _ source => ∃ v, past v ∧ v.NotBefore time ∧ v.source = .ok source

/-- Whether a call has dropped what was cached and has not stored its source yet. -/
def HasCleared : Phase → Prop
  | readBody _ | assemble .. | store .. => True
  | _ => False

/-- Whether the body or the source that a call holds, if any, is that of a view. -/
def HoldsOnly (v : View) : Phase → Prop
  | assemble _ body => v.body = .ok body
  | store _ _ source => v.source = .ok source
  | _ => True

/-- What is known of a call that began when the view was had already: what it holds is that of the view; and so is what
it is about to find, if others are settled. -/
def IsLate (v : View) (settled : Prop) : Phase → Prop
  | registerPath time | checkTime time => v.time = .ok time
  | findSource _ => settled
  | finished (.ok text) => v.Yields text
  | phase => phase.HoldsOnly v

def text? : Phase → Option String
  | finished (.ok text) => some text
  | _ => none

theorem holdsOnly_of_not_hasCleared (h : ¬ phase.HasCleared) : phase.HoldsOnly v := by
  cases phase with
  | assemble time body => exact absurd trivial h
  | store time body source => exact absurd trivial h
  | _ => trivial

theorem IsLate.holdsOnly {settled : Prop} (h : phase.IsLate v settled) : phase.HoldsOnly v := by
  cases phase with
  | assemble time body => exact h
  | store time body source => exact h
  | _ => trivial

theorem IsLate.imp {settled settled' : Prop} (h : phase.IsLate v settled)
    (later : settled → settled') : phase.IsLate v settled' := by
  cases phase with
  | findSource time => exact later h
  | finished result => cases result <;> exact h
  | _ => exact h

end Phase

/-- Whether every cached source comes from an earlier view that was not had before the time that it was stored with, or
at this very time shows nothing else. -/
def CacheIsTraced (g : Generation) (past : View → Prop) (c : SourceCache) : Prop :=
  ∀ e text recorded, c.entry? g.identity = some e → e.fullSource = some text →
    e.modified = some recorded →
      ∃ v, past v ∧ v.NotBefore recorded ∧ (v.time = .ok recorded → v.Yields text)

/-- Whether a stage has no more than a path in the cache. -/
def IsBare (g : Generation) (c : SourceCache) : Prop :=
  ∀ e, c.entry? g.identity = some e → e.invalidated = e

/-- Whether the cache has no source of a stage but that of a view. -/
def CachesOnly (g : Generation) (v : View) (c : SourceCache) : Prop :=
  ∀ e text, c.entry? g.identity = some e → e.fullSource = some text → v.Yields text

theorem Follows.le (f : g.Follows files past) (seen : past v) {time : Int} (old : v.NotBefore time)
    (read : (g.view files).time = .ok now) : time ≤ now := by
  obtain ⟨own, dated, le⟩ := old
  rcases f.dated v seen with rfl | earlier
  · obtain rfl := Except.ok.inj (dated.symm.trans read)
    exact le
  · have before := earlier own now dated read
    omega

theorem CacheIsTraced.step (h : g.CacheIsTraced past c) (traced : phase.IsTraced past) :
    g.CacheIsTraced past (g.step files c phase).2 := by
  intro e text recorded known has dated
  rcases g.entry?_step files c phase with same | bare | ⟨time, body, source, rfl, entry⟩
  · exact h e text recorded (same ▸ known) has dated
  · rw [← bare e known] at has
    cases has
  · obtain rfl := Option.some.inj (entry.symm.trans known)
    obtain rfl := Option.some.inj has
    obtain rfl := Option.some.inj dated
    obtain ⟨v, seen, old, made⟩ := traced
    exact ⟨v, seen, old, fun _ => ⟨source, made, rfl⟩⟩

theorem isTraced_step (f : g.Follows files past) (c : SourceCache) (traced : phase.IsTraced past) :
    (g.step files c phase).1.IsTraced past := by
  cases phase with
  | readTime =>
    simp only [step]
    cases read : files.modificationTime g.request.path with
    | error e => trivial
    | ok time => exact ⟨_, f.seen, time, read, le_rfl⟩
  | registerPath time => exact traced
  | checkTime time =>
    simp only [step]
    split <;> exact traced
  | findSource time =>
    simp only [step]
    split
    · trivial
    · exact traced
  | invalidate time => exact traced
  | readBody time =>
    obtain ⟨v, seen, old⟩ := traced
    simp only [step]
    cases read : files.readText g.request.path with
    | error e => trivial
    | ok body =>
      -- Here the order of the two reads counts: the text is that of a view with a time, which is not before the time held.
      obtain ⟨now, dated⟩ := FileTree.exists_modificationTime read
      exact ⟨_, f.seen, ⟨now, dated, f.le seen old dated⟩, read⟩
  | assemble time body =>
    obtain ⟨v, seen, old, read⟩ := traced
    simp only [step]
    cases made : g.request.assemble g.catalog g.options files body with
    | error e => trivial
    | ok source => exact ⟨v, seen, old, (f.includes v body seen read).symm.trans made⟩
  | store time body source =>
    simp only [step]
    split <;> trivial
  | finished result => trivial

theorem Follows.yields (f : g.Follows files past) (h : g.CacheIsTraced past c)
    (read : (g.view files).time = .ok now) {e : CacheEntry} {recorded : Int}
    (known : c.entry? g.identity = some e) (has : e.fullSource = some text)
    (dated : e.modified = some recorded) (fresh : ¬ recorded < now) : (g.view files).Yields text := by
  obtain ⟨v, seen, ⟨own, marked, old⟩, yields⟩ := h e text recorded known has dated
  rcases f.dated v seen with rfl | earlier
  · obtain rfl : own = now := Except.ok.inj (marked.symm.trans read)
    obtain rfl : own = recorded := by omega
    exact yields marked
  · have before := earlier own now marked read
    omega

theorem run_of_traced (f : g.Follows files past) (h : g.CacheIsTraced past c) (text : String) :
    (g.run files c).1 = .ok text ↔ (g.view files).Yields text := by
  cases read : files.modificationTime g.request.path with
  | error e =>
    refine ⟨fun ran => by simp [run, read] at ran, fun yields => ?_⟩
    obtain ⟨body, source, held, _⟩ := yields_iff_assemblesTo.mp yields
    obtain ⟨time, dated⟩ := FileTree.exists_modificationTime held
    cases read.symm.trans dated
  | ok now =>
    rcases g.run_cases c read with
      ⟨e, text', known, ⟨_, has, recorded, dated, fresh⟩, ran⟩ | ⟨cleared, _, ran⟩
    · have yields := f.yields h read known has dated fresh
      rw [ran]
      refine ⟨fun same => Except.ok.inj same ▸ yields, fun other => ?_⟩
      exact congrArg Except.ok (yields.unique other)
    · rw [ran]
      cases made : (g.view files).source with
      | error e =>
        rw [regenerate_of_error made]
        constructor
        · intro ended
          cases ended
        · rintro ⟨source, made', _⟩
          cases made.symm.trans made'
      | ok source =>
        obtain ⟨body, c', _, comes, _⟩ := regenerate_of_source made cleared now
        have yields : (g.view files).Yields source.text := ⟨source, made, rfl⟩
        rw [comes]
        refine ⟨fun same => Except.ok.inj same ▸ yields, fun other => ?_⟩
        exact congrArg Except.ok (yields.unique other)

/-- From when a call has dropped what was cached until it stores its source, its own steps leave nothing there. -/
theorem isBare_step (h : phase.HasCleared → g.IsBare c)
    (cleared : (g.step files c phase).1.HasCleared) : g.IsBare (g.step files c phase).2 := by
  cases phase with
  | invalidate time => exact fun _ => SourceCache.invalidated_of_invalidate
  | readBody time =>
    simp only [step] at cleared ⊢
    split <;> exact h trivial
  | assemble time body =>
    simp only [step] at cleared ⊢
    split <;> exact h trivial
  | checkTime time =>
    simp only [step] at cleared
    split at cleared <;> exact cleared.elim
  | readTime | findSource time | store time body source =>
    simp only [step] at cleared
    split at cleared <;> exact cleared.elim
  | registerPath time | finished result => exact cleared.elim

theorem IsBare.step (h : g.IsBare c)
    (stores : ∀ time body source, phase ≠ .store time body source) :
    g.IsBare (g.step files c phase).2 := by
  rcases g.entry?_step files c phase with same | bare | ⟨time, body, source, storing, _⟩
  · exact fun e known => h e (same ▸ known)
  · exact bare
  · exact absurd storing (stores time body source)

theorem CachesOnly.step (h : g.CachesOnly v c) (holds : phase.HoldsOnly v) :
    g.CachesOnly v (g.step files c phase).2 := by
  intro e text known has
  rcases g.entry?_step files c phase with same | bare | ⟨time, body, source, rfl, entry⟩
  · exact h e text (same ▸ known) has
  · rw [← bare e known] at has
    cases has
  · obtain rfl := Option.some.inj (entry.symm.trans known)
    exact ⟨source, holds, Option.some.inj has⟩

theorem holdsOnly_step (c : SourceCache) (h : phase.HoldsOnly (g.view files)) :
    (g.step files c phase).1.HoldsOnly (g.view files) := by
  cases phase with
  | readBody time =>
    simp only [step]
    cases read : files.readText g.request.path with
    | error e => trivial
    | ok body => exact read
  | assemble time body =>
    have source := view_source_of_body h
    simp only [step]
    cases made : g.request.assemble g.catalog g.options files body with
    | error e => trivial
    | ok made' => exact source.trans made
  | checkTime time =>
    simp only [step]
    split <;> trivial
  | readTime | findSource time | store time body source =>
    simp only [step]
    split <;> trivial
  | registerPath time | invalidate time | finished result => trivial

theorem isLate_step {settled : Prop} (h : phase.IsLate (g.view files) settled)
    (found : settled → g.CachesOnly (g.view files) c)
    (fresh : ∀ time, phase = .checkTime time → c.isStale g.identity time = false → settled) :
    (g.step files c phase).1.IsLate (g.view files) settled := by
  have holds := holdsOnly_step c h.holdsOnly
  cases phase with
  | readTime =>
    simp only [step]
    cases read : files.modificationTime g.request.path with
    | error e => trivial
    | ok time => exact read
  | registerPath time => exact h
  | checkTime time =>
    simp only [step]
    cases stale : c.isStale g.identity time with
    | true => trivial
    | false => exact fresh time rfl stale
  | findSource time =>
    simp only [step]
    cases cached : c.fullSource? g.identity with
    | none => trivial
    | some text =>
      obtain ⟨e, known, has⟩ := Option.bind_eq_some_iff.mp cached
      exact found h e text known has
  | readBody time | assemble time body =>
    simp only [step] at holds ⊢
    split at holds <;> exact holds
  | invalidate time => trivial
  | store time body source =>
    obtain ⟨c', stored, _⟩ := g.apply_storeBatch c time body source
    simp only [step, stored]
    exact ⟨source, h, rfl⟩
  | finished result => exact h

end Generation

end ShaderPipeline
