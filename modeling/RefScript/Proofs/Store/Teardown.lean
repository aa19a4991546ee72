import RefScript.Proofs.Store.Requests

namespace RefScript

/-!
# Recounting and the end of scopes

Recounting the live handles and releasing the references of a scope touch the
flags, the count, the reports and the list of stray references. The variables,
the heap, the frames, the functions and the input stay as they are, and so does
the number of flags.
-/

namespace Liveness

/-- A recount leaves the flags and brings the count up to date. -/
theorem recount_snd (liveness : Liveness) :
    liveness.recount.2 = ⟨liveness.flags, liveness.liveCount⟩ := by
  unfold recount
  split
  case isTrue current =>
    rw [current]
  case isFalse =>
    rfl

/-- While the count is up to date, a recount reports nothing. -/
theorem recount_of_current
    {liveness : Liveness}
    (current : liveness.reachable = liveness.liveCount) :
    liveness.recount = (none, liveness) := by
  unfold recount
  rw [if_pos current.symm]

/-- Clearing a flag leaves the number of flags and the count. -/
theorem markDead?_eq_some
    {liveness cleared : Liveness}
    {raw : Word}
    (tracked : liveness.markDead? raw = some cleared) :
    cleared.size = liveness.size ∧ cleared.reachable = liveness.reachable := by
  unfold markDead? at tracked
  cases spelled : Word.toHandle? raw with
  | none =>
      simp [spelled] at tracked
  | some handle =>
      simp only [spelled, Option.ite_none_right_eq_some, Option.some.injEq] at tracked
      obtain ⟨_, rfl⟩ := tracked
      simp [size]

/-- A raw value is stray if it is negative, or at least the number of flags. -/
theorem markDead?_eq_none_iff {liveness : Liveness} {raw : Word} :
    liveness.markDead? raw = none ↔ raw.toInt < 0 ∨ (liveness.size : Int) ≤ raw.toInt := by
  unfold markDead? Word.toHandle?
  by_cases negative : raw.toInt < 0
  · simp [negative]
  · simp only [negative, ↓reduceIte, ite_eq_right_iff, reduceCtorEq, imp_false, Nat.not_lt,
      false_or]
    omega

/-- A handle next in order is appended to the flags. -/
theorem trackLive_size (liveness : Liveness) :
    liveness.trackLive liveness.size =
      { liveness with flags := liveness.flags.push true } := by
  unfold trackLive
  rw [if_pos rfl]

private theorem map_isLive_range (liveness : Liveness) :
    (List.range liveness.size).map liveness.isLive = liveness.flags.toList := by
  apply List.ext_getElem
  · simp [size]
  · intro handle inRange inFlags
    have tracked : handle < liveness.flags.size := by
      simpa using inFlags
    simp [isLive, Array.getD, tracked]

/-- The number of raised flags is the number of live handles. -/
theorem countP_isLive (liveness : Liveness) :
    (List.range liveness.size).countP liveness.isLive = liveness.liveCount := by
  calc
    (List.range liveness.size).countP liveness.isLive =
        ((List.range liveness.size).map liveness.isLive).countP (· == true) := by
      simp [List.countP_map, Function.comp_def]
    _ = liveness.liveCount := by
      rw [map_isLive_range, liveCount, ← Array.count_toList, List.count]

end Liveness

namespace Store

variable {Body : Type}

/-- Two stores with the same variables, heap, frames, functions, input and settings. -/
structure SameStorage (before after : Store Body) : Prop where
  globals : after.globals = before.globals
  heap : after.heap = before.heap
  stack : after.stack = before.stack
  functions : after.functions = before.functions
  input : after.input = before.input
  settings : after.settings = before.settings

namespace SameStorage

theorem trans
    {before between after : Store Body}
    (first : SameStorage before between)
    (second : SameStorage between after) :
    SameStorage before after where
  globals := second.globals.trans first.globals
  heap := second.heap.trans first.heap
  stack := second.stack.trans first.stack
  functions := second.functions.trans first.functions
  input := second.input.trans first.input
  settings := second.settings.trans first.settings

theorem callDepth_eq
    {before after : Store Body}
    (same : SameStorage before after) :
    after.callDepth = before.callDepth :=
  congrArg CallStack.depth same.stack

end SameStorage

/-- A recount changes the count, and reports it if it has changed. -/
theorem recount_eq (store : Store Body) :
    ∃ reporter console,
      store.recount =
        { store with
          liveness := ⟨store.liveness.flags, store.liveness.liveCount⟩
          reporter
          console } := by
  have counted := Liveness.recount_snd store.liveness
  unfold recount
  cases outcome : store.liveness.recount with
  | mk report liveness =>
      rw [outcome] at counted
      cases counted
      cases report with
      | none =>
          exact ⟨store.reporter, store.console, rfl⟩
      | some count =>
          exact ⟨_, _, rfl⟩

theorem sameStorage_recount (store : Store Body) :
    SameStorage store store.recount := by
  obtain ⟨reporter, console, shape⟩ := recount_eq store
  rw [shape]
  exact ⟨rfl, rfl, rfl, rfl, rfl, rfl⟩

theorem liveness_recount (store : Store Body) :
    store.recount.liveness = ⟨store.liveness.flags, store.liveness.liveCount⟩ := by
  obtain ⟨reporter, console, shape⟩ := recount_eq store
  rw [shape]

theorem strays_recount (store : Store Body) : store.recount.strays = store.strays := by
  obtain ⟨reporter, console, shape⟩ := recount_eq store
  rw [shape]

/-- While the count is up to date, a recount changes nothing. -/
theorem recount_of_current
    {store : Store Body}
    (current : store.liveness.reachable = store.liveness.liveCount) :
    store.recount = store := by
  unfold recount
  rw [Liveness.recount_of_current current]

/-- Retiring a raw value clears a flag or notes a stray reference. -/
theorem retire_eq (store : Store Body) (raw : Word) :
    ∃ liveness strays,
      store.retire raw = { store with liveness, strays } ∧
        liveness.size = store.liveness.size := by
  unfold retire
  cases tracked : store.liveness.markDead? raw with
  | none =>
      exact ⟨store.liveness, _, rfl, rfl⟩
  | some cleared =>
      exact ⟨cleared, store.strays, rfl, (Liveness.markDead?_eq_some tracked).1⟩

private theorem foldl_retire_eq (raws : List Word) (store : Store Body) :
    ∃ liveness strays,
      raws.foldl retire store = { store with liveness, strays } ∧
        liveness.size = store.liveness.size := by
  induction raws generalizing store with
  | nil =>
      exact ⟨store.liveness, store.strays, rfl, rfl⟩
  | cons raw rest inductionHypothesis =>
      obtain ⟨liveness, strays, retired, sameSize⟩ := retire_eq store raw
      obtain ⟨laterLiveness, laterStrays, laterRetired, laterSize⟩ :=
        inductionHypothesis (store.retire raw)
      refine ⟨laterLiveness, laterStrays, ?_, ?_⟩
      · rw [List.foldl_cons, laterRetired, retired]
      · rw [laterSize, retired]
        exact sameSize

/-- Releasing scopes clears flags and notes stray references. -/
theorem foldl_release_eq (scopes : List Scope) (store : Store Body) :
    ∃ liveness strays,
      scopes.foldl release store = { store with liveness, strays } ∧
        liveness.size = store.liveness.size := by
  induction scopes generalizing store with
  | nil =>
      exact ⟨store.liveness, store.strays, rfl, rfl⟩
  | cons scope rest inductionHypothesis =>
      obtain ⟨liveness, strays, released, sameSize⟩ :=
        foldl_retire_eq scope.boundRefs store
      obtain ⟨laterLiveness, laterStrays, laterReleased, laterSize⟩ :=
        inductionHypothesis (store.release scope)
      refine ⟨laterLiveness, laterStrays, ?_, ?_⟩
      · rw [List.foldl_cons, laterReleased, release, released]
      · rw [laterSize, release, released]
        exact sameSize

/-- Whatever clearing a flag preserves holds of the flags after scopes are released. -/
theorem liveness_foldl_release
    {holds : Liveness → Prop}
    (cleared :
      ∀ {liveness later : Liveness} {raw : Word},
        liveness.markDead? raw = some later → holds liveness → holds later)
    (scopes : List Scope)
    (store : Store Body)
    (before : holds store.liveness) :
    holds (scopes.foldl release store).liveness := by
  have retired (raw : Word) (current : Store Body) (kept : holds current.liveness) :
      holds (current.retire raw).liveness := by
    unfold retire
    cases tracked : current.liveness.markDead? raw with
    | some later => exact cleared tracked kept
    | none => exact kept
  have released (raws : List Word) (current : Store Body) (kept : holds current.liveness) :
      holds (raws.foldl retire current).liveness := by
    induction raws generalizing current with
    | nil => exact kept
    | cons raw rest inductionHypothesis => exact inductionHypothesis _ (retired raw current kept)
  induction scopes generalizing store with
  | nil => exact before
  | cons scope rest inductionHypothesis =>
      exact inductionHypothesis _ (released scope.boundRefs store before)

/-- The stray references among raw values that are released, given the number of flags. -/
def straysAmong (tracked : Nat) (raws : List Word) : List StrayRef :=
  (raws.filter fun raw => raw.toInt < 0 ∨ (tracked : Int) ≤ raw.toInt).map fun raw =>
    ⟨raw, tracked⟩

/-- Retiring raw values notes those that are stray, in order, and changes no other notes. -/
theorem strays_foldl_retire (raws : List Word) (store : Store Body) :
    (raws.foldl retire store).strays.toList =
      store.strays.toList ++ straysAmong store.liveness.size raws := by
  induction raws generalizing store with
  | nil =>
      simp [straysAmong]
  | cons raw rest inductionHypothesis =>
      obtain ⟨_, _, retired, sameSize⟩ := retire_eq store raw
      have sizeAfter : (store.retire raw).liveness.size = store.liveness.size := by
        rw [retired]
        exact sameSize
      rw [List.foldl_cons, inductionHypothesis, sizeAfter]
      unfold retire
      cases tracked : store.liveness.markDead? raw with
      | none =>
          have stray := Liveness.markDead?_eq_none_iff.mp tracked
          simp [straysAmong, stray]
      | some cleared =>
          have notStray : ¬ (raw.toInt < 0 ∨ (store.liveness.size : Int) ≤ raw.toInt) :=
            fun stray => by simp [Liveness.markDead?_eq_none_iff.mpr stray] at tracked
          simp [straysAmong, notStray]

/-- Where scopes end, the references that they have bound are retired one by one. -/
theorem endScopes_eq_foldl_retire (store : Store Body) (scopes : List Scope) :
    store.endScopes scopes =
      ((scopes.reverse.flatMap Scope.boundRefs).foldl retire store).recount := by
  rw [List.foldl_flatMap]
  rfl

/-- The end of scopes notes the stray references among those that the scopes have bound. -/
theorem strays_endScopes (store : Store Body) (scopes : List Scope) :
    (store.endScopes scopes).strays.toList =
      store.strays.toList ++
        straysAmong store.liveness.size (scopes.reverse.flatMap Scope.boundRefs) := by
  rw [endScopes_eq_foldl_retire, strays_recount, strays_foldl_retire]

theorem sameStorage_endScopes (store : Store Body) (scopes : List Scope) :
    SameStorage store (store.endScopes scopes) := by
  obtain ⟨liveness, strays, released, _⟩ := foldl_release_eq scopes.reverse store
  refine SameStorage.trans ?_ (sameStorage_recount _)
  rw [released]
  exact ⟨rfl, rfl, rfl, rfl, rfl, rfl⟩

/-- The end of scopes leaves the number of flags, and the count is up to date. -/
theorem liveness_endScopes (store : Store Body) (scopes : List Scope) :
    (store.endScopes scopes).liveness.size = store.liveness.size ∧
      (store.endScopes scopes).liveness.reachable =
        (store.endScopes scopes).liveness.liveCount := by
  obtain ⟨liveness, strays, released, sameSize⟩ := foldl_release_eq scopes.reverse store
  rw [endScopes, liveness_recount, released]
  exact ⟨sameSize, rfl⟩

/--
A change of the store that neither sees nor touches the flags, the reports and
the stray references.
-/
def Detached (change : Store Body → Store Body) : Prop :=
  ∀ store liveness reporter console strays,
    change { store with liveness, reporter, console, strays } =
      { change store with liveness, reporter, console, strays }

namespace Detached

variable {change : Store Body → Store Body}

private theorem kept (detached : Detached change) (store : Store Body) :
    (change store).liveness = store.liveness ∧
      (change store).reporter = store.reporter ∧
        (change store).console = store.console ∧
          (change store).strays = store.strays := by
  have same := detached store store.liveness store.reporter store.console store.strays
  have liveness := congrArg Store.liveness same
  have reporter := congrArg Store.reporter same
  have console := congrArg Store.console same
  have strays := congrArg Store.strays same
  exact ⟨liveness, reporter, console, strays⟩

theorem recount (detached : Detached change) (store : Store Body) :
    (change store).recount = change store.recount := by
  obtain ⟨liveness, reporter, console, strays⟩ := detached.kept store
  unfold Store.recount notify
  simp only [liveness, reporter, console]
  split
  · have commuted := detached store ‹_› store.reporter store.console store.strays
    rw [commuted, ← reporter, ← console, ← strays]
  · have commuted :=
      detached store ‹_› (store.reporter.notify ‹_›)
        (store.console ++ store.reporter.consoleLines ‹_›) store.strays
    rw [commuted, ← strays]

theorem retire (detached : Detached change) (store : Store Body) (raw : Word) :
    (change store).retire raw = change (store.retire raw) := by
  obtain ⟨liveness, reporter, console, strays⟩ := detached.kept store
  unfold Store.retire
  simp only [liveness, strays]
  split
  · have commuted := detached store ‹_› store.reporter store.console store.strays
    rw [commuted, ← reporter, ← console, ← strays]
  · have commuted :=
      detached store store.liveness store.reporter store.console
        (store.strays.push ⟨raw, store.liveness.size⟩)
    rw [commuted, ← liveness, ← reporter, ← console]

/-- The end of scopes does not see what has been changed. -/
theorem endScopes (detached : Detached change) (store : Store Body) (scopes : List Scope) :
    (change store).endScopes scopes = change (store.endScopes scopes) := by
  have released (before : Store Body) (scope : Scope) :
      (change before).release scope = change (before.release scope) :=
    List.foldl_hom change detached.retire
  have allReleased :
      scopes.reverse.foldl release (change store) = change (scopes.reverse.foldl release store) :=
    List.foldl_hom change released
  rw [Store.endScopes, allReleased, detached.recount, Store.endScopes]

end Detached

/-- A granted request leaves the settings. -/
theorem Granted.settings_eq
    {store next : Store Body}
    {operation : Operation Body}
    {reply : Reply Body}
    (granted : Granted store operation reply next) :
    next.settings = store.settings := by
  cases granted with
  | writeScalar found isInt assigned =>
      obtain ⟨stack, globals, rfl⟩ := assign?_others assigned
      rfl
  | allocate found isRef fits assigned =>
      obtain ⟨stack, globals, rfl⟩ := assign?_others assigned
      exact (sameStorage_recount _).settings
  | copy found assigned =>
      obtain ⟨stack, globals, rfl⟩ := assign?_others assigned
      rfl
  | popScope active popped =>
      exact (sameStorage_endScopes _ _).settings
  | popFrame active =>
      exact (sameStorage_endScopes _ _).settings
  | recount =>
      exact (sameStorage_recount store).settings
  | _ =>
      rfl

end Store

end RefScript
