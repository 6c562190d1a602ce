import CyreneReactor.Runtime.HotReload
import Mathlib.Tactic.Linarith

namespace CyreneReactor.Runtime.HotReload

open Interaction

/-! What the callbacks have last been given, and the runs in which it is the
configuration of the file.
-/

variable {Content Config Error : Type} {watcher : ConfigWatcher Content Config Error}
  {state next : State Content Config Error}

/-- The configurations of the valid contents among those that were loaded. -/
def configs (watcher : ConfigWatcher Content Config Error) (reloads : List (Reload Content)) :
    List Config :=
  reloads.filterMap fun reload => (watcher.load reload.loaded).toOption

/-- After a timely check of a file that stays as it is, its configuration is the last
one given, or the watcher was created with it and has loaded nothing since. -/
def Converged (watcher : ConfigWatcher Content Config Error) (state : State Content Config Error) :
    Prop :=
  state.phase matches .idle → state.checked = true →
    ∀ content config, state.file = some content → watcher.load (some content) = .ok config →
      state.given.getLast? = some config ∨ state.reloads = [] ∧ state.created = some content

/-- Callbacks are called for valid content only, and only for content that is not the
one seen before. -/
def CallsBackOnChange (watcher : ConfigWatcher Content Config Error)
    (state : State Content Config Error) : Prop :=
  state.given = configs watcher state.reloads ∧
    ∀ reload ∈ state.reloads, reload.seen ≠ reload.loaded

/-- The steps that do not lose a change: a poll that has stored a new hash goes on to a
reload that finds yet another one, the content loaded is the content hashed, and the clock
is not set back during a check. -/
def keepsChange (watcher : ConfigWatcher Content Config Error)
    (state : State Content Config Error) : Event Content → Bool
  | .reload =>
      match state.phase with
      | .reloading => !watcher.polling || (watcher.shouldReload state && watcher.hashChanged state)
      | _ => true
  | .load =>
      match state.phase with
      | .loading _ _ => decide (state.currentHash = some (watcher.computeFileHash state.file))
      | _ => true
  | .tick elapsed => (state.phase matches .idle) || decide (0 ≤ elapsed)
  | _ => true

/-- The last load is of the content hashed last. -/
def Synced (state : State Content Config Error) : Prop :=
  state.reloads = [] ∧ state.seen = state.created ∨
    ∃ last, state.reloads.getLast? = some last ∧ last.loaded = state.seen

/-- The phases in which the last load is that of the hash. -/
def Phase.settled (polling : Bool) : Phase Content → Bool
  | idle => true
  | reloading => !polling
  | loading _ _ => false

/-- What the steps keep. -/
structure Watched (watcher : ConfigWatcher Content Config Error)
    (state : State Content Config Error) : Prop where
  hashed : state.currentHash = state.seen.map watcher.hexdigest
  current : state.checked = true → ∀ content, state.file = some content →
    state.seen = some content
  timely : state.timely = true → (state.phase matches .reloading) →
    watcher.shouldReload state = true
  synced : state.phase.settled watcher.polling = true → Synced state
  given : state.given = configs watcher state.reloads
  changed : ∀ reload ∈ state.reloads, reload.seen ≠ reload.loaded
  loading : ∀ seen event, state.phase = .loading seen event → seen ≠ state.seen

section Steps

variable (injective : Function.Injective watcher.hexdigest)
  (named : ∀ content, watcher.hexdigest content ≠ "")

include injective named

/-- A hash that is not new is the hash of the content seen last. -/
theorem Watched.seen_of_unchanged (watched : Watched watcher state)
    (unchanged : watcher.hashChanged state = false) {content : Content}
    (file : state.file = some content) : state.seen = some content := by
  have same : some (watcher.hexdigest content) = state.currentHash := by
    simpa [ConfigWatcher.hashChanged, ConfigWatcher.computeFileHash, file, named] using unchanged
  rw [watched.hashed] at same
  obtain ⟨seen, here, equal⟩ := Option.map_eq_some_iff.mp same.symm
  rw [here, injective equal]

omit injective in
theorem Watched.new (file : Option Content) (clock : Rat) :
    Watched watcher (State.new watcher file clock) := by
  unfold State.new
  cases file with
  | none =>
      rw [ConfigWatcher.updateHash_of_unchanged rfl]
      exact ⟨rfl, nofun, nofun, fun _ => .inl ⟨rfl, rfl⟩, rfl, nofun, nofun⟩
  | some content =>
      rw [ConfigWatcher.updateHash_of_changed
        (by simp [ConfigWatcher.hashChanged, ConfigWatcher.computeFileHash, named])]
      exact ⟨rfl, nofun, nofun, fun _ => .inl ⟨rfl, rfl⟩, rfl, nofun, nofun⟩

omit injective named in
theorem Watched.write (watched : Watched watcher state) (file : Option Content) :
    Watched watcher { state with file, timely := false, checked := false } :=
  ⟨watched.hashed, nofun, nofun, watched.synced, watched.given, watched.changed, watched.loading⟩

omit injective named in
theorem shouldReload_eq : watcher.shouldReload state = state.debounced watcher := by
  simp only [ConfigWatcher.shouldReload, State.debounced, not_lt]

omit injective named in
theorem Watched.tick (watched : Watched watcher state) {elapsed : Rat}
    (keeps : keepsChange watcher state (.tick elapsed) = true) :
    Watched watcher { state with clock := state.clock + elapsed } := by
  refine ⟨watched.hashed, watched.current, fun timely phase => ?_, watched.synced, watched.given,
    watched.changed, watched.loading⟩
  have before := watched.timely timely phase
  have forward : 0 ≤ elapsed := by
    cases here : state.phase with
    | reloading => simpa [keepsChange, here] using keeps
    | idle | loading => simp [here] at phase
  simp only [ConfigWatcher.shouldReload, decide_eq_true_eq, not_lt] at before ⊢
  linarith

/-- A check that found nothing new is over. -/
theorem Watched.finish (watched : Watched watcher state) (synced : Synced state)
    (unchanged : state.timely = true → watcher.hashChanged state = false) :
    Watched watcher state.finish where
  hashed := watched.hashed
  current := by
    intro checked content file
    rcases Bool.or_eq_true_iff.mp checked with before | timely
    · exact watched.current before content file
    · exact watched.seen_of_unchanged injective named (unchanged timely) file
  timely := nofun
  synced _ := synced
  given := watched.given
  changed := watched.changed
  loading := nofun

omit injective named in
theorem readable_of_changed (changed : watcher.hashChanged state = true) :
    ∃ content, state.file = some content ∧
      some (watcher.hexdigest content) ≠ state.currentHash := by
  cases file : state.file with
  | none => simp [ConfigWatcher.hashChanged, ConfigWatcher.computeFileHash, file] at changed
  | some content =>
      simp only [ConfigWatcher.hashChanged, ConfigWatcher.computeFileHash, file,
        decide_eq_true_eq] at changed
      exact ⟨content, rfl, changed.2⟩

theorem Watched.poll (watched : Watched watcher state) (idle : state.phase = .idle)
    (polling : watcher.polling = true) : Watched watcher (state.poll watcher) := by
  have synced : Synced state := watched.synced (by rw [idle]; rfl)
  cases changed : watcher.hashChanged { state with timely := state.debounced watcher } with
  | false =>
      simp only [State.poll, ConfigWatcher.updateHash_of_unchanged changed, Bool.false_eq_true,
        if_false]
      have begun : Watched watcher { state with timely := state.debounced watcher } :=
        ⟨watched.hashed, watched.current, by rw [idle]; nofun, fun _ => synced, watched.given,
          watched.changed, watched.loading⟩
      exact begun.finish injective named synced fun _ => changed
  | true =>
      simp only [State.poll, ConfigWatcher.updateHash_of_changed changed, if_true]
      obtain ⟨content, file, _⟩ := readable_of_changed changed
      refine ⟨?_, fun _ _ here => here, fun timely _ => shouldReload_eq.trans timely, ?_,
        watched.given, watched.changed, nofun⟩
      · have here : state.file = some content := file
        simp [here, ConfigWatcher.computeFileHash]
      · simp [Phase.settled, polling]

theorem Watched.reload (watched : Watched watcher state) (phase : state.phase = .reloading)
    (keeps : keepsChange watcher state .reload = true) :
    Watched watcher (state.reload watcher) := by
  unfold State.reload
  split
  · rename_i goesOn
    obtain ⟨should, changed⟩ := Bool.and_eq_true_iff.mp goesOn
    obtain ⟨content, file, different⟩ := readable_of_changed changed
    constructor
    · simp [file, ConfigWatcher.computeFileHash]
    · exact fun _ _ here => here
    · exact nofun
    · exact nofun
    · exact watched.given
    · exact watched.changed
    · intro seen event same
      cases same
      intro equal
      rw [watched.hashed, equal, file] at different
      exact different rfl
  · rename_i stays
    have watching : watcher.polling = false := by
      simp only [keepsChange, phase, Bool.or_eq_true, Bool.not_eq_true'] at keeps
      exact keeps.resolve_right stays
    apply watched.finish injective named
    · exact watched.synced (by rw [phase, Phase.settled, watching]; rfl)
    · intro timely
      have should := watched.timely timely (by rw [phase])
      simpa [should] using stays

theorem Watched.load (watched : Watched watcher state) {seen : Option Content}
    {event : ReloadEvent} (phase : state.phase = .loading seen event)
    (keeps : keepsChange watcher state .load = true) :
    Watched watcher (state.load watcher seen event) := by
  have different := watched.loading seen event phase
  have same : state.file = state.seen := by
    simp only [keepsChange, phase, decide_eq_true_eq, watched.hashed] at keeps
    obtain ⟨content, here, digest⟩ := Option.map_eq_some_iff.mp keeps
    cases file : state.file with
    | none =>
        rw [file] at digest
        exact absurd digest (named content)
    | some read =>
        rw [file] at digest
        rw [here, injective digest]
  have changed : ∀ reload ∈ state.reloads ++ [Reload.mk seen state.file],
      reload.seen ≠ reload.loaded := by
    intro reload member
    rcases List.mem_append.mp member with before | last
    · exact watched.changed reload before
    · obtain rfl := List.mem_singleton.mp last
      rw [same]
      exact different
  have last : (state.reloads ++ [Reload.mk seen state.file]).getLast? =
      some ⟨seen, state.file⟩ := by simp
  unfold State.load
  cases loaded : watcher.load state.file with
  | ok config =>
      have given : state.given ++ [config] =
          configs watcher (state.reloads ++ [Reload.mk seen state.file]) := by
        simp [configs, watched.given, loaded, Except.toOption]
      exact ⟨watched.hashed, fun _ _ file => same ▸ file, nofun, fun _ => .inr ⟨_, last, same⟩,
        given, changed, nofun⟩
  | error error =>
      have given : state.given =
          configs watcher (state.reloads ++ [Reload.mk seen state.file]) := by
        simp [configs, watched.given, loaded, Except.toOption]
      exact ⟨watched.hashed, fun _ _ file => same ▸ file, nofun, fun _ => .inr ⟨_, last, same⟩,
        given, changed, nofun⟩

omit injective named in
theorem Watched.modified (watched : Watched watcher state) (idle : state.phase = .idle) :
    Watched watcher
      { state with phase := .reloading, timely := state.debounced watcher } :=
  ⟨watched.hashed, watched.current, fun timely _ => shouldReload_eq.trans timely,
    fun _ => watched.synced (by rw [idle]; rfl), watched.given, watched.changed, nofun⟩

theorem Watched.step (watched : Watched watcher state) {event : Event Content}
    (keeps : keepsChange watcher state event = true)
    (stepped : state.step watcher event = some next) : Watched watcher next := by
  cases event with
  | write file =>
      cases stepped
      exact watched.write file
  | tick elapsed =>
      cases stepped
      exact watched.tick keeps
  | poll =>
      simp only [State.step] at stepped
      split at stepped
      · rename_i idle
        split at stepped
        · rename_i polling
          cases stepped
          exact watched.poll injective named idle polling
        · cases stepped
      · cases stepped
  | modified =>
      simp only [State.step] at stepped
      split at stepped
      · rename_i idle
        split at stepped
        · cases stepped
        · cases stepped
          exact watched.modified idle
      · cases stepped
  | reload =>
      simp only [State.step] at stepped
      split at stepped
      · rename_i phase
        cases stepped
        exact watched.reload injective named phase keeps
      · cases stepped
  | load =>
      simp only [State.step] at stepped
      split at stepped
      · rename_i phase
        cases stepped
        exact watched.load injective named phase keeps
      · cases stepped

omit injective named in
theorem Watched.converged (watched : Watched watcher state) : Converged watcher state := by
  intro idle checked content config file valid
  have settled : state.phase.settled watcher.polling = true := by
    cases phase : state.phase with
    | idle => rfl
    | reloading | loading _ _ => simp [phase] at idle
  have seen := watched.current checked content file
  rcases watched.synced settled with ⟨none, created⟩ | ⟨last, here, loaded⟩
  · exact .inr ⟨none, created.symm.trans seen⟩
  · refine .inl ?_
    obtain ⟨before, split⟩ := List.getLast?_eq_some_iff.mp here
    rw [watched.given, split, configs, List.filterMap_append]
    simp [loaded, seen, valid, Except.toOption]

end Steps

/-- As long as no step loses a change, a watcher converges, and its callbacks are called
for valid content that is new. -/
theorem hot_reload_converges (injective : Function.Injective watcher.hexdigest)
    (named : ∀ content, watcher.hexdigest content ≠ "") {file : Option Content} {clock : Rat}
    (runs : (machine watcher).Runs (fun state event => keepsChange watcher state event = true)
      (State.new watcher file clock) state) :
    Converged watcher state ∧ CallsBackOnChange watcher state := by
  have watched : Watched watcher state :=
    runs.invariant (Watched watcher)
      (fun _ _ _ watched keeps stepped => watched.step injective named keeps stepped)
      (.new named file clock)
  exact ⟨watched.converged, watched.given, watched.changed⟩

/-- Nobody writes the file while a check is under way. -/
def betweenChecks (state : State Content Config Error) : Event Content → Bool
  | .write _ => (state.phase matches .idle)
  | _ => true

/-- A poll leaves `_do_reload` nothing to find. -/
structure Barren (watcher : ConfigWatcher Content Config Error)
    (state : State Content Config Error) : Prop where
  unloaded : state.given = [] ∧ state.reloads = []
  reloading : state.phase = .reloading → watcher.hashChanged state = false
  loading : ∀ seen event, state.phase ≠ .loading seen event

theorem Barren.step (polling : watcher.polling = true) (barren : Barren watcher state)
    {event : Event Content} (between : betweenChecks state event = true)
    (stepped : state.step watcher event = some next) : Barren watcher next := by
  cases event with
  | write file =>
      cases stepped
      refine ⟨barren.unloaded, fun phase => ?_, barren.loading⟩
      have here : state.phase = .reloading := phase
      simp [betweenChecks, here] at between
  | tick elapsed =>
      cases stepped
      exact ⟨barren.unloaded, barren.reloading, barren.loading⟩
  | poll =>
      simp only [State.step] at stepped
      split at stepped
      · rw [if_pos polling] at stepped
        cases stepped
        cases changed : watcher.hashChanged { state with timely := state.debounced watcher } with
        | false =>
            simp only [State.poll, ConfigWatcher.updateHash_of_unchanged changed,
              Bool.false_eq_true, if_false]
            exact ⟨barren.unloaded, nofun, nofun⟩
        | true =>
            simp only [State.poll, ConfigWatcher.updateHash_of_changed changed, if_true]
            exact ⟨barren.unloaded, fun _ => by simp [ConfigWatcher.hashChanged], nofun⟩
      · cases stepped
  | modified =>
      simp only [State.step] at stepped
      split at stepped
      · rw [if_pos polling] at stepped
        cases stepped
      · cases stepped
  | reload =>
      simp only [State.step] at stepped
      split at stepped
      · rename_i phase
        cases stepped
        unfold State.reload
        rw [barren.reloading phase, Bool.and_false, if_neg Bool.false_ne_true]
        exact ⟨barren.unloaded, nofun, nofun⟩
      · cases stepped
  | load =>
      simp only [State.step] at stepped
      split at stepped
      · rename_i phase
        exact absurd phase (barren.loading _ _)
      · cases stepped

/-- A polling watcher whose file is written between its checks only never gives its
callbacks anything. -/
theorem polling_never_reloads (polling : watcher.polling = true) {file : Option Content}
    {clock : Rat}
    (runs : (machine watcher).Runs (fun state event => betweenChecks state event = true)
      (State.new watcher file clock) state) :
    state.given = [] ∧ state.reloads = [] := by
  have initially : Barren watcher (State.new watcher file clock) := by
    simp only [State.new, ConfigWatcher.updateHash]
    split
    · exact ⟨⟨rfl, rfl⟩, nofun, nofun⟩
    · exact ⟨⟨rfl, rfl⟩, nofun, nofun⟩
  exact (runs.invariant (Barren watcher)
    (fun _ _ _ barren between stepped => barren.step polling between stepped) initially).unloaded

namespace Sample

inductive Registry where
  | first
  | second
  | broken
deriving DecidableEq

def registryWatcher (polling : Bool) : ConfigWatcher Registry Registry Unit where
  polling
  debounceSeconds := 1
  hexdigest
    | .first => "1"
    | .second => "2"
    | .broken => "3"
  load
    | some .first => .ok .first
    | some .second => .ok .second
    | _ => .error ()

theorem registryWatcher_injective (polling : Bool) :
    Function.Injective (registryWatcher polling).hexdigest := by
  intro left right
  cases left <;> cases right <;> simp [registryWatcher]

theorem registryWatcher_named (polling : Bool) (content : Registry) :
    (registryWatcher polling).hexdigest content ≠ "" := by
  cases content <;> simp [registryWatcher]

/-- The file is broken for a while and then valid again, and the clock is set back in between. -/
def watched : List (Event Registry) :=
  [.tick 10, .write (some .broken), .modified, .reload, .load, .tick 5, .tick (-2),
    .write (some .second), .modified, .reload, .load]

/-- One edit, and one poll long after it. -/
def polled : List (Event Registry) := [.write (some .second), .tick 10, .poll, .reload]

end Sample

theorem hot_reload_converges_watched :
    ∃ state, (machine (Sample.registryWatcher false)).Runs
        (fun state event => keepsChange (Sample.registryWatcher false) state event = true)
        (State.new (Sample.registryWatcher false) (some .first) 0) state ∧
      Converged (Sample.registryWatcher false) state ∧
      CallsBackOnChange (Sample.registryWatcher false) state ∧
      state.checked = true ∧ state.given = [.second] := by
  have played : ((machine (Sample.registryWatcher false)).play
      (keepsChange (Sample.registryWatcher false))
      (State.new (Sample.registryWatcher false) (some .first) 0) Sample.watched).map
        (fun state => (state.checked, state.given)) = some (true, [.second]) := by decide +kernel
  obtain ⟨state, reached, ends⟩ := Option.map_eq_some_iff.mp played
  have runs := Machine.runs_of_play (fun _ _ admitted => admitted) reached
  have both := hot_reload_converges (Sample.registryWatcher_injective false)
    (Sample.registryWatcher_named false) runs
  exact ⟨state, runs, both.1, both.2, (Prod.mk.inj ends).1, (Prod.mk.inj ends).2⟩

/-- The poll has stored the hash of the new content, and nobody is told of it. -/
theorem polled_change_is_swallowed :
    ¬ ∀ (watcher : ConfigWatcher Sample.Registry Sample.Registry Unit),
      Function.Injective watcher.hexdigest → (∀ content, watcher.hexdigest content ≠ "") →
      ∀ file clock state,
        (machine watcher).Runs (fun _ _ => True) (State.new watcher file clock) state →
        (state.phase matches .idle) → state.checked = true → ∀ content config,
          state.file = some content → watcher.load (some content) = .ok config →
          state.given.getLast? = some config ∨ state.created = some content := by
  intro converges
  have played : ((machine (Sample.registryWatcher true)).play (fun _ _ => true)
      (State.new (Sample.registryWatcher true) (some .first) 0) Sample.polled).map
        (fun state => (state.phase matches .idle, state.checked, state.file, state.given,
          state.created)) = some (true, true, some .second, [], some .first) := by decide +kernel
  obtain ⟨state, reached, ends⟩ := Option.map_eq_some_iff.mp played
  have runs : (machine (Sample.registryWatcher true)).Runs (fun _ _ => True) _ state :=
    Machine.runs_of_play (fun _ _ _ => trivial) reached
  simp only [Prod.mk.injEq] at ends
  obtain ⟨idle, checked, file, given, created⟩ := ends
  have outcome := converges _ (Sample.registryWatcher_injective true)
    (Sample.registryWatcher_named true) _ _ _ runs idle checked .second .second file rfl
  simp [given, created] at outcome

end CyreneReactor.Runtime.HotReload
