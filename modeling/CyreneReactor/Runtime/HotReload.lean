import Mathlib.Algebra.Order.Ring.Rat
import CyreneReactor.Interaction.Machine

namespace CyreneReactor.Runtime.HotReload

open Interaction

/-! `ConfigWatcher`: a file that others write, and the loop or the file events that
reload it.

The file is read up to three times in one check: for the hash of a poll, for the hash of
the reload, and for the configuration itself.  Others may write in between, and the
clock goes on, or is set back.
-/

structure ReloadEvent where
  oldHash : String
  newHash : String
  timestamp : Rat
deriving DecidableEq

/-- What is fixed when the watcher is constructed.  `load` is `load_worker_config` for
the content of the file; a file that cannot be read has none. -/
structure ConfigWatcher (Content Config Error : Type) where
  polling : Bool
  debounceSeconds : Rat
  hexdigest : Content → String
  load : Option Content → Except Error Config

/-- Where the one thread that checks stands: in between checks, about to call
`_do_reload`, or about to load what it has hashed. -/
inductive Phase (Content : Type) where
  | idle
  | reloading
  | loading (seen : Option Content) (event : ReloadEvent)

/-- A load, the content seen before it and the content loaded. -/
structure Reload (Content : Type) where
  seen : Option Content
  loaded : Option Content

/-- The watcher and its file, and what an observer notes: the content the watcher was
created with and the one it hashed last, its loads, and whether the file has stayed as it
is since a check that began once the debounce interval had passed. -/
structure State (Content Config Error : Type) where
  file : Option Content
  clock : Rat
  currentHash : Option String
  lastReloadTime : Rat
  phase : Phase Content
  given : List Config
  reported : List ReloadEvent
  failed : List Error
  created : Option Content
  seen : Option Content
  reloads : List (Reload Content)
  timely : Bool
  checked : Bool

inductive Event (Content : Type) where
  | write (file : Option Content)
  | tick (elapsed : Rat)
  | poll
  | modified
  | reload
  | load

variable {Content Config Error : Type} (watcher : ConfigWatcher Content Config Error)

namespace ConfigWatcher

/-- `_compute_file_hash` -/
def computeFileHash : Option Content → String
  | some content => watcher.hexdigest content
  | none => ""

variable (state : State Content Config Error)

/-- `_update_hash` -/
def updateHash : State Content Config Error × Bool :=
  let newHash := watcher.computeFileHash state.file
  if newHash ≠ "" ∧ some newHash ≠ state.currentHash then
    ({ state with currentHash := some newHash, seen := state.file }, true)
  else (state, false)

/-- `_should_reload` -/
def shouldReload : Bool := decide ¬ state.clock - state.lastReloadTime < watcher.debounceSeconds

/-- `_do_reload` reads a hash that is new. -/
def hashChanged : Bool :=
  decide (watcher.computeFileHash state.file ≠ "" ∧
    some (watcher.computeFileHash state.file) ≠ state.currentHash)

variable {watcher state}

theorem updateHash_of_changed (changed : watcher.hashChanged state = true) :
    watcher.updateHash state =
      ({ state with
          currentHash := some (watcher.computeFileHash state.file), seen := state.file }, true) :=
  if_pos (of_decide_eq_true changed)

theorem updateHash_of_unchanged (unchanged : watcher.hashChanged state = false) :
    watcher.updateHash state = (state, false) :=
  if_neg (of_decide_eq_false unchanged)

end ConfigWatcher

namespace State

variable (state : State Content Config Error)

/-- The debounce interval has passed since the last reload. -/
def debounced : Bool := decide (watcher.debounceSeconds ≤ state.clock - state.lastReloadTime)

/-- `ConfigWatcher(...)` over a file, whose hash is taken at once. -/
def new (file : Option Content) (clock : Rat) : State Content Config Error :=
  (watcher.updateHash
    { file, clock, currentHash := none, lastReloadTime := 0, phase := .idle, given := [],
      reported := [], failed := [], created := file, seen := none, reloads := [],
      timely := false, checked := false }).1

/-- The check is over. -/
def finish : State Content Config Error :=
  { state with phase := .idle, checked := state.checked || state.timely, timely := false }

/-- A poll: a new hash is stored, and only then `_do_reload` is called. -/
def poll : State Content Config Error :=
  let begun := { state with timely := state.debounced watcher }
  if (watcher.updateHash begun).2 then
    { (watcher.updateHash begun).1 with phase := .reloading }
  else begun.finish

/-- `_do_reload`, up to the load. -/
def reload : State Content Config Error :=
  if watcher.shouldReload state && watcher.hashChanged state then
    let newHash := watcher.computeFileHash state.file
    { state with
      lastReloadTime := state.clock
      currentHash := some newHash
      seen := state.file
      phase := .loading state.seen ⟨state.currentHash.getD "", newHash, state.clock⟩ }
  else state.finish

/-- The rest of `_do_reload`: the configuration goes to the callbacks, or the error does. -/
def load (seen : Option Content) (event : ReloadEvent) : State Content Config Error :=
  match watcher.load state.file with
  | .ok config =>
      { state with
        given := state.given ++ [config]
        reported := state.reported ++ [event]
        reloads := state.reloads ++ [Reload.mk seen state.file] }.finish
  | .error error =>
      { state with
        failed := state.failed ++ [error]
        reloads := state.reloads ++ [Reload.mk seen state.file] }.finish

def step : Event Content → Option (State Content Config Error)
  | .write file => some { state with file, timely := false, checked := false }
  | .tick elapsed => some { state with clock := state.clock + elapsed }
  | .poll =>
      match state.phase with
      | .idle => if watcher.polling then some (state.poll watcher) else none
      | _ => none
  | .modified =>
      match state.phase with
      | .idle =>
          if watcher.polling then none
          else some { state with phase := .reloading, timely := state.debounced watcher }
      | _ => none
  | .reload =>
      match state.phase with
      | .reloading => some (state.reload watcher)
      | _ => none
  | .load =>
      match state.phase with
      | .loading seen event => some (state.load watcher seen event)
      | _ => none

end State

def machine : Machine (State Content Config Error) (Event Content) where
  step state := state.step watcher

end CyreneReactor.Runtime.HotReload
