import Mathlib.Data.List.AList
import Mathlib.Data.List.Sort
import CyreneReactor.Interaction.Machine

namespace CyreneReactor.Runtime

open Interaction

/-! `InferenceServer.ensure_model`, `unload_model` and `shutdown` over
`ModelResidencyRegistry`.

Any number of calls are under way, each somewhere in its function.  The lock of a
model is held by a call that stands between `with lock:` and the end of that block,
so whether it is free is read off the calls.  Whether an engine loads or unloads
is left open.
-/

namespace Residency

inductive EngineStatus where
  | loading
  | loaded
  | failed
  | released
deriving DecidableEq, Repr

/-- A handle of the engine factory, with the number of times `unload_model` was called. -/
structure Engine where
  modelId : String
  status : EngineStatus
  unloads : Nat
deriving DecidableEq, Repr

/-- Where a call stands: the first ten and the last three of `ensure_model`, the others of
`unload_model`. -/
inductive Phase where
  | entering
  | peeking
  | awaiting
  | rechecking
  | connecting
  | loading (engine : Nat)
  | cleaning (engine : Nat)
  | registering (engine : Nat)
  | leaving (engine : Option Nat)
  | returning (engine : Nat)
  | unloadAwaiting
  | looking
  | unloading (engine : Nat)
  | unregistering (engine : Nat)
  | unloadLeaving (raised : Bool)
  | unloaded (raised : Bool)
  | handedOut (engine : Nat)
  | raised
deriving DecidableEq, Repr

namespace Phase

/-- Inside `with lock:`. -/
def critical : Phase → Bool
  | rechecking | connecting | loading _ | cleaning _ | registering _ | leaving _ | looking
  | unloading _ | unregistering _ | unloadLeaving _ => true
  | _ => false

/-- Returned or raised. -/
def isOver : Phase → Bool
  | handedOut _ | raised | unloaded _ => true
  | _ => false

end Phase

/-- A call of `ensure_model` or `unload_model`; `placeholder` is whether the path of the
model is the placeholder and that is not let through. -/
structure Call where
  modelId : String
  placeholder : Bool
  phase : Phase
deriving DecidableEq, Repr

/-- Where a call of `shutdown` stands; `inside` is its call of `unload_model`. -/
inductive Shutdown where
  | flagging
  | stopping
  | snapshotting
  | unloadEach (rest : List String)
  | inside (call : Nat) (rest : List String)
  | returned
deriving DecidableEq, Repr

structure State where
  isShuttingDown : Bool
  registry : AList fun _ : String => Nat
  engines : List Engine
  calls : List Call
  shutdowns : List Shutdown

inductive Event where
  | ensureModel (modelId : String) (placeholder : Bool)
  | unloadModel (modelId : String)
  | shutdown
  | advance (call : Nat) (succeeds : Bool)
  | wind (shutdown : Nat)

/-- What a step of a call does besides moving on. -/
inductive Effect where
  | nothing
  | create
  | mark (engine : Nat) (status : EngineStatus)
  | unload (engine : Nat) (status : EngineStatus)
  | register (engine : Nat)
  | unregister
deriving DecidableEq, Repr

namespace State

variable (state : State)

def locked (modelId : String) : Bool :=
  state.calls.any fun call => call.modelId == modelId && call.phase.critical

def setPhase (place : Nat) (phase : Phase) : State :=
  { state with calls := state.calls.modify place fun call => { call with phase } }

def setEngine (place : Nat) (change : Engine → Engine) : State :=
  { state with engines := state.engines.modify place change }

def perform (modelId : String) : Effect → State
  | .nothing => state
  | .create => { state with engines := state.engines ++ [⟨modelId, .loading, 0⟩] }
  | .mark engine status => state.setEngine engine fun handle => { handle with status }
  | .unload engine status =>
      state.setEngine engine fun handle => { handle with status, unloads := handle.unloads + 1 }
  | .register engine => { state with registry := state.registry.insert modelId engine }
  | .unregister => { state with registry := state.registry.erase modelId }

/-- The next statement of a call, and whether the engine does what it is asked. -/
def next (call : Call) (succeeds : Bool) : Option (Phase × Effect) :=
  let registered := state.registry.lookup call.modelId
  match call.phase with
  | .entering => some (if state.isShuttingDown then .raised else .peeking, .nothing)
  | .peeking =>
      match registered with
      | some engine => some (.returning engine, .nothing)
      | none => some (if call.placeholder then .raised else .awaiting, .nothing)
  | .awaiting => if state.locked call.modelId then none else some (.rechecking, .nothing)
  | .rechecking =>
      match registered with
      | some engine => some (.leaving (some engine), .nothing)
      | none => some (.connecting, .nothing)
  | .connecting =>
      if succeeds then some (.loading state.engines.length, .create)
      else some (.leaving none, .nothing)
  | .loading engine =>
      if succeeds then some (.registering engine, .mark engine .loaded)
      else some (.cleaning engine, .mark engine .failed)
  | .cleaning engine => some (.leaving none, .unload engine .failed)
  | .registering engine => some (.leaving (some engine), .register engine)
  | .leaving (some engine) => some (.returning engine, .nothing)
  | .leaving none => some (.raised, .nothing)
  | .returning engine => some (.handedOut engine, .nothing)
  | .unloadAwaiting => if state.locked call.modelId then none else some (.looking, .nothing)
  | .looking =>
      match registered with
      | some engine => some (.unloading engine, .nothing)
      | none => some (.unloadLeaving false, .nothing)
  | .unloading engine =>
      if succeeds then some (.unregistering engine, .unload engine .released)
      else some (.unloadLeaving true, .unload engine .loaded)
  | .unregistering _ => some (.unloadLeaving false, .unregister)
  | .unloadLeaving raised => some (.unloaded raised, .nothing)
  | .handedOut _ | .raised | .unloaded _ => none

def advance (place : Nat) (succeeds : Bool) : Option State :=
  match state.calls[place]? with
  | some call =>
      (state.next call succeeds).map fun (phase, effect) =>
        (state.perform call.modelId effect).setPhase place phase
  | none => none

def setShutdown (place : Nat) (shutdown : Shutdown) : State :=
  { state with shutdowns := state.shutdowns.set place shutdown }

def enter (call : Call) : State := { state with calls := state.calls ++ [call] }

/-- The next statement of `shutdown`; `stopping` takes as long as it takes. -/
def wind (place : Nat) : Option State :=
  match state.shutdowns[place]? with
  | some .flagging => some { state.setShutdown place .stopping with isShuttingDown := true }
  | some .stopping => some (state.setShutdown place .snapshotting)
  | some .snapshotting =>
      some (state.setShutdown place (.unloadEach (state.registry.keys.insertionSort (· ≤ ·))))
  | some (.unloadEach []) => some (state.setShutdown place .returned)
  | some (.unloadEach (modelId :: rest)) =>
      some ((state.enter ⟨modelId, false, .unloadAwaiting⟩).setShutdown place
        (.inside state.calls.length rest))
  | some (.inside call rest) =>
      match state.calls[call]? with
      | some inner =>
          if inner.phase.isOver then some (state.setShutdown place (.unloadEach rest)) else none
      | none => none
  | some .returned | none => none

def step : Event → Option State
  | .ensureModel modelId placeholder => some (state.enter ⟨modelId, placeholder, .entering⟩)
  | .unloadModel modelId => some (state.enter ⟨modelId, false, .unloadAwaiting⟩)
  | .shutdown => some { state with shutdowns := state.shutdowns ++ [.flagging] }
  | .advance call succeeds => state.advance call succeeds
  | .wind shutdown => state.wind shutdown

end State

def initial : State where
  isShuttingDown := false
  registry := ∅
  engines := []
  calls := []
  shutdowns := []

def machine : Machine State Event := ⟨State.step⟩

end Residency

end CyreneReactor.Runtime
