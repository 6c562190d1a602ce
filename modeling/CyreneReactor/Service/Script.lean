import CyreneReactor.Interaction.Schedule
import CyreneReactor.Service.Commands

namespace CyreneReactor

open Interaction

/-! Scripted runs of the service: fixed answers of the engines, a clock that
stands still, and ids drawn in order.
-/

/-- What every engine answers in every state. -/
abbrev EngineScript := State → (call : PortCall) → call.Answer

/-- 2000-01-01T00:00:00 -/
def Datetime.epoch : Datetime := ⟨2000, 1, 1, 0, 0, 0, 0⟩

namespace EngineScript

variable (engines : EngineScript)

def reply (state : State) : (op : Op) → op.Answer
  | .utcNow => Datetime.epoch
  | .uuid4 => ⟨BitVec.ofNat 128 (issued state.journal).length⟩
  | .store op => (op.run state.database).1
  | .port _ call => engines state call
  | .activity _ => ()

/-- Drawing fails when the next id in order was drawn before. -/
def answer (caller : Caller Command) (held : Bool) (op : Op) (state : State) :
    Option (op.Answer × State) :=
  match op with
  | .uuid4 =>
      if (⟨BitVec.ofNat 128 (issued state.journal).length⟩ : Uuid) ∈ issued state.journal then none
      else some (engines.reply state .uuid4, state.after caller held .uuid4
        (engines.reply state .uuid4))
  | op => some (engines.reply state op, state.after caller held op (engines.reply state op))

/-- A script of answers the environment allows. -/
def script (service : ReactorService) (environment : Environment)
    (admits : ∀ state op, environment state.database op (engines.reply state op)) :
    Script (service.system environment) where
  answer := engines.answer
  sound := by
    intro caller held op state reply next answered
    cases op with
    | uuid4 =>
        by_cases drawn : engines.reply state .uuid4 ∈ issued state.journal
        · have refused : engines.answer caller held .uuid4 state = none := if_pos drawn
          rw [refused] at answered
          cases answered
        · have given : engines.answer caller held .uuid4 state = some _ := if_neg drawn
          rw [given] at answered
          cases answered
          exact ⟨admits state .uuid4, drawn, rfl⟩
    | utcNow | store | port | activity =>
        cases answered
        exact ⟨admits state _, by trivial, rfl⟩

end EngineScript

section Rehearse

variable {service : ReactorService} {environment : Environment}

/-- Start the command and run it alone for at most `fuel` steps. -/
def rehearse (engines : EngineScript)
    (admits : ∀ state op, environment state.database op (engines.reply state op)) (fuel : Nat)
    (command : Command) (pool : Pool (service.system environment)) :
    Pool (service.system environment) :=
  let script := engines.script service environment admits
  let ended := script.advance ⟨pool.threads.length, command⟩ fuel
    ⟨0, (service.body command).attempt, pool.state⟩
  ⟨ended.state, pool.threads ++ [⟨command, ended.depth, ended.program⟩]⟩

theorem rehearse_reaches {engines : EngineScript}
    {admits : ∀ state op, environment state.database op (engines.reply state op)} {fuel : Nat}
    {command : Command} {pool : Pool (service.system environment)} (quiescent : pool.Quiescent) :
    Relation.ReflTransGen Step pool (rehearse engines admits fuel command pool) :=
  quiescent.serves (Script.advance_runs fuel ⟨0, (service.body command).attempt, pool.state⟩)

/-- A command stopped half-way reaches whatever it reaches with more fuel. -/
theorem rehearse_resumes {engines : EngineScript}
    {admits : ∀ state op, environment state.database op (engines.reply state op)}
    {fuel more : Nat} {command : Command} {pool : Pool (service.system environment)}
    (quiescent : pool.Quiescent) (later : fuel ≤ more) :
    Relation.ReflTransGen Step (rehearse engines admits fuel command pool)
      (rehearse engines admits more command pool) := by
  obtain ⟨more, rfl⟩ := Nat.exists_eq_add_of_le later
  let script := engines.script service environment admits
  have ran : ∀ middle : Configuration (service.system environment) (Except Raised Deployment),
      Runs ⟨pool.threads.length, command⟩ middle.depth middle.program middle.state
        (script.advance ⟨pool.threads.length, command⟩ more middle).depth
        (script.advance ⟨pool.threads.length, command⟩ more middle).program
        (script.advance ⟨pool.threads.length, command⟩ more middle).state :=
    Script.advance_runs more
  unfold rehearse
  simp only [Script.advance_add]
  generalize Script.advance _ _ fuel _ = middle
  let halfway : Thread (service.system environment) := ⟨command, middle.depth, middle.program⟩
  have ready : (pool.threads ++ [halfway])[pool.threads.length]? = some halfway :=
    List.getElem?_concat_length
  have path := (ran middle).reaches ready (quiescent.freeFor halfway)
  rw [set_appended] at path
  exact path

/-- One more unit of fuel is one more step, unless the command is over. -/
theorem rehearse_step {engines : EngineScript}
    {admits : ∀ state op, environment state.database op (engines.reply state op)} {fuel : Nat}
    {command : Command} {pool : Pool (service.system environment)} (quiescent : pool.Quiescent)
    (running : (((engines.script service environment admits).step? ⟨pool.threads.length, command⟩
      ((engines.script service environment admits).advance ⟨pool.threads.length, command⟩ fuel
        ⟨0, (service.body command).attempt, pool.state⟩)).isSome) = true) :
    Step (rehearse engines admits fuel command pool)
      (rehearse engines admits (fuel + 1) command pool) := by
  obtain ⟨next, stepped⟩ := Option.isSome_iff_exists.mp running
  unfold rehearse
  simp only [Script.advance_add]
  generalize Script.advance _ _ fuel _ = middle at stepped ⊢
  let halfway : Thread (service.system environment) := ⟨command, middle.depth, middle.program⟩
  have ready : (pool.threads ++ [halfway])[pool.threads.length]? = some halfway :=
    List.getElem?_concat_length
  have step := Script.steps stepped ready (quiescent.freeFor halfway)
  rw [set_appended] at step
  simp only [Script.advance, stepped]
  exact step

instance (pool : Pool (service.system environment)) : Decidable pool.Quiescent :=
  inferInstanceAs (Decidable (∀ thread ∈ pool.threads, thread.depth = 0))

end Rehearse

/-- One answer of each kind. -/
structure Replies where
  prepare : Except Raised (Option EngineHandle)
  start : Except Raised EngineHandle
  verify : Except Raised Unit
  inspect : Except Raised EngineObservation
  stop : Except Raised EngineObservation

def Replies.engines (replies : Replies) : EngineScript
  | _, .prepare _ => replies.prepare
  | _, .start _ _ _ _ => replies.start
  | _, .verifyServedModel _ _ _ _ => replies.verify
  | _, .inspect _ _ _ _ _ => replies.inspect
  | _, .stop _ _ _ _ _ => replies.stop

namespace Sample

/-- An engine that offers everything the service can use. -/
def engine : Engine := ⟨"sample", true, true, true, true⟩

def lifecycle : ActivitySourceLifecycle where
  admitAndPersist report taskId state persist := do
    report (.admission taskId state)
    persist
  transitionAndPersist report taskId state persist := do
    report (.transition taskId state)
    persist
  completeAfterPersist report taskId persist := do
    persist
    report (.complete taskId)
  admits _ _ _ _ := rfl
  transitions _ _ _ _ := rfl
  completes _ _ _ := rfl

def service : ReactorService := ⟨engine, none, some lifecycle, CreateDeploymentRequest.name⟩

def artifact : ArtifactRef := ⟨"s3://models/base", "sha256:00", 1, .model, none⟩

def request : CreateDeploymentRequest where
  name := "sample"
  modelArtifact := some artifact
  composition := .fullModel
  modelVersion := none
  servingBindingId := "default"
  nodeRef := none
  validated := ⟨rfl, rfl⟩

def handle : EngineHandle where
  executionRef := "execution-1"
  endpointUrl := "http://127.0.0.1:8000"
  model := some "sample"
  modelVersionId := none

/-- Every call succeeds, and `prepare` has nothing to announce. -/
def replies : Replies where
  prepare := .ok none
  start := .ok handle
  verify := .ok ()
  inspect := .ok ⟨true, "ready"⟩
  stop := .ok ⟨false, "stopped"⟩

/-- The id the first command of a pool draws. -/
def firstId : Uuid := ⟨0⟩

/-- Engines that start and are never found ready afterwards. -/
def unready : Replies := { replies with inspect := .ok ⟨false, "not ready"⟩ }

/-- A read found the engine of a deployment not ready.  It waits for the lock, which a restart
holds, and so does a second restart of the same version. -/
def meets : List (Turn Command) :=
  [.start (.create request none), .run 0 30, .start (.get firstId), .run 1 5,
    .start (.restart firstId ⟨"node", 1⟩ 2), .run 2 6, .run 1 1,
    .start (.restart firstId ⟨"node", 1⟩ 2), .run 3 1]

/-- All three end, the first restart before the others, and the next read is the first to find the
engine not ready that the restart left. -/
def settles : List (Turn Command) :=
  meets ++ [.run 2 60, .run 1 20, .run 3 20, .start (.get firstId), .run 4 20]

/-- What a schedule leaves with these engines. -/
def contended (schedule : List (Turn Command)) : Pool (service.system .unrestricted) :=
  (unready.engines.script service .unrestricted fun _ _ => trivial).play
    (Pool.initial State.initial) schedule

theorem contended_reaches (schedule : List (Turn Command)) :
    Relation.ReflTransGen Step (Pool.initial State.initial) (contended schedule) :=
  (unready.engines.script service .unrestricted fun _ _ => trivial).reaches_of_play schedule _

theorem contended_settles : Relation.ReflTransGen Step (contended meets) (contended settles) :=
  (unready.engines.script service .unrestricted fun _ _ => trivial).reaches_of_play_append meets _ _

end Sample

end CyreneReactor
