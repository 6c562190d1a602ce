import CyreneReactor.Interaction.Schedule
import CyreneReactor.ModelImports.Service
import CyreneReactor.Service.Script

namespace CyreneReactor.ModelImports

open Interaction

/-! Scheduled runs of imports: one binding with a fixed outcome, a tracker that is
always told, a clock that stands still, and ids drawn in order.
-/

namespace ImportService

variable (service : ImportService) (outcome : Except Raised ModelImportResult)

def reply (state : State) : (op : Op) → op.Answer
  | .utcNow => Datetime.epoch
  | .uuid4 => ⟨BitVec.ofNat 128 (issued state.journal).length⟩
  | .store op => (op.run state.database).1
  | .importModel _ _ => outcome
  | .activity _ => .ok ()

def after (caller : Caller Command) (held : Bool) (op : Op) (state : State) : State where
  database := op.effect state.database
  journal :=
    if held then state.journal ++ [⟨caller, op, reply outcome state op⟩] else state.journal

/-- Drawing fails when the next id in order was drawn before. -/
def script : Script service.system where
  answer caller held op state :=
    match op with
    | .uuid4 =>
        if (⟨BitVec.ofNat 128 (issued (State.journal state)).length⟩ : Uuid) ∈
            issued (State.journal state) then none
        else some (reply outcome state .uuid4, after outcome caller held .uuid4 state)
    | op => some (reply outcome state op, after outcome caller held op state)
  sound := by
    intro caller held op state answer next answered
    cases op with
    | uuid4 =>
        dsimp only at answered
        split at answered
        · cases answered
        · rename_i new
          cases answered
          exact ⟨new, rfl, rfl⟩
    | store | utcNow | importModel | activity =>
        cases answered
        exact ⟨by trivial, rfl, rfl⟩

/-- A schedule played by a service whose tables were empty. -/
def play (schedule : List (Turn Command)) : Pool service.system :=
  (service.script outcome).play (Pool.initial State.initial) schedule

theorem play_reached (schedule : List (Turn Command)) :
    Reachable State.initial (service.play outcome schedule) :=
  (service.script outcome).reaches_of_play schedule _

end ImportService

namespace Sample

def workspace : WorkspaceScope := ⟨"org", "ws"⟩

def request : CreateModelImportRequest where
  name := "llama"
  servingBindingId := "default"
  source :=
    { kind := .huggingFace
      repository := some "meta/llama"
      revision := some "0000000000000000000000000000000000000000"
      path := none
      validated := ⟨by decide, rfl, rfl⟩ }
  credentialRef := none
  trustRemoteCode := false

def scopeDigest : String := "f2c6f195d548c9fed3368742fbd4fd8b8afd0c64abea3af1b66b60ceeca95387"

def requestDigest : String := "75a46072271b6addd25b85f4290e1b91d315af588650edf9505e96bff11814db"

/-- The digests of the texts the sample hashes; other texts are only kept apart. -/
def sha256 (text : String) : String :=
  if text = JsonText.pair workspace.organizationId workspace.workspaceId then scopeDigest
  else if text = request.modelDumpJson then requestDigest
  else "of " ++ text

theorem sha256_injective : Function.Injective sha256 := by
  have digests : scopeDigest ≠ requestDigest := by decide
  have other : ∀ digest text : String, digest.toList.head? ≠ some 'o' → digest ≠ "of " ++ text := by
    rintro _ text start rfl
    rw [String.toList_append] at start
    exact start rfl
  intro left right same
  unfold sha256 at same
  split_ifs at same with first second second first second second
  · exact first.trans second.symm
  · exact absurd same digests
  · exact absurd same (other _ right (by decide))
  · exact absurd same.symm digests
  · exact first.trans second.symm
  · exact absurd same (other _ right (by decide))
  · exact absurd same.symm (other _ left (by decide))
  · exact absurd same.symm (other _ left (by decide))
  · exact (String.append_right_inj _).mp same

def importService : ImportService where
  reactor := Sample.service
  workspaceServingBindingGrants := [("default", "org", "ws")]
  sha256 := sha256

def result : ModelImportResult where
  modelArtifact := CyreneReactor.Sample.artifact
  validation := ⟨true, true, true, true, none, "meta/llama", "sha256:00", []⟩

/-- The same request twice under one key. -/
def repeatedly : List (Turn Command) :=
  [.start (.create request (some "key") (some workspace)), .run 0 100,
    .start (.create request (some "key") (some workspace)), .run 1 100]

end Sample

end CyreneReactor.ModelImports
