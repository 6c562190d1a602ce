import Mathlib.Data.List.TakeWhile
import CyreneReactor.Runtime.Servicer

namespace CyreneReactor.Runtime.Servicer

/-! When the synchronous and the asynchronous servicer do the same. -/

variable {Number : Type}

/-- The same call of the server, the same responses and the same status. -/
def Agree (sync async : Handled Number) : Prop :=
  sync.call = async.call ∧ sync.responses = async.responses ∧ sync.status = async.status

section Streams

/-- The relay passes on what its generator yields. -/
theorem outputs_asyncStreamPredict (inner : ServerStream) :
    (asyncStreamPredict inner).outputs = inner.outputs := by
  have plain : inner.outputs.takeWhile (· ≠ InferenceServer.sentinel) = inner.outputs := by
    refine List.takeWhile_eq_self_iff.mpr fun output member => ?_
    simp only [ne_eq, decide_not, Bool.not_eq_true', decide_eq_false_iff_not]
    exact fun same => inner.clean (same ▸ member)
  simp only [asyncStreamPredict, List.takeWhile_append, plain]
  simp

theorem responses_asyncStreamPredict (inner : ServerStream) :
    responses (asyncStreamPredict inner) = responses inner := by
  have raised : (asyncStreamPredict inner).raised.isNone = inner.raised.isNone := by
    simp [asyncStreamPredict]
  simp only [responses, outputs_asyncStreamPredict, raised]

theorem status_served_iff (call other : InferenceCall Number) (stream : ServerStream) :
    (syncServed call stream).status = (asyncServed other (asyncStreamPredict stream)).status ↔
      ∀ thrown, stream.raised = some thrown → (syncAbort thrown).code = .internal := by
  cases raised : stream.raised with
  | none => simp [syncServed, asyncServed, asyncStreamPredict, Handled.status, raised]
  | some thrown =>
      simp [syncServed, asyncServed, asyncStreamPredict, Handled.status, raised, asyncAbort]

theorem status_asyncServed (call : InferenceCall Number) (stream : ServerStream) :
    (asyncServed call stream).status = .ok ∨ (asyncServed call stream).status = .internal := by
  cases raised : stream.raised with
  | none => exact .inl (by simp [asyncServed, Handled.status, raised])
  | some thrown => exact .inr (by simp [asyncServed, Handled.status, raised, asyncAbort])

/-- The engine arguments differ only for a quantization that is set to the empty text. -/
theorem orNone_quantization_iff (quantization : Option String) (settings : Kwargs Number) :
    orNone (quantizationSetting (quantization.bind nonempty) ++ settings) =
        orNone (quantizationSetting quantization ++ settings) ↔ quantization ≠ some "" := by
  cases quantization with
  | none => simp
  | some value =>
      by_cases empty : value = ""
      · subst empty
        refine iff_of_false (fun same => ?_) (by simp)
        cases settings with
        | nil => simp [orNone, quantizationSetting, nonempty] at same
        | cons setting rest =>
            have lengths := congrArg (fun kwargs => kwargs.map List.length) same
            simp [orNone, quantizationSetting, nonempty] at lengths
      · simp [nonempty, empty]

end Streams

section Condition

variable (policy : Auth.Policy) (positive : Number → Bool) (config : WorkerConfig Number)
  (streamPredict : InferenceCall Number → ServerStream)
  (metadata : Option (List (String × String))) (first : Option (StreamPredictRequest Number))

/-- The token is right, the prompt short, no quantization is the empty text, and what
the stream raises is an internal error for the synchronous servicer too. -/
def Plain : Prop :=
  Auth.verifyGrpcContext policy metadata = none ∧
    ∀ request, first = some request → request.prompt.length ≤ promptMaxChars ∧
      ∀ spec, registered config (modelIdOf request) = some spec →
        spec.quantization ≠ some "" ∧
        ∀ thrown, (streamPredict (inferenceCall positive config request (modelIdOf request) spec
            (quantizationSetting spec.quantization ++ engineSettings spec))).raised = some thrown →
          (syncAbort thrown).code = .internal

/-- A call without a right token never reaches the server through the synchronous servicer. -/
theorem call_of_rejected {abort : Abort}
    (rejected : Auth.verifyGrpcContext policy metadata = some abort) :
    syncStreamPredict policy positive config streamPredict metadata first =
      ⟨none, [], some abort⟩ := by
  simp only [syncStreamPredict, rejected]

theorem code_of_rejected {abort : Abort}
    (rejected : Auth.verifyGrpcContext policy metadata = some abort) :
    abort.code = .unauthenticated := by
  unfold Auth.verifyGrpcContext at rejected
  split at rejected
  · cases rejected
  · cases rejected
    rfl

/-- The asynchronous servicer knows no tokens. -/
theorem status_async_ne : (asyncServicerStreamPredict positive config streamPredict first).status ≠
    .unauthenticated := by
  unfold asyncServicerStreamPredict
  split
  · simp [Handled.status]
  · split
    · simp [Handled.status, notFound]
    · intro same
      rcases status_asyncServed _ _ with served | served <;> cases served.symm.trans same

/-- An asynchronous call is refused with no status of a prompt that is too long. -/
theorem status_async_of_request (request : StreamPredictRequest Number) :
    (asyncServicerStreamPredict positive config streamPredict (some request)).status ≠
      .invalidArgument := by
  unfold asyncServicerStreamPredict
  simp only
  split
  · simp [Handled.status, notFound]
  · intro same
    rcases status_asyncServed _ _ with served | served <;> cases served.symm.trans same

/-- The servicers on a call that both admit. -/
theorem agree_iff (request : StreamPredictRequest Number) (spec : ModelSpec Number) :
    let syncCall := inferenceCall positive config request (modelIdOf request) spec
      (quantizationSetting (spec.quantization.bind nonempty) ++ engineSettings spec)
    let asyncCall := inferenceCall positive config request (modelIdOf request) spec
      (quantizationSetting spec.quantization ++ engineSettings spec)
    Agree (syncServed syncCall (streamPredict syncCall))
        (asyncServed asyncCall (asyncStreamPredict (streamPredict asyncCall))) ↔
      spec.quantization ≠ some "" ∧
        ∀ thrown, (streamPredict asyncCall).raised = some thrown →
          (syncAbort thrown).code = .internal := by
  intro syncCall asyncCall
  constructor
  · rintro ⟨calls, _, status⟩
    have same : syncCall = asyncCall := Option.some.inj calls
    have engineKwargs := congrArg InferenceCall.engineKwargs same
    rw [same] at status
    exact ⟨(orNone_quantization_iff _ _).mp engineKwargs,
      (status_served_iff _ _ _).mp status⟩
  · rintro ⟨quantized, internal⟩
    have engineKwargs := (orNone_quantization_iff spec.quantization (engineSettings spec)).mpr
      quantized
    have same : syncCall = asyncCall := by
      simp only [syncCall, asyncCall, inferenceCall, engineKwargs]
    rw [same]
    exact ⟨rfl, (responses_asyncStreamPredict _).symm, (status_served_iff _ _ _).mpr internal⟩

end Condition

/-- The servicers agree, and keep a call without a right token from the server,
exactly when the call has a right token, the prompt is short, and for a model that is
registered no quantization is the empty text and the stream raises only what the
synchronous servicer calls internal. -/
theorem servicers_agree_iff (policy : Auth.Policy) (positive : Number → Bool)
    (config : WorkerConfig Number) (streamPredict : InferenceCall Number → ServerStream)
    (metadata : Option (List (String × String))) (first : Option (StreamPredictRequest Number)) :
    (Agree (syncStreamPredict policy positive config streamPredict metadata first)
          (asyncServicerStreamPredict positive config streamPredict first) ∧
        ((Auth.verifyGrpcContext policy metadata).isSome →
          (syncStreamPredict policy positive config streamPredict metadata first).call.isNone ∧
          (asyncServicerStreamPredict positive config streamPredict first).call.isNone)) ↔
      Plain policy positive config streamPredict metadata first := by
  unfold Plain
  cases verified : Auth.verifyGrpcContext policy metadata with
  | some abort =>
      refine iff_of_false (fun agreed => ?_) (fun plain => by cases plain.1)
      have status := agreed.1.2.2
      rw [call_of_rejected _ _ _ _ _ _ verified] at status
      exact status_async_ne positive config streamPredict first
        (status.symm.trans (code_of_rejected _ _ verified))
  | none =>
      cases first with
      | none => simp [Agree, syncStreamPredict, asyncServicerStreamPredict, verified]
      | some request =>
          by_cases long : promptMaxChars < request.prompt.length
          · refine iff_of_false (fun agreed => ?_) (fun plain => ?_)
            · have status := agreed.1.2.2
              simp only [syncStreamPredict, verified, long, if_true] at status
              exact status_async_of_request positive config streamPredict request status.symm
            · have short := (plain.2 request rfl).1
              omega
          · have short : request.prompt.length ≤ promptMaxChars := Nat.le_of_not_lt long
            cases known : registered config (modelIdOf request) with
            | none =>
                simp [Agree, syncStreamPredict, asyncServicerStreamPredict, verified, long, known,
                  short]
            | some spec =>
                simp only [syncStreamPredict, asyncServicerStreamPredict, verified, long, known,
                  if_false, Option.isSome_none, Bool.false_eq_true, false_implies, and_true,
                  true_and, Option.some.injEq, forall_eq', short]
                exact agree_iff positive config streamPredict request spec

section Examples

def oneModel : WorkerConfig Nat where
  providerId := "provider"
  modelRegistry := [("default", ⟨"/models/m", none, none, none, none, none, none, none, none⟩)]

def greeting : StreamPredictRequest Nat := ⟨"", "hi", "", 0, ⟨0, 0, 0, 0⟩⟩

def greets : ServerStream := ⟨["hello"], none, by decide, fun _ absent => by cases absent⟩

def fails : ServerStream :=
  ⟨["hello"], some (RuntimeError "Inference failed"), by decide, isException_RuntimeError _⟩

def secretToken : Auth.Policy := ⟨"secret", false⟩

/-- Without a token the asynchronous servicer serves what the other one refuses; and with
the token the two report the same failure differently. -/
theorem servicers_disagree :
    ¬ Agree (syncStreamPredict secretToken (0 < ·) oneModel (fun _ => greets) none (some greeting))
        (asyncServicerStreamPredict (0 < ·) oneModel (fun _ => greets) (some greeting)) ∧
      Auth.verifyGrpcContext secretToken none =
          some ⟨.unauthenticated, "Missing authorization token"⟩ ∧
      (asyncServicerStreamPredict (0 < ·) oneModel (fun _ => greets) (some greeting)).call.isSome ∧
      (asyncServicerStreamPredict (0 < ·) oneModel (fun _ => greets) (some greeting)).status = .ok ∧
      (syncStreamPredict secretToken (0 < ·) oneModel (fun _ => greets) none
        (some greeting)).status = .unauthenticated ∧
      (syncStreamPredict secretToken (0 < ·) oneModel (fun _ => fails)
        (some [("authorization", "Bearer secret")]) (some greeting)).status =
          .resourceExhausted ∧
      (asyncServicerStreamPredict (0 < ·) oneModel (fun _ => fails) (some greeting)).status =
        .internal := by
  refine ⟨fun agree => ?_, by decide, by decide, by decide, by decide, by decide, by decide⟩
  have calls := congrArg Option.isSome agree.1
  revert calls
  decide

end Examples

end CyreneReactor.Runtime.Servicer
