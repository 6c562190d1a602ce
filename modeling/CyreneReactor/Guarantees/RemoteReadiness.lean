import CyreneReactor.Data.Outcome
import CyreneReactor.Remote.Port

namespace CyreneReactor.Remote

open Interaction Diagnostics Outcome RemoteServingExecutionPort

/-! When a remote execution is reported ready. -/

/-- What a program comes to, and what it exchanges with a host that gives the replies
one after the other. -/
def exchange {α : Type} (replies : Nat → HttpReply) :
    Program httpSignature α → Nat → α × List (HttpRequest × HttpReply)
  | .pure value, _ => (value, [])
  | .call request next, count =>
      let rest := exchange replies (next (replies count)) (count + 1)
      (rest.1, (request, replies count) :: rest.2)
  | .acquire next, count | .release next, count => exchange replies next count

/-- What is made of the outcome is exchanged with nobody. -/
theorem exchange_map {α β : Type} (replies : Nat → HttpReply) (program : Program httpSignature α)
    (finish : α → β) (count : Nat) :
    exchange replies (program.bind fun value => .pure (finish value)) count =
      (finish (exchange replies program count).1, (exchange replies program count).2) := by
  induction program generalizing count with
  | pure value => rfl
  | call request rest ih =>
      simp only [Program.bind, exchange]
      rw [ih (replies count) (count + 1)]
  | acquire rest ih | release rest ih => exact ih count

/-- The model that a readback says is served is the one of the deployment. -/
def Identifies (contracts : Contracts) (digest : String) (version : Option ModelVersionDocument)
    (result : Members) : Prop :=
  match version with
  | none => ∃ artifact, JsonValue.member? result "modelArtifact" = some (.obj artifact) ∧
      JsonValue.member? artifact "digest" = some (.str digest)
  | some version => ∃ expected artifact returned canonical value,
      contracts.canonical version.members = .ok expected ∧ expected.id = digest ∧
      contracts.modelVersionArtifact expected = .ok artifact ∧
      JsonValue.member? result "modelVersion" = some (.obj returned) ∧
      contracts.canonical returned = .ok canonical ∧ canonical.id = digest ∧
      contracts.modelVersionArtifact canonical = .ok artifact ∧
      JsonValue.member? result "modelArtifact" = some value ∧
      contracts.artifactRef value = .ok artifact

/-- The host's readback passes the checks of its own fields. -/
structure Admits (port : RemoteServingExecutionPort) (endpointUrl digest : String)
    (version : Option ModelVersionDocument) (result : Members) : Prop where
  ready : isTrue result "ready" = true
  identity : port.contracts.identityMatches digest version result = .ok true
  endpoint : JsonValue.member? result "endpointUrl" = some (.str endpointUrl)
  origin : ∃ place, Url.origin port.contracts.rules endpointUrl = some place ∧
    Url.origin port.contracts.rules port.controlUrl = some place

/-- The answer to a probe of the model `served`. -/
def Answers (served : JsonValue) (reply : HttpReply) : Prop :=
  ∃ status answer, reply = .answered status (some (.obj answer)) ∧ 200 ≤ status ∧ status < 300 ∧
    pyEq ((JsonValue.member? answer "model").getD .null) served = true ∧
    hasContent answer = .ok true

section Checks

variable {contracts : Contracts} {printer : Printer} {digest text : String} {result : Members}
  {value : JsonValue}

theorem isText_iff : isText value text = true ↔ value = .str text := by
  cases value <;> simp [isText]

theorem pyEq_text : pyEq value (.str text) = true ↔ value = .str text := by
  cases value <;> simp [pyEq, number?]

theorem subscript_iff {members : Members} {key : String} :
    subscript members key = .ok value ↔ JsonValue.member? members key = some value := by
  unfold subscript
  cases JsonValue.member? members key <;> simp

theorem require_iff {holds : Bool} {value : Unit} :
    Contracts.require holds = .ok value ↔ holds = true := by
  cases holds <;> simp [Contracts.require]

theorem readReply_eq_ok {reply : HttpReply} (read : readReply printer reply = .ok result) :
    ∃ status, reply = .answered status (some (.obj result)) ∧ ¬ (400 ≤ status ∧ status < 600) := by
  unfold readReply at read
  split at read
  · split at read <;> cases read
  · split at read
    · cases read
    · cases read
      exact ⟨_, rfl, ‹_›⟩
  · cases read

theorem canonical_keeps (document : ModelVersionDocument) {again : ModelVersionDocument}
    (canonical : contracts.canonical document.members = .ok again) : again.id = document.id := by
  unfold Contracts.canonical at canonical
  split at canonical
  · rename_i found
    cases canonical
    exact contracts.canonical_id _ _ _ found document.hasId
  · cases canonical

/-- A readback of a version that passes names the version and its artifact. -/
theorem validated_of_readback {expected canonical : ModelVersionDocument} {model : ArtifactRef}
    (passes : contracts.validateModelVersionReadback result expected model = .ok canonical) :
    (∃ returned, JsonValue.member? result "modelVersion" = some (.obj returned) ∧
        contracts.canonical returned = .ok canonical) ∧
      canonical.id = expected.id ∧ contracts.modelVersionArtifact canonical = .ok model ∧
      ∃ again, contracts.canonical expected.members = .ok again ∧
        contracts.modelVersionArtifact again = .ok model := by
  unfold Contracts.validateModelVersionReadback at passes
  split at passes
  · rename_i returned found
    simp only [bind_eq_ok, require_iff, beq_iff_eq] at passes
    obtain ⟨document, known, again, settled, _, same, _, base, _, rfl, _, mine, _, rfl, _, _, _,
      rfl, returns⟩ := passes
    cases returns
    exact ⟨⟨returned, found, known⟩, same.trans (canonical_keeps expected settled), mine, again,
      settled, base⟩
  · cases passes

theorem identifies_of_matches {version : Option ModelVersionDocument}
    (passes : contracts.identityMatches digest version result = .ok true) :
    Identifies contracts digest version result := by
  unfold Contracts.identityMatches at passes
  cases version with
  | none =>
      simp only [bind_eq_ok, subscript_iff] at passes
      obtain ⟨value, found, passes⟩ := passes
      cases value with
      | obj artifact =>
          simp only [bind_eq_ok, subscript_iff] at passes
          obtain ⟨named, known, same⟩ := passes
          simp only [pure, Except.pure, Except.ok.injEq, isText_iff] at same
          exact ⟨artifact, found, same ▸ known⟩
      | null | bool | int | float | str | arr => cases passes
  | some version =>
      simp only [bind_eq_ok, subscript_iff, require_iff, beq_iff_eq] at passes
      obtain ⟨value, found, artifact, valid, expected, canonical, base, known, _, rfl, readback,
        validated, same⟩ := passes
      simp only [pure, Except.pure, Except.ok.injEq, beq_iff_eq] at same
      obtain ⟨⟨returned, given, document⟩, kept, mine, _⟩ := validated_of_readback validated
      exact ⟨expected, _, returned, readback, value, canonical, same, known, given, document,
        kept.trans same, mine, found, valid⟩

end Checks

section Inspecting

variable {port : RemoteServingExecutionPort} {endpointUrl digest : String}
  {version : Option ModelVersionDocument} {result : Members} {served : JsonValue}

theorem origin_of_splits {rules : Url.Rules} {left right : String} {first second : Url.Split}
    (splits : Url.urlsplit rules left = some first) (also : Url.urlsplit rules right = some second)
    (same : ¬ (first.netloc ≠ second.netloc ∨ first.scheme ≠ second.scheme)) :
    ∃ place, Url.origin rules left = some place ∧ Url.origin rules right = some place := by
  simp only [not_or, not_not] at same
  refine ⟨second.origin, ?_, by simp [Url.origin, also]⟩
  simp [Url.origin, splits, Url.Split.origin, same.1, same.2]

theorem splits_of_origin {rules : Url.Rules} {left right : String}
    {place : List Char × List Char} (goes : Url.origin rules left = some place)
    (also : Url.origin rules right = some place) :
    ∃ first second, Url.urlsplit rules left = some first ∧ Url.urlsplit rules right = some second ∧
      ¬ (first.netloc ≠ second.netloc ∨ first.scheme ≠ second.scheme) := by
  obtain ⟨first, splits, origin⟩ := Option.map_eq_some_iff.mp goes
  obtain ⟨second, alsoSplits, alsoOrigin⟩ := Option.map_eq_some_iff.mp also
  have same := origin.trans alsoOrigin.symm
  simp only [Url.Split.origin, Prod.mk.injEq] at same
  exact ⟨first, second, splits, alsoSplits, by simp [same.1, same.2]⟩

theorem isElsewhere_eq_false {identity : Bool} :
    isElsewhere endpointUrl identity result = .ok false ↔
      isTrue result "ready" = true ∧ identity = true ∧
        JsonValue.member? result "endpointUrl" = some (.str endpointUrl) := by
  unfold isElsewhere
  split
  · rename_i both
    simp only [Bool.and_eq_true] at both
    simp only [map_eq_ok, subscript_iff, Bool.not_eq_false', isText_iff, both, true_and]
    constructor
    · intro found
      obtain ⟨value, named, rfl⟩ := found
      exact named
    · intro named
      exact ⟨_, named, rfl⟩
  · rename_i either
    simp only [Bool.and_eq_true] at either
    constructor
    · intro impossible
      cases impossible
    · intro all
      exact absurd ⟨all.1, all.2.1⟩ either

theorem toProbe_eq_served :
    port.toProbe endpointUrl result = .ok (.inr served) ↔
      (∃ place, Url.origin port.contracts.rules endpointUrl = some place ∧
        Url.origin port.contracts.rules port.controlUrl = some place) ∧
      JsonValue.member? result "servedModel" = some served := by
  constructor
  · intro probed
    unfold toProbe at probed
    split at probed
    · rename_i endpoint control splits also
      split at probed
      · cases probed
      · rename_i inside
        simp only [map_eq_ok, subscript_iff, Sum.inr.injEq] at probed
        obtain ⟨value, named, rfl⟩ := probed
        exact ⟨origin_of_splits splits also inside, named⟩
    · cases probed
  · intro both
    obtain ⟨⟨place, goes, also⟩, named⟩ := both
    obtain ⟨first, second, splits, alsoSplits, inside⟩ := splits_of_origin goes also
    simp only [toProbe, splits, alsoSplits, inside, if_false, map_eq_ok, subscript_iff]
    exact ⟨served, named, rfl⟩

/-- The readback sends the port on to the model it names. -/
theorem examine_iff : port.examine endpointUrl digest version result = .ok (.inr served) ↔
    Admits port endpointUrl digest version result ∧
      JsonValue.member? result "servedModel" = some served := by
  constructor
  · intro examined
    simp only [examine, bind_eq_ok] at examined
    obtain ⟨identity, matched, elsewhere, located, goes⟩ := examined
    cases elsewhere with
    | true =>
        simp only [if_true, map_eq_ok] at goes
        obtain ⟨_, _, impossible⟩ := goes
        cases impossible
    | false =>
        obtain ⟨ready, rfl, endpoint⟩ := isElsewhere_eq_false.mp located
        obtain ⟨origin, named⟩ := toProbe_eq_served.mp goes
        exact ⟨⟨ready, matched, endpoint, origin⟩, named⟩
  · intro both
    obtain ⟨⟨ready, identity, endpoint, origin⟩, named⟩ := both
    simp only [examine, bind_eq_ok]
    exact ⟨true, identity, false, isElsewhere_eq_false.mpr ⟨ready, rfl, endpoint⟩,
      toProbe_eq_served.mpr ⟨origin, named⟩⟩

theorem isAnswered_iff {answer : Members} : isAnswered served answer = .ok true ↔
    pyEq ((JsonValue.member? answer "model").getD .null) served = true ∧
      hasContent answer = .ok true := by
  unfold isAnswered
  split <;> simp_all

theorem judge_iff {reply : HttpReply} :
    (∃ observation, judge served reply = .ok observation ∧ observation.ready = true) ↔
      Answers served reply := by
  constructor
  · intro judged
    obtain ⟨observation, judged, ready⟩ := judged
    unfold judge at judged
    split at judged
    · cases judged
    · rename_i status body
      split at judged
      · rename_i success
        split at judged
        · rename_i answer
          obtain ⟨shown, answered, rfl⟩ := map_eq_ok.mp judged
          simp only at ready
          subst ready
          obtain ⟨equal, content⟩ := isAnswered_iff.mp answered
          exact ⟨status, answer, rfl, success.1, success.2, equal, content⟩
        · cases judged
        · cases judged
      · cases judged
  · intro answers
    obtain ⟨status, answer, rfl, low, high, equal, content⟩ := answers
    refine ⟨⟨true, "CONTROL_AND_INFERENCE_VERIFIED"⟩, ?_, rfl⟩
    simp only [judge, low, high, and_self, if_true, map_eq_ok]
    exact ⟨true, isAnswered_iff.mpr ⟨equal, content⟩, rfl⟩

end Inspecting

section Exchanging

variable {port : RemoteServingExecutionPort} {replies : Nat → HttpReply} {count : Nat}
  {endpointUrl digest reference : String} {id : Uuid} {version : Option ModelVersionDocument}

theorem exchange_send {α : Type} (request : HttpRequest) (next : HttpReply → Remoting α) :
    exchange replies (send request >>= next).run count =
      ((exchange replies (next (replies count)).run (count + 1)).1,
        (request, replies count) :: (exchange replies (next (replies count)).run (count + 1)).2) :=
  rfl

theorem exchange_ofExcept {α β : Type} (outcome : Except Raised α) (next : α → Remoting β) :
    exchange replies (Fallible.ofExcept outcome >>= next).run count =
      match outcome with
      | .ok value => exchange replies (next value).run count
      | .error raised => (.error raised, []) := by
  cases outcome <;> rfl

/-- The request for the readback of an execution. -/
def readback (port : RemoteServingExecutionPort) (id : Uuid) : HttpRequest :=
  ⟨.get, port.base ++ executionPath id, port.token, none⟩

/-- What `inspect` makes of the two replies inside its `try`, and what it has sent. -/
def inspected (port : RemoteServingExecutionPort) (endpointUrl : String) (id : Uuid)
    (digest : String) (version : Option ModelVersionDocument) (first second : HttpReply) :
    Except Raised EngineObservation × List (HttpRequest × HttpReply) :=
  match readReply port.contracts.printer first with
  | .error raised => (.error raised, [(readback port id, first)])
  | .ok result =>
      match port.examine endpointUrl digest version result with
      | .error raised => (.error raised, [(readback port id, first)])
      | .ok (.inl observation) => (.ok observation, [(readback port id, first)])
      | .ok (.inr served) =>
          (judge served second,
            [(readback port id, first), (port.probe endpointUrl served, second)])

theorem exchange_tryInspect :
    exchange replies (port.tryInspect endpointUrl id digest version).run count =
      inspected port endpointUrl id digest version (replies count) (replies (count + 1)) := by
  simp only [tryInspect, RemoteServingExecutionPort.request, bind_assoc, exchange_send]
  unfold inspected
  cases readReply port.contracts.printer (replies count) with
  | error raised => rfl
  | ok result =>
      simp only [exchange_ofExcept]
      cases port.examine endpointUrl digest version result with
      | error raised => rfl
      | ok verdict =>
          cases verdict with
          | inl observation => rfl
          | inr served => rfl

theorem exchange_inspect (mine : reference = id.str) :
    exchange replies (port.inspect reference endpointUrl id digest version).run count =
      (recover
          (inspected port endpointUrl id digest version (replies count) (replies (count + 1))).1,
        (inspected port endpointUrl id digest version (replies count) (replies (count + 1))).2) := by
  subst mine
  rw [inspect, if_neg (not_not.mpr rfl)]
  have mapped := exchange_map replies (port.tryInspect endpointUrl id digest version).run recover
    count
  rw [exchange_tryInspect] at mapped
  exact mapped

theorem ready_of_recover {outcome : Except Raised EngineObservation} :
    (∃ observation, recover outcome = .ok observation ∧ observation.ready = true) ↔
      ∃ observation, outcome = .ok observation ∧ observation.ready = true := by
  cases outcome with
  | ok observation => rfl
  | error raised =>
      simp only [recover]
      split <;> simp

theorem examine_not_ready {result : Members} {observation : EngineObservation}
    (examined : port.examine endpointUrl digest version result = .ok (.inl observation)) :
    observation.ready = false := by
  simp only [examine, bind_eq_ok] at examined
  obtain ⟨identity, _, elsewhere, _, goes⟩ := examined
  split at goes
  · simp only [map_eq_ok, notReady, bind_eq_ok] at goes
    obtain ⟨last, ⟨_, _, _, _, same⟩, known⟩ := goes
    cases same
    cases known
    rfl
  · unfold toProbe at goes
    split at goes
    · split at goes
      · cases goes
        rfl
      · simp only [map_eq_ok] at goes
        obtain ⟨_, _, impossible⟩ := goes
        cases impossible
    · cases goes

theorem inspected_of_passes (id : Uuid) {first : HttpReply} (second : HttpReply) {result : Members}
    {served : JsonValue} (read : readReply port.contracts.printer first = .ok result)
    (admits : Admits port endpointUrl digest version result)
    (named : JsonValue.member? result "servedModel" = some served) :
    inspected port endpointUrl id digest version first second =
      (judge served second,
        [(readback port id, first), (port.probe endpointUrl served, second)]) := by
  simp only [inspected, read, examine_iff.mpr ⟨admits, named⟩]

theorem inspected_ready_iff {first second : HttpReply} :
    (∃ observation, (inspected port endpointUrl id digest version first second).1 =
        .ok observation ∧ observation.ready = true) ↔
      ∃ result served, readReply port.contracts.printer first = .ok result ∧
        Admits port endpointUrl digest version result ∧
        JsonValue.member? result "servedModel" = some served ∧ Answers served second := by
  constructor
  · intro ready
    unfold inspected at ready
    cases read : readReply port.contracts.printer first with
    | error raised => simp [read] at ready
    | ok result =>
        simp only [read] at ready
        cases examined : port.examine endpointUrl digest version result with
        | error raised => simp [examined] at ready
        | ok verdict =>
            cases verdict with
            | inl observation =>
                simp only [examined, Except.ok.injEq] at ready
                obtain ⟨_, rfl, isReady⟩ := ready
                rw [examine_not_ready examined] at isReady
                cases isReady
            | inr served =>
                simp only [examined] at ready
                obtain ⟨admits, named⟩ := examine_iff.mp examined
                exact ⟨result, served, rfl, admits, named, judge_iff.mp ready⟩
  · intro passes
    obtain ⟨result, served, read, admits, named, answers⟩ := passes
    rw [inspected_of_passes id second read admits named]
    exact judge_iff.mpr answers

/-- A last check is exchanged with nobody. -/
theorem exchange_checked {α β : Type} (first : Remoting α) (check : α → Except Raised β) :
    exchange replies (first >>= fun value => Fallible.ofExcept (check value)).run count =
      ((exchange replies first.run count).1 >>= check, (exchange replies first.run count).2) := by
  have mapped := exchange_map replies first.run (fun outcome => outcome >>= check) count
  refine Eq.trans ?_ mapped
  have same : (first >>= fun value => Fallible.ofExcept (check value)).run =
      first.run.bind fun outcome => .pure (outcome >>= check) := by
    change first.run.bind _ = first.run.bind _
    congr 1
    funext outcome
    cases outcome <;> rfl
  rw [same]

end Exchanging

/-- The readback of an execution shows the model of the deployment, ready at its endpoint. -/
structure Confirms (port : RemoteServingExecutionPort) (endpointUrl digest : String)
    (version : Option ModelVersionDocument) (result : Members) : Prop where
  ready : JsonValue.member? result "ready" = some (.bool true)
  identity : Identifies port.contracts digest version result
  endpoint : JsonValue.member? result "endpointUrl" = some (.str endpointUrl)
  origin : ∃ place, Url.origin port.contracts.rules endpointUrl = some place ∧
    Url.origin port.contracts.rules port.controlUrl = some place

/-- The messages are a readback that confirms the deployment, and a probe that its own
served model is asked and answers. -/
def Verified (port : RemoteServingExecutionPort) (id : Uuid) (endpointUrl digest : String)
    (version : Option ModelVersionDocument) (messages : List (HttpRequest × HttpReply)) : Prop :=
  ∃ status result probed answer,
    messages = [(readback port id, .answered status (some (.obj result))),
      (port.probe endpointUrl (.str (servedName id)), .answered probed (some (.obj answer)))] ∧
    ¬ (400 ≤ status ∧ status < 600) ∧ Confirms port endpointUrl digest version result ∧
    200 ≤ probed ∧ probed < 300 ∧
    JsonValue.member? answer "model" = some (.str (servedName id))

/-- Where the two replies pass all that is checked, the readback names the served model
of the deployment. -/
def NamesServed (port : RemoteServingExecutionPort) (id : Uuid) (endpointUrl digest : String)
    (version : Option ModelVersionDocument) (first second : HttpReply) : Prop :=
  ∀ result served, readReply port.contracts.printer first = .ok result →
    Admits port endpointUrl digest version result →
    JsonValue.member? result "servedModel" = some served → Answers served second →
    served = .str (servedName id)

section Readiness

variable {port : RemoteServingExecutionPort} {replies : Nat → HttpReply} {count : Nat}
  {endpointUrl digest reference : String} {id : Uuid} {version : Option ModelVersionDocument}

theorem Admits.confirms {result : Members} (admits : Admits port endpointUrl digest version result) :
    Confirms port endpointUrl digest version result := by
  refine ⟨?_, identifies_of_matches admits.identity, admits.endpoint, admits.origin⟩
  have ready := admits.ready
  unfold isTrue at ready
  split at ready
  · rename_i found
    rw [found, ready]
  · cases ready

theorem member_of_pyEq {answer : Members} {text : String}
    (equal : pyEq ((JsonValue.member? answer "model").getD .null) (.str text) = true) :
    JsonValue.member? answer "model" = some (.str text) := by
  have same := pyEq_text.mp equal
  cases found : JsonValue.member? answer "model" with
  | none => simp [found] at same
  | some value => simpa [found] using same

/-- What two replies that pass all checks show is verified when they name the served
model of the deployment, and only then. -/
theorem verified_iff {first second : HttpReply}
    (ready : ∃ observation, (inspected port endpointUrl id digest version first second).1 =
      .ok observation ∧ observation.ready = true) :
    Verified port id endpointUrl digest version
        (inspected port endpointUrl id digest version first second).2 ↔
      NamesServed port id endpointUrl digest version first second := by
  obtain ⟨result, served, read, admits, named, answers⟩ := inspected_ready_iff.mp ready
  rw [inspected_of_passes id second read admits named]
  constructor
  · intro verified
    obtain ⟨status, shown, probed, answer, messages, _⟩ := verified
    intro result' served' read' _ named' _
    rw [read] at read'
    cases read'
    rw [named] at named'
    cases named'
    simp only [List.cons.injEq, Prod.mk.injEq, probe, HttpRequest.mk.injEq, Option.some.injEq,
      JsonValue.obj.injEq] at messages
    exact messages.2.1.1.2.2.2.1.2
  · intro names
    obtain rfl := names result served read admits named answers
    obtain ⟨status, rfl, accepted⟩ := readReply_eq_ok read
    obtain ⟨probed, answer, rfl, low, high, equal, _⟩ := answers
    exact ⟨status, result, probed, answer, rfl, accepted, admits.confirms, low, high,
      member_of_pyEq equal⟩

theorem inspect_verified_iff (port : RemoteServingExecutionPort) (replies : Nat → HttpReply)
    (count : Nat) (endpointUrl digest : String) (version : Option ModelVersionDocument)
    (mine : reference = id.str) :
    (∀ observation,
      (exchange replies (port.inspect reference endpointUrl id digest version).run count).1 =
        .ok observation → observation.ready = true →
      Verified port id endpointUrl digest version
        (exchange replies (port.inspect reference endpointUrl id digest version).run count).2) ↔
      NamesServed port id endpointUrl digest version (replies count) (replies (count + 1)) := by
  rw [exchange_inspect mine]
  constructor
  · intro sound result served read admits named answers
    have passes := inspected_of_passes id (replies (count + 1)) read admits named
    have ready := judge_iff.mpr answers
    have verdict : ∃ observation, (inspected port endpointUrl id digest version (replies count)
        (replies (count + 1))).1 = .ok observation ∧ observation.ready = true := by
      rwa [passes]
    obtain ⟨observation, recovered, isReady⟩ := ready_of_recover.mpr verdict
    exact (verified_iff verdict).mp (sound observation recovered isReady) result served read admits
      named answers
  · intro names observation recovered isReady
    have ready := ready_of_recover.mp ⟨observation, recovered, isReady⟩
    exact (verified_iff ready).mpr names

/-- The version that is asked for, in canonical form, is of the model. -/
def AsksFor (contracts : Contracts) (model : ArtifactRef) :
    Option ModelVersionDocument → Option ModelVersionDocument → Prop
  | none, none => True
  | some version, some expected => contracts.canonical version.members = .ok expected ∧
      expected.id = version.id ∧ ∃ again, contracts.canonical expected.members = .ok again ∧
        contracts.modelVersionArtifact again = .ok model
  | _, _ => False

/-- After the request of the start, the messages verify the model that was asked for. -/
def StartVerified (port : RemoteServingExecutionPort) (id : Uuid) (model : ArtifactRef)
    (version : Option ModelVersionDocument) (handle : EngineHandle)
    (messages : List (HttpRequest × HttpReply)) : Prop :=
  ∃ expected started rest, messages = started :: rest ∧
    AsksFor port.contracts model version expected ∧
    Verified port id handle.endpointUrl (expectedDigest model expected) expected rest

variable {model : ArtifactRef} {nodeRef : Option NodeRef}

theorem expectedVersion_eq_ok {node : NodeRef} {expected : Option ModelVersionDocument}
    (asked : port.expectedVersion model nodeRef version = .ok (node, expected)) :
    (version = none ∧ expected = none) ∨ ∃ given document, version = some given ∧
      expected = some document ∧ port.contracts.canonical given.members = .ok document := by
  unfold expectedVersion at asked
  split at asked
  · cases asked
  · split at asked
    · cases asked
      exact .inl ⟨rfl, rfl⟩
    · split at asked
      · rename_i given _ document canonical
        cases asked
        unfold Contracts.canonicalExpectedModelVersion at canonical
        simp only [bind_eq_ok, pure, Except.pure, Except.ok.injEq] at canonical
        obtain ⟨again, known, _, _, _, _, same⟩ := canonical
        exact .inr ⟨given, document, rfl, rfl, same ▸ known⟩
      · cases asked

/-- What `start` makes of the reply is the handle that was read of it, with its served name. -/
theorem acceptStart_read {expected : Option ModelVersionDocument} {reply : HttpReply}
    {handle : EngineHandle} (accepted : port.acceptStart id model expected reply = .ok handle) :
    (∃ result, port.readHandle id model expected result = .ok handle) ∧
      handle.model = some (servedName id) := by
  unfold acceptStart at accepted
  split at accepted
  · cases accepted
  · split at accepted
    · split at accepted
      · cases accepted
      · rename_i read
        split at accepted
        · rename_i named
          cases accepted
          exact ⟨⟨_, read⟩, named⟩
        · cases accepted
    · cases accepted

/-- A handle is of this execution, and of the version that was asked for. -/
theorem acceptStart_eq_ok {expected : Option ModelVersionDocument} {reply : HttpReply}
    {handle : EngineHandle} (accepted : port.acceptStart id model expected reply = .ok handle) :
    handle.executionRef = id.str ∧ ∀ document, expected = some document →
      ∃ again, port.contracts.canonical document.members = .ok again ∧
        port.contracts.modelVersionArtifact again = .ok model := by
  obtain ⟨⟨result, read⟩, _⟩ := acceptStart_read accepted
  simp only [readHandle, bind_eq_ok, pure, Except.pure, Except.ok.injEq] at read
  obtain ⟨versionId, readVersion, _, _, _, _, _, _, _, _, same⟩ := read
  refine ⟨same ▸ rfl, fun document known => ?_⟩
  subst known
  simp only [readVersionId, map_eq_ok] at readVersion
  obtain ⟨returned, passes, _⟩ := readVersion
  exact (validated_of_readback passes).2.2.2

theorem asksFor_of_start {node : NodeRef} {expected : Option ModelVersionDocument}
    {reply : HttpReply} {handle : EngineHandle}
    (asked : port.expectedVersion model nodeRef version = .ok (node, expected))
    (accepted : port.acceptStart id model expected reply = .ok handle) :
    AsksFor port.contracts model version expected := by
  rcases expectedVersion_eq_ok asked with ⟨rfl, rfl⟩ | ⟨given, document, rfl, rfl, canonical⟩
  · trivial
  · exact ⟨canonical, canonical_keeps given canonical,
      (acceptStart_eq_ok accepted).2 document rfl⟩

theorem AsksFor.unique {contracts : Contracts} {first second : Option ModelVersionDocument}
    (asks : AsksFor contracts model version first) (also : AsksFor contracts model version second) :
    first = second := by
  cases version with
  | none => cases first <;> cases second <;> simp_all [AsksFor]
  | some version =>
      cases first with
      | none => cases asks
      | some left =>
          cases second with
          | none => cases also
          | some right =>
              have same := asks.1.symm.trans also.1
              cases same
              rfl

/-- The outcome of a start, by its checks of what it asks for and of the first reply. -/
theorem exchange_start :
    exchange replies (port.start id model nodeRef version).run count =
      match port.expectedVersion model nodeRef version with
      | .error raised => (.error raised, [])
      | .ok (node, expected) =>
          let started : HttpRequest × HttpReply := (⟨.post, port.base ++ executionPath id, port.token,
            some (startPayload model node expected)⟩, replies count)
          match port.acceptStart id model expected (replies count) with
          | .error raised => (.error raised, [started])
          | .ok handle =>
              let inspection := exchange replies (port.inspect handle.executionRef
                handle.endpointUrl id (expectedDigest model expected) expected).run (count + 1)
              (inspection.1 >>= fun observation =>
                if observation.ready then .ok handle
                else .error (.serving (dataPathUnreachable handle)), started :: inspection.2) := by
  rw [start, exchange_ofExcept]
  cases port.expectedVersion model nodeRef version with
  | error raised => rfl
  | ok asked =>
      simp only [exchange_send, exchange_ofExcept]
      cases port.acceptStart id model asked.2 (replies count) with
      | error raised => rfl
      | ok handle => simp only [exchange_checked]

theorem start_verified_iff :
    (∀ handle, (exchange replies (port.start id model nodeRef version).run count).1 = .ok handle →
      StartVerified port id model version handle
        (exchange replies (port.start id model nodeRef version).run count).2) ↔
      ∀ node expected handle, port.expectedVersion model nodeRef version = .ok (node, expected) →
        port.acceptStart id model expected (replies count) = .ok handle →
        NamesServed port id handle.endpointUrl (expectedDigest model expected) expected
          (replies (count + 1)) (replies (count + 2)) := by
  rw [exchange_start]
  cases asked : port.expectedVersion model nodeRef version with
  | error raised => simp
  | ok given =>
      obtain ⟨node, expected⟩ := given
      cases accepted : port.acceptStart id model expected (replies count) with
      | error raised =>
          simp only [accepted, reduceCtorEq, false_implies, implies_true, true_iff]
          intro node' expected' handle same accepted'
          cases same
          rw [accepted] at accepted'
          cases accepted'
      | ok handle =>
          have asks := asksFor_of_start asked accepted
          simp only [accepted]
          have inspection := inspect_verified_iff port replies (count + 1) handle.endpointUrl
            (expectedDigest model expected) expected (acceptStart_eq_ok accepted).1
          constructor
          · intro sound node' expected' handle' same accepted'
            cases same
            rw [accepted] at accepted'
            cases accepted'
            refine inspection.mp fun observation inspects ready => ?_
            obtain ⟨expected', started, rest, messages, also, verified⟩ := sound handle (by
              simp [inspects, ready, bind, Except.bind])
            cases messages
            obtain rfl := asks.unique also
            exact verified
          · intro names handle' returned
            obtain ⟨observation, inspects, last⟩ := bind_eq_ok.mp returned
            split at last
            · rename_i ready
              cases last
              exact ⟨expected, _, _, rfl, asks,
                inspection.mpr (names node expected handle rfl accepted) observation inspects ready⟩
            · cases last

end Readiness

/-- A ready inspection and a started execution are verified by what was exchanged exactly
where the readback, when everything else passes, names the deployment's served model. -/
theorem remote_readiness_is_sound_iff (port : RemoteServingExecutionPort) (id : Uuid)
    (version : Option ModelVersionDocument) (replies : Nat → HttpReply) :
    (∀ reference endpointUrl digest,
      (∀ observation,
        (exchange replies (port.inspect reference endpointUrl id digest version).run 0).1 =
          .ok observation → observation.ready = true →
        Verified port id endpointUrl digest version
          (exchange replies (port.inspect reference endpointUrl id digest version).run 0).2) ↔
      (reference = id.str →
        NamesServed port id endpointUrl digest version (replies 0) (replies 1))) ∧
    ∀ model nodeRef,
      (∀ handle, (exchange replies (port.start id model nodeRef version).run 0).1 = .ok handle →
        StartVerified port id model version handle
          (exchange replies (port.start id model nodeRef version).run 0).2) ↔
      ∀ node expected handle, port.expectedVersion model nodeRef version = .ok (node, expected) →
        port.acceptStart id model expected (replies 0) = .ok handle →
        NamesServed port id handle.endpointUrl (expectedDigest model expected) expected
          (replies 1) (replies 2) := by
  refine ⟨fun reference endpointUrl digest => ?_, fun model nodeRef => start_verified_iff⟩
  by_cases mine : reference = id.str
  · rw [inspect_verified_iff port replies 0 endpointUrl digest version mine]
    exact ⟨fun names _ => names, fun names => names mine⟩
  · constructor
    · exact fun _ also => absurd also mine
    · intro _ observation inspects ready
      rw [inspect, if_pos mine] at inspects
      cases inspects
      cases ready

/-- A binding at `https://host`; a full model asks for no ModelVersion. -/
def hostPort : RemoteServingExecutionPort where
  contracts :=
    { rules := ⟨fun _ => true, fun _ => true⟩
      printer :=
        { isprintable := fun _ => true, encodes_ascii := fun _ _ => rfl, floatRepr := fun _ => "0.0",
          floatRepr_head := zero_head }
      canonicalModelVersion := fun _ => none
      validateArtifactRef := fun _ => none
      canonical_id := fun _ _ _ none => by cases none }
  controlUrl := "https://host"
  token := "token"
  admitted := by rfl

def hostModel : ArtifactRef := ⟨"file:///model", "sha256:1", 1, .model, none⟩

/-- What the host says of an execution that serves the model `served`. -/
def hostReadback (id : Uuid) (served : String) : HttpReply :=
  .answered 200 (some (.obj
    [("ready", .bool true), ("endpointUrl", .str ("https://host/serving/" ++ id.str ++ "/v1")),
      ("servedModel", .str served), ("modelArtifact", .obj [("digest", .str "sha256:1")])]))

def hostAnswer (served : String) : HttpReply :=
  .answered 200 (some (.obj [("model", .str served),
    ("choices", .arr [.obj [("message", .obj [("content", .str "ready")])]])]))

/-- The start is accepted under the own name; readback and probe are of another
deployment's model. -/
def foreignReplies (id other : Uuid) : Nat → HttpReply
  | 0 => hostReadback id (servedName id)
  | 1 => hostReadback id (servedName other)
  | _ => hostAnswer (servedName other)

/-- A reply that names another deployment's served model makes this one ready. -/
theorem foreign_model_makes_ready :
    (exchange (foreignReplies ⟨1⟩ ⟨2⟩)
        (hostPort.start ⟨1⟩ hostModel (some ⟨"node", 1⟩) none).run 0).1 =
      .ok (hostPort.prepare ⟨1⟩) ∧
    ¬ StartVerified hostPort ⟨1⟩ hostModel none (hostPort.prepare ⟨1⟩)
      (exchange (foreignReplies ⟨1⟩ ⟨2⟩)
        (hostPort.start ⟨1⟩ hostModel (some ⟨"node", 1⟩) none).run 0).2 := by
  refine ⟨by rfl, ?_⟩
  intro started
  obtain ⟨_, _, rest, messages, _, _, _, _, answer, exchanged, _, _, _, _, named⟩ := started
  have received : (exchange (foreignReplies ⟨1⟩ ⟨2⟩)
      (hostPort.start ⟨1⟩ hostModel (some ⟨"node", 1⟩) none).run 0).2.map Prod.snd =
      [hostReadback ⟨1⟩ (servedName ⟨1⟩), hostReadback ⟨1⟩ (servedName ⟨2⟩),
        hostAnswer (servedName ⟨2⟩)] := by rfl
  rw [messages, exchanged] at received
  simp only [List.map_cons, List.map_nil, List.cons.injEq, hostAnswer, HttpReply.answered.injEq,
    Option.some.injEq, JsonValue.obj.injEq] at received
  obtain ⟨_, _, ⟨_, rfl⟩, _⟩ := received
  simp only [JsonValue.member?, List.find?_cons_of_pos, Option.map_some, Option.some.injEq,
    JsonValue.str.injEq, beq_self_eq_true] at named
  exact absurd named (by decide)

end CyreneReactor.Remote
