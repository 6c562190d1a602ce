import CyreneReactor.Data.Url
import CyreneReactor.Exchange.Handoff
import Mathlib.Data.Bool.AllAny

namespace CyreneReactor.Exchange

open Url

/-! The origins that the handoff admits, and the paths it puts behind them. -/

/-- What `admitted_origin` raises: what `urlsplit` raised, or its own codes. -/
inductive OriginError where
  | urlsplit
  | valueError (code : String)
deriving DecidableEq, Repr

def admittedOrigin (rules : Rules) (value : String) : Except OriginError String :=
  let origin := rstrip value
  match Url.urlsplit rules origin with
  | some parsed =>
      if parsed.username ≠ [] ∨ parsed.password ≠ [] ∨ parsed.query ≠ [] ∨
          parsed.fragment ≠ [] ∨ parsed.path ≠ [] then
        .error (.valueError "HANDOFF_ORIGIN_INVALID")
      else if parsed.scheme ≠ "https".toList ∧ ¬ (parsed.scheme = "http".toList ∧
          ["127.0.0.1".toList, "localhost".toList, "::1".toList].contains parsed.hostname) then
        .error (.valueError "HANDOFF_TLS_REQUIRED")
      else if parsed.hostname = [] then .error (.valueError "HANDOFF_ORIGIN_INVALID")
      else .ok origin
  | none => .error .urlsplit

/-- What `send` puts behind an origin. -/
inductive HandoffPath where
  | drafts
  | route (id : Uuid)
  | endpoint (id : Uuid)

def HandoffPath.text : HandoffPath → String
  | .drafts => "/api/v1/gateway-route-drafts"
  | .route id => "/api/v1/gateway-routes/" ++ id.str
  | .endpoint id => "/api/v1/endpoints/" ++ id.str

/-- A path from the root, without the marks that end a path and what `urlsplit` takes out. -/
structure AbsolutePath (path : String) : Prop where
  root : path.toList.head? = some '/'
  plain : ∀ char ∈ path.toList, char ≠ '?' ∧ char ≠ '#' ∧ isUnsafe char = false

/-- The joined URL has the scheme and network location of the origin and the path, nothing else. -/
def Reaches (rules : Rules) (origin path : String) : Prop :=
  ∃ placed, Url.urlsplit rules origin = some placed ∧ '@' ∉ placed.netloc ∧
    Url.urlsplit rules (origin ++ path) =
      some ⟨placed.scheme, placed.netloc, path.toList, [], []⟩

theorem AbsolutePath.append {front : String} {id : Uuid} (absolute : AbsolutePath front) :
    AbsolutePath (front ++ id.str) := by
  constructor
  · rw [String.toList_append, List.head?_append, absolute.root]
    rfl
  · intro char member
    rw [String.toList_append] at member
    rcases List.mem_append.mp member with early | late
    · exact absolute.plain char early
    · have digits : ∀ digit < 16, Nat.digitChar digit ≠ '?' ∧ Nat.digitChar digit ≠ '#' ∧
          isUnsafe (Nat.digitChar digit) = false := by decide
      rcases Uuid.mem_str late with rfl | ⟨digit, small, rfl⟩
      · decide
      · exact digits digit small

/-- The paths of the handoff are absolute. -/
theorem HandoffPath.absolute (path : HandoffPath) : AbsolutePath path.text := by
  cases path with
  | drafts => exact ⟨by decide, List.all_iff_forall_prop.mp (by decide)⟩
  | route id => exact AbsolutePath.append ⟨by decide, List.all_iff_forall_prop.mp (by decide)⟩
  | endpoint id => exact AbsolutePath.append ⟨by decide, List.all_iff_forall_prop.mp (by decide)⟩

/-- The resource that is published is named by the endpoint's path. -/
theorem payload_resourceUri {handoff : ExchangeHandoff} {command : SendToExchangeRequest}
    {endpoint : Endpoint} {model : String} {deployment : Deployment} {artifact : ArtifactRef} :
    (payload handoff command endpoint model deployment artifact).source.resourceUri =
      handoff.sourceOrigin ++ (HandoffPath.endpoint endpoint.id).text := by
  unfold payload HandoffPath.text
  exact String.append_assoc

end CyreneReactor.Exchange
