import CyreneReactor.Remote.Port

namespace CyreneReactor.Remote

open Interaction

/-! The HTTP client of the port, which does not send every request it is given. -/

/-- What the client raises for an URL instead of sending the request, if it does. -/
structure HttpClient where
  refuses : String → Option ExceptionKind

/-- The ASCII characters that cannot be printed. -/
def isControl (char : Char) : Bool := char.toNat < 32 || char.toNat == 127

/-- What is known of the client: it takes an URL with a control character for invalid,
and it cannot connect where there is no host. -/
structure HttpClient.Documented (client : HttpClient) (rules : Url.Rules) : Prop where
  controls : ∀ url : String, url.toList.any isControl = true →
    client.refuses url = some .invalidUrl
  hostless : ∀ url scheme, Url.origin rules url = some (scheme, []) → client.refuses url ≠ none

/-- A request that is refused comes to what the client raises. -/
def HttpClient.Replies (client : HttpClient) (request : HttpRequest) (reply : HttpReply) : Prop :=
  ∀ kind, client.refuses request.url = some kind → reply = .raised kind

section Refusals

variable {client : HttpClient} {rules : Url.Rules} {url : String}

theorem HttpClient.Documented.safe (documented : client.Documented rules)
    (sent : client.refuses url = none) : ∀ char ∈ url.toList, Url.isUnsafe char = false := by
  intro char member
  cases unsafe' : Url.isUnsafe char with
  | false => rfl
  | true =>
      have control : isControl char = true := by
        simp only [Url.isUnsafe, Bool.or_eq_true, beq_iff_eq] at unsafe'
        rcases unsafe' with (rfl | rfl) | rfl <;> decide
      rw [documented.controls url (List.any_eq_true.mpr ⟨char, member, control⟩)] at sent
      cases sent

end Refusals

/-- A client that refuses control characters, other schemes than these two, and what has no
host. -/
def plainClient (rules : Url.Rules) : HttpClient where
  refuses url :=
    if url.toList.any isControl then some .invalidUrl
    else if (Url.origin rules url).any fun place =>
        ["http".toList, "https".toList].contains place.1 && !place.2.isEmpty then none
    else some .httpError

theorem plainClient_documented (rules : Url.Rules) : (plainClient rules).Documented rules where
  controls url controls := if_pos controls
  hostless url scheme goes := by
    unfold plainClient
    simp only [goes, Option.any_some, List.isEmpty_nil, Bool.not_true, Bool.and_false]
    split <;> simp

end CyreneReactor.Remote
