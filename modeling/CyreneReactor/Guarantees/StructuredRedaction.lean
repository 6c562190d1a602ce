import CyreneReactor.Guarantees.SecretPatterns

namespace CyreneReactor.StructuredLogging

open Logging

/-! Which records the structured log redacts completely. -/

variable (sameLetter : Char → Character → Bool) (str : Value → Text)

mutual

/-- Under every sensitive name, at any depth, the second has the mask of the first's value. -/
def MaskedMembers : List (Text × Value) → List (Text × Value) → Prop
  | [], [] => True
  | (key, value) :: rest, (key', shown) :: shownRest =>
      key' = key ∧
        (if isSensitiveField sameLetter key then shown = .text (redactValue (strOf str value))
          else Masked value shown) ∧
        MaskedMembers rest shownRest
  | _, _ => False

def Masked : Value → Value → Prop
  | .dict members, .dict shown => MaskedMembers members shown
  | .list items, .list shown => MaskedItems items shown
  | .text _, .text _ => True
  | .scalar _, .scalar _ => True
  | _, _ => False

def MaskedItems : List Value → List Value → Prop
  | [], [] => True
  | item :: rest, shown :: shownRest => Masked item shown ∧ MaskedItems rest shownRest
  | _, _ => False

end

mutual

/-- No text of the value, at any depth, has a match of a pattern. -/
def CleanMembers : List (Text × Value) → Prop
  | [] => True
  | (_, value) :: rest => CleanValue value ∧ CleanMembers rest

def CleanValue : Value → Prop
  | .dict members => CleanMembers members
  | .list items => CleanItems items
  | .text value => Clean value
  | .scalar _ => True

def CleanItems : List Value → Prop
  | [] => True
  | item :: rest => CleanValue item ∧ CleanItems rest

end

/-- The record is redacted completely. -/
def Complete (data : List (Text × Value)) : Prop :=
  MaskedMembers sameLetter str data (redactDict sameLetter str data) ∧
    CleanMembers (redactDict sameLetter str data)

mutual

/-- There is nothing to redact: under sensitive names are masks, and the texts are clean. -/
def VerbatimMembers : List (Text × Value) → Prop
  | [] => True
  | (key, value) :: rest =>
      (if isSensitiveField sameLetter key then value = .text (text "***") else Verbatim value) ∧
        VerbatimMembers rest

def Verbatim : Value → Prop
  | .dict members => VerbatimMembers members
  | .list items => VerbatimItems items
  | .text value => Clean value
  | .scalar _ => True

def VerbatimItems : List Value → Prop
  | [] => True
  | item :: rest => Verbatim item ∧ VerbatimItems rest

end

section Reached

variable (texts : Text → Prop)

mutual

/-- The texts that are reached fulfil a condition; the items that are not need no redaction. -/
def Reached : List (Text × Value) → Prop
  | [] => True
  | (key, value) :: rest =>
      (if isSensitiveField sameLetter key then True else ReachedValue value) ∧ Reached rest

def ReachedValue : Value → Prop
  | .dict members => Reached members
  | .list items => ReachedItems items
  | .text value => texts value
  | .scalar _ => True

def ReachedItems : List Value → Prop
  | [] => True
  | .dict members :: rest => Reached members ∧ ReachedItems rest
  | .list items :: rest => VerbatimItems sameLetter items ∧ ReachedItems rest
  | .text value :: rest => Clean value ∧ ReachedItems rest
  | .scalar _ :: rest => ReachedItems rest

end

end Reached

theorem clean_mask (value : Text) : Clean (redactValue value) :=
  clean_iff.mpr (redactValue_free value)

/-- Only three stars are their own mask. -/
theorem mask_fixed_iff {value : Value} :
    value = .text (redactValue (strOf str value)) ↔ value = .text (text "***") := by
  constructor
  · intro same
    cases value with
    | text value =>
        have fixed : value = redactValue value := Value.text.inj same
        have length := congrArg List.length fixed
        rcases redactValue_shape value with short | ⟨eleven, _⟩
        · have eight : value.length ≤ 8 := by omega
          rw [redactValue, if_pos eight] at fixed
          rw [fixed]
        · have more : ¬ value.length ≤ 8 := by omega
          have sixteen : value.length ≤ 16 := by omega
          rw [redactValue, if_neg more, if_pos sixteen] at length
          simp only [List.length_append, List.length_take, List.length_drop,
            show (text "...").length = 3 by rfl] at length
          omega
    | dict members => cases same
    | list items => cases same
    | scalar literal => cases same
  · intro same
    subst same
    rfl

mutual

theorem verbatim_iff : ∀ value,
    Verbatim sameLetter value ↔ Masked sameLetter str value value ∧ CleanValue value
  | .dict members => by
      rw [Verbatim, Masked, CleanValue, verbatimMembers_iff members]
  | .list items => by
      rw [Verbatim, Masked, CleanValue, verbatimItems_iff items]
  | .text value => by simp [Verbatim, Masked, CleanValue]
  | .scalar literal => by simp [Verbatim, Masked, CleanValue]

theorem verbatimMembers_iff : ∀ members, VerbatimMembers sameLetter members ↔
    MaskedMembers sameLetter str members members ∧ CleanMembers members
  | [] => by simp [VerbatimMembers, MaskedMembers, CleanMembers]
  | (key, value) :: rest => by
      rw [VerbatimMembers, MaskedMembers, CleanMembers, verbatimMembers_iff rest]
      by_cases sensitive : isSensitiveField sameLetter key = true
      · simp only [sensitive, if_true, mask_fixed_iff]
        have stars : value = .text (text "***") → CleanValue value := by
          intro same
          rw [same, CleanValue]
          exact clean_mask []
        tauto
      · simp only [sensitive, Bool.false_eq_true, if_false, verbatim_iff value]
        tauto

theorem verbatimItems_iff : ∀ items, VerbatimItems sameLetter items ↔
    MaskedItems sameLetter str items items ∧ CleanItems items
  | [] => by simp [VerbatimItems, MaskedItems, CleanItems]
  | item :: rest => by
      rw [VerbatimItems, MaskedItems, CleanItems, verbatim_iff item, verbatimItems_iff rest]
      tauto

end

mutual

theorem reached_iff : ∀ data,
    Reached sameLetter (fun value => Clean (redactApiKeys value)) data ↔
      MaskedMembers sameLetter str data (redactDict sameLetter str data) ∧
        CleanMembers (redactDict sameLetter str data)
  | [] => by simp [Reached, redactDict, MaskedMembers, CleanMembers]
  | (key, value) :: rest => by
      rw [Reached, redactDict, MaskedMembers, CleanMembers, reached_iff rest]
      by_cases sensitive : isSensitiveField sameLetter key = true
      · have clean : CleanValue (.text (redactValue (strOf str value))) := by
          rw [CleanValue]
          exact clean_mask _
        simp only [sensitive, if_true, clean, true_and]
      · simp only [sensitive, Bool.false_eq_true, if_false, reachedValue_iff value]
        tauto

theorem reachedValue_iff : ∀ value,
    ReachedValue sameLetter (fun value => Clean (redactApiKeys value)) value ↔
      Masked sameLetter str value (redactMember sameLetter str value) ∧
        CleanValue (redactMember sameLetter str value)
  | .dict members => by
      rw [ReachedValue, redactMember, Masked, CleanValue, reached_iff members]
  | .list items => by
      rw [ReachedValue, redactMember, Masked, CleanValue, reachedItems_iff items]
  | .text value => by simp [ReachedValue, redactMember, Masked, CleanValue]
  | .scalar literal => by simp [ReachedValue, redactMember, Masked, CleanValue]

theorem reachedItems_iff : ∀ items,
    ReachedItems sameLetter (fun value => Clean (redactApiKeys value)) items ↔
      MaskedItems sameLetter str items (redactItems sameLetter str items) ∧
        CleanItems (redactItems sameLetter str items)
  | [] => by simp [ReachedItems, redactItems, MaskedItems, CleanItems]
  | .dict members :: rest => by
      rw [ReachedItems, redactItems, MaskedItems, CleanItems, Masked, CleanValue,
        reached_iff members, reachedItems_iff rest]
      tauto
  | .list items :: rest => by
      rw [ReachedItems, redactItems, MaskedItems, CleanItems, Masked, CleanValue,
        verbatimItems_iff sameLetter str, reachedItems_iff rest]
      tauto
  | .text value :: rest => by
      rw [ReachedItems, redactItems, MaskedItems, CleanItems, Masked, CleanValue,
        reachedItems_iff rest]
      tauto
  | .scalar literal :: rest => by
      rw [ReachedItems, redactItems, MaskedItems, CleanItems, Masked, CleanValue,
        reachedItems_iff rest]
      tauto

end

section Mono

variable {strict loose : Text → Prop}

mutual

theorem reached_mono (weaker : ∀ value, strict value → loose value) :
    ∀ data, Reached sameLetter strict data → Reached sameLetter loose data
  | [] => by simp [Reached]
  | (key, value) :: rest => by
      rw [Reached, Reached]
      intro both
      refine ⟨?_, reached_mono weaker rest both.2⟩
      by_cases sensitive : isSensitiveField sameLetter key = true
      · simp only [sensitive, if_true]
      · simp only [sensitive, Bool.false_eq_true, if_false] at both ⊢
        exact reachedValue_mono weaker value both.1

theorem reachedValue_mono (weaker : ∀ value, strict value → loose value) : ∀ value,
    ReachedValue sameLetter strict value → ReachedValue sameLetter loose value
  | .dict members => by
      rw [ReachedValue, ReachedValue]
      exact reached_mono weaker members
  | .list items => by
      rw [ReachedValue, ReachedValue]
      exact reachedItems_mono weaker items
  | .text value => by
      rw [ReachedValue, ReachedValue]
      exact weaker value
  | .scalar literal => by simp [ReachedValue]

theorem reachedItems_mono (weaker : ∀ value, strict value → loose value) : ∀ items,
    ReachedItems sameLetter strict items → ReachedItems sameLetter loose items
  | [] => by simp [ReachedItems]
  | .dict members :: rest => by
      rw [ReachedItems, ReachedItems]
      exact fun both => ⟨reached_mono weaker members both.1, reachedItems_mono weaker rest both.2⟩
  | .list items :: rest => by
      rw [ReachedItems, ReachedItems]
      exact fun both => ⟨both.1, reachedItems_mono weaker rest both.2⟩
  | .text value :: rest => by
      rw [ReachedItems, ReachedItems]
      exact fun both => ⟨both.1, reachedItems_mono weaker rest both.2⟩
  | .scalar literal :: rest => by
      rw [ReachedItems, ReachedItems]
      exact reachedItems_mono weaker rest

end

end Mono

/-- The redaction is complete where the texts that are reached have no keys that overlap, and
what is not reached needs none; and, but for texts with the word "Bearer", only there. -/
theorem structured_redaction_is_complete (data : List (Text × Value)) :
    (Reached sameLetter (fun value => ¬ Overlaps value) data → Complete sameLetter str data) ∧
      (Complete sameLetter str data →
        Reached sameLetter (fun value => ¬ Overlaps value ∨ bearerMark <:+: value) data) := by
  constructor
  · intro apart
    exact (reached_iff sameLetter str data).mp (reached_mono sameLetter
      (fun value apart => clean_iff.mpr (patternFree_of_apart apart)) data apart)
  · intro complete
    exact reached_mono sameLetter (fun value clean => apart_of_patternFree (clean_iff.mp clean))
      data ((reached_iff sameLetter str data).mpr complete)

def exactLetter (letter : Char) (char : Character) : Bool := char == .scalar letter

/-- Two keys, of which the second starts with the last two characters of the first. -/
def overlappingKeys : Text :=
  apiKeyMark ++ (List.replicate 30 (.scalar 'a') ++ (apiKeyMark ++ List.replicate 32 (.scalar 'b')))

/-- A token in a list stays in the log, and so does a key that overlaps another. -/
theorem list_text_leaks :
    (∀ str : Value → Text,
      ¬ Complete exactLetter str [(text "messages", .list [.text (text "Bearer abcdefgh")])]) ∧
      ∀ str : Value → Text,
        ¬ Complete exactLetter str [(text "message", .text overlappingKeys)] := by
  have plain : isSensitiveField exactLetter (text "messages") = false := by decide
  have alsoPlain : isSensitiveField exactLetter (text "message") = false := by decide
  constructor
  · intro str complete
    have reached := (reached_iff exactLetter str _).mpr complete
    simp only [Reached, ReachedValue, ReachedItems, plain, Bool.false_eq_true, if_false,
      and_true] at reached
    exact (reached _ (List.infix_refl _)).2 ⟨text " ", text "abcdefgh", [], rfl, by decide,
      by decide, by decide, by decide, by decide⟩
  · intro str complete
    have reached := (reached_iff exactLetter str _).mpr complete
    simp only [Reached, ReachedValue, alsoPlain, Bool.false_eq_true, if_false,
      and_true] at reached
    have overlaps : Overlaps overlappingKeys :=
      ⟨[], _, rfl, _, _, rfl, by decide, by decide, by decide⟩
    rcases apart_of_patternFree (clean_iff.mp reached) with apart | word
    · exact apart overlaps
    · revert word
      decide

end CyreneReactor.StructuredLogging
