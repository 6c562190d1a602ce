import CyreneReactor.Logging.Attributes

namespace CyreneReactor.Logging

/-! Which attributes the Product's log redacts completely. -/

section Complete

variable (lower : Text → Text)

mutual

/-- The value as the log may show it: the mark stands under every sensitive key, at any depth,
sequences are lists, and all else is as it was. -/
def redacted : Attribute → Attribute
  | .mapping members => .mapping (redactedMembers members)
  | .list items => .list (redactedItems items)
  | .tuple items => .list (redactedItems items)
  | .text value => .text value
  | .literal json => .literal json

def redactedMembers : List (Text × Attribute) → List (Text × Attribute)
  | [] => []
  | (key, value) :: rest =>
      (key, if isSensitiveKey lower key then redactionMark else redacted value) ::
        redactedMembers rest

def redactedItems : List Attribute → List Attribute
  | [] => []
  | item :: rest => redacted item :: redactedItems rest

end

mutual

/-- There is nothing to redact: no tuple, and under sensitive keys only the mark. -/
def Settled : Attribute → Prop
  | .mapping members => SettledMembers members
  | .list items => SettledItems items
  | .tuple _ => False
  | .text _ => True
  | .literal _ => True

def SettledMembers : List (Text × Attribute) → Prop
  | [] => True
  | (key, value) :: rest =>
      (if isSensitiveKey lower key then value = redactionMark else Settled value) ∧
        SettledMembers rest

def SettledItems : List Attribute → Prop
  | [] => True
  | item :: rest => Settled item ∧ SettledItems rest

end

mutual

/-- Outside of what is redacted, no sequence that is an item of a sequence needs redaction. -/
def Reached : List (Text × Attribute) → Prop
  | [] => True
  | (key, value) :: rest =>
      (if isSensitiveKey lower key then True else ReachedValue value) ∧ Reached rest

def ReachedValue : Attribute → Prop
  | .mapping members => Reached members
  | .list items => ReachedItems items
  | .tuple items => ReachedItems items
  | .text _ => True
  | .literal _ => True

def ReachedItems : List Attribute → Prop
  | [] => True
  | .mapping members :: rest => Reached members ∧ ReachedItems rest
  | .list items :: rest => SettledItems lower items ∧ ReachedItems rest
  | .tuple _ :: _ => False
  | .text _ :: rest => ReachedItems rest
  | .literal _ :: rest => ReachedItems rest

end

mutual

theorem settled_iff : ∀ value, Settled lower value ↔ redacted lower value = value
  | .mapping members => by
      rw [Settled, redacted, Attribute.mapping.injEq, settledMembers_iff]
  | .list items => by
      rw [Settled, redacted, Attribute.list.injEq, settledItems_iff]
  | .tuple items => by
      rw [Settled, redacted]
      simp
  | .text value => by simp [Settled, redacted]
  | .literal json => by simp [Settled, redacted]

theorem settledMembers_iff :
    ∀ members, SettledMembers lower members ↔ redactedMembers lower members = members
  | [] => by simp [SettledMembers, redactedMembers]
  | (key, value) :: rest => by
      rw [SettledMembers, redactedMembers, settledMembers_iff rest, List.cons.injEq,
        Prod.mk.injEq]
      by_cases sensitive : isSensitiveKey lower key = true
      · simp [sensitive, eq_comm]
      · simp [sensitive, settled_iff value]

theorem settledItems_iff : ∀ items, SettledItems lower items ↔ redactedItems lower items = items
  | [] => by simp [SettledItems, redactedItems]
  | item :: rest => by
      rw [SettledItems, redactedItems, settled_iff item, settledItems_iff rest, List.cons.injEq]

end

mutual

theorem reached_iff : ∀ members,
    Reached lower members ↔ redactAttributes lower members = redactedMembers lower members
  | [] => by simp [Reached, redactAttributes, redactedMembers]
  | (key, value) :: rest => by
      rw [Reached, redactAttributes, redactedMembers, reached_iff rest, List.cons.injEq,
        Prod.mk.injEq]
      by_cases sensitive : isSensitiveKey lower key = true
      · simp [sensitive]
      · simp [sensitive, reachedValue_iff value]

theorem reachedValue_iff : ∀ value,
    ReachedValue lower value ↔ redactValue lower value = redacted lower value
  | .mapping members => by
      rw [ReachedValue, redactValue, redacted, Attribute.mapping.injEq, reached_iff members]
  | .list items => by
      rw [ReachedValue, redactValue, redacted, Attribute.list.injEq, reachedItems_iff items]
  | .tuple items => by
      rw [ReachedValue, redactValue, redacted, Attribute.list.injEq, reachedItems_iff items]
  | .text value => by simp [ReachedValue, redactValue, redacted]
  | .literal json => by simp [ReachedValue, redactValue, redacted]

theorem reachedItems_iff : ∀ items,
    ReachedItems lower items ↔ redactItems lower items = redactedItems lower items
  | [] => by simp [ReachedItems, redactItems, redactedItems]
  | .mapping members :: rest => by
      rw [ReachedItems, redactItems, redactedItems, redacted, reached_iff members,
        reachedItems_iff rest, List.cons.injEq, Attribute.mapping.injEq]
  | .list items :: rest => by
      rw [ReachedItems, redactItems, redactedItems, redacted, settledItems_iff,
        reachedItems_iff rest, List.cons.injEq, Attribute.list.injEq, eq_comm]
  | .tuple items :: rest => by
      rw [ReachedItems, redactItems, redactedItems, redacted]
      simp
  | .text value :: rest => by
      rw [ReachedItems, redactItems, redactedItems, redacted, reachedItems_iff rest]
      simp
  | .literal json :: rest => by
      rw [ReachedItems, redactItems, redactedItems, redacted, reachedItems_iff rest]
      simp

end

mutual

theorem redactAttributes_twice : ∀ members,
    redactAttributes lower (redactAttributes lower members) = redactAttributes lower members
  | [] => by simp [redactAttributes]
  | (key, value) :: rest => by
      rw [redactAttributes, redactAttributes, redactAttributes_twice rest]
      by_cases sensitive : isSensitiveKey lower key = true
      · simp [sensitive]
      · simp [sensitive, redactValue_twice value]

theorem redactValue_twice : ∀ value,
    redactValue lower (redactValue lower value) = redactValue lower value
  | .mapping members => by
      rw [redactValue, redactValue, redactAttributes_twice members]
  | .list items => by
      rw [redactValue, redactValue, redactItems_twice items]
  | .tuple items => by
      rw [redactValue, redactValue, redactItems_twice items]
  | .text value => by simp [redactValue]
  | .literal json => by simp [redactValue]

theorem redactItems_twice : ∀ items,
    redactItems lower (redactItems lower items) = redactItems lower items
  | [] => by simp [redactItems]
  | .mapping members :: rest => by
      rw [redactItems, redactItems, redactAttributes_twice members, redactItems_twice rest]
  | .list items :: rest => by
      rw [redactItems, redactItems, redactItems_twice rest]
  | .tuple items :: rest => by
      rw [redactItems, redactItems, redactItems_twice rest]
  | .text value :: rest => by
      rw [redactItems, redactItems, redactItems_twice rest]
  | .literal json :: rest => by
      rw [redactItems, redactItems, redactItems_twice rest]

end

/-- The redaction is complete exactly for the trees whose sequences inside sequences need none.
To redact a second time never changes anything. -/
theorem redaction_is_complete_iff (attrs : List (Text × Attribute)) :
    (redactAttributes lower attrs = redactedMembers lower attrs ∧
      redactAttributes lower (redactAttributes lower attrs) = redactAttributes lower attrs) ↔
      Reached lower attrs := by
  rw [reached_iff]
  constructor
  · exact fun both => both.1
  · exact fun complete => ⟨complete, redactAttributes_twice lower attrs⟩

/-- A password in a mapping inside a list inside a list stays in the log. -/
theorem nested_list_leaks :
    redactAttributes id
        [(text "batches", .list [.list [.mapping [(text "password", .text (text "hunter2"))]]])] ≠
      redactedMembers id
        [(text "batches", .list [.list [.mapping [(text "password", .text (text "hunter2"))]]])] := by
  have plain : isSensitiveKey id (text "batches") = false := by decide
  have sensitive : isSensitiveKey id (text "password") = true := by decide
  have unmarked : text "hunter2" ≠ text "[REDACTED]" := by decide
  rw [Ne, ← reached_iff]
  simp [Reached, ReachedValue, ReachedItems, SettledItems, Settled, SettledMembers, plain,
    sensitive, redactionMark, unmarked]

end Complete

end CyreneReactor.Logging
