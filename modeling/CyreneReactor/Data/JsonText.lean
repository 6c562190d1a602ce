import Mathlib.Data.List.Basic
import Mathlib.Tactic.IntervalCases

namespace JsonText

/-! JSON string literals, as `json.dumps` writes them with `ensure_ascii=False`.

The escapes of two characters never start alike, and none starts with a quotation
mark, so what follows a literal does not change what it says.
-/

/-- A character inside a literal: quotation mark, backslash and the 32 control
characters are escaped. -/
def escape (char : Char) : List Char :=
  if char = '"' then ['\\', '"']
  else if char = '\\' then ['\\', '\\']
  else if char = '\n' then ['\\', 'n']
  else if char = '\r' then ['\\', 'r']
  else if char = '\t' then ['\\', 't']
  else if char.toNat = 8 then ['\\', 'b']
  else if char.toNat = 12 then ['\\', 'f']
  else if char.toNat < 32 then
    ['\\', 'u', '0', '0', Nat.digitChar (char.toNat / 16), Nat.digitChar (char.toNat % 16)]
  else [char]

def literal (text : String) : List Char := '"' :: (text.toList.flatMap escape ++ ['"'])

/-- `[first, second]` with `separators=(",", ":")`. -/
def pair (first second : String) : String :=
  String.ofList ('[' :: (literal first ++ ',' :: (literal second ++ [']'])))

/-- Reads one character of a literal back. -/
def unescape? : List Char → Option (Char × List Char)
  | '\\' :: 'n' :: rest => some ('\n', rest)
  | '\\' :: 'r' :: rest => some ('\r', rest)
  | '\\' :: 't' :: rest => some ('\t', rest)
  | '\\' :: 'b' :: rest => some (Char.ofNat 8, rest)
  | '\\' :: 'f' :: rest => some (Char.ofNat 12, rest)
  | '\\' :: 'u' :: _ :: _ :: high :: low :: rest =>
      let digit := fun char : Char => if char.isDigit then char.toNat - 48 else char.toNat - 87
      some (Char.ofNat (digit high * 16 + digit low), rest)
  | '\\' :: char :: rest => some (char, rest)
  | char :: rest => some (char, rest)
  | [] => none

theorem unescape?_control (value : Nat) (control : value < 32) (rest : List Char) :
    unescape? (escape (Char.ofNat value) ++ rest) = some (Char.ofNat value, rest) := by
  interval_cases value <;> rfl

theorem escape_plain {char : Char} (printable : ¬ char.toNat < 32) (quote : char ≠ '"')
    (backslash : char ≠ '\\') : escape char = [char] := by
  have above : ∀ control : Char, control.toNat < 32 → char ≠ control := by
    rintro control low rfl
    exact printable low
  simp [escape, quote, backslash, above '\n' (by decide), above '\r' (by decide),
    above '\t' (by decide), printable, show char.toNat ≠ 8 by omega,
    show char.toNat ≠ 12 by omega]

theorem unescape?_plain {char : Char} (backslash : char ≠ '\\') (rest : List Char) :
    unescape? (char :: rest) = some (char, rest) := by
  unfold unescape?
  split <;> simp_all

theorem unescape?_escape (char : Char) (rest : List Char) :
    unescape? (escape char ++ rest) = some (char, rest) := by
  by_cases control : char.toNat < 32
  · have coded := unescape?_control char.toNat control rest
    rwa [Char.ofNat_toNat] at coded
  · by_cases quote : char = '"'
    · subst quote
      rfl
    · by_cases backslash : char = '\\'
      · subst backslash
        rfl
      · rw [escape_plain control quote backslash]
        exact unescape?_plain backslash rest

/-- An escape is read in one way only. -/
theorem escape_append_inj {left right : Char} {afterLeft afterRight : List Char}
    (same : escape left ++ afterLeft = escape right ++ afterRight) :
    left = right ∧ afterLeft = afterRight := by
  have read := unescape?_escape left afterLeft
  rw [same, unescape?_escape] at read
  simpa [eq_comm] using read

theorem escape_ne_quote (char : Char) (rest tail : List Char) :
    escape char ++ rest ≠ '"' :: tail := by
  by_cases quote : char = '"'
  · subst quote
    simp [escape]
  · intro same
    unfold escape at same
    split_ifs at same <;> simp_all

/-- The text of a literal ends where the first bare quotation mark stands. -/
theorem escaped_inj {left right afterLeft afterRight : List Char}
    (same : left.flatMap escape ++ '"' :: afterLeft = right.flatMap escape ++ '"' :: afterRight) :
    left = right ∧ afterLeft = afterRight := by
  induction left generalizing right with
  | nil =>
      cases right with
      | nil => simpa using same
      | cons char rest =>
          rw [List.flatMap_cons, List.append_assoc] at same
          exact absurd same.symm (escape_ne_quote char _ _)
  | cons char rest ih =>
      cases right with
      | nil =>
          rw [List.flatMap_cons, List.append_assoc] at same
          exact absurd same (escape_ne_quote char _ _)
      | cons other others =>
          simp only [List.flatMap_cons, List.append_assoc] at same
          obtain ⟨rfl, tails⟩ := escape_append_inj same
          obtain ⟨rfl, after⟩ := ih tails
          exact ⟨rfl, after⟩

theorem literal_append_inj {left right : String} {afterLeft afterRight : List Char}
    (same : literal left ++ afterLeft = literal right ++ afterRight) :
    left = right ∧ afterLeft = afterRight := by
  simp only [literal, List.cons_append, List.append_assoc, List.nil_append, List.cons.injEq,
    true_and] at same
  obtain ⟨texts, after⟩ := escaped_inj same
  exact ⟨String.toList_inj.mp texts, after⟩

/-- Different pairs of texts are written differently. -/
theorem pair_inj {first second third fourth : String} (same : pair first second = pair third fourth) :
    first = third ∧ second = fourth := by
  have chars := String.ofList_inj.mp same
  simp only [List.cons.injEq, true_and] at chars
  obtain ⟨firsts, rest⟩ := literal_append_inj chars
  simp only [List.cons.injEq, true_and] at rest
  exact ⟨firsts, (literal_append_inj rest).1⟩

end JsonText
