import CyreneReactor.Data.Like
import CyreneReactor.Diagnostics.Store
import Mathlib.Data.Bool.AllAny

namespace CyreneReactor.Diagnostics

open Like

/-! The text a document is persisted as, and the search for lost output in it.

The text is that of `json.dumps` with sorted keys, in ASCII; the search is a `LIKE`
over all of it.
-/

/-- Python's tables, with the characters of a finite float. -/
structure JsonPrinter extends Printer where
  floatRepr_chars : ∀ value, ∀ char ∈ (floatRepr value).toList,
    char.isDigit = true ∨ char ∈ ['.', '-', '+', 'e']

def unicode (code : Nat) : List Char :=
  ['\\', 'u', Nat.digitChar (code / 4096 % 16), Nat.digitChar (code / 256 % 16),
    Nat.digitChar (code / 16 % 16), Nat.digitChar (code % 16)]

/-- The escapes of two characters. -/
def escapes : List (Char × Char) :=
  [('"', '"'), ('\\', '\\'), ('\n', 'n'), ('\r', 'r'), ('\t', 't'), ('\x08', 'b'), ('\x0c', 'f')]

/-- One character of a literal, in ASCII; beyond the basic plane it is two escapes. -/
def escapeAscii (char : Char) : List Char :=
  match escapes.find? fun escaped => escaped.1 == char with
  | some escaped => ['\\', escaped.2]
  | none =>
      if 32 ≤ char.toNat ∧ char.toNat < 127 then [char]
      else if char.toNat < 0x10000 then unicode char.toNat
      else
        unicode (0xd800 + (char.toNat - 0x10000) / 0x400) ++
          unicode (0xdc00 + (char.toNat - 0x10000) % 0x400)

def jsonLiteral (text : String) : List Char := '"' :: (text.toList.flatMap escapeAscii ++ ['"'])

def commaSeparated : List (List Char) → List Char
  | [] => []
  | [piece] => piece
  | piece :: rest => piece ++ ',' :: ' ' :: commaSeparated rest

/-- The members of an object in the order of their keys. -/
def sortKeys (members : List (String × List Char)) : List (String × List Char) :=
  members.mergeSort fun left right => decide (left.1 ≤ right.1)

namespace JsonPrinter

variable (printer : JsonPrinter)

mutual

/-- `json.dumps(value, sort_keys=True)` -/
def dumps : JsonValue → List Char
  | .null => "null".toList
  | .bool value => if value then "true".toList else "false".toList
  | .int value => (toString value).toList
  | .float value => (printer.floatRepr value).toList
  | .str text => jsonLiteral text
  | .arr items => '[' :: (commaSeparated (dumpsItems items) ++ [']'])
  | .obj members =>
      '\x7b' :: (commaSeparated ((sortKeys (dumpsMembers members)).map Prod.snd) ++ ['\x7d'])

def dumpsItems : List JsonValue → List (List Char)
  | [] => []
  | item :: rest => dumps item :: dumpsItems rest

/-- Every member with its key. -/
def dumpsMembers : List (String × JsonValue) → List (String × List Char)
  | [] => []
  | (key, value) :: rest =>
      (key, jsonLiteral key ++ ':' :: ' ' :: dumps value) :: dumpsMembers rest

end

/-- `document LIKE '%REACTOR.DIAGNOSTICS.DEGRADED%'` -/
def mentionsDegraded (document : Members) : Bool :=
  like ('%' :: ("REACTOR.DIAGNOSTICS.DEGRADED".toList ++ ['%'])) (printer.dumps (.obj document))

/-- `deployment_diagnostics_degraded` -/
def deploymentDiagnosticsDegraded (database : Database) (id : Uuid) : Bool :=
  (rowsOf database id).any fun row => printer.mentionsDegraded row.document

/-- The answer of the store is the one the requests for a page are given. -/
theorem degraded_eq (database : Database) (id : Uuid) :
    printer.deploymentDiagnosticsDegraded database id =
      (documentsOf database id).any printer.mentionsDegraded := by
  simp [deploymentDiagnosticsDegraded, documentsOf, List.any_map, Function.comp_def]

end JsonPrinter

/-- The searched word after its first letter, without upper case. -/
def eactor : List Char := "eactor.diagnostics.degraded".toList

mutual

/-- Every key and every text in a value. -/
def texts : JsonValue → List String
  | .null | .bool _ | .int _ | .float _ => []
  | .str text => [text]
  | .arr items => textsOfItems items
  | .obj members => textsOfMembers members

def textsOfItems : List JsonValue → List String
  | [] => []
  | item :: rest => texts item ++ textsOfItems rest

def textsOfMembers : List (String × JsonValue) → List String
  | [] => []
  | (key, value) :: rest => key :: (texts value ++ textsOfMembers rest)

end

/-- A text that reads like the code, in any case; the escape of a carriage return can
stand for its first letter. -/
def quotesDegraded (text : String) : Bool :=
  ['r', '\r'].any fun first => decide (first :: eactor <:+: fold text.toList)

section Literals

def isPlain (char : Char) : Bool :=
  32 ≤ char.toNat && char.toNat < 127 && char != '"' && char != '\\'

theorem escapeAscii_plain {char : Char} (plain : isPlain char = true) :
    escapeAscii char = [char] := by
  have absent : escapes.find? (fun escaped => escaped.1 == char) = none := by
    have special : ∀ escaped ∈ escapes, isPlain escaped.1 = false := by decide
    refine List.find?_eq_none.mpr fun escaped member same => ?_
    rw [← beq_iff_eq.mp same, special escaped member] at plain
    cases plain
  simp only [isPlain, Bool.and_eq_true, decide_eq_true_eq] at plain
  simp [escapeAscii, absent, plain.1.1]

theorem toLower_of_special {char : Char} (special : isPlain char = false) :
    char.toLower = char := by
  unfold Char.toLower
  split
  · rename_i upper
    have low : 65 ≤ char.toNat := upper.1
    have high : char.toNat ≤ 90 := upper.2
    have quote : char ≠ '"' := by
      intro same
      subst same
      exact absurd low (by decide)
    have backslash : char ≠ '\\' := by
      intro same
      subst same
      exact absurd high (by decide)
    have plain : isPlain char = true := by
      simp only [isPlain, Bool.and_eq_true, decide_eq_true_eq, bne_iff_ne]
      exact ⟨⟨⟨by omega, by omega⟩, quote⟩, backslash⟩
    rw [plain] at special
    cases special
  · rfl

theorem digit_ne (value : Nat) : (Nat.digitChar (value % 16)).toLower ≠ 'r' := by
  have digits : ∀ digit < 16, (Nat.digitChar digit).toLower ≠ 'r' := by decide
  exact digits _ (Nat.mod_lt _ (by decide))

theorem unicode_clean (code : Nat) : 'r' ∉ fold (unicode code) := by
  simp [unicode, Ne.symm (digit_ne _)]

theorem toLower_of_plain {char : Char} (plain : isPlain char = true) : char.toLower ≠ '\r' := by
  have low : 32 ≤ char.toNat := by
    simp only [isPlain, Bool.and_eq_true, decide_eq_true_eq] at plain
    exact plain.1.1.1
  unfold Char.toLower
  split
  · rename_i upper
    have high : char.toNat ≤ 90 := upper.2
    intro same
    have sum : (char.val + ('a'.val - 'A'.val)).toNat = 13 := congrArg Char.toNat same
    rw [UInt32.toNat_add, show char.val.toNat = char.toNat from rfl,
      show ('a'.val - 'A'.val).toNat = 32 by decide] at sum
    omega
  · intro same
    subst same
    exact absurd low (by decide)

/-- What is escaped starts with a backslash, and shows an `r` only for a carriage return. -/
theorem escapeAscii_special {char : Char} (special : isPlain char = false) :
    (∃ rest, escapeAscii char = '\\' :: rest) ∧
      (char ≠ '\r' → 'r' ∉ fold (escapeAscii char)) := by
  unfold escapeAscii
  split
  · rename_i escaped found
    refine ⟨⟨_, rfl⟩, fun other => ?_⟩
    have marks : ∀ escaped ∈ escapes, escaped.1 ≠ '\r' → 'r' ∉ fold ['\\', escaped.2] := by decide
    have same : escaped.1 = char := by simpa using List.find?_some found
    exact marks escaped (List.mem_of_find?_eq_some found) (same ▸ other)
  · rename_i absent
    split
    · rename_i printable
      have bare : ∀ mark ∈ ['"', '\\'], char ≠ mark := by
        intro mark member same
        subst same
        have known : ∀ mark ∈ ['"', '\\'],
            (escapes.find? fun escaped => escaped.1 == mark) ≠ none :=
          List.all_iff_forall_prop.mp (by decide)
        exact known _ member absent
      simp [isPlain, printable, bare '"' (by simp), bare '\\' (by simp)] at special
    · split
      · exact ⟨⟨_, rfl⟩, fun _ => unicode_clean _⟩
      · refine ⟨⟨_, rfl⟩, fun _ => ?_⟩
        rw [fold_append, List.mem_append, not_or]
        exact ⟨unicode_clean _, unicode_clean _⟩

/-- A plain beginning is the same before and after the escapes. -/
theorem prefix_escaped {word : List Char} (plain : ∀ char ∈ word, isPlain char = true)
    (chars : List Char) : word <+: fold (chars.flatMap escapeAscii) ↔ word <+: fold chars := by
  induction word generalizing chars with
  | nil => simp
  | cons first rest ih =>
      cases chars with
      | nil => simp
      | cons char chars =>
          cases shown : isPlain char with
          | true =>
              have tail := ih (fun char member => plain char (List.mem_cons_of_mem _ member)) chars
              rw [List.flatMap_cons, escapeAscii_plain shown, List.singleton_append, fold_cons,
                fold_cons, List.cons_prefix_cons, List.cons_prefix_cons, tail]
          | false =>
              obtain ⟨⟨after, escaped⟩, _⟩ := escapeAscii_special shown
              have firstPlain := plain first List.mem_cons_self
              have notBackslash : first ≠ '\\' := by
                intro same
                subst same
                exact absurd firstPlain (by decide)
              have notSame : first ≠ char := by
                intro same
                subst same
                rw [firstPlain] at shown
                cases shown
              rw [List.flatMap_cons, escaped, List.cons_append, fold_cons, fold_cons,
                List.cons_prefix_cons, List.cons_prefix_cons, toLower_of_special shown]
              exact iff_of_false (fun both => notBackslash both.1) fun both => notSame both.1

theorem eactor_plain : ∀ char ∈ eactor, isPlain char = true := List.all_eq_true.mp (by decide)

/-- The word in a literal is the word in its text, or comes of a carriage return. -/
theorem infix_escaped (chars : List Char) :
    'r' :: eactor <:+: fold (chars.flatMap escapeAscii) ↔
      'r' :: eactor <:+: fold chars ∨ '\r' :: eactor <:+: fold chars := by
  induction chars with
  | nil => simp
  | cons char chars ih =>
      have tail := prefix_escaped eactor_plain chars
      rw [List.flatMap_cons, fold_append, fold_cons, List.infix_cons_iff, List.infix_cons_iff,
        List.cons_prefix_cons, List.cons_prefix_cons]
      cases shown : isPlain char with
      | true =>
          have other : '\r' ≠ char.toLower := (toLower_of_plain shown).symm
          rw [escapeAscii_plain shown, fold_cons, fold_nil, List.singleton_append,
            List.infix_cons_iff, List.cons_prefix_cons, tail, ih]
          simp only [other, false_and, false_or, or_assoc]
      | false =>
          have other : 'r' ≠ char := by
            intro same
            subst same
            cases shown
          rw [toLower_of_special shown]
          by_cases carriage : char = '\r'
          · subst carriage
            have escaped : fold (escapeAscii '\r') = ['\\', 'r'] := by decide
            rw [escaped, List.cons_append, List.singleton_append, List.infix_cons_iff,
              List.infix_cons_iff, List.cons_prefix_cons, List.cons_prefix_cons, tail, ih]
            simp only [true_and, show ¬ 'r' = '\\' by decide, show ¬ 'r' = '\r' by decide,
              false_and, false_or]
            exact or_left_comm
          · have clean := (escapeAscii_special shown).2 carriage
            rw [infix_append_of_head clean, ih]
            simp [other, Ne.symm carriage]

end Literals

section Documents

/-- Where the search finds its word. -/
def Found (text : List Char) : Prop := 'r' :: eactor <:+: fold text

variable {before after text : List Char}

/-- The punctuation of JSON separates. -/
theorem found_separated {separator : Char}
    (punctuation : separator ∈ ['"', ',', ' ', ':', '[', ']', '\x7b', '\x7d']) :
    Found (before ++ separator :: after) ↔ Found before ∨ Found after := by
  have same : separator.toLower = separator := by
    have lowered : ∀ mark ∈ ['"', ',', ' ', ':', '[', ']', '\x7b', '\x7d'],
        Char.toLower mark = mark := List.all_iff_forall_prop.mp (by decide)
    exact lowered separator punctuation
  have absent : separator ∉ 'r' :: eactor := by
    have apart : ∀ mark ∈ ['"', ',', ' ', ':', '[', ']', '\x7b', '\x7d'],
        mark ∉ 'r' :: eactor := List.all_iff_forall_prop.mp (by decide)
    exact apart separator punctuation
  rw [Found, fold_append, fold_cons, same, infix_separated (by simp) absent]
  rfl

theorem not_found_nil : ¬ Found [] := by simp [Found]

theorem found_cons {separator : Char}
    (punctuation : separator ∈ ['"', ',', ' ', ':', '[', ']', '\x7b', '\x7d']) :
    Found (separator :: after) ↔ Found after := by
  have whole : Found ([] ++ separator :: after) ↔ Found [] ∨ Found after :=
    found_separated punctuation
  simpa [not_found_nil] using whole

theorem found_bracketed {opening closing : Char}
    (opens : opening ∈ ['"', ',', ' ', ':', '[', ']', '\x7b', '\x7d'])
    (closes : closing ∈ ['"', ',', ' ', ':', '[', ']', '\x7b', '\x7d']) :
    Found (opening :: (text ++ [closing])) ↔ Found text := by
  rw [found_cons opens, found_separated closes]
  simp [not_found_nil]

theorem found_literal (text : String) :
    Found (jsonLiteral text) ↔ quotesDegraded text = true := by
  rw [jsonLiteral, found_bracketed (by decide) (by decide), Found, infix_escaped]
  simp [quotesDegraded]

theorem found_commaSeparated (pieces : List (List Char)) :
    Found (commaSeparated pieces) ↔ ∃ piece ∈ pieces, Found piece := by
  induction pieces with
  | nil => simp [commaSeparated, not_found_nil]
  | cons piece rest ih =>
      cases rest with
      | nil => simp [commaSeparated]
      | cons next rest =>
          rw [commaSeparated, found_separated (by decide), found_cons (by decide), ih,
            List.exists_mem_cons_iff]
          · simp only [List.exists_mem_cons_iff]
          · exact List.cons_ne_nil _ _

/-- Without a `c` there is no word. -/
theorem not_found_of_absent (absent : ∀ char ∈ text, char.toLower ≠ 'c') : ¬ Found text := by
  refine not_infix_of_absent (show 'c' ∈ 'r' :: eactor by decide) fun member => ?_
  obtain ⟨char, inside, lowered⟩ := List.mem_map.mp member
  exact absent char inside lowered

theorem toLower_of_digit {char : Char} (digit : char.isDigit = true) : char.toLower ≠ 'c' := by
  simp only [Char.isDigit, Bool.and_eq_true, decide_eq_true_eq] at digit
  unfold Char.toLower
  split
  · rename_i upper
    exact absurd (UInt32.le_trans upper.1 digit.2) (by decide)
  · intro same
    subst same
    exact absurd digit.2 (by decide)

theorem not_found_int (value : Int) : ¬ Found (toString value).toList := by
  have digits (value : Nat) : ∀ char ∈ Nat.toDigits 10 value, char.toLower ≠ 'c' :=
    fun char member => toLower_of_digit (Nat.isDigit_of_mem_toDigits (by decide) (by decide) member)
  apply not_found_of_absent
  rw [Int.toString_eq_repr]
  cases value with
  | ofNat value => simpa [Int.repr, Nat.repr] using digits value
  | negSucc value =>
      intro char member
      simp only [Int.repr, Nat.repr, String.toList_append, String.toList_ofList,
        List.mem_append] at member
      rcases member with minus | digit
      · rw [List.mem_singleton.mp minus]
        decide
      · exact digits _ char digit

variable (printer : JsonPrinter)

mutual

/-- The search finds its word in a value exactly when a text or key of it reads like it. -/
theorem found_dumps (value : JsonValue) :
    Found (printer.dumps value) ↔ ∃ text ∈ texts value, quotesDegraded text = true := by
  cases value with
  | null =>
      have absent : ¬ Found "null".toList :=
        not_found_of_absent (List.all_iff_forall_prop.mp (by decide))
      simpa [JsonPrinter.dumps, texts] using absent
  | bool value =>
      have absent : ¬ Found (if value then "true".toList else "false".toList) := by
        cases value <;> exact not_found_of_absent (List.all_iff_forall_prop.mp (by decide))
      simpa only [JsonPrinter.dumps, texts, List.not_mem_nil, false_and, exists_false,
        iff_false] using absent
  | int value => simpa [JsonPrinter.dumps, texts] using not_found_int value
  | float value =>
      have absent : ¬ Found (printer.floatRepr value).toList := by
        apply not_found_of_absent
        intro char member
        rcases printer.floatRepr_chars value char member with digit | mark
        · exact toLower_of_digit digit
        · have marks : ∀ mark ∈ ['.', '-', '+', 'e'], Char.toLower mark ≠ 'c' :=
            List.all_iff_forall_prop.mp (by decide)
          exact marks char mark
      simpa [JsonPrinter.dumps, texts] using absent
  | str text => simpa [JsonPrinter.dumps, texts] using found_literal text
  | arr items =>
      rw [JsonPrinter.dumps, found_bracketed (by decide) (by decide), found_commaSeparated, texts]
      exact found_items items
  | obj members =>
      rw [JsonPrinter.dumps, found_bracketed (by decide) (by decide), found_commaSeparated, texts,
        ← found_members members]
      simp only [sortKeys, List.mem_map, List.mem_mergeSort, exists_exists_and_eq_and]

theorem found_items (items : List JsonValue) :
    (∃ piece ∈ printer.dumpsItems items, Found piece) ↔
      ∃ text ∈ textsOfItems items, quotesDegraded text = true := by
  cases items with
  | nil => simp [JsonPrinter.dumpsItems, textsOfItems]
  | cons item rest =>
      simp only [JsonPrinter.dumpsItems, textsOfItems, List.exists_mem_cons_iff, List.mem_append,
        or_and_right, exists_or]
      rw [found_dumps item, found_items rest]

theorem found_members (members : List (String × JsonValue)) :
    (∃ piece ∈ printer.dumpsMembers members, Found piece.2) ↔
      ∃ text ∈ textsOfMembers members, quotesDegraded text = true := by
  cases members with
  | nil => simp [JsonPrinter.dumpsMembers, textsOfMembers]
  | cons member rest =>
      obtain ⟨key, value⟩ := member
      simp only [JsonPrinter.dumpsMembers, textsOfMembers, List.exists_mem_cons_iff,
        List.mem_append, or_and_right, exists_or]
      rw [found_separated (by decide), found_cons (by decide), found_literal, found_dumps value,
        found_members rest]
      simp only [or_assoc]

end

/-- The search finds a document exactly when one of its keys or texts reads like the code. -/
theorem mentionsDegraded_iff (document : Members) : printer.mentionsDegraded document = true ↔
    ∃ text ∈ textsOfMembers document, quotesDegraded text = true := by
  rw [JsonPrinter.mentionsDegraded, like_contains (by decide)]
  exact found_dumps printer (.obj document)

end Documents

end CyreneReactor.Diagnostics
