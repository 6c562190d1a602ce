import CyreneReactor.Domain

namespace CyreneReactor.Diagnostics

/-! Python's `str`, `repr` and `bool` of a decoded JSON document. -/

abbrev Members := List (String × JsonValue)

/-- A text of ASCII characters. -/
def IsAscii (text : String) : Prop := (text.toList.all fun char => char.toNat < 128) = true

instance (text : String) : Decidable (IsAscii text) := instDecidableEqBool _ _

/-- What Python's own tables say: which characters `repr` shows as they are, which texts
can be encoded (those that stand for one without a lone surrogate, so all in ASCII), and
how a finite float is written, from its first digit or its sign on. -/
structure Printer where
  isprintable : Char → Bool
  encodes : String → Bool := fun _ => true
  encodes_ascii : ∀ text, IsAscii text → encodes text = true
  floatRepr : Rat → String
  floatRepr_head : ∀ value, ∃ head ∈ (floatRepr value).toList.head?, head.isDigit ∨ head = '-'

/-- `repr(0.0)` starts with its digit. -/
theorem zero_head (_ : Rat) : ∃ head ∈ "0.0".toList.head?, head.isDigit ∨ head = '-' :=
  ⟨'0', by simp, .inl rfl⟩

/-- `width` hexadecimal digits -/
def hex (width value : Nat) : List Char :=
  let digits := Nat.toDigits 16 value
  List.replicate (width - digits.length) '0' ++ digits

namespace Printer

variable (printer : Printer)

/-- One character of `repr` of a text between two `quote`s. -/
def reprChar (quote char : Char) : List Char :=
  if char = quote ∨ char = '\\' then ['\\', char]
  else if char = '\n' then ['\\', 'n']
  else if char = '\r' then ['\\', 'r']
  else if char = '\t' then ['\\', 't']
  else if 32 ≤ char.toNat ∧ char.toNat < 127 then [char]
  else if 128 ≤ char.toNat ∧ printer.isprintable char then [char]
  else if char.toNat < 0x100 then '\\' :: 'x' :: hex 2 char.toNat
  else if char.toNat < 0x10000 then '\\' :: 'u' :: hex 4 char.toNat
  else '\\' :: 'U' :: hex 8 char.toNat

/-- `repr` of a text: in single quotes, unless it holds one and no double quote. -/
def reprText (text : String) : String :=
  let chars := text.toList
  let quote := if '\'' ∈ chars ∧ '"' ∉ chars then '"' else '\''
  String.ofList (quote :: (chars.flatMap (printer.reprChar quote) ++ [quote]))

mutual

def repr : JsonValue → String
  | .null => "None"
  | .bool value => if value then "True" else "False"
  | .int value => toString value
  | .float value => printer.floatRepr value
  | .str text => printer.reprText text
  | .arr items => String.ofList ('[' :: (reprItems items ++ [']']))
  | .obj members => String.ofList ('\x7b' :: (reprMembers members ++ ['\x7d']))

def reprItems : List JsonValue → List Char
  | [] => []
  | item :: rest =>
      (repr item).toList ++ (if rest.isEmpty then [] else [',', ' ']) ++ reprItems rest

def reprMembers : Members → List Char
  | [] => []
  | (key, value) :: rest =>
      (printer.reprText key).toList ++ [':', ' '] ++ (repr value).toList ++
        (if rest.isEmpty then [] else [',', ' ']) ++ reprMembers rest

end

/-- `str` -/
def str : JsonValue → String
  | .str text => text
  | value => printer.repr value

end Printer

/-- `bool` -/
def truthy : JsonValue → Bool
  | .null => false
  | .bool value => value
  | .int value => value != 0
  | .float value => value != 0
  | .str text => text != ""
  | .arr items => !items.isEmpty
  | .obj members => !members.isEmpty

theorem toString_head (value : Int) :
    ∃ head ∈ (toString value).toList.head?, head.isDigit ∨ head = '-' := by
  rw [Int.toString_eq_repr]
  cases value with
  | ofNat value =>
      have some : (Nat.toDigits 10 value).head? ≠ none := by
        simp [Nat.toDigits_ne_nil]
      obtain ⟨head, first⟩ := Option.ne_none_iff_exists'.mp some
      refine ⟨head, ?_, .inl ?_⟩
      · simpa [Int.repr, Nat.repr] using first
      · exact Nat.isDigit_of_mem_toDigits (by decide) (by decide) (List.mem_of_head? first)
  | negSucc value =>
      refine ⟨'-', ?_, .inr rfl⟩
      simp [Int.repr, String.toList_append]

/-- The text of anything but a text does not start like a word in lower case. -/
theorem Printer.str_head (printer : Printer) {value : JsonValue}
    (other : ∀ text, value ≠ .str text) :
    ∃ head ∈ (printer.str value).toList.head?, head.isLower = false := by
  have plain : ∀ {text : String},
      (∃ head ∈ text.toList.head?, head.isDigit ∨ head = '-') →
      ∃ head ∈ text.toList.head?, head.isLower = false := by
    rintro text ⟨head, first, digit | rfl⟩
    · refine ⟨head, first, ?_⟩
      have above : ¬ 97 ≤ head.val := by
        simp only [Char.isDigit, Bool.and_eq_true, decide_eq_true_eq] at digit
        exact fun low => absurd (UInt32.le_trans low digit.2) (by decide)
      show (decide (97 ≤ head.val) && decide (head.val ≤ 122)) = false
      rw [decide_eq_false above, Bool.false_and]
    · exact ⟨'-', first, by decide⟩
  cases value with
  | null => exact ⟨'N', by simp [str, repr], by decide⟩
  | bool value => cases value <;> exact ⟨_, by simp [str, repr]; rfl, by decide⟩
  | int value => exact plain (toString_head value)
  | float value => exact plain (printer.floatRepr_head value)
  | str text => exact absurd rfl (other text)
  | arr items => exact ⟨'[', by simp [str, repr], by decide⟩
  | obj members => exact ⟨'\x7b', by simp [str, repr], by decide⟩

theorem isAscii_iff {text : String} :
    IsAscii text ↔ ∀ char ∈ text.toList, char.toNat < 128 := by
  simp only [IsAscii, List.all_eq_true, decide_eq_true_eq]

theorem IsAscii.append {left right : String} (first : IsAscii left) (second : IsAscii right) :
    IsAscii (left ++ right) := by
  unfold IsAscii at first second ⊢
  rw [String.toList_append, List.all_append, first, second]
  rfl

theorem isAscii_str (id : Uuid) : IsAscii id.str := by
  have digits : ∀ digit < 16, (Nat.digitChar digit).toNat < 128 := by decide
  refine isAscii_iff.mpr fun char member => ?_
  rcases Uuid.mem_str member with rfl | ⟨digit, below, rfl⟩
  · decide
  · exact digits digit below

theorem isAscii_padded (width value : Nat) : IsAscii (padded width value) := by
  refine IsAscii.append (isAscii_iff.mpr fun char member => ?_)
    (isAscii_iff.mpr fun char member => ?_)
  · rw [String.toList_ofList] at member
    rw [List.eq_of_mem_replicate member]
    decide
  · rw [Nat.toString_eq_repr, Nat.repr, String.toList_ofList] at member
    have digit : char.isDigit = true := Nat.isDigit_of_mem_toDigits (by decide) (by decide) member
    simp only [Char.isDigit, Bool.and_eq_true, decide_eq_true_eq] at digit
    exact Nat.lt_of_le_of_lt digit.2 (by decide)

theorem isAscii_isoformat (time : Datetime) : IsAscii time.isoformat := by
  have fraction : IsAscii (if time.microsecond = 0 then ""
      else "." ++ padded 6 time.microsecond) := by
    split
    · decide
    · exact .append (by decide) (isAscii_padded 6 _)
  have date : IsAscii (padded 4 time.year ++ "-" ++ padded 2 time.month ++ "-" ++
      padded 2 time.day ++ "T") :=
    ((((isAscii_padded 4 _).append (by decide)).append (isAscii_padded 2 _)).append
      (by decide)).append (isAscii_padded 2 _) |>.append (by decide)
  exact ((((((date.append (isAscii_padded 2 _)).append (by decide)).append
    (isAscii_padded 2 _)).append (by decide)).append (isAscii_padded 2 _)).append fraction).append
      (by decide)

end CyreneReactor.Diagnostics
