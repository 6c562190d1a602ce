import CyreneReactor.StructuredLogging.Redactor
import Mathlib.Data.List.Basic

namespace CyreneReactor.StructuredLogging

open Logging Substitution

/-! What the replacement of API keys and bearer tokens leaves of them in a text. -/

variable {value found rest before after tail : Text} {char first : Character}

/-- The length of the run of letters and digits at the start. -/
def runLength (value : Text) : Nat := (value.takeWhile isAlnum).length

/-- Behind spaces the text goes on with a character of a token. -/
def TokenAfter (value : Text) : Prop :=
  ∃ char ∈ (value.dropWhile isSpace).head?, isTokenChar char = true

theorem runLength_cons (alnum : isAlnum first = true) :
    runLength (first :: rest) = runLength rest + 1 := by
  rw [runLength, List.takeWhile_cons_of_pos alnum, List.length_cons, runLength]

theorem runLength_stop (other : isAlnum first = false) : runLength (first :: rest) = 0 := by
  rw [runLength, List.takeWhile_cons_of_neg (by simp [other])]
  rfl

theorem runLength_append (alnum : ∀ char ∈ value, isAlnum char = true) :
    runLength (value ++ rest) = value.length + runLength rest := by
  rw [runLength, List.takeWhile_append_of_pos alnum, List.length_append, runLength]

theorem apiKey_starts_iff :
    (apiKey.find value).isSome = true ↔
      ∃ rest, value = .scalar 's' :: .scalar 'k' :: .scalar '-' :: rest ∧ 32 ≤ runLength rest := by
  constructor
  · intro some
    obtain ⟨parts, finds⟩ := Option.isSome_iff_exists.mp some
    obtain ⟨run, same, _, long, alnum, _⟩ := findApiKey_eq_some finds
    refine ⟨run ++ parts.2, by rw [same, List.append_assoc]; rfl, ?_⟩
    rw [runLength_append alnum]
    omega
  · intro given
    obtain ⟨rest, rfl, long⟩ := given
    have starts : apiKeyMark.isPrefixOf (.scalar 's' :: .scalar 'k' :: .scalar '-' :: rest) =
        true := by
      rw [List.isPrefixOf_iff_prefix]
      exact ⟨rest, rfl⟩
    have enough : 32 ≤ (span isAlnum (List.drop 3
        (.scalar 's' :: .scalar 'k' :: .scalar '-' :: rest))).1.length := long
    simp only [apiKey, findApiKey, starts, if_true, enough, Option.isSome_some]

theorem alphanum_bounds {char : Char} (alphanum : char.isAlphanum = true) :
    48 ≤ char.toNat ∧ char.toNat ≤ 122 := by
  have ranges : (decide (65 ≤ char.val ∧ char.val ≤ 90) ||
      (decide (97 ≤ char.val) && decide (char.val ≤ 122)) ||
        (decide (48 ≤ char.val) && decide (char.val ≤ 57))) = true := alphanum
  simp only [Bool.or_eq_true, Bool.and_eq_true, decide_eq_true_eq, UInt32.le_iff_toNat_le]
    at ranges
  change ((65 ≤ char.toNat ∧ char.toNat ≤ 90) ∨ (97 ≤ char.toNat ∧ char.toNat ≤ 122)) ∨
    (48 ≤ char.toNat ∧ char.toNat ≤ 57) at ranges
  omega

theorem token_not_space (token : isTokenChar char = true) : isSpace char = false := by
  cases char with
  | surrogate unit => rfl
  | scalar char =>
      rw [isTokenChar, Bool.or_eq_true] at token
      rcases token with alnum | mark
      · have bounds := alphanum_bounds alnum
        by_contra blank
        rw [Bool.not_eq_false] at blank
        simp only [isSpace, PyText.isSpace, Bool.or_eq_true, Bool.and_eq_true, decide_eq_true_eq,
          List.contains_iff_mem, List.mem_cons, List.not_mem_nil, or_false] at blank
        omega
      · have all : ∀ char ∈ text "-._~+/", isSpace char = false := by decide
        exact all _ (by simpa using mark)

theorem tokenAfter_token (token : isTokenChar first = true) : TokenAfter (first :: rest) :=
  ⟨first, by rw [List.dropWhile_cons_of_neg (by simp [token_not_space token])]; rfl, token⟩

theorem tokenAfter_space (blank : isSpace first = true) :
    TokenAfter (first :: rest) ↔ TokenAfter rest := by
  unfold TokenAfter
  rw [List.dropWhile_cons_of_pos blank]

theorem bearer_starts_iff :
    (bearerToken.find value).isSome = true ↔
      ∃ space rest, value = bearerMark ++ space :: rest ∧ isSpace space = true ∧
        TokenAfter rest := by
  constructor
  · intro some
    obtain ⟨parts, finds⟩ := Option.isSome_iff_exists.mp some
    obtain ⟨spaces, token, equals, same, _, hasSpace, hasToken, blank, inToken, _⟩ :=
      findBearer_eq_some finds
    obtain ⟨space, more, rfl⟩ := List.exists_cons_of_ne_nil hasSpace
    obtain ⟨first, others, rfl⟩ := List.exists_cons_of_ne_nil hasToken
    refine ⟨space, more ++ (first :: others ++ equals ++ parts.2), by rw [same]; simp,
      blank space List.mem_cons_self, first, ?_, inToken first List.mem_cons_self⟩
    rw [List.dropWhile_append_of_pos fun char member => blank char (List.mem_cons_of_mem _ member),
      List.cons_append, List.cons_append, List.dropWhile_cons_of_neg
        (by simp [token_not_space (inToken first List.mem_cons_self)])]
    rfl
  · intro given
    obtain ⟨space, rest, rfl, blank, first, head, token⟩ := given
    have starts : bearerMark.isPrefixOf (bearerMark ++ space :: rest) = true := by
      rw [List.isPrefixOf_iff_prefix]
      exact List.prefix_append ..
    obtain ⟨more, drops⟩ := List.head?_eq_some_iff.mp (Option.mem_def.mp head)
    have spaces : span isSpace (space :: rest) =
        (space :: rest.takeWhile isSpace, first :: more) := by
      rw [span, List.takeWhile_cons_of_pos blank, List.dropWhile_cons_of_pos blank, drops]
    have tokens : (span isTokenChar (first :: more)).1 = first :: more.takeWhile isTokenChar := by
      rw [span, List.takeWhile_cons_of_pos token]
    have dropped : (bearerMark ++ space :: rest).drop 6 = space :: rest := by
      rw [show 6 = bearerMark.length by decide, List.drop_left]
    simp only [bearerToken, findBearer, starts, if_true, dropped, spaces, tokens, ne_eq,
      reduceCtorEq, not_false_eq_true, and_self, Option.isSome_some]

/-- The last four of a text of at least four. -/
theorem last_four (long : 4 ≤ value.length) :
    ∃ front a b c d, value = front ++ [a, b, c, d] ∧ front.length = value.length - 4 := by
  have four : (value.drop (value.length - 4)).length = 4 := by
    rw [List.length_drop]
    omega
  obtain ⟨a, b, c, d, last⟩ := List.length_eq_four.mp four
  refine ⟨value.take (value.length - 4), a, b, c, d, ?_, by rw [List.length_take]; omega⟩
  rw [← last, List.take_append_drop]

/-- An API key, with the four characters at its end and what replaces it. -/
structure KeyAt (value found rest : Text) (first : Character) (middle : Text)
    (a b c d : Character) : Prop where
  same : value =
    .scalar 's' :: .scalar 'k' :: .scalar '-' :: first :: (middle ++ a :: b :: c :: d :: rest)
  long : 27 ≤ middle.length
  alnum : ∀ char ∈ first :: (middle ++ [a, b, c, d]), isAlnum char = true
  stops : ∀ char ∈ rest.head?, isAlnum char = false
  mask : redactValue found = .scalar 's' :: .scalar 'k' :: .scalar '-' :: first ::
    .scalar '.' :: .scalar '.' :: .scalar '.' :: [a, b, c, d]

theorem keyAt_of_find (finds : apiKey.find value = some (found, rest)) :
    ∃ first middle a b c d, KeyAt value found rest first middle a b c d := by
  obtain ⟨run, same, isFound, long, alnum, stops⟩ := findApiKey_eq_some finds
  obtain ⟨front, a, b, c, d, rfl, frontLength⟩ :=
    last_four (show 4 ≤ run.length by omega)
  have frontLong : 28 ≤ front.length := by omega
  obtain ⟨first, middle, rfl⟩ := List.exists_cons_of_ne_nil
    (fun none : front = [] => by simp [none] at frontLong)
  simp only [List.length_cons] at frontLong
  refine ⟨first, middle, a, b, c, d, by rw [same]; simp [apiKeyMark, text], by omega, alnum, stops,
    ?_⟩
  have length : found.length = middle.length + 8 := by
    rw [isFound]
    simp [apiKeyMark, text]
  have tail : found.drop (found.length - 4) = [a, b, c, d] := by
    have whole : found = (apiKeyMark ++ first :: middle) ++ [a, b, c, d] := by
      rw [isFound]
      simp
    have cut : found.length - 4 = (apiKeyMark ++ first :: middle).length := by
      rw [length]
      simp [apiKeyMark, text]
    rw [cut, whole, List.drop_left]
  have front : found.take 4 = apiKeyMark ++ [first] := by
    rw [isFound]
    simp [apiKeyMark, text]
  have more : ¬ found.length ≤ 8 := by omega
  have muchMore : ¬ found.length ≤ 16 := by omega
  rw [redactValue, if_neg more, if_neg muchMore, tail, front]
  rfl

theorem apiKey_other (other : char ≠ .scalar 's') {whole found rest : Text}
    (finds : apiKey.find whole = some (found, rest)) :
    ∃ start more, redactValue found = start :: more ∧ start ≠ char := by
  obtain ⟨first, middle, a, b, c, d, key⟩ := keyAt_of_find finds
  exact ⟨_, _, key.mask, fun same => other same.symm⟩

/-- The runs of letters and digits stay as long as they are. -/
theorem runLength_sub (value : Text) :
    runLength (sub apiKey redactValue value) = runLength value := by
  have s : isAlnum (.scalar 's') = true := by decide
  have k : isAlnum (.scalar 'k') = true := by decide
  have dash : isAlnum (.scalar '-') = false := by decide
  induction value using sub_cases apiKey with
  | nil => rw [sub_nil]
  | found whole found rest finds ih =>
      obtain ⟨first, middle, a, b, c, d, key⟩ := keyAt_of_find finds
      rw [sub_found finds, key.mask, key.same]
      simp only [List.cons_append, runLength_cons s, runLength_cons k, runLength_stop dash]
  | skip first rest skips ih =>
      rw [sub_skip skips]
      cases alnum : isAlnum first with
      | true => rw [runLength_cons alnum, runLength_cons alnum, ih]
      | false => rw [runLength_stop alnum, runLength_stop alnum]

/-- A key whose last two characters are the first two of another. -/
def OverlapAt (value : Text) : Prop :=
  ∃ run rest, value = apiKeyMark ++ (run ++ (apiKeyMark ++ rest)) ∧ 30 ≤ run.length ∧
    (∀ char ∈ run, isAlnum char = true) ∧ 32 ≤ runLength rest

def Overlaps : Text → Prop := Somewhere OverlapAt

theorem key_of_overlapAt (overlap : OverlapAt value) : (apiKey.find value).isSome = true := by
  obtain ⟨run, rest, rfl, long, alnum, _⟩ := overlap
  rw [apiKey_starts_iff]
  refine ⟨run ++ (apiKeyMark ++ rest), rfl, ?_⟩
  have s : isAlnum (.scalar 's') = true := by decide
  have k : isAlnum (.scalar 'k') = true := by decide
  have mark : apiKeyMark ++ rest =
      .scalar 's' :: .scalar 'k' :: .scalar '-' :: rest := rfl
  rw [runLength_append alnum, mark, runLength_cons s, runLength_cons k]
  omega

theorem dash_not_alnum : isAlnum (.scalar '-') = false := by decide

/-- A match that starts in the replacement of a key starts with its last two characters. -/
theorem KeyAt.crossing {middle : Text} {a b c d : Character}
    (key : KeyAt value found rest first middle a b c d) (isTail : tail <:+ redactValue found)
    (some : tail ≠ []) (starts : (apiKey.find (tail ++ after)).isSome = true) :
    (c = .scalar 's' ∧ d = .scalar 'k' ∧ ∃ more, after = .scalar '-' :: more ∧
      32 ≤ runLength more) ∨
    d = .scalar 's' ∧ ∃ more, after = .scalar 'k' :: more := by
  obtain ⟨more, same, long⟩ := apiKey_starts_iff.mp starts
  have alnum : ∀ char ∈ [a, b, c, d], isAlnum char = true := fun char member =>
    key.alnum char (List.mem_cons_of_mem _ (List.mem_append_right _ member))
  have dash : ∀ char, isAlnum char = true → char ≠ .scalar '-' := by
    intro char isAlnum same
    rw [same, dash_not_alnum] at isAlnum
    cases isAlnum
  have noDash : c ≠ .scalar '-' ∧ d ≠ .scalar '-' :=
    ⟨dash c (alnum c (by simp)), dash d (alnum d (by simp))⟩
  rw [key.mask] at isTail
  simp only [List.suffix_cons_iff, List.suffix_nil] at isTail
  rcases isTail with rfl | rfl | rfl | rfl | rfl | rfl | rfl | rfl | rfl | rfl | rfl | rfl
  · simp only [List.cons_append, List.cons.injEq, true_and] at same
    rw [← same, runLength_cons (key.alnum first List.mem_cons_self),
      runLength_stop (by decide)] at long
    omega
  · simp at same
  · simp at same
  · simp at same
  · simp at same
  · simp at same
  · simp at same
  · simp [noDash.1] at same
  · simp [noDash.2] at same
  · simp only [List.cons_append, List.nil_append, List.cons.injEq] at same
    exact .inl ⟨same.1, same.2.1, more, same.2.2, long⟩
  · simp only [List.cons_append, List.nil_append, List.cons.injEq] at same
    exact .inr ⟨same.1, _, same.2⟩
  · exact absurd rfl some

/-- A run of letters and digits, and what follows it, are known from the text. -/
theorem run_unique {left right : Text} (same : left ++ before = right ++ after)
    (leftAlnum : ∀ char ∈ left, isAlnum char = true)
    (leftStops : ∀ char ∈ before.head?, isAlnum char = false)
    (rightAlnum : ∀ char ∈ right, isAlnum char = true)
    (rightStops : ∀ char ∈ after.head?, isAlnum char = false) : left = right ∧ before = after := by
  have none : ∀ {text : Text}, (∀ char ∈ text.head?, isAlnum char = false) →
      text.takeWhile isAlnum = [] := by
    intro text stops
    cases text with
    | nil => rfl
    | cons first rest => exact List.takeWhile_cons_of_neg (by simp [stops first rfl])
  have runs := congrArg (List.takeWhile isAlnum) same
  rw [List.takeWhile_append_of_pos leftAlnum, List.takeWhile_append_of_pos rightAlnum,
    none leftStops, none rightStops, List.append_nil, List.append_nil] at runs
  subst runs
  exact ⟨rfl, List.append_cancel_left same⟩

theorem overlap_run (rest : Text) {run : Text} (alnum : ∀ char ∈ run, isAlnum char = true) :
    runLength (run ++ (apiKeyMark ++ rest)) = run.length + 2 := by
  have s : isAlnum (.scalar 's') = true := by decide
  have k : isAlnum (.scalar 'k') = true := by decide
  have mark : apiKeyMark ++ rest = .scalar 's' :: .scalar 'k' :: .scalar '-' :: rest := rfl
  rw [runLength_append alnum, mark, runLength_cons s, runLength_cons k,
    runLength_stop dash_not_alnum]

/-- Overlapping keys in a text that starts with a key: the key itself is the first of them, or
they are behind it. -/
theorem KeyAt.overlaps {middle : Text} {a b c d : Character}
    (key : KeyAt value found rest first middle a b c d) (overlaps : Overlaps value) :
    Overlaps rest ∨ c = .scalar 's' ∧ d = .scalar 'k' ∧ ∃ more, rest = .scalar '-' :: more ∧
      32 ≤ runLength more := by
  have whole : value = (.scalar 's' :: .scalar 'k' :: .scalar '-' ::
      ((first :: (middle ++ [a, b])) ++ [c, d])) ++ rest := by
    rw [key.same]
    simp
  have alnum : ∀ char ∈ (first :: (middle ++ [a, b])) ++ [c, d], isAlnum char = true := by
    intro char member
    exact key.alnum char (by simpa using member)
  rw [whole] at overlaps
  rcases somewhere_append overlaps with later | ⟨tail, isTail, some, run, more, same, long, isRun,
    goesOn⟩
  · exact .inl later
  · refine .inr ?_
    rw [List.suffix_cons_iff, List.suffix_cons_iff, List.suffix_cons_iff] at isTail
    rcases isTail with rfl | rfl | rfl | inRun
    · have mark : apiKeyMark = [.scalar 's', .scalar 'k', .scalar '-'] := rfl
      simp only [mark, List.cons_append, List.nil_append, List.cons.injEq, true_and] at same
      have parts : ((first :: (middle ++ [a, b])) ++ [c, d]) ++ rest =
          (run ++ [.scalar 's', .scalar 'k']) ++ (.scalar '-' :: more) := by
        simpa using same
      obtain ⟨ends, follows⟩ := run_unique parts alnum key.stops
        (by
          intro char member
          rcases List.mem_append.mp member with early | last
          · exact isRun char early
          · have both : ∀ char ∈ [Character.scalar 's', .scalar 'k'], isAlnum char = true := by
              decide
            exact both char last)
        (by
          intro char head
          cases head
          exact dash_not_alnum)
      have lastTwo := (List.append_inj' ends rfl).2
      simp only [List.cons.injEq, and_true] at lastTwo
      exact ⟨lastTwo.1, lastTwo.2, more, follows, goesOn⟩
    · simp [apiKeyMark, text] at same
    · simp [apiKeyMark, text] at same
    · have mark : apiKeyMark = [.scalar 's', .scalar 'k', .scalar '-'] := rfl
      cases tail with
      | nil => exact absurd rfl some
      | cons x tail =>
          cases tail with
          | nil =>
              rw [mark] at same
              simp only [List.cons_append, List.nil_append, List.cons.injEq] at same
              have stops := key.stops (.scalar 'k') (by rw [same.2]; rfl)
              exact absurd stops (by decide)
          | cons y tail =>
              cases tail with
              | nil =>
                  obtain ⟨front, ends⟩ := inRun
                  have lastTwo := (List.append_inj' ends rfl).2
                  simp only [List.cons.injEq, and_true] at lastTwo
                  have follows : rest = .scalar '-' :: (run ++ (apiKeyMark ++ more)) := by
                    have behind := same
                    rw [mark] at behind
                    simp only [List.cons_append, List.nil_append, List.cons.injEq] at behind
                    rw [behind.2.2, mark]
                    rfl
                  rw [mark] at same
                  simp only [List.cons_append, List.nil_append, List.cons.injEq] at same
                  refine ⟨lastTwo.1 ▸ same.1, lastTwo.2 ▸ same.2.1, _, follows, ?_⟩
                  rw [overlap_run more isRun]
                  omega
              | cons z tail =>
                  rw [mark] at same
                  simp only [List.cons_append, List.nil_append, List.cons.injEq] at same
                  have isAlnum := alnum z (inRun.mem (by simp))
                  rw [same.2.2.1, dash_not_alnum] at isAlnum
                  cases isAlnum

theorem overlapAt_nil : ¬ OverlapAt [] := by
  intro overlap
  have some := key_of_overlapAt overlap
  rw [apiKey.find_nil] at some
  cases some

/-- Where the replacement puts a key together, two keys overlapped. -/
theorem KeyAt.joined {middle : Text} {a b c d : Character}
    (key : KeyAt value found rest first middle a b c d) (isS : c = .scalar 's')
    (isK : d = .scalar 'k') (follows : rest = .scalar '-' :: before)
    (long : 32 ≤ runLength before) : OverlapAt value := by
  refine ⟨first :: (middle ++ [a, b]), before, ?_, ?_, ?_, long⟩
  · rw [key.same, isS, isK, follows]
    simp [apiKeyMark, text]
  · have enough := key.long
    simp only [List.length_cons, List.length_append, List.length_nil]
    omega
  · intro char member
    apply key.alnum char
    simp only [List.mem_cons, List.mem_append] at member ⊢
    tauto

/-- What replaces the keys of a text leaves a key just where two overlapped. -/
theorem occurs_sub_iff (value : Text) :
    Occurs apiKey (sub apiKey redactValue value) ↔ Overlaps value := by
  have skipsDash : ∀ rest, apiKey.find (.scalar '-' :: rest) = none := by
    intro rest
    cases finds : apiKey.find (.scalar '-' :: rest) with
    | none => rfl
    | some parts =>
        obtain ⟨first, middle, a, b, c, d, key⟩ := keyAt_of_find finds
        have same := key.same
        simp at same
  induction value using sub_cases apiKey with
  | nil =>
      rw [sub_nil]
      exact iff_of_false occurs_nil (somewhere_nil overlapAt_nil)
  | skip first rest skips ih =>
      have noOverlap : ¬ OverlapAt (first :: rest) := by
        intro overlap
        have some := key_of_overlapAt overlap
        rw [skips] at some
        cases some
      have noKey : ¬ (apiKey.find (first :: sub apiKey redactValue rest)).isSome = true := by
        intro starts
        obtain ⟨more, same, long⟩ := apiKey_starts_iff.mp starts
        rw [List.cons.injEq] at same
        obtain ⟨early, rfl, late⟩ := sub_eq_cons (apiKey_other (by decide)) same.2
        obtain ⟨later, rfl, last⟩ := sub_eq_cons (apiKey_other (by decide)) late.symm
        rw [last, runLength_sub] at long
        rw [same.1] at skips
        have some := apiKey_starts_iff.mpr ⟨later, rfl, long⟩
        rw [skips] at some
        cases some
      rw [sub_skip skips, Occurs, somewhere_cons, Overlaps, somewhere_cons, or_iff_right noKey,
        or_iff_right noOverlap]
      exact ih
  | found whole found rest finds ih =>
      obtain ⟨first, middle, a, b, c, d, key⟩ := keyAt_of_find finds
      have parts := apiKey.splits finds
      rw [sub_found finds]
      constructor
      · intro occurs
        rcases somewhere_append occurs with later | ⟨tail, isTail, some, starts⟩
        · rw [← parts]
          exact somewhere_append_right (ih.mp later)
        · rcases key.crossing isTail some starts with
            ⟨isS, isK, more, follows, long⟩ | ⟨_, more, follows⟩
          · obtain ⟨before, rfl, last⟩ := sub_eq_cons (apiKey_other (by decide)) follows
            rw [last, runLength_sub] at long
            exact ⟨[], whole, rfl, key.joined isS isK rfl long⟩
          · obtain ⟨before, rfl, _⟩ := sub_eq_cons (apiKey_other (by decide)) follows
            have stops := key.stops (.scalar 'k') rfl
            exact absurd stops (by decide)
      · intro overlaps
        rcases key.overlaps overlaps with later | ⟨isS, isK, more, rfl, long⟩
        · exact somewhere_append_right (ih.mpr later)
        · have mask : redactValue found =
              [.scalar 's', .scalar 'k', .scalar '-', first, .scalar '.', .scalar '.', .scalar '.',
                a, b] ++ [.scalar 's', .scalar 'k'] := by
            rw [key.mask, isS, isK]
            rfl
          rw [mask, List.append_assoc]
          apply somewhere_append_right
          refine ⟨[], _, rfl, apiKey_starts_iff.mpr ⟨sub apiKey redactValue more, ?_, ?_⟩⟩
          · rw [sub_skip (skipsDash more)]
            rfl
          · rw [runLength_sub]
            exact long

/-- A bearer token, with the two parts of what replaces it. -/
structure TokenAt (value found rest head tail : Text) : Prop where
  starts : ∃ more, value = .scalar 'B' :: more
  six : 6 ≤ runLength value
  mask : redactValue found = head ++ tail
  isHead : head = text "***" ∨ head = text "Be..." ∨ head = text "Bear..."
  isTail : tail <:+ found
  short : tail.length ≤ 4
  closes : ∀ last ∈ found.getLast?, isTokenChar last = true →
    ∀ char ∈ rest.head?, isTokenChar char = false

theorem tokenAt_of_find (finds : bearerToken.find value = some (found, rest)) :
    ∃ head tail, TokenAt value found rest head tail := by
  obtain ⟨spaces, token, equals, same, isFound, _, _, _, _, isEqual, stops⟩ :=
    findBearer_eq_some finds
  have mark : found = bearerMark ++ (spaces ++ token ++ equals) := by
    rw [isFound]
    simp
  have starts : ∃ more, value = .scalar 'B' :: more := by
    rw [same]
    exact ⟨_, rfl⟩
  have six : 6 ≤ runLength value := by
    have letters : ∀ char ∈ bearerMark, isAlnum char = true := by decide
    have whole : value = bearerMark ++ (spaces ++ token ++ equals ++ rest) := by
      rw [same]
      simp
    rw [whole, runLength_append letters]
    exact Nat.le_add_right 6 _
  have closes : ∀ last ∈ found.getLast?, isTokenChar last = true →
      ∀ char ∈ rest.head?, isTokenChar char = false := by
    intro last isLast inToken
    apply stops
    by_contra some
    obtain ⟨front, final, rfl⟩ := (List.eq_nil_or_concat equals).resolve_left some
    have final : last = final := by
      rw [isFound, List.concat_eq_append, ← List.append_assoc, List.getLast?_concat] at isLast
      exact (Option.some.inj isLast).symm
    have isEquals := isEqual last (by simp [final])
    rw [StructuredLogging.isEquals, beq_iff_eq] at isEquals
    rw [isEquals] at inToken
    exact absurd inToken (by decide)
  have take : ∀ count ≤ 6, found.take count = bearerMark.take count := by
    intro count few
    rw [mark, List.take_append_of_le_length few]
  by_cases eight : found.length ≤ 8
  · exact ⟨text "***", [], starts, six, by rw [redactValue, if_pos eight, List.append_nil], .inl rfl,
      List.nil_suffix, by simp, closes⟩
  · by_cases sixteen : found.length ≤ 16
    · refine ⟨text "Be...", found.drop (found.length - 2), starts, six, ?_, .inr (.inl rfl),
        List.drop_suffix _ _, by rw [List.length_drop]; omega, closes⟩
      rw [redactValue, if_neg eight, if_pos sixteen, take 2 (by decide)]
      rfl
    · refine ⟨text "Bear...", found.drop (found.length - 4), starts, six, ?_, .inr (.inr rfl),
        List.drop_suffix _ _, by rw [List.length_drop]; omega, closes⟩
      rw [redactValue, if_neg eight, if_neg sixteen, take 4 (by decide)]
      rfl

theorem bearer_other (notB : char ≠ .scalar 'B') (notStar : char ≠ .scalar '*')
    {whole found rest : Text} (finds : bearerToken.find whole = some (found, rest)) :
    ∃ start more, redactValue found = start :: more ∧ start ≠ char := by
  obtain ⟨head, tail, token⟩ := tokenAt_of_find finds
  rw [token.mask]
  rcases token.isHead with rfl | rfl | rfl
  · exact ⟨.scalar '*', _, rfl, fun same => notStar same.symm⟩
  · exact ⟨.scalar 'B', _, rfl, fun same => notB same.symm⟩
  · exact ⟨.scalar 'B', _, rfl, fun same => notB same.symm⟩

/-- A character of a token at the start was there, or another was. -/
theorem head_of_sub (inToken : isTokenChar first = true)
    (same : sub bearerToken redactValue value = first :: rest) :
    ∃ char ∈ value.head?, isTokenChar char = true := by
  cases finds : bearerToken.find value with
  | some parts =>
      obtain ⟨head, tail, token⟩ := tokenAt_of_find finds
      obtain ⟨more, rfl⟩ := token.starts
      exact ⟨.scalar 'B', rfl, by decide⟩
  | none =>
      cases value with
      | nil =>
          rw [sub_nil] at same
          cases same
      | cons other more =>
          rw [sub_skip finds, List.cons.injEq] at same
          exact ⟨other, rfl, same.1 ▸ inToken⟩

/-- No match of at least five characters of tokens starts in the end of a replaced token. -/
theorem TokenAt.crossing {head tail : Text} (token : TokenAt value found rest head tail)
    {part match' : Text} (isPart : part <:+ tail) (some : part ≠ [])
    (inToken : ∀ char ∈ match', isTokenChar char = true) (long : 5 ≤ match'.length)
    (starts : match' <+: part ++ sub bearerToken redactValue rest) : False := by
  have short := Nat.le_trans isPart.length_le token.short
  obtain ⟨more, same⟩ := List.prefix_of_prefix_length_le (List.prefix_append part _) starts
    (by omega)
  subst same
  cases more with
  | nil =>
      rw [List.append_nil] at long
      omega
  | cons first more =>
      rw [List.prefix_append_right_inj] at starts
      obtain ⟨others, same⟩ := starts
      obtain ⟨char, head, isToken⟩ := head_of_sub (inToken first (by simp)) same.symm
      obtain ⟨front, last, rfl⟩ := (List.eq_nil_or_concat part).resolve_left some
      obtain ⟨before, whole⟩ := isPart.trans token.isTail
      have isLast : last ∈ found.getLast? := by
        rw [← whole, List.concat_eq_append, ← List.append_assoc, List.getLast?_concat]
        rfl
      rw [token.closes last isLast (inToken last (by simp)) char head] at isToken
      cases isToken

/-- A part of what replaces a token is of its end, or starts like no match. -/
theorem TokenAt.part_cases {head tail part : Text} (token : TokenAt value found rest head tail)
    (isPart : part <:+ redactValue found) (some : part ≠ []) :
    part <:+ tail ∨ ∀ after, ¬ apiKeyMark <+: part ++ after ∧ ¬ bearerMark <+: part ++ after := by
  by_cases inTail : part <:+ tail
  · exact .inl inTail
  · refine .inr fun after => ?_
    rw [token.mask] at isPart
    have key : apiKeyMark = [.scalar 's', .scalar 'k', .scalar '-'] := rfl
    have bearer : bearerMark = [.scalar 'B', .scalar 'e', .scalar 'a', .scalar 'r', .scalar 'e',
      .scalar 'r'] := rfl
    rw [key, bearer]
    rcases token.isHead with rfl | rfl | rfl
    · rw [show text "***" = [.scalar '*', .scalar '*', .scalar '*'] by rfl] at isPart
      simp only [List.cons_append, List.nil_append, List.suffix_cons_iff, inTail, or_false] at isPart
      rcases isPart with rfl | rfl | rfl <;> simp
    · rw [show text "Be..." = [.scalar 'B', .scalar 'e', .scalar '.', .scalar '.', .scalar '.'] by
        rfl] at isPart
      simp only [List.cons_append, List.nil_append, List.suffix_cons_iff, inTail, or_false] at isPart
      rcases isPart with rfl | rfl | rfl | rfl | rfl <;> simp
    · rw [show text "Bear..." = [.scalar 'B', .scalar 'e', .scalar 'a', .scalar 'r', .scalar '.',
        .scalar '.', .scalar '.'] by rfl] at isPart
      simp only [List.cons_append, List.nil_append, List.suffix_cons_iff, inTail, or_false] at isPart
      rcases isPart with rfl | rfl | rfl | rfl | rfl | rfl | rfl <;> simp

/-- No API key starts in what replaces a token. -/
theorem TokenAt.no_apiKey {head tail part : Text} (token : TokenAt value found rest head tail)
    (isPart : part <:+ redactValue found) (some : part ≠ []) :
    ¬ (apiKey.find (part ++ sub bearerToken redactValue rest)).isSome = true := by
  intro starts
  obtain ⟨more, same, long⟩ := apiKey_starts_iff.mp starts
  have isMatch : part ++ sub bearerToken redactValue rest =
      apiKeyMark ++ more.takeWhile isAlnum ++ more.dropWhile isAlnum := by
    rw [same, List.append_assoc, List.takeWhile_append_dropWhile]
    rfl
  rcases token.part_cases isPart some with inTail | never
  · have inToken : ∀ char ∈ apiKeyMark ++ more.takeWhile isAlnum, isTokenChar char = true := by
      intro char member
      rcases List.mem_append.mp member with mark | run
      · have all : ∀ char ∈ apiKeyMark, isTokenChar char = true := by decide
        exact all char mark
      · rw [isTokenChar, List.mem_takeWhile_imp run, Bool.true_or]
    have enough : 5 ≤ (apiKeyMark ++ more.takeWhile isAlnum).length := by
      rw [List.length_append]
      unfold runLength at long
      omega
    exact token.crossing inTail some inToken enough ⟨_, isMatch.symm⟩
  · exact (never _).1 ⟨_, by rw [isMatch, List.append_assoc]⟩

/-- No bearer token starts in what replaces one. -/
theorem TokenAt.no_bearer {head tail part : Text} (token : TokenAt value found rest head tail)
    (isPart : part <:+ redactValue found) (some : part ≠ []) :
    ¬ (bearerToken.find (part ++ sub bearerToken redactValue rest)).isSome = true := by
  intro starts
  obtain ⟨space, more, same, _, _⟩ := bearer_starts_iff.mp starts
  rcases token.part_cases isPart some with inTail | never
  · exact token.crossing inTail some (show ∀ char ∈ bearerMark, _ by decide) (by decide)
      ⟨_, same.symm⟩
  · exact (never _).2 ⟨_, same.symm⟩

/-- No run of letters and digits becomes longer. -/
theorem runLength_sub_bearer (value : Text) :
    runLength (sub bearerToken redactValue value) ≤ runLength value := by
  induction value using sub_cases bearerToken with
  | nil => rw [sub_nil]
  | found whole found rest finds ih =>
      obtain ⟨head, tail, token⟩ := tokenAt_of_find finds
      have four : runLength (head ++ (tail ++ sub bearerToken redactValue rest)) ≤ 4 := by
        rcases token.isHead with rfl | rfl | rfl
        · exact Nat.zero_le 4
        · have mark : text "Be..." = .scalar 'B' :: .scalar 'e' :: .scalar '.' :: text ".." := rfl
          simp only [mark, List.cons_append]
          rw [runLength_cons (by decide), runLength_cons (by decide), runLength_stop (by decide)]
          decide
        · have mark : text "Bear..." = .scalar 'B' :: .scalar 'e' :: .scalar 'a' :: .scalar 'r' ::
              .scalar '.' :: text ".." := rfl
          simp only [mark, List.cons_append]
          rw [runLength_cons (by decide), runLength_cons (by decide), runLength_cons (by decide),
            runLength_cons (by decide), runLength_stop (by decide)]
      rw [sub_found finds, token.mask, List.append_assoc]
      exact Nat.le_trans four (Nat.le_trans (by decide) token.six)
  | skip first rest skips ih =>
      rw [sub_skip skips]
      cases alnum : isAlnum first with
      | true =>
          rw [runLength_cons alnum, runLength_cons alnum]
          exact Nat.succ_le_succ ih
      | false => rw [runLength_stop alnum, runLength_stop alnum]

/-- The replacement of tokens makes no API key. -/
theorem apiKey_free_sub {value : Text} (free : ¬ Occurs apiKey value) :
    ¬ Occurs apiKey (sub bearerToken redactValue value) := by
  induction value using sub_cases bearerToken with
  | nil =>
      rw [sub_nil]
      exact occurs_nil
  | found whole found rest finds ih =>
      obtain ⟨head, tail, token⟩ := tokenAt_of_find finds
      rw [sub_found finds]
      intro occurs
      rcases somewhere_append occurs with later | ⟨part, isPart, some, starts⟩
      · refine ih (fun inRest => free ?_) later
        rw [← bearerToken.splits finds]
        exact somewhere_append_right inRest
      · exact token.no_apiKey isPart some starts
  | skip first rest skips ih =>
      rw [Occurs, somewhere_cons, not_or] at free
      rw [sub_skip skips, Occurs, somewhere_cons, not_or]
      refine ⟨fun starts => free.1 ?_, ih free.2⟩
      obtain ⟨more, same, long⟩ := apiKey_starts_iff.mp starts
      rw [List.cons.injEq] at same
      obtain ⟨early, rfl, late⟩ := sub_eq_cons (bearer_other (by decide) (by decide)) same.2
      obtain ⟨later, rfl, last⟩ := sub_eq_cons (bearer_other (by decide) (by decide)) late.symm
      rw [last] at long
      rw [same.1]
      exact apiKey_starts_iff.mpr ⟨later, rfl, Nat.le_trans long (runLength_sub_bearer later)⟩

/-- Where a token follows in what is left, one followed before. -/
theorem tokenAfter_of_sub {value : Text}
    (token : TokenAfter (sub bearerToken redactValue value)) : TokenAfter value := by
  induction value using sub_cases bearerToken with
  | nil =>
      rw [sub_nil] at token
      exact token
  | found whole found rest finds ih =>
      obtain ⟨head, tail, replaced⟩ := tokenAt_of_find finds
      obtain ⟨more, rfl⟩ := replaced.starts
      exact tokenAfter_token (by decide)
  | skip first rest skips ih =>
      rw [sub_skip skips] at token
      cases blank : isSpace first with
      | true =>
          rw [tokenAfter_space blank] at token ⊢
          exact ih token
      | false =>
          obtain ⟨char, head, inToken⟩ := token
          rw [List.dropWhile_cons_of_neg (by simp [blank])] at head
          cases head
          exact tokenAfter_token inToken

/-- The replacement of tokens leaves none. -/
theorem bearer_free_sub (value : Text) :
    ¬ Occurs bearerToken (sub bearerToken redactValue value) := by
  induction value using sub_cases bearerToken with
  | nil =>
      rw [sub_nil]
      exact occurs_nil
  | found whole found rest finds ih =>
      obtain ⟨head, tail, token⟩ := tokenAt_of_find finds
      rw [sub_found finds]
      intro occurs
      rcases somewhere_append occurs with later | ⟨part, isPart, some, starts⟩
      · exact ih later
      · exact token.no_bearer isPart some starts
  | skip first rest skips ih =>
      rw [sub_skip skips, Occurs, somewhere_cons, not_or]
      refine ⟨fun starts => ?_, ih⟩
      obtain ⟨space, more, same, blank, follows⟩ := bearer_starts_iff.mp starts
      have mark : bearerMark = .scalar 'B' :: text "earer" := rfl
      rw [mark, List.cons_append, List.cons.injEq] at same
      have letters : ∀ char ∈ text "earer", char ≠ .scalar 'B' ∧ char ≠ .scalar '*' := by decide
      obtain ⟨before, rfl, behind⟩ := sub_eq_append
        (fun char member => bearer_other (letters char member).1 (letters char member).2) same.2
      have other : space ≠ .scalar 'B' ∧ space ≠ .scalar '*' := by
        constructor
        · intro equal
          rw [equal] at blank
          exact absurd blank (by decide)
        · intro equal
          rw [equal] at blank
          exact absurd blank (by decide)
      obtain ⟨later, rfl, last⟩ := sub_eq_cons (bearer_other other.1 other.2) behind.symm
      have some : (bearerToken.find (first :: (text "earer" ++ space :: later))).isSome = true :=
        bearer_starts_iff.mpr ⟨space, later, by rw [same.1, mark]; rfl, blank,
          tokenAfter_of_sub (last ▸ follows)⟩
      rw [skips] at some
      cases some

/-- The word of a bearer token is left by the replacement of keys only where it was. -/
theorem word_of_sub {value : Text}
    (word : Somewhere (bearerMark <+: ·) (sub apiKey redactValue value)) :
    Somewhere (bearerMark <+: ·) value := by
  have letters : ∀ char ∈ text "earer", char ≠ .scalar 's' := by decide
  have mark : bearerMark = .scalar 'B' :: text "earer" := rfl
  induction value using sub_cases apiKey with
  | nil =>
      rw [sub_nil] at word
      exact word
  | skip first rest skips ih =>
      rw [sub_skip skips, somewhere_cons] at word
      rw [somewhere_cons]
      rcases word with starts | later
      · refine .inl ?_
        obtain ⟨more, same⟩ := starts
        rw [mark, List.cons_append, List.cons.injEq] at same
        obtain ⟨before, rfl, _⟩ :=
          sub_eq_append (fun char member => apiKey_other (letters char member)) same.2.symm
        exact ⟨before, by rw [mark, same.1]; rfl⟩
      · exact .inr (ih later)
  | found whole found rest finds ih =>
      obtain ⟨first, middle, a, b, c, d, key⟩ := keyAt_of_find finds
      rw [sub_found finds] at word
      rcases somewhere_append word with later | ⟨part, isPart, some, more, same⟩
      · rw [← apiKey.splits finds]
        exact somewhere_append_right (ih later)
      · have ends : ∀ char more, char ≠ .scalar 's' → isAlnum char = true →
            sub apiKey redactValue rest ≠ char :: more := by
          intro char more other alnum goesOn
          obtain ⟨before, rfl, _⟩ := sub_eq_cons (apiKey_other other) goesOn
          rw [key.stops char rfl] at alnum
          cases alnum
        have spelled : bearerMark = [.scalar 'B', .scalar 'e', .scalar 'a', .scalar 'r',
          .scalar 'e', .scalar 'r'] := rfl
        rw [spelled] at same
        rw [key.mask] at isPart
        simp only [List.suffix_cons_iff, List.suffix_nil] at isPart
        rcases isPart with rfl | rfl | rfl | rfl | rfl | rfl | rfl | rfl | rfl | rfl | rfl | rfl
        · simp at same
        · simp at same
        · simp at same
        · simp at same
        · simp at same
        · simp at same
        · simp at same
        · simp only [List.cons_append, List.nil_append, List.cons.injEq] at same
          exact absurd same.2.2.2.2.symm (ends _ _ (by decide) (by decide))
        · simp only [List.cons_append, List.nil_append, List.cons.injEq] at same
          exact absurd same.2.2.2.symm (ends _ _ (by decide) (by decide))
        · simp only [List.cons_append, List.nil_append, List.cons.injEq] at same
          exact absurd same.2.2.symm (ends _ _ (by decide) (by decide))
        · simp only [List.cons_append, List.nil_append, List.cons.injEq] at same
          exact absurd same.2.symm (ends _ _ (by decide) (by decide))
        · exact absurd rfl some

/-- A text with neither of the patterns. -/
def PatternFree (value : Text) : Prop := ¬ Occurs apiKey value ∧ ¬ Occurs bearerToken value

theorem patternFree_of_apart (apart : ¬ Overlaps value) : PatternFree (redactApiKeys value) :=
  ⟨apiKey_free_sub fun occurs => apart ((occurs_sub_iff value).mp occurs), bearer_free_sub _⟩

/-- A text without the word of a token is clean only where no keys overlap. -/
theorem apart_of_patternFree (free : PatternFree (redactApiKeys value)) :
    ¬ Overlaps value ∨ bearerMark <:+: value := by
  by_cases word : Somewhere (bearerMark <+: ·) value
  · obtain ⟨front, back, rfl, more, rfl⟩ := word
    exact .inr ⟨front, more, by rw [List.append_assoc]⟩
  · refine .inl fun overlaps => free.1 ?_
    have noToken : ¬ Occurs bearerToken (sub apiKey redactValue value) := by
      intro occurs
      obtain ⟨front, back, same, starts⟩ := occurs
      obtain ⟨space, rest, rfl, _⟩ := bearer_starts_iff.mp starts
      exact word (word_of_sub ⟨front, _, same, List.prefix_append ..⟩)
    rw [redactApiKeys, sub_eq_self noToken]
    exact (occurs_sub_iff value).mpr overlaps

/-- What replaces a secret is shorter than a match of a token, or has a dot in its middle. -/
theorem redactValue_shape (value : Text) :
    (redactValue value).length ≤ 7 ∨
      (redactValue value).length = 11 ∧ (redactValue value)[4]? = some (.scalar '.') := by
  have dots : (text "...").length = 3 := rfl
  unfold redactValue
  split
  · exact .inl (by decide)
  · split
    · refine .inl ?_
      simp only [List.length_append, List.length_take, List.length_drop, dots]
      omega
    · refine .inr ⟨?_, ?_⟩
      · simp only [List.length_append, List.length_take, List.length_drop, dots]
        omega
      · have four : (value.take 4).length = 4 := by
          rw [List.length_take]
          omega
        rw [List.append_assoc, List.getElem?_append_right (by omega), four]
        rfl

/-- What replaces a secret has neither of the patterns. -/
theorem redactValue_free (value : Text) : PatternFree (redactValue value) := by
  constructor
  · intro occurs
    obtain ⟨front, back, same, starts⟩ := occurs
    obtain ⟨more, rfl, long⟩ := apiKey_starts_iff.mp starts
    have within : runLength more ≤ more.length := (List.takeWhile_prefix _).length_le
    have length := congrArg List.length same
    simp only [List.length_append, List.length_cons] at length
    rcases redactValue_shape value with short | ⟨eleven, _⟩
    · omega
    · omega
  · intro occurs
    obtain ⟨front, back, same, starts⟩ := occurs
    obtain ⟨space, rest, rfl, _, char, head, _⟩ := bearer_starts_iff.mp starts
    have some : rest ≠ [] := by
      intro none
      rw [none] at head
      cases head
    have positive := List.length_pos_iff.mpr some
    have length := congrArg List.length same
    simp only [List.length_append, List.length_cons, show bearerMark.length = 6 by rfl] at length
    rcases redactValue_shape value with short | ⟨eleven, dot⟩
    · omega
    · have near : front.length ≤ 3 := by omega
      rw [same, List.getElem?_append_right (by omega),
        List.getElem?_append_left (by rw [show bearerMark.length = 6 by rfl]; omega)] at dot
      have letters : ∀ index ≤ 4, bearerMark[index]? ≠ .some (.scalar '.') := by decide
      exact letters _ (by omega) dot

def MatchesApiKey (value : Text) : Prop :=
  ∃ run, value = apiKeyMark ++ run ∧ 32 ≤ run.length ∧ ∀ char ∈ run, isAlnum char = true

def MatchesBearer (value : Text) : Prop :=
  ∃ spaces token equals, value = bearerMark ++ spaces ++ token ++ equals ∧ spaces ≠ [] ∧
    token ≠ [] ∧ (∀ char ∈ spaces, isSpace char = true) ∧
    (∀ char ∈ token, isTokenChar char = true) ∧ ∀ char ∈ equals, isEquals char = true

/-- No substring matches one of the patterns. -/
def Clean (value : Text) : Prop :=
  ∀ part, part <:+: value → ¬ MatchesApiKey part ∧ ¬ MatchesBearer part

theorem clean_iff : Clean value ↔ PatternFree value := by
  constructor
  · intro clean
    constructor
    · intro occurs
      obtain ⟨front, back, rfl, starts⟩ := occurs
      obtain ⟨parts, finds⟩ := Option.isSome_iff_exists.mp starts
      obtain ⟨run, _, isFound, long, alnum, _⟩ := findApiKey_eq_some finds
      refine (clean parts.1 ⟨front, parts.2, ?_⟩).1 ⟨run, isFound, long, alnum⟩
      rw [← apiKey.splits finds, List.append_assoc]
    · intro occurs
      obtain ⟨front, back, rfl, starts⟩ := occurs
      obtain ⟨parts, finds⟩ := Option.isSome_iff_exists.mp starts
      obtain ⟨spaces, token, equals, _, isFound, some, others, isBlank, inToken, isEqual, _⟩ :=
        findBearer_eq_some finds
      refine (clean parts.1 ⟨front, parts.2, ?_⟩).2
        ⟨spaces, token, equals, isFound, some, others, isBlank, inToken, isEqual⟩
      rw [← bearerToken.splits finds, List.append_assoc]
  · intro free part inside
    obtain ⟨front, back, rfl⟩ := inside
    constructor
    · intro isMatch
      obtain ⟨run, rfl, long, alnum⟩ := isMatch
      refine free.1 ⟨front, apiKeyMark ++ (run ++ back), by simp, apiKey_starts_iff.mpr
        ⟨run ++ back, rfl, ?_⟩⟩
      rw [runLength_append alnum]
      omega
    · intro isMatch
      obtain ⟨spaces, token, equals, rfl, some, others, isBlank, inToken, _⟩ := isMatch
      obtain ⟨space, more, rfl⟩ := List.exists_cons_of_ne_nil some
      obtain ⟨char, token, rfl⟩ := List.exists_cons_of_ne_nil others
      refine free.2 ⟨front, bearerMark ++ space :: (more ++ char :: (token ++ equals ++ back)),
        by simp, bearer_starts_iff.mpr ⟨space, _, rfl, isBlank space List.mem_cons_self, char, ?_,
          inToken char List.mem_cons_self⟩⟩
      rw [List.dropWhile_append_of_pos fun other member =>
          isBlank other (List.mem_cons_of_mem _ member),
        List.dropWhile_cons_of_neg (by simp [token_not_space (inToken char List.mem_cons_self)])]
      rfl

end CyreneReactor.StructuredLogging
