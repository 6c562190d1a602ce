import CyreneReactor.Runtime.PathUtils

namespace CyreneReactor.Runtime

open PyText

/-! Which file names become safe. -/

/-- What `replace` makes of pairs of dots. -/
def pairs (name : List Char) : List Char := replace ['.', '.'] ['_'] name

theorem pairs_nil : pairs [] = [] := by
  unfold pairs replace
  rfl

theorem pairs_dots (rest : List Char) : pairs ('.' :: '.' :: rest) = '_' :: pairs rest := by
  unfold pairs
  rw [replace]
  simp

theorem pairs_cons {char : Char} {rest : List Char}
    (single : ¬ (char = '.' ∧ rest.head? = some '.')) :
    pairs (char :: rest) = char :: pairs rest := by
  have other : ['.', '.'].isPrefixOf (char :: rest) = false := by
    cases rest with
    | nil => simp [List.isPrefixOf]
    | cons next rest =>
        simp only [List.isPrefixOf, List.head?_cons, Option.some.injEq, not_and] at single ⊢
        grind
  unfold pairs
  rw [replace]
  simp [other]

/-- A name is empty, or starts with a pair of dots, or with something else. -/
theorem pairs_cases {motive : List Char → Prop} (name : List Char) (nil : motive [])
    (dots : ∀ rest, motive rest → motive ('.' :: '.' :: rest))
    (cons : ∀ char rest, ¬ (char = '.' ∧ rest.head? = some '.') → motive rest →
      motive (char :: rest)) : motive name := by
  induction length : name.length using Nat.strongRecOn generalizing name with
  | ind size ih =>
      cases name with
      | nil => exact nil
      | cons char rest =>
          by_cases pair : char = '.' ∧ rest.head? = some '.'
          · obtain ⟨rfl, second⟩ := pair
            cases rest with
            | nil => cases second
            | cons next rest =>
                cases second
                subst length
                exact dots rest (ih rest.length (by simp only [List.length_cons]; omega) rest rfl)
          · subst length
            exact cons char rest pair (ih rest.length (by simp) rest rfl)

/-- Replacing other characters by other characters does not change which dots are paired. -/
theorem pairs_map {change : Char → Char} (name : List Char)
    (dot : ∀ char, change char = '.' ↔ char = '.') (mark : change '_' = '_') :
    pairs (name.map change) = (pairs name).map change := by
  have fixed := (dot '.').mpr rfl
  induction name using pairs_cases with
  | nil => simp [pairs_nil]
  | dots rest ih =>
      rw [List.map_cons, List.map_cons, fixed, pairs_dots, pairs_dots, ih, List.map_cons, mark]
  | cons char rest single ih =>
      have other : ¬ (change char = '.' ∧ (rest.map change).head? = some '.') := by
        rw [dot, List.head?_map, Option.map_eq_some_iff]
        intro both
        obtain ⟨first, next, second, isDot⟩ := both
        exact single ⟨first, (dot next).mp isDot ▸ second⟩
      rw [List.map_cons, pairs_cons other, pairs_cons single, ih, List.map_cons]

/-- How many dots the name ends with. -/
def trailing : List Char → Nat
  | [] => 0
  | char :: rest =>
      if char = '.' ∧ trailing rest = rest.length then rest.length + 1 else trailing rest

theorem trailing_le (name : List Char) : trailing name ≤ name.length := by
  induction name with
  | nil => exact Nat.le_refl _
  | cons char rest ih =>
      unfold trailing
      split
      · exact Nat.le_refl _
      · exact Nat.le_succ_of_le ih

/-- A name of dots alone starts with a dot, and so it does where another dot follows. -/
theorem head_of_trailing {name rest : List Char} (dots : trailing name = name.length) :
    (name ++ '.' :: rest).head? = some '.' := by
  cases name with
  | nil => rfl
  | cons char others =>
      unfold trailing at dots
      split at dots
      · rename_i both
        simp [both.1]
      · have short := trailing_le others
        simp only [List.length_cons] at dots
        omega

theorem trailing_dots (name : List Char) :
    trailing ('.' :: '.' :: name) % 2 = trailing name % 2 := by
  have short := trailing_le name
  by_cases dots : trailing name = name.length
  · simp only [trailing, dots, true_and, if_true, List.length_cons]
    omega
  · have fewer : trailing name ≠ name.length + 1 := by omega
    simp [trailing, dots, fewer]

theorem trailing_cons_even {char : Char} {name rest : List Char}
    (single : ¬ (char = '.' ∧ (name ++ '.' :: rest).head? = some '.')) :
    trailing (char :: name) = trailing name := by
  have other : ¬ (char = '.' ∧ trailing name = name.length) :=
    fun both => single ⟨both.1, head_of_trailing both.2⟩
  simp only [trailing, other, if_false]

theorem single_front {char : Char} {front back : List Char}
    (single : ¬ (char = '.' ∧ (front ++ '.' :: back).head? = some '.')) :
    ¬ (char = '.' ∧ front.head? = some '.') := by
  cases front with
  | nil => simp
  | cons first others => simpa using single

/-- A single dot of the replaced name is the last of an odd run of dots. -/
theorem single_of_pairs {name front back : List Char} (split : pairs name = front ++ '.' :: back) :
    ∃ before after, name = before ++ '.' :: after ∧ pairs before = front ∧ pairs after = back ∧
      trailing before % 2 = 0 ∧ after.head? ≠ some '.' := by
  induction name using pairs_cases generalizing front with
  | nil => simp [pairs_nil] at split
  | dots rest ih =>
      rw [pairs_dots] at split
      cases front with
      | nil => simp at split
      | cons first others =>
          simp only [List.cons_append, List.cons.injEq] at split
          obtain ⟨rfl, split⟩ := split
          obtain ⟨before, after, rfl, early, late, even, apart⟩ := ih split
          exact ⟨'.' :: '.' :: before, after, rfl, by rw [pairs_dots, early], late,
            by rw [trailing_dots, even], apart⟩
  | cons char rest single ih =>
      rw [pairs_cons single] at split
      cases front with
      | nil =>
          simp only [List.nil_append, List.cons.injEq] at split
          obtain ⟨rfl, rfl⟩ := split
          exact ⟨[], rest, rfl, pairs_nil, rfl, rfl, fun next => single ⟨rfl, next⟩⟩
      | cons first others =>
          simp only [List.cons_append, List.cons.injEq] at split
          obtain ⟨rfl, split⟩ := split
          obtain ⟨before, after, rfl, early, late, even, apart⟩ := ih split
          exact ⟨char :: before, after, rfl, by rw [pairs_cons (single_front single), early], late,
            by rwa [trailing_cons_even single], apart⟩

/-- The last dot of an odd run stays. -/
theorem pairs_single {front back : List Char} (even : trailing front % 2 = 0)
    (apart : back.head? ≠ some '.') :
    pairs (front ++ '.' :: back) = pairs front ++ '.' :: pairs back := by
  induction front using pairs_cases with
  | nil =>
      rw [pairs_nil, List.nil_append, pairs_cons (fun both => apart both.2)]
      rfl
  | dots rest ih =>
      rw [trailing_dots] at even
      rw [List.cons_append, List.cons_append, pairs_dots, pairs_dots, List.cons_append, ih even]
  | cons char rest single ih =>
      have next : ¬ (char = '.' ∧ (rest ++ '.' :: back).head? = some '.') := by
        cases rest with
        | nil =>
            intro both
            simp [trailing, both.1] at even
        | cons first others => simpa using single
      rw [trailing_cons_even next] at even
      rw [List.cons_append, pairs_cons next, pairs_cons single, List.cons_append, ih even]

/-- Something visible is left of the name where it has a visible character, or two dots. -/
theorem visible_pairs {name : List Char} :
    (∃ char ∈ pairs name, char ≠ '.' ∧ char ≠ nul) ↔
      (∃ char ∈ name, char ≠ '.' ∧ char ≠ nul) ∨ ['.', '.'] <:+: name := by
  induction name using pairs_cases with
  | nil => simp [pairs_nil]
  | dots rest ih =>
      rw [pairs_dots]
      have pair : ['.', '.'] <:+: '.' :: '.' :: rest := ⟨[], rest, rfl⟩
      have mark : '_' ≠ '.' ∧ '_' ≠ nul := by decide
      simp [pair, mark]
  | cons char rest single ih =>
      have apart : ¬ ['.', '.'] <+: char :: rest := by
        intro front
        obtain ⟨back, same⟩ := front
        simp only [List.cons_append, List.nil_append, List.cons.injEq] at same
        exact single ⟨same.1.symm, by rw [← same.2]; rfl⟩
      rw [pairs_cons single, List.infix_cons_iff]
      simp only [List.mem_cons, exists_eq_or_imp, ih, apart, false_or, or_assoc]

theorem pairs_nuls {zeros : List Char} (all : ∀ char ∈ pairs zeros, char = nul) :
    pairs zeros = zeros := by
  induction zeros using pairs_cases with
  | nil => exact pairs_nil
  | dots rest ih =>
      rw [pairs_dots] at all
      have mark : '_' ≠ nul := by decide
      exact absurd (all '_' List.mem_cons_self) mark
  | cons char rest single ih =>
      rw [pairs_cons single] at all ⊢
      rw [ih fun other member => all other (List.mem_cons_of_mem _ member)]

theorem pairs_of_nuls {zeros : List Char} (all : ∀ char ∈ zeros, char = nul) :
    pairs zeros = zeros ∧ trailing zeros = 0 := by
  induction zeros with
  | nil => exact ⟨pairs_nil, rfl⟩
  | cons char rest ih =>
      obtain ⟨same, none⟩ := ih fun other member => all other (List.mem_cons_of_mem _ member)
      have zero := all char List.mem_cons_self
      have noDot : char ≠ '.' := by
        rw [zero]
        decide
      rw [pairs_cons (fun both => noDot both.1), same]
      simp [trailing, noDot, none]

/-- An odd run of dots, some NULs and a single dot, and before them something that is left when
leading dots are stripped. -/
def Joins (name : List Char) : Prop :=
  ∃ front zeros back, name = front ++ '.' :: (zeros ++ '.' :: back) ∧
    trailing front % 2 = 0 ∧ zeros ≠ [] ∧ (∀ char ∈ zeros, char = nul) ∧
    back.head? ≠ some '.' ∧
    ((∃ char ∈ front, char ≠ '.' ∧ char ≠ nul) ∨ ['.', '.'] <:+: front)

theorem infix_dropWhile {name : List Char} :
    (['.', '.'] <:+: name.dropWhile fun char => char = '.') ↔
      ∃ front back, name = front ++ '.' :: '.' :: back ∧ ∃ char ∈ front, char ≠ '.' := by
  induction name with
  | nil => simp
  | cons char rest ih =>
      by_cases dot : char = '.'
      · rw [List.dropWhile_cons_of_pos (by simpa using dot), ih]
        constructor
        · intro given
          obtain ⟨front, back, same, other, member, visible⟩ := given
          exact ⟨char :: front, back, by rw [same]; rfl, other, List.mem_cons_of_mem _ member,
            visible⟩
        · intro given
          obtain ⟨front, back, same, other, member, visible⟩ := given
          cases front with
          | nil => cases member
          | cons first others =>
              simp only [List.cons_append, List.cons.injEq] at same
              rcases List.mem_cons.mp member with rfl | later
              · exact absurd (same.1 ▸ dot) visible
              · exact ⟨others, back, same.2, other, later, visible⟩
      · rw [List.dropWhile_cons_of_neg (by simpa using dot)]
        constructor
        · intro inside
          obtain ⟨front, back, same⟩ := inside
          refine ⟨front, back, by rw [← same]; simp, ?_⟩
          cases front with
          | nil =>
              simp only [List.nil_append, List.cons_append, List.cons.injEq] at same
              exact absurd same.1.symm dot
          | cons first others =>
              simp only [List.cons_append, List.cons.injEq] at same
              exact ⟨first, List.mem_cons_self, same.1 ▸ dot⟩
        · intro given
          obtain ⟨front, back, same, _⟩ := given
          exact ⟨front, back, by rw [same]; simp⟩

/-- Two dots meet where only NULs are between them. -/
theorem filter_split {name front back : List Char} :
    (name.filter fun char => char ≠ nul) = front ++ '.' :: '.' :: back ↔
      ∃ early zeros late, name = early ++ '.' :: (zeros ++ '.' :: late) ∧
        (early.filter fun char => char ≠ nul) = front ∧ (∀ char ∈ zeros, char = nul) ∧
        (late.filter fun char => char ≠ nul) = back := by
  have dot : '.' ≠ nul := by decide
  constructor
  · intro same
    obtain ⟨early, rest, rfl, first, same⟩ := List.filter_eq_append_iff.mp same
    obtain ⟨zeros, rest, rfl, none, _, same⟩ := List.filter_eq_cons_iff.mp same
    obtain ⟨between, late, rfl, none', _, same⟩ := List.filter_eq_cons_iff.mp same
    refine ⟨early ++ zeros, between, late, by simp, ?_, by simpa using none', same⟩
    rw [List.filter_append, first, List.filter_eq_nil_iff.mpr none, List.append_nil]
  · intro given
    obtain ⟨early, zeros, late, rfl, rfl, none, rfl⟩ := given
    have gone : (zeros.filter fun char => char ≠ nul) = [] := by
      rw [List.filter_eq_nil_iff]
      simpa using none
    rw [List.filter_append, List.filter_cons_of_pos (by simpa using dot), List.filter_append, gone,
      List.nil_append, List.filter_cons_of_pos (by simpa using dot)]

theorem joins_iff {name : List Char} :
    (['.', '.'] <:+: ((pairs name).filter fun char => char ≠ nul).dropWhile
      fun char => char = '.') ↔ Joins name := by
  rw [infix_dropWhile]
  constructor
  · intro given
    obtain ⟨front, back, same, char, member, visible⟩ := given
    obtain ⟨early, zeros, late, split, rfl, none, rfl⟩ := filter_split.mp same
    obtain ⟨before, after, rfl, rfl, rest, even, apart⟩ := single_of_pairs split
    obtain ⟨between, last, rfl, same', _, _, apart'⟩ := single_of_pairs rest
    have flat : between = zeros := by
      rw [← same'] at none ⊢
      exact (pairs_nuls none).symm
    subst flat
    obtain ⟨inside, zero⟩ := List.mem_filter.mp member
    refine ⟨before, between, last, rfl, even, ?_, none, apart',
      visible_pairs.mp ⟨char, inside, visible, by simpa using zero⟩⟩
    intro empty
    simp [empty] at apart
  · intro joins
    obtain ⟨front, zeros, back, rfl, even, some, none, apart, visible⟩ := joins
    obtain ⟨char, inside, noDot, zero⟩ := visible_pairs.mpr visible
    have next : (zeros ++ '.' :: back).head? ≠ .some '.' := by
      cases zeros with
      | nil => exact absurd rfl some
      | cons first others =>
          have noDot : nul ≠ '.' := by decide
          simpa [none first List.mem_cons_self] using noDot
    obtain ⟨same, flat⟩ := pairs_of_nuls none
    refine ⟨(pairs front).filter fun char => char ≠ nul, (pairs back).filter fun char => char ≠ nul,
      filter_split.mpr ⟨pairs front, zeros, pairs back, ?_, rfl, none, rfl⟩, char,
      List.mem_filter.mpr ⟨inside, by simpa using zero⟩, noDot⟩
    rw [pairs_single even next, pairs_single (by rw [flat]) apart, same]

/-- One of the replacements. -/
def underscored (char old : Char) : Char := if char = old then '_' else char

theorem underscored_dot {old : Char} (other : old ≠ '.') (char : Char) :
    underscored char old = '.' ↔ char = '.' := by
  unfold underscored
  split
  · rename_i same
    subst same
    simp [other]
  · rfl

def singles : List Char := ['/', '\\', '<', '>', ':', '"', '|', '?', '*']

/-- What becomes of a character that is neither a dot nor NUL. -/
def masked (char : Char) : Char := if char ∈ singles then '_' else char

theorem foldl_underscored {olds : List Char} (fresh : '_' ∉ olds) (char : Char) :
    olds.foldl underscored char = if char ∈ olds then '_' else char := by
  induction olds generalizing char with
  | nil => rfl
  | cons old rest ih =>
      simp only [List.mem_cons, not_or] at fresh
      rw [List.foldl_cons, ih fresh.2]
      unfold underscored
      by_cases same : char = old
      · simp [same, fresh.2]
      · simp [same]

theorem masked_dot (char : Char) : masked char = '.' ↔ char = '.' := by
  unfold masked
  split
  · rename_i member
    constructor
    · intro dot
      cases dot
    · intro dot
      subst dot
      revert member
      decide
  · rfl

/-- The replacements, one after the other. -/
theorem replaced_eq (name : List Char) :
    dangerous.foldl (fun result part => replace part (if part ≠ [nul] then ['_'] else []) result)
      name = ((pairs name).filter fun char => char ≠ nul).map masked := by
  have single : ∀ old, old ≠ nul → ∀ text,
      replace [old] (if [old] ≠ [nul] then ['_'] else []) text =
        text.map (underscored · old) := by
    intro old kept text
    rw [if_pos (by simpa using kept), replace_char]
    rfl
  have double : ∀ text, replace ['.', '.'] (if ['.', '.'] ≠ [nul] then ['_'] else []) text =
      pairs text := by
    intro text
    rw [if_pos (by decide)]
    rfl
  have zeros : ∀ text, replace [nul] (if [nul] ≠ [nul] then ['_'] else []) text =
      text.filter fun char => char ≠ nul := by
    intro text
    rw [if_neg (by simp), replace_none]
  have slashes : pairs ((name.map (underscored · '/')).map (underscored · '\\')) =
      ((pairs name).map (underscored · '/')).map (underscored · '\\') := by
    rw [pairs_map _ (underscored_dot (by decide)) (by decide),
      pairs_map _ (underscored_dot (by decide)) (by decide)]
  have kept : ∀ old, old ≠ nul → (fun char => decide (char ≠ nul)) ∘ (underscored · old) =
      fun char => decide (char ≠ nul) := by
    intro old other
    have mark : '_' ≠ nul := by decide
    funext char
    simp only [Function.comp_apply, underscored]
    split
    · rename_i same
      simp [same, other, mark]
    · rfl
  simp only [dangerous, List.foldl_cons, List.foldl_nil]
  rw [single '/' (by decide), single '\\' (by decide), double, zeros, single '<' (by decide),
    single '>' (by decide), single ':' (by decide), single '"' (by decide),
    single '|' (by decide), single '?' (by decide), single '*' (by decide), slashes,
    List.filter_map, kept _ (by decide), List.filter_map, kept _ (by decide)]
  simp only [List.map_map]
  apply List.map_congr_left
  intro char _
  have folded := foldl_underscored (show '_' ∉ singles by decide) char
  simp only [singles, List.foldl_cons, List.foldl_nil] at folded
  simp only [Function.comp_apply, masked, singles, folded]

theorem sanitizeFilename_eq (name : List Char) :
    sanitizeFilename name ['_'] =
      (let result := (((pairs name).filter fun char => char ≠ nul).dropWhile
        fun char => char = '.').map masked
      if result = [] ∨ strip result = [] then "unnamed".toList else result) := by
  unfold sanitizeFilename
  simp only
  rw [replaced_eq, List.dropWhile_map]
  have dots : ((fun char => decide (char = '.')) ∘ masked) = fun char => decide (char = '.') := by
    funext char
    simp [masked_dot]
  rw [dots]

theorem isSafeFilename_iff {filename : List Char} :
    isSafeFilename filename = true ↔
      (∀ char ∈ nul :: singles, char ∉ filename) ∧ ¬ ['.', '.'] <:+: filename ∧
        strip filename ≠ [] ∧ filename.head? ≠ some '.' := by
  have parts : dangerous.any (fun part => decide (part <:+: filename)) = true ↔
      ¬ ((∀ char ∈ nul :: singles, char ∉ filename) ∧ ¬ ['.', '.'] <:+: filename) := by
    simp only [dangerous, singles, List.any_cons, List.any_nil, Bool.or_false, Bool.or_eq_true,
      decide_eq_true_eq, List.singleton_infix_iff, List.forall_mem_cons, List.not_mem_nil,
      false_imp_iff, implies_true, and_true]
    tauto
  have blank : filename = [] ∨ strip filename = [] ↔ strip filename = [] := by
    constructor
    · intro either
      rcases either with rfl | blank
      · rfl
      · exact blank
    · exact .inr
  unfold isSafeFilename
  by_cases good : (∀ char ∈ nul :: singles, char ∉ filename) ∧ ¬ ['.', '.'] <:+: filename
  · have fine : ¬ dangerous.any (fun part => decide (part <:+: filename)) = true :=
      fun bad => parts.mp bad good
    rw [if_neg fine]
    simp only [blank]
    by_cases empty : strip filename = []
    · simp [empty]
    · by_cases hidden : filename.head? = some '.'
      · simp [hidden]
      · rw [if_neg empty, if_neg hidden]
        exact ⟨fun _ => ⟨good.1, good.2, empty, hidden⟩, fun _ => rfl⟩
  · rw [if_pos (parts.mpr good)]
    simp only [Bool.false_eq_true, false_iff]
    exact fun all => good ⟨all.1, all.2.1⟩

theorem infix_map_masked {name : List Char} :
    ['.', '.'] <:+: name.map masked ↔ ['.', '.'] <:+: name := by
  constructor
  · intro inside
    obtain ⟨front, back, same⟩ := inside
    rw [List.append_assoc, eq_comm, List.map_eq_append_iff] at same
    obtain ⟨early, late, rfl, _, same⟩ := same
    obtain ⟨first, rest, rfl, one, same⟩ := List.map_eq_cons_iff.mp same
    obtain ⟨second, last, rfl, two, _⟩ := List.map_eq_cons_iff.mp same
    rw [masked_dot] at one two
    subst one two
    exact ⟨early, last, by simp⟩
  · intro inside
    obtain ⟨front, back, rfl⟩ := inside
    exact ⟨front.map masked, back.map masked, by simp [(masked_dot '.').mpr rfl]⟩

theorem masked_safe {name : List Char} (noNul : nul ∉ name) :
    ∀ char ∈ nul :: singles, char ∉ name.map masked := by
  intro char bad member
  obtain ⟨old, inside, rfl⟩ := List.mem_map.mp member
  unfold masked at bad
  have mark : '_' ∉ nul :: singles := by decide
  split at bad
  · exact mark bad
  · rename_i plain
    rcases List.mem_cons.mp bad with rfl | listed
    · exact noNul inside
    · exact plain listed

theorem sanitized_iff (name : List Char) :
    isSafeFilename (sanitizeFilename name ['_']) = true ↔ ¬ Joins name := by
  rw [sanitizeFilename_eq, ← joins_iff]
  generalize kept : ((pairs name).filter fun char => char ≠ nul).dropWhile
    (fun char => char = '.') = rest
  have noNul : nul ∉ rest := by
    intro member
    rw [← kept] at member
    have inside := (List.dropWhile_suffix _).mem member
    simp at inside
  have front : (rest.map masked).head? ≠ some '.' := by
    rw [List.head?_map]
    intro head
    obtain ⟨first, isHead, dot⟩ := Option.map_eq_some_iff.mp head
    rw [masked_dot] at dot
    subst dot
    have visible := List.head?_dropWhile_not (fun char => decide (char = '.'))
      ((pairs name).filter fun char => char ≠ nul)
    rw [kept, isHead] at visible
    simp at visible
  by_cases blank : rest.map masked = [] ∨ strip (rest.map masked) = []
  · have spaces : strip (rest.map masked) = [] := by
      rcases blank with empty | spaces
      · rw [empty]
        rfl
      · exact spaces
    have apart : ¬ ['.', '.'] <:+: rest := by
      rw [← infix_map_masked]
      intro inside
      have space := strip_eq_nil.mp spaces '.' (inside.subset List.mem_cons_self)
      revert space
      decide
    simp only [blank, if_true, apart, not_false_eq_true, iff_true]
    decide
  · simp only [blank, if_false]
    rw [isSafeFilename_iff, infix_map_masked]
    constructor
    · exact fun safe => safe.2.1
    · exact fun apart => ⟨masked_safe noNul, apart, fun spaces => blank (.inr spaces), front⟩

theorem pairs_apart {name : List Char} (apart : ¬ ['.', '.'] <:+: name) : pairs name = name := by
  induction name using pairs_cases with
  | nil => exact pairs_nil
  | dots rest ih => exact absurd ⟨[], rest, rfl⟩ apart
  | cons char rest single ih =>
      rw [pairs_cons single, ih fun inside => apart (inside.trans (List.suffix_cons _ _).isInfix)]

theorem sanitized_of_safe {name : List Char} (safe : isSafeFilename name = true) :
    sanitizeFilename name ['_'] = name := by
  obtain ⟨clean, apart, visible, front⟩ := isSafeFilename_iff.mp safe
  have filtered : (name.filter fun char => char ≠ nul) = name := by
    rw [List.filter_eq_self]
    intro char member
    have other : char ≠ nul := fun zero => clean nul List.mem_cons_self (zero ▸ member)
    simpa using other
  have dropped : (name.dropWhile fun char => char = '.') = name := by
    cases name with
    | nil => rfl
    | cons char rest =>
        have other : char ≠ '.' := fun dot => front (by rw [dot]; rfl)
        exact List.dropWhile_cons_of_neg (by simpa using other)
  have mapped : name.map masked = name := by
    rw [← List.map_id name, List.map_map]
    apply List.map_congr_left
    intro char member
    have plain : char ∉ singles := fun listed => clean char (List.mem_cons_of_mem _ listed) member
    simp [masked, plain]
  have some : name ≠ [] := by
    intro empty
    rw [empty] at visible
    exact visible rfl
  rw [sanitizeFilename_eq, pairs_apart apart, filtered, dropped, mapped]
  simp [some, visible]

/-- A name becomes safe unless two of its dots meet, and a safe name stays as it is. -/
theorem sanitized_filename_is_safe_iff (name : List Char) :
    (isSafeFilename (sanitizeFilename name ['_']) = true ↔ ¬ Joins name) ∧
      (isSafeFilename name = true → sanitizeFilename name ['_'] = name) :=
  ⟨sanitized_iff name, sanitized_of_safe⟩

/-- `a.\0.b` becomes `a..b`. -/
theorem dots_meet_over_nul :
    sanitizeFilename ['a', '.', nul, '.', 'b'] ['_'] = "a..b".toList ∧
      isSafeFilename (sanitizeFilename ['a', '.', nul, '.', 'b'] ['_']) = false := by
  have same : sanitizeFilename ['a', '.', nul, '.', 'b'] ['_'] = "a..b".toList := by
    rw [sanitizeFilename_eq]
    have unpaired : pairs ['a', '.', nul, '.', 'b'] = ['a', '.', nul, '.', 'b'] :=
      pairs_apart (by decide)
    rw [unpaired]
    decide
  refine ⟨same, ?_⟩
  rw [same]
  decide

end CyreneReactor.Runtime
