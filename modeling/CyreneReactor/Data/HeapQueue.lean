import Mathlib.Data.List.Basic
import Mathlib.Data.List.Induction

namespace HeapQueue

/-! `heapq` of Python's standard library: a list in which no item comes before the one at
the place of its parent.

The order is whatever `<` is on the items.  Items of which neither comes before the other
are not told apart, and leave the heap in an order of its own.
-/

variable {α β : Type}

def parent (pos : Nat) : Nat := (pos - 1) / 2

section Algorithm

variable (before : α → α → Bool)

/-- `_siftdown(heap, 0, pos)`: larger parents move down until `item` fits. -/
def siftdown (heap : List α) (pos : Nat) (item : α) : List α :=
  if pos = 0 then heap.set 0 item
  else
    match heap[parent pos]? with
    | none => heap.set pos item
    | some above =>
        if before item above then siftdown (heap.set pos above) (parent pos) item
        else heap.set pos item
termination_by pos
decreasing_by
  unfold parent
  omega

/-- The smaller child of a place; of two that are equal, the right one. -/
def smallerChild (heap : List α) (pos : Nat) : Option (Nat × α) :=
  match heap[2 * pos + 1]?, heap[2 * pos + 2]? with
  | none, _ => none
  | some left, none => some (2 * pos + 1, left)
  | some left, some right =>
      if before left right then some (2 * pos + 1, left) else some (2 * pos + 2, right)

variable {before}

theorem smallerChild_eq_some {heap : List α} {pos child : Nat} {item : α}
    (smaller : smallerChild before heap pos = some (child, item)) :
    heap[child]? = some item ∧ (child = 2 * pos + 1 ∨ child = 2 * pos + 2) := by
  unfold smallerChild at smaller
  split at smaller
  · cases smaller
  · cases smaller
    exact ⟨‹_›, .inl rfl⟩
  · split at smaller
    · cases smaller
      exact ⟨‹_›, .inl rfl⟩
    · cases smaller
      exact ⟨‹_›, .inr rfl⟩

variable (before)

/-- The loop of `_siftup`: smaller children move up until the hole is a leaf. -/
def descend (heap : List α) (pos : Nat) : List α × Nat :=
  match _smaller : smallerChild before heap pos with
  | none => (heap, pos)
  | some (child, item) => descend (heap.set pos item) child
termination_by heap.length - pos
decreasing_by
  obtain ⟨found, place⟩ := smallerChild_eq_some _smaller
  have bound := (List.getElem?_eq_some_iff.mp found).1
  simp only [List.length_set]
  omega

/-- `_siftup(heap, 0)` -/
def siftup (heap : List α) (item : α) : List α :=
  siftdown before (descend before heap 0).1 (descend before heap 0).2 item

def heappush (heap : List α) (item : α) : List α :=
  siftdown before (heap ++ [item]) heap.length item

/-- Nothing is popped of an empty heap. -/
def heappop (heap : List α) : Option (α × List α) :=
  match heap.getLast? with
  | none => none
  | some last =>
      match heap.dropLast with
      | [] => some (last, [])
      | first :: rest => some (first, siftup before (last :: rest) last)

end Algorithm

section Permutation

variable {before : α → α → Bool} {heap : List α} {pos : Nat} {item : α}

theorem set_swap {other : Nat} {value : α} (bound : pos < heap.length)
    (there : heap[other]? = some value) :
    ((heap.set pos value).set other item).Perm (heap.set pos item) := by
  obtain ⟨place, same⟩ := List.getElem?_eq_some_iff.mp there
  by_cases equal : pos = other
  · subst equal
    simp
  · have swapped := @List.set_set_perm α (heap.set pos item) pos other (by simpa using bound)
      (by simpa using place)
    simpa [List.getElem_set_ne equal, same] using swapped

theorem siftdown_perm (bound : pos < heap.length) :
    (siftdown before heap pos item).Perm (heap.set pos item) := by
  induction heap, pos using siftdown.induct before item with
  | case1 heap =>
      unfold siftdown
      simp
  | case2 heap pos inner none =>
      unfold siftdown
      simp [inner, none]
  | case3 heap pos inner above found smaller ih =>
      unfold siftdown
      simp only [inner, if_false, found, smaller, if_true]
      have lower : parent pos < heap.length := (List.getElem?_eq_some_iff.mp found).1
      exact (ih (by simpa using lower)).trans (set_swap bound found)
  | case4 heap pos inner above found larger =>
      unfold siftdown
      simp [inner, found, larger]

theorem descend_perm (bound : pos < heap.length) :
    (descend before heap pos).2 < (descend before heap pos).1.length ∧
      ∀ item, ((descend before heap pos).1.set (descend before heap pos).2 item).Perm
        (heap.set pos item) := by
  induction heap, pos using descend.induct before with
  | case1 heap pos leaf =>
      unfold descend
      rw [leaf]
      exact ⟨bound, fun item => .refl _⟩
  | case2 heap pos child value smaller ih =>
      unfold descend
      rw [smaller]
      obtain ⟨found, _⟩ := smallerChild_eq_some smaller
      have lower : child < heap.length := (List.getElem?_eq_some_iff.mp found).1
      obtain ⟨inside, perm⟩ := ih (by simpa using lower)
      exact ⟨inside, fun item => (perm item).trans (set_swap bound found)⟩

theorem siftup_perm (bound : 0 < heap.length) :
    (siftup before heap item).Perm (heap.set 0 item) := by
  have moved := @descend_perm α before heap 0 bound
  exact (siftdown_perm moved.1).trans (moved.2 item)

theorem heappush_perm (heap : List α) (item : α) :
    (heappush before heap item).Perm (item :: heap) := by
  have pushed : (heappush before heap item).Perm ((heap ++ [item]).set heap.length item) :=
    siftdown_perm (by simp)
  refine pushed.trans ?_
  simp

theorem heappop_perm {rest : List α} (popped : heappop before heap = some (item, rest)) :
    heap.Perm (item :: rest) := by
  unfold heappop at popped
  split at popped
  · cases popped
  · rename_i last ends
    have parts := List.dropLast_append_getLast? last ends
    split at popped
    · rename_i none
      cases popped
      rw [none] at parts
      simp [← parts]
    · rename_i first others front
      cases popped
      rw [front] at parts
      have sifted : (siftup before (last :: others) last).Perm (last :: others) :=
        siftup_perm (Nat.succ_pos _)
      rw [← parts, List.cons_append]
      exact (List.perm_append_comm.trans sifted.symm).cons item

theorem heappop_eq_none : heappop before heap = none ↔ heap = [] := by
  unfold heappop
  split
  · rename_i none
    simpa using none
  · rename_i last ends
    have some : heap ≠ [] := by
      intro none
      subst none
      cases ends
    split <;> simp [some]

end Permutation

/-- No item comes before the one at its parent's place. -/
def IsHeap (before : α → α → Bool) (heap : List α) : Prop :=
  ∀ child lower upper, 0 < child → heap[child]? = some lower →
    heap[parent child]? = some upper → before lower upper = false

/-- Away from the hole the list is a heap, and so it is around the hole. -/
structure Holed (before : α → α → Bool) (heap : List α) (hole : Nat) : Prop where
  away : ∀ child lower upper, 0 < child → child ≠ hole → parent child ≠ hole →
    heap[child]? = some lower → heap[parent child]? = some upper → before lower upper = false
  around : ∀ child lower upper, 0 < hole → 0 < child → parent child = hole →
    heap[child]? = some lower → heap[parent hole]? = some upper → before lower upper = false

/-- `item` may stand above what is below the hole. -/
def Fits (before : α → α → Bool) (heap : List α) (hole : Nat) (item : α) : Prop :=
  ∀ child lower, 0 < child → parent child = hole → heap[child]? = some lower →
    before lower item = false

/-- Items are compared by a key: one of them comes first, or neither. -/
structure Comparison (before : α → α → Bool) : Prop where
  asymm : ∀ left right, before left right = true → before right left = false
  trans : ∀ low middle high, before middle low = false → before high middle = false →
    before high low = false

section Order

variable {before : α → α → Bool} {heap : List α} {pos hole : Nat} {item : α}

theorem parent_lt (positive : 0 < pos) : parent pos < pos := by
  unfold parent
  omega

theorem get_set_away {value : α} {other : Nat} (away : other ≠ pos) :
    (heap.set pos value)[other]? = heap[other]? :=
  List.getElem?_set_ne (Ne.symm away)

theorem get_set_here {value found : α} (here : (heap.set pos value)[pos]? = some found) :
    found = value := by
  rw [List.getElem?_set] at here
  simp only [if_true] at here
  split at here
  · exact (Option.some.inj here).symm
  · cases here

/-- An item that fits where the hole is makes the list a heap. -/
theorem Holed.fill (holed : Holed before heap hole) (fits : Fits before heap hole item)
    (stays : ∀ upper, 0 < hole → heap[parent hole]? = some upper → before item upper = false) :
    IsHeap before (heap.set hole item) := by
  intro child lower upper positive low high
  have inner := parent_lt positive
  by_cases isHole : child = hole
  · subst isHole
    rw [get_set_away (by omega)] at high
    rw [get_set_here low]
    exact stays upper positive high
  · rw [get_set_away isHole] at low
    by_cases below : parent child = hole
    · subst below
      rw [get_set_here high]
      exact fits child lower positive rfl low
    · rw [get_set_away below] at high
      exact holed.away child lower upper positive isHole below low high

/-- The hole moves up, where the larger parent moves down. -/
theorem Holed.raise (comparison : Comparison before) (holed : Holed before heap hole) {above : α}
    (positive : 0 < hole) (found : heap[parent hole]? = some above) :
    Holed before (heap.set hole above) (parent hole) := by
  have inner := parent_lt positive
  -- what stands at the upper hole comes after what is above it
  have chain : ∀ upper, 0 < parent hole → heap[parent (parent hole)]? = some upper →
      before above upper = false := by
    intro upper more high
    have higher := parent_lt more
    exact holed.away (parent hole) above upper more (by omega) (by omega) found high
  constructor
  · intro child lower upper some notHole notBelow low high
    have notMoved : child ≠ hole := fun same => notBelow (by rw [same])
    rw [get_set_away notMoved] at low
    by_cases below : parent child = hole
    · rw [below] at high
      rw [get_set_here high]
      exact holed.around child lower above positive some below low found
    · rw [get_set_away below] at high
      exact holed.away child lower upper some notMoved below low high
  · intro child lower upper more some below low high
    have higher := parent_lt more
    rw [get_set_away (by omega)] at high
    by_cases moved : child = hole
    · subst moved
      rw [get_set_here low]
      exact chain upper more high
    · rw [get_set_away moved] at low
      have sibling := holed.away child lower above some moved (by omega) low (by rwa [below])
      exact comparison.trans upper above lower (chain upper more high) sibling

/-- Where `item` comes before a parent, it comes before what is below that parent. -/
theorem fits_raise (comparison : Comparison before) (holed : Holed before heap hole) {above : α}
    (positive : 0 < hole) (found : heap[parent hole]? = some above)
    (smaller : before item above = true) : Fits before (heap.set hole above) (parent hole) item := by
  have inner := parent_lt positive
  have after := comparison.asymm item above smaller
  intro child lower some below low
  by_cases moved : child = hole
  · subst moved
    rwa [get_set_here low]
  · rw [get_set_away moved] at low
    have sibling := holed.away child lower above some moved (by omega) low (by rwa [below])
    exact comparison.trans item above lower after sibling

theorem siftdown_heap (comparison : Comparison before) (holed : Holed before heap hole)
    (fits : Fits before heap hole item) : IsHeap before (siftdown before heap hole item) := by
  induction heap, hole using siftdown.induct before item with
  | case1 heap =>
      unfold siftdown
      simp only [if_true]
      exact holed.fill fits fun upper positive _ => by omega
  | case2 heap hole inner none =>
      unfold siftdown
      simp only [inner, if_false, none]
      exact holed.fill fits fun upper _ high => by simp [none] at high
  | case3 heap hole inner above found smaller ih =>
      unfold siftdown
      simp only [inner, if_false, found, smaller, if_true]
      have positive : 0 < hole := by omega
      exact ih (holed.raise comparison positive found)
        (fits_raise comparison holed positive found smaller)
  | case4 heap hole inner above found larger =>
      unfold siftdown
      simp only [inner, if_false, found, larger]
      refine holed.fill fits fun upper _ high => ?_
      rw [found] at high
      cases high
      simpa using larger

/-- The smaller child does not come after the other one. -/
theorem smallerChild_smallest (comparison : Comparison before) {child : Nat}
    (smaller : smallerChild before heap hole = some (child, item)) :
    ∀ other lower, 0 < other → parent other = hole → heap[other]? = some lower →
      before lower item = false := by
  have irrefl : ∀ value, before value value = false := by
    intro value
    cases same : before value value with
    | false => rfl
    | true => exact absurd (comparison.asymm value value same) (by simp [same])
  intro other lower positive below low
  have places : other = 2 * hole + 1 ∨ other = 2 * hole + 2 := by
    unfold parent at below
    omega
  unfold smallerChild at smaller
  split at smaller
  · cases smaller
  · rename_i left first none
    cases smaller
    rcases places with rfl | rfl
    · rw [first] at low
      cases low
      exact irrefl _
    · rw [none] at low
      cases low
  · rename_i left right first second
    split at smaller
    · rename_i leftFirst
      cases smaller
      rcases places with rfl | rfl
      · rw [first] at low
        cases low
        exact irrefl _
      · rw [second] at low
        cases low
        exact comparison.asymm _ _ leftFirst
    · rename_i notLeft
      cases smaller
      rcases places with rfl | rfl
      · rw [first] at low
        cases low
        simpa using notLeft
      · rw [second] at low
        cases low
        exact irrefl _

/-- The hole moves down, where the smaller child moves up. -/
theorem Holed.lower (comparison : Comparison before) (holed : Holed before heap hole)
    {child : Nat} (smaller : smallerChild before heap hole = some (child, item)) :
    Holed before (heap.set hole item) child := by
  obtain ⟨found, places⟩ := smallerChild_eq_some smaller
  have smallest := smallerChild_smallest comparison smaller
  have below : parent child = hole := by
    unfold parent
    omega
  constructor
  · intro other lower upper positive notChild notBelow low high
    have inner := parent_lt positive
    by_cases isHole : other = hole
    · subst isHole
      rw [get_set_here low]
      rw [get_set_away (by omega)] at high
      exact holed.around child item upper positive (by omega) below found high
    · rw [get_set_away isHole] at low
      by_cases sibling : parent other = hole
      · rw [sibling] at high
        rw [get_set_here high]
        exact smallest other lower positive sibling low
      · rw [get_set_away sibling] at high
        exact holed.away other lower upper positive isHole sibling low high
  · intro other lower upper _ positive under low high
    have inner := parent_lt positive
    rw [below] at high
    rw [get_set_here high]
    rw [get_set_away (by omega)] at low
    exact holed.away other lower item positive (by omega) (by omega) low (by rwa [under])

theorem smallerChild_eq_none (leaf : smallerChild before heap hole = none) :
    heap.length ≤ 2 * hole + 1 := by
  unfold smallerChild at leaf
  split at leaf
  · rename_i none
    exact List.getElem?_eq_none_iff.mp none
  · cases leaf
  · split at leaf <;> cases leaf

theorem descend_holed (comparison : Comparison before) (holed : Holed before heap hole) :
    Holed before (descend before heap hole).1 (descend before heap hole).2 ∧
      (descend before heap hole).1.length ≤ 2 * (descend before heap hole).2 + 1 := by
  induction heap, hole using descend.induct before with
  | case1 heap hole leaf =>
      unfold descend
      rw [leaf]
      exact ⟨holed, smallerChild_eq_none leaf⟩
  | case2 heap hole child item smaller ih =>
      unfold descend
      rw [smaller]
      exact ih (holed.lower comparison smaller)

theorem fits_of_leaf (leaf : heap.length ≤ 2 * hole + 1) : Fits before heap hole item := by
  intro child lower positive below low
  have bound := (List.getElem?_eq_some_iff.mp low).1
  unfold parent at below
  omega

theorem siftup_heap (comparison : Comparison before) (holed : Holed before heap 0) :
    IsHeap before (siftup before heap item) := by
  obtain ⟨lowered, leaf⟩ := descend_holed comparison holed
  exact siftdown_heap comparison lowered (fits_of_leaf leaf)

theorem heappush_heap (comparison : Comparison before) (isHeap : IsHeap before heap) :
    IsHeap before (heappush before heap item) := by
  have inside : ∀ {place : Nat} {value : α}, place ≠ heap.length →
      (heap ++ [item])[place]? = some value → heap[place]? = some value := by
    intro place value notLast found
    have bound := (List.getElem?_eq_some_iff.mp found).1
    simp only [List.length_append, List.length_singleton] at bound
    rwa [List.getElem?_append_left (by omega)] at found
  apply siftdown_heap comparison
  · constructor
    · intro child lower upper positive notLast notBelow low high
      exact isHeap child lower upper positive (inside notLast low) (inside notBelow high)
    · intro child lower upper _ positive below low _
      have bound := (List.getElem?_eq_some_iff.mp low).1
      have inner := parent_lt positive
      simp only [List.length_append, List.length_singleton] at bound
      omega
  · apply fits_of_leaf
    simp only [List.length_append, List.length_singleton]
    omega

/-- The first item of a heap comes after none. -/
theorem IsHeap.first (comparison : Comparison before) (isHeap : IsHeap before heap) {first : α}
    (top : heap[0]? = some first) :
    ∀ (place : Nat) (value : α), heap[place]? = some value → before value first = false := by
  intro place
  induction place using Nat.strongRecOn with
  | ind place ih =>
      intro value found
      by_cases root : place = 0
      · subst root
        rw [top] at found
        cases found
        cases same : before first first with
        | false => rfl
        | true => exact absurd (comparison.asymm first first same) (by simp [same])
      · have inner := parent_lt (Nat.pos_of_ne_zero root)
        have bound := (List.getElem?_eq_some_iff.mp found).1
        have above := List.getElem?_eq_getElem (show parent place < heap.length by omega)
        have higher := ih (parent place) inner _ above
        exact comparison.trans first _ value higher
          (isHeap place value _ (Nat.pos_of_ne_zero root) found above)

theorem heappop_heap (comparison : Comparison before) (isHeap : IsHeap before heap)
    {rest : List α} (popped : heappop before heap = some (item, rest)) :
    IsHeap before rest ∧ ∀ value ∈ heap, before value item = false := by
  unfold heappop at popped
  split at popped
  · cases popped
  · rename_i last ends
    have parts := List.dropLast_append_getLast? last ends
    have first : ∀ value, heap[0]? = some value → ∀ other ∈ heap, before other value = false := by
      intro value top other member
      obtain ⟨place, found⟩ := List.getElem?_of_mem member
      exact isHeap.first comparison top place other found
    split at popped
    · rename_i none
      cases popped
      rw [none] at parts
      exact ⟨fun child lower upper _ low => by simp at low, first item (by simp [← parts])⟩
    · rename_i top others front
      cases popped
      rw [front] at parts
      refine ⟨siftup_heap comparison ⟨?_, fun _ _ _ positive => by omega⟩,
        first item (by simp [← parts])⟩
      intro child lower upper positive _ notBelow low high
      have same : ∀ {place : Nat} {value : α}, place ≠ 0 →
          (last :: others)[place]? = some value → heap[place]? = some value := by
        intro place value inner found
        have bound := (List.getElem?_eq_some_iff.mp found).1
        rw [← parts, List.getElem?_append_left (by simpa using bound)]
        cases place with
        | zero => omega
        | succ place => simpa using found
      exact isHeap child lower upper positive (same (by omega) low) (same notBelow high)

end Order

section Queues

variable (before : α → α → Bool)

/-- The items put one after the other. -/
def pushAll (items : List α) : List α := items.foldl (heappush before) []

/-- Everything that is popped until the heap is empty. -/
def drain (heap : List α) : List α :=
  match _popped : heappop before heap with
  | none => []
  | some (item, rest) => item :: drain rest
termination_by heap.length
decreasing_by
  have shorter := (heappop_perm _popped).length_eq
  simp only [List.length_cons] at shorter
  omega

variable {before} {heap items : List α}

theorem pushAll_concat (items : List α) (item : α) :
    pushAll before (items ++ [item]) = heappush before (pushAll before items) item := by
  simp [pushAll]

theorem pushAll_perm (items : List α) : (pushAll before items).Perm items := by
  induction items using List.reverseRecOn with
  | nil => exact .refl _
  | append_singleton items item ih =>
      rw [pushAll_concat]
      refine (heappush_perm _ item).trans ?_
      exact (ih.cons item).trans (List.perm_append_singleton item items).symm

theorem pushAll_heap (comparison : Comparison before) (items : List α) :
    IsHeap before (pushAll before items) := by
  induction items using List.reverseRecOn with
  | nil =>
      intro child lower upper _ low
      simp [pushAll] at low
  | append_singleton items item ih =>
      rw [pushAll_concat]
      exact heappush_heap comparison ih

theorem drain_perm (heap : List α) : (drain before heap).Perm heap := by
  induction heap using drain.induct before with
  | case1 heap none =>
      unfold drain
      rw [none, heappop_eq_none.mp none]
  | case2 heap item rest popped ih =>
      unfold drain
      rw [popped]
      exact (ih.cons item).trans (heappop_perm popped).symm

/-- What is popped comes in order. -/
theorem drain_sorted (comparison : Comparison before) (isHeap : IsHeap before heap) :
    (drain before heap).Pairwise fun earlier later => before later earlier = false := by
  induction heap using drain.induct before with
  | case1 heap none =>
      unfold drain
      rw [none]
      exact .nil
  | case2 heap item rest popped ih =>
      unfold drain
      rw [popped]
      obtain ⟨kept, least⟩ := heappop_heap comparison isHeap popped
      refine List.pairwise_cons.mpr ⟨fun later member => ?_, ih kept⟩
      apply least
      exact (heappop_perm popped).mem_iff.mpr
        (List.mem_cons_of_mem _ ((drain_perm rest).mem_iff.mp member))

end Queues

section Alike

variable {before : α → α → Bool} {after : β → β → Bool} {rename : α → β}
  (alike : ∀ left right, after (rename left) (rename right) = before left right)

include alike

theorem siftdown_map (heap : List α) (pos : Nat) (item : α) :
    siftdown after (heap.map rename) pos (rename item) =
      (siftdown before heap pos item).map rename := by
  induction heap, pos using siftdown.induct before item with
  | case1 heap =>
      unfold siftdown
      simp
  | case2 heap pos inner none =>
      unfold siftdown
      simp [inner, none]
  | case3 heap pos inner above found smaller ih =>
      rw [siftdown, siftdown]
      simp only [inner, if_false, List.getElem?_map, found, Option.map_some, alike, smaller,
        if_true]
      rw [← ih, List.map_set]
  | case4 heap pos inner above found larger =>
      unfold siftdown
      simp [inner, found, larger, alike]

theorem smallerChild_map (heap : List α) (pos : Nat) :
    smallerChild after (heap.map rename) pos =
      (smallerChild before heap pos).map fun child => (child.1, rename child.2) := by
  unfold smallerChild
  simp only [List.getElem?_map]
  cases heap[2 * pos + 1]? with
  | none => rfl
  | some left =>
      cases heap[2 * pos + 2]? with
      | none => rfl
      | some right =>
          simp only [Option.map_some, alike]
          split <;> rfl

theorem descend_map (heap : List α) (pos : Nat) :
    descend after (heap.map rename) pos =
      ((descend before heap pos).1.map rename, (descend before heap pos).2) := by
  induction heap, pos using descend.induct before with
  | case1 heap pos leaf =>
      have mapped := smallerChild_map alike heap pos
      rw [leaf] at mapped
      unfold descend
      rw [mapped, leaf]
      rfl
  | case2 heap pos child item smaller ih =>
      have mapped := smallerChild_map alike heap pos
      rw [smaller] at mapped
      rw [descend, mapped, descend, smaller]
      simp only [Option.map_some]
      rw [← ih, List.map_set]

theorem heappush_map (heap : List α) (item : α) :
    heappush after (heap.map rename) (rename item) = (heappush before heap item).map rename := by
  have pushed := siftdown_map alike (heap ++ [item]) heap.length item
  simpa [heappush] using pushed

theorem siftup_map (heap : List α) (item : α) :
    siftup after (heap.map rename) (rename item) = (siftup before heap item).map rename := by
  rw [siftup, siftup, descend_map alike, siftdown_map alike]

theorem heappop_map (heap : List α) :
    heappop after (heap.map rename) =
      (heappop before heap).map fun popped => (rename popped.1, popped.2.map rename) := by
  unfold heappop
  rw [List.getLast?_map, ← List.map_dropLast]
  cases heap.getLast? with
  | none => rfl
  | some last =>
      cases heap.dropLast with
      | nil => rfl
      | cons first rest =>
          have sifted := siftup_map alike (last :: rest) last
          simp only [Option.map_some, List.map_cons] at sifted ⊢
          rw [sifted]

theorem pushAll_map (items : List α) :
    pushAll after (items.map rename) = (pushAll before items).map rename := by
  induction items using List.reverseRecOn with
  | nil => rfl
  | append_singleton items item ih =>
      rw [List.map_append, List.map_singleton, pushAll_concat, pushAll_concat, ih,
        heappush_map alike]

/-- The heap treats items that compare alike in the same way. -/
theorem drain_map (heap : List α) :
    drain after (heap.map rename) = (drain before heap).map rename := by
  induction heap using drain.induct before with
  | case1 heap none =>
      have mapped := heappop_map alike heap
      rw [none] at mapped
      unfold drain
      rw [mapped, none]
      rfl
  | case2 heap item rest popped ih =>
      have mapped := heappop_map alike heap
      rw [popped] at mapped
      rw [drain, mapped, drain, popped]
      simp only [Option.map_some, List.map_cons]
      rw [ih]

end Alike

end HeapQueue
