import Mathlib.Data.List.Infix

namespace Paths

/-! Paths over a tree with symbolic links, as `os.path.realpath` resolves them.

A path from the root is the list of its names.  What need not exist is followed all the
same; only links are looked up.
-/

variable {α : Type}

inductive Segment (α : Type) where
  | up
  | name (name : α)
deriving DecidableEq

/-- What a symbolic link holds. -/
structure Link (α : Type) where
  absolute : Bool
  target : List (Segment α)
deriving DecidableEq

/-- The symbolic links of a file system, by their places. -/
structure FileSystem (α : Type) where
  links : List (List α × Link α)

/-- Where the target of a link at `place` is followed from. -/
def Link.start (link : Link α) (place : List α) : List α :=
  if link.absolute then [] else place.dropLast

section Places

variable [DecidableEq α]

def FileSystem.link? (files : FileSystem α) (place : List α) : Option (Link α) :=
  files.links.lookup place

/-- From `path`, the segments lead to `last` over `count` links. -/
inductive Walks (files : FileSystem α) : Nat → List α → List (Segment α) → List α → Prop where
  | here (path : List α) : Walks files 0 path [] path
  | up {count : Nat} {path last : List α} {rest : List (Segment α)}
      (walks : Walks files count path.dropLast rest last) :
      Walks files count path (.up :: rest) last
  | name {count : Nat} {path last : List α} {name : α} {rest : List (Segment α)}
      (plain : files.link? (path ++ [name]) = none)
      (walks : Walks files count (path ++ [name]) rest last) :
      Walks files count path (.name name :: rest) last
  | link {inner outer : Nat} {path middle last : List α} {name : α} {rest : List (Segment α)}
      {link : Link α} (linked : files.link? (path ++ [name]) = some link)
      (follows : Walks files inner (link.start (path ++ [name])) link.target middle)
      (walks : Walks files outer middle rest last) :
      Walks files (inner + outer + 1) path (.name name :: rest) last

/-- The segments lead there over some links. -/
def Leads (files : FileSystem α) (path : List α) (segments : List (Segment α)) (last : List α) :
    Prop :=
  ∃ count, Walks files count path segments last

variable {files : FileSystem α} {path last other : List α} {segments rest : List (Segment α)}

theorem Walks.unique {first second : Nat} (one : Walks files first path segments last)
    (two : Walks files second path segments other) : first = second ∧ last = other := by
  induction one generalizing second other with
  | here path =>
      cases two
      exact ⟨rfl, rfl⟩
  | up _ ih =>
      cases two with
      | up two => exact ih two
  | name plain _ ih =>
      cases two with
      | name _ two => exact ih two
      | link linked _ _ =>
          rw [plain] at linked
          cases linked
  | link linked _ _ followsIH walksIH =>
      cases two with
      | name plain _ =>
          rw [linked] at plain
          cases plain
      | link linked' follows walks =>
          rw [linked, Option.some.injEq] at linked'
          subst linked'
          obtain ⟨inner, rfl⟩ := followsIH follows
          obtain ⟨outer, same⟩ := walksIH walks
          exact ⟨by omega, same⟩

theorem Leads.unique (one : Leads files path segments last)
    (two : Leads files path segments other) : last = other := by
  obtain ⟨_, one⟩ := one
  obtain ⟨_, two⟩ := two
  exact (one.unique two).2

theorem Walks.append {first second : Nat} {middle : List α}
    (one : Walks files first path segments middle) (two : Walks files second middle rest last) :
    Walks files (first + second) path (segments ++ rest) last := by
  induction one with
  | here path =>
      rw [Nat.zero_add]
      exact two
  | up _ ih => exact .up (ih two)
  | name plain _ ih => exact .name plain (ih two)
  | @link inner outer _ _ _ _ _ _ linked follows _ _ ih =>
      have walks := Walks.link linked follows (ih two)
      rw [show inner + outer + 1 + second = inner + (outer + second) + 1 by omega]
      exact walks

theorem Leads.append {middle : List α} (one : Leads files path segments middle)
    (two : Leads files middle rest last) : Leads files path (segments ++ rest) last := by
  obtain ⟨first, one⟩ := one
  obtain ⟨second, two⟩ := two
  exact ⟨first + second, one.append two⟩

/-- A walk over two lists of segments stops in between. -/
theorem Walks.split {count : Nat} (walks : Walks files count path (segments ++ rest) last) :
    ∃ first second middle, count = first + second ∧ Walks files first path segments middle ∧
      Walks files second middle rest last := by
  induction segments generalizing path count with
  | nil => exact ⟨0, count, path, (Nat.zero_add count).symm, .here path, walks⟩
  | cons segment segments ih =>
      cases walks with
      | up walks =>
          obtain ⟨first, second, middle, same, one, two⟩ := ih walks
          exact ⟨first, second, middle, same, .up one, two⟩
      | name plain walks =>
          obtain ⟨first, second, middle, same, one, two⟩ := ih walks
          exact ⟨first, second, middle, same, .name plain one, two⟩
      | @link inner outer _ _ _ _ _ _ linked follows walks =>
          obtain ⟨first, second, middle, same, one, two⟩ := ih walks
          exact ⟨inner + first + 1, second, middle, by omega, .link linked follows one, two⟩

theorem Leads.split (leads : Leads files path (segments ++ rest) last) :
    ∃ middle, Leads files path segments middle ∧ Leads files middle rest last := by
  obtain ⟨_, walks⟩ := leads
  obtain ⟨first, second, middle, _, one, two⟩ := walks.split
  exact ⟨middle, ⟨first, one⟩, second, two⟩

/-- No part of the path is a link. -/
def Canonical (files : FileSystem α) (path : List α) : Prop :=
  ∀ place, place <+: path → place ≠ [] → files.link? place = none

theorem canonical_root : Canonical files [] := by
  intro place before nonempty
  exact absurd (List.prefix_nil.mp before) nonempty

theorem Canonical.of_prefix (canonical : Canonical files last) (before : path <+: last) :
    Canonical files path :=
  fun place inside => canonical place (inside.trans before)

theorem Canonical.dropLast (canonical : Canonical files path) : Canonical files path.dropLast :=
  canonical.of_prefix (List.dropLast_prefix path)

theorem Canonical.concat {name : α} (canonical : Canonical files path)
    (plain : files.link? (path ++ [name]) = none) : Canonical files (path ++ [name]) := by
  intro place before nonempty
  rcases List.prefix_concat_iff.mp before with rfl | before
  · exact plain
  · exact canonical place before nonempty

/-- Links lead from places without links to places without links. -/
theorem Walks.canonical {count : Nat} (walks : Walks files count path segments last)
    (canonical : Canonical files path) : Canonical files last := by
  induction walks with
  | here => exact canonical
  | up _ ih => exact ih canonical.dropLast
  | name plain _ ih => exact ih (canonical.concat plain)
  | @link inner outer path middle last name rest link linked _ _ followsIH walksIH =>
      apply walksIH
      apply followsIH
      unfold Link.start
      split
      · exact canonical_root
      · rw [List.dropLast_concat]
        exact canonical

theorem Leads.canonical (leads : Leads files path segments last)
    (canonical : Canonical files path) : Canonical files last := by
  obtain ⟨_, walks⟩ := leads
  exact walks.canonical canonical

/-- Names alone lead to where they say. -/
theorem Canonical.leads {names : List α} (canonical : Canonical files (path ++ names)) :
    Leads files path (names.map .name) (path ++ names) := by
  refine ⟨0, ?_⟩
  induction names generalizing path with
  | nil =>
      rw [List.append_nil]
      exact .here path
  | cons name names ih =>
      have plain : files.link? (path ++ [name]) = none := by
        apply canonical
        · exact ⟨names, by simp⟩
        · simp
      have split : path ++ name :: names = path ++ [name] ++ names :=
        List.append_cons path name names
      rw [split] at canonical ⊢
      exact .name plain (ih canonical)

/-- What resolves to itself can be put before anything that is followed from it. -/
theorem Canonical.leads_iff (canonical : Canonical files path) :
    Leads files [] (path.map .name ++ segments) last ↔ Leads files path segments last := by
  have whole : Canonical files ([] ++ path) := canonical
  have here : Leads files [] (path.map .name) path := whole.leads
  constructor
  · intro leads
    obtain ⟨middle, first, second⟩ := leads.split
    exact (here.unique first) ▸ second
  · exact fun leads => here.append leads

end Places

/-- What is left to do: to follow a segment, or to note where a link led. -/
inductive Task (α : Type) where
  | segment (next : Segment α)
  | resolved (place : List α)

def Task.segment? : Task α → Option (Segment α)
  | .segment next => some next
  | .resolved _ => none

/-- What is left to follow. -/
def pending (tasks : List (Task α)) : List (Segment α) := tasks.filterMap Task.segment?

section Pending

variable {tasks : List (Task α)} {place : List α} {segments : List (Segment α)}

@[simp] theorem pending_nil : pending ([] : List (Task α)) = [] := rfl

@[simp] theorem pending_segment {segment : Segment α} :
    pending (.segment segment :: tasks) = segment :: pending tasks := rfl

@[simp] theorem pending_resolved : pending (.resolved place :: tasks) = pending tasks := rfl

theorem pending_append {tasks others : List (Task α)} :
    pending (tasks ++ others) = pending tasks ++ pending others :=
  List.filterMap_append

@[simp] theorem pending_map : pending (segments.map .segment) = segments := by
  induction segments with
  | nil => rfl
  | cons segment segments ih => rw [List.map_cons, pending_segment, ih]

/-- The marks behind the target of a link. -/
theorem marks_of_target {target : List (Segment α)} {before after : List (Task α)} {other : List α}
    (same : target.map .segment ++ .resolved place :: tasks = before ++ .resolved other :: after) :
    (before = target.map .segment ∧ other = place) ∨
      ∃ later, before = target.map .segment ++ .resolved place :: later ∧
        tasks = later ++ .resolved other :: after := by
  induction target generalizing before with
  | nil =>
      cases before with
      | nil =>
          obtain ⟨here, _⟩ := List.cons.inj same
          cases here
          exact .inl ⟨rfl, rfl⟩
      | cons task before =>
          obtain ⟨rfl, rest⟩ := List.cons.inj same
          exact .inr ⟨before, rfl, rest⟩
  | cons first target ih =>
      cases before with
      | nil =>
          obtain ⟨here, _⟩ := List.cons.inj same
          cases here
      | cons task before =>
          obtain ⟨rfl, rest⟩ := List.cons.inj same
          rcases ih rest with ⟨rfl, here⟩ | ⟨later, rfl, behind⟩
          · exact .inl ⟨rfl, here⟩
          · exact .inr ⟨later, rfl, behind⟩

end Pending

/-- Where `realpath` is.  A link that was seen is being followed, or it led somewhere. -/
structure Progress (α : Type) where
  path : List α
  tasks : List (Task α)
  seen : List (List α × Option (List α))

inductive Advance (α : Type) where
  | arrived (path : List α)
  | looped
  | goesOn (next : Progress α)

section Algorithm

variable [DecidableEq α]

/-- One segment of `_joinrealpath`. -/
def FileSystem.advance (files : FileSystem α) : Progress α → Advance α
  | ⟨path, [], _⟩ => .arrived path
  | ⟨path, .resolved place :: tasks, seen⟩ => .goesOn ⟨path, tasks, (place, some path) :: seen⟩
  | ⟨path, .segment .up :: tasks, seen⟩ => .goesOn ⟨path.dropLast, tasks, seen⟩
  | ⟨path, .segment (.name name) :: tasks, seen⟩ =>
      match files.link? (path ++ [name]) with
      | none => .goesOn ⟨path ++ [name], tasks, seen⟩
      | some link =>
          match seen.lookup (path ++ [name]) with
          | some (some last) => .goesOn ⟨last, tasks, seen⟩
          | some none => .looped
          | none =>
              .goesOn ⟨link.start (path ++ [name]),
                link.target.map .segment ++ .resolved (path ++ [name]) :: tasks,
                (path ++ [name], none) :: seen⟩

def FileSystem.follow (files : FileSystem α) : Nat → Progress α → Option (List α)
  | 0, _ => none
  | fuel + 1, progress =>
      match files.advance progress with
      | .arrived path => some path
      | .looped => none
      | .goesOn next => files.follow fuel next

/-- What the links not seen yet may still add. -/
def FileSystem.unseen (files : FileSystem α) (seen : List (List α × Option (List α))) : Nat :=
  (files.links.map fun entry =>
    if (seen.lookup entry.1).isNone then entry.2.target.length + 2 else 0).foldr (· + ·) 0

def FileSystem.weight (files : FileSystem α) (progress : Progress α) : Nat :=
  progress.tasks.length + files.unseen progress.seen

/-- Where the segments lead from `path`, or nothing when they lead around in a loop. -/
def FileSystem.realpath (files : FileSystem α) (path : List α) (segments : List (Segment α)) :
    Option (List α) :=
  let start : Progress α := ⟨path, segments.map .segment, []⟩
  files.follow (files.weight start + 1) start

variable {files : FileSystem α} {path last : List α} {segments : List (Segment α)}
  {tasks : List (Task α)} {seen : List (List α × Option (List α))} {place : List α}
  {next progress : Progress α}

/-- What the marks and the links seen say. -/
structure Sound (files : FileSystem α) (progress : Progress α) : Prop where
  cached : ∀ place last, progress.seen.lookup place = some (some last) →
    ∃ link, files.link? place = some link ∧ Leads files (link.start place) link.target last
  marked : ∀ place, progress.seen.lookup place = some none →
    ∃ before after, progress.tasks = before ++ .resolved place :: after
  followed : ∀ before place after, progress.tasks = before ++ .resolved place :: after →
    ∃ link, files.link? place = some link ∧
      (∀ last, Leads files progress.path (pending before) last →
        Leads files (link.start place) link.target last) ∧
      ∀ count last, Walks files count (link.start place) link.target last →
        ∃ fewer, fewer ≤ count ∧ Walks files fewer progress.path (pending before) last

theorem sound_start : Sound files ⟨path, segments.map .segment, []⟩ where
  cached place last found := by cases found
  marked place found := by cases found
  followed before place after same := by
    have member : Task.resolved place ∈ segments.map Task.segment := by
      have same : segments.map Task.segment = before ++ .resolved place :: after := same
      rw [same]
      simp
    obtain ⟨segment, _, same⟩ := List.mem_map.mp member
    cases same

/-- A segment that leads somewhere. -/
theorem Sound.follow {segment : Segment α}
    (sound : Sound files ⟨path, .segment segment :: tasks, seen⟩)
    (leads : Leads files path [segment] last) :
    Sound files ⟨last, tasks, seen⟩ ∧ ∀ other, Leads files last (pending tasks) other ↔
      Leads files path (segment :: pending tasks) other := by
  have onwards : ∀ {rest : List (Segment α)} {other : List α},
      Leads files last rest other → Leads files path (segment :: rest) other :=
    fun further => leads.append further
  have backwards : ∀ {count : Nat} {rest : List (Segment α)} {other : List α},
      Walks files count path (segment :: rest) other →
      ∃ fewer, fewer ≤ count ∧ Walks files fewer last rest other := by
    intro count rest other walks
    have whole : Walks files count path ([segment] ++ rest) other := walks
    obtain ⟨first, second, middle, same, one, two⟩ := whole.split
    have here : middle = last := Leads.unique ⟨first, one⟩ leads
    exact ⟨second, by omega, here ▸ two⟩
  refine ⟨⟨sound.cached, ?_, ?_⟩, fun other => ⟨onwards, ?_⟩⟩
  · intro place found
    obtain ⟨before, after, same⟩ := sound.marked place found
    cases before with
    | nil => cases same
    | cons task before => exact ⟨before, after, (List.cons.inj same).2⟩
  · intro before place after same
    have whole : (.segment segment :: tasks : List (Task α)) =
        (.segment segment :: before) ++ .resolved place :: after := congrArg (_ :: ·) same
    obtain ⟨link, linked, reach, descends⟩ := sound.followed _ place after whole
    refine ⟨link, linked, fun last leads => reach last (onwards leads), ?_⟩
    intro count last walks
    obtain ⟨fewer, bound, walks⟩ := descends count last walks
    obtain ⟨less, below, walks⟩ := backwards walks
    exact ⟨less, by omega, walks⟩
  · rintro ⟨count, walks⟩
    obtain ⟨fewer, _, walks⟩ := backwards walks
    exact ⟨fewer, walks⟩

/-- A link that was followed to its end. -/
theorem Sound.note (sound : Sound files ⟨path, .resolved place :: tasks, seen⟩) :
    Sound files ⟨path, tasks, (place, some path) :: seen⟩ where
  cached := by
    intro other last found
    by_cases same : other = place
    · subst same
      obtain ⟨link, linked, reach, _⟩ := sound.followed [] other tasks rfl
      have here : path = last := by simpa [List.lookup_cons] using found
      exact ⟨link, linked, here ▸ reach path ⟨0, .here path⟩⟩
    · have found : seen.lookup other = some (some last) := by
        simpa [List.lookup_cons, beq_eq_false_iff_ne.mpr same] using found
      exact sound.cached other last found
  marked := by
    intro other found
    by_cases same : other = place
    · simp [same] at found
    · have found : seen.lookup other = some none := by
        simpa [List.lookup_cons, beq_eq_false_iff_ne.mpr same] using found
      obtain ⟨before, after, split⟩ := sound.marked other found
      cases before with
      | nil =>
          obtain ⟨here, _⟩ := List.cons.inj split
          cases here
          exact absurd rfl same
      | cons task before => exact ⟨before, after, (List.cons.inj split).2⟩
  followed := by
    intro before other after same
    have whole : (.resolved place :: tasks : List (Task α)) =
        (.resolved place :: before) ++ .resolved other :: after := congrArg (_ :: ·) same
    exact sound.followed (.resolved place :: before) other after whole

/-- A link that is followed from now on. -/
theorem Sound.expand {name : α} {link : Link α}
    (sound : Sound files ⟨path, .segment (.name name) :: tasks, seen⟩)
    (linked : files.link? (path ++ [name]) = some link) :
    Sound files ⟨link.start (path ++ [name]),
      link.target.map .segment ++ .resolved (path ++ [name]) :: tasks,
      (path ++ [name], none) :: seen⟩ ∧
    ∀ other, Leads files (link.start (path ++ [name])) (link.target ++ pending tasks) other ↔
      Leads files path (.name name :: pending tasks) other := by
  have backwards : ∀ {count : Nat} {rest : List (Segment α)} {other : List α},
      Walks files count path (.name name :: rest) other → ∃ fewer, fewer ≤ count ∧
        Walks files fewer (link.start (path ++ [name])) (link.target ++ rest) other := by
    intro count rest other walks
    cases walks with
    | name plain _ =>
        rw [linked] at plain
        cases plain
    | @link inner outer _ _ _ _ _ link' linked' follows walks =>
        rw [linked, Option.some.injEq] at linked'
        subst linked'
        exact ⟨inner + outer, by omega, follows.append walks⟩
  have onwards : ∀ {rest : List (Segment α)} {other : List α},
      Leads files (link.start (path ++ [name])) (link.target ++ rest) other →
      Leads files path (.name name :: rest) other := by
    intro rest other leads
    obtain ⟨middle, ⟨_, follows⟩, _, walks⟩ := leads.split
    exact ⟨_, .link linked follows walks⟩
  refine ⟨⟨?_, ?_, ?_⟩, fun other => ⟨onwards, ?_⟩⟩
  · intro place last found
    by_cases same : place = path ++ [name]
    · simp [same] at found
    · have found : seen.lookup place = some (some last) := by
        simpa [List.lookup_cons, beq_eq_false_iff_ne.mpr same] using found
      exact sound.cached place last found
  · intro place found
    by_cases same : place = path ++ [name]
    · subst same
      exact ⟨_, tasks, rfl⟩
    · have found : seen.lookup place = some none := by
        simpa [List.lookup_cons, beq_eq_false_iff_ne.mpr same] using found
      obtain ⟨before, after, split⟩ := sound.marked place found
      cases before with
      | nil => cases split
      | cons task before =>
          have rest : tasks = before ++ .resolved place :: after := (List.cons.inj split).2
          refine ⟨link.target.map .segment ++ .resolved (path ++ [name]) :: before, after, ?_⟩
          rw [List.append_assoc, List.cons_append, ← rest]
  · intro before place after same
    rcases marks_of_target same with ⟨rfl, rfl⟩ | ⟨later, rfl, rest⟩
    · refine ⟨link, linked, fun last leads => ?_, fun count last walks => ?_⟩
      · rwa [pending_map] at leads
      · rw [pending_map]
        exact ⟨count, Nat.le_refl count, walks⟩
    · have whole : (.segment (.name name) :: tasks : List (Task α)) =
          (.segment (.name name) :: later) ++ .resolved place :: after := congrArg (_ :: ·) rest
      obtain ⟨outerLink, outerLinked, reach, descends⟩ := sound.followed _ place after whole
      have left : pending (link.target.map .segment ++ .resolved (path ++ [name]) :: later) =
          link.target ++ pending later := by
        rw [pending_append, pending_map, pending_resolved]
      refine ⟨outerLink, outerLinked, fun last leads => ?_, fun count last walks => ?_⟩
      · rw [left] at leads
        exact reach last (onwards leads)
      · obtain ⟨fewer, bound, walks⟩ := descends count last walks
        obtain ⟨less, below, walks⟩ := backwards walks
        rw [left]
        exact ⟨less, by omega, walks⟩
  · rintro ⟨count, walks⟩
    obtain ⟨fewer, _, walks⟩ := backwards walks
    exact ⟨fewer, walks⟩

/-- A link met while it is being followed leads nowhere. -/
theorem Sound.looped {name : α} (sound : Sound files ⟨path, .segment (.name name) :: tasks, seen⟩)
    (met : seen.lookup (path ++ [name]) = some none) :
    ¬Leads files path (.name name :: pending tasks) last := by
  rintro ⟨count, walks⟩
  obtain ⟨before, after, split⟩ := sound.marked _ met
  obtain ⟨link, linked, _, descends⟩ := sound.followed before _ after split
  cases before with
  | nil => cases split
  | cons task before =>
      obtain ⟨rfl, _⟩ := List.cons.inj split
      cases walks with
      | name plain _ =>
          rw [linked] at plain
          cases plain
      | @link inner outer _ middle _ _ _ link' linked' follows walks =>
          rw [linked, Option.some.injEq] at linked'
          subst linked'
          -- following the link leads to the same link again, over fewer links
          obtain ⟨fewer, bound, again⟩ := descends inner middle follows
          cases again with
          | name plain _ =>
              rw [linked] at plain
              cases plain
          | link linked' follows' _ =>
              rw [linked, Option.some.injEq] at linked'
              subst linked'
              have same := (follows.unique follows').1
              omega

theorem unseen_le (files : FileSystem α) (value : Option (List α)) :
    files.unseen ((place, value) :: seen) ≤ files.unseen seen := by
  unfold FileSystem.unseen
  induction files.links with
  | nil => exact Nat.le_refl _
  | cons entry links ih =>
      simp only [List.map_cons, List.foldr_cons, List.lookup_cons]
      by_cases same : entry.1 = place
      · simp only [same, beq_self_eq_true, Option.isNone_some, Bool.false_eq_true, if_false]
        simp only [List.lookup_cons] at ih
        omega
      · simp only [beq_eq_false_iff_ne.mpr same]
        simp only [List.lookup_cons] at ih
        omega

theorem unseen_expand {link : Link α} (linked : files.link? place = some link)
    (unmet : seen.lookup place = none) (value : Option (List α)) :
    files.unseen ((place, value) :: seen) + link.target.length + 2 ≤ files.unseen seen := by
  obtain ⟨links⟩ := files
  replace linked : links.lookup place = some link := linked
  unfold FileSystem.unseen
  simp only
  induction links with
  | nil => cases linked
  | cons entry links ih =>
      obtain ⟨key, value'⟩ := entry
      have rest : FileSystem.unseen ⟨links⟩ ((place, value) :: seen) ≤
          FileSystem.unseen ⟨links⟩ seen := unseen_le ⟨links⟩ value
      unfold FileSystem.unseen at rest
      simp only [List.map_cons, List.foldr_cons]
      by_cases same : place = key
      · subst same
        have found : value' = link := by simpa using linked
        subst found
        simp only [List.lookup_cons, beq_self_eq_true, unmet, Option.isNone_some, Option.isNone_none,
          Bool.false_eq_true, if_false, if_true]
        simp only [List.lookup_cons] at rest
        omega
      · have linked : links.lookup place = some link := by
          simpa [List.lookup_cons, beq_eq_false_iff_ne.mpr same] using linked
        have ih := ih linked
        have other : ((place, value) :: seen).lookup key = seen.lookup key := by
          simp only [List.lookup_cons, beq_eq_false_iff_ne.mpr (Ne.symm same)]
        rw [other]
        omega

/-- `realpath` goes on while the same place is led to, and gets done with it. -/
theorem Sound.advance (sound : Sound files progress)
    (goes : files.advance progress = .goesOn next) :
    Sound files next ∧ files.weight next < files.weight progress ∧
      ∀ last, Leads files next.path (pending next.tasks) last ↔
        Leads files progress.path (pending progress.tasks) last := by
  obtain ⟨path, tasks, seen⟩ := progress
  cases tasks with
  | nil => cases goes
  | cons task tasks =>
      cases task with
      | resolved place =>
          cases goes
          have bound : files.unseen ((place, some path) :: seen) ≤ files.unseen seen :=
            unseen_le files (some path)
          exact ⟨sound.note, by simp only [FileSystem.weight, List.length_cons]; omega,
            fun _ => Iff.rfl⟩
      | segment segment =>
          have lighter : ∀ last, files.weight ⟨last, tasks, seen⟩ <
              files.weight ⟨path, .segment segment :: tasks, seen⟩ := by
            intro last
            simp only [FileSystem.weight, List.length_cons]
            omega
          cases segment with
          | up =>
              cases goes
              have leads : Leads files path [.up] path.dropLast := ⟨0, .up (.here _)⟩
              obtain ⟨after, same⟩ := sound.follow leads
              exact ⟨after, lighter _, same⟩
          | name name =>
              simp only [FileSystem.advance] at goes
              cases linked : files.link? (path ++ [name]) with
              | none =>
                  simp only [linked] at goes
                  cases goes
                  have leads : Leads files path [.name name] (path ++ [name]) :=
                    ⟨0, .name linked (.here _)⟩
                  obtain ⟨after, same⟩ := sound.follow leads
                  exact ⟨after, lighter _, same⟩
              | some link =>
                  simp only [linked] at goes
                  cases met : seen.lookup (path ++ [name]) with
                  | none =>
                      simp only [met] at goes
                      cases goes
                      obtain ⟨after, same⟩ := sound.expand linked
                      have bound := unseen_expand linked met none
                      refine ⟨after, ?_, ?_⟩
                      · simp only [FileSystem.weight, List.length_append, List.length_map,
                          List.length_cons]
                        omega
                      · intro last
                        simp only [pending_append, pending_map, pending_resolved, pending_segment]
                        exact same last
                  | some value =>
                      cases value with
                      | none =>
                          simp only [met] at goes
                          cases goes
                      | some last =>
                          simp only [met] at goes
                          cases goes
                          obtain ⟨link', linked', _, follows⟩ := sound.cached _ last met
                          rw [linked, Option.some.injEq] at linked'
                          subst linked'
                          have leads : Leads files path [.name name] last :=
                            ⟨_, .link linked follows (.here _)⟩
                          obtain ⟨after, same⟩ := sound.follow leads
                          exact ⟨after, lighter _, same⟩

theorem arrived_of_advance (arrives : files.advance progress = .arrived last) :
    progress.path = last ∧ progress.tasks = [] := by
  obtain ⟨path, tasks, seen⟩ := progress
  cases tasks with
  | nil =>
      cases arrives
      exact ⟨rfl, rfl⟩
  | cons task tasks =>
      rcases task with (_ | name) | place
      · cases arrives
      · simp only [FileSystem.advance] at arrives
        split at arrives
        · cases arrives
        · split at arrives <;> cases arrives
      · cases arrives

/-- `realpath` gives up only where nothing is led to. -/
theorem Sound.loops (sound : Sound files progress) (loops : files.advance progress = .looped) :
    ¬Leads files progress.path (pending progress.tasks) last := by
  obtain ⟨path, tasks, seen⟩ := progress
  cases tasks with
  | nil => cases loops
  | cons task tasks =>
      rcases task with (_ | name) | place
      · cases loops
      · cases met : seen.lookup (path ++ [name]) with
        | none =>
            simp only [FileSystem.advance, met] at loops
            split at loops <;> cases loops
        | some value =>
            cases value with
            | none => exact sound.looped met
            | some last =>
                simp only [FileSystem.advance, met] at loops
                split at loops <;> cases loops
      · cases loops

theorem Sound.follow_iff {fuel : Nat} (sound : Sound files progress)
    (enough : files.weight progress < fuel) :
    files.follow fuel progress = some last ↔
      Leads files progress.path (pending progress.tasks) last := by
  induction fuel generalizing progress with
  | zero => omega
  | succ fuel ih =>
      unfold FileSystem.follow
      cases goes : files.advance progress with
      | goesOn next =>
          obtain ⟨after, lighter, same⟩ := sound.advance goes
          simp only
          rw [ih after (by omega)]
          exact same last
      | arrived path =>
          obtain ⟨rfl, ended⟩ := arrived_of_advance goes
          rw [ended, pending_nil]
          constructor
          · intro same
            cases same
            exact ⟨0, .here _⟩
          · rintro ⟨_, walks⟩
            cases walks
            rfl
      | looped =>
          constructor
          · intro same
            cases same
          · exact fun leads => absurd leads (sound.loops goes)

/-- `realpath` finds where the segments lead, if they lead anywhere. -/
theorem realpath_eq_some : files.realpath path segments = some last ↔
    Leads files path segments last := by
  have sound : Sound files ⟨path, segments.map .segment, []⟩ := sound_start
  have arrives : files.realpath path segments = some last ↔
      Leads files path (pending (segments.map .segment)) last :=
    sound.follow_iff (Nat.lt_succ_self _)
  rwa [pending_map] at arrives

end Algorithm

end Paths
