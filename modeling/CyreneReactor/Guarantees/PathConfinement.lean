import CyreneReactor.Runtime.PathUtils

namespace CyreneReactor.Runtime

open Outcome Paths

/-! Joined paths stay under their base.

What `safe_join` returns stands under the place of the base with every link followed, and
the checks of other helpers agree with it, as long as no link met on the way leads around.
-/

theorem segment?_name (name : Name) : segment? name.val = some (.name name) := by
  have named : IsName name.val := name.property
  unfold segment?
  rw [if_neg named.2.2.1, dif_pos named]

theorem segments_names (names : List Name) :
    (names.map Subtype.val).mapM segment? = some (names.map .name) := by
  induction names with
  | nil => rfl
  | cons name names ih =>
      rw [List.map_cons, List.mapM_cons, segment?_name, ih]
      rfl

theorem mapM_append_eq_some {α β : Type} {read : α → Option β} {first second : List α}
    {values : List β} : (first ++ second).mapM read = some values ↔
      ∃ front back, first.mapM read = some front ∧ second.mapM read = some back ∧
        values = front ++ back := by
  rw [List.mapM_append]
  constructor
  · intro same
    obtain ⟨front, one, same⟩ := Option.bind_eq_some_iff.mp same
    obtain ⟨back, two, same⟩ := Option.bind_eq_some_iff.mp same
    exact ⟨front, back, one, two, (Option.some.inj same).symm⟩
  · rintro ⟨front, back, one, two, rfl⟩
    rw [one, two]
    rfl

namespace PurePath

theorem names_kept (names : List Name) :
    (names.map Subtype.val).filter (fun part => part ≠ [] ∧ part ≠ ['.']) =
      names.map Subtype.val := by
  apply List.filter_eq_self.mpr
  intro part member
  obtain ⟨name, _, rfl⟩ := List.mem_map.mp member
  have named : IsName name.val := name.property
  simp [named.1, named.2.1]

theorem split_names {names : List Name} (nonempty : names ≠ []) :
    (['/'].intercalate (names.map Subtype.val)).splitOn '/' = names.map Subtype.val := by
  apply List.splitOn_intercalate
  · intro part member
    obtain ⟨name, _, rfl⟩ := List.mem_map.mp member
    exact name.property.2.2.2.1
  · exact fun empty => nonempty (List.map_eq_nil_iff.mp empty)

theorem ofText_absolute (names : List Name) : ofText (absolute names).str = absolute names := by
  have parts : ((absolute names).str.splitOn '/').filter (fun part => part ≠ [] ∧ part ≠ ['.']) =
      names.map Subtype.val := by
    have split : (absolute names).str.splitOn '/' =
        [] :: (['/'].intercalate (names.map Subtype.val)).splitOn '/' :=
      List.splitOn_cons_eq_if_modifyHead '/' _
    rw [split, List.filter_cons_of_neg (by simp)]
    cases names with
    | nil => rfl
    | cons name names => rw [split_names (List.cons_ne_nil name names), names_kept]
  unfold ofText
  rw [parts]
  rfl

theorem ofText_relative (names : List Name) :
    ofText (PurePath.mk false (names.map Subtype.val)).str = ⟨false, names.map Subtype.val⟩ := by
  cases names with
  | nil => rfl
  | cons name names =>
      have shown : (PurePath.mk false ((name :: names).map Subtype.val)).str =
          ['/'].intercalate ((name :: names).map Subtype.val) := rfl
      have named : IsName name.val := name.property
      have unrooted : (['/'].intercalate ((name :: names).map Subtype.val)).head? ≠ some '/' := by
        rw [List.map_cons]
        cases text : name.val with
        | nil => exact absurd text named.1
        | cons first rest =>
            rw [List.intercalate_cons_cons_left, List.head?_cons]
            intro same
            cases same
            have inside : '/' ∈ name.val := text ▸ List.mem_cons_self
            exact named.2.2.2.1 inside
      have relative : ((['/'].intercalate ((name :: names).map Subtype.val)).head? == some '/') =
          false := beq_eq_false_iff_ne.mpr unrooted
      unfold ofText
      rw [shown, split_names (List.cons_ne_nil name names), names_kept, relative]

/-- Leading slashes say nothing but that the path is from the root. -/
theorem parts_dropWhile (part : List Char) :
    (ofText (part.dropWhile fun char => char = '/')).parts = (ofText part).parts := by
  induction part with
  | nil => rfl
  | cons char rest ih =>
      by_cases slash : char = '/'
      · subst slash
        have split : ('/' :: rest).splitOn '/' = [] :: rest.splitOn '/' :=
          List.splitOn_cons_eq_if_modifyHead '/' rest
        have same : (ofText ('/' :: rest)).parts = (ofText rest).parts := by
          unfold ofText
          rw [split, List.filter_cons_of_neg (by simp)]
        rw [same, ← ih]
        rfl
      · rw [List.dropWhile_cons_of_neg (by simpa using slash)]

/-- A part without its leading slashes is not from the root. -/
theorem rooted_dropWhile (part : List Char) :
    (ofText (part.dropWhile fun char => char = '/')).rooted = false := by
  unfold ofText
  cases first : (part.dropWhile fun char => char = '/').head? with
  | none => rfl
  | some char =>
      have other := List.head?_dropWhile_not (fun char => decide (char = '/')) part
      rw [first] at other
      simp only at other
      simpa using other

theorem joinpath_sanitized (path : PurePath) (parts : List (List Char)) :
    path.joinpath (parts.filterMap sanitizedPart) =
      ⟨path.rooted, path.parts ++ parts.flatMap fun part => (ofText part).parts⟩ := by
  induction parts generalizing path with
  | nil =>
      rw [List.flatMap_nil, List.append_nil]
      rfl
  | cons part parts ih =>
      rw [List.flatMap_cons]
      by_cases empty : part = []
      · have dropped : sanitizedPart part = none := by
          unfold sanitizedPart
          rw [if_pos empty]
        rw [List.filterMap_cons_none dropped, ih, empty]
        rfl
      by_cases dot : part.dropWhile (fun char => char = '/') = ['.']
      · have dropped : sanitizedPart part = none := by
          unfold sanitizedPart
          rw [if_neg empty]
          simp only [dot, if_true]
        have nothing : (ofText part).parts = [] := by
          rw [← parts_dropWhile, dot]
          rfl
        rw [List.filterMap_cons_none dropped, ih, nothing, List.nil_append]
      · have kept : sanitizedPart part = some (part.dropWhile fun char => char = '/') := by
          unfold sanitizedPart
          rw [if_neg empty]
          simp only [dot, if_false]
        rw [List.filterMap_cons_some kept]
        have step : path.joinpath ((part.dropWhile fun char => char = '/') ::
            parts.filterMap sanitizedPart) =
            (PurePath.mk path.rooted (path.parts ++ (ofText part).parts)).joinpath
              (parts.filterMap sanitizedPart) := by
          unfold joinpath
          rw [List.foldl_cons, rooted_dropWhile, if_neg Bool.false_ne_true, parts_dropWhile]
        rw [step, ih, List.append_assoc]

end PurePath

namespace Surroundings

variable (surroundings : Surroundings)

/-- With every link followed the path stands at `last`. -/
def Locates (path : PurePath) (last : List Name) : Prop :=
  ∃ segments, path.parts.mapM segment? = some segments ∧
    Leads surroundings.files (if path.rooted then [] else surroundings.cwd) segments last

/-- From `root` the parts lead to `last`. -/
def Follows (root : List Name) (parts : List (List Char)) (last : List Name) : Prop :=
  ∃ segments, (parts.flatMap fun part => (PurePath.ofText part).parts).mapM segment? =
    some segments ∧ Leads surroundings.files root segments last

/-- The links met on the path do not lead around. -/
def Unlooped (path : PurePath) : Prop :=
  ∀ segments, path.parts.mapM segment? = some segments →
    ∃ last, Leads surroundings.files (if path.rooted then [] else surroundings.cwd) segments last

variable {surroundings} {path : PurePath} {last other root : List Name}

theorem Locates.unlooped (located : surroundings.Locates path last) :
    surroundings.Unlooped path := by
  obtain ⟨segments, read, leads⟩ := located
  intro segments' read'
  rw [read, Option.some.injEq] at read'
  subst read'
  exact ⟨last, leads⟩

theorem Locates.unique (one : surroundings.Locates path last)
    (two : surroundings.Locates path other) : last = other := by
  obtain ⟨segments, read, one⟩ := one
  obtain ⟨segments', read', two⟩ := two
  rw [read, Option.some.injEq] at read'
  subst read'
  exact one.unique two

theorem Locates.canonical (located : surroundings.Locates path last) :
    Canonical surroundings.files last := by
  obtain ⟨segments, _, leads⟩ := located
  apply leads.canonical
  split
  · exact canonical_root
  · exact surroundings.canonical

theorem resolve_of_locates (located : surroundings.Locates path last) :
    resolve surroundings path = .ok (.absolute last) := by
  obtain ⟨segments, read, leads⟩ := located
  unfold resolve
  simp only [read, realpath_eq_some.mpr leads]

/-- What a path without a loop resolves to: nothing but a NUL keeps it from a place. -/
theorem resolve_cases (unlooped : surroundings.Unlooped path) :
    (∃ last, surroundings.Locates path last ∧
      resolve surroundings path = .ok (.absolute last)) ∨
      resolve surroundings path = .error .embeddedNull ∧
        ∀ last, ¬surroundings.Locates path last := by
  cases read : path.parts.mapM segment? with
  | none =>
      refine .inr ⟨?_, ?_⟩
      · unfold resolve
        simp only [read]
      · rintro last ⟨segments, read', _⟩
        rw [read] at read'
        cases read'
  | some segments =>
      obtain ⟨last, leads⟩ := unlooped segments read
      have located : surroundings.Locates path last := ⟨segments, read, leads⟩
      exact .inl ⟨last, located, resolve_of_locates located⟩

theorem resolve_eq_ok (unlooped : surroundings.Unlooped path) {resolved : PurePath} :
    resolve surroundings path = .ok resolved ↔
      ∃ last, surroundings.Locates path last ∧ resolved = .absolute last := by
  constructor
  · intro resolves
    rcases resolve_cases unlooped with ⟨last, located, there⟩ | ⟨refused, _⟩
    · rw [resolves, Except.ok.injEq] at there
      exact ⟨last, located, there⟩
    · rw [resolves] at refused
      cases refused
  · rintro ⟨last, located, rfl⟩
    exact resolve_of_locates located

/-- What a path resolved to resolves to itself. -/
theorem locates_absolute (canonical : Canonical surroundings.files last) :
    surroundings.Locates (.absolute last) last := by
  refine ⟨last.map .name, segments_names last, ?_⟩
  have whole : Canonical surroundings.files ([] ++ last) := canonical
  exact whole.leads

/-- Parts joined to a resolved path are followed from there. -/
theorem locates_joined (canonical : Canonical surroundings.files root)
    {parts : List (List Char)} :
    surroundings.Locates ((PurePath.absolute root).joinpath (parts.filterMap sanitizedPart)) last ↔
      surroundings.Follows root parts last := by
  have joined : surroundings.Locates
      ((PurePath.absolute root).joinpath (parts.filterMap sanitizedPart)) last ↔
      ∃ segments, (root.map Subtype.val ++ parts.flatMap fun part =>
        (PurePath.ofText part).parts).mapM segment? = some segments ∧
        Leads surroundings.files [] segments last := by
    rw [PurePath.joinpath_sanitized]
    rfl
  rw [joined]
  constructor
  · rintro ⟨segments, read, leads⟩
    obtain ⟨front, back, first, second, rfl⟩ := mapM_append_eq_some.mp read
    rw [segments_names, Option.some.injEq] at first
    subst first
    exact ⟨back, second, canonical.leads_iff.mp leads⟩
  · rintro ⟨segments, read, leads⟩
    exact ⟨root.map .name ++ segments,
      mapM_append_eq_some.mpr ⟨_, _, segments_names root, read, rfl⟩,
      canonical.leads_iff.mpr leads⟩

end Surroundings

theorem relativeTo?_absolute {root last : List Name} :
    (PurePath.absolute last).relativeTo? (.absolute root) =
      if root <+: last then some ⟨false, (last.drop root.length).map Subtype.val⟩ else none := by
  have same : root.map Subtype.val <+: last.map Subtype.val ↔ root <+: last :=
    List.prefix_map_iff_of_injective Subtype.val_injective
  unfold PurePath.relativeTo? PurePath.absolute
  simp only [same, true_and, List.length_map, List.map_drop]

section Joining

variable {surroundings : Surroundings} {base path result : List Char}
variable {parts roots : List (List Char)} {root last : List Name}

/-- The base stands at `root`, and the parts lead on from there. -/
def Joined (surroundings : Surroundings) (base : List Char) (parts : List (List Char))
    (root last : List Name) : Prop :=
  surroundings.Locates (.ofText base) root ∧ surroundings.Follows root parts last

theorem Joined.unique {root' last' : List Name} (one : Joined surroundings base parts root last)
    (two : Joined surroundings base parts root' last') : root = root' ∧ last = last' := by
  obtain ⟨located, follows⟩ := one
  obtain ⟨located', follows'⟩ := two
  have same := located.unique located'
  subst same
  refine ⟨rfl, ?_⟩
  have canonical := located.canonical
  exact ((Surroundings.locates_joined canonical).mpr follows).unique
    ((Surroundings.locates_joined canonical).mpr follows')

/-- What a join whose parts can be resolved comes to. -/
theorem Joined.safeJoin (joined : Joined surroundings base parts root last) :
    safeJoin surroundings base parts =
      if root <+: last then .ok (PurePath.absolute last).str
      else .error (.traversal ("Path traversal detected: '".toList ++ ['/'].intercalate parts ++
        "' escapes base '".toList ++ base ++ "'".toList)) := by
  obtain ⟨located, follows⟩ := joined
  have there := (Surroundings.locates_joined located.canonical).mpr follows
  unfold Runtime.safeJoin
  rw [Surroundings.resolve_of_locates located, ok_bind, Surroundings.resolve_of_locates there,
    ok_bind, relativeTo?_absolute]
  split <;> simp_all

/-- No link met by the base or by the parts that follow it leads around. -/
structure Straight (surroundings : Surroundings) (base : List Char) (parts : List (List Char)) :
    Prop where
  unlooped : surroundings.Unlooped (.ofText base)
  onwards : ∀ root, surroundings.Locates (.ofText base) root →
    surroundings.Unlooped ((PurePath.absolute root).joinpath (parts.filterMap sanitizedPart))

/-- A join without loops resolves its parts, or they hold a NUL. -/
theorem Straight.cases (straight : Straight surroundings base parts) :
    (∃ root last, Joined surroundings base parts root last) ∨
      Runtime.safeJoin surroundings base parts = .error .embeddedNull ∧
        ∀ root last, ¬Joined surroundings base parts root last := by
  unfold Runtime.safeJoin
  rcases Surroundings.resolve_cases straight.unlooped with
    ⟨root, located, there⟩ | ⟨refused, nowhere⟩
  · rw [there, ok_bind]
    rcases Surroundings.resolve_cases (straight.onwards root located) with
      ⟨last, follows, _⟩ | ⟨refused, nowhere⟩
    · exact .inl ⟨root, last, located,
        (Surroundings.locates_joined located.canonical).mp follows⟩
    · rw [refused]
      refine .inr ⟨rfl, ?_⟩
      rintro root' last ⟨located', follows⟩
      have same := located'.unique located
      subst same
      exact nowhere last ((Surroundings.locates_joined located.canonical).mpr follows)
  · rw [refused]
    exact .inr ⟨rfl, fun root _ joined => nowhere root joined.1⟩

theorem safeJoin_of_inside (joined : Joined surroundings base parts root last)
    (inside : root <+: last) :
    safeJoin surroundings base parts = .ok (PurePath.absolute last).str := by
  rw [joined.safeJoin, if_pos inside]

theorem safeJoin_eq_ok (straight : Straight surroundings base parts) :
    safeJoin surroundings base parts = .ok result ↔
      ∃ root last, Joined surroundings base parts root last ∧ root <+: last ∧
        result = (PurePath.absolute last).str := by
  constructor
  · intro joins
    rcases straight.cases with ⟨root, last, joined⟩ | ⟨refused, _⟩
    · rw [joined.safeJoin] at joins
      split at joins
      · rename_i inside
        exact ⟨root, last, joined, inside, (Except.ok.inj joins).symm⟩
      · cases joins
    · rw [joins] at refused
      cases refused
  · rintro ⟨root, last, joined, inside, rfl⟩
    exact safeJoin_of_inside joined inside

theorem safeJoin_eq_traversal (straight : Straight surroundings base parts) :
    (∃ message, safeJoin surroundings base parts = .error (.traversal message)) ↔
      ∃ root last, Joined surroundings base parts root last ∧ ¬root <+: last := by
  constructor
  · rintro ⟨message, joins⟩
    rcases straight.cases with ⟨root, last, joined⟩ | ⟨refused, _⟩
    · rw [joined.safeJoin] at joins
      split at joins
      · cases joins
      · rename_i outside
        exact ⟨root, last, joined, outside⟩
    · rw [joins] at refused
      cases refused
  · rintro ⟨root, last, joined, outside⟩
    exact ⟨_, by rw [joined.safeJoin, if_neg outside]⟩

/-- A place under the root is joined again by its names. -/
theorem joined_names {names : List Name} (located : surroundings.Locates (.ofText base) root)
    (canonical : Paths.Canonical surroundings.files (root ++ names)) :
    Joined surroundings base [(PurePath.mk false (names.map Subtype.val)).str] root
      (root ++ names) := by
  refine ⟨located, names.map .name, ?_, canonical.leads⟩
  rw [List.flatMap_singleton, PurePath.ofText_relative]
  exact segments_names names

end Joining

section Checking

variable {surroundings : Surroundings} {path base result : List Char}
variable {parts roots : List (List Char)} {root last : List Name}

/-- The path is seen to stand under the base. -/
def Under (surroundings : Surroundings) (path base : List Char) (last root : List Name) : Prop :=
  surroundings.Locates (.ofText path) last ∧ surroundings.Locates (.ofText base) root ∧
    root <+: last

theorem Under.resolveRelative (under : Under surroundings path base last root) :
    resolveRelative surroundings path base =
      .ok (some ⟨false, (last.drop root.length).map Subtype.val⟩) := by
  obtain ⟨located, located', inside⟩ := under
  unfold Runtime.resolveRelative
  rw [Surroundings.resolve_of_locates located, ok_bind, Surroundings.resolve_of_locates located',
    ok_bind, relativeTo?_absolute, if_pos inside]

theorem Under.isSafePath (under : Under surroundings path base last root) :
    isSafePath surroundings path base = .ok true := by
  unfold Runtime.isSafePath
  rw [under.resolveRelative]
  rfl

theorem isSafePath_eq_true (unlooped : surroundings.Unlooped (.ofText path))
    (baseUnlooped : surroundings.Unlooped (.ofText base)) :
    isSafePath surroundings path base = .ok true ↔
      ∃ last root, Under surroundings path base last root := by
  constructor
  · intro safe
    unfold isSafePath resolveRelative at safe
    rcases Surroundings.resolve_cases unlooped with ⟨last, located, there⟩ | ⟨refused, _⟩
    · rw [there, ok_bind] at safe
      rcases Surroundings.resolve_cases baseUnlooped with ⟨root, located', there'⟩ | ⟨refused, _⟩
      · rw [there', ok_bind, relativeTo?_absolute] at safe
        by_cases inside : root <+: last
        · exact ⟨last, root, located, located', inside⟩
        · rw [if_neg inside] at safe
          cases safe
      · rw [refused] at safe
        cases safe
    · rw [refused] at safe
      cases safe
  · rintro ⟨last, root, under⟩
    exact under.isSafePath

/-- Some root has the path under it, and all the roots before it are resolved. -/
def Allowed (surroundings : Surroundings) (last : List Name) (roots : List (List Char)) : Prop :=
  ∃ before root after place, roots = before ++ root :: after ∧
    surroundings.Locates (.ofText root) place ∧ place <+: last ∧
    ∀ earlier ∈ before, ∃ place, surroundings.Locates (.ofText earlier) place

theorem underAny_eq_true (unlooped : ∀ root ∈ roots, surroundings.Unlooped (.ofText root)) :
    underAny surroundings (.absolute last) roots = .ok true ↔
    Allowed surroundings last roots := by
  induction roots with
  | nil =>
      constructor
      · intro same
        cases same
      · rintro ⟨before, root, after, _, same, _⟩
        cases before <;> cases same
  | cons first roots ih =>
      replace ih := ih fun root member => unlooped root (List.mem_cons_of_mem first member)
      constructor
      · intro tried
        unfold underAny at tried
        obtain ⟨resolved, resolves, tried⟩ := bind_eq_ok.mp tried
        obtain ⟨place, located, rfl⟩ :=
          (Surroundings.resolve_eq_ok (unlooped first List.mem_cons_self)).mp resolves
        rw [relativeTo?_absolute] at tried
        by_cases inside : place <+: last
        · exact ⟨[], first, roots, place, rfl, located, inside,
            fun _ member => absurd member List.not_mem_nil⟩
        · simp only [if_neg inside] at tried
          obtain ⟨before, root, after, found, rfl, there, under, earlier⟩ := ih.mp tried
          refine ⟨first :: before, root, after, found, rfl, there, under, ?_⟩
          intro other member
          rcases List.mem_cons.mp member with rfl | member
          · exact ⟨place, located⟩
          · exact earlier other member
      · rintro ⟨before, root, after, place, same, there, under, earlier⟩
        have tries : ∀ stands : List Name, surroundings.Locates (.ofText first) stands →
            (stands <+: last ∨ underAny surroundings (.absolute last) roots = .ok true) →
            underAny surroundings (.absolute last) (first :: roots) = .ok true := by
          intro stands located either
          unfold underAny
          refine bind_eq_ok.mpr ⟨_, Surroundings.resolve_of_locates located, ?_⟩
          rw [relativeTo?_absolute]
          by_cases inside : stands <+: last
          · simp only [if_pos inside]
          · simp only [if_neg inside]
            exact either.resolve_left inside
        cases before with
        | nil =>
            cases same
            exact tries place there (.inl under)
        | cons _ before =>
            cases same
            obtain ⟨stands, located⟩ := earlier first List.mem_cons_self
            apply tries stands located
            refine .inr (ih.mpr ⟨before, root, after, place, rfl, there, under, ?_⟩)
            exact fun other member => earlier other (List.mem_cons_of_mem _ member)

theorem validateModelPath_eq_ok {allowedRoots : Option (List (List Char))} {mustExist : Bool}
    (unlooped : surroundings.Unlooped (.ofText path))
    (rootsUnlooped : ∀ root ∈ allowedRoots.getD [], surroundings.Unlooped (.ofText root)) :
    validateModelPath surroundings path allowedRoots mustExist = .ok result ↔
      ∃ last, surroundings.Locates (.ofText path) last ∧
        (∀ roots, allowedRoots = some roots → roots ≠ [] → Allowed surroundings last roots) ∧
        (mustExist = true → surroundings.existing (.absolute last) = true) ∧
        result = (PurePath.absolute last).str := by
  have checks : ∀ last : List Name,
      isAllowed surroundings (.absolute last) allowedRoots = .ok true ↔
      ∀ roots, allowedRoots = some roots → roots ≠ [] → Allowed surroundings last roots := by
    intro last
    rcases allowedRoots with _ | _ | ⟨root, roots⟩
    · simp [isAllowed]
    · simp [isAllowed]
    · have tried : underAny surroundings (.absolute last) (root :: roots) = .ok true ↔
          Allowed surroundings last (root :: roots) := underAny_eq_true rootsUnlooped
      simp [isAllowed, tried]
  unfold validateModelPath
  rw [bind_eq_ok]
  constructor
  · rintro ⟨resolved, resolves, rest⟩
    obtain ⟨last, located, rfl⟩ := (Surroundings.resolve_eq_ok unlooped).mp resolves
    obtain ⟨allowed, checked, rest⟩ := bind_eq_ok.mp rest
    cases allowed with
    | false => cases rest
    | true =>
        simp only [Bool.not_true, Bool.false_eq_true, if_false] at rest
        split at rest
        · cases rest
        · rename_i exists'
          refine ⟨last, located, (checks last).mp checked, ?_, (Except.ok.inj rest).symm⟩
          intro must
          simpa [must] using exists'
  · rintro ⟨last, located, allowed, exists', rfl⟩
    refine ⟨_, Surroundings.resolve_of_locates located, bind_eq_ok.mpr ?_⟩
    refine ⟨true, (checks last).mpr allowed, ?_⟩
    have present : (mustExist && !surroundings.existing (.absolute last)) = false := by
      cases mustExist with
      | false => rfl
      | true => simp [exists' rfl]
    simp [present]

/-- One root allows what is under it. -/
theorem allowed_singleton : Allowed surroundings last [base] ↔
    ∃ root, surroundings.Locates (.ofText base) root ∧ root <+: last := by
  constructor
  · rintro ⟨before, root, after, place, same, there, under, _⟩
    cases before with
    | nil =>
        cases same
        exact ⟨place, there, under⟩
    | cons _ before => cases before <;> cases same
  · rintro ⟨root, there, under⟩
    exact ⟨[], base, [], root, rfl, there, under, fun _ member => absurd member List.not_mem_nil⟩

theorem Under.validateModelPath (under : Under surroundings path base last root) :
    validateModelPath surroundings path (some [base]) false = .ok (PurePath.absolute last).str := by
  obtain ⟨located, located', inside⟩ := under
  have rootsUnlooped : ∀ root ∈ (some [base]).getD [], surroundings.Unlooped (.ofText root) := by
    simpa using located'.unlooped
  apply (validateModelPath_eq_ok located.unlooped rootsUnlooped).mpr
  refine ⟨last, located, ?_, Bool.false_ne_true.elim, rfl⟩
  intro roots given _
  cases given
  exact allowed_singleton.mpr ⟨root, located', inside⟩

theorem Under.getRelativePath (under : Under surroundings path base last root) :
    getRelativePath surroundings path base =
      .ok (PurePath.mk false ((last.drop root.length).map Subtype.val)).str := by
  unfold Runtime.getRelativePath
  rw [under.resolveRelative]

/-- The relative path joined to the base is the path again. -/
theorem Under.rejoined (under : Under surroundings path base last root) {relative : List Char}
    (shown : Runtime.getRelativePath surroundings path base = .ok relative) :
    safeJoin surroundings base [relative] = .ok (PurePath.absolute last).str := by
  rw [under.getRelativePath] at shown
  obtain ⟨located, located', inside⟩ := under
  obtain ⟨names, rfl⟩ := inside
  rw [List.drop_left] at shown
  cases shown
  exact safeJoin_of_inside (joined_names located' located.canonical)
    (List.prefix_append root names)

end Checking

/-- What a join of these parts to this base comes to. -/
structure SafelyJoined (surroundings : Surroundings) (base : List Char) (parts : List (List Char)) :
    Prop where
  returns : ∀ result, safeJoin surroundings base parts = .ok result ↔
    ∃ root last, Joined surroundings base parts root last ∧ root <+: last ∧
      result = (PurePath.absolute last).str
  refuses : (∃ message, safeJoin surroundings base parts = .error (.traversal message)) ↔
    ∃ root last, Joined surroundings base parts root last ∧ ¬root <+: last
  stays : ∀ result, safeJoin surroundings base parts = .ok result →
    ∃ root last, Under surroundings result base last root ∧
      PurePath.ofText result = .absolute last ∧ Canonical surroundings.files last
  agreed : ∀ result, safeJoin surroundings base parts = .ok result →
    isSafePath surroundings result base = .ok true ∧
      validateModelPath surroundings result (some [base]) false = .ok result

/-- Without loops a join ends under its base or is refused. -/
theorem joins_stay_under_their_base (surroundings : Surroundings) (base : List Char)
    (parts : List (List Char)) (straight : Straight surroundings base parts) :
    SafelyJoined surroundings base parts := by
  have stays : ∀ result, safeJoin surroundings base parts = .ok result →
      ∃ root last, Under surroundings result base last root ∧
        PurePath.ofText result = .absolute last ∧ Canonical surroundings.files last := by
    intro result joins
    obtain ⟨root, last, ⟨located, follows⟩, inside, rfl⟩ := (safeJoin_eq_ok straight).mp joins
    have there := (Surroundings.locates_joined located.canonical).mpr follows
    have again : surroundings.Locates (.ofText (PurePath.absolute last).str) last := by
      rw [PurePath.ofText_absolute]
      exact Surroundings.locates_absolute there.canonical
    exact ⟨root, last, ⟨again, located, inside⟩, PurePath.ofText_absolute last, there.canonical⟩
  refine ⟨fun _ => safeJoin_eq_ok straight, safeJoin_eq_traversal straight, stays, ?_⟩
  intro result joins
  obtain ⟨root, last, under, same, _⟩ := stays result joins
  obtain ⟨_, last', _, _, shown⟩ := (safeJoin_eq_ok straight).mp joins
  have known : last' = last := by
    rw [shown, PurePath.ofText_absolute] at same
    have names := congrArg PurePath.parts same
    exact List.map_injective_iff.mpr Subtype.val_injective names
  subst known
  refine ⟨under.isSafePath, ?_⟩
  rw [under.validateModelPath, ← shown]

/-- The links `/srv/out` to `/etc` and `/srv/in` to `data`. -/
def Sample.linked : Surroundings where
  files := ⟨[([⟨"srv".toList, by decide⟩, ⟨"out".toList, by decide⟩],
      ⟨true, [.name ⟨"etc".toList, by decide⟩]⟩),
    ([⟨"srv".toList, by decide⟩, ⟨"in".toList, by decide⟩],
      ⟨false, [.name ⟨"data".toList, by decide⟩]⟩)]⟩
  cwd := []
  canonical := canonical_root
  existing := fun _ => true
  astray := fun _ => .error .symlinkLoop

example : safeJoin Sample.linked "/srv".toList ["out/passwd".toList] =
    .error (.traversal
      "Path traversal detected: 'out/passwd' escapes base '/srv'".toList) := by decide

theorem Sample.srv : Sample.linked.Locates (.ofText "/srv".toList)
    [⟨"srv".toList, by decide⟩] :=
  ⟨[.name ⟨"srv".toList, by decide⟩], by decide, realpath_eq_some.mp (by decide)⟩

theorem Sample.straight : Straight Sample.linked "/srv".toList ["in/model".toList] where
  unlooped := Sample.srv.unlooped
  onwards root located := by
    have same := located.unique Sample.srv
    subst same
    have there : Sample.linked.Locates ((PurePath.absolute [⟨"srv".toList, by decide⟩]).joinpath
        (["in/model".toList].filterMap sanitizedPart))
        [⟨"srv".toList, by decide⟩, ⟨"data".toList, by decide⟩, ⟨"model".toList, by decide⟩] :=
      ⟨[.name ⟨"srv".toList, by decide⟩, .name ⟨"in".toList, by decide⟩,
        .name ⟨"model".toList, by decide⟩], by decide, realpath_eq_some.mp (by decide)⟩
    exact there.unlooped

/-- The parts lead over a link. -/
theorem joins_stay_under_their_base_linked :
    SafelyJoined Sample.linked "/srv".toList ["in/model".toList] ∧
      safeJoin Sample.linked "/srv".toList ["in/model".toList] = .ok "/srv/data/model".toList :=
  ⟨joins_stay_under_their_base _ _ _ Sample.straight, by decide⟩

/-- What the checks of a path say of each other. -/
structure ChecksAgree (surroundings : Surroundings) (path base : List Char) : Prop where
  safe : isSafePath surroundings path base = .ok true ↔
    ∃ last root, Under surroundings path base last root
  validated : ∀ roots mustExist result,
    (∀ root ∈ roots, surroundings.Unlooped (.ofText root)) →
    (validateModelPath surroundings path (some (base :: roots)) mustExist = .ok result ↔
      ∃ last, surroundings.Locates (.ofText path) last ∧
        Allowed surroundings last (base :: roots) ∧
        (mustExist = true → surroundings.existing (.absolute last) = true) ∧
        result = (PurePath.absolute last).str)
  same : isSafePath surroundings path base = .ok true ↔
    ∃ result, validateModelPath surroundings path (some [base]) false = .ok result
  rejoined : isSafePath surroundings path base = .ok true →
    ∃ relative result, getRelativePath surroundings path base = .ok relative ∧
      validateModelPath surroundings path (some [base]) false = .ok result ∧
      safeJoin surroundings base [relative] = .ok result

/-- The checks agree, and what is safe can be taken apart and joined again. -/
theorem path_checks_agree (surroundings : Surroundings) (path base : List Char)
    (unlooped : surroundings.Unlooped (.ofText path))
    (baseUnlooped : surroundings.Unlooped (.ofText base)) :
    ChecksAgree surroundings path base := by
  constructor
  · exact isSafePath_eq_true unlooped baseUnlooped
  · intro roots mustExist result rootsUnlooped
    have all : ∀ root ∈ (some (base :: roots)).getD [], surroundings.Unlooped (.ofText root) := by
      simpa using And.intro baseUnlooped rootsUnlooped
    rw [validateModelPath_eq_ok unlooped all]
    simp
  · rw [isSafePath_eq_true unlooped baseUnlooped]
    constructor
    · rintro ⟨last, root, under⟩
      exact ⟨_, under.validateModelPath⟩
    · rintro ⟨result, validated⟩
      have only : ∀ root ∈ (some [base]).getD [], surroundings.Unlooped (.ofText root) := by
        simpa using baseUnlooped
      obtain ⟨last, located, allowed, _⟩ := (validateModelPath_eq_ok unlooped only).mp validated
      obtain ⟨root, located', inside⟩ :=
        allowed_singleton.mp (allowed [base] rfl (List.cons_ne_nil _ _))
      exact ⟨last, root, located, located', inside⟩
  · intro safe
    obtain ⟨last, root, under⟩ := (isSafePath_eq_true unlooped baseUnlooped).mp safe
    exact ⟨_, _, under.getRelativePath, under.validateModelPath,
      under.rejoined under.getRelativePath⟩

/-- The path goes over a link, and back up. -/
theorem path_checks_agree_linked :
    ChecksAgree Sample.linked "/srv/in/../in/model".toList "/srv".toList ∧
      getRelativePath Sample.linked "/srv/in/../in/model".toList "/srv".toList =
        .ok "data/model".toList := by
  have located : Sample.linked.Locates (.ofText "/srv/in/../in/model".toList)
      [⟨"srv".toList, by decide⟩, ⟨"data".toList, by decide⟩, ⟨"model".toList, by decide⟩] :=
    ⟨[.name ⟨"srv".toList, by decide⟩, .name ⟨"in".toList, by decide⟩, .up,
      .name ⟨"in".toList, by decide⟩, .name ⟨"model".toList, by decide⟩], by decide,
      realpath_eq_some.mp (by decide)⟩
  exact ⟨path_checks_agree _ _ _ located.unlooped Sample.srv.unlooped, by decide⟩

end CyreneReactor.Runtime
