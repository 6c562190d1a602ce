import Mathlib.Data.List.TakeWhile

namespace Url

/-! `urlsplit` of Python's `urllib.parse`: where an URL goes is its scheme and its
network location.
-/

/-- What is asked of a network location with brackets, and of any one. -/
structure Rules where
  checkBracketed : List Char → Bool
  checkNetloc : List Char → Bool

structure Split where
  scheme : List Char
  netloc : List Char
  path : List Char
  query : List Char
  fragment : List Char

def isC0OrSpace (char : Char) : Bool := char.toNat ≤ 32

def isUnsafe (char : Char) : Bool := char == '\t' || char == '\r' || char == '\n'

/-- Without leading controls and spaces, and without tabs and line ends anywhere. -/
def clean (url : List Char) : List Char :=
  (url.dropWhile isC0OrSpace).filter fun char => !isUnsafe char

def isSchemeChar (char : Char) : Bool := char.isAlphanum || ['+', '-', '.'].contains char

/-- A text that can stand before the first colon as the scheme. -/
def isScheme : List Char → Bool
  | [] => false
  | first :: rest => first.isAlpha && (first :: rest).all isSchemeChar

/-- The scheme in lower case, and what follows its colon. -/
def splitScheme (url : List Char) : List Char × List Char :=
  match url.dropWhile (· != ':') with
  | [] => ([], url)
  | _ :: after =>
      let before := url.takeWhile (· != ':')
      if isScheme before then (before.map Char.toLower, after) else ([], url)

def isDelimiter (char : Char) : Bool := char == '/' || char == '?' || char == '#'

/-- `_splitnetloc`, after two slashes. -/
def splitNetloc : List Char → List Char × List Char
  | '/' :: '/' :: rest =>
      (rest.takeWhile fun char => !isDelimiter char, rest.dropWhile fun char => !isDelimiter char)
  | url => ([], url)

def Rules.admits (rules : Rules) (netloc : List Char) : Bool :=
  (netloc.contains '[' == netloc.contains ']') &&
    (!netloc.contains '[' || rules.checkBracketed netloc) && rules.checkNetloc netloc

/-- `text.split(mark, 1)`, with nothing after a mark that is not there. -/
def cut (mark : Char) (text : List Char) : List Char × List Char :=
  (text.takeWhile (· != mark), (text.dropWhile (· != mark)).drop 1)

def urlsplit (rules : Rules) (url : String) : Option Split :=
  let schemed := splitScheme (clean url.toList)
  let located := splitNetloc schemed.2
  if rules.admits located.1 then
    let fragmented := cut '#' located.2
    let queried := cut '?' fragmented.1
    some ⟨schemed.1, located.1, queried.1, queried.2, fragmented.2⟩
  else none

namespace Split

variable (split : Split)

/-- `netloc.rpartition("@")` -/
def userinfo : List Char := ((split.netloc.reverse.dropWhile (· != '@')).drop 1).reverse

def hostinfo : List Char := (split.netloc.reverse.takeWhile (· != '@')).reverse

def username : List Char := (cut ':' split.userinfo).1

def password : List Char := (cut ':' split.userinfo).2

/-- The host in lower case, but for a zone. -/
def hostname : List Char :=
  let name :=
    match split.hostinfo.dropWhile (· != '[') with
    | _ :: bracketed => (cut ']' bracketed).1
    | [] => (cut ':' split.hostinfo).1
  (name.takeWhile (· != '%')).map Char.toLower ++ name.dropWhile (· != '%')

def origin : List Char × List Char := (split.scheme, split.netloc)

end Split

/-- Where an URL goes; `urlsplit` raises where there is none. -/
def origin (rules : Rules) (url : String) : Option (List Char × List Char) :=
  (urlsplit rules url).map Split.origin

/-- `url.rstrip("/")` -/
def rstrip (url : String) : String :=
  String.ofList (url.toList.reverse.dropWhile (· == '/')).reverse

section Located

variable {url tail scheme netloc before after : List Char}

/-- The parts of an URL up to its network location. -/
structure Located (url before netloc after : List Char) : Prop where
  same : clean url = before ++ ':' :: '/' :: '/' :: (netloc ++ after)
  schemed : isScheme before = true
  plain : ∀ char ∈ netloc, isDelimiter char = false
  delimited : ∀ char ∈ after.head?, isDelimiter char = true

theorem no_colon (schemed : isScheme before = true) : ∀ char ∈ before, (char != ':') = true := by
  intro char member
  cases before with
  | nil => cases schemed
  | cons first rest =>
      simp only [isScheme, Bool.and_eq_true, List.all_eq_true] at schemed
      have allowed := schemed.2 char member
      simp only [bne_iff_ne]
      intro same
      subst same
      exact absurd allowed (by decide)

theorem splitScheme_of_schemed (schemed : isScheme before = true) :
    splitScheme (before ++ ':' :: after) = (before.map Char.toLower, after) := by
  have plain := no_colon schemed
  simp [splitScheme, List.dropWhile_append_of_pos plain, List.takeWhile_append_of_pos plain,
    schemed]

theorem splitNetloc_of_plain (plain : ∀ char ∈ netloc, isDelimiter char = false)
    (delimited : ∀ char ∈ after.head?, isDelimiter char = true) :
    splitNetloc ('/' :: '/' :: (netloc ++ after)) = (netloc, after) := by
  have inside : ∀ char ∈ netloc, (!isDelimiter char) = true := fun char member => by
    simp [plain char member]
  simp only [splitNetloc, List.takeWhile_append_of_pos inside, List.dropWhile_append_of_pos inside]
  cases after with
  | nil => simp
  | cons first rest => simp [delimited first rfl]

/-- What is located goes to its scheme and its network location. -/
theorem Located.parts (located : Located url before netloc after) :
    (splitScheme (clean url)).1 = before.map Char.toLower ∧
      (splitNetloc (splitScheme (clean url)).2).1 = netloc := by
  rw [located.same, splitScheme_of_schemed located.schemed]
  exact ⟨rfl, by rw [splitNetloc_of_plain located.plain located.delimited]⟩

/-- What `urlsplit` makes of a located URL. -/
theorem Located.urlsplit {rules : Rules} {text : String}
    (located : Located text.toList before netloc after) :
    urlsplit rules text =
      if rules.admits netloc then
        some ⟨before.map Char.toLower, netloc, (cut '?' (cut '#' after).1).1,
          (cut '?' (cut '#' after).1).2, (cut '#' after).2⟩
      else none := by
  simp only [Url.urlsplit, located.same, splitScheme_of_schemed located.schemed,
    splitNetloc_of_plain located.plain located.delimited]

theorem mem_clean {char : Char} (visible : isC0OrSpace char = false) (safe : isUnsafe char = false) :
    char ∈ clean url ↔ char ∈ url := by
  have parts := List.takeWhile_append_dropWhile (p := isC0OrSpace) (l := url)
  have leading : char ∉ url.takeWhile isC0OrSpace := by
    intro member
    rw [List.mem_takeWhile_imp member] at visible
    cases visible
  have either : char ∈ url ↔ char ∈ url.takeWhile isC0OrSpace ∨ char ∈ url.dropWhile isC0OrSpace := by
    rw [← List.mem_append, parts]
  rw [clean, List.mem_filter, safe, either]
  simp [leading]

theorem mem_schemed {char : Char} (schemed : isScheme before = true)
    (other : isSchemeChar char = false) : char ∉ before := by
  intro member
  cases before with
  | nil => cases member
  | cons first rest =>
      simp only [isScheme, Bool.and_eq_true, List.all_eq_true] at schemed
      rw [schemed.2 char member] at other
      cases other

/-- An URL with a scheme has a colon behind it. -/
theorem schemed_of_parts (schemed : (splitScheme (clean url)).1 ≠ []) :
    ∃ before rest, clean url = before ++ ':' :: rest ∧ isScheme before = true := by
  have parts := List.takeWhile_append_dropWhile (p := (· != ':')) (l := clean url)
  unfold splitScheme at schemed
  cases colon : (clean url).dropWhile (· != ':') with
  | nil => simp [colon] at schemed
  | cons mark rest =>
      simp only [colon] at schemed
      split at schemed
      · rename_i valid
        have isColon : mark = ':' := by
          have first := List.head?_dropWhile_not (· != ':') (clean url)
          simpa [colon] using first
        subst isColon
        exact ⟨_, rest, by rw [← colon, parts], valid⟩
      · exact absurd rfl schemed

/-- An URL with a scheme and a network location is located. -/
theorem located_of_parts (schemed : (splitScheme (clean url)).1 ≠ [])
    (placed : (splitNetloc (splitScheme (clean url)).2).1 ≠ []) :
    ∃ before netloc after, Located url before netloc after ∧ netloc ≠ [] := by
  obtain ⟨before, rest, same, valid⟩ := schemed_of_parts schemed
  rw [same, splitScheme_of_schemed valid] at placed
  simp only at placed
  unfold splitNetloc at placed
  split at placed
  · rename_i inner
    refine ⟨before, inner.takeWhile fun char => !isDelimiter char,
      inner.dropWhile fun char => !isDelimiter char, ⟨?_, valid, ?_, ?_⟩, placed⟩
    · rw [List.takeWhile_append_dropWhile, same]
    · intro char member
      simpa using List.mem_takeWhile_imp member
    · intro char first
      have stops := List.head?_dropWhile_not (fun char => !isDelimiter char) inner
      rw [Option.mem_def.mp first] at stops
      simpa using stops
  · exact absurd rfl placed

theorem clean_append (some : clean url ≠ []) :
    clean (url ++ tail) = clean url ++ tail.filter fun char => !isUnsafe char := by
  have rest : url.dropWhile isC0OrSpace ≠ [] := fun none => some (by simp [clean, none])
  simp [clean, List.dropWhile_append, rest]

theorem Located.clean_ne_nil (located : Located url before netloc after) : clean url ≠ [] := by
  rw [located.same]
  simp

/-- A path after an URL does not change where it goes. -/
theorem Located.append (located : Located url before netloc after) :
    ∃ longer, Located (url ++ '/' :: tail) before netloc longer := by
  refine ⟨after ++ '/' :: tail.filter fun char => !isUnsafe char, ?_, located.schemed,
    located.plain, ?_⟩
  · rw [clean_append located.clean_ne_nil, located.same]
    simp [isUnsafe]
  · cases after with
    | nil => simp [isDelimiter]
    | cons first rest => simpa using located.delimited first rfl

theorem Located.drop_slash (located : Located (url ++ ['/']) before netloc after)
    (some : netloc ≠ []) : ∃ shorter, Located url before netloc shorter := by
  have nonempty : clean url ≠ [] := by
    intro none
    have same := located.same
    have short : (clean (url ++ ['/'])).length ≤ 1 := by
      by_cases rest : url.dropWhile isC0OrSpace = []
      · simp only [clean, List.dropWhile_append, rest, List.isEmpty_nil, if_true]
        exact Nat.le_trans (List.length_filter_le _ _) (List.dropWhile_suffix _).length_le
      · have mine : (url.dropWhile isC0OrSpace).filter (fun char => !isUnsafe char) = [] := none
        simp only [clean, List.dropWhile_append, List.isEmpty_iff, rest, if_false,
          List.filter_append, mine]
        decide
    rw [same] at short
    simp at short
    omega
  have same := located.same
  rw [clean_append nonempty, show ['/'].filter (fun char => !isUnsafe char) = ['/'] by decide] at same
  rcases List.eq_nil_or_concat after with rfl | ⟨shorter, last, rfl⟩
  · obtain ⟨front, last, rfl⟩ := (List.eq_nil_or_concat netloc).resolve_left some
    have ends : clean url ++ ['/'] =
        (before ++ ':' :: '/' :: '/' :: front) ++ [last] := by simpa using same
    have slash := (List.append_inj' ends rfl).2
    have plain := located.plain last (by simp)
    rw [← (List.cons.inj slash).1] at plain
    cases plain
  · have ends : clean url ++ ['/'] =
        (before ++ ':' :: '/' :: '/' :: (netloc ++ shorter)) ++ [last] := by simpa using same
    refine ⟨shorter, (List.append_inj' ends rfl).1, located.schemed, located.plain, ?_⟩
    intro char first
    exact located.delimited char (by cases shorter <;> simp_all)

theorem Located.drop_slashes {count : Nat} (some : netloc ≠ [])
    (located : Located (url ++ List.replicate count '/') before netloc after) :
    ∃ shorter, Located url before netloc shorter := by
  induction count generalizing after with
  | zero => exact ⟨after, by simpa using located⟩
  | succ count ih =>
      rw [List.replicate_succ', ← List.append_assoc] at located
      obtain ⟨shorter, shorterLocated⟩ := located.drop_slash some
      exact ih shorterLocated

theorem rstrip_slashes (url : String) :
    ∃ count, url.toList = (rstrip url).toList ++ List.replicate count '/' := by
  have parts := List.takeWhile_append_dropWhile (p := (· == '/')) (l := url.toList.reverse)
  have slashes : url.toList.reverse.takeWhile (· == '/') =
      List.replicate (url.toList.reverse.takeWhile (· == '/')).length '/' :=
    List.eq_replicate_iff.mpr ⟨rfl, fun char member => by simpa using List.mem_takeWhile_imp member⟩
  refine ⟨(url.toList.reverse.takeWhile (· == '/')).length, ?_⟩
  rw [rstrip, String.toList_ofList, ← List.reverse_replicate, ← slashes, ← List.reverse_append, parts,
    List.reverse_reverse]

/-- A path behind an URL without a network location gives it none, once the slashes at the
end of the URL are dropped. -/
theorem splitNetloc_hostless {front tail : List Char} {count : Nat} {first : Char}
    (hostless : (splitNetloc (front ++ List.replicate count '/')).1 = [])
    (stripped : front.getLast? ≠ some '/') (names : first ≠ '/') :
    (splitNetloc (front ++ '/' :: first :: tail)).1 = [] := by
  rcases front with _ | ⟨one, _ | ⟨two, rest⟩⟩
  · simp [splitNetloc, names]
  · have other : one ≠ '/' := fun slash => stripped (by rw [slash]; rfl)
    simp [splitNetloc, other]
  · by_cases slashes : one = '/' ∧ two = '/'
    · obtain ⟨rfl, rfl⟩ := slashes
      cases rest with
      | nil => exact absurd rfl stripped
      | cons next rest =>
          simp only [List.cons_append, splitNetloc] at hostless ⊢
          cases delimits : isDelimiter next with
          | true => simp [delimits]
          | false => simp [delimits] at hostless
    · have other : ∀ rest : List Char, (splitNetloc (one :: two :: rest)).1 = [] := by
        intro rest
        unfold splitNetloc
        split
        · rename_i same
          cases same
          exact absurd ⟨rfl, rfl⟩ slashes
        · rfl
      exact other _

theorem rstrip_getLast? (url : String) : (rstrip url).toList.getLast? ≠ some '/' := by
  have other := List.head?_dropWhile_not (· == '/') url.toList.reverse
  rw [rstrip, String.toList_ofList, List.getLast?_reverse]
  intro same
  rw [same] at other
  cases other

theorem clean_of_safe (safe : ∀ char ∈ url, isUnsafe char = false) :
    clean url = url.dropWhile isC0OrSpace := by
  apply List.filter_eq_self.mpr
  intro char member
  simp [safe char (List.dropWhile_suffix _ |>.mem member)]

/-- The scheme of an URL stands before the slashes at its end. -/
theorem schemed_of_slashes {front rest : List Char} {count : Nat}
    (same : clean (front ++ List.replicate count '/') = before ++ ':' :: rest) :
    ∃ inner, clean front = before ++ ':' :: inner ∧ rest = inner ++ List.replicate count '/' := by
  have other : ':' ∉ List.replicate count '/' := fun member => by
    cases List.eq_of_mem_replicate member
  have colon : ':' ∈ clean front := by
    have member : ':' ∈ clean (front ++ List.replicate count '/') := by
      rw [same]
      simp
    rw [mem_clean rfl rfl] at member ⊢
    exact (List.mem_append.mp member).resolve_right other
  have kept : (List.replicate count '/').filter (fun char => !isUnsafe char) =
      List.replicate count '/' :=
    List.filter_eq_self.mpr fun char member => by rw [List.eq_of_mem_replicate member]; rfl
  rw [clean_append (List.ne_nil_of_mem colon), kept] at same
  rcases List.append_eq_append_iff.mp same with ⟨more, _, slashes⟩ | ⟨inner, parts, behind⟩
  · exact absurd (slashes ▸ List.mem_append_right more List.mem_cons_self) other
  · cases inner with
    | nil =>
        rw [List.nil_append] at behind
        exact absurd (behind ▸ List.mem_cons_self) other
    | cons mark inner =>
        obtain ⟨rfl, rfl⟩ := List.cons.inj behind
        exact ⟨inner, parts, rfl⟩

end Located

section Origin

variable {rules : Rules} {url : String}

theorem origin_eq (rules : Rules) (url : String) : origin rules url =
    if rules.admits (splitNetloc (splitScheme (clean url.toList)).2).1 then
      some ((splitScheme (clean url.toList)).1, (splitNetloc (splitScheme (clean url.toList)).2).1)
    else none := by
  unfold origin urlsplit
  split <;> simp_all [Split.origin]

/-- Two located URLs with the same parts go to the same place. -/
theorem origin_of_located {left right : String} {before netloc after behind : List Char}
    (first : Located left.toList before netloc after)
    (second : Located right.toList before netloc behind) :
    origin rules left = origin rules right := by
  rw [origin_eq, origin_eq, first.parts.1, first.parts.2, second.parts.1, second.parts.2]

theorem located_of_origin {scheme netloc : List Char}
    (goes : origin rules url = some (scheme, netloc)) (schemed : scheme ≠ []) (placed : netloc ≠ []) :
    ∃ before netloc after, Located url.toList before netloc after ∧ netloc ≠ [] := by
  rw [origin_eq] at goes
  split at goes
  · simp only [Option.some.injEq, Prod.mk.injEq] at goes
    exact located_of_parts (goes.1 ▸ schemed) (goes.2 ▸ placed)
  · cases goes

/-- What is put behind an URL with a network location stays there. -/
theorem origin_append {scheme netloc : List Char} (goes : origin rules url = some (scheme, netloc))
    (schemed : scheme ≠ []) (placed : netloc ≠ []) (path : String) :
    origin rules (url ++ ("/" ++ path)) = some (scheme, netloc) := by
  obtain ⟨before, host, after, located, _⟩ := located_of_origin goes schemed placed
  obtain ⟨longer, extended⟩ : ∃ longer, Located (url.toList ++ '/' :: path.toList) before host longer :=
    located.append
  rw [← goes]
  exact origin_of_located (by simpa using extended) located

theorem origin_rstrip {scheme netloc : List Char} (goes : origin rules url = some (scheme, netloc))
    (schemed : scheme ≠ []) (placed : netloc ≠ []) :
    origin rules (rstrip url) = some (scheme, netloc) := by
  obtain ⟨before, host, after, located, some⟩ := located_of_origin goes schemed placed
  obtain ⟨count, parts⟩ := rstrip_slashes url
  obtain ⟨shorter, stripped⟩ := (parts ▸ located).drop_slashes some
  rw [← goes]
  exact origin_of_located stripped located

/-- Without tabs and line ends in it, an URL without a network location gets none from a path
behind it. -/
theorem origin_append_hostless {scheme : List Char} (goes : origin rules url = some (scheme, []))
    (schemed : scheme ≠ []) (safe : ∀ char ∈ (rstrip url).toList, isUnsafe char = false)
    {path : String}
    {first : Char} {tail : List Char} (starts : path.toList = first :: tail) (names : first ≠ '/')
    (visible : isUnsafe first = false) :
    ∃ scheme, origin rules (rstrip url ++ ("/" ++ path)) = some (scheme, []) := by
  obtain ⟨count, parts⟩ := rstrip_slashes url
  rw [origin_eq] at goes
  split at goes
  · rename_i admits
    simp only [Option.some.injEq, Prod.mk.injEq] at goes
    obtain ⟨named, nowhere⟩ := goes
    have schemes : (splitScheme (clean url.toList)).1 ≠ [] := named ▸ schemed
    obtain ⟨before, rest, same, valid⟩ := schemed_of_parts schemes
    rw [same, splitScheme_of_schemed valid] at nowhere
    rw [same, splitScheme_of_schemed valid, nowhere] at admits
    rw [parts] at same
    obtain ⟨inner, schemed, rfl⟩ := schemed_of_slashes same
    have stripped : inner.getLast? ≠ some '/' := by
      intro slash
      obtain ⟨front, whole⟩ := List.dropWhile_suffix (l := (rstrip url).toList) isC0OrSpace
      apply rstrip_getLast? url
      rw [← whole, ← clean_of_safe safe, schemed, List.getLast?_append, List.getLast?_append,
        List.getLast?_cons, slash]
      rfl
    have joined : clean (rstrip url ++ ("/" ++ path)).toList = before ++ ':' ::
        (inner ++ '/' :: first :: tail.filter fun char => !isUnsafe char) := by
      have nonempty : clean (rstrip url).toList ≠ [] := by
        rw [schemed]
        simp
      have text : (rstrip url ++ ("/" ++ path)).toList =
          (rstrip url).toList ++ '/' :: first :: tail := by
        simp [starts]
      have slash : isUnsafe '/' = false := rfl
      rw [text, clean_append nonempty, schemed]
      simp [visible, slash]
    have located : (splitNetloc (inner ++ '/' :: first :: tail.filter fun char =>
        !isUnsafe char)).1 = [] := splitNetloc_hostless nowhere stripped names
    rw [origin_eq, joined, splitScheme_of_schemed valid, located, if_pos admits]
    exact ⟨_, rfl⟩
  · cases goes

end Origin

end Url
