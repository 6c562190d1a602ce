import CyreneReactor.Exchange.Origin

namespace CyreneReactor.Exchange

open Url

/-! Which admitted origins the handoff reaches. -/

variable {rules : Rules} {value origin path : String} {placed : Split}

/-- No mark of an origin ends its network location, or sets user information apart. -/
def Plain (origin : String) : Prop :=
  '?' ∉ origin.toList ∧ '#' ∉ origin.toList ∧ '@' ∉ origin.toList

instance : Decidable (Plain origin) := inferInstanceAs (Decidable (_ ∧ _))

/-- An origin that is admitted has a scheme, a host and nothing behind them. -/
theorem parts_of_admitted (admitted : admittedOrigin rules value = .ok origin) :
    ∃ placed, urlsplit rules origin = some placed ∧ placed.scheme ≠ [] ∧ placed.netloc ≠ [] ∧
      placed.path = [] := by
  unfold admittedOrigin at admitted
  simp only at admitted
  cases splits : urlsplit rules (rstrip value) with
  | none => simp [splits] at admitted
  | some parsed =>
      simp only [splits] at admitted
      split_ifs at admitted with behind other host
      simp only [Except.ok.injEq] at admitted
      subst admitted
      refine ⟨parsed, splits, ?_, ?_, ?_⟩
      · intro none
        rw [none] at other
        exact other ⟨by decide, fun both => absurd both.1 (by decide)⟩
      · intro none
        apply host
        simp [Split.hostname, Split.hostinfo, none, cut]
      · simp only [not_or, not_not] at behind
        exact behind.2.2.2.2

theorem placed_eq {before netloc after : List Char}
    (located : Located origin.toList before netloc after)
    (splits : urlsplit rules origin = some placed) :
    rules.admits netloc = true ∧ placed.scheme = before.map Char.toLower ∧
      placed.netloc = netloc ∧ placed.path = (cut '?' (cut '#' after).1).1 := by
  rw [located.urlsplit] at splits
  split at splits
  · rename_i admits
    cases splits
    exact ⟨admits, rfl, rfl, rfl⟩
  · cases splits

/-- Nothing is behind the network location, or a mark that is not a slash. -/
theorem mark_of_no_path {after : List Char}
    (delimited : ∀ char ∈ after.head?, isDelimiter char = true)
    (noPath : (cut '?' (cut '#' after).1).1 = []) :
    after = [] ∨ ∃ mark rest, after = mark :: rest ∧ (mark = '?' ∨ mark = '#') := by
  cases after with
  | nil => exact .inl rfl
  | cons mark rest =>
      refine .inr ⟨mark, rest, rfl, ?_⟩
      have delimiter := delimited mark rfl
      simp only [isDelimiter, Bool.or_eq_true, beq_iff_eq] at delimiter
      rcases delimiter with (slash | query) | fragment
      · subst slash
        simp [cut] at noPath
      · exact .inl query
      · exact .inr fragment

theorem cut_of_not_mem {mark : Char} {text : List Char} (absent : mark ∉ text) :
    cut mark text = (text, []) := by
  have all : ∀ char ∈ text, (char != mark) = true := by
    intro char member
    simp only [bne_iff_ne]
    exact fun same => absent (same ▸ member)
  simp [cut, List.takeWhile_eq_self_iff.mpr all, List.dropWhile_eq_nil_iff.mpr all]

theorem AbsolutePath.uncut (absolute : AbsolutePath path) :
    cut '#' path.toList = (path.toList, []) ∧ cut '?' path.toList = (path.toList, []) :=
  ⟨cut_of_not_mem fun member => (absolute.plain '#' member).2.1 rfl,
    cut_of_not_mem fun member => (absolute.plain '?' member).1 rfl⟩

/-- A path behind a located origin follows what is behind the network location. -/
theorem located_join {before netloc after : List Char}
    (located : Located origin.toList before netloc after) (absolute : AbsolutePath path) :
    Located (origin ++ path).toList before netloc (after ++ path.toList) := by
  have kept : (path.toList.filter fun char => !isUnsafe char) = path.toList := by
    rw [List.filter_eq_self]
    intro char member
    simp [(absolute.plain char member).2.2]
  refine ⟨?_, located.schemed, located.plain, ?_⟩
  · rw [String.toList_append, clean_append located.clean_ne_nil, kept, located.same]
    simp
  · cases after with
    | nil => simp [absolute.root, isDelimiter]
    | cons first rest => simpa using located.delimited first rfl

/-- Of the three marks, a located origin has those behind its network location, and the sign
of user information inside. -/
theorem plain_iff {before netloc after : List Char}
    (located : Located origin.toList before netloc after)
    (delimited : after = [] ∨ ∃ mark rest, after = mark :: rest ∧ (mark = '?' ∨ mark = '#')) :
    Plain origin ↔ after = [] ∧ '@' ∉ netloc := by
  have inside : ∀ char, isC0OrSpace char = false → isUnsafe char = false →
      isSchemeChar char = false → char ≠ ':' → char ≠ '/' →
      (char ∈ origin.toList ↔ char ∈ netloc ∨ char ∈ after) := by
    intro char visible safe other colon slash
    rw [← mem_clean visible safe, located.same]
    simp [mem_schemed located.schemed other, colon, slash]
  have outside : ∀ char, isDelimiter char = true → char ∉ netloc := by
    intro char delimiter member
    rw [located.plain char member] at delimiter
    cases delimiter
  unfold Plain
  rw [inside '?' (by decide) (by decide) (by decide) (by decide) (by decide),
    inside '#' (by decide) (by decide) (by decide) (by decide) (by decide),
    inside '@' (by decide) (by decide) (by decide) (by decide) (by decide)]
  simp only [outside '?' (by decide), outside '#' (by decide), false_or]
  constructor
  · intro plain
    obtain ⟨query, fragment, user⟩ := plain
    rcases delimited with rfl | ⟨mark, rest, rfl, which⟩
    · exact ⟨rfl, fun member => user (.inl member)⟩
    · rcases which with rfl | rfl
      · exact absurd List.mem_cons_self query
      · exact absurd List.mem_cons_self fragment
  · intro plain
    obtain ⟨rfl, user⟩ := plain
    simp [user]

theorem reaches_iff (admitted : admittedOrigin rules value = .ok origin)
    (absolute : AbsolutePath path) : Reaches rules origin path ↔ Plain origin := by
  obtain ⟨placed, splits, schemed, hosted, noPath⟩ := parts_of_admitted admitted
  have goes : Url.origin rules origin = some (placed.scheme, placed.netloc) := by
    simp [Url.origin, splits, Split.origin]
  obtain ⟨before, netloc, after, located, _⟩ := located_of_origin goes schemed hosted
  obtain ⟨admits, sameScheme, sameNetloc, samePath⟩ := placed_eq located splits
  rw [samePath] at noPath
  have marks := mark_of_no_path located.delimited noPath
  rw [plain_iff located marks, Reaches, splits]
  simp only [Option.some.injEq, exists_eq_left', sameNetloc, sameScheme]
  rw [(located_join located absolute).urlsplit, if_pos admits]
  constructor
  · intro both
    obtain ⟨noUser, joined⟩ := both
    refine ⟨?_, noUser⟩
    rcases marks with none | ⟨mark, rest, rfl, which⟩
    · exact none
    · have joinedPath : (cut '?' (cut '#' (mark :: rest ++ path.toList)).1).1 = path.toList :=
        congrArg Split.path (Option.some.inj joined)
      have empty : (cut '?' (cut '#' (mark :: rest ++ path.toList)).1).1 = [] := by
        rcases which with rfl | rfl
        · simp [cut]
        · simp [cut]
      have root := absolute.root
      rw [← joinedPath, empty] at root
      cases root
  · intro both
    obtain ⟨rfl, noUser⟩ := both
    refine ⟨noUser, ?_⟩
    rw [List.nil_append, absolute.uncut.1, absolute.uncut.2]

/-- The slashes that are taken off an origin are none of the marks. -/
theorem plain_rstrip (value : String) : Plain (rstrip value) ↔ Plain value := by
  obtain ⟨count, parts⟩ := rstrip_slashes value
  have same : ∀ char, char ≠ '/' → (char ∈ value.toList ↔ char ∈ (rstrip value).toList) := by
    intro char other
    rw [parts, List.mem_append]
    exact or_iff_left fun member => other (List.eq_of_mem_replicate member)
  unfold Plain
  rw [same '?' (by decide), same '#' (by decide), same '@' (by decide)]

theorem rstrip_of_admitted (admitted : admittedOrigin rules value = .ok origin) :
    origin = rstrip value := by
  simp only [admittedOrigin] at admitted
  split at admitted
  · split_ifs at admitted
    exact (Except.ok.inj admitted).symm
  · cases admitted

/-- What an admitted value gives is reached, at each path, just where the value is plain, and the
handoff's paths are such paths. -/
theorem admitted_origin_is_reached_iff (admitted : admittedOrigin rules value = .ok origin) :
    (∀ path, AbsolutePath path → (Reaches rules origin path ↔ Plain value)) ∧
      ∀ path : HandoffPath, AbsolutePath path.text := by
  refine ⟨fun path absolute => ?_, HandoffPath.absolute⟩
  rw [reaches_iff admitted absolute, rstrip_of_admitted admitted, plain_rstrip]

theorem plain_origin_is_reached :
    let rules : Rules := ⟨fun _ => true, fun _ => true⟩
    admittedOrigin rules "https://exchange.example/" = .ok "https://exchange.example" ∧
      (Reaches rules "https://exchange.example" HandoffPath.drafts.text ↔
        Plain "https://exchange.example/") := by
  intro rules
  have admitted : admittedOrigin rules "https://exchange.example/" =
      .ok "https://exchange.example" := by decide
  have law := admitted_origin_is_reached_iff admitted
  exact ⟨admitted, law.1 _ (law.2 .drafts)⟩

/-- An empty query and an empty user are admitted; the path becomes the query of the first. -/
theorem empty_delimiters_are_admitted :
    let rules : Rules := ⟨fun _ => true, fun _ => true⟩
    (admittedOrigin rules "https://host?" = .ok "https://host?" ∧
      ¬ Reaches rules "https://host?" HandoffPath.drafts.text) ∧
      admittedOrigin rules "https://@host" = .ok "https://@host" ∧
      ¬ Reaches rules "https://@host" HandoffPath.drafts.text := by
  intro rules
  have query : admittedOrigin rules "https://host?" = .ok "https://host?" := by decide
  have user : admittedOrigin rules "https://@host" = .ok "https://@host" := by decide
  refine ⟨⟨query, ?_⟩, user, ?_⟩
  · rw [reaches_iff query (HandoffPath.absolute .drafts)]
    decide +revert
  · rw [reaches_iff user (HandoffPath.absolute .drafts)]
    decide +revert

end CyreneReactor.Exchange
