import CyreneReactor.Workspace.Authenticator

namespace CyreneReactor.Workspace

/-! Which bearers the workspace routes accept. -/

variable {isprintable : Char → Bool} {loads : String → Option JsonValue}
  {sha256 : List UInt8 → List UInt8} {raw other : String} {items others : List JsonValue}
  {credentials more seen : List Credential} {item : JsonValue} {credential : Credential}
  {request : Request} {scope : WorkspaceScope} {digest : List UInt8} {token : List Char}

/-- The text is a credential map with these items. -/
structure MapOf (loads : String → Option JsonValue) (raw : String) (items : List JsonValue) :
    Prop where
  written : raw ≠ ""
  small : raw.utf8ByteSize ≤ 256 * 1024
  document : ∃ members, loads raw = some (.obj members) ∧
    hasKeys members ["version", "credentials"] = true ∧
    JsonValue.member? members "version" = some (.int 1) ∧
    JsonValue.member? members "credentials" = some (.arr items)

/-- The item names the digest. -/
def Names (item : JsonValue) (digest : List UInt8) : Prop :=
  ∃ members text, item = .obj members ∧
    JsonValue.member? members "tokenSha256" = some (.str text) ∧ fromHex text.toList = digest

/-- The item lists the digest with the scope. -/
def Lists (item : JsonValue) (digest : List UInt8) (scope : WorkspaceScope) : Prop :=
  ∃ members text, item = .obj members ∧
    JsonValue.member? members "tokenSha256" = some (.str text) ∧ fromHex text.toList = digest ∧
    JsonValue.member? members "organizationId" = some (.str scope.organizationId) ∧
    JsonValue.member? members "workspaceId" = some (.str scope.workspaceId)

/-- At least 32 characters, all printable ASCII other than the space. -/
structure IsToken (token : List Char) : Prop where
  long : 32 ≤ token.length
  visible : ∀ char ∈ token, 33 ≤ char.toNat ∧ char.toNat ≤ 126

def bytesOf (token : List Char) : List UInt8 := token.map fun char => UInt8.ofNat char.toNat

/-- The header is "Bearer " and the token. -/
def Carries (request : Request) (token : List Char) : Prop :=
  ∃ header, request.authorization = some header ∧ header.toList = bearer ++ token

/-- The request carries a token whose digest the map lists with the scope. -/
def Bears (sha256 : List UInt8 → List UInt8) (loads : String → Option JsonValue) (raw : String)
    (request : Request) (scope : WorkspaceScope) : Prop :=
  ∃ token, Carries request token ∧ IsToken token ∧
    ∃ items, MapOf loads raw items ∧ ∃ item ∈ items, Lists item (sha256 (bytesOf token)) scope

theorem lists_of_parseItem (read : parseItem isprintable item = .ok credential) :
    Lists item credential.tokenDigest credential.scope := by
  unfold parseItem at read
  split at read
  · rename_i members
    split at read
    · split at read
      · rename_i text organizationId workspaceId hasText hasOrganization hasWorkspace
        split at read
        · cases read
          exact ⟨members, text, rfl, hasText, rfl, hasOrganization, hasWorkspace⟩
        · cases read
      · cases read
    · cases read
  · cases read

theorem Lists.names (lists : Lists item digest scope) : Names item digest := by
  obtain ⟨members, text, same, hasText, isDigest, _⟩ := lists
  exact ⟨members, text, same, hasText, isDigest⟩

theorem Names.unique {first second : List UInt8} (one : Names item first)
    (two : Names item second) : first = second := by
  obtain ⟨members, text, rfl, hasText, rfl⟩ := one
  obtain ⟨_, _, same, hasText', rfl⟩ := two
  cases same
  rw [hasText] at hasText'
  cases hasText'
  rfl

theorem Lists.unique {first second : WorkspaceScope} {other : List UInt8}
    (one : Lists item digest first) (two : Lists item other second) : first = second := by
  obtain ⟨members, _, rfl, _, _, organization, workspace⟩ := one
  obtain ⟨_, _, same, _, _, organization', workspace'⟩ := two
  cases same
  rw [organization] at organization'
  rw [workspace] at workspace'
  cases first
  cases second
  cases organization'
  cases workspace'
  rfl

theorem addCredentials_eq_ok_iff (fresh : (seen.map Credential.tokenDigest).Nodup) :
    addCredentials isprintable seen items = .ok credentials ↔
      ∃ added, credentials = seen ++ added ∧
        List.Forall₂ (fun item credential => parseItem isprintable item = .ok credential)
          items added ∧
        (credentials.map Credential.tokenDigest).Nodup := by
  induction items generalizing seen with
  | nil =>
      simp only [addCredentials, Except.ok.injEq, List.forall₂_nil_left_iff]
      constructor
      · intro same
        subst same
        exact ⟨[], by simp, rfl, fresh⟩
      · intro given
        obtain ⟨added, rfl, rfl, _⟩ := given
        simp
  | cons item rest ih =>
      unfold addCredentials
      cases read : parseItem isprintable item with
      | error message =>
          simp only [reduceCtorEq, false_iff, List.forall₂_cons_left_iff]
          intro given
          obtain ⟨added, _, ⟨credential, _, parsed, _⟩, _⟩ := given
          rw [read] at parsed
          cases parsed
      | ok credential =>
          by_cases known : credential.tokenDigest ∈ seen.map Credential.tokenDigest
          · simp only [known, if_true, reduceCtorEq, false_iff, List.forall₂_cons_left_iff]
            intro given
            obtain ⟨added, same, ⟨first, others, parsed, _, split⟩, distinct⟩ := given
            rw [read] at parsed
            cases parsed
            subst same split
            rw [List.map_append, List.nodup_append] at distinct
            exact distinct.2.2 _ known _ (by simp) rfl
          · have grown : ((seen ++ [credential]).map Credential.tokenDigest).Nodup := by
              rw [List.map_append, List.nodup_append]
              refine ⟨fresh, by simp, ?_⟩
              intro old member new isNew
              rw [List.map_singleton, List.mem_singleton] at isNew
              subst isNew
              exact fun same => known (same ▸ member)
            simp only [known, if_false]
            rw [ih grown]
            constructor
            · intro given
              obtain ⟨added, rfl, parsed, distinct⟩ := given
              exact ⟨credential :: added, by simp, .cons read parsed, distinct⟩
            · intro given
              obtain ⟨added, rfl, parsed, distinct⟩ := given
              obtain ⟨first, others, here, later, rfl⟩ := List.forall₂_cons_left_iff.mp parsed
              rw [read] at here
              cases here
              exact ⟨others, by simp, later, distinct⟩

/-- A text with a map's items is accepted where each is, and no digest is there twice. -/
theorem parseCredentialMap_eq_ok_iff (written : raw ≠ "") :
    parseCredentialMap isprintable loads (some raw) = .ok credentials ↔
      ∃ items, MapOf loads raw items ∧ 1 ≤ items.length ∧ items.length ≤ 1024 ∧
        List.Forall₂ (fun item credential => parseItem isprintable item = .ok credential)
          items credentials ∧
        (credentials.map Credential.tokenDigest).Nodup := by
  constructor
  · intro accepted
    simp only [parseCredentialMap, written, if_false] at accepted
    split at accepted
    · cases accepted
    · rename_i small
      split at accepted
      · rename_i members decoded
        unfold parseCredentials at accepted
        split at accepted
        · rename_i keys
          split at accepted
          · rename_i items version list
            split at accepted
            · rename_i bounds
              have fresh : (([] : List Credential).map Credential.tokenDigest).Nodup :=
                List.nodup_nil
              obtain ⟨added, same, parsed, distinct⟩ :=
                (addCredentials_eq_ok_iff fresh).mp accepted
              rw [List.nil_append] at same
              subst same
              exact ⟨items, ⟨written, Nat.not_lt.mp small, members, decoded, keys, version, list⟩,
                bounds.1, bounds.2, parsed, distinct⟩
            · cases accepted
          · cases accepted
        · cases accepted
      · cases accepted
  · intro given
    obtain ⟨items, ⟨_, small, members, decoded, keys, version, list⟩, least, most, parsed,
      distinct⟩ := given
    have fresh : (([] : List Credential).map Credential.tokenDigest).Nodup := List.nodup_nil
    have added : addCredentials isprintable [] items = .ok credentials :=
      (addCredentials_eq_ok_iff fresh).mpr ⟨credentials, rfl, parsed, distinct⟩
    simp [parseCredentialMap, written, Nat.not_lt.mpr small, decoded, parseCredentials, keys,
      version, list, least, most, added]

theorem MapOf.unique (one : MapOf loads raw items) (two : MapOf loads raw others) :
    items = others := by
  obtain ⟨members, decoded, _, _, list⟩ := one.document
  obtain ⟨_, decoded', _, _, list'⟩ := two.document
  rw [decoded] at decoded'
  cases decoded'
  rw [list] at list'
  cases list'
  rfl

/-- Where no digest is there twice, the last match is the only one. -/
theorem matchedScope_eq_some_iff (distinct : (credentials.map Credential.tokenDigest).Nodup) :
    matchedScope digest credentials = some scope ↔ ⟨digest, scope⟩ ∈ credentials := by
  have loop : ∀ found, credentials.foldl (fun found credential =>
      if digest = credential.tokenDigest then some credential.scope else found) found =
        some scope ↔
      ⟨digest, scope⟩ ∈ credentials ∨
        digest ∉ credentials.map Credential.tokenDigest ∧ found = some scope := by
    induction credentials with
    | nil => simp
    | cons first rest ih =>
        intro found
        simp only [List.map_cons, List.nodup_cons] at distinct
        rw [List.foldl_cons, ih distinct.2]
        by_cases same : digest = first.tokenDigest
        · subst same
          have absent : (⟨first.tokenDigest, scope⟩ : Credential) ∉ rest := fun member =>
            distinct.1 (List.mem_map.mpr ⟨_, member, rfl⟩)
          cases first
          simp [absent, distinct.1, eq_comm]
        · have other : (⟨digest, scope⟩ : Credential) ≠ first := by
            intro equal
            exact same (congrArg Credential.tokenDigest equal)
          simp [same, other]
  rw [matchedScope, loop]
  simp

theorem matchedScope_eq (distinct : (credentials.map Credential.tokenDigest).Nodup)
    (apart : (more.map Credential.tokenDigest).Nodup)
    (same : ∀ scope, (⟨digest, scope⟩ : Credential) ∈ credentials ↔ ⟨digest, scope⟩ ∈ more) :
    matchedScope digest credentials = matchedScope digest more := by
  apply Option.ext
  intro scope
  rw [matchedScope_eq_some_iff distinct, matchedScope_eq_some_iff apart, same]

theorem isToken_ascii (isToken : IsToken token) : asciiBytes token = bytesOf token := by
  have ascii : token.all (fun char => decide (char.toNat < 128)) = true := by
    rw [List.all_eq_true]
    intro char member
    have visible := (isToken.visible char member).2
    simp only [decide_eq_true_eq]
    omega
  rw [asciiBytes, if_pos ascii, bytesOf]

theorem tokenIsValid_iff : tokenIsValid (asciiBytes token) = true ↔ IsToken token := by
  have visible : ∀ char : Char, char.toNat < 128 →
      ((33 ≤ UInt8.ofNat char.toNat ∧ UInt8.ofNat char.toNat ≤ 126) ↔
        33 ≤ char.toNat ∧ char.toNat ≤ 126) := by
    intro char ascii
    have whole : char.toNat % 2 ^ 8 = char.toNat := Nat.mod_eq_of_lt (by omega)
    rw [UInt8.le_iff_toNat_le, UInt8.le_iff_toNat_le, UInt8.toNat_ofNat', whole]
    rfl
  constructor
  · intro valid
    unfold asciiBytes at valid
    split at valid
    · rename_i ascii
      rw [List.all_eq_true] at ascii
      simp only [tokenIsValid, List.length_map, Bool.and_eq_true, decide_eq_true_eq,
        List.all_eq_true, List.forall_mem_map] at valid
      refine ⟨valid.1, fun char member => ?_⟩
      have small : char.toNat < 128 := by simpa using ascii char member
      exact (visible char small).mp (valid.2 char member)
    · exact absurd valid (by decide)
  · intro isToken
    rw [isToken_ascii isToken]
    simp only [tokenIsValid, bytesOf, List.length_map, Bool.and_eq_true, decide_eq_true_eq,
      List.all_eq_true, List.forall_mem_map]
    refine ⟨isToken.long, fun char member => ?_⟩
    have bounds := isToken.visible char member
    exact (visible char (by omega)).mpr bounds

/-- The part after "Bearer " is a token only where the header carries it. -/
theorem carries_iff (isToken : IsToken token) :
    Carries request token ↔ tokenOf (request.authorization.getD "").toList = token := by
  have long := isToken.long
  have some : token ≠ [] := by
    intro empty
    simp [empty] at long
  unfold tokenOf
  constructor
  · intro carries
    obtain ⟨header, present, same⟩ := carries
    rw [present, Option.getD_some, same]
    have starts : bearer.isPrefixOf (bearer ++ token) = true := by
      rw [List.isPrefixOf_iff_prefix]
      exact List.prefix_append bearer token
    rw [if_pos starts, show 7 = bearer.length by decide, List.drop_left]
  · intro same
    split at same
    · rename_i starts
      obtain ⟨rest, split⟩ := List.isPrefixOf_iff_prefix.mp starts
      rw [← split, show 7 = bearer.length by decide, List.drop_left] at same
      subst same
      cases present : request.authorization with
      | none =>
          rw [present] at split
          have length := congrArg List.length split
          rw [List.length_append, show bearer.length = 7 by decide] at length
          simp at length
      | some header =>
          rw [present] at split
          exact ⟨header, present, split.symm⟩
    · exact absurd same.symm some

theorem authorize_eq_ok_iff (given : credentials ≠ [])
    (distinct : (credentials.map Credential.tokenDigest).Nodup) :
    (authorize sha256 credentials request).1 = .ok scope ↔
      ∃ token, Carries request token ∧ IsToken token ∧
        ⟨sha256 (bytesOf token), scope⟩ ∈ credentials := by
  generalize parsed : tokenOf (request.authorization.getD "").toList = rest
  simp only [authorize, given, if_false, parsed]
  by_cases isToken : IsToken rest
  · have carries := (carries_iff isToken).mpr parsed
    rw [tokenIsValid_iff.mpr isToken, isToken_ascii isToken, if_pos rfl]
    have only : (∃ token, Carries request token ∧ IsToken token ∧
        ⟨sha256 (bytesOf token), scope⟩ ∈ credentials) ↔
        ⟨sha256 (bytesOf rest), scope⟩ ∈ credentials := by
      constructor
      · intro some
        obtain ⟨token, carried, valid, member⟩ := some
        rwa [← (carries_iff valid).mp carried, parsed] at member
      · exact fun member => ⟨rest, carries, isToken, member⟩
    rw [only, ← matchedScope_eq_some_iff distinct]
    cases matchedScope (sha256 (bytesOf rest)) credentials with
    | none => simp
    | some found => simp
  · have invalid : tokenIsValid (asciiBytes rest) = false := by
      rw [← Bool.not_eq_true, tokenIsValid_iff]
      exact isToken
    rw [invalid]
    simp only [reduceCtorEq, false_iff]
    intro some
    obtain ⟨token, carried, valid, _⟩ := some
    rw [← (carries_iff valid).mp carried, parsed] at valid
    exact isToken valid

/-- Only an answer sets a scope, and it is the one that is returned. -/
theorem authorize_sets :
    (authorize sha256 credentials request).2 =
      match (authorize sha256 credentials request).1 with
      | .ok scope => { request with workspaceScope := some scope }
      | .error _ => request := by
  unfold authorize
  split
  · rfl
  · simp only
    split <;> rfl

/-- Two maps that list the digest of the request's token alike answer alike. -/
theorem authorize_congr (given : credentials ≠ []) (alsoGiven : more ≠ [])
    (distinct : (credentials.map Credential.tokenDigest).Nodup)
    (apart : (more.map Credential.tokenDigest).Nodup)
    (same : ∀ token, Carries request token → IsToken token → ∀ scope,
      (⟨sha256 (bytesOf token), scope⟩ : Credential) ∈ credentials ↔
        ⟨sha256 (bytesOf token), scope⟩ ∈ more) :
    authorize sha256 credentials request = authorize sha256 more request := by
  generalize parsed : tokenOf (request.authorization.getD "").toList = rest
  simp only [authorize, given, alsoGiven, if_false, parsed]
  by_cases isToken : IsToken rest
  · have carries := (carries_iff isToken).mpr parsed
    rw [tokenIsValid_iff.mpr isToken, isToken_ascii isToken, if_pos rfl,
      matchedScope_eq distinct apart (same rest carries isToken)]
  · have invalid : tokenIsValid (asciiBytes rest) = false := by
      rw [← Bool.not_eq_true, tokenIsValid_iff]
      exact isToken
    rw [invalid]

/-- What a text that was accepted, as these credentials, answers. -/
structure Exact (isprintable : Char → Bool) (loads : String → Option JsonValue)
    (sha256 : List UInt8 → List UInt8) (raw : String) (credentials : List Credential) : Prop where
  /-- A scope is returned exactly for the tokens whose digest the map lists with it. -/
  answers : ∀ request scope,
    (authorize sha256 credentials request).1 = .ok scope ↔ Bears sha256 loads raw request scope
  /-- Only an answer sets a scope. -/
  sets : ∀ request, (authorize sha256 credentials request).2 =
    match (authorize sha256 credentials request).1 with
    | .ok scope => { request with workspaceScope := some scope }
    | .error _ => request
  /-- The same items in another order are accepted, and answer alike. -/
  reorders : ∀ items other others, MapOf loads raw items → MapOf loads other others →
    others.Perm items → ∃ more, parseCredentialMap isprintable loads (some other) = .ok more ∧
      ∀ request, authorize sha256 more request = authorize sha256 credentials request
  /-- An item with a new digest can be added; only tokens of its digest are answered otherwise. -/
  adds : ∀ items item credential other others, MapOf loads raw items →
    parseItem isprintable item = .ok credential → (∀ old ∈ items, ¬ Names old credential.tokenDigest) →
    MapOf loads other others → others.Perm (item :: items) → others.length ≤ 1024 →
    ∃ more, parseCredentialMap isprintable loads (some other) = .ok more ∧
      ∀ request, (∀ token, Carries request token → IsToken token →
        sha256 (bytesOf token) ≠ credential.tokenDigest) →
        authorize sha256 more request = authorize sha256 credentials request
  /-- No two items name one digest. -/
  distinct : ∀ items, MapOf loads raw items →
    items.Pairwise fun first second => ∀ digest, ¬ (Names first digest ∧ Names second digest)
  /-- No request has two scopes. -/
  single : ∀ request first second, Bears sha256 loads raw request first →
    Bears sha256 loads raw request second → first = second

section Accepted

variable (parsed : List.Forall₂
  (fun item credential => parseItem isprintable item = .ok credential) items credentials)
include parsed

theorem mem_iff_lists : ⟨digest, scope⟩ ∈ credentials ↔ ∃ item ∈ items, Lists item digest scope := by
  induction parsed with
  | nil => simp
  | @cons item credential rest others here _ ih =>
      have lists := lists_of_parseItem here
      rw [List.mem_cons, ih]
      simp only [List.mem_cons, exists_eq_or_imp]
      have head : (⟨digest, scope⟩ : Credential) = credential ↔ Lists item digest scope := by
        constructor
        · intro same
          rw [← same] at lists
          exact lists
        · intro also
          cases credential
          rw [also.names.unique lists.names, also.unique lists]
      rw [head]

theorem names_iff : digest ∈ credentials.map Credential.tokenDigest ↔
    ∃ item ∈ items, Names item digest := by
  induction parsed with
  | nil => simp
  | @cons item credential rest others here _ ih =>
      have names := (lists_of_parseItem here).names
      rw [List.map_cons, List.mem_cons, ih]
      simp only [List.mem_cons, exists_eq_or_imp]
      have head : digest = credential.tokenDigest ↔ Names item digest :=
        ⟨fun same => same ▸ names, fun also => also.unique names⟩
      rw [head]

theorem pairwise_names (distinct : (credentials.map Credential.tokenDigest).Nodup) :
    items.Pairwise fun first second => ∀ digest, ¬ (Names first digest ∧ Names second digest) := by
  induction parsed with
  | nil => exact List.Pairwise.nil
  | @cons item credential rest others here later ih =>
      rw [List.map_cons, List.nodup_cons] at distinct
      refine List.Pairwise.cons ?_ (ih distinct.2)
      intro second member digest both
      have same := both.1.unique (lists_of_parseItem here).names
      exact distinct.1 ((names_iff later).mpr ⟨second, member, same ▸ both.2⟩)

end Accepted

/-- Whatever a text that was accepted lists, it answers exactly. -/
theorem bearer_authorization_is_exact (written : raw ≠ "")
    (accepted : parseCredentialMap isprintable loads (some raw) = .ok credentials) :
    Exact isprintable loads sha256 raw credentials := by
  obtain ⟨items, isMap, least, most, parsed, distinct⟩ :=
    (parseCredentialMap_eq_ok_iff written).mp accepted
  have given : credentials ≠ [] := by
    intro none
    rw [none, List.forall₂_nil_right_iff] at parsed
    rw [parsed] at least
    exact absurd least (by decide)
  have answers : ∀ request scope, (authorize sha256 credentials request).1 = .ok scope ↔
      Bears sha256 loads raw request scope := by
    intro request scope
    rw [authorize_eq_ok_iff given distinct]
    constructor
    · intro some
      obtain ⟨token, carries, isToken, member⟩ := some
      exact ⟨token, carries, isToken, items, isMap, (mem_iff_lists parsed).mp member⟩
    · intro bears
      obtain ⟨token, carries, isToken, others, isMap', listed⟩ := bears
      rw [← isMap.unique isMap'] at listed
      exact ⟨token, carries, isToken, (mem_iff_lists parsed).mpr listed⟩
  refine ⟨answers, fun request => authorize_sets, ?_, ?_, ?_, ?_⟩
  · intro items' other others isMap' otherMap permuted
    rw [← isMap.unique isMap'] at permuted
    obtain ⟨more, parsedMore, reordered⟩ := List.perm_comp_forall₂ permuted parsed
    have apart : (more.map Credential.tokenDigest).Nodup :=
      (reordered.map Credential.tokenDigest).nodup_iff.mpr distinct
    have some : more ≠ [] := fun none => given (none ▸ reordered).nil_eq.symm
    refine ⟨more, (parseCredentialMap_eq_ok_iff otherMap.written).mpr
      ⟨others, otherMap, permuted.length_eq ▸ least, permuted.length_eq ▸ most, parsedMore, apart⟩,
      fun request => authorize_congr some given apart distinct ?_⟩
    exact fun token _ _ scope => reordered.mem_iff
  · intro items' item credential other others isMap' read fresh otherMap permuted bound
    rw [← isMap.unique isMap'] at permuted fresh
    obtain ⟨more, parsedMore, reordered⟩ := List.perm_comp_forall₂ permuted (.cons read parsed)
    have apart : (more.map Credential.tokenDigest).Nodup := by
      rw [(reordered.map Credential.tokenDigest).nodup_iff, List.map_cons, List.nodup_cons,
        names_iff parsed]
      refine ⟨?_, distinct⟩
      intro listed
      obtain ⟨old, member, names⟩ := listed
      exact fresh old member names
    have some : more ≠ [] := fun none => by
      rw [none] at reordered
      exact absurd reordered.nil_eq (by simp)
    refine ⟨more, (parseCredentialMap_eq_ok_iff otherMap.written).mpr
      ⟨others, otherMap, by rw [permuted.length_eq]; simp, bound, parsedMore, apart⟩,
      fun request otherDigest => authorize_congr some given apart distinct ?_⟩
    intro token carries isToken scope
    rw [reordered.mem_iff, List.mem_cons]
    have foreign : (⟨sha256 (bytesOf token), scope⟩ : Credential) ≠ credential := fun same =>
      otherDigest token carries isToken (congrArg Credential.tokenDigest same)
    simp [foreign]
  · intro items' isMap'
    rw [← isMap.unique isMap']
    exact pairwise_names parsed distinct
  · intro request first second one two
    rw [← answers] at one two
    rw [one] at two
    exact Except.ok.inj two

/-- The digest of 32 times the letter a. -/
def sampleDigest : String := "3ba3f5f43b92602683c19aee62a20342b084dd5971ddd33808d81a328879a547"

def otherDigest : String := "bdb339768bc5e4fecbe55a442056919b2b325907d49bcbf3bf8de13781996a83"

def sampleItem (digest workspace : String) : JsonValue :=
  .obj [("tokenSha256", .str digest), ("organizationId", .str "org-one"),
    ("workspaceId", .str workspace)]

def sampleItemText (digest workspace : String) : String :=
  "\x7b\"tokenSha256\": \"" ++ digest ++
    "\", \"organizationId\": \"org-one\", \"workspaceId\": \"" ++ workspace ++ "\"\x7d"

def sampleMap : String :=
  "\x7b\"version\": 1, \"credentials\": [" ++ sampleItemText sampleDigest "workspace-one" ++
    ", " ++ sampleItemText otherDigest "workspace-two" ++ "]\x7d"

def sampleItems : List JsonValue :=
  [sampleItem sampleDigest "workspace-one", sampleItem otherDigest "workspace-two"]

def sampleDocument : List (String × JsonValue) :=
  [("version", .int 1), ("credentials", .arr sampleItems)]

def sampleLoads (text : String) : Option JsonValue :=
  if text = sampleMap then some (.obj sampleDocument) else none

def samplePrintable (char : Char) : Bool := 32 ≤ char.toNat && char.toNat ≤ 126

def sampleSha256 (bytes : List UInt8) : List UInt8 :=
  if bytes = List.replicate 32 97 then fromHex sampleDigest.toList
  else if bytes = List.replicate 32 98 then fromHex otherDigest.toList
  else []

def sampleCredentials : List Credential :=
  [⟨fromHex sampleDigest.toList, ⟨"org-one", "workspace-one"⟩⟩,
    ⟨fromHex otherDigest.toList, ⟨"org-one", "workspace-two"⟩⟩]

theorem sample_accepted :
    parseCredentialMap samplePrintable sampleLoads (some sampleMap) = .ok sampleCredentials := by
  have written : sampleMap ≠ "" := by decide
  have small : ¬ 256 * 1024 < sampleMap.utf8ByteSize := by decide +kernel
  have added : addCredentials samplePrintable [] sampleItems = .ok sampleCredentials := by
    decide +kernel
  have keys : hasKeys sampleDocument ["version", "credentials"] = true := by decide
  have version : JsonValue.member? sampleDocument "version" = some (.int 1) := rfl
  have list : JsonValue.member? sampleDocument "credentials" = some (.arr sampleItems) := rfl
  have document : sampleLoads sampleMap = some (.obj sampleDocument) := if_pos rfl
  rw [parseCredentialMap, if_neg written, if_neg small, document]
  have bounds : 1 ≤ sampleItems.length ∧ sampleItems.length ≤ 1024 := by decide
  simp only [parseCredentials, keys, if_true, version, list, if_pos bounds, added]

/-- The request that carries 32 times the letter. -/
def bearing (letter : Char) : Request :=
  ⟨some (String.ofList (bearer ++ List.replicate 32 letter)), none⟩

/-- Each token opens its own workspace, and another one opens neither. -/
theorem bearer_authorization_is_exact_sample :
    Exact samplePrintable sampleLoads sampleSha256 sampleMap sampleCredentials ∧
      (authorize sampleSha256 sampleCredentials (bearing 'a')).1 =
        .ok ⟨"org-one", "workspace-one"⟩ ∧
      (authorize sampleSha256 sampleCredentials (bearing 'b')).1 =
        .ok ⟨"org-one", "workspace-two"⟩ ∧
      (authorize sampleSha256 sampleCredentials (bearing 'c')).1 = .error unauthorized :=
  ⟨bearer_authorization_is_exact (by decide) sample_accepted, rfl, rfl, rfl⟩

end CyreneReactor.Workspace
