import CyreneReactor.Drafts.Api

namespace CyreneReactor.Drafts

open Interaction Relational

/-! What the draft rows say about the imports that were answered.

Each receipt is that of the import that stored its draft, and a draft keeps the
document it was imported with.
-/

variable {environment : Environment} {api : Api}

/-- The key an import looks its receipt up by. -/
def ImportCall.usedKey (api : Api) (call : ImportCall) : String :=
  importKey call.key (api.draftDigest call.command)

/-- The import stored a new draft. -/
def ImportCall.Stored (call : ImportCall) : Prop :=
  ∃ draft, call.answer = .ok draft ∧ draft.id = call.drawn

/-- The import returned a draft of its own document. -/
def ImportCall.ReturnsOwn (call : ImportCall) : Prop :=
  ∃ draft, call.answer = .ok draft ∧ draft.toCreateDeploymentDraft = call.command

/-- Every earlier import that stored a draft under the key of this one imported
the same document. -/
def ImportCall.KeyFree (api : Api) (before : List ImportCall) (call : ImportCall) : Prop :=
  ∀ earlier ∈ before, earlier.Stored → earlier.usedKey api = call.usedKey api →
    earlier.command = call.command

structure Books (desk : Desk environment api) : Prop where
  received : ∀ row ∈ desk.store.receipts.rows, ∃ call ∈ desk.imports, call.Stored ∧
    row = ⟨deploymentDraftScope, call.usedKey api, api.draftDigest call.command, call.drawn⟩
  receipted : ∀ call ∈ desk.imports, call.Stored →
    ⟨deploymentDraftScope, call.usedKey api, api.draftDigest call.command, call.drawn⟩ ∈
      desk.store.receipts.rows
  kept : ∀ call ∈ desk.imports, call.Stored → ∃ draft ∈ desk.store.drafts.rows,
    draft.id = call.drawn ∧ draft.toCreateDeploymentDraft = call.command
  imported : ∀ draft ∈ desk.store.drafts.rows, ∃ call ∈ desk.imports, call.Stored ∧
    call.drawn = draft.id ∧ call.command = draft.toCreateDeploymentDraft
  read : ∀ call ∈ desk.deploys, ∃ origin ∈ desk.imports, origin.Stored ∧
    origin.drawn = call.draft.id ∧ origin.command = call.draft.toCreateDeploymentDraft
  judged : ∀ before call after, desk.imports = before ++ call :: after →
    (call.ReturnsOwn ↔ call.KeyFree api before)

namespace Books

variable {desk next : Desk environment api}

theorem initial : Books (Desk.initial environment api) where
  received _ member := absurd member List.not_mem_nil
  receipted _ member := absurd member List.not_mem_nil
  kept _ member := absurd member List.not_mem_nil
  imported _ member := absurd member List.not_mem_nil
  read _ member := absurd member List.not_mem_nil
  judged before call after split := by
    have empty : [] = before ++ call :: after := split
    simp at empty

/-- The draft of a receipt is stored, with the document it was imported with. -/
theorem getDraft (books : Books desk) {call : ImportCall} (member : call ∈ desk.imports)
    (stored : call.Stored) : ∃ draft, desk.store.getDraft call.drawn = .ok draft ∧
      draft.id = call.drawn ∧ draft.toCreateDeploymentDraft = call.command := by
  obtain ⟨draft, present, drawn, document⟩ := books.kept call member stored
  exact ⟨draft, drawn ▸ DraftStore.getDraft_of_mem present, drawn, document⟩

/-- The receipt an import finds decides whether it returns its own document. -/
theorem judge (books : Books desk) (command : CreateDeploymentDraft) (key : Option String)
    {id : Uuid} (now : Datetime) (fresh : ∀ draft ∈ desk.store.drafts.rows, draft.id ≠ id) :
    (ImportCall.mk command key id (api.importDraft desk.store command key id now).1).ReturnsOwn ↔
      (ImportCall.mk command key id
        (api.importDraft desk.store command key id now).1).KeyFree api desk.imports := by
  have creates : DraftStore.Creates desk.store (Api.newDraft command id now)
      (importKey key (api.draftDigest command)) (api.draftDigest command)
      (api.importDraft desk.store command key id now) := DraftStore.createDraft_creates fresh
  generalize api.importDraft desk.store command key id now = outcome at creates
  -- An earlier import under the key is the one whose receipt is found.
  have holder : ∀ {row : IdempotencyRow},
      desk.store.findReceipt (importKey key (api.draftDigest command)) = some row →
      ∃ call ∈ desk.imports, call.Stored ∧
        row = ⟨deploymentDraftScope, call.usedKey api, api.draftDigest call.command, call.drawn⟩ ∧
        call.usedKey api = importKey key (api.draftDigest command) := by
    intro row found
    obtain ⟨present, used⟩ := DraftStore.findReceipt_eq_some found
    obtain ⟨call, member, stored, rfl⟩ := books.received row present
    exact ⟨call, member, stored, rfl, used⟩
  have only : ∀ {row : IdempotencyRow},
      desk.store.findReceipt (importKey key (api.draftDigest command)) = some row →
      ∀ call ∈ desk.imports, call.Stored →
        call.usedKey api = importKey key (api.draftDigest command) →
        row = ⟨deploymentDraftScope, call.usedKey api, api.draftDigest call.command,
          call.drawn⟩ := by
    intro row found call member stored used
    obtain ⟨present, wanted⟩ := DraftStore.findReceipt_eq_some found
    obtain ⟨holder, _, _, rfl⟩ := books.received row present
    refine Table.eq_of_clash (fun left right => ?_) present (books.receipted call member stored) ?_
    · simp only [IdempotencyRow.clash, Bool.beq_comm]
    · simpa [IdempotencyRow.clash, used] using wanted
  cases creates with
  | conflict found different =>
      refine ⟨fun returns => ?_, fun free => ?_⟩
      · obtain ⟨draft, answer, _⟩ := returns
        cases answer
      obtain ⟨call, member, stored, rfl, used⟩ := holder found
      have same : call.command = command := free call member stored used
      exact absurd (congrArg api.draftDigest same) different
  | replayed found same =>
      obtain ⟨holder, member, stored, rfl, used⟩ := holder found
      obtain ⟨draft, read, drawn, document⟩ := books.getDraft member stored
      constructor
      · intro returns earlier earlierMember earlierStored earlierUsed
        obtain ⟨returned, answer, own⟩ := returns
        have row := only found earlier earlierMember earlierStored earlierUsed
        simp only [IdempotencyRow.mk.injEq] at row
        obtain ⟨found', read', _, document'⟩ := books.getDraft earlierMember earlierStored
        rw [row.2.2.2] at answer
        have answer : desk.store.getDraft earlier.drawn = .ok returned := answer
        rw [read', Except.ok.injEq] at answer
        subst answer
        exact document'.symm.trans own
      · exact fun free => ⟨draft, read, document.trans (free holder member stored used)⟩
  | stored unused =>
      refine ⟨fun _ earlier member stored used => ?_, fun _ => ⟨_, rfl, rfl⟩⟩
      have absent := List.find?_eq_none.mp unused _ (books.receipted earlier member stored)
      have used : earlier.usedKey api = importKey key (api.draftDigest command) := used
      simp [used] at absent

/-- The judgement of the last import joins those of the earlier ones. -/
theorem judged_append (books : Books desk) {call : ImportCall}
    (judge : call.ReturnsOwn ↔ call.KeyFree api desk.imports) :
    ∀ before other after, desk.imports ++ [call] = before ++ other :: after →
      (other.ReturnsOwn ↔ other.KeyFree api before) := by
  intro before other after split
  rcases List.append_eq_append_iff.mp split with ⟨between, rfl, rest⟩ | ⟨between, whole, rest⟩
  · cases between with
    | nil =>
        obtain ⟨rfl, _⟩ := List.cons.inj rest
        simpa using judge
    | cons head tail => simp at rest
  · cases between with
    | nil =>
        obtain ⟨rfl, _⟩ := List.cons.inj rest
        rw [List.append_nil] at whole
        exact whole ▸ judge
    | cons head tail =>
        obtain ⟨rfl, rfl⟩ := List.cons.inj rest
        exact books.judged before _ tail whole

/-- An import that stored nothing leaves everything else as it was. -/
theorem noted (books : Books desk) {call : ImportCall} (unstored : ¬call.Stored)
    (judge : call.ReturnsOwn ↔ call.KeyFree api desk.imports) :
    Books { desk with imports := desk.imports ++ [call] } where
  received row member := by
    obtain ⟨earlier, there, rest⟩ := books.received row member
    exact ⟨earlier, List.mem_append_left _ there, rest⟩
  receipted earlier member stored := by
    rcases List.mem_append.mp member with there | last
    · exact books.receipted earlier there stored
    · exact absurd (List.mem_singleton.mp last ▸ stored) unstored
  kept earlier member stored := by
    rcases List.mem_append.mp member with there | last
    · exact books.kept earlier there stored
    · exact absurd (List.mem_singleton.mp last ▸ stored) unstored
  imported draft member := by
    obtain ⟨earlier, there, rest⟩ := books.imported draft member
    exact ⟨earlier, List.mem_append_left _ there, rest⟩
  read deploy member := by
    obtain ⟨origin, there, rest⟩ := books.read deploy member
    exact ⟨origin, List.mem_append_left _ there, rest⟩
  judged := books.judged_append judge

/-- An import that stored its draft did so with its receipt. -/
theorem stored (books : Books desk) {call : ImportCall} {draft : DeploymentDraft}
    {store : DraftStore} (drawn : draft.id = call.drawn)
    (document : draft.toCreateDeploymentDraft = call.command) (stored : call.Stored)
    (drafts : store.drafts.rows = desk.store.drafts.rows ++ [draft])
    (receipts : store.receipts.rows = desk.store.receipts.rows ++
      [⟨deploymentDraftScope, call.usedKey api, api.draftDigest call.command, draft.id⟩])
    (judge : call.ReturnsOwn ↔ call.KeyFree api desk.imports) :
    Books { desk with store, imports := desk.imports ++ [call] } where
  received row member := by
    have member : row ∈ store.receipts.rows := member
    rw [receipts] at member
    rcases List.mem_append.mp member with there | last
    · obtain ⟨earlier, there, rest⟩ := books.received row there
      exact ⟨earlier, List.mem_append_left _ there, rest⟩
    · refine ⟨call, List.mem_append_right _ (List.mem_singleton_self _), stored, ?_⟩
      rw [List.mem_singleton.mp last, drawn]
  receipted earlier member earlierStored := by
    change _ ∈ store.receipts.rows
    rw [receipts]
    rcases List.mem_append.mp member with there | last
    · exact List.mem_append_left _ (books.receipted earlier there earlierStored)
    · obtain rfl := List.mem_singleton.mp last
      rw [← drawn]
      exact List.mem_append_right _ (List.mem_singleton_self _)
  kept earlier member earlierStored := by
    change ∃ row ∈ store.drafts.rows, _
    rw [drafts]
    rcases List.mem_append.mp member with there | last
    · obtain ⟨row, present, same⟩ := books.kept earlier there earlierStored
      exact ⟨row, List.mem_append_left _ present, same⟩
    · obtain rfl := List.mem_singleton.mp last
      exact ⟨draft, List.mem_append_right _ (List.mem_singleton_self _), drawn, document⟩
  imported row member := by
    have member : row ∈ store.drafts.rows := member
    rw [drafts] at member
    rcases List.mem_append.mp member with there | last
    · obtain ⟨earlier, there, rest⟩ := books.imported row there
      exact ⟨earlier, List.mem_append_left _ there, rest⟩
    · obtain rfl := List.mem_singleton.mp last
      exact ⟨call, List.mem_append_right _ (List.mem_singleton_self _), stored, drawn.symm,
        document.symm⟩
  read deploy member := by
    obtain ⟨origin, there, rest⟩ := books.read deploy member
    exact ⟨origin, List.mem_append_left _ there, rest⟩
  judged := books.judged_append judge

/-- Every import keeps the books. -/
theorem imports (books : Books desk) {command : CreateDeploymentDraft} {key : Option String}
    {id : Uuid} {now : Datetime} (fresh : ∀ call ∈ desk.imports, call.drawn ≠ id) :
    Books (desk.answerImport command key id now) := by
  have unused : ∀ draft ∈ desk.store.drafts.rows, draft.id ≠ id := by
    intro draft present same
    obtain ⟨call, member, _, drawn, _⟩ := books.imported draft present
    exact fresh call member (drawn.trans same)
  have judge := books.judge command key now unused
  have creates : DraftStore.Creates desk.store (Api.newDraft command id now)
      (importKey key (api.draftDigest command)) (api.draftDigest command)
      (api.importDraft desk.store command key id now) := DraftStore.createDraft_creates unused
  unfold Desk.answerImport
  generalize api.importDraft desk.store command key id now = outcome at creates judge
  cases creates with
  | conflict => exact books.noted (fun ⟨_, answer, _⟩ => by cases answer) judge
  | replayed found =>
      refine books.noted (fun ⟨draft, answer, drawn⟩ => ?_) judge
      exact unused draft (DraftStore.getDraft_eq_ok answer).1 drawn
  | stored _ drafts receipts => exact books.stored rfl rfl ⟨_, rfl, rfl⟩ drafts receipts judge

theorem step (books : Books desk) (step : Desk.Step desk next) : Books next := by
  cases step with
  | served => exact ⟨books.received, books.receipted, books.kept, books.imported, books.read,
      books.judged⟩
  | imported command key id now _ fresh => exact books.imports fresh
  | @deploying draftId command draft request prepared =>
      refine ⟨books.received, books.receipted, books.kept, books.imported, ?_, books.judged⟩
      intro call member
      rcases List.mem_append.mp member with earlier | last
      · exact books.read call earlier
      · obtain rfl := List.mem_singleton.mp last
        obtain ⟨read, _⟩ := Api.prepareDeploy_eq_ok prepared
        obtain ⟨present, _⟩ := DraftStore.getDraft_eq_ok read
        exact books.imported draft present
  | @deployed call command depth deployment begun =>
      obtain ⟨origin, member, stored, drawn, document⟩ := books.read call begun
      have replaced : ∀ draft, draft ∈ (desk.store.saveDraft
          (Api.startedDraft call.draft deployment)).drafts.rows ↔
          (draft ∈ desk.store.drafts.rows ∧ draft.id ≠ call.draft.id) ∨
            draft = Api.startedDraft call.draft deployment := by
        intro draft
        refine Table.mem_insertOrReplace.trans (or_congr_left (and_congr_right fun _ => ?_))
        simp [DeploymentDraft.clash, Api.startedDraft]
      refine ⟨books.received, books.receipted, fun call' member' stored' => ?_,
        fun draft there => ?_, books.read, books.judged⟩
      · obtain ⟨draft, present, drawn', document'⟩ := books.kept call' member' stored'
        by_cases same : draft.id = call.draft.id
        · refine ⟨_, (replaced _).mpr (.inr rfl), same.symm.trans drawn', ?_⟩
          -- Both documents are that of the one draft stored under this id.
          obtain ⟨other, there, otherDrawn, otherDocument⟩ := books.kept origin member stored
          have clashes : other.clash draft = true := by
            simp [DeploymentDraft.clash, otherDrawn, drawn, same]
          obtain rfl := Table.eq_of_clash DeploymentDraft.clash_symm there present clashes
          exact document.symm.trans (otherDocument.symm.trans document')
        · exact ⟨draft, (replaced _).mpr (.inl ⟨present, same⟩), drawn', document'⟩
      · rcases (replaced draft).mp there with ⟨present, _⟩ | rfl
        · exact books.imported draft present
        · exact ⟨origin, member, stored, drawn, document⟩

end Books

theorem Desk.Reachable.books {desk : Desk environment api} (reached : desk.Reachable) :
    Books desk := by
  induction reached with
  | refl => exact .initial
  | tail _ step ih => exact ih.step step

end CyreneReactor.Drafts
