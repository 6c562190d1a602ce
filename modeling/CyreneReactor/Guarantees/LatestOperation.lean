import CyreneReactor.Interaction.Answers
import CyreneReactor.PackageRuntime.Operations
import CyreneReactor.PackageRuntime.Script

namespace CyreneReactor.PackageRuntime

open TextOrder

/-! Which operation `latest_package_runtime_operation` takes for the latest.

The store compares texts.  They follow the local clock, and only where two local clocks
show the same they follow the distance from UTC.
-/

/-- What the local clock shows, in microseconds. -/
def LocalTime.reading (time : LocalTime) : Nat :=
  let clock := time.clock
  (((Calendar.ordinal clock.year clock.month clock.day * 24 + clock.hour) * 60 + clock.minute) *
    60 + clock.second) * 1000000 + clock.microsecond

/-- The microseconds that have passed in UTC. -/
def LocalTime.instant (time : LocalTime) : Int := time.reading - time.offset * 1000000

section Texts

variable (left right : LocalTime)

theorem LocalTime.toList_zone (time : LocalTime) :
    time.zone.toList = (if time.offset < 0 then '-' else '+') ::
      (digits 2 (time.offset.natAbs / 3600) ++ ':' ::
        (digits 2 (time.offset.natAbs / 60 % 60) ++
          if time.offset.natAbs % 60 = 0 then []
          else ':' :: digits 2 (time.offset.natAbs % 60))) := by
  have bound := time.offset_valid
  unfold zone
  simp only [String.toList_append]
  rw [toList_padded (by decide) (show time.offset.natAbs / 3600 < 10 ^ 2 by omega),
    toList_padded (by decide) (show time.offset.natAbs / 60 % 60 < 10 ^ 2 by omega)]
  split <;> split <;>
    simp [toList_padded (show 0 < 2 by decide)
      (show time.offset.natAbs % 60 < 10 ^ 2 by omega)]

theorem cons_lt_cons_self {front back : List Char} (head : Char) :
    head :: front < head :: back ↔ front < back := by
  rw [List.cons_lt_cons_iff]
  simp only [lt_irrefl, true_and, false_or]

/-- Distances from UTC of one sign are written in their order. -/
theorem distance_lt_iff {less more : Nat} (low : less < 86400) (high : more < 86400) :
    (digits 2 (less / 3600) ++ ':' :: (digits 2 (less / 60 % 60) ++
        if less % 60 = 0 then [] else ':' :: digits 2 (less % 60))) <
      (digits 2 (more / 3600) ++ ':' :: (digits 2 (more / 60 % 60) ++
        if more % 60 = 0 then [] else ':' :: digits 2 (more % 60))) ↔ less < more := by
  have seconds : (if less % 60 = 0 then [] else ':' :: digits 2 (less % 60)) <
      (if more % 60 = 0 then [] else ':' :: digits 2 (more % 60)) ↔ less % 60 < more % 60 := by
    split
    · split
      · simp only [List.lt_irrefl, false_iff]
        omega
      · simp only [List.nil_lt_cons, true_iff]
        omega
    · split
      · simp only [List.not_lt_nil, false_iff]
        omega
      · rw [cons_lt_cons_self, digits_lt_iff (by omega) (by omega)]
  rw [digits_append_lt_iff (by omega) (by omega), cons_lt_cons_self,
    digits_append_lt_iff (by omega) (by omega), seconds]
  omega

/-- Of two distances, the lesser is written before the greater unless it is west of UTC, and
after it if it is. -/
theorem LocalTime.zone_lt_iff (less : left.offset < right.offset) :
    (right.zone < left.zone ↔ left.offset < 0) ∧ (left.zone < right.zone ↔ 0 ≤ left.offset) := by
  have backward := distance_lt_iff right.offset_valid left.offset_valid
  have forward := distance_lt_iff left.offset_valid right.offset_valid
  have signs : '+' < '-' ∧ ¬ '-' < '+' ∧ '-' ≠ '+' := by decide
  rw [String.lt_iff_toList_lt, String.lt_iff_toList_lt, toList_zone, toList_zone]
  by_cases west : left.offset < 0
  · by_cases both : right.offset < 0
    · rw [if_pos west, if_pos both, cons_lt_cons_self, cons_lt_cons_self, backward, forward]
      omega
    · rw [if_pos west, if_neg both, List.cons_lt_cons_iff, List.cons_lt_cons_iff]
      simp only [signs, false_and, true_or, or_self, true_iff, false_iff]
      omega
  · have east : ¬ right.offset < 0 := by omega
    rw [if_neg west, if_neg east, cons_lt_cons_self, cons_lt_cons_self, backward, forward]
    omega

theorem LocalTime.toList_isoformat (time : LocalTime) :
    time.isoformat.toList = digits 4 time.clock.year ++ '-' :: (digits 2 time.clock.month ++ '-' ::
      (digits 2 time.clock.day ++ 'T' :: (digits 2 time.clock.hour ++ ':' ::
        (digits 2 time.clock.minute ++ ':' :: (digits 2 time.clock.second ++
          ((if time.clock.microsecond = 0 then [] else '.' :: digits 6 time.clock.microsecond) ++
            time.zone.toList)))))) := by
  obtain ⟨⟨_, year, _, month, _, _⟩, hour, minute, second, microsecond⟩ := time.clock_valid
  have days := time.clock_valid.day_lt
  unfold isoformat
  simp only [String.toList_append]
  rw [toList_padded (by decide) (show time.clock.year < 10 ^ 4 by omega),
    toList_padded (by decide) (show time.clock.month < 10 ^ 2 by omega),
    toList_padded (by decide) days,
    toList_padded (by decide) (show time.clock.hour < 10 ^ 2 by omega),
    toList_padded (by decide) (show time.clock.minute < 10 ^ 2 by omega),
    toList_padded (by decide) (show time.clock.second < 10 ^ 2 by omega)]
  split <;>
    simp [toList_padded (show 0 < 6 by decide)
      (show time.clock.microsecond < 10 ^ 6 by omega)]

/-- A number in two places is compared by the first place, and then by the second. -/
theorem places_lt_iff {scale high low high' low' : Nat} (bound : low < scale)
    (bound' : low' < scale) :
    high * scale + low < high' * scale + low' ↔ high < high' ∨ (high = high' ∧ low < low') := by
  rcases Nat.lt_trichotomy high high' with less | rfl | more
  · have next := Nat.mul_le_mul_right scale (Nat.succ_le_of_lt less)
    rw [Nat.succ_mul] at next
    simp only [less, true_or, iff_true]
    omega
  · simp
  · have next := Nat.mul_le_mul_right scale (Nat.succ_le_of_lt more)
    rw [Nat.succ_mul] at next
    simp only [Nat.lt_asymm more, (Nat.ne_of_lt more).symm, false_and, or_self, iff_false]
    omega

theorem places_inj {scale high low high' low' : Nat} (bound : low < scale)
    (bound' : low' < scale) :
    high * scale + low = high' * scale + low' ↔ high = high' ∧ low = low' := by
  have forward := @places_lt_iff scale high low high' low' bound bound'
  have backward := @places_lt_iff scale high' low' high low bound' bound
  omega

/-- The fraction is left out when it is zero, and the text stays in order. -/
theorem fraction_lt_iff {less more : Nat} (low : less < 1000000) (high : more < 1000000) :
    ((if less = 0 then [] else '.' :: digits 6 less) ++ left.zone.toList) <
        ((if more = 0 then [] else '.' :: digits 6 more) ++ right.zone.toList) ↔
      less < more ∨ (less = more ∧ left.zone < right.zone) := by
  -- both signs come before the point
  have signs : ∀ time : LocalTime, ∃ sign rest, time.zone.toList = sign :: rest ∧ sign < '.' := by
    intro time
    refine ⟨_, _, time.toList_zone, ?_⟩
    split <;> decide
  obtain ⟨sign, rest, text, first⟩ := signs left
  obtain ⟨sign', rest', text', first'⟩ := signs right
  by_cases whole : less = 0
  · by_cases whole' : more = 0
    · rw [if_pos whole, if_pos whole', List.nil_append, List.nil_append,
        String.lt_iff_toList_lt, whole, whole']
      simp only [Nat.lt_irrefl, true_and, false_or]
    · rw [if_pos whole, if_neg whole', text, List.nil_append, List.cons_append,
        List.cons_lt_cons_iff]
      simp only [first, true_or, true_iff]
      omega
  · by_cases whole' : more = 0
    · rw [if_neg whole, if_pos whole', text', List.nil_append, List.cons_append,
        List.cons_lt_cons_iff]
      have apart : '.' ≠ sign' := fun same => Char.lt_irrefl _ (same ▸ first')
      simp only [Char.lt_asymm first', apart, false_and, or_self, false_iff]
      omega
    · rw [if_neg whole, if_neg whole', List.cons_append, List.cons_append, cons_lt_cons_self,
        digits_append_lt_iff (by omega) (by omega), String.lt_iff_toList_lt]

/-- The text follows the local clock, and then the distance from UTC. -/
theorem LocalTime.isoformat_lt_iff :
    left.isoformat < right.isoformat ↔
      left.reading < right.reading ∨
        (left.reading = right.reading ∧ left.zone < right.zone) := by
  have dates := Calendar.ordinal_lt_iff left.clock_valid.1 right.clock_valid.1
  have same := Calendar.ordinal_inj left.clock_valid.1 right.clock_valid.1
  have first := left.clock_valid.day_lt
  have second := right.clock_valid.day_lt
  obtain ⟨⟨_, year, _, month, _, _⟩, hour, minute, seconds, fraction⟩ := left.clock_valid
  obtain ⟨⟨_, year', _, month', _, _⟩, hour', minute', seconds', fraction'⟩ := right.clock_valid
  rw [String.lt_iff_toList_lt, toList_isoformat, toList_isoformat,
    digits_append_lt_iff (by omega) (by omega), cons_lt_cons_self,
    digits_append_lt_iff (by omega) (by omega), cons_lt_cons_self,
    digits_append_lt_iff first second, cons_lt_cons_self,
    digits_append_lt_iff (by omega) (by omega), cons_lt_cons_self,
    digits_append_lt_iff (by omega) (by omega), cons_lt_cons_self,
    digits_append_lt_iff (by omega) (by omega), fraction_lt_iff left right fraction fraction']
  unfold reading
  rw [places_lt_iff fraction fraction', places_lt_iff seconds seconds',
    places_lt_iff minute minute', places_lt_iff hour hour', places_inj fraction fraction',
    places_inj seconds seconds', places_inj minute minute', places_inj hour hour', dates, same]
  clear dates same first second year month hour minute seconds fraction year' month' hour' minute'
    seconds' fraction'
  grind

end Texts

section Ledgers

variable {ledger : Ledger} {bindingId : String}

/-- The operations of a binding. -/
def Ledger.ofBinding (ledger : Ledger) (bindingId : String) : List Operation :=
  ledger.rows.filter fun row => row.bindingId == bindingId

/-- No operation of the binding was last updated later. -/
def Ledger.IsLatest (ledger : Ledger) (bindingId : String) : Option Operation → Prop
  | none => ledger.ofBinding bindingId = []
  | some latest => latest ∈ ledger.ofBinding bindingId ∧
      ∀ row ∈ ledger.ofBinding bindingId, row.updatedAt.instant ≤ latest.updatedAt.instant

/-- The local clocks tell the latest operation from those updated before it: it shows the later
time, or the same time at a place west of UTC. -/
def Ledger.ClocksTell (ledger : Ledger) (bindingId : String) : Prop :=
  ledger.ofBinding bindingId = [] ∨
    ∃ latest, ledger.IsLatest bindingId (some latest) ∧
      ∀ row ∈ ledger.ofBinding bindingId, row.updatedAt.instant < latest.updatedAt.instant →
        row.updatedAt.reading < latest.updatedAt.reading ∨
          (row.updatedAt.reading = latest.updatedAt.reading ∧ latest.updatedAt.offset < 0)

/-- One comparison of `ORDER BY updated_at DESC, rowid DESC LIMIT 1`. -/
def laterText (best : Option Operation) (row : Operation) : Option Operation :=
  match best with
  | none => some row
  | some old => if row.updatedAt.isoformat < old.updatedAt.isoformat then some old else some row

theorem greatest_text (first : Operation) (rows : List Operation) :
    ∃ latest ∈ first :: rows, rows.foldl laterText (some first) = some latest ∧
      ∀ row ∈ first :: rows, ¬ latest.updatedAt.isoformat < row.updatedAt.isoformat := by
  induction rows generalizing first with
  | nil =>
      refine ⟨first, List.mem_singleton_self first, rfl, fun row member => ?_⟩
      rw [List.mem_singleton.mp member]
      exact lt_irrefl first.updatedAt.isoformat
  | cons second rows ih =>
      rw [List.foldl_cons]
      by_cases less : second.updatedAt.isoformat < first.updatedAt.isoformat
      · obtain ⟨latest, member, same, greatest⟩ := ih first
        refine ⟨latest, by grind, by simpa [laterText, less] using same, ?_⟩
        intro row inside
        rcases List.mem_cons.mp inside with rfl | later
        · exact greatest _ List.mem_cons_self
        · rcases List.mem_cons.mp later with rfl | last
          · intro more
            exact greatest first List.mem_cons_self (lt_trans more less)
          · exact greatest row (List.mem_cons_of_mem _ last)
      · obtain ⟨latest, member, same, greatest⟩ := ih second
        refine ⟨latest, List.mem_cons_of_mem _ member, by simpa [laterText, less] using same, ?_⟩
        intro row inside
        rcases List.mem_cons.mp inside with rfl | later
        · intro more
          have bound := not_lt.mp (greatest second List.mem_cons_self)
          exact less (lt_of_le_of_lt bound more)
        · exact greatest row later

theorem latestRequest_spec :
    (ledger.ofBinding bindingId = [] ∧ ledger.latestRequest bindingId = none) ∨
      ∃ latest ∈ ledger.ofBinding bindingId,
        ledger.latestRequest bindingId = some latest.requestId ∧
          ∀ row ∈ ledger.ofBinding bindingId,
            ¬ latest.updatedAt.isoformat < row.updatedAt.isoformat := by
  have query : ledger.latestRequest bindingId =
      ((ledger.ofBinding bindingId).foldl laterText none).map Operation.requestId := rfl
  rw [query]
  cases ledger.ofBinding bindingId with
  | nil => exact .inl ⟨rfl, rfl⟩
  | cons first rows =>
      obtain ⟨latest, member, same, greatest⟩ := greatest_text first rows
      refine .inr ⟨latest, member, ?_, greatest⟩
      rw [List.foldl_cons]
      simp only [laterText] at same ⊢
      rw [same]
      rfl

/-- The greatest text is the latest operation's exactly where the local clocks tell it. -/
theorem latest_of_latestRequest :
    ledger.IsLatest bindingId
        ((ledger.latestRequest bindingId).bind ledger.packageRuntimeOperation) ↔
      ledger.ClocksTell bindingId := by
  rcases @latestRequest_spec ledger bindingId with ⟨none, query⟩ | ⟨greatest, member, query, most⟩
  · rw [query]
    exact ⟨fun _ => .inl none, fun _ => none⟩
  · have found := Ledger.lookup_of_mem (List.mem_of_mem_filter member)
    rw [query, Option.bind_some, found]
    simp only [LocalTime.isoformat_lt_iff, not_or, not_and] at most
    have some : ledger.ofBinding bindingId ≠ [] := List.ne_nil_of_mem member
    constructor
    · intro latest
      refine .inr ⟨greatest, latest, fun row inside earlier => ?_⟩
      obtain ⟨bound, zones⟩ := most row inside
      by_cases same : row.updatedAt.reading = greatest.updatedAt.reading
      · have offsets : greatest.updatedAt.offset < row.updatedAt.offset := by
          unfold LocalTime.instant at earlier
          omega
        refine .inr ⟨same, ?_⟩
        by_contra east
        exact zones same.symm ((LocalTime.zone_lt_iff _ _ offsets).2.mpr (by omega))
      · exact .inl (by omega)
    · intro tell
      obtain ⟨latest, ⟨inside, last⟩, apart⟩ := tell.resolve_left some
      refine ⟨member, fun row present => le_trans (last row present) ?_⟩
      by_contra earlier
      obtain ⟨bound, zones⟩ := most latest inside
      rcases apart greatest member (by omega) with less | ⟨same, west⟩
      · omega
      · have offsets : latest.updatedAt.offset < greatest.updatedAt.offset := by
          unfold LocalTime.instant at earlier
          omega
        exact zones same ((LocalTime.zone_lt_iff _ _ offsets).1.mpr west)

end Ledgers

section Reports

/-- The ledger answers, and none of the answers changes it. -/
def readsFrom (ledger : Ledger) : (op : Op) → op.Answer → Prop
  | .ledger op, answer => ∃ now, op.run now ledger = (answer, ledger)
  | .client _, _ | .activateAndPersist _ _ _ _, _ | .reconcileBindingOperationAndPersist _, _
  | .bindingOperationReceipt _, _ => False

variable {owner : Owner} {ledger : Ledger}

/-- A transaction that only reads gives what it reads. -/
theorem transact_yields {α : Type} {op : LedgerOp} {answer : op.Answer}
    {next : op.Answer → Owned α} {outcome : Except Failure α}
    (reads : ∀ now, op.run now ledger = (answer, ledger)) :
    (transact op >>= next).run.Yields (readsFrom ledger) outcome ↔
      (next answer).run.Yields (readsFrom ledger) outcome := by
  constructor
  · intro yields
    obtain ⟨given, ⟨now, answered⟩, rest⟩ := yields
    rw [reads now] at answered
    cases answered
    exact rest
  · intro rest
    exact ⟨answer, ⟨⟨⟨1, 1, 1, 0, 0, 0, 0⟩, 0, by decide, by decide⟩, reads _⟩, rest⟩

theorem pure_yields {α : Type} {value : α} {outcome : Except Failure α} :
    (pure value : Owned α).run.Yields (readsFrom ledger) outcome ↔ outcome = .ok value :=
  eq_comm

theorem latestPackageRuntimeOperation_yields {α : Type} {next : Option Operation → Owned α}
    {outcome : Except Failure α} :
    (owner.latestPackageRuntimeOperation >>= next).run.Yields (readsFrom ledger) outcome ↔
      (next ((ledger.latestRequest owner.bindingId).bind
        ledger.packageRuntimeOperation)).run.Yields (readsFrom ledger) outcome := by
  unfold Owner.latestPackageRuntimeOperation
  rw [bind_assoc, transact_yields (fun _ => rfl)]
  cases ledger.latestRequest owner.bindingId with
  | none => rw [pure_bind, Option.bind_none]
  | some requestId =>
      exact @transact_yields ledger α (.packageRuntimeOperation requestId) _ next outcome
        fun _ => rfl

/-- What `status` shows when nothing is pending. -/
def Owner.shown (owner : Owner) : Option Operation → PublicState
  | none => .bare owner.bindingId "NOT_CONFIGURED"
  | some latest => owner.publicState latest

theorem status_yields (idle : ledger.pendingRequest owner.bindingId = none)
    {outcome : Except Failure PublicState} :
    owner.status.run.Yields (readsFrom ledger) outcome ↔
      outcome = .ok (owner.shown
        ((ledger.latestRequest owner.bindingId).bind ledger.packageRuntimeOperation)) := by
  unfold Owner.status Owner.pendingPackageRuntimeOperation
  rw [bind_assoc, transact_yields (fun _ => rfl), idle]
  rw [pure_bind, latestPackageRuntimeOperation_yields]
  cases (ledger.latestRequest owner.bindingId).bind ledger.packageRuntimeOperation with
  | none => exact pure_yields
  | some latest => exact pure_yields

/-- What is shown of two operations of a ledger tells them apart. -/
theorem shown_inj {left right : Option Operation}
    (inside : ∀ row, left = some row ∨ right = some row → row ∈ ledger.rows)
    (same : owner.shown left = owner.shown right) : left = right := by
  cases left with
  | none =>
      cases right with
      | none => rfl
      | some row => cases same
  | some row =>
      cases right with
      | none => cases same
      | some other =>
          have ids : row.requestId = other.requestId := by
            simp only [Owner.shown, Owner.publicState, PublicState.projected.injEq] at same
            exact same.2.1
          have found := Ledger.lookup_of_mem (inside row (.inl rfl))
          rw [ids, Ledger.lookup_of_mem (inside other (.inr rfl))] at found
          exact found.symm

/-- The program ends with what is shown of an operation that no other follows. -/
def ReportsLatest {α : Type} (program : Owned α) (shown : Option Operation → α)
    (ledger : Ledger) (bindingId : String) : Prop :=
  ∃ result, ledger.IsLatest bindingId result ∧
    ∀ outcome, program.run.Yields (readsFrom ledger) outcome ↔ outcome = .ok (shown result)

theorem store_reports_iff :
    ReportsLatest owner.latestPackageRuntimeOperation id ledger owner.bindingId ↔
      ledger.ClocksTell owner.bindingId := by
  have stored : ∀ outcome,
      owner.latestPackageRuntimeOperation.run.Yields (readsFrom ledger) outcome ↔ outcome =
        .ok ((ledger.latestRequest owner.bindingId).bind ledger.packageRuntimeOperation) := by
    intro outcome
    have ends := @latestPackageRuntimeOperation_yields owner ledger _ pure outcome
    rw [bind_pure] at ends
    exact ends.trans pure_yields
  rw [← latest_of_latestRequest]
  constructor
  · intro given
    obtain ⟨result, last, ends⟩ := given
    cases (ends _).mp ((stored _).mpr rfl)
    exact last
  · exact fun last => ⟨_, last, stored⟩

theorem status_reports_iff (idle : ledger.pendingRequest owner.bindingId = none) :
    ReportsLatest owner.status owner.shown ledger owner.bindingId ↔
      ledger.ClocksTell owner.bindingId := by
  rw [← latest_of_latestRequest]
  constructor
  · intro given
    obtain ⟨result, last, ends⟩ := given
    have same := (ends _).mp ((status_yields idle).mpr rfl)
    have inside : ∀ row, (ledger.latestRequest owner.bindingId).bind
        ledger.packageRuntimeOperation = some row ∨ result = some row → row ∈ ledger.rows := by
      intro row either
      rcases either with read | rfl
      · obtain ⟨requestId, _, found⟩ := Option.bind_eq_some_iff.mp read
        exact (Ledger.mem_of_lookup found).1
      · exact List.mem_of_mem_filter last.1
    rwa [shown_inj inside (Except.ok.inj same)]
  · exact fun last => ⟨_, last, fun _ => status_yields idle⟩

/-- The latest operation is what the store gives, exactly where the local clocks tell it; and so
it is with what `status` shows when nothing is pending. -/
theorem latest_operation_is_latest_iff (owner : Owner) (ledger : Ledger) :
    (ReportsLatest owner.latestPackageRuntimeOperation id ledger owner.bindingId ↔
      ledger.ClocksTell owner.bindingId) ∧
    (ledger.pendingRequest owner.bindingId = none →
      (ReportsLatest owner.status owner.shown ledger owner.bindingId ↔
        ledger.ClocksTell owner.bindingId)) :=
  ⟨store_reports_iff, status_reports_iff⟩

/-- One distance from UTC for all operations of a binding is enough. -/
theorem clocksTell_of_offset {bindingId : String} {offset : Int}
    (one : ∀ row ∈ ledger.ofBinding bindingId, row.updatedAt.offset = offset) :
    ledger.ClocksTell bindingId := by
  rw [← latest_of_latestRequest]
  rcases @latestRequest_spec ledger bindingId with ⟨none, query⟩ | ⟨greatest, member, query, most⟩
  · rw [query]
    exact none
  · rw [query, Option.bind_some, Ledger.lookup_of_mem (List.mem_of_mem_filter member)]
    refine ⟨member, fun row inside => ?_⟩
    have bound := most row inside
    rw [LocalTime.isoformat_lt_iff] at bound
    have here := one row inside
    have there := one greatest member
    unfold LocalTime.instant
    omega

/-- An hour is set back between two activations. -/
def setBack : Ledger where
  rows :=
    [⟨"first", "binding", "package", "installation", "activate", .completed, none, none,
        ⟨⟨2025, 10, 26, 2, 50, 0, 0⟩, 7200, by decide, by decide⟩⟩,
      ⟨"second", "binding", "package", "installation", "activate", .completed, none, none,
        ⟨⟨2025, 10, 26, 2, 10, 0, 0⟩, 3600, by decide, by decide⟩⟩]
  distinct := by decide

theorem setBack_not_told : ¬ setBack.ClocksTell "binding" := by
  have rows : setBack.ofBinding "binding" = setBack.rows := by
    simp [Ledger.ofBinding, setBack]
  unfold Ledger.ClocksTell Ledger.IsLatest
  rw [rows]
  intro tell
  rcases tell with none | ⟨latest, ⟨inside, last⟩, apart⟩
  · cases none
  · simp only [setBack, List.mem_cons, List.not_mem_nil, or_false] at inside
    rcases inside with rfl | rfl
    · have second := last _ (List.mem_cons_of_mem _ List.mem_cons_self)
      revert second
      decide
    · have first := apart _ List.mem_cons_self
      revert first
      decide

/-- The first activation is reported as the latest, though the second was completed 20 minutes
after it. -/
theorem clock_set_back_hides_latest :
    setBack.pendingRequest Sample.owner.bindingId = none ∧
      ¬ ReportsLatest Sample.owner.latestPackageRuntimeOperation id setBack
        Sample.owner.bindingId ∧
      ¬ ReportsLatest Sample.owner.status Sample.owner.shown setBack Sample.owner.bindingId := by
  have idle : setBack.pendingRequest Sample.owner.bindingId = none := by
    simp [Ledger.pendingRequest, Relational.Table.find?, setBack, Phase.pending]
  exact ⟨idle, fun given => setBack_not_told (store_reports_iff.mp given),
    fun given => setBack_not_told ((status_reports_iff idle).mp given)⟩

end Reports

end CyreneReactor.PackageRuntime
