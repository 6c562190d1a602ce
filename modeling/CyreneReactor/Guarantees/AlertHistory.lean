import CyreneReactor.Alerts.Manager
import CyreneReactor.Data.Window
import Mathlib.Data.List.Basic

namespace CyreneReactor.Alerts

open Numbers

/-! What the alerts since the last reset say about the signals. -/

variable {α Callback : Type}

inductive Operation (α Callback : Type) where
  | check (alertType : AlertType) (value : α) (around : Surroundings α Callback)
  | registerCallback (callback : Callback)
  | reset

/-- A manager, with the alerts it emitted and the values it last checked since the last reset. -/
structure Watch (α Callback : Type) where
  manager : AlertManager α Callback
  emitted : List (Alert α)
  lastValue : AlertType → Option α

/-- The alerts of one signal. -/
def Watch.events (watch : Watch α Callback) (alertType : AlertType) : List (Alert α) :=
  watch.emitted.filter fun alert => alert.alertType = alertType

/-- The alert of a check: what it returns, or what is on record where a callback's exception
ended it. -/
def emission (result : Except Failure (Option (Alert α))) (after : AlertManager α Callback) :
    List (Alert α) :=
  match result with
  | .ok alert => alert.toList
  | .error (.number _) => []
  | .error (.baseException _) => after.alertHistory.getLast?.toList

/-- A check counts unless one of its numbers cannot be converted or shown. -/
def counts : Except Failure (Option (Alert α)) → Bool
  | .error (.number _) => false
  | .ok _ | .error (.baseException _) => true

/-- The number that the check of a signal compares. -/
def Numeric.compared (numeric : Numeric α) (value : α) : AlertType → Except NumberError α
  | .queueDepth => numeric.toFloat value
  | .memoryPressure | .latencyHigh => .ok value

/-- A value is compared as it is. -/
def Numeric.Exact [LT α] (numeric : Numeric α) (alertType : AlertType) (value : α) : Prop :=
  ∃ converted, numeric.compared value alertType = .ok converted ∧ Alike converted value

/-- Only what is no `Exception` leaves a callback. -/
theorem triggerCallbacks_raises {call : Callback → Alert α → Except Raised Unit}
    {alert : Alert α} {callbacks : List Callback} {failure : Failure}
    (raised : triggerCallbacks call alert callbacks = .error failure) :
    ∃ text, failure = .baseException text := by
  induction callbacks with
  | nil => cases raised
  | cons callback rest ih =>
      simp only [triggerCallbacks] at raised
      split at raised
      · cases raised
        exact ⟨_, rfl⟩
      · exact ih raised
      · exact ih raised

theorem AlertManager.emit_cases (manager : AlertManager α Callback)
    (call : Callback → Alert α → Except Raised Unit) (alert : Alert α) :
    ∃ result, manager.emit call alert = (result, manager.recordAlert alert) ∧
      (result = .ok (some alert) ∨ ∃ text, result = .error (.baseException text)) := by
  refine ⟨_, rfl, ?_⟩
  cases triggered : triggerCallbacks call alert (manager.recordAlert alert).callbacks with
  | error failure =>
      obtain ⟨text, rfl⟩ := triggerCallbacks_raises triggered
      exact .inr ⟨text, rfl⟩
  | ok _ => exact .inl rfl

/-- The alert that is recorded is the last on record. -/
theorem AlertManager.recordAlert_last (manager : AlertManager α Callback) (alert : Alert α) :
    (manager.recordAlert alert).alertHistory.getLast? = some alert := by
  simp only [recordAlert]
  split
  · rename_i full
    have kept : ¬ (manager.alertHistory ++ [alert]).length ≤
        (manager.alertHistory ++ [alert]).length - maxHistory := by
      rw [maxHistory] at full ⊢
      omega
    rw [List.getLast?_drop, if_neg kept, List.getLast?_concat]
  · exact List.getLast?_concat

/-- A bounded history that is the end of all alerts stays so when an alert is recorded. -/
theorem AlertManager.recordAlert_history {manager : AlertManager α Callback}
    {emitted : List (Alert α)} (alert : Alert α)
    (held : manager.alertHistory = emitted.drop (emitted.length - maxHistory)) :
    (manager.recordAlert alert).alertHistory =
      (emitted ++ [alert]).drop ((emitted ++ [alert]).length - maxHistory) := by
  have bounded : (manager.recordAlert alert).alertHistory =
      Window.last maxHistory (manager.alertHistory ++ [alert]) := by
    simp only [recordAlert, Window.last]
    split
    · rfl
    · rename_i short
      rw [Nat.sub_eq_zero_of_le (Nat.le_of_not_gt short), List.drop_zero]
  rw [bounded, held]
  exact Window.last_append maxHistory emitted alert

/-- What the alert of a check does to the alerts emitted. -/
theorem emission_eq {result : Except Failure (Option (Alert α))} {alert : Alert α}
    {before : AlertManager α Callback}
    (returned : result = .ok (some alert) ∨ ∃ text, result = .error (.baseException text)) :
    emission result (before.recordAlert alert) = [alert] := by
  rcases returned with rfl | ⟨text, rfl⟩
  · rfl
  · simp only [emission, before.recordAlert_last, Option.toList]

variable {watch : Watch α Callback}

/-- The watch once an alert is emitted for the value. -/
def Watch.after (watch : Watch α Callback) (alert : Alert α) (value : α) : Watch α Callback :=
  ⟨(watch.manager.setState alert.alertType (!alert.resolved)).recordAlert alert,
    watch.emitted ++ [alert], Function.update watch.lastValue alert.alertType (some value)⟩

theorem Watch.after_events (alert : Alert α) (value : α) :
    (watch.after alert value).events alert.alertType = watch.events alert.alertType ++ [alert] := by
  simp [after, events]

theorem Watch.after_events_other {alert : Alert α} {alertType : AlertType} (value : α)
    (other : alert.alertType ≠ alertType) :
    (watch.after alert value).events alertType = watch.events alertType := by
  simp [after, events, other]

variable [LT α] [DecidableLT α]

namespace Watch

def start (queueThreshold memoryThreshold latencyThreshold : α) : Watch α Callback :=
  ⟨.new queueThreshold memoryThreshold latencyThreshold, [], fun _ => none⟩

variable (numeric : Numeric α) (watch : Watch α Callback)

def step : Operation α Callback → Watch α Callback
  | .check alertType value around =>
      let checked := watch.manager.checkSignal numeric value around alertType
      ⟨checked.2, watch.emitted ++ emission checked.1 checked.2,
        if counts checked.1 then Function.update watch.lastValue alertType (some value)
        else watch.lastValue⟩
  | .registerCallback callback => { watch with manager := watch.manager.registerCallback callback }
  | .reset => ⟨watch.manager.reset, [], fun _ => none⟩

def run (operations : List (Operation α Callback)) : Watch α Callback :=
  operations.foldl (step numeric) watch

end Watch

/-- The value of a signal is above its threshold, as the check compares them. -/
def AlertManager.exceeds (manager : AlertManager α Callback) (numeric : Numeric α)
    (alertType : AlertType) (value : α) : Bool :=
  match numeric.compared value alertType,
    numeric.compared (manager.threshold alertType) alertType with
  | .ok value, .ok threshold => decide (threshold < value)
  | _, _ => false

/-- How a check ends: it raises over a number, it emits nothing as the signal is as it was, or
it turns the state over and records the alert that says so. -/
inductive Checked (manager : AlertManager α Callback) (alertType : AlertType) (above : Bool) :
    Except Failure (Option (Alert α)) × AlertManager α Callback → Prop where
  | refused (error : NumberError) :
      Checked manager alertType above (.error (.number error), manager)
  | silent (agrees : manager.alertStates alertType = above) :
      Checked manager alertType above (.ok none, manager)
  | emitted (alert : Alert α) (result : Except Failure (Option (Alert α)))
      (typed : alert.alertType = alertType)
      (turned : alert.resolved = manager.alertStates alertType) (isValue : alert.resolved = !above)
      (returned : result = .ok (some alert) ∨ ∃ text, result = .error (.baseException text)) :
      Checked manager alertType above
        (result, (manager.setState alertType (!alert.resolved)).recordAlert alert)

theorem AlertManager.check_checked (manager : AlertManager α Callback) (alertType : AlertType)
    (value threshold : α) (level : AlertLevel)
    (messages : α → α → Except NumberError (String × String)) (around : Surroundings α Callback) :
    Checked manager alertType (decide (threshold < value))
      (manager.check alertType value threshold level messages around) := by
  unfold check
  by_cases above : value > threshold
  · have isAbove : threshold < value := above
    rw [if_pos above]
    cases active : manager.alertStates alertType with
    | true => exact .silent (by simp [active, isAbove])
    | false =>
        rw [if_neg Bool.false_ne_true]
        cases messages value threshold with
        | error error => exact .refused error
        | ok both =>
            obtain ⟨result, emitted, returned⟩ := (manager.setState alertType true).emit_cases
              around.call ⟨alertType, level, both.1, value, threshold, around.now, false⟩
            simp only [emitted]
            exact .emitted ⟨alertType, level, both.1, value, threshold, around.now, false⟩ result
              rfl active.symm (by simp [isAbove]) returned
  · have notAbove : ¬ threshold < value := above
    rw [if_neg above]
    cases active : manager.alertStates alertType with
    | false => exact .silent (by simp [active, notAbove])
    | true =>
        rw [if_pos rfl]
        cases messages value threshold with
        | error error => exact .refused error
        | ok both =>
            obtain ⟨result, emitted, returned⟩ := (manager.setState alertType false).emit_cases
              around.call ⟨alertType, .info, both.2, value, threshold, around.now, true⟩
            simp only [emitted]
            exact .emitted ⟨alertType, .info, both.2, value, threshold, around.now, true⟩ result
              rfl active.symm (by simp [notAbove]) returned

/-- The same of the check of a signal, against the signal's own threshold. -/
theorem AlertManager.checkSignal_checked (manager : AlertManager α Callback)
    (numeric : Numeric α) (alertType : AlertType) (value : α) (around : Surroundings α Callback) :
    Checked manager alertType (manager.exceeds numeric alertType value)
      (manager.checkSignal numeric value around alertType) := by
  cases alertType with
  | queueDepth =>
      simp only [checkSignal, checkQueueDepth, exceeds, Numeric.compared, threshold]
      cases numeric.toFloat value with
      | error error => exact .refused error
      | ok depth =>
          cases numeric.toFloat manager.queueThreshold with
          | error error => exact .refused error
          | ok limit => exact manager.check_checked ..
  | memoryPressure => exact manager.check_checked ..
  | latencyHigh => exact manager.check_checked ..

/-- What holds of the alerts emitted since the last reset. -/
structure Kept (numeric : Numeric α) (watch : Watch α Callback) : Prop where
  alternates : ∀ alertType index alert, (watch.events alertType)[index]? = some alert →
    alert.resolved = decide (index % 2 = 1)
  state : ∀ alertType,
    watch.manager.alertStates alertType = decide ((watch.events alertType).length % 2 = 1)
  above : ∀ alertType, watch.manager.alertStates alertType =
    (watch.lastValue alertType).any (watch.manager.exceeds numeric alertType)
  history : watch.manager.alertHistory =
    watch.emitted.drop (watch.emitted.length - maxHistory)

variable {numeric : Numeric α}

theorem kept_start (queueThreshold memoryThreshold latencyThreshold : α) :
    Kept numeric (.start queueThreshold memoryThreshold latencyThreshold : Watch α Callback) where
  alternates alertType index alert found := by simp [Watch.start, Watch.events] at found
  state alertType := rfl
  above alertType := rfl
  history := by simp [Watch.start, AlertManager.new]

/-- Nothing is emitted: only the value is new, and it is on the same side as the state. -/
theorem Kept.silent (kept : Kept numeric watch) {alertType : AlertType} {value : α}
    (agrees : watch.manager.alertStates alertType =
      watch.manager.exceeds numeric alertType value) :
    Kept numeric
      { watch with lastValue := Function.update watch.lastValue alertType (some value) } where
  alternates := kept.alternates
  state := kept.state
  above other := by
    by_cases same : other = alertType
    · subst same
      simp [agrees]
    · simp [same, kept.above other]
  history := kept.history

/-- An alert is emitted: it is the next of its signal, and turns the state over. -/
theorem Kept.emitted (kept : Kept numeric watch) {alert : Alert α} {value : α}
    (wasState : alert.resolved = watch.manager.alertStates alert.alertType)
    (isValue : alert.resolved = !watch.manager.exceeds numeric alert.alertType value) :
    Kept numeric (watch.after alert value) where
  alternates alertType index found isFound := by
    by_cases same : alert.alertType = alertType
    · subst same
      rw [Watch.after_events] at isFound
      rcases Nat.lt_trichotomy index (watch.events alert.alertType).length with early | last | late
      · rw [List.getElem?_append_left early] at isFound
        exact kept.alternates _ index found isFound
      · subst last
        rw [List.getElem?_concat_length] at isFound
        cases isFound
        rw [wasState, kept.state]
      · have beyond : (watch.events alert.alertType ++ [alert]).length ≤ index := by
          rw [List.length_append, List.length_singleton]
          exact late
        rw [List.getElem?_eq_none beyond] at isFound
        cases isFound
    · rw [Watch.after_events_other value same] at isFound
      exact kept.alternates alertType index found isFound
  state alertType := by
    by_cases same : alert.alertType = alertType
    · subst same
      have now : (watch.after alert value).manager.alertStates alert.alertType = !alert.resolved :=
        Function.update_self ..
      rw [now, Watch.after_events, List.length_append, List.length_singleton, wasState, kept.state]
      by_cases odd : (watch.events alert.alertType).length % 2 = 1
      · have even : ((watch.events alert.alertType).length + 1) % 2 ≠ 1 := by omega
        simp [odd, even]
      · have next : ((watch.events alert.alertType).length + 1) % 2 = 1 := by omega
        simp [odd, next]
    · have still : (watch.after alert value).manager.alertStates alertType =
          watch.manager.alertStates alertType :=
        Function.update_of_ne (fun equal => same equal.symm) ..
      rw [still, Watch.after_events_other value same, kept.state]
  above alertType := by
    have fixed : (watch.after alert value).manager.exceeds numeric alertType =
        watch.manager.exceeds numeric alertType := by
      cases alertType <;> rfl
    rw [fixed]
    by_cases same : alert.alertType = alertType
    · subst same
      have now : (watch.after alert value).manager.alertStates alert.alertType = !alert.resolved :=
        Function.update_self ..
      have checked : (watch.after alert value).lastValue alert.alertType = some value :=
        Function.update_self ..
      rw [now, checked, isValue, Bool.not_not, Option.any_some]
    · have apart : alertType ≠ alert.alertType := fun equal => same equal.symm
      have still : (watch.after alert value).manager.alertStates alertType =
          watch.manager.alertStates alertType := Function.update_of_ne apart ..
      have last : (watch.after alert value).lastValue alertType = watch.lastValue alertType :=
        Function.update_of_ne apart ..
      rw [still, last, kept.above]
  history := AlertManager.recordAlert_history alert kept.history

theorem Kept.step (kept : Kept numeric watch) (operation : Operation α Callback) :
    Kept numeric (watch.step numeric operation) := by
  cases operation with
  | registerCallback callback => exact ⟨kept.alternates, kept.state, kept.above, kept.history⟩
  | reset =>
      exact
        { alternates := fun alertType index alert found => by
            simp [Watch.step, Watch.events] at found
          state := fun alertType => rfl
          above := fun alertType => rfl
          history := by simp [Watch.step, AlertManager.reset] }
  | check alertType value around =>
      have checked := watch.manager.checkSignal_checked numeric alertType value around
      simp only [Watch.step]
      generalize watch.manager.checkSignal numeric value around alertType = outcome at checked
      cases checked with
      | refused error =>
          simp only [emission, counts, List.append_nil]
          exact kept
      | silent agrees =>
          simp only [emission, counts, Option.toList, List.append_nil, if_true]
          exact kept.silent agrees
      | emitted alert result typed turned isValue returned =>
          subst typed
          have counted : counts result = true := by
            rcases returned with rfl | ⟨text, rfl⟩ <;> rfl
          simp only [emission_eq returned, counted, if_true]
          exact kept.emitted turned isValue

theorem Kept.run (kept : Kept numeric watch) (operations : List (Operation α Callback)) :
    Kept numeric (watch.run numeric operations) := by
  induction operations generalizing watch with
  | nil => exact kept
  | cons operation rest ih => exact ih (kept.step operation)

/-- Where threshold and value are compared as they are, the value itself exceeds the threshold. -/
theorem AlertManager.exceeds_iff {manager : AlertManager α Callback} {alertType : AlertType}
    {value : α} (exact : numeric.Exact alertType value)
    (exactThreshold : numeric.Exact alertType (manager.threshold alertType)) :
    manager.exceeds numeric alertType value = true ↔ manager.threshold alertType < value := by
  obtain ⟨compared, converted, alike⟩ := exact
  obtain ⟨limit, converted', alike'⟩ := exactThreshold
  simp only [exceeds, converted, converted', decide_eq_true_eq]
  exact alike'.lt_iff alike

/-- What the alerts say, in every state: they alternate from a fire on, a signal is active where
its last alert is a fire, which is where its last value is above the threshold, and the history
holds the last of them. -/
structure Law (numeric : Numeric α) (watch : Watch α Callback) : Prop where
  alternates : ∀ alertType index alert, (watch.events alertType)[index]? = some alert →
    alert.resolved = decide (index % 2 = 1)
  active_iff_fire : ∀ alertType, watch.manager.alertStates alertType = true ↔
    ∃ alert, (watch.events alertType).getLast? = some alert ∧ alert.resolved = false
  active_iff_above : ∀ alertType, watch.manager.alertStates alertType = true ↔
    ∃ value, watch.lastValue alertType = some value ∧
      watch.manager.exceeds numeric alertType value = true
  exact : ∀ alertType value, numeric.Exact alertType value →
    numeric.Exact alertType (watch.manager.threshold alertType) →
    (watch.manager.exceeds numeric alertType value = true ↔
      watch.manager.threshold alertType < value)
  history : watch.manager.alertHistory = watch.emitted.drop (watch.emitted.length - 1000)

theorem Kept.law (kept : Kept numeric watch) : Law numeric watch where
  alternates := kept.alternates
  active_iff_fire alertType := by
    rw [kept.state, decide_eq_true_eq, List.getLast?_eq_getElem?]
    constructor
    · intro odd
      have some : (watch.events alertType).length - 1 < (watch.events alertType).length := by omega
      refine ⟨_, List.getElem?_eq_getElem some, ?_⟩
      rw [kept.alternates alertType _ _ (List.getElem?_eq_getElem some)]
      simp only [decide_eq_false_iff_not]
      omega
    · intro last
      obtain ⟨alert, found, fire⟩ := last
      obtain ⟨some, _⟩ := List.getElem?_eq_some_iff.mp found
      rw [kept.alternates alertType _ _ found, decide_eq_false_iff_not] at fire
      omega
  active_iff_above alertType := by rw [kept.above, Option.any_eq_true]
  exact _ _ := AlertManager.exceeds_iff
  history := kept.history

/-- Python compares as they are all floats, and integers of less than 54 bits. -/
theorem python_exact (printer : Printer) (alertType : AlertType) {value : Number}
    (small : ∀ whole, value = .int whole → whole.natAbs < 2 ^ 53) :
    (python printer).Exact alertType value := by
  cases alertType with
  | queueDepth => exact Number.toFloat_exact small
  | memoryPressure | latencyHigh => exact ⟨value, rfl, .refl value⟩

/-- The alert history law, in every run from a new manager. -/
theorem alert_history_law (numeric : Numeric α)
    (queueThreshold memoryThreshold latencyThreshold : α)
    (operations : List (Operation α Callback)) :
    Law numeric
        ((Watch.start queueThreshold memoryThreshold latencyThreshold).run numeric operations) ∧
      ∀ printer alertType value, (∀ whole, value = .int whole → whole.natAbs < 2 ^ 53) →
        (python printer).Exact alertType value :=
  ⟨((kept_start queueThreshold memoryThreshold latencyThreshold).run operations).law,
    fun printer alertType _ small => python_exact printer alertType small⟩

namespace Sample

def printer : Printer := ⟨fun _ => "", fun _ => "", fun _ => ""⟩

/-- A new manager with this threshold of the queue depth, and one check of a depth. -/
def watched (threshold depth : Number) : Watch Number Empty :=
  (Watch.start threshold (.int 90) (.int 5000)).run (python printer)
    [.check .queueDepth depth ⟨0, nofun⟩]

/-- A signal is active exactly where the last value checked is above its threshold. -/
def ActiveIffAbove (watch : Watch Number Empty) : Prop :=
  ∀ alertType, watch.manager.alertStates alertType = true ↔
    ∃ value, watch.lastValue alertType = some value ∧ watch.manager.threshold alertType < value

end Sample

/-- A depth that is rounded to the threshold, and one whose message cannot be written, are
above the threshold and set no alert off. -/
theorem depth_above_threshold_is_missed :
    ¬ Sample.ActiveIffAbove (Sample.watched (.int (2 ^ 53)) (.int (2 ^ 53 + 1))) ∧
      Number.int 100 < .infinity false ∧
      (Sample.watched (.int 100) (.infinity false)).manager.alertStates .queueDepth = false := by
  refine ⟨fun claimed => ?_, by decide, by decide⟩
  have quiet : (Sample.watched (.int (2 ^ 53)) (.int (2 ^ 53 + 1))).manager.alertStates
      .queueDepth = false := by decide
  have active := (claimed .queueDepth).mpr ⟨.int (2 ^ 53 + 1), by decide, by decide⟩
  rw [quiet] at active
  cases active

end CyreneReactor.Alerts
