import CyreneReactor.Data.Numbers
import Mathlib.Logic.Function.Basic

namespace CyreneReactor.Alerts

open Numbers

/-! `AlertManager`: one alert when a signal passes its threshold, one when it is back. -/

inductive AlertLevel where
  | info
  | warning
  | critical
deriving DecidableEq, Repr

inductive AlertType where
  | queueDepth
  | memoryPressure
  | latencyHigh
deriving DecidableEq, Repr

structure Alert (α : Type) where
  alertType : AlertType
  level : AlertLevel
  message : String
  value : α
  threshold : α
  timestamp : Rat
  resolved : Bool

/-- What a callback raises; only an `Exception` is caught. -/
inductive Raised where
  | exception (text : String)
  | baseException (text : String)

/-- What leaves a check. -/
inductive Failure where
  | number (error : NumberError)
  | baseException (text : String)
deriving DecidableEq

/-- What the checks do with their numbers: `float(value)`, and how messages show them:
`{int(value)}`, `{value:.1f}` and `{value}`. -/
structure Numeric (α : Type) where
  toFloat : α → Except NumberError α
  whole : α → Except NumberError String
  tenths : α → Except NumberError String
  plain : α → Except NumberError String

/-- How Python shows the numbers that it can show. -/
structure Printer where
  whole : Number → String
  tenths : Number → String
  plain : Number → String

/-- `int(value)`, which is only shown. -/
def asInteger : Number → Except NumberError Number
  | .infinity _ => .error (.overflowError "cannot convert float infinity to integer")
  | .nan => .error (.valueError "cannot convert float NaN to integer")
  | value => .ok value

/-- An integer of more digits is not written in decimal. -/
def maxDigits : Nat := 4300

def asDecimal : Number → Except NumberError Number
  | .int value =>
      if (Nat.toDigits 10 value.natAbs).length ≤ maxDigits then .ok (.int value)
      else .error (.valueError
        "Exceeds the limit (4300 digits) for integer string conversion")
  | value => .ok value

/-- The numbers of Python.  A number shown with decimals is converted to a float first. -/
def python (printer : Printer) : Numeric Number where
  toFloat := Number.toFloat
  whole value := (asInteger value).map printer.whole
  tenths value := value.toFloat.map printer.tenths
  plain value := (asDecimal value).map printer.plain

structure AlertManager (α Callback : Type) where
  queueThreshold : α
  memoryThreshold : α
  latencyThreshold : α
  alertStates : AlertType → Bool
  alertHistory : List (Alert α)
  callbacks : List Callback

/-- What one check meets: the time, and what each callback does with an alert. -/
structure Surroundings (α Callback : Type) where
  now : Rat
  call : Callback → Alert α → Except Raised Unit

def maxHistory : Nat := 1000

variable {α Callback : Type}

/-- `_trigger_callbacks`, which logs an `Exception` and goes on. -/
def triggerCallbacks (call : Callback → Alert α → Except Raised Unit) (alert : Alert α) :
    List Callback → Except Failure Unit
  | [] => .ok ()
  | callback :: rest =>
      match call callback alert with
      | .error (.baseException text) => .error (.baseException text)
      | .error (.exception _) => triggerCallbacks call alert rest
      | .ok () => triggerCallbacks call alert rest

namespace AlertManager

def new (queueThreshold memoryThreshold latencyThreshold : α) : AlertManager α Callback :=
  ⟨queueThreshold, memoryThreshold, latencyThreshold, fun _ => false, [], []⟩

variable (manager : AlertManager α Callback)

def recordAlert (alert : Alert α) : AlertManager α Callback :=
  let history := manager.alertHistory ++ [alert]
  { manager with
    alertHistory :=
      if history.length > maxHistory then history.drop (history.length - maxHistory)
      else history }

def setState (alertType : AlertType) (active : Bool) : AlertManager α Callback :=
  { manager with alertStates := Function.update manager.alertStates alertType active }

/-- Records an alert and calls the callbacks with it. -/
def emit (call : Callback → Alert α → Except Raised Unit) (alert : Alert α) :
    Except Failure (Option (Alert α)) × AlertManager α Callback :=
  let recorded := manager.recordAlert alert
  ((triggerCallbacks call alert recorded.callbacks).map fun _ => some alert, recorded)

variable [LT α] [DecidableLT α]

/-- `_check`.  What the messages raise leaves the state as it is. -/
def check (alertType : AlertType) (value threshold : α) (level : AlertLevel)
    (messages : α → α → Except NumberError (String × String)) (around : Surroundings α Callback) :
    Except Failure (Option (Alert α)) × AlertManager α Callback :=
  if value > threshold then
    if manager.alertStates alertType then (.ok none, manager)
    else
      match messages value threshold with
      | .error error => (.error (.number error), manager)
      | .ok (message, _) =>
          (manager.setState alertType true).emit around.call
            ⟨alertType, level, message, value, threshold, around.now, false⟩
  else if manager.alertStates alertType then
    match messages value threshold with
    | .error error => (.error (.number error), manager)
    | .ok (_, message) =>
        (manager.setState alertType false).emit around.call
          ⟨alertType, .info, message, value, threshold, around.now, true⟩
  else (.ok none, manager)

variable (numeric : Numeric α)

def queueMessages (value threshold : α) : Except NumberError (String × String) := do
  let depth ← numeric.whole value
  let limit ← numeric.whole threshold
  pure ("Queue depth too high: " ++ depth ++ " (threshold: " ++ limit ++ ")",
    "Queue depth recovered: " ++ depth)

def checkQueueDepth (depth : α) (around : Surroundings α Callback) :
    Except Failure (Option (Alert α)) × AlertManager α Callback :=
  match numeric.toFloat depth with
  | .error error => (.error (.number error), manager)
  | .ok value =>
      match numeric.toFloat manager.queueThreshold with
      | .error error => (.error (.number error), manager)
      | .ok threshold =>
          manager.check .queueDepth value threshold .warning (queueMessages numeric) around

def memoryMessages (value threshold : α) : Except NumberError (String × String) := do
  let pressure ← numeric.tenths value
  let limit ← numeric.plain threshold
  pure ("Memory pressure too high: " ++ pressure ++ "% (threshold: " ++ limit ++ "%)",
    "Memory pressure recovered: " ++ pressure ++ "%")

def checkMemoryPressure (pressure : α) (around : Surroundings α Callback) :
    Except Failure (Option (Alert α)) × AlertManager α Callback :=
  manager.check .memoryPressure pressure manager.memoryThreshold .critical
    (memoryMessages numeric) around

def latencyMessages (value threshold : α) : Except NumberError (String × String) := do
  let latency ← numeric.tenths value
  let limit ← numeric.plain threshold
  pure ("Latency too high: " ++ latency ++ "ms (threshold: " ++ limit ++ "ms)",
    "Latency recovered: " ++ latency ++ "ms")

def checkLatency (latency : α) (around : Surroundings α Callback) :
    Except Failure (Option (Alert α)) × AlertManager α Callback :=
  manager.check .latencyHigh latency manager.latencyThreshold .warning
    (latencyMessages numeric) around

def registerCallback (callback : Callback) : AlertManager α Callback :=
  { manager with callbacks := manager.callbacks ++ [callback] }

def reset : AlertManager α Callback :=
  { manager with alertStates := fun _ => false, alertHistory := [] }

/-- The threshold that a signal is checked against. -/
def threshold : AlertType → α
  | .queueDepth => manager.queueThreshold
  | .memoryPressure => manager.memoryThreshold
  | .latencyHigh => manager.latencyThreshold

/-- The check of a signal. -/
def checkSignal (value : α) (around : Surroundings α Callback) :
    AlertType → Except Failure (Option (Alert α)) × AlertManager α Callback
  | .queueDepth => manager.checkQueueDepth numeric value around
  | .memoryPressure => manager.checkMemoryPressure numeric value around
  | .latencyHigh => manager.checkLatency numeric value around

end AlertManager

end CyreneReactor.Alerts
