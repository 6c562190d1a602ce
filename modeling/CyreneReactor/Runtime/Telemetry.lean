import Mathlib.Algebra.Group.Nat.Defs
import Mathlib.Algebra.Order.Ring.Rat

namespace CyreneReactor.Runtime

/-! `Telemetry`: the counters and latencies of one server.

Every method runs under the lock of the instance, so calls follow one another.
-/

def indexError : String := "list index out of range"

/-- `values[index]`; a negative index counts from the end. -/
def subscript (values : List Rat) (index : Int) : Except String Rat :=
  let place := if index < 0 then index + values.length else index
  if place < 0 then .error indexError
  else
    match values[place.toNat]? with
    | some value => .ok value
    | none => .error indexError

/-- `int(value)`, which drops the fraction. -/
def int (value : Rat) : Int := value.num.tdiv value.den

def position (sortedData : List Rat) (percentile : Rat) : Rat :=
  ((sortedData.length : Rat) - 1) * percentile / 100

def lower (sortedData : List Rat) (percentile : Rat) : Int := int (position sortedData percentile)

def upper (sortedData : List Rat) (percentile : Rat) : Int :=
  min (lower sortedData percentile + 1) ((sortedData.length : Int) - 1)

def percentile (sortedData : List Rat) (percentile : Rat) : Except String Rat :=
  if sortedData = [] then .ok 0
  else do
    let low ← subscript sortedData (lower sortedData percentile)
    let high ← subscript sortedData (upper sortedData percentile)
    pure (low + (position sortedData percentile - lower sortedData percentile) * (high - low))

/-- `deque(maxlen=512)` -/
def maxLatencies : Nat := 512

structure Telemetry where
  requestsInflight : Int
  requestsSuccess : Nat
  requestsFailed : Nat
  tokensTotal : Int
  latencies : List Rat

/-- A full deque drops its first items. -/
def append (latencies : List Rat) (latency : Rat) : List Rat :=
  (latencies ++ [latency]).drop (latencies.length + 1 - maxLatencies)

structure Snapshot where
  requestsInflight : Rat
  requestsSuccess : Rat
  requestsFailed : Rat
  latencyAvgMs : Rat
  latencyP50Ms : Rat
  latencyP95Ms : Rat
  latencyP99Ms : Rat
  tokensTotal : Rat
deriving DecidableEq, Repr

namespace Telemetry

def initial : Telemetry := ⟨0, 0, 0, 0, []⟩

variable (telemetry : Telemetry)

def trackRequestStart : Telemetry :=
  { telemetry with requestsInflight := telemetry.requestsInflight + 1 }

def trackRequestEnd (latencySeconds : Rat) (success : Bool) : Telemetry where
  requestsInflight := max 0 (telemetry.requestsInflight - 1)
  requestsSuccess := if success then telemetry.requestsSuccess + 1 else telemetry.requestsSuccess
  requestsFailed := if success then telemetry.requestsFailed else telemetry.requestsFailed + 1
  tokensTotal := telemetry.tokensTotal
  latencies := append telemetry.latencies latencySeconds

def trackTokenGenerated (tokens : Int) : Telemetry :=
  { telemetry with tokensTotal := telemetry.tokensTotal + tokens }

def sortedLatencies : List Rat := telemetry.latencies.mergeSort fun left right => decide (left ≤ right)

def average (sortedLatencies : List Rat) : Rat :=
  if sortedLatencies = [] then 0 else sortedLatencies.sum / sortedLatencies.length

def snapshot : Except String Snapshot := do
  let sortedLatencies := telemetry.sortedLatencies
  let p50 ← percentile sortedLatencies 50
  let p95 ← percentile sortedLatencies 95
  let p99 ← percentile sortedLatencies 99
  pure
    { requestsInflight := telemetry.requestsInflight
      requestsSuccess := telemetry.requestsSuccess
      requestsFailed := telemetry.requestsFailed
      latencyAvgMs := average sortedLatencies * 1000
      latencyP50Ms := p50 * 1000
      latencyP95Ms := p95 * 1000
      latencyP99Ms := p99 * 1000
      tokensTotal := telemetry.tokensTotal }

def reset : Telemetry := initial

/-- A call of a method that changes the instance. -/
inductive Call where
  | trackRequestStart
  | trackRequestEnd (latencySeconds : Rat) (success : Bool)
  | trackTokenGenerated (tokens : Int)
  | reset

def answer : Call → Telemetry
  | .trackRequestStart => telemetry.trackRequestStart
  | .trackRequestEnd latencySeconds success => telemetry.trackRequestEnd latencySeconds success
  | .trackTokenGenerated tokens => telemetry.trackTokenGenerated tokens
  | .reset => reset

/-- The instance after the calls. -/
def after (calls : List Call) : Telemetry := calls.foldl answer initial

end Telemetry

end CyreneReactor.Runtime
