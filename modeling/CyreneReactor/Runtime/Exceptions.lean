namespace CyreneReactor.Runtime

/-! The exception classes of the inference runtime, as far as a handler tells them apart. -/

inductive ErrorClass where
  | gpuMemoryError
  | resourceError
  | modelError
  | engineError
  | workerError
  | runtimeError
  | valueError
  | exception
  /-- A class that is no `Exception`, such as `SystemExit`. -/
  | baseException
deriving DecidableEq, Repr

namespace ErrorClass

/-- The class right above in the hierarchy. -/
def parent? : ErrorClass → Option ErrorClass
  | gpuMemoryError => some resourceError
  | resourceError | modelError | engineError => some workerError
  | workerError | runtimeError | valueError => some exception
  | exception => some baseException
  | baseException => none

def name : ErrorClass → String
  | gpuMemoryError => "GPUMemoryError"
  | resourceError => "ResourceError"
  | modelError => "ModelError"
  | engineError => "EngineError"
  | workerError => "CYLLMWorkerError"
  | runtimeError => "RuntimeError"
  | valueError => "ValueError"
  | exception => "Exception"
  | baseException => "BaseException"

/-- `isinstance`, for an exception of this class. -/
def isInstance : ErrorClass → ErrorClass → Bool
  | gpuMemoryError, target =>
      target ∈ [gpuMemoryError, resourceError, workerError, exception, baseException]
  | resourceError, target => target ∈ [resourceError, workerError, exception, baseException]
  | modelError, target => target ∈ [modelError, workerError, exception, baseException]
  | engineError, target => target ∈ [engineError, workerError, exception, baseException]
  | workerError, target => target ∈ [workerError, exception, baseException]
  | runtimeError, target => target ∈ [runtimeError, exception, baseException]
  | valueError, target => target ∈ [valueError, exception, baseException]
  | exception, target => target ∈ [exception, baseException]
  | baseException, target => target = baseException

/-- A class is an instance of itself and of what its parent is one of. -/
theorem isInstance_eq (errorClass target : ErrorClass) :
    errorClass.isInstance target =
      (decide (target = errorClass) ||
        errorClass.parent?.any fun parent => parent.isInstance target) := by
  cases errorClass <;> cases target <;> rfl

end ErrorClass

/-- An exception that was raised, with its `str`. -/
structure Thrown where
  errorClass : ErrorClass
  message : String
deriving DecidableEq, Repr

/-- Whether `except Exception` catches it. -/
def Thrown.isException (thrown : Thrown) : Bool := thrown.errorClass.isInstance .exception

def RuntimeError (message : String) : Thrown := ⟨.runtimeError, message⟩

theorem isException_RuntimeError (message : String) (thrown : Thrown)
    (raised : some (RuntimeError message) = some thrown) : thrown.isException = true := by
  cases raised
  rfl

def ValueError (message : String) : Thrown := ⟨.valueError, message⟩

end CyreneReactor.Runtime
