import FrigateXdna.Runtime.Native

/-!
# Exit codes, structured errors, and what a call raises

{lit}`FxdnaError` carries an exit code, a stable error code and a message.  The
handlers tell it apart from worker errors and from built-in exceptions, so a
raised exception is one of the three.
-/

namespace FrigateXdna

open Python FrigateXdna.Runtime

/-! ## Exit codes -/

/-- {lit}`INVALID_ARGS`. -/
def exitInvalidArgs : Nat := 2

/-- {lit}`NOT_READY`. -/
def exitNotReady : Nat := 3

/-- {lit}`ACQUISITION_FAILED`. -/
def exitAcquisitionFailed : Nat := 4

/-- {lit}`UNSUPPORTED_CONTRACT`. -/
def exitUnsupportedContract : Nat := 5

/-- {lit}`COMPILE_FAILED`. -/
def exitCompileFailed : Nat := 6

/-- {lit}`VALIDATION_FAILED`. -/
def exitValidationFailed : Nat := 7

/-- {lit}`DEVICE_UNAVAILABLE`. -/
def exitDeviceUnavailable : Nat := 8

/-- {lit}`CACHE_CORRUPT`. -/
def exitCacheCorrupt : Nat := 10

/-! ## Raised exceptions -/

/-- {lit}`FxdnaError`. -/
structure FxdnaError where
  exitCode : Nat
  errorCode : PyStr
  message : PyStr
deriving DecidableEq, Repr

/-- An exception in flight. -/
inductive Raised
  | fxdna (e : FxdnaError)
  | worker (e : WorkerError)
  | builtin (e : PyExc)

end FrigateXdna
