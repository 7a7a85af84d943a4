import FrigateXdna.Python.Text

/-!
# Failure classification and bounded retry

A terminal job carries a failure record.  Its class decides whether the daemon
may open a new attempt by itself, whether an explicit recovery may, or neither.

The texts of a record that are only displayed ({lit}`reason`, {lit}`guidance`)
are not modelled.  Times are whole nanoseconds.

Main results:

- Definition {lit}`classify`, {lit}`newRecord`, {lit}`autoEligible`: the policy.
- Theorem {lit}`newRecord_eligible_iff`: when some later time retries the record of a
  failed compile.
-/

namespace FrigateXdna

open Python

/-! ## Stages -/

/-- The job stages. -/
inductive Stage
  | queued
  | waitingForDevice
  | compiling
  | fetching
  | downloaded
  | inspected
  | prepared
  | compileFailed
  | resourceExceeded
  | validationFailed
  | unsupportedContract
  | quarantined
  | interrupted
deriving DecidableEq, Repr

/-- The stage as it stands in the registry. -/
def Stage.text : Stage → PyStr
  | .queued => py "QUEUED"
  | .waitingForDevice => py "WAITING_FOR_DEVICE"
  | .compiling => py "COMPILING"
  | .fetching => py "FETCHING"
  | .downloaded => py "DOWNLOADED"
  | .inspected => py "INSPECTED"
  | .prepared => py "PREPARED"
  | .compileFailed => py "COMPILE_FAILED"
  | .resourceExceeded => py "RESOURCE_EXCEEDED"
  | .validationFailed => py "VALIDATION_FAILED"
  | .unsupportedContract => py "UNSUPPORTED_CONTRACT"
  | .quarantined => py "QUARANTINED"
  | .interrupted => py "INTERRUPTED"

/-- {lit}`stage in TERMINAL_ERROR_STATES`. -/
def Stage.terminalError : Stage → Bool
  | .compileFailed | .resourceExceeded | .validationFailed | .unsupportedContract
  | .quarantined | .interrupted => true
  | _ => false

/-- {lit}`stage in TERMINAL_STATES`. -/
def Stage.terminal (s : Stage) : Bool :=
  s == .prepared || s.terminalError

/-! ## Safety-class inhibitions -/

/-- {lit}`SAFETY_REASONS`. -/
def safetyReasons : List PyStr :=
  [py "QUARANTINED", py "SAFETY_INHIBITED", py "HOST_RESET", py "DEVICE_FAULT",
    py "unclean_operation", py "interrupted_unsafe_operation"]

/-- {lit}`SAFETY_PREFIXES`. -/
def safetyPrefixes : List PyStr :=
  [py "QUARANTINED", py "SAFETY_INHIBITED"]

/-- {lit}`is_safety_inhibition`. -/
def isSafetyInhibition (reason : PyStr) : Bool :=
  safetyPrefixes.any (fun p => startsWith p reason) ||
    safetyReasons.any fun token => contains token reason

/-! ## Failure records -/

/-- The failure classes. -/
inductive FailureKind
  | transient
  | configBlocked
  | interruptedSafe
  | permanent
  | safety
  | unknown
deriving DecidableEq, Repr

/-- The class as it stands in a record. -/
def FailureKind.text : FailureKind → PyStr
  | .transient => py "transient"
  | .configBlocked => py "config_blocked"
  | .interruptedSafe => py "interrupted_safe"
  | .permanent => py "permanent"
  | .safety => py "safety"
  | .unknown => py "unknown"

/-- One line of an attempt history. -/
structure HistoryEntry where
  attempt : Int
  stage : Stage
  code : PyStr
  at_ : Int
deriving DecidableEq, Repr

/-- The {lit}`failure_json` dictionary: every key may be absent. -/
structure Failure where
  phase : Option Stage := none
  code : Option PyStr := none
  kind : Option FailureKind := none
  retryable : Option Bool := none
  attempts : Option Int := none
  notBefore : Option Int := none
  history : Option (List HistoryEntry) := none
  resumedFrom : Option PyStr := none
  resumedTo : Option PyStr := none
  resumeRefused : Option PyStr := none
deriving DecidableEq, Repr

/-- {lit}`not record` for a dictionary: no key at all. -/
def Failure.isEmpty (f : Failure) : Bool :=
  f == {}

/-! ## Classification -/

/-- {lit}`MAX_ATTEMPTS`. -/
def maxAttempts : Int := 3

/-- {lit}`BACKOFF_BASE_S`. -/
def backoffBase : Int := 30000000000

/-- {lit}`BACKOFF_CAP_S`. -/
def backoffCap : Int := 600000000000

/-- {lit}`backoff_s`. -/
def backoff (attempt : Int) : Int :=
  min backoffCap (backoffBase * 2 ^ (max 0 (attempt - 1)).toNat)

/-- {lit}`PERMANENT_STAGES`. -/
def permanentStages : List PyStr :=
  [py "UNSUPPORTED_CONTRACT", py "VALIDATION_FAILED", py "QUARANTINED",
    py "SOURCE_CHANGED", py "CACHE_CORRUPT", py "INVALID_MODEL"]

/-- {lit}`PERMANENT_CODES`. -/
def permanentCodes : List PyStr :=
  [py "AUTH_FAILED", py "UNSUPPORTED_CONTRACT", py "INVALID_ARGS",
    py "INVALID_MODEL", py "INVALID_CONFIG", py "SOURCE_CHANGED",
    py "CACHE_CORRUPT", py "NOT_PREPARED", py "OWNERSHIP_CONFLICT",
    py "MODEL_IN_USE", py "QUARANTINED", py "SAFETY_INHIBITED",
    py "DEVICE_FAULT", py "DEVICE_BUSY", py "VALIDATION_FAILED",
    py "ACTIVATION_FAILED"]

/-- Class, {lit}`retryable` and {lit}`auto` of a classified outcome. -/
structure FailureClass where
  kind : FailureKind
  retryable : Bool
  auto : Bool
deriving DecidableEq, Repr

/-- The rest of a line: the characters {lit}`.` of a pattern may run over. -/
def restOfLine (s : PyStr) : PyStr :=
  s.takeWhile fun c => c ≠ 10

/-- {lit}`re.compile("mmap.*err=-11").search(text)`. -/
def mmapErrPattern : PyStr → Bool
  | [] => false
  | c :: cs =>
      (startsWith (py "mmap") (c :: cs) &&
        contains (py "err=-11") (restOfLine ((c :: cs).drop 4))) ||
      mmapErrPattern cs

/-- {lit}`_memlock_pattern`. -/
def memlockPattern (detail : PyStr) : Bool :=
  contains (py "flags=8209") detail ||
    (mmapErrPattern detail &&
      contains (py "Resource temporarily unavailable") detail)

/-- {lit}`_classify_safety`. -/
def classifySafety (stage : Stage) (code : PyStr) : Option FailureClass :=
  if stage = .interrupted then
    some ⟨.interruptedSafe, true, true⟩
  else if stage = .quarantined || [py "QUARANTINED", py "SAFETY_INHIBITED",
      py "DEVICE_FAULT"].contains code then
    some ⟨.safety, false, false⟩
  else
    none

/-- {lit}`_classify_permanent`. -/
def classifyPermanent (stage : Stage) (code : PyStr) : Option FailureClass :=
  if stage = .resourceExceeded || code == py "RESOURCE_EXCEEDED" then
    some ⟨.transient, true, true⟩
  else if !permanentStages.contains stage.text && !permanentCodes.contains code then
    none
  else
    some ⟨.permanent, false, false⟩

/-- {lit}`_classify_evidence`; the stages {lit}`DOWNLOAD_FAILED` and
{lit}`ACQUISITION_FAILED` it also names are not job stages. -/
def classifyEvidence (memlockAdequate : Bool) (detail errorText : PyStr) :
    Option FailureClass :=
  if memlockPattern detail then
    if memlockAdequate then
      some ⟨.unknown, true, false⟩
    else
      some ⟨.configBlocked, true, false⟩
  else if contains (py "probe failed") errorText then
    some ⟨.permanent, false, false⟩
  else if contains (py "timeout") (lower detail) ||
      contains (py "timeout") (lower errorText) then
    some ⟨.transient, true, true⟩
  else
    none

/-- {lit}`error_code or stage`. -/
def codeOrStage (stage : Stage) : Option PyStr → PyStr
  | some c => if c.isEmpty then stage.text else c
  | none => stage.text

/-- {lit}`classify`; {lit}`memlockAdequate` is the current resource limit. -/
def classify (memlockAdequate : Bool) (stage : Stage) (errorCode : Option PyStr)
    (detail errorText : PyStr) : FailureClass :=
  let code := codeOrStage stage errorCode
  match classifySafety stage code with
  | some c => c
  | none =>
      match classifyPermanent stage code with
      | some c => c
      | none =>
          match classifyEvidence memlockAdequate detail errorText with
          | some c => c
          | none => ⟨.unknown, true, false⟩

/-- {lit}`new_record`. -/
def newRecord (memlockAdequate : Bool) (stage : Stage) (errorCode : Option PyStr)
    (detail : PyStr) (attempt now : Int) (historyBase : List HistoryEntry)
    (errorText : PyStr) : Failure :=
  let cls := classify memlockAdequate stage errorCode detail errorText
  let code := codeOrStage stage errorCode
  { phase := some stage
    code := some code
    kind := some cls.kind
    retryable := some cls.retryable
    attempts := some attempt
    notBefore := some
      (if cls.auto && cls.kind == .transient then now + backoff attempt else now)
    history := some (historyBase ++ [⟨attempt, stage, code, now⟩]) }

/-- {lit}`auto_eligible`. -/
def autoEligible (memlockAdequate : Bool) (record : Option Failure) (now : Int) :
    Bool × PyStr :=
  match record with
  | none => (false, py "legacy failure without evidence")
  | some r =>
      if r.isEmpty then (false, py "legacy failure without evidence")
      else if (r.resumedTo.getD []) ≠ [] then (false, py "already resumed")
      else if (r.resumeRefused.getD []) ≠ [] then
        (false, py "resume refused: " ++ r.resumeRefused.getD [])
      else if r.phase.isNone then (false, py "not a terminal failure")
      else if r.attempts.getD 0 ≥ maxAttempts then
        (false, py "attempt budget exhausted")
      else
        match r.kind.getD .unknown with
        | .transient =>
            if now ≥ r.notBefore.getD 0 then (true, py "backoff elapsed")
            else (false, py "backing off")
        | .configBlocked =>
            if memlockAdequate then (true, py "blocking condition corrected")
            else (false, py "blocking condition unchanged")
        | .interruptedSafe => (true, py "safe resume")
        | kind => (false, kind.text ++ py " never retries automatically")

/-! ## When a failure retries -/

/-- Whether the record of a failed compile can come up for an automatic retry. -/
def retriable (memlockAdequate : Bool) (detail errorText : PyStr) : Bool :=
  if memlockPattern detail then !memlockAdequate
  else
    !contains (py "probe failed") errorText &&
      (contains (py "timeout") (lower detail) || contains (py "timeout") (lower errorText))

/-- The class of a failed compile. -/
theorem classify_compileFailed (memlockAdequate : Bool) (detail errorText : PyStr) :
    classify memlockAdequate .compileFailed (some Stage.compileFailed.text) detail errorText =
      (classifyEvidence memlockAdequate detail errorText).getD ⟨.unknown, true, false⟩ := by
  have hsafety : classifySafety .compileFailed Stage.compileFailed.text = none := by decide
  have hpermanent : classifyPermanent .compileFailed Stage.compileFailed.text = none := by
    decide
  have hcode : codeOrStage .compileFailed (some Stage.compileFailed.text) =
      Stage.compileFailed.text := by decide
  unfold classify
  rw [hcode]
  dsimp only
  rw [hsafety]
  dsimp only
  rw [hpermanent]
  dsimp only
  cases classifyEvidence memlockAdequate detail errorText <;> rfl

/-- The evidence speaks for a later retry exactly when it is {lit}`retriable`. -/
theorem classifyEvidence_kind (memlockAdequate : Bool) (detail errorText : PyStr) :
    let kind := ((classifyEvidence memlockAdequate detail errorText).getD
      ⟨.unknown, true, false⟩).kind
    (kind = .transient ∨ kind = .configBlocked ↔
        retriable memlockAdequate detail errorText = true) ∧
      kind ≠ .interruptedSafe := by
  unfold classifyEvidence retriable
  by_cases hmemlock : memlockPattern detail = true
  · cases memlockAdequate <;> simp [hmemlock]
  · by_cases hprobe : contains (py "probe failed") errorText = true
    · simp [hmemlock, hprobe]
    · by_cases htime : (contains (py "timeout") (lower detail) ||
          contains (py "timeout") (lower errorText)) = true
      · rw [if_neg hmemlock, if_neg hprobe, if_pos htime, if_neg hmemlock, htime]
        simp [hprobe]
      · rw [if_neg hmemlock, if_neg hprobe, if_neg htime, if_neg hmemlock]
        simp only [Bool.not_eq_true] at htime
        rw [htime]
        simp

/-- **The record of a failed compile** comes up for an automatic retry at some time and
under some resource limit exactly when attempts are left and the evidence speaks for it. -/
theorem newRecord_eligible_iff (memlockAdequate : Bool) (detail : PyStr) (attempt now : Int)
    (history : List HistoryEntry) (errorText : PyStr) :
    (∃ adequate later, (autoEligible adequate
        (some (newRecord memlockAdequate .compileFailed (some Stage.compileFailed.text)
          detail attempt now history errorText)) later).1 = true) ↔
      attempt < maxAttempts ∧ retriable memlockAdequate detail errorText = true := by
  obtain ⟨hkind, hsafe⟩ := classifyEvidence_kind memlockAdequate detail errorText
  rw [← hkind]
  simp only [newRecord, classify_compileFailed]
  generalize (classifyEvidence memlockAdequate detail errorText).getD
    ⟨.unknown, true, false⟩ = cls at hsafe ⊢
  rcases cls with ⟨kind, retryable, auto⟩
  dsimp only at hsafe ⊢
  constructor
  · rintro ⟨adequate, later, h⟩
    unfold autoEligible at h
    by_cases hbudget : maxAttempts ≤ attempt
    · simp [Failure.isEmpty, hbudget] at h
    · refine ⟨by omega, ?_⟩
      cases kind with
      | transient => exact Or.inl rfl
      | configBlocked => exact Or.inr rfl
      | interruptedSafe => exact absurd rfl hsafe
      | _ => simp [Failure.isEmpty, hbudget] at h
  · rintro ⟨hbudget, hkind⟩
    have hleft : ¬maxAttempts ≤ attempt := by omega
    rcases hkind with rfl | rfl
    · refine ⟨true, if auto && FailureKind.transient == .transient then now + backoff attempt
        else now, ?_⟩
      simp [autoEligible, Failure.isEmpty, hleft]
    · refine ⟨true, now, ?_⟩
      simp [autoEligible, Failure.isEmpty, hleft]

end FrigateXdna
