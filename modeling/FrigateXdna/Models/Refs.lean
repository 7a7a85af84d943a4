import FrigateXdna.Errors
import Mathlib.Data.List.DropRight

/-!
# Model reference parsing

{lit}`parse_ref` turns the text a user supplies into a kind and an identity.  The
file system enters through {lit}`realpath` and {lit}`expanduser`; {lit}`repr` only
occurs in messages.

Main results:

- Theorem {lit}`parseRef_ref`: the identity {lit}`parse_ref` returns parses to
  itself.
- Theorem {lit}`exists_parseRef_iff`: a stored ref can be named by some argument
  exactly when it is an identity {lit}`parse_ref` returns for itself.
-/

namespace FrigateXdna

open Python

/-! ## The file system and text functions used -/

/-- What {lit}`parse_ref` asks the operating system and the interpreter. -/
structure RefEnv where
  realpath : PyStr → PyStr
  expanduser : PyStr → PyStr
  repr : PyStr → PyStr

/-- {lit}`os.path.join(a, b)`. -/
def joinPath (a b : PyStr) : PyStr :=
  if startsWith (py "/") b then b
  else if a.isEmpty || endsWith (py "/") a then a ++ b
  else a ++ py "/" ++ b

/-- {lit}`text.split("/")`. -/
def splitSlash : PyStr → List PyStr
  | [] => [[]]
  | c :: cs =>
      match splitSlash cs with
      | [] => [[c]]
      | part :: parts => if c = 47 then [] :: part :: parts else (c :: part) :: parts

/-- The components {lit}`os.path.commonpath` compares. -/
def pathParts (p : PyStr) : List PyStr :=
  (splitSlash p).filter fun c => !c.isEmpty && c != py "."

/-- The longest common beginning. -/
def commonParts : List PyStr → List PyStr → List PyStr
  | a :: as, b :: bs => if a = b then a :: commonParts as bs else []
  | _, _ => []

/-- {lit}`os.path.commonpath([a, b])` of absolute paths. -/
def commonPath (a b : PyStr) : PyStr :=
  py "/" ++ joinParts (commonParts (pathParts a) (pathParts b))
where
  /-- {lit}`"/".join(parts)`. -/
  joinParts : List PyStr → PyStr
    | [] => []
    | [p] => p
    | p :: q :: rest => p ++ py "/" ++ joinParts (q :: rest)

/-! ## Identifiers -/

/-- {lit}`[A-Za-z0-9]`. -/
def isAlnum (c : Nat) : Bool :=
  decide (48 ≤ c ∧ c ≤ 57 ∨ 65 ≤ c ∧ c ≤ 90 ∨ 97 ≤ c ∧ c ≤ 122)

/-- A letter or digit, then at most 127 more characters that may also be one of
{lit}`extra`. -/
def matchId (extra : List Nat) : PyStr → Bool
  | [] => false
  | c :: cs =>
      isAlnum c && decide (cs.length ≤ 127) &&
        cs.all fun d => isAlnum d || extra.contains d

/-- {lit}`PLUS_ID_RE.fullmatch`: also underscore, dot, colon, hyphen. -/
def plusId (s : PyStr) : Bool :=
  matchId [95, 46, 58, 45] s

/-- {lit}`LOCAL_ID_RE.fullmatch`: also underscore, dot, hyphen. -/
def localId (s : PyStr) : Bool :=
  matchId [95, 46, 45] s

/-! ## Parsing -/

/-- The ref forms. -/
inductive RefKind
  | plus
  | local
  | onnx
  | rai
deriving DecidableEq, Repr

/-- What {lit}`parse_ref` returns. -/
structure ParsedRef where
  kind : RefKind
  id : Option PyStr
  path : Option PyStr
  ref : PyStr
deriving DecidableEq, Repr

/-- {lit}`FxdnaError(INVALID_ARGS, "INVALID_REF", message)`. -/
def invalidRef {α : Type} (message : PyStr) : Except FxdnaError α :=
  .error ⟨exitInvalidArgs, py "INVALID_REF", message⟩

/-- {lit}`resolve_local_path`. -/
def resolveLocalPath (env : RefEnv) (modelDir modelId : PyStr) :
    Except FxdnaError PyStr :=
  if !localId modelId then
    invalidRef (py "invalid local model ID: " ++ env.repr modelId)
  else if !startsWith (py "/") modelDir then
    invalidRef (py "local model refs need an absolute model directory" ++
      py " (FXDNA_MODEL_DIR)")
  else
    let candidate := joinPath modelDir (modelId ++ py ".onnx")
    let realDir := env.realpath modelDir
    let realPath := env.realpath candidate
    if commonPath realDir realPath ≠ realDir then
      invalidRef (py "local model " ++ env.repr modelId ++
        py " escapes the model directory")
    else
      .ok candidate

/-- {lit}`ref.split("://", 1)[0]`. -/
def schemeOf : PyStr → PyStr
  | [] => []
  | c :: cs => if startsWith (py "://") (c :: cs) then [] else c :: schemeOf cs

/-- The suffixes of refused formats. -/
def refusedSuffixes : List PyStr :=
  [py ".pt", py ".pth", py ".pkl", py ".pickle", py ".bin", py ".dll", py ".so",
    py ".dylib", py ".py"]

/-- The part of {lit}`parse_ref` after the ref was stripped. -/
def parseStripped (env : RefEnv) (modelDir : Option PyStr) (ref : PyStr) :
    Except FxdnaError ParsedRef :=
  if ref.isEmpty then
    invalidRef (py "empty model ref")
  else if contains (py ",") ref || contains (py "\n") ref then
    invalidRef (py "model ref must be a single value: " ++ env.repr ref)
  else if startsWith (py "plus://") ref then
    let modelId := ref.drop (py "plus://").length
    if !plusId modelId then
      invalidRef (py "invalid Plus model ID: " ++ env.repr ref)
    else
      .ok ⟨.plus, some modelId, none, py "plus://" ++ modelId⟩
  else if startsWith (py "local://") ref then
    let modelId := ref.drop (py "local://").length
    match resolveLocalPath env (modelDir.getD []) modelId with
    | .error e => .error e
    | .ok path => .ok ⟨.local, some modelId, some path, py "local://" ++ modelId⟩
  else if contains (py "://") ref then
    invalidRef (py "unsupported ref scheme " ++ env.repr (lower (schemeOf ref)) ++
      py ": use plus://ID, local://ID, or a local ONNX/RAI path")
  else
    let path := env.expanduser ref
    if path.isEmpty || path != ref then
      invalidRef (py "invalid local path: " ++ env.repr ref)
    else if endsWith (py ".onnx") (lower path) then
      .ok ⟨.onnx, none, some path, path⟩
    else if endsWith (py ".rai") (lower path) then
      .ok ⟨.rai, none, some path, path⟩
    else if refusedSuffixes.any fun x => endsWith x (lower path) then
      invalidRef (py "refused executable/pickle/custom-op format: " ++ env.repr ref)
    else
      invalidRef (py "local ref must be .onnx or .rai (+descriptor): " ++ env.repr ref)

/-- {lit}`parse_ref`. -/
def parseRef (env : RefEnv) (modelDir : Option PyStr) (ref : PyStr) :
    Except FxdnaError ParsedRef :=
  parseStripped env modelDir (strip ref)

/-! ## Stripping twice -/

theorem strip_eq_rdropWhile (s : PyStr) :
    strip s = List.rdropWhile isSpace (s.dropWhile isSpace) :=
  rfl

/-- Stripped text does not start with white space. -/
theorem dropWhile_strip (s : PyStr) : (strip s).dropWhile isSpace = strip s := by
  cases hs : strip s with
  | nil => rfl
  | cons c rest =>
      have hprefix : c :: rest <+: s.dropWhile isSpace := by
        rw [← hs, strip_eq_rdropWhile]
        exact List.rdropWhile_prefix isSpace _
      obtain ⟨more, hmore⟩ := hprefix
      have hc : isSpace c = false := by
        have := List.head?_dropWhile_not isSpace s
        rw [← hmore] at this
        simpa using this
      simp [hc]

/-- Stripping is idempotent. -/
theorem strip_strip (s : PyStr) : strip (strip s) = strip s := by
  rw [strip_eq_rdropWhile, dropWhile_strip, strip_eq_rdropWhile]
  exact List.rdropWhile_idempotent isSpace _

/-! ## The identity parses to itself -/

/-- A scheme prefix and what follows it make up the ref. -/
theorem startsWith_append_drop {head s : PyStr} (h : startsWith head s = true) :
    head ++ s.drop head.length = s := by
  obtain ⟨t, rfl⟩ := List.isPrefixOf_iff_prefix.mp h
  simp

/-- The identity that {lit}`parse_ref` returns is the stripped text itself. -/
theorem parseStripped_ref {env : RefEnv} {modelDir : Option PyStr} {ref : PyStr}
    {p : ParsedRef} (h : parseStripped env modelDir ref = .ok p) : p.ref = ref := by
  unfold parseStripped at h
  split at h
  · contradiction
  · split at h
    · contradiction
    · split at h
      · rename_i hplus
        dsimp only at h
        split at h
        · contradiction
        · obtain rfl := Except.ok.inj h
          exact startsWith_append_drop hplus
      · split at h
        · rename_i hlocal
          dsimp only at h
          split at h
          · contradiction
          · obtain rfl := Except.ok.inj h
            exact startsWith_append_drop hlocal
        · split at h
          · contradiction
          · dsimp only at h
            split at h
            · contradiction
            · rename_i hpath
              have hkept : ¬env.expanduser ref = [] ∧ env.expanduser ref = ref := by
                simpa using hpath
              have hsame := hkept.2
              split at h
              · obtain rfl := Except.ok.inj h
                exact hsame
              · split at h
                · obtain rfl := Except.ok.inj h
                  exact hsame
                · split at h <;> contradiction

/-- Parsing a returned identity again gives the same result. -/
theorem parseRef_ref {env : RefEnv} {modelDir : Option PyStr} {arg : PyStr}
    {p : ParsedRef} (h : parseRef env modelDir arg = .ok p) :
    parseRef env modelDir p.ref = .ok p := by
  rw [parseStripped_ref h, parseRef, strip_strip]
  exact h

/-- Some argument names a stored ref exactly when the stored ref, taken as an
argument, is accepted and returned unchanged. -/
theorem exists_parseRef_iff {env : RefEnv} {modelDir : Option PyStr} {stored : PyStr} :
    (∃ arg p, parseRef env modelDir arg = .ok p ∧ p.ref = stored) ↔
      ∃ p, parseRef env modelDir stored = .ok p ∧ p.ref = stored := by
  constructor
  · rintro ⟨arg, p, hparse, rfl⟩
    exact ⟨p, parseRef_ref hparse, rfl⟩
  · rintro ⟨p, hparse, href⟩
    exact ⟨stored, p, hparse, href⟩

end FrigateXdna
