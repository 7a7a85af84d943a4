import Mathlib.Data.List.AList
import FrigateXdna.Cache.Store
import FrigateXdna.Supervisor.Preparation

/-!
# Recovery of a data dir after a crash

{lit}`recover` on a data dir with any leftovers: entries of {lit}`work/` and of
{lit}`artifacts/` that are files, symbolic links or directories, places in
{lit}`failures/` and {lit}`quarantine/` that are taken, and an {lit}`artifact.json` of any
bytes.  The statements of the registry raise for what SQLite does not store.

The layout directories exist.  A file operation raises only for what stands in its way, or
for a name that the file system does not take.

Main results:

- Definition {lit}`DataDir.recover`: the two passes.
- Definition {lit}`DataDir.Recoverable`: what a data dir needs for its recovery.
- Definition {lit}`DataDir.Recovered`: what a recovery is for.
-/

namespace FrigateXdna

open Python Library

/-! ## Entries of a directory -/

/-- What {lit}`recover` opens in a directory: the files {lit}`artifact.json` and
{lit}`model.rai`. -/
structure Content where
  manifest : Option Bytes := none
  model : Option Bytes := none
deriving DecidableEq, Repr

/-- An entry of a directory.  A link may lead to a directory or not. -/
inductive Node
  | file
  | link (target : Option Content)
  | dir (content : Content)
deriving DecidableEq, Repr

namespace Node

/-- The directory that is opened under the name of an entry. -/
def content? : Node → Option Content
  | file => none
  | link target => target
  | dir content => some content

/-- {lit}`os.path.isdir`. -/
def isDir (n : Node) : Bool :=
  n.content?.isSome

/-- {lit}`os.path.islink`. -/
def isLink : Node → Bool
  | link _ => true
  | _ => false

/-- A directory, not a link to one. -/
def isReal : Node → Bool
  | dir _ => true
  | _ => false

end Node

/-- A directory by the names of its entries. -/
abbrev Folder := AList fun _ : PyStr => Node

/-! ## File operations -/

/-- What the file system and the data base engine decide: the clock, the digest, the
recursion limit of the JSON reader, the text of a stored real number, which names the file
system takes, and the name of a temporary file. -/
structure Host where
  now : Int
  sha256 : Bytes → PyStr
  jsonLimit : Nat
  realText : PyFloat → PyStr
  nameFits : PyStr → Bool
  tmpName : PyStr → PyStr

/-- {lit}`shutil.rmtree`, which refuses links and files. -/
def rmtree : Node → Except PyExc Unit
  | .dir _ => .ok ()
  | _ => .error .osError

/-- {lit}`os.rename` of an entry to a place that holds no directory that is not empty.  A
directory replaces nothing but a directory, and nothing else replaces one. -/
def renameOnto (entry : Node) : Option Node → Except PyExc Unit
  | none => .ok ()
  | some (.dir _) => .error .osError
  | some _ => if entry.isReal then .error .osError else .ok ()

/-- Remove what stands at a place when {lit}`guard` says so, then rename an entry to it. -/
def moveTo (h : Host) (guard : Node → Bool) (place : Folder) (name : PyStr) (entry : Node) :
    Except PyExc Folder := do
  let there ← match place.lookup name with
    | none => pure none
    | some old => if guard old then do rmtree old; pure none else pure (some old)
  if h.nameFits name then do
    renameOnto entry there
    return place.insert name entry
  else .error .osError

/-- {lit}`atomic_write` of a small file. -/
def atomicWrite (h : Host) (place : Folder) (name : PyStr) : Except PyExc Folder :=
  if h.nameFits (h.tmpName name) then do
    renameOnto .file (place.lookup name)
    return place.insert name .file
  else .error .osError

/-! ## Adoption -/

/-- The text that a column of a row gets for a value, {lit}`none` for {lit}`NULL`. -/
def bindColumn (h : Host) : Json → Except PyExc (Option PyStr)
  | .null => .ok none
  | .bool b => .ok (some (if b then py "1" else py "0"))
  | .int z =>
      if -(2 ^ 63) ≤ z ∧ z < 2 ^ 63 then .ok (some (intRepr z)) else .error .overflowError
  | .float .nan => .ok none
  | .float x => .ok (some (h.realText x))
  | .str s =>
      match utf8Encode s with
      | .ok _ => .ok (some s)
      | .error e => .error e
  | .arr _ => .error .databaseError
  | .obj _ => .error .databaseError

/-- What becomes of a directory without a row: it is refused, or reported as adopted, with
the row that is stored. {lit}`INSERT OR IGNORE` stores no row with a {lit}`NULL`. -/
inductive Adoption
  | refused
  | adopted (row : Option ArtifactRow)
deriving DecidableEq, Repr

/-- The row that {lit}`add_artifact` stores. -/
def storedRow (h : Host) (key sha256 : PyStr) (source recipe target : Json) :
    Except PyExc (Option ArtifactRow) := do
  let source ← bindColumn h source
  let recipe ← bindColumn h recipe
  let target ← bindColumn h target
  return do
    let source ← source
    let recipe ← recipe
    let _ ← target
    return ⟨key, source, sha256, recipe⟩

/-- The body of the {lit}`try` of {lit}`recover`. -/
def tryAdopt (h : Host) (key : PyStr) (entry : Node) : Except PyExc Adoption := do
  let data ← (entry.content?.bind Content.manifest).elim (.error .osError) .ok
  match ← loads h.jsonLimit data with
  | .obj fields =>
      let get := fun name => (lookupField (py name) fields).getD .null
      if (get "compile_key").eqStr key then do
        let model ← (entry.content?.bind Content.model).elim (.error .osError) .ok
        if (get "artifact_sha256").eqStr (h.sha256 model) && (get "source_sha256").truthy &&
            (get "recipe_id").truthy then do
          let row ← storedRow h key (h.sha256 model) (get "source_sha256") (get "recipe_id")
            ((lookupField (py "target_profile") fields).getD (.str []))
          return .adopted row
        else return .refused
      else return .refused
  | _ => return .refused

/-- The {lit}`try` statement: {lit}`except (OSError, ValueError)` refuses. -/
def adoption (h : Host) (key : PyStr) (entry : Node) : Except PyExc Adoption :=
  match tryAdopt h key entry with
  | .ok a => .ok a
  | .error e => if e.isOSError || e == .valueError then .ok .refused else .error e

/-! ## The two passes -/

/-- The registry and the directories that {lit}`recover` works on. -/
structure DataDir where
  registry : Registry := {}
  work : Folder := ∅
  failures : Folder := ∅
  artifacts : Folder := ∅
  quarantine : Folder := ∅

/-- The summary that {lit}`recover` returns. -/
structure Summary where
  interrupted : List PyStr := []
  quarantined : List PyStr := []
  adopted : List PyStr := []
  orphans : List PyStr := []
deriving DecidableEq, Repr

namespace DataDir

/-- The statements of {lit}`recover` on a live job. -/
def interruptJob (r : Registry) (uuid : PyStr) (now : Int) : Registry :=
  let marked := r.setJob uuid .interrupted (some (py "INTERRUPTED")) none now
  let ref := ((marked.getJob uuid).map JobRow.ref).getD []
  if ref.isEmpty then marked else marked.setRefState ref (py "INTERRUPTED")

/-- {lit}`recover` on one entry of {lit}`work/`. -/
def recoverWork (h : Host) (s : DataDir × Summary) (uuid : PyStr) :
    Except PyExc (DataDir × Summary) :=
  match s.1.work.lookup uuid with
  | none => .ok s
  | some entry =>
      if !entry.isDir then .ok s
      else do
        let _ ← utf8Encode uuid
        match s.1.registry.getJob uuid with
        | none => do
            let failures ← moveTo h Node.isDir s.1.failures (py "orphan-" ++ uuid) entry
            return ({ s.1 with work := s.1.work.erase uuid, failures },
              { s.2 with orphans := s.2.orphans ++ [uuid] })
        | some job =>
            if job.stage.terminal then return s
            else do
              let failures ← moveTo h Node.isDir s.1.failures uuid entry
              return ({ s.1 with
                  registry := interruptJob s.1.registry uuid h.now
                  work := s.1.work.erase uuid
                  failures },
                { s.2 with interrupted := s.2.interrupted ++ [uuid] })

/-- The name of the file that records why a key is in quarantine. -/
def marker (key : PyStr) : PyStr :=
  key ++ py ".json"

/-- {lit}`recover` on one entry of {lit}`artifacts/`. -/
def recoverArtifact (h : Host) (s : DataDir × Summary) (key : PyStr) :
    Except PyExc (DataDir × Summary) := do
  let _ ← utf8Encode key
  if (s.1.registry.getArtifact key).isSome then return s
  else
    match s.1.artifacts.lookup key with
    | none => return s
    | some entry =>
        match ← adoption h key entry with
        | .adopted row =>
            let registry := (row.map s.1.registry.addArtifact).getD s.1.registry
            return ({ s.1 with registry }, { s.2 with adopted := s.2.adopted ++ [key] })
        | .refused => do
            let moved ← moveTo h (fun old => old.isDir || old.isLink) s.1.quarantine key entry
            let quarantine ← atomicWrite h moved (marker key)
            return ({ s.1 with artifacts := s.1.artifacts.erase key, quarantine },
              { s.2 with quarantined := s.2.quarantined ++ [key] })

/-- {lit}`recover`. -/
def recover (h : Host) (d : DataDir) : Except PyExc (DataDir × Summary) := do
  let s ← (sortedNames d.work.keys).foldlM (recoverWork h) (d, {})
  (sortedNames d.artifacts.keys).foldlM (recoverArtifact h) s

/-! ## What a data dir needs -/

/-- Whether {lit}`moveTo` finds its place free, or can clear it. -/
def admits (guard : Node → Bool) (entry : Node) : Option Node → Bool
  | none => true
  | some old => if guard old then old.isReal else !old.isReal && !entry.isReal

/-- SQLite stores the text. -/
def Encodable (text : PyStr) : Prop :=
  ∃ data, utf8Encode text = .ok data

/-- Where an entry of {lit}`work/` goes, if it is moved. -/
def scratch (d : DataDir) (uuid : PyStr) : Option (PyStr × Node) :=
  match d.work.lookup uuid with
  | none => none
  | some entry =>
      if !entry.isDir then none
      else
        match d.registry.getJob uuid with
        | none => some (py "orphan-" ++ uuid, entry)
        | some job => if job.stage.terminal then none else some (uuid, entry)

/-- An entry of {lit}`artifacts/` without a row. -/
def Rowless (d : DataDir) (key : PyStr) (entry : Node) : Prop :=
  d.registry.getArtifact key = none ∧ d.artifacts.lookup key = some entry

/-- A key that goes to quarantine. -/
def Refused (h : Host) (d : DataDir) (key : PyStr) : Prop :=
  ∃ entry, d.Rowless key entry ∧ adoption h key entry = .ok .refused

/-- What recovery needs of a directory in {lit}`work/`: its name is a text, and where it is
moved the place is free or a directory.  A place that an earlier move has taken must hold a
directory and no link. -/
structure WorkClear (h : Host) (d : DataDir) (uuid : PyStr) : Prop where
  name : ∀ entry, d.work.lookup uuid = some entry → entry.isDir = true → Encodable uuid
  place : ∀ name entry, d.scratch uuid = some (name, entry) →
    h.nameFits name = true ∧ admits Node.isDir entry (d.failures.lookup name) = true
  earlier : ∀ other < uuid, ∀ name entry old, d.scratch uuid = some (name, entry) →
    d.scratch other = some (name, old) → old.isReal = true

/-- What the quarantine of an entry needs: its own place, or the marker that another key
left there, gives way, and no directory stands where its marker goes. -/
structure QuarantineClear (h : Host) (d : DataDir) (key : PyStr) (entry : Node) : Prop where
  fits : h.nameFits key = true
  marker_fits : h.nameFits (h.tmpName (marker key)) = true
  marker_place : ∀ old, d.quarantine.lookup (marker key) = some old → old.isReal = false
  marked : ∀ other, Refused h d other → marker other = key → entry.isReal = false
  place : (¬∃ other, Refused h d other ∧ marker other = key) →
    admits (fun old => old.isDir || old.isLink) entry (d.quarantine.lookup key) = true

/-- What recovery needs of an entry of {lit}`artifacts/` so as not to raise: its name is a
text, and without a row it is adopted, or refused into a quarantine that is clear. -/
structure ArtifactClear (h : Host) (d : DataDir) (key : PyStr) : Prop where
  name : ∀ entry, d.artifacts.lookup key = some entry → Encodable key
  settled : ∀ entry, d.Rowless key entry →
    (∃ row, adoption h key entry = .ok (.adopted row)) ∨
      (adoption h key entry = .ok .refused ∧ QuarantineClear h d key entry)

/-- **What a data dir needs for its recovery.**  Besides what keeps the two passes from
raising, an adopted manifest has no {lit}`NULL` for the row. -/
structure Recoverable (h : Host) (d : DataDir) : Prop where
  work : ∀ uuid, WorkClear h d uuid
  artifacts : ∀ key, ArtifactClear h d key
  stored : ∀ key entry, d.Rowless key entry → adoption h key entry ≠ .ok (.adopted none)

/-! ## What recovery is for -/

/-- The manifest names the key, and the digest of the model file. -/
def Vouched (h : Host) (d : DataDir) (key : PyStr) : Prop :=
  ∃ entry content data fields model,
    d.artifacts.lookup key = some entry ∧ entry.content? = some content ∧
    content.manifest = some data ∧ loads h.jsonLimit data = .ok (.obj fields) ∧
    lookupField (py "compile_key") fields = some (.str key) ∧
    content.model = some model ∧
    lookupField (py "artifact_sha256") fields = some (.str (h.sha256 model))

/-- A recovery that does what it is for: it returns, it keeps every directory with a row, it
adopts only what has no row and a manifest that vouches for it, and another one at any time
after it changes nothing and has nothing to report. -/
def Recovered (h : Host) (d : DataDir) : Prop :=
  ∃ t summary, recover h d = .ok (t, summary) ∧
    (∀ key, (d.registry.getArtifact key).isSome = true →
      t.artifacts.lookup key = d.artifacts.lookup key) ∧
    (∀ key ∈ summary.adopted, d.registry.getArtifact key = none ∧ Vouched h d key) ∧
    ∀ now, recover { h with now } t = .ok (t, {})

end DataDir
end FrigateXdna
