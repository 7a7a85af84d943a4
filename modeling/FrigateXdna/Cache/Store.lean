import Mathlib.Data.List.AList
import FrigateXdna.Cache.Keys
import FrigateXdna.Cache.Registry
import FrigateXdna.Errors

/-!
# The content-addressed store on disk

The directories of the data dir that the daemon reads back: stored sources, committed
artifacts, staging directories and compiler work directories.  What is moved to
{lit}`failures/` or {lit}`quarantine/` is never read again and leaves the model.

The content of an {lit}`artifact.json` is what {lit}`json.loads` makes of it.  A file
operation that raises changes nothing.

Main results:

- Definition {lit}`Disk`: the directories.
- Definition {lit}`adopted?`: the registry row that {lit}`recover` makes of a directory
  without one.
- Theorem {lit}`adopted?_eq_some`: such a row names its key and the bytes on disk.
-/

namespace FrigateXdna

open Python

/-! ## Directories -/

/-- A directory {lit}`artifacts/<key>` or {lit}`work/stage-<uuid>`: its two files. -/
structure Dir where
  model : Option Bytes := none
  manifest : Option (Except PyExc Json) := none

/-- A file below {lit}`sources/`: the digest and the file name. -/
abbrev SourcePath := PyStr × PyStr

/-- The data dir. -/
structure Disk where
  sources : AList fun _ : SourcePath => Bytes := ∅
  artifacts : AList fun _ : PyStr => Dir := ∅
  staged : AList fun _ : PyStr => Dir := ∅
  work : List PyStr := []

namespace Disk

/-- {lit}`os.path.isdir(artifacts/<key>)`. -/
def hasArtifact (d : Disk) (key : PyStr) : Bool :=
  (d.artifacts.lookup key).isSome

/-- Write a file below {lit}`sources/`. -/
def writeSource (d : Disk) (path : SourcePath) (data : Bytes) : Disk :=
  { d with sources := d.sources.insert path data }

/-- Move a directory out of {lit}`artifacts/`. -/
def moveArtifact (d : Disk) (key : PyStr) : Disk :=
  { d with artifacts := d.artifacts.erase key }

/-- {lit}`os.makedirs(work/stage-<uuid>, exist_ok=True)`. -/
def makeStaged (d : Disk) (uuid : PyStr) : Disk :=
  { d with staged := d.staged.insert uuid ((d.staged.lookup uuid).getD {}) }

/-- Write {lit}`model.rai` into a staging directory. -/
def stageModel (d : Disk) (uuid : PyStr) (data : Bytes) : Disk :=
  match d.staged.lookup uuid with
  | none => d
  | some dir => { d with staged := d.staged.insert uuid { dir with model := some data } }

/-- Write {lit}`artifact.json` into a staging directory. -/
def stageManifest (d : Disk) (uuid : PyStr) (manifest : Json) : Disk :=
  match d.staged.lookup uuid with
  | none => d
  | some dir =>
      { d with staged := d.staged.insert uuid { dir with manifest := some (.ok manifest) } }

/-- Rename a staging directory to {lit}`artifacts/<key>`. -/
def commitStaged (d : Disk) (uuid key : PyStr) : Disk :=
  match d.staged.lookup uuid with
  | none => d
  | some dir =>
      { d with
        staged := d.staged.erase uuid
        artifacts := d.artifacts.insert key dir }

/-- Move a staging directory out of {lit}`work/`. -/
def dropStaged (d : Disk) (uuid : PyStr) : Disk :=
  { d with staged := d.staged.erase uuid }

/-- The compiler makes its work directory. -/
def makeWork (d : Disk) (uuid : PyStr) : Disk :=
  if d.work.contains uuid then d else { d with work := d.work ++ [uuid] }

/-- Move a work directory out of {lit}`work/`. -/
def dropWork (d : Disk) (uuid : PyStr) : Disk :=
  { d with work := d.work.filter fun x => !(x == uuid) }

end Disk

/-! ## Disk space -/

/-- {lit}`RESERVE_BYTES`. -/
def reserveBytes : Nat :=
  2 * 1024 ^ 3

/-- {lit}`COMPILE_SCRATCH_NEED_BYTES`. -/
def compileScratchNeedBytes : Nat :=
  4 * 1024 ^ 3

/-- Whether {lit}`disk_preflight` accepts; {lit}`RESERVE_FRACTION` is a tenth. -/
def diskPreflight (free total need : Nat) : Bool :=
  decide (need + max reserveBytes (total / 10) ≤ free)

/-! ## Manifests -/

/-- The manifest of a published artifact, as far as it is read back. -/
def publishedManifest (backend compileKey sourceSha256 artifactSha256 : PyStr) : Json :=
  .obj [(py "backend", .str backend), (py "compile_key", .str compileKey),
    (py "source_sha256", .str sourceSha256), (py "artifact_sha256", .str artifactSha256),
    (py "recipe_id", .str recipeId), (py "target_profile", .str targetProfile)]

/-- {lit}`_backend_ok` on the content of {lit}`artifact.json`. -/
def backendOk (backendId : PyStr) (dir : Option Dir) : Bool :=
  match dir.bind Dir.manifest with
  | some (.ok (.obj fields)) =>
      match lookupField (py "backend") fields with
      | some backend => backend.eqStr backendId
      | none => false
  | _ => false

/-- A text that SQLite stores for a truthy value of a manifest; it refuses objects and
arrays. -/
def bindText : Json → Except PyExc PyStr
  | .str s => .ok s
  | .int z => .ok (intRepr z)
  | .bool b => .ok (if b then py "1" else py "0")
  | .float x => .ok x.repr
  | _ => .error .databaseError

/-- The row that {lit}`recover` adopts for a directory without one: the manifest is
read, names the key, names the digest of the model file, and has a source and a
recipe. -/
def adopted? (sha256 : Bytes → PyStr) (key : PyStr) (dir : Dir) :
    Except PyExc (Option ArtifactRow) :=
  match dir.manifest with
  | none => .ok none
  | some (.error e) => if e.isOSError || e == .valueError then .ok none else .error e
  | some (.ok (.obj fields)) =>
      if !(((lookupField (py "compile_key") fields).getD .null).eqStr key) then .ok none
      else
        match dir.model with
        | none => .ok none
        | some data =>
            if !(((lookupField (py "artifact_sha256") fields).getD .null).eqStr
                (sha256 data)) then .ok none
            else
              let source := (lookupField (py "source_sha256") fields).getD .null
              let recipe := (lookupField (py "recipe_id") fields).getD .null
              if !source.truthy || !recipe.truthy then .ok none
              else
                match bindText source, bindText recipe with
                | .ok source, .ok recipe => .ok (some ⟨key, source, sha256 data, recipe⟩)
                | .error e, _ => .error e
                | _, .error e => .error e
  | some (.ok _) => .ok none

/-- An adopted row names its key and the bytes on disk, and its source is the one the
manifest names. -/
theorem adopted?_eq_some {sha256 : Bytes → PyStr} {key : PyStr} {dir : Dir}
    {row : ArtifactRow} (h : adopted? sha256 key dir = .ok (some row)) :
    row.compileKey = key ∧
      ∃ fields data source, dir.manifest = some (.ok (.obj fields)) ∧
        dir.model = some data ∧ row.artifactSha256 = sha256 data ∧
        ((lookupField (py "compile_key") fields).getD .null).eqStr key = true ∧
        ((lookupField (py "artifact_sha256") fields).getD .null).eqStr (sha256 data) =
          true ∧
        (lookupField (py "source_sha256") fields).getD .null = source ∧
        bindText source = .ok row.sourceSha256 := by
  unfold adopted? at h
  split at h
  · simp at h
  · split at h <;> simp at h
  · rename_i fields hmanifest
    split at h
    · simp at h
    · rename_i hkey
      split at h
      · simp at h
      · rename_i data hmodel
        split at h
        · simp at h
        · rename_i hsha
          dsimp only at h
          split at h
          · simp at h
          · split at h
            · rename_i source recipe hsource hrecipe
              obtain rfl := Option.some.inj (Except.ok.inj h)
              exact ⟨rfl, fields, data, _, hmanifest, hmodel, rfl, by simpa using hkey,
                by simpa using hsha, rfl, hsource⟩
            · simp at h
            · simp at h
  · simp at h

end FrigateXdna
