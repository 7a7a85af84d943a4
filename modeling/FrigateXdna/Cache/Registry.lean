import FrigateXdna.RetryPolicy

/-!
# The job and model registry

The SQLite tables as lists of typed rows in row order, with the queries and
statements the modelled code runs on them.  A statement either works as a whole
or raises and changes nothing.

Columns that no modelled function reads (sizes, target profiles, validation
evidence) are left out.

Main results:

- Theorem {lit}`Registry.mem_modifyJob`: what a job update does to every row.
- Theorem {lit}`newestBy_mem`: a query for the newest row returns a row that matches.
-/

namespace FrigateXdna

open Python

/-! ## Rows -/

/-- A row of {lit}`jobs`. -/
structure JobRow where
  uuid : PyStr
  ref : PyStr
  compileKey : Option PyStr
  stage : Stage
  attempt : Int
  createdAt : Int
  updatedAt : Int
  bootToken : Option PyStr
  progress : Option PyStr
  errorCode : Option PyStr
  failure : Option Failure
  sourceSha256 : Option PyStr
deriving DecidableEq, Repr

/-- A row of {lit}`artifacts`. -/
structure ArtifactRow where
  compileKey : PyStr
  sourceSha256 : PyStr
  artifactSha256 : PyStr
  recipeId : PyStr
deriving DecidableEq, Repr

/-- A row of {lit}`model_refs`; {lit}`inspection` is the text of the last inspection summary. -/
structure RefRow where
  ref : PyStr
  kind : PyStr
  state : PyStr
  sourceSha256 : Option PyStr
  inspection : Option PyStr
deriving DecidableEq, Repr

/-- A row of {lit}`sources`; {lit}`fileName` is the last part of {lit}`rel_path`. -/
structure SourceRow where
  sha256 : PyStr
  fileName : PyStr
  origin : PyStr
deriving DecidableEq, Repr

/-- A row of {lit}`pins`. -/
structure Pin where
  name : PyStr
  kind : PyStr
  target : PyStr
deriving DecidableEq, Repr

/-- The record under the key {lit}`inhibition`. -/
structure Inhibition where
  reason : PyStr
  ref : Option PyStr
  at_ : Int
  bootToken : PyStr
deriving DecidableEq, Repr

/-- The record under the key {lit}`active`. -/
structure ActiveRecord where
  compileKey : PyStr
  workerGeneration : Int
  servingDigest : PyStr
deriving DecidableEq, Repr

/-- The record under the key {lit}`last_inhibition_cleared`. -/
structure ClearedRecord where
  ref : PyStr
  previous : Inhibition
  at_ : Int
deriving DecidableEq, Repr

/-- The table {lit}`service_state`. -/
structure ServiceState where
  inhibition : Option Inhibition := none
  active : Option ActiveRecord := none
  lastInhibitionCleared : Option ClearedRecord := none
deriving DecidableEq, Repr

/-- The registry. -/
structure Registry where
  jobs : List JobRow := []
  aliases : List (PyStr × PyStr) := []
  artifacts : List ArtifactRow := []
  refs : List RefRow := []
  sources : List SourceRow := []
  pins : List Pin := []
  state : ServiceState := {}
deriving DecidableEq, Repr

/-! ## Queries -/

/-- {lit}`ORDER BY key DESC LIMIT 1` over the rows that match. -/
def newestBy {α : Type*} (key : α → Int) : List α → Option α
  | [] => none
  | r :: rest =>
      match newestBy key rest with
      | none => some r
      | some best => if key r < key best then some best else some r

/-- The newest row is one of the rows. -/
theorem newestBy_mem {α : Type*} {key : α → Int} {rows : List α} {r : α}
    (h : newestBy key rows = some r) : r ∈ rows := by
  induction rows generalizing r with
  | nil => simp [newestBy] at h
  | cons x rest ih =>
      simp only [newestBy] at h
      split at h
      · obtain rfl := Option.some.inj h
        exact List.mem_cons_self
      · rename_i best hbest
        split at h
        · obtain rfl := Option.some.inj h
          exact List.mem_cons_of_mem x (ih hbest)
        · obtain rfl := Option.some.inj h
          exact List.mem_cons_self

/-- There is a newest row exactly when there is a row. -/
theorem newestBy_eq_none {α : Type*} {key : α → Int} {rows : List α} :
    newestBy key rows = none ↔ rows = [] := by
  cases rows with
  | nil => simp [newestBy]
  | cons x rest =>
      simp only [newestBy, reduceCtorEq, iff_false]
      split
      · simp
      · split <;> simp

/-- The newest of rows that were rewritten without touching their times. -/
theorem newestBy_map {α β : Type*} {key : β → Int} {key' : α → Int} {f : α → β}
    (h : ∀ a, key (f a) = key' a) (rows : List α) :
    newestBy key (rows.map f) = (newestBy key' rows).map f := by
  induction rows with
  | nil => rfl
  | cons r rest ih =>
      simp only [List.map_cons, newestBy, ih]
      cases newestBy key' rest with
      | none => rfl
      | some best =>
          simp only [Option.map_some, h]
          split <;> rfl

/-- No row is newer than the newest. -/
theorem newestBy_le {α : Type*} {key : α → Int} {rows : List α} {r x : α}
    (h : newestBy key rows = some r) (hx : x ∈ rows) : key x ≤ key r := by
  induction rows generalizing r with
  | nil => contradiction
  | cons y rest ih =>
      simp only [newestBy] at h
      cases hrest : newestBy key rest with
      | none =>
          rw [hrest] at h
          obtain rfl := Option.some.inj h
          rw [newestBy_eq_none.mp hrest] at hx
          obtain rfl := List.mem_singleton.mp hx
          exact Int.le_refl _
      | some best =>
          rw [hrest] at h
          dsimp only at h
          split at h
          · rename_i hlt
            obtain rfl := Option.some.inj h
            rcases List.mem_cons.mp hx with rfl | hx
            · exact Int.le_of_lt hlt
            · exact ih hrest hx
          · rename_i hge
            obtain rfl := Option.some.inj h
            rcases List.mem_cons.mp hx with rfl | hx
            · exact Int.le_refl _
            · exact Int.le_trans (ih hrest hx) (Int.not_lt.mp hge)

/-- The newest of the rows is the newest of any of them that include it. -/
theorem newestBy_filter {α : Type*} {key : α → Int} {p : α → Bool} {rows : List α} {r : α}
    (h : newestBy key rows = some r) (hp : p r = true) :
    newestBy key (rows.filter p) = some r := by
  induction rows generalizing r with
  | nil => contradiction
  | cons x rest ih =>
      simp only [newestBy] at h
      cases hrest : newestBy key rest with
      | none =>
          rw [hrest] at h
          obtain rfl := Option.some.inj h
          rw [newestBy_eq_none.mp hrest, List.filter_cons_of_pos hp]
          rfl
      | some best =>
          rw [hrest] at h
          dsimp only at h
          split at h
          · rename_i hlt
            obtain rfl := Option.some.inj h
            by_cases hx : p x = true
            · rw [List.filter_cons_of_pos hx]
              simp only [newestBy, ih hrest hp, if_pos hlt]
            · rw [List.filter_cons_of_neg hx]
              exact ih hrest hp
          · rename_i hge
            obtain rfl := Option.some.inj h
            rw [List.filter_cons_of_pos hp]
            simp only [newestBy]
            cases hothers : newestBy key (rest.filter p) with
            | none => rfl
            | some other =>
                have hmem : other ∈ rest := List.mem_of_mem_filter (newestBy_mem hothers)
                have hle : key other ≤ key best := newestBy_le hrest hmem
                dsimp only
                rw [if_neg fun hlt => hge (Int.lt_of_lt_of_le hlt hle)]

namespace Registry

/-- {lit}`get_job`. -/
def getJob (r : Registry) (uuid : PyStr) : Option JobRow :=
  r.jobs.find? fun j => j.uuid == uuid

/-- {lit}`get_artifact`. -/
def getArtifact (r : Registry) (compileKey : PyStr) : Option ArtifactRow :=
  r.artifacts.find? fun a => a.compileKey == compileKey

/-- {lit}`get_ref`. -/
def getRef (r : Registry) (ref : PyStr) : Option RefRow :=
  r.refs.find? fun m => m.ref == ref

/-- {lit}`get_source`. -/
def getSource (r : Registry) (sha256 : PyStr) : Option SourceRow :=
  r.sources.find? fun x => x.sha256 == sha256

/-- Whether a ref is an alias of a job. -/
def isAlias (r : Registry) (uuid ref : PyStr) : Bool :=
  r.aliases.any fun a => a.1 == uuid && a.2 == ref

/-- {lit}`live_job_for_key`. -/
def liveJobForKey (r : Registry) (compileKey : PyStr) : Option JobRow :=
  newestBy JobRow.updatedAt
    (r.jobs.filter fun j => j.compileKey == some compileKey && !j.stage.terminal)

/-- {lit}`find_job`. -/
def findJob (r : Registry) (ref : PyStr) (compileKey : Option PyStr) : Option JobRow :=
  newestBy JobRow.createdAt
    (r.jobs.filter fun j => j.ref == ref && j.compileKey == compileKey)

/-- {lit}`refs_for_job`.  The query has no order; its callers do the same for each. -/
def refsForJob (r : Registry) (uuid : PyStr) : List PyStr :=
  ((r.jobs.filter fun j => j.uuid == uuid).map JobRow.ref) ++
    ((r.aliases.filter fun a => a.1 == uuid).map Prod.snd)

/-- The newest {lit}`PREPARED` compile key of a ref, as {lit}`activate` looks it
up. -/
def preparedKey (r : Registry) (ref : PyStr) : Option PyStr :=
  (newestBy JobRow.updatedAt
    (r.jobs.filter fun j =>
      j.ref == ref && j.compileKey.isSome && j.stage == .prepared)).bind
    JobRow.compileKey

/-! ## Statements -/

/-- {lit}`INSERT INTO jobs`, with the stage {lit}`QUEUED`. -/
def createJob (r : Registry) (uuid ref : PyStr) (compileKey : Option PyStr)
    (bootToken : Option PyStr) (attempt : Int) (sourceSha256 : Option PyStr)
    (now : Int) : Registry :=
  { r with
    jobs := r.jobs ++
      [{ uuid, ref, compileKey, stage := .queued, attempt, createdAt := now
         updatedAt := now, bootToken, progress := none, errorCode := none
         failure := none, sourceSha256 }] }

/-- Change every row with this id. -/
def modifyJob (r : Registry) (uuid : PyStr) (f : JobRow → JobRow) : Registry :=
  { r with jobs := r.jobs.map fun j => if j.uuid = uuid then f j else j }

/-- {lit}`set_job`. -/
def setJob (r : Registry) (uuid : PyStr) (stage : Stage) (errorCode : Option PyStr)
    (progress : Option PyStr) (now : Int) : Registry :=
  r.modifyJob uuid fun j =>
    { j with stage, errorCode, progress, updatedAt := now }

/-- {lit}`set_failure`. -/
def setFailure (r : Registry) (uuid : PyStr) (record : Failure) (now : Int) :
    Registry :=
  r.modifyJob uuid fun j => { j with failure := some record, updatedAt := now }

/-- {lit}`DELETE FROM jobs WHERE uuid=?`. -/
def deleteJob (r : Registry) (uuid : PyStr) : Registry :=
  { r with jobs := r.jobs.filter fun j => !(j.uuid == uuid) }

/-- {lit}`add_alias`. -/
def addAlias (r : Registry) (uuid ref : PyStr) : Registry :=
  if r.isAlias uuid ref then r else { r with aliases := r.aliases ++ [(uuid, ref)] }

/-- {lit}`upsert_ref`: an existing row keeps its state. -/
def upsertRef (r : Registry) (ref kind : PyStr) : Registry :=
  if (r.getRef ref).isSome then r
  else { r with refs := r.refs ++ [⟨ref, kind, py "NEW", none, none⟩] }

/-- {lit}`set_ref_state`. -/
def setRefState (r : Registry) (ref state : PyStr) : Registry :=
  { r with refs := r.refs.map fun m => if m.ref = ref then { m with state } else m }

/-- {lit}`set_ref_source`. -/
def setRefSource (r : Registry) (ref sourceSha256 state : PyStr) : Registry :=
  { r with
    refs := r.refs.map fun m =>
      if m.ref = ref then { m with sourceSha256 := some sourceSha256, state } else m }

/-- {lit}`set_ref_inspection`. -/
def setRefInspection (r : Registry) (ref summary : PyStr) : Registry :=
  { r with
    refs := r.refs.map fun m => if m.ref = ref then { m with inspection := some summary } else m }

/-- {lit}`add_source`: an existing row wins. -/
def addSource (r : Registry) (row : SourceRow) : Registry :=
  if (r.getSource row.sha256).isSome then r
  else { r with sources := r.sources ++ [row] }

/-- {lit}`add_pin`: a pin of the same name is replaced. -/
def addPin (r : Registry) (pin : Pin) : Registry :=
  { r with pins := (r.pins.filter fun p => !(p.name == pin.name)) ++ [pin] }

/-- {lit}`DELETE FROM artifacts WHERE compile_key=?`. -/
def deleteArtifact (r : Registry) (compileKey : PyStr) : Registry :=
  { r with artifacts := r.artifacts.filter fun a => !(a.compileKey == compileKey) }

/-- {lit}`add_artifact`: an existing row wins. -/
def addArtifact (r : Registry) (row : ArtifactRow) : Registry :=
  if (r.getArtifact row.compileKey).isSome then r
  else { r with artifacts := r.artifacts ++ [row] }

/-- {lit}`set_state("inhibition", …)`. -/
def setInhibition (r : Registry) (inh : Inhibition) : Registry :=
  { r with state := { r.state with inhibition := some inh } }

/-- {lit}`set_state("active", …)`. -/
def setActive (r : Registry) (record : ActiveRecord) : Registry :=
  { r with state := { r.state with active := some record } }

/-- The two statements of {lit}`recover_ref`'s transaction. -/
def clearInhibition (r : Registry) (cleared : ClearedRecord) : Registry :=
  { r with
    state := { r.state with
      inhibition := none
      lastInhibitionCleared := some cleared } }

/-! ## What statements do to rows -/

@[simp]
theorem setInhibition_state (r : Registry) (inh : Inhibition) :
    (r.setInhibition inh).state = { r.state with inhibition := some inh } :=
  rfl

@[simp]
theorem setInhibition_jobs (r : Registry) (inh : Inhibition) :
    (r.setInhibition inh).jobs = r.jobs :=
  rfl

@[simp]
theorem setActive_inhibition (r : Registry) (record : ActiveRecord) :
    (r.setActive record).state.inhibition = r.state.inhibition :=
  rfl

@[simp]
theorem setActive_jobs (r : Registry) (record : ActiveRecord) :
    (r.setActive record).jobs = r.jobs :=
  rfl

@[simp]
theorem clearInhibition_inhibition (r : Registry) (cleared : ClearedRecord) :
    (r.clearInhibition cleared).state.inhibition = none :=
  rfl

/-- The rows after an update of one job. -/
theorem mem_modifyJob {r : Registry} {uuid : PyStr} {f : JobRow → JobRow} {j : JobRow} :
    j ∈ (r.modifyJob uuid f).jobs ↔
      ∃ old ∈ r.jobs, j = if old.uuid = uuid then f old else old := by
  simp only [modifyJob, List.mem_map]
  exact ⟨fun ⟨old, h, e⟩ => ⟨old, h, e.symm⟩, fun ⟨old, h, e⟩ => ⟨old, h, e.symm⟩⟩

@[simp]
theorem modifyJob_state (r : Registry) (uuid : PyStr) (f : JobRow → JobRow) :
    (r.modifyJob uuid f).state = r.state :=
  rfl

/-- An existing artifact row wins. -/
theorem getArtifact_addArtifact_of_some {r : Registry} {row : ArtifactRow} {key : PyStr}
    (h : (r.getArtifact key).isSome = true) :
    (r.addArtifact row).getArtifact key = r.getArtifact key := by
  unfold addArtifact
  split
  · rfl
  · obtain ⟨old, hold⟩ := Option.isSome_iff_exists.mp h
    rw [hold]
    simp only [getArtifact, List.find?_append] at hold ⊢
    rw [hold, Option.some_or]

/-- The artifact rows of other keys stay. -/
theorem getArtifact_addArtifact_ne {r : Registry} {row : ArtifactRow} {key : PyStr}
    (h : row.compileKey ≠ key) : (r.addArtifact row).getArtifact key = r.getArtifact key := by
  unfold addArtifact
  split
  · rfl
  · simp [getArtifact, List.find?_append, h]

/-- A key without an artifact row gets the new one. -/
theorem getArtifact_addArtifact_self {r : Registry} {row : ArtifactRow}
    (h : r.getArtifact row.compileKey = none) :
    (r.addArtifact row).getArtifact row.compileKey = some row := by
  unfold addArtifact
  rw [if_neg (by simp [h])]
  simp only [getArtifact, List.find?_append] at h ⊢
  rw [h]
  simp

/-- A deleted artifact row is gone. -/
@[simp]
theorem getArtifact_deleteArtifact_self (r : Registry) (key : PyStr) :
    (r.deleteArtifact key).getArtifact key = none := by
  simp [getArtifact, deleteArtifact]

/-- The artifact rows of other keys stay. -/
theorem getArtifact_deleteArtifact_ne {r : Registry} {key other : PyStr} (h : other ≠ key) :
    (r.deleteArtifact key).getArtifact other = r.getArtifact other := by
  simp only [getArtifact, deleteArtifact, List.find?_filter]
  congr 1
  funext a
  by_cases ha : a.compileKey = other
  · simp [ha, h]
  · simp [ha]

end Registry
end FrigateXdna
