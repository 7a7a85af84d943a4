import FrigateXdna.Process

/-!
# What a failed preparation leaves behind

A preparation that raises may have recorded the new source of its ref before, and it may have
removed an artifact of another backend.  Everything else that it has done by then only adds to
what is stored.

Main results:

- Definition {lit}`activation`: the artifact that an activation of a ref would load.
- Theorem {lit}`run_ingestSource_error`: where an ingestion raises, and what it has done by then.
- Theorem {lit}`failed_prepare_kept_iff`: a call that raises keeps what worked exactly when it
  raises before it records the source, or records the one that was recorded and removes no
  artifact that the ref can be activated to.
-/

namespace FrigateXdna

open Python Library

variable {setup : Setup} {s t : Manager}

/-! ## What worked -/

/-- The row of a ref, but for its state and the summary of its last inspection, which is
recorded of refused bytes too. -/
def Manager.entry (s : Manager) (ref : PyStr) : Option RefRow :=
  (s.registry.getRef ref).map fun m => { m with state := [], inspection := none }

/-- The recorded source digest of a ref. -/
def Manager.recorded (s : Manager) (ref : PyStr) : Option PyStr :=
  (s.registry.getRef ref).bind RefRow.sourceSha256

/-- What {lit}`activate` loads for a ref: the row of its newest prepared key, the directory, and
the source that is inspected again. -/
def activation (s : Manager) (ref : PyStr) : Option (ArtifactRow × Dir × Bytes) := do
  let key ← s.registry.preparedKey ref
  let row ← s.registry.getArtifact key
  let dir ← s.disk.artifacts.lookup key
  let source ← s.disk.sources.lookup (row.sourceSha256, py "model.onnx")
  return (row, dir, source)

/-- Whether a ref stands in {lit}`PREPARED`. -/
def standsPrepared (s : Manager) (ref : PyStr) : Prop :=
  (s.registry.getRef ref).map RefRow.state = some (py "PREPARED")

/-- A call keeps what worked: the recorded source, the row of the ref but for its state and its
inspection summary, and what a {lit}`PREPARED` ref can be activated to. -/
def Kept (s t : Manager) (ref : PyStr) : Prop :=
  t.recorded ref = s.recorded ref ∧
    (∀ m, s.entry ref = some m → t.entry ref = some m) ∧
    (standsPrepared s ref → ∀ a, activation s ref = some a → activation t ref = some a)

/-- Whether bytes come as far as the recording of their source: they are inspected, they are no
unasked change, and the stored file of their digest, if there is one, has their digest. -/
def Lands (setup : Setup) (s : Manager) (ref : PyStr) (refresh : Bool) (data : Bytes)
    (origin : Origin) : Prop :=
  (origin ≠ .importedRai → ∃ contract, setup.inspect data = .ok contract) ∧
    sourceMoved (s.recorded ref) (setup.sha256 data) refresh = false ∧
    ∀ stored, s.disk.sources.lookup (setup.sha256 data, origin.fileName) = some stored →
      setup.sha256 stored = setup.sha256 data

/-- The key whose artifact an ingestion removes: that of the bytes, if its artifact is of
another backend. -/
def dropped (setup : Setup) (s : Manager) (digest : PyStr) (inspected : Json) : Option PyStr :=
  match keysOf setup digest inspected with
  | .error _ => none
  | .ok (key, _) =>
      if (s.registry.getArtifact key).isSome &&
          !backendOk setup.backendId (s.disk.artifacts.lookup key) then some key
      else none

/-- Whether an ingestion removes the artifact that its ref can be activated to. -/
def Spoils (setup : Setup) (s : Manager) (ref : PyStr) (data : Bytes) : Prop :=
  standsPrepared s ref ∧ (activation s ref).isSome = true ∧
    ∃ contract key, setup.inspect data = .ok contract ∧
      dropped setup s (setup.sha256 data) contract = some key ∧
      s.registry.preparedKey ref = some key

/-- **When a call that raises keeps what worked.** -/
def Harmless (setup : Setup) (s : Manager) (ref : PyStr) (refresh : Bool) : Acquisition → Prop
  | .acquired (.bytes data origin) =>
      Lands setup s ref refresh data origin →
        s.recorded ref = some (setup.sha256 data) ∧ ¬Spoils setup s ref data
  | _ => True

/-! ## States with fewer artifacts -/

/-- A second state has the jobs of a first, its sources, and its artifacts but for at most one
key. -/
structure Loses (s t : Manager) (gone : Option PyStr) : Prop where
  jobs : t.registry.jobs = s.registry.jobs
  row : ∀ key, t.registry.getArtifact key =
    if gone = some key then none else s.registry.getArtifact key
  dir : ∀ key, gone ≠ some key → t.disk.artifacts.lookup key = s.disk.artifacts.lookup key
  sources : ∀ path data, s.disk.sources.lookup path = some data →
    t.disk.sources.lookup path = some data

/-- With the same jobs, artifacts and disk nothing is lost. -/
theorem Loses.of_eq (hjobs : t.registry.jobs = s.registry.jobs)
    (hartifacts : t.registry.artifacts = s.registry.artifacts) (hdisk : t.disk = s.disk) :
    Loses s t none where
  jobs := hjobs
  row key := by simp [Registry.getArtifact, hartifacts]
  dir key _ := by rw [hdisk]
  sources path data h := by rw [hdisk]; exact h

theorem Loses.trans {u : Manager} {gone : Option PyStr} (h : Loses s t none)
    (h' : Loses t u gone) : Loses s u gone where
  jobs := h'.jobs.trans h.jobs
  row key := by
    have hrow := h.row key
    rw [if_neg (by simp)] at hrow
    rw [h'.row, hrow]
  dir key hne := (h'.dir key hne).trans (h.dir key (by simp))
  sources path data hd := h'.sources path data (h.sources path data hd)

/-- What is lost afterwards is lost. -/
theorem Loses.trans_none {u : Manager} {gone : Option PyStr} (h : Loses s t gone)
    (h' : Loses t u none) : Loses s u gone where
  jobs := h'.jobs.trans h.jobs
  row key := by
    have hrow := h'.row key
    rw [if_neg (by simp)] at hrow
    rw [hrow, h.row]
  dir key hne := (h'.dir key (by simp)).trans (h.dir key hne)
  sources path data hd := h'.sources path data (h.sources path data hd)

/-- What a ref can be activated to is in the rows of the jobs and artifacts. -/
theorem activation_eq_some {ref : PyStr} {a : ArtifactRow × Dir × Bytes} :
    activation s ref = some a ↔
      ∃ key, s.registry.preparedKey ref = some key ∧ s.registry.getArtifact key = some a.1 ∧
        s.disk.artifacts.lookup key = some a.2.1 ∧
        s.disk.sources.lookup (a.1.sourceSha256, py "model.onnx") = some a.2.2 := by
  obtain ⟨row, dir, source⟩ := a
  unfold activation
  constructor
  · intro h
    obtain ⟨key, hkey, h⟩ := Option.bind_eq_some_iff.mp h
    obtain ⟨row', hrow, h⟩ := Option.bind_eq_some_iff.mp h
    obtain ⟨dir', hdir, h⟩ := Option.bind_eq_some_iff.mp h
    obtain ⟨source', hsource, h⟩ := Option.bind_eq_some_iff.mp h
    obtain ⟨rfl, rfl, rfl⟩ : row' = row ∧ dir' = dir ∧ source' = source := by
      simpa using h
    exact ⟨key, hkey, hrow, hdir, hsource⟩
  · rintro ⟨key, hkey, hrow, hdir, hsource⟩
    simp [hkey, hrow, hdir, hsource]

/-- The prepared key of a ref is in the rows of the jobs. -/
theorem preparedKey_congr (h : t.registry.jobs = s.registry.jobs) (ref : PyStr) :
    t.registry.preparedKey ref = s.registry.preparedKey ref := by
  simp only [Registry.preparedKey, h]

/-- Unless its artifact is lost, a ref can still be activated to it. -/
theorem Loses.activation_kept {ref : PyStr} {gone : Option PyStr} {a : ArtifactRow × Dir × Bytes}
    (h : Loses s t gone) (hgone : ∀ key, gone = some key → s.registry.preparedKey ref ≠ some key)
    (ha : activation s ref = some a) : activation t ref = some a := by
  obtain ⟨key, hkey, hrow, hdir, hsource⟩ := activation_eq_some.mp ha
  have hne : gone ≠ some key := fun heq => hgone key heq hkey
  refine activation_eq_some.mpr ⟨key, (preparedKey_congr h.jobs ref).trans hkey, ?_, ?_,
    h.sources _ _ hsource⟩
  · rw [h.row, if_neg hne]
    exact hrow
  · rw [h.dir key hne]
    exact hdir

/-- A ref whose artifact is lost cannot be activated. -/
theorem Loses.activation_lost {ref key : PyStr} (h : Loses s t (some key))
    (hkey : s.registry.preparedKey ref = some key) : activation t ref = none := by
  cases ha : activation t ref with
  | none => rfl
  | some a =>
      obtain ⟨key', hkey', hrow, -, -⟩ := activation_eq_some.mp ha
      obtain rfl : key = key' :=
        Option.some.inj (hkey.symm.trans ((preparedKey_congr h.jobs ref).symm.trans hkey'))
      rw [h.row, if_pos rfl] at hrow
      contradiction

/-! ## Steps -/

/-- A failed transaction leaves the registry and the disk. -/
theorem transaction_error {β : Type} {p : Prog β} (hp : OnlyJobs p) {e : Raised}
    (h : (transaction setup p s).2 = .error e) :
    (transaction setup p s).1.registry = s.registry ∧
      (transaction setup p s).1.disk = s.disk := by
  have hdisk : (p.run (Stmt.exec setup) s).1.disk = s.disk :=
    hp.run (I := fun u => u.disk = s.disk)
      (fun a u ha hu => ((Stmt.ofJobs_kept ha u).1).trans hu) rfl
  unfold transaction at h ⊢
  split at h
  · contradiction
  · rename_i u e' heq
    rw [heq] at hdisk
    exact ⟨rfl, hdisk⟩

/-- A submission that raises. -/
theorem run_submitCompile_error {ref digest key serving : PyStr} {origin : Origin} {e : Raised}
    (h : (submitCompile setup ref digest key serving origin).run (Act.exec setup) s =
      (t, .error e)) : t.registry = s.registry ∧ t.disk = s.disk := by
  unfold submitCompile at h
  rw [Program.run_bind] at h
  change ((if diskPreflight s.freeBytes s.totalBytes compileScratchNeedBytes = true then _
    else _ : ThreadProg IngestReply).run (Act.exec setup) s) = _ at h
  split at h
  · rw [Program.run_bind] at h
    have hjobs := JobManager.onlyJobs_submit setup ref (some key)
      { sourceSha256 := some digest, sourcePath := some (digest, origin.fileName) }
    simp only [atomically, Program.run_act] at h
    cases hres : (transaction setup (JobManager.submit setup ref (some key)
        { sourceSha256 := some digest
          sourcePath := some (digest, origin.fileName) }) s).2 with
    | error e' =>
        rw [hres] at h
        have hsame := transaction_error hjobs hres
        obtain ⟨rfl, -⟩ := Prod.mk.inj h
        exact hsame
    | ok job =>
        rw [hres] at h
        cases h
  · obtain ⟨rfl, -⟩ := Prod.mk.inj h
    exact ⟨rfl, rfl⟩

/-- Statements one by one, run alone, are their program. -/
theorem run_spread {β : Type} (p : Prog β) (s : Manager) :
    (spread p).run (Act.exec setup) s = p.run (Stmt.exec setup) s := by
  have hexec : ∀ a u, Act.exec setup (Act.stmt a) u = Stmt.exec setup a u := fun _ _ => rfl
  exact Program.run_relabel (Stmt.exec setup) hexec p s

/-- Moving an artifact aside and deleting its row. -/
theorem run_invalidateArtifact (key : PyStr) :
    ∃ u, (spread (invalidateArtifact key)).run (Act.exec setup) s = (u, .ok ()) ∧
      Loses s u (some key) ∧ u.registry.refs = s.registry.refs := by
  have hrow : ∀ other, (s.registry.deleteArtifact key).getArtifact other =
      if some key = some other then none else s.registry.getArtifact other := by
    intro other
    split
    · rename_i heq
      rw [Option.some.inj heq]
      exact Registry.getArtifact_deleteArtifact_self _ _
    · rename_i hne
      exact Registry.getArtifact_deleteArtifact_ne fun heq => hne (congrArg some heq.symm)
  cases hdir : s.disk.hasArtifact key with
  | true =>
      refine ⟨(Stmt.deleteArtifact key).exec setup ((Stmt.moveArtifact key true).exec setup s),
        ?_, ⟨rfl, hrow, ?_, fun _ _ h => h⟩, rfl⟩
      · rw [run_spread]
        show ((whenever (s.disk.hasArtifact key) (exec (.moveArtifact key true))) >>=
          fun _ => exec (.deleteArtifact key)).run (Stmt.exec setup) s = _
        rw [hdir]
        rfl
      · intro other hne
        exact AList.lookup_erase_ne fun heq => hne (congrArg some heq.symm)
  | false =>
      refine ⟨(Stmt.deleteArtifact key).exec setup s, ?_, ⟨rfl, hrow, fun _ _ => rfl,
        fun _ _ h => h⟩, rfl⟩
      rw [run_spread]
      show ((whenever (s.disk.hasArtifact key) (exec (.moveArtifact key true))) >>=
        fun _ => exec (.deleteArtifact key)).run (Stmt.exec setup) s = _
      rw [hdir]
      rfl

/-- A hit or a submission that raises has at most removed the artifact of its key. -/
theorem run_hitOrSubmit_error {ref digest key serving : PyStr} {origin : Origin} {e : Raised}
    (h : (hitOrSubmit setup ref digest key serving origin).run (Act.exec setup) s =
      (t, .error e)) :
    t.registry.refs = s.registry.refs ∧
      Loses s t (if (s.registry.getArtifact key).isSome &&
        !backendOk setup.backendId (s.disk.artifacts.lookup key) then some key else none) := by
  unfold hitOrSubmit at h
  rw [Program.run_bind] at h
  change ((if (s.registry.getArtifact key).isSome = true then _ else _ :
    ThreadProg IngestReply).run (Act.exec setup) s) = _ at h
  split at h
  · rename_i hrow
    rw [Program.run_bind] at h
    change ((if backendOk setup.backendId (s.disk.artifacts.lookup key) = true then _ else _ :
      ThreadProg IngestReply).run (Act.exec setup) s) = _ at h
    split at h
    · cases h
    · rename_i hother
      obtain ⟨u, hrun, hloses, hrefs⟩ := @run_invalidateArtifact setup s key
      rw [Program.run_bind_of_ok _ hrun] at h
      obtain ⟨hregistry, hdisk⟩ := run_submitCompile_error h
      rw [if_pos (by simp [hrow, hother])]
      exact ⟨by rw [hregistry]; exact hrefs, hloses.trans_none
        (Loses.of_eq (by rw [hregistry]) (by rw [hregistry]) hdisk)⟩
  · rename_i hrow
    obtain ⟨hregistry, hdisk⟩ := run_submitCompile_error h
    rw [if_neg (by simp [hrow])]
    exact ⟨by rw [hregistry], Loses.of_eq (by rw [hregistry]) (by rw [hregistry]) hdisk⟩

/-! ## Recorded sources -/

/-- The recorded source stands in the row. -/
theorem recorded_eq (s : Manager) (ref : PyStr) :
    s.recorded ref = (s.entry ref).bind RefRow.sourceSha256 := by
  unfold Manager.recorded Manager.entry
  cases s.registry.getRef ref <;> rfl

theorem entry_congr (h : t.registry.refs = s.registry.refs) (ref : PyStr) :
    t.entry ref = s.entry ref := by
  simp only [Manager.entry, Registry.getRef, h]

/-- A rewriting of rows that keeps their names rewrites the row that is found. -/
theorem getRef_map {r : Registry} {f : RefRow → RefRow} (hf : ∀ m, (f m).ref = m.ref)
    (ref : PyStr) :
    ({ r with refs := r.refs.map f } : Registry).getRef ref = (r.getRef ref).map f := by
  simp only [Registry.getRef, List.find?_map]
  congr 2
  funext m
  simp [hf]

/-- Recording the source of a ref changes its row in the source and the state. -/
theorem entry_setRefSource (ref digest state : PyStr) :
    ((Stmt.setRefSource ref digest state).exec setup s).entry ref =
      (s.entry ref).map fun m => { m with sourceSha256 := some digest } := by
  simp only [Manager.entry, Stmt.exec, Registry.setRefSource]
  rw [getRef_map fun m => by split <;> rfl]
  cases hrow : s.registry.getRef ref with
  | none => rfl
  | some m =>
      have hname : m.ref = ref := by simpa using List.find?_some hrow
      simp [hname]

/-- A ref state is no more than the state of a row. -/
theorem entry_setRefState (ref other state : PyStr) :
    ((Stmt.setRefState other state).exec setup s).entry ref = s.entry ref := by
  simp only [Manager.entry, Stmt.exec, Registry.setRefState]
  rw [getRef_map fun m => by split <;> rfl]
  cases s.registry.getRef ref with
  | none => rfl
  | some m =>
      simp only [Option.map_some]
      split <;> rfl

/-- An inspection summary is no more than the summary of a row. -/
theorem entry_setRefInspection (ref other summary : PyStr) :
    ((Stmt.setRefInspection other summary).exec setup s).entry ref = s.entry ref := by
  simp only [Manager.entry, Stmt.exec, Registry.setRefInspection]
  rw [getRef_map fun m => by split <;> rfl]
  cases s.registry.getRef ref with
  | none => rfl
  | some m =>
      simp only [Option.map_some]
      split <;> rfl

/-! ## Ingestion -/

/-- Writing bytes that are not stored. -/
def stored (setup : Setup) (s : Manager) (data : Bytes) (fileName : PyStr) : Manager :=
  match s.disk.sources.lookup (setup.sha256 data, fileName) with
  | none => { s with disk := s.disk.writeSource (setup.sha256 data, fileName) data }
  | some _ => s

/-- The bytes are stored, unless the file of their digest has other bytes. -/
theorem run_ingestBytes (data : Bytes) (fileName : PyStr) :
    (ingestBytes setup data fileName).run (Act.exec setup) s =
        (stored setup s data fileName, .ok ()) ∧
      (∀ bytes, s.disk.sources.lookup (setup.sha256 data, fileName) = some bytes →
        setup.sha256 bytes = setup.sha256 data) ∨
    (∃ e, (ingestBytes setup data fileName).run (Act.exec setup) s = (s, .error e)) ∧
      ¬∀ bytes, s.disk.sources.lookup (setup.sha256 data, fileName) = some bytes →
        setup.sha256 bytes = setup.sha256 data := by
  have hrun : (ingestBytes setup data fileName).run (Act.exec setup) s =
      (match s.disk.sources.lookup (setup.sha256 data, fileName) with
        | none => spread (exec (.writeSource (setup.sha256 data, fileName) data))
        | some bytes =>
            if setup.sha256 bytes = setup.sha256 data then return ()
            else
              .raise (.fxdna ⟨exitCacheCorrupt, py "CACHE_CORRUPT", py "content mismatch at " ++
                py "sources/" ++ setup.sha256 data ++ py "/" ++ fileName⟩) :
          ThreadProg Unit).run (Act.exec setup) s := rfl
  rw [hrun]
  unfold stored
  cases s.disk.sources.lookup (setup.sha256 data, fileName) with
  | none => exact Or.inl ⟨rfl, fun _ h => by contradiction⟩
  | some bytes =>
      by_cases hsame : setup.sha256 bytes = setup.sha256 data
      · refine Or.inl ⟨?_, fun other h => Option.some.inj h ▸ hsame⟩
        simp [hsame]
      · refine Or.inr ⟨⟨.fxdna ⟨exitCacheCorrupt, py "CACHE_CORRUPT", py "content mismatch at " ++
          py "sources/" ++ setup.sha256 data ++ py "/" ++ fileName⟩, ?_⟩,
          fun h => hsame (h bytes rfl)⟩
        simp only [if_neg hsame]
        rfl

theorem stored_loses (data : Bytes) (fileName : PyStr) :
    Loses s (stored setup s data fileName) none ∧
      (stored setup s data fileName).registry = s.registry := by
  unfold stored
  split
  · rename_i hnone
    refine ⟨⟨rfl, fun _ => by simp, fun _ _ => rfl, fun path bytes hpath => ?_⟩, rfl⟩
    have hne : path ≠ (setup.sha256 data, fileName) := by
      rintro rfl
      rw [hnone] at hpath
      contradiction
    simpa [Disk.writeSource, AList.lookup_insert_ne hne] using hpath
  · exact ⟨Loses.of_eq rfl rfl rfl, rfl⟩

/-- A row of {lit}`sources` and the source of a ref leave jobs and artifacts. -/
theorem record_loses (row : SourceRow) (ref digest state : PyStr) :
    Loses s ((Stmt.setRefSource ref digest state).exec setup
      ((Stmt.addSource row).exec setup s)) none := by
  refine Loses.of_eq ?_ ?_ rfl <;>
    simp only [Stmt.exec, Registry.setRefSource, Registry.addSource] <;> split <;> rfl

theorem refs_addSource (r : Registry) (row : SourceRow) : (r.addSource row).refs = r.refs := by
  unfold Registry.addSource
  split <;> rfl

/-- **Where an ingestion raises.**  Either it has changed no more than the state of the ref and
stored the bytes, or it has recorded the source, and at most the artifact of its key is gone. -/
theorem run_ingestSource_error {ref : PyStr} {data : Bytes} {origin : Origin} {inspected : Json}
    {refresh : Bool} {e : Raised}
    (hinspect : origin ≠ .importedRai → ∃ contract, setup.inspect data = .ok contract)
    (h : (ingestSource setup ref data origin inspected refresh).run (Act.exec setup) s =
      (t, .error e)) :
    (¬Lands setup s ref refresh data origin ∧ t.entry ref = s.entry ref ∧
        Loses s t none) ∨
      (Lands setup s ref refresh data origin ∧ origin ≠ .importedRai ∧
        (t.entry ref = (s.entry ref).map fun m =>
          { m with sourceSha256 := some (setup.sha256 data) }) ∧
        Loses s t (dropped setup s (setup.sha256 data) inspected)) := by
  unfold ingestSource at h
  rw [Program.run_bind] at h
  change ((if sourceMoved (s.recorded ref) (setup.sha256 data) refresh = true then _ else _ :
    ThreadProg IngestReply).run (Act.exec setup) s) = _ at h
  split at h
  · rename_i hmoved
    left
    obtain ⟨rfl, -⟩ := Prod.mk.inj h
    refine ⟨fun hlands => ?_, @entry_setRefState setup _ _ _ _, Loses.of_eq rfl rfl rfl⟩
    rw [hlands.2.1] at hmoved
    contradiction
  · rename_i hmoved
    rcases @run_ingestBytes setup s data origin.fileName with
      ⟨hrun, hsame⟩ | ⟨⟨e', hrun⟩, hother⟩
    · rw [Program.run_bind_of_ok _ hrun] at h
      right
      obtain ⟨hstored, hregistry⟩ := @stored_loses setup s data origin.fileName
      set u := stored setup s data origin.fileName with hu
      set v := (Stmt.setRefSource ref (setup.sha256 data) (py "DOWNLOADED")).exec setup
        ((Stmt.addSource ⟨setup.sha256 data, origin.fileName, origin.text⟩).exec setup u) with hv
      change ((if origin = .importedRai then _ else _ :
        ThreadProg IngestReply).run (Act.exec setup) v) = _ at h
      have hloses : Loses s v none := hstored.trans (record_loses _ _ _ _)
      have hrecorded : v.entry ref = (s.entry ref).map fun m =>
          { m with sourceSha256 := some (setup.sha256 data) } := by
        have hrefs : ((Stmt.addSource ⟨setup.sha256 data, origin.fileName,
            origin.text⟩).exec setup u).registry.refs = s.registry.refs := by
          rw [← hregistry]
          exact refs_addSource _ _
        rw [hv, entry_setRefSource, entry_congr hrefs]
      have hlands : Lands setup s ref refresh data origin :=
        ⟨hinspect, Bool.eq_false_iff.mpr hmoved, hsame⟩
      split at h
      · have hraised := (Prod.mk.inj h).2
        contradiction
      · rename_i hrai
        refine ⟨hlands, hrai, ?_⟩
        have hrows : ∀ key, v.registry.getArtifact key = s.registry.getArtifact key := fun key => by
          rw [hloses.row key, if_neg (by simp)]
        have hdirs : ∀ key, v.disk.artifacts.lookup key = s.disk.artifacts.lookup key := fun key =>
          hloses.dir key (by simp)
        unfold dropped
        cases hkeys : keysOf setup (setup.sha256 data) inspected with
        | error e' =>
            rw [hkeys] at h
            obtain ⟨rfl, -⟩ := Prod.mk.inj h
            exact ⟨hrecorded, hloses⟩
        | ok keys =>
            obtain ⟨key, serving⟩ := keys
            rw [hkeys] at h
            obtain ⟨hrefs, hlost⟩ := run_hitOrSubmit_error h
            rw [hrows, hdirs] at hlost
            exact ⟨(entry_congr hrefs ref).trans hrecorded, hloses.trans hlost⟩
    · rw [Program.run_bind_of_error _ hrun] at h
      left
      obtain ⟨rfl, -⟩ := Prod.mk.inj h
      exact ⟨fun hlands => hother hlands.2.2, rfl, Loses.of_eq rfl rfl rfl⟩

/-! ## Opening a call -/

/-- The state once the ref of a call has a row, and its pin if it is configured. -/
def opened (setup : Setup) (s : Manager) (ref kind : PyStr) : Manager :=
  let u := (Stmt.upsertRef ref kind).exec setup s
  if setup.models.contains ref then
    (Stmt.addPin ⟨py "ref:" ++ ref, py "configured", ref⟩).exec setup u
  else u

/-- How every call on a parsed ref starts. -/
theorem run_opened {β : Type} (ref kind : PyStr) (rest : ThreadProg β) :
    (do
      spread (exec (.upsertRef ref kind))
      spread (whenever (setup.models.contains ref)
        (exec (.addPin ⟨py "ref:" ++ ref, py "configured", ref⟩)))
      rest : ThreadProg β).run (Act.exec setup) s =
      rest.run (Act.exec setup) (opened setup s ref kind) := by
  unfold opened
  cases hpin : setup.models.contains ref <;> rfl

/-- A row that was just added for a ref has no source. -/
theorem entry_upsertRef (ref kind : PyStr) :
    ∃ m, ((Stmt.upsertRef ref kind).exec setup s).entry ref = some m ∧
      m.sourceSha256 = s.recorded ref ∧ ∀ m', s.entry ref = some m' → m' = m := by
  simp only [Manager.entry, Manager.recorded, Stmt.exec, Registry.upsertRef]
  cases hrow : s.registry.getRef ref with
  | some m =>
      refine ⟨{ m with state := [], inspection := none }, ?_, rfl,
        fun m' hm' => (Option.some.inj hm').symm⟩
      rw [if_pos (by rfl), hrow]
      rfl
  | none =>
      refine ⟨⟨ref, kind, [], none, none⟩, ?_, rfl, fun _ hm' => by contradiction⟩
      rw [if_neg (by simp)]
      unfold Registry.getRef at hrow ⊢
      simp [List.find?_append, hrow]

/-- Opening a call adds a row for its ref at most. -/
theorem opened_kept (ref kind : PyStr) :
    Loses s (opened setup s ref kind) none ∧
      (opened setup s ref kind).disk = s.disk ∧
      ∃ m, (opened setup s ref kind).entry ref = some m ∧
        m.sourceSha256 = s.recorded ref ∧ ∀ m', s.entry ref = some m' → m' = m := by
  have hentry := @entry_upsertRef setup s ref kind
  have hrest : (s.registry.upsertRef ref kind).jobs = s.registry.jobs ∧
      (s.registry.upsertRef ref kind).artifacts = s.registry.artifacts := by
    unfold Registry.upsertRef
    split <;> exact ⟨rfl, rfl⟩
  unfold opened
  dsimp only
  split <;> exact ⟨Loses.of_eq hrest.1 hrest.2 rfl, rfl, hentry⟩

/-! ## Failed calls -/

/-- A call that raises before it records a source keeps what worked. -/
theorem Kept.of_loses_none {ref kind : PyStr}
    (hentry : t.entry ref = (opened setup s ref kind).entry ref) (h : Loses s t none) :
    Kept s t ref := by
  obtain ⟨-, -, m, hopen, hsource, hsame⟩ := @opened_kept setup s ref kind
  refine ⟨?_, fun m' hm' => ?_,
    fun _ _ ha => h.activation_kept (fun _ hgone => by contradiction) ha⟩
  · rw [recorded_eq t, hentry, hopen]
    exact hsource
  · rw [hentry, hopen, hsame m' hm']

/-- A call that has recorded a source keeps what worked if it was the recorded one, and the
artifact of the ref is still there. -/
theorem kept_iff_of_recorded {ref kind digest : PyStr} {gone : Option PyStr}
    (hentry : t.entry ref = ((opened setup s ref kind).entry ref).map fun m =>
      { m with sourceSha256 := some digest }) (h : Loses s t gone) :
    Kept s t ref ↔
      s.recorded ref = some digest ∧
        ¬(standsPrepared s ref ∧ (activation s ref).isSome = true ∧
          ∃ key, gone = some key ∧ s.registry.preparedKey ref = some key) := by
  obtain ⟨-, -, m, hopen, hsource, hsame⟩ := @opened_kept setup s ref kind
  have hrecorded : t.recorded ref = some digest := by
    rw [recorded_eq t, hentry, hopen]
    rfl
  constructor
  · rintro ⟨hkeeps, -, hkept⟩
    refine ⟨hkeeps.symm.trans hrecorded, ?_⟩
    rintro ⟨hstands, hactive, key, rfl, hkey⟩
    obtain ⟨a, ha⟩ := Option.isSome_iff_exists.mp hactive
    have hlost := h.activation_lost hkey
    rw [hkept hstands a ha] at hlost
    contradiction
  · rintro ⟨hkeeps, hspared⟩
    refine ⟨hrecorded.trans hkeeps.symm, fun m' hm' => ?_, fun hstands a ha => ?_⟩
    · rw [hentry, hopen, hsame m' hm', Option.map_some, ← hkeeps, ← hsource]
    · refine h.activation_kept (fun key hgone hkey => hspared ?_) ha
      exact ⟨hstands, by rw [ha]; rfl, key, hgone, hkey⟩

/-- A second state agrees with a first on the row of a ref and on the disk, and loses nothing. -/
structure Agrees (s t : Manager) (ref : PyStr) : Prop where
  entry : t.entry ref = s.entry ref
  disk : t.disk = s.disk
  loses : Loses s t none

theorem Agrees.refl (s : Manager) (ref : PyStr) : Agrees s s ref :=
  ⟨rfl, rfl, Loses.of_eq rfl rfl rfl⟩

/-- Recording the summary of an inspection. -/
theorem agrees_setRefInspection (ref summary : PyStr) :
    Agrees s ((Stmt.setRefInspection ref summary).exec setup s) ref :=
  ⟨entry_setRefInspection ref ref summary, rfl, Loses.of_eq rfl rfl rfl⟩

/-- A checked inspection says what the inspection says, and changes no more than the summary. -/
theorem run_inspectChecked (ref : PyStr) (data : Bytes) :
    ∃ u, (inspectChecked setup ref data).run (Act.exec setup) s = (u, setup.inspect data) ∧
      Agrees s u ref := by
  have hagrees := @agrees_setRefInspection setup s ref (setup.summary data)
  unfold inspectChecked
  cases setup.inspect data with
  | error e =>
      cases e with
      | fxdna e => exact ⟨_, rfl, hagrees⟩
      | _ => exact ⟨_, rfl, Agrees.refl s ref⟩
  | ok contract => exact ⟨_, rfl, hagrees⟩

/-- Acquired bytes that raise, if they are not those of an imported artifact, were refused by
the inspection or are ingested. -/
theorem run_prepare_bytes {ref kind : PyStr} {refresh : Bool} {data : Bytes} {origin : Origin}
    {e : Raised}
    (h : (prepare setup ref kind refresh (.bytes data origin)).run (Act.exec setup) s =
      (t, .error e)) :
    (Agrees (opened setup s ref kind) t ref ∧ origin ≠ .importedRai ∧
        setup.inspect data = .error e) ∨
      ∃ u inspected, Agrees (opened setup s ref kind) u ref ∧
        (origin ≠ .importedRai → setup.inspect data = .ok inspected) ∧
        (ingestSource setup ref data origin inspected refresh).run (Act.exec setup) u =
          (t, .error e) := by
  have hdrop : ∀ {p : ThreadProg IngestReply} {u : Manager},
      (p >>= fun _ => return ()).run (Act.exec setup) u = (t, .error e) →
        p.run (Act.exec setup) u = (t, .error e) := by
    intro p u hrun
    rw [Program.run_bind] at hrun
    split at hrun
    · have hraised := (Prod.mk.inj hrun).2
      contradiction
    · rename_i heq
      obtain ⟨rfl, herror⟩ := Prod.mk.inj hrun
      rw [heq, ← Except.error.inj herror]
  unfold prepare at h
  rw [run_opened] at h
  by_cases horigin : origin = .importedRai
  · subst horigin
    exact Or.inr ⟨_, .null, Agrees.refl _ ref, fun hne => absurd rfl hne, hdrop h⟩
  · obtain ⟨u, hinspects, hagrees⟩ :=
      @run_inspectChecked setup (opened setup s ref kind) ref data
    have hrun : (inspectChecked setup ref data >>= fun contract =>
        ingestSource setup ref data origin contract refresh >>= fun _ => return ()).run
          (Act.exec setup) (opened setup s ref kind) = (t, .error e) := by
      cases origin with
      | importedRai => exact absurd rfl horigin
      | _ => exact h
    cases hinspect : setup.inspect data with
    | error e' =>
        rw [hinspect] at hinspects
        rw [Program.run_bind_of_error _ hinspects] at hrun
        obtain ⟨rfl, herror⟩ := Prod.mk.inj hrun
        exact Or.inl ⟨hagrees, horigin, by rw [Except.error.inj herror]⟩
    | ok contract =>
        rw [hinspect] at hinspects
        rw [Program.run_bind_of_ok _ hinspects] at hrun
        exact Or.inr ⟨u, contract, hagrees, fun _ => rfl, hdrop hrun⟩

/-- Opening a call and inspecting its bytes does not change whether they land, nor what they
remove. -/
theorem lands_opened {u : Manager} {ref kind : PyStr} {refresh : Bool} {data : Bytes}
    {origin : Origin} (h : Agrees (opened setup s ref kind) u ref) :
    Lands setup u ref refresh data origin ↔ Lands setup s ref refresh data origin := by
  obtain ⟨-, hdisk, m, hopen, hsource, -⟩ := @opened_kept setup s ref kind
  have hrecorded : u.recorded ref = s.recorded ref := by
    rw [recorded_eq, h.entry, hopen]
    exact hsource
  unfold Lands
  rw [h.disk, hdisk, hrecorded]

theorem dropped_opened {u : Manager} {ref kind digest : PyStr} {inspected : Json}
    (h : Agrees (opened setup s ref kind) u ref) :
    dropped setup u digest inspected = dropped setup s digest inspected := by
  obtain ⟨hloses, hdisk, -⟩ := @opened_kept setup s ref kind
  have hrows : ∀ key, u.registry.getArtifact key = s.registry.getArtifact key := fun key => by
    rw [(hloses.trans h.loses).row key, if_neg (by simp)]
  unfold dropped
  simp only [hrows, h.disk, hdisk]

/-- **When a failed preparation keeps what worked.**  A call that raises, from any state, leaves
the recorded source of its ref and what the ref can be activated to, exactly when it is harmless:
it raises before its bytes are recorded, or they were recorded already and it does not remove
the artifact of the ref. -/
theorem failed_prepare_kept_iff {ref kind : PyStr} {refresh : Bool} {acq : Acquisition}
    {e : Raised}
    (hraise : (prepareCall setup ref kind refresh acq).run (Act.exec setup) s = (t, .error e)) :
    Kept s t ref ↔ Harmless setup s ref refresh acq := by
  obtain ⟨hopen, -, -⟩ := @opened_kept setup s ref kind
  rcases acq with _ | _ | ⟨⟨data, origin⟩ | e'⟩
  · obtain ⟨rfl, -⟩ := Prod.mk.inj hraise
    exact iff_of_true ⟨rfl, fun _ hm => hm, fun _ _ ha => ha⟩ trivial
  · simp only [prepareCall, run_opened, Program.run_raise] at hraise
    obtain ⟨rfl, -⟩ := Prod.mk.inj hraise
    exact iff_of_true (Kept.of_loses_none rfl hopen) trivial
  · rcases run_prepare_bytes hraise with
      ⟨hagrees, hrai, hrefused⟩ | ⟨u, inspected, hagrees, hinspect, hrun⟩
    · refine iff_of_true (Kept.of_loses_none hagrees.entry (hopen.trans hagrees.loses))
        fun hlands => ?_
      obtain ⟨contract, hcontract⟩ := hlands.1 hrai
      rw [hcontract] at hrefused
      contradiction
    · have hloses' := hopen.trans hagrees.loses
      rcases run_ingestSource_error (fun hrai => ⟨_, hinspect hrai⟩) hrun with
        ⟨hstays, hentry, hloses⟩ | ⟨hlands, hrai, hentry, hloses⟩
      · rw [hagrees.entry] at hentry
        exact iff_of_true (Kept.of_loses_none hentry (hloses'.trans hloses))
          fun hlands => absurd ((lands_opened hagrees).mpr hlands) hstays
      · have hcontract := hinspect hrai
        rw [hagrees.entry] at hentry
        rw [dropped_opened hagrees] at hloses
        rw [kept_iff_of_recorded hentry (hloses'.trans hloses)]
        have hspoils : (standsPrepared s ref ∧ (activation s ref).isSome = true ∧
            ∃ key, dropped setup s (setup.sha256 data) inspected = some key ∧
              s.registry.preparedKey ref = some key) ↔ Spoils setup s ref data := by
          unfold Spoils
          constructor
          · rintro ⟨hstands, hactive, key, hdropped, hkey⟩
            exact ⟨hstands, hactive, inspected, key, hcontract, hdropped, hkey⟩
          · rintro ⟨hstands, hactive, contract, key, hok, hdropped, hkey⟩
            obtain rfl : inspected = contract := Except.ok.inj (hcontract.symm.trans hok)
            exact ⟨hstands, hactive, key, hdropped, hkey⟩
        rw [hspoils]
        exact ⟨fun hkept _ => hkept,
          fun hharmless => hharmless ((lands_opened hagrees).mp hlands)⟩
  · have hread : ∀ k : Option PyStr → ThreadProg Unit,
        (spread (read fun u => usableCachedKey setup u ref) >>= k).run (Act.exec setup)
            (opened setup s ref kind) =
          (k (usableCachedKey setup (opened setup s ref kind) ref)).run (Act.exec setup)
            (opened setup s ref kind) := fun _ => rfl
    refine iff_of_true ?_ trivial
    simp only [prepareCall, prepare, run_opened, hread] at hraise
    split at hraise
    · obtain ⟨rfl, -⟩ := Prod.mk.inj hraise
      exact Kept.of_loses_none rfl hopen
    · have hraised := (Prod.mk.inj hraise).2
      contradiction

/-! ## A refresh without room -/

namespace Process

/-- A local file is prepared and compiled, and then the disk runs full. -/
def preparedThenFull : List Label :=
  turns 0 6 ++
    [.outside (.space (100 * 1024 ^ 3) (100 * 1024 ^ 3)),
      .start (.prepare (py "local://cam") (py "local") false (.bytes sampleModel .localFile))] ++
    turns 0 12 ++ [.start (.pump 1)] ++ turns 0 20 ++ [.outside (.space 0 0)]

/-- The file has other bytes, and they are asked for. -/
def refreshCall : ThreadProg Unit :=
  prepareCall sampleSetup (py "local://cam") (py "local") true (.acquired (.bytes [1] .localFile))

/-- Whether the refresh raises at a state. -/
def refreshRaises (s : Manager) : Bool :=
  match (refreshCall.run (Act.exec sampleSetup) s).2 with
  | .error _ => true
  | .ok _ => false

theorem exists_of_refreshRaises {s : Manager} (h : refreshRaises s = true) :
    ∃ e, refreshCall.run (Act.exec sampleSetup) s =
      ((refreshCall.run (Act.exec sampleSetup) s).1, .error e) := by
  unfold refreshRaises at h
  split at h
  · rename_i e heq
    exact ⟨e, Prod.ext rfl heq⟩
  · contradiction

/-- The refresh of the prepared file. -/
theorem failed_prepare_kept_refresh :
    ∃ P es t e, (machine sampleSetup).exec preparedThenFull (first sampleSetup (py "boot")) =
        some (P, es) ∧
      refreshCall.run (Act.exec sampleSetup) P.shared = (t, .error e) ∧
      (Kept P.shared t (py "local://cam") ↔
        Harmless sampleSetup P.shared (py "local://cam") true
          (.acquired (.bytes [1] .localFile))) := by
  have hends : (machine sampleSetup).endsIn preparedThenFull (first sampleSetup (py "boot"))
      (fun P => refreshRaises P.shared) = true := by
    decide +kernel
  obtain ⟨P, es, hrun, hraises⟩ := (machine sampleSetup).exists_exec_of_endsIn hends
  obtain ⟨e, hraise⟩ := exists_of_refreshRaises hraises
  exact ⟨P, es, _, e, hrun, hraise, failed_prepare_kept_iff hraise⟩

/-- The refresh raises for want of room, and the ref has lost its recorded source. -/
theorem refresh_records_before_it_fails :
    ∃ P es t e, (machine sampleSetup).exec preparedThenFull (first sampleSetup (py "boot")) =
        some (P, es) ∧
      refreshCall.run (Act.exec sampleSetup) P.shared = (t, .error e) ∧
      P.shared.recorded (py "local://cam") = some sampleDigest ∧
      t.recorded (py "local://cam") = some (sampleSha256 [1]) ∧
      ¬Kept P.shared t (py "local://cam") := by
  have hends : (machine sampleSetup).endsIn preparedThenFull (first sampleSetup (py "boot"))
      (fun P => refreshRaises P.shared &&
        (P.shared.recorded (py "local://cam") == some sampleDigest &&
          (refreshCall.run (Act.exec sampleSetup) P.shared).1.recorded (py "local://cam") ==
            some (sampleSha256 [1]))) = true := by
    decide +kernel
  obtain ⟨P, es, hrun, hgood⟩ := (machine sampleSetup).exists_exec_of_endsIn hends
  simp only [Bool.and_eq_true, beq_iff_eq] at hgood
  obtain ⟨hraises, hbefore, hafter⟩ := hgood
  obtain ⟨e, hraise⟩ := exists_of_refreshRaises hraises
  refine ⟨P, es, _, e, hrun, hraise, hbefore, hafter, fun hkept => ?_⟩
  have hsame : some (sampleSha256 [1]) = some sampleDigest :=
    hafter.symm.trans (hkept.1.trans hbefore)
  have hother : sampleSha256 [1] ≠ sampleDigest := by decide +kernel
  exact hother (Option.some.inj hsame)

end Process

end FrigateXdna
