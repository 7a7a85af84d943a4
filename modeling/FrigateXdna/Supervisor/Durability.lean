import FrigateXdna.Process

/-!
# Crashes of the artifact cache

A publication renames a directory into {lit}`artifacts/` and then inserts its row; an
invalidation renames the directory away and then deletes the row.  The process may die
between any two actions, and the next start repairs what it finds: it adopts a directory
without a row or moves it away, and never looks for a row without a directory.

Main results:

- Theorem {lit}`recover_recorded`: a repair ends, and every directory has a row.
- Theorem {lit}`publishResult_solo`: a publication may stop anywhere.
- Theorem {lit}`run_publishResult`: a key without a row can be published.
- Theorem {lit}`crash_consistent_iff`: rows and directories match after every operation
  and every repair exactly when no crash splits an invalidation.
-/

namespace FrigateXdna
namespace Durability

open Python Library

variable {setup : Setup} {s t : Manager}

/-! ## Rows and directories -/

/-- A directory holds the artifact of a row: its manifest names the key, and its model has
the digest of the row. -/
structure Holds (setup : Setup) (key : PyStr) (row : ArtifactRow) (dir : Dir) : Prop where
  manifest : ∃ fields, dir.manifest = some (.ok (.obj fields)) ∧
    lookupField (py "compile_key") fields = some (.str key)
  model : ∃ data, dir.model = some data ∧ setup.sha256 data = row.artifactSha256

/-- Every row has a directory that holds its artifact. -/
def Backed (setup : Setup) (s : Manager) : Prop :=
  ∀ key row, s.registry.getArtifact key = some row →
    ∃ dir, s.disk.artifacts.lookup key = some dir ∧ Holds setup key row dir

/-- The directory of a key, if there is one, has a row. -/
def Recorded (key : PyStr) (s : Manager) : Prop :=
  ∀ dir, s.disk.artifacts.lookup key = some dir → (s.registry.getArtifact key).isSome = true

/-- Rows and directories match. -/
structure Consistent (setup : Setup) (s : Manager) : Prop where
  backed : Backed setup s
  recorded : ∀ key, Recorded key s

/-- A directory whose manifest a publication wrote. -/
def Written (dir : Dir) : Prop :=
  ∃ backend key src sha, dir.manifest = some (.ok (publishedManifest backend key src sha))

/-- A repair can read every directory without a row. -/
def Legible (s : Manager) : Prop :=
  ∀ key dir, s.disk.artifacts.lookup key = some dir → s.registry.getArtifact key = none →
    Written dir

theorem Consistent.legible (h : Consistent setup s) : Legible s := by
  intro key dir hdir hrow
  have hsome := h.recorded key dir hdir
  rw [hrow] at hsome
  contradiction

/-- How a state may grow: a key with a row keeps its row and its directory, and new rows
have directories. -/
structure Extends (setup : Setup) (s t : Manager) : Prop where
  kept : ∀ key, (s.registry.getArtifact key).isSome = true →
    t.registry.getArtifact key = s.registry.getArtifact key ∧
      t.disk.artifacts.lookup key = s.disk.artifacts.lookup key
  backed : Backed setup s → Backed setup t

theorem Extends.refl (s : Manager) : Extends setup s s :=
  ⟨fun _ _ => ⟨rfl, rfl⟩, id⟩

theorem Extends.trans {u : Manager} (h : Extends setup s t) (h' : Extends setup t u) :
    Extends setup s u where
  kept key hrow := by
    obtain ⟨hr, hd⟩ := h.kept key hrow
    obtain ⟨hr', hd'⟩ := h'.kept key (by rw [hr]; exact hrow)
    exact ⟨hr'.trans hr, hd'.trans hd⟩
  backed hs := h'.backed (h.backed hs)

/-- Where rows and directories stay as they are. -/
theorem Extends.of_same (hrows : t.registry.artifacts = s.registry.artifacts)
    (hdirs : t.disk.artifacts = s.disk.artifacts) : Extends setup s t where
  kept key _ := by simp only [Registry.getArtifact, hrows, hdirs, and_self]
  backed hs key row hrow := by
    simp only [Registry.getArtifact, hrows] at hrow
    rw [hdirs]
    exact hs key row hrow

theorem Legible.of_same (h : Legible s) (hrows : t.registry.artifacts = s.registry.artifacts)
    (hdirs : t.disk.artifacts = s.disk.artifacts) : Legible t := by
  intro key dir hdir hrow
  simp only [Registry.getArtifact, hrows] at hrow
  rw [hdirs] at hdir
  exact h key dir hdir hrow

/-! ## Careful statements -/

/-- What a statement of a publication or of a repair respects. -/
def Careful (setup : Setup) (s : Manager) : Stmt → Prop
  | .moveArtifact key _ => s.registry.getArtifact key = none
  | .commitStaged uuid key =>
      s.registry.getArtifact key = none ∧
        ∀ dir, s.disk.staged.lookup uuid = some dir → Written dir
  | .addArtifact row =>
      ∃ dir, s.disk.artifacts.lookup row.compileKey = some dir ∧
        Holds setup row.compileKey row dir
  | .deleteArtifact _ => False
  | _ => True

/-- A row that is inserted for its directory. -/
theorem addArtifact_extends (h : Legible s) {row : ArtifactRow}
    (hrow : Careful setup s (.addArtifact row)) :
    Legible ((Stmt.addArtifact row).exec setup s) ∧
      Extends setup s ((Stmt.addArtifact row).exec setup s) := by
  obtain ⟨dir, hdir, hholds⟩ := hrow
  refine ⟨fun key d hd hnone => ?_, fun key hsome => ?_, fun hs key new hnew => ?_⟩
  · refine h key d hd ?_
    by_contra hold
    have hsome := Option.isSome_iff_ne_none.mpr hold
    have hsame : (s.registry.addArtifact row).getArtifact key = s.registry.getArtifact key :=
      Registry.getArtifact_addArtifact_of_some hsome
    exact hold (hsame.symm.trans hnone)
  · exact ⟨Registry.getArtifact_addArtifact_of_some hsome, rfl⟩
  · have hnew' : (s.registry.addArtifact row).getArtifact key = some new := hnew
    by_cases hold : s.registry.getArtifact key = none
    · by_cases hkey : row.compileKey = key
      · subst hkey
        rw [Registry.getArtifact_addArtifact_self hold] at hnew'
        obtain rfl := Option.some.inj hnew'
        exact ⟨dir, hdir, hholds⟩
      · rw [Registry.getArtifact_addArtifact_ne hkey] at hnew'
        exact hs key new hnew'
    · rw [Registry.getArtifact_addArtifact_of_some (Option.isSome_iff_ne_none.mpr hold)]
        at hnew'
      exact hs key new hnew'

/-- A directory that changes under a key without a row. -/
theorem artifacts_extends (h : Legible s) {d : Disk} {key : PyStr} {excused : List PyStr}
    (hnone : s.registry.getArtifact key = none)
    (hother : ∀ key', key' ≠ key → d.artifacts.lookup key' = s.disk.artifacts.lookup key')
    (hwritten : ∀ dir, d.artifacts.lookup key = some dir → Written dir) :
    Legible { s with disk := d, excused } ∧ Extends setup s { s with disk := d, excused } := by
  have hne : ∀ key' row, s.registry.getArtifact key' = some row → key' ≠ key := by
    rintro key' row hrow rfl
    rw [hnone] at hrow
    contradiction
  refine ⟨fun key' dir hdir hrow => ?_, fun key' hsome => ⟨rfl, ?_⟩,
    fun hs key' row hrow => ?_⟩
  · by_cases hkey : key' = key
    · subst hkey
      exact hwritten dir hdir
    · exact h key' dir ((hother key' hkey).symm.trans hdir) hrow
  · obtain ⟨row, hrow⟩ := Option.isSome_iff_exists.mp hsome
    exact hother key' (hne key' row hrow)
  · obtain ⟨dir, hdir, hholds⟩ := hs key' row hrow
    exact ⟨dir, (hother key' (hne key' row hrow)).trans hdir, hholds⟩

/-- **A careful statement only extends the cache.** -/
theorem careful_extends (h : Legible s) {a : Stmt} (ha : Careful setup s a) :
    Legible (a.exec setup s) ∧ Extends setup s (a.exec setup s) := by
  have hsame : ∀ t : Manager, t.registry.artifacts = s.registry.artifacts →
      t.disk.artifacts = s.disk.artifacts → Legible t ∧ Extends setup s t :=
    fun t hrows hdirs => ⟨h.of_same hrows hdirs, .of_same hrows hdirs⟩
  cases a with
  | addArtifact row => exact addArtifact_extends h ha
  | deleteArtifact key => exact ha.elim
  | moveArtifact key invalidated =>
      refine artifacts_extends h ha (fun key' hkey => ?_) fun dir hdir => ?_
      · exact AList.lookup_erase_ne hkey
      · simp [Disk.moveArtifact] at hdir
  | commitStaged uuid key =>
      cases hstaged : s.disk.staged.lookup uuid with
      | none =>
          refine hsame _ rfl ?_
          simp [Stmt.exec, Disk.commitStaged, hstaged]
      | some new =>
          have hexec : (Stmt.commitStaged uuid key).exec setup s =
              { s with disk := s.disk.commitStaged uuid key, excused := s.excused } := rfl
          rw [hexec]
          refine artifacts_extends h ha.1 (fun key' hkey => ?_) fun dir hdir => ?_
          · simp only [Disk.commitStaged, hstaged]
            exact AList.lookup_insert_ne hkey
          · simp only [Disk.commitStaged, hstaged, AList.lookup_insert,
              Option.some.injEq] at hdir
            exact hdir ▸ ha.2 new hstaged
  | addAlias uuid ref =>
      refine hsame _ ?_ rfl
      simp only [Stmt.exec, Registry.addAlias]
      split <;> rfl
  | upsertRef ref kind =>
      refine hsame _ ?_ rfl
      simp only [Stmt.exec, Registry.upsertRef]
      split <;> rfl
  | addSource row =>
      refine hsame _ ?_ rfl
      simp only [Stmt.exec, Registry.addSource]
      split <;> rfl
  | poll uuid dt =>
      simp only [Stmt.exec]
      split
      · exact hsame _ rfl rfl
      · exact hsame _ rfl rfl
  | stageModel uuid data =>
      refine hsame _ rfl ?_
      simp only [Stmt.exec, Disk.stageModel]
      split <;> rfl
  | stageManifest uuid manifest =>
      refine hsame _ rfl ?_
      simp only [Stmt.exec, Disk.stageManifest]
      split <;> rfl
  | _ => exact hsame _ rfl rfl

/-! ## Programs that run alone -/

/-- A program that runs alone and only performs careful statements. -/
abbrev Solo {β : Type} (setup : Setup) (p : Prog β) (Q : Manager → β → Prop)
    (s : Manager) : Prop :=
  p.Safe (Stmt.exec setup) (Program.Rely.alone Legible) (Careful setup) Q s

theorem solo_read {β : Type} {f : Manager → β} {Q : Manager → β → Prop} (h : Q s (f s)) :
    Solo setup (read f) Q s := by
  rintro _ rfl _
  refine ⟨trivial, ?_⟩
  rintro _ rfl _
  exact h

theorem solo_exec {a : Stmt} (h : Careful setup s a) :
    Solo setup (exec a) (fun t _ => t = a.exec setup s) s := by
  rintro _ rfl _
  refine ⟨h, ?_⟩
  rintro _ rfl _
  rfl

theorem solo_ret {β : Type} {b : β} {Q : Manager → β → Prop} (h : Q s b) :
    Solo setup (.ret b) Q s := by
  rintro _ rfl _
  exact h

theorem solo_whenever {c : Bool} {a : Stmt} (h : c = true → Careful setup s a) :
    Solo setup (whenever c (exec a))
      (fun t _ => t = if c then a.exec setup s else s) s := by
  unfold whenever
  split
  · rename_i hc
    exact solo_exec (h hc)
  · exact solo_ret rfl

/-- Where a careful program stops, the cache was only extended. -/
theorem Solo.after {β : Type} {p : Prog β} {Q : Manager → β → Prop} (h : Solo setup p Q s)
    (hs : Legible s) (n : Nat) :
    Legible (p.after (Stmt.exec setup) n s) ∧
      Extends setup s (p.after (Stmt.exec setup) n s) :=
  Program.Safe.after (E := Extends setup) Extends.refl (fun _ _ _ => Extends.trans)
    (fun _ _ hs ha => careful_extends hs ha) h hs n

/-- Where a careful program ends, the cache was only extended. -/
theorem Solo.run {β : Type} {p : Prog β} {Q : Manager → β → Prop} (h : Solo setup p Q s)
    (hs : Legible s) :
    Legible (p.run (Stmt.exec setup) s).1 ∧
      Extends setup s (p.run (Stmt.exec setup) s).1 := by
  obtain ⟨n, hn⟩ := p.exists_run_eq_after (Stmt.exec setup) s
  rw [hn]
  exact h.after hs n

/-! ## Publications -/

/-- The directory that a publication renames into place. -/
def publishedDir (setup : Setup) (backend key source : PyStr) (data : Bytes) : Dir where
  model := some data
  manifest := some (.ok (publishedManifest backend key source (setup.sha256 data)))

/-- A published directory holds the artifact of its row. -/
theorem publishedDir_holds (backend key source : PyStr) (data : Bytes) :
    Holds setup key ⟨key, source, setup.sha256 data, recipeId⟩
      (publishedDir setup backend key source data) where
  manifest := ⟨_, rfl, rfl⟩
  model := ⟨data, rfl, rfl⟩

/-- The state in which a staging directory holds both files. -/
def filled (setup : Setup) (s : Manager) (uuid backend key source : PyStr) (data : Bytes) :
    Manager :=
  (Stmt.stageManifest uuid (publishedManifest backend key source (setup.sha256 data))).exec
    setup ((Stmt.stageModel uuid data).exec setup s)

theorem staged_publishedDir (setup : Setup) {uuid : PyStr} (backend key source : PyStr)
    (data : Bytes) {dir : Dir} (h : s.disk.staged.lookup uuid = some dir) :
    (filled setup s uuid backend key source data).disk.staged.lookup uuid =
      some (publishedDir setup backend key source data) := by
  simp [filled, Stmt.exec, Disk.stageModel, Disk.stageManifest, h, publishedDir]

/-- Filling a staging directory changes no artifact. -/
theorem filled_artifacts (uuid backend key source : PyStr) (data : Bytes) :
    (filled setup s uuid backend key source data).disk.artifacts = s.disk.artifacts := by
  simp only [filled, Stmt.exec, Disk.stageModel, Disk.stageManifest]
  split <;> split <;> rfl

/-- A committed staging directory stands under its key. -/
theorem commitStaged_lookup (setup : Setup) {uuid key : PyStr} {dir : Dir}
    (h : s.disk.staged.lookup uuid = some dir) :
    ((Stmt.commitStaged uuid key).exec setup s).disk.artifacts.lookup key = some dir := by
  simp [Stmt.exec, Disk.commitStaged, h]

/-- A committed staging directory changes no other key. -/
theorem commitStaged_lookup_ne (setup : Setup) {uuid key other : PyStr} (h : other ≠ key) :
    ((Stmt.commitStaged uuid key).exec setup s).disk.artifacts.lookup other =
      s.disk.artifacts.lookup other := by
  simp only [Stmt.exec, Disk.commitStaged]
  split
  · rfl
  · exact AList.lookup_insert_ne h

/-- The rename of a staged artifact. -/
theorem publishArtifact_solo {key uuid backend source : PyStr} {data : Bytes} {dir : Dir}
    (hrow : s.registry.getArtifact key = none)
    (hstaged : s.disk.staged.lookup uuid = some dir) :
    Solo setup
      (publishArtifact key uuid data
        (publishedManifest backend key source (setup.sha256 data)))
      (fun t _ => t.disk.artifacts.lookup key =
        some (publishedDir setup backend key source data)) s := by
  refine Program.Safe.bind (solo_read (Q := fun t _ => s = t) rfl) fun found t _ ht => ?_
  subst ht
  split
  · trivial
  · refine Program.Safe.bind (solo_exec trivial) fun _ t _ ht => ?_
    subst ht
    refine Program.Safe.bind (solo_exec trivial) fun _ t _ ht => ?_
    subst ht
    have hstaged' := staged_publishedDir setup backend key source data hstaged
    have hcareful : Careful setup (filled setup s uuid backend key source data)
        (.commitStaged uuid key) := by
      refine ⟨hrow, fun d hd => ?_⟩
      rw [hstaged'] at hd
      obtain rfl := Option.some.inj hd
      exact ⟨_, _, _, _, rfl⟩
    refine (solo_exec hcareful).weaken fun t _ _ ht => ?_
    subst ht
    exact commitStaged_lookup setup hstaged'

/-- **A publication may stop anywhere.** -/
theorem publishResult_solo (job : JobRow) :
    Solo setup (publishResult setup job) (fun _ _ => True) s := by
  refine Program.Safe.bind (solo_read (Q := fun t done => s = t ∧
    done = (s.registry.getArtifact (job.compileKey.getD [])).isSome) ⟨rfl, rfl⟩)
    fun done t _ ht => ?_
  obtain ⟨rfl, rfl⟩ := ht
  split
  · exact solo_ret trivial
  · rename_i hdone
    have hrow : s.registry.getArtifact (job.compileKey.getD []) = none := by
      simpa using hdone
    refine Program.Safe.bind (solo_read (Q := fun t _ => s = t) rfl) fun found t _ ht => ?_
    subst ht
    refine Program.Safe.bind (solo_whenever fun _ => hrow) fun _ t _ ht => ?_
    have hrow' : t.registry.getArtifact (job.compileKey.getD []) = none := by
      subst ht
      split <;> exact hrow
    clear ht hdone hrow
    unfold publishStaged
    refine Program.Safe.bind (solo_exec trivial) fun _ t' _ ht => ?_
    subst ht
    refine Program.Safe.bind (solo_read (Q := fun u _ =>
      u = (Stmt.makeStaged job.uuid).exec setup t) rfl) fun source u _ hu => ?_
    subst hu
    refine Program.Safe.bind (solo_read (Q := fun u _ =>
      u = (Stmt.makeStaged job.uuid).exec setup t) rfl) fun backend u _ hu => ?_
    subst hu
    cases backend with
    | none => trivial
    | some backend =>
        dsimp only
        split
        · trivial
        · rename_i data hdata
          refine Program.Safe.bind (publishArtifact_solo hrow' (AList.lookup_insert _))
            fun _ u _ hu => ?_
          have hcareful : Careful setup u (.addArtifact
              ⟨job.compileKey.getD [], source, setup.sha256 data, recipeId⟩) :=
            ⟨_, hu, publishedDir_holds ..⟩
          exact (solo_exec hcareful).weaken fun _ _ _ _ => trivial

/-- The state after an artifact was published under a key. -/
structure Published (setup : Setup) (s t : Manager) (key : PyStr) (data : Bytes) : Prop where
  artifact : ∃ row dir, t.registry.getArtifact key = some row ∧
    t.disk.artifacts.lookup key = some dir ∧ Holds setup key row dir ∧ dir.model = some data
  others : ∀ key', key' ≠ key →
    t.registry.getArtifact key' = s.registry.getArtifact key' ∧
      t.disk.artifacts.lookup key' = s.disk.artifacts.lookup key'

/-- The state after a publication that raised. -/
structure Unpublished (s t : Manager) (key : PyStr) : Prop where
  rows : t.registry.artifacts = s.registry.artifacts
  gone : t.disk.artifacts.lookup key = none
  others : ∀ key', key' ≠ key →
    t.disk.artifacts.lookup key' = s.disk.artifacts.lookup key'

/-- The bytes that a backend left for a job. -/
def leftBytes (s : Manager) (uuid key : PyStr) : Option Bytes :=
  (s.backends.lookup uuid).bind fun backend => (artifactBytes key backend).toOption

/-- The rename of a staged artifact under a key without a directory. -/
theorem run_publishArtifact (setup : Setup) (key uuid backend source : PyStr) (data : Bytes)
    (hdir : s.disk.artifacts.lookup key = none) :
    (publishArtifact key uuid data
      (publishedManifest backend key source (setup.sha256 data))).run (Stmt.exec setup) s =
      ((Stmt.commitStaged uuid key).exec setup (filled setup s uuid backend key source data),
        .ok ()) := by
  have hno : s.disk.hasArtifact key = false := by simp [Disk.hasArtifact, hdir]
  unfold publishArtifact
  rw [Program.run_bind, run_read]
  dsimp only
  rw [hno]
  rfl

/-- A publication under a key that has neither row nor directory. -/
theorem run_publishStaged (setup : Setup) (job : JobRow) {key : PyStr}
    (hrow : s.registry.getArtifact key = none) (hdir : s.disk.artifacts.lookup key = none) :
    ∃ t r, (publishStaged setup job key).run (Stmt.exec setup) s = (t, r) ∧
      match leftBytes s job.uuid key with
      | some data => r = .ok () ∧ Published setup s t key data
      | none => Unpublished s t key := by
  have hun : Unpublished s ((Stmt.makeStaged job.uuid).exec setup s) key :=
    ⟨rfl, hdir, fun _ _ => rfl⟩
  unfold publishStaged leftBytes
  rw [Program.run_bind, run_exec]
  dsimp only
  rw [Program.run_bind, run_read]
  dsimp only
  rw [Program.run_bind, run_read]
  dsimp only [Stmt.exec]
  cases s.backends.lookup job.uuid with
  | none => exact ⟨_, _, rfl, hun⟩
  | some backend =>
      dsimp only [Option.bind_some]
      cases artifactBytes key backend with
      | error e => exact ⟨_, _, rfl, hun⟩
      | ok data =>
          let source := (JobManager.orText job.sourceSha256
            ((s.registry.getRef job.ref).bind RefRow.sourceSha256)).getD []
          let s₁ := (Stmt.makeStaged job.uuid).exec setup s
          let s₂ := (Stmt.commitStaged job.uuid key).exec setup
            (filled setup s₁ job.uuid backend.backendId key source data)
          let row : ArtifactRow := ⟨key, source, setup.sha256 data, recipeId⟩
          refine ⟨(Stmt.addArtifact row).exec setup s₂, .ok (), ?_, rfl, ?_, fun key' hkey => ?_⟩
          · have hrun := run_publishArtifact (s := s₁) setup key job.uuid backend.backendId
              source data hdir
            exact (Program.run_bind_of_ok _ hrun fun _ => exec (.addArtifact row)).trans rfl
          · refine ⟨row, publishedDir setup backend.backendId key source data, ?_, ?_,
              publishedDir_holds backend.backendId key source data, rfl⟩
            · exact Registry.getArtifact_addArtifact_self hrow
            · exact commitStaged_lookup setup
                (staged_publishedDir setup backend.backendId key source data
                  (AList.lookup_insert _))
          · refine ⟨Registry.getArtifact_addArtifact_ne hkey.symm, ?_⟩
            refine (commitStaged_lookup_ne setup hkey).trans ?_
            rw [filled_artifacts]
            rfl

/-- A publication under a key with a row does nothing. -/
theorem run_publishResult_some {job : JobRow}
    (hrow : (s.registry.getArtifact (job.compileKey.getD [])).isSome = true) :
    (publishResult setup job).run (Stmt.exec setup) s = (s, .ok ()) := by
  unfold publishResult
  dsimp only
  rw [Program.run_bind, run_read]
  dsimp only
  rw [if_pos hrow]
  rfl

/-- **A key without a row can be published**, whatever lies under it, if the backend of the
job left an artifact; otherwise the publication raises and nothing lies there. -/
theorem run_publishResult (setup : Setup) {job : JobRow} {key : PyStr}
    (hkey : job.compileKey.getD [] = key) (hrow : s.registry.getArtifact key = none) :
    ∃ t r, (publishResult setup job).run (Stmt.exec setup) s = (t, r) ∧
      match leftBytes s job.uuid key with
      | some data => r = .ok () ∧ Published setup s t key data
      | none => Unpublished s t key := by
  subst hkey
  let key := job.compileKey.getD []
  let s₁ := if s.disk.hasArtifact key then (Stmt.moveArtifact key false).exec setup s else s
  have hrows : s₁.registry = s.registry := by
    simp only [s₁]
    split <;> rfl
  have hbackends : s₁.backends = s.backends := by
    simp only [s₁]
    split <;> rfl
  have hdir : s₁.disk.artifacts.lookup key = none := by
    simp only [s₁]
    split
    · simp [Stmt.exec, Disk.moveArtifact]
    · rename_i hno
      simpa [Disk.hasArtifact] using hno
  have hothers : ∀ key', key' ≠ key →
      s₁.disk.artifacts.lookup key' = s.disk.artifacts.lookup key' := by
    intro key' hne
    simp only [s₁]
    split
    · exact AList.lookup_erase_ne hne
    · rfl
  have hprogram : (publishResult setup job).run (Stmt.exec setup) s =
      (publishStaged setup job key).run (Stmt.exec setup) s₁ := by
    unfold publishResult
    dsimp only
    rw [Program.run_bind, run_read]
    dsimp only
    rw [hrow]
    simp only [s₁, key]
    change ((whenever (s.disk.hasArtifact (job.compileKey.getD []))
      (exec (.moveArtifact (job.compileKey.getD []) false))) >>= fun _ =>
        publishStaged setup job (job.compileKey.getD [])).run (Stmt.exec setup) s = _
    cases s.disk.hasArtifact (job.compileKey.getD []) <;> rfl
  obtain ⟨t, r, hrun, hcase⟩ := run_publishStaged (s := s₁) setup job
    (by rw [hrows]; exact hrow) hdir
  refine ⟨t, r, hprogram.trans hrun, ?_⟩
  have hleft : leftBytes s₁ job.uuid key = leftBytes s job.uuid key := by
    simp only [leftBytes, hbackends]
  rw [hleft] at hcase
  cases hbytes : leftBytes s job.uuid key with
  | none =>
      rw [hbytes] at hcase
      exact ⟨by rw [hcase.rows, hrows], hcase.gone, fun key' hne =>
        (hcase.others key' hne).trans (hothers key' hne)⟩
  | some data =>
      rw [hbytes] at hcase
      obtain ⟨hok, hpublished⟩ := hcase
      refine ⟨hok, hpublished.artifact, fun key' hne => ?_⟩
      obtain ⟨hr, hd⟩ := hpublished.others key' hne
      exact ⟨by rw [hr, hrows], hd.trans (hothers key' hne)⟩

/-- A publication keeps the cache consistent. -/
theorem Consistent.publish (h : Consistent setup s) (job : JobRow) :
    Consistent setup ((publishResult setup job).run (Stmt.exec setup) s).1 := by
  obtain ⟨-, hextends⟩ := (publishResult_solo job).run h.legible
  refine ⟨hextends.backed h.backed, fun key dir hdir => ?_⟩
  by_cases hrow : (s.registry.getArtifact (job.compileKey.getD [])).isSome = true
  · rw [run_publishResult_some hrow] at hdir ⊢
    exact h.recorded key dir hdir
  · obtain ⟨t, r, hrun, hcase⟩ := run_publishResult setup rfl
      (Option.not_isSome_iff_eq_none.mp hrow)
    rw [hrun] at hdir ⊢
    by_cases hkey : key = job.compileKey.getD []
    · subst hkey
      split at hcase
      · obtain ⟨row, d, hnew, -⟩ := hcase.2.artifact
        simp [hnew]
      · have hgone := hcase.gone
        dsimp only at hdir
        rw [hgone] at hdir
        contradiction
    · split at hcase
      · obtain ⟨hr, hd⟩ := hcase.2.others key hkey
        rw [hr]
        exact h.recorded key dir (hd.symm.trans hdir)
      · have hrows := hcase.rows
        simp only [Registry.getArtifact, hrows]
        exact h.recorded key dir ((hcase.others key hkey).symm.trans hdir)

/-! ## Repairs -/

/-- A program of row repairs is careful everywhere. -/
theorem solo_of_repairsRows {β : Type} {p : Prog β} (h : RepairsRows p) (s : Manager) :
    Solo setup p (fun _ _ => True) s := by
  induction p generalizing s with
  | ret b => exact solo_ret trivial
  | raise e => trivial
  | act a k ih =>
      rintro _ rfl _
      refine ⟨?_, ih s (h.2 s) _⟩
      have ha := h.1
      cases a <;> trivial

/-- A repair can read every manifest that a publication wrote. -/
theorem adopted?_written {key : PyStr} {dir : Dir} (h : Written dir) :
    ∃ r, adopted? setup.sha256 key dir = .ok r := by
  obtain ⟨backend, key', src, sha, hmanifest⟩ := h
  simp only [adopted?, hmanifest, publishedManifest]
  split
  · exact ⟨none, rfl⟩
  · split
    · exact ⟨none, rfl⟩
    · split
      · exact ⟨none, rfl⟩
      · split
        · exact ⟨none, rfl⟩
        · exact ⟨_, rfl⟩

/-- The row that a repair adopts for a directory says what the directory holds. -/
theorem adopted?_holds {key : PyStr} {dir : Dir} {row : ArtifactRow}
    (h : adopted? setup.sha256 key dir = .ok (some row)) :
    row.compileKey = key ∧ Holds setup key row dir := by
  obtain ⟨hkey, fields, data, source, hmanifest, hmodel, hsha, hnamed, -⟩ :=
    adopted?_eq_some h
  refine ⟨hkey, ⟨fields, hmanifest, ?_⟩, data, hmodel, hsha.symm⟩
  cases hfield : lookupField (py "compile_key") fields with
  | none =>
      rw [hfield] at hnamed
      contradiction
  | some value =>
      rw [hfield] at hnamed
      cases value with
      | str text => simpa [Json.eqStr] using hnamed
      | _ => contradiction

theorem solo_recoverArtifact (key : PyStr) :
    Solo setup (recoverArtifact setup key) (fun _ _ => True) s := by
  refine Program.Safe.bind (solo_read (Q := fun t known => s = t ∧
    known = (s.registry.getArtifact key).isSome) ⟨rfl, rfl⟩) fun known t _ ht => ?_
  obtain ⟨rfl, rfl⟩ := ht
  split
  · exact solo_ret trivial
  · rename_i hrow
    have hnone : s.registry.getArtifact key = none := by simpa using hrow
    refine Program.Safe.bind (solo_read (Q := fun t r => s = t ∧
      r = adopted? setup.sha256 key ((s.disk.artifacts.lookup key).getD {})) ⟨rfl, rfl⟩)
      fun r t _ ht => ?_
    obtain ⟨rfl, hr⟩ := ht
    rcases r with e | _ | row
    · trivial
    · have hcareful : Careful setup s (.moveArtifact key false) := hnone
      exact (solo_exec hcareful).weaken fun _ _ _ _ => trivial
    · obtain ⟨hkey, hholds⟩ := adopted?_holds hr.symm
      have hcareful : Careful setup s (.addArtifact row) := by
        subst hkey
        cases hdir : s.disk.artifacts.lookup row.compileKey with
        | none =>
            rw [hdir] at hr
            simp [adopted?] at hr
        | some dir =>
            rw [hdir] at hholds
            exact ⟨dir, hdir, hholds⟩
      exact (solo_exec hcareful).weaken fun _ _ _ _ => trivial

/-- **A repair may stop anywhere.** -/
theorem recover_solo (setup : Setup) (s : Manager) :
    Solo setup (recover setup) (fun _ _ => True) s := by
  refine Program.Safe.bind (solo_read (Q := fun _ _ => True) trivial) fun work t _ _ => ?_
  refine Program.Safe.bind (Program.Safe.forEach fun uuid _ t' _ =>
    solo_of_repairsRows (repairsRows_recoverWork uuid) t') fun _ t₂ _ _ => ?_
  refine Program.Safe.bind (solo_read (Q := fun _ _ => True) trivial) fun staged t₃ _ _ => ?_
  refine Program.Safe.bind (Program.Safe.forEach fun uuid _ t' _ =>
    (solo_exec (a := .dropStaged uuid) trivial).weaken fun _ _ _ _ => trivial)
    fun _ t₄ _ _ => ?_
  refine Program.Safe.bind (solo_read (Q := fun _ _ => True) trivial) fun keys t₅ _ _ => ?_
  exact Program.Safe.forEach fun key _ _ _ => solo_recoverArtifact key

/-- The repair of one artifact directory ends, and the directory has a row or is gone. -/
theorem run_recoverArtifact (hs : Legible s) (key : PyStr) :
    ∃ t, (recoverArtifact setup key).run (Stmt.exec setup) s = (t, .ok ()) ∧ Legible t ∧
      Recorded key t ∧ ∀ key', Recorded key' s → Recorded key' t := by
  suffices hrun : ∃ t, (recoverArtifact setup key).run (Stmt.exec setup) s = (t, .ok ()) ∧
      Recorded key t ∧ ∀ key', Recorded key' s → Recorded key' t by
    obtain ⟨t, hrun, hrecorded, hkeep⟩ := hrun
    have hlegible : Legible ((recoverArtifact setup key).run (Stmt.exec setup) s).1 :=
      ((solo_recoverArtifact key).run hs).1
    rw [hrun] at hlegible
    exact ⟨t, hrun, hlegible, hrecorded, hkeep⟩
  unfold recoverArtifact
  rw [Program.run_bind, run_read]
  dsimp only
  by_cases hrow : (s.registry.getArtifact key).isSome = true
  · rw [if_pos hrow]
    exact ⟨s, rfl, fun _ _ => hrow, fun _ h => h⟩
  · rw [if_neg hrow, Program.run_bind, run_read]
    dsimp only
    have hreadable : ∃ r, adopted? setup.sha256 key
        ((s.disk.artifacts.lookup key).getD {}) = .ok r := by
      cases hdir : s.disk.artifacts.lookup key with
      | none => exact ⟨none, rfl⟩
      | some dir =>
          exact adopted?_written (hs key dir hdir (Option.not_isSome_iff_eq_none.mp hrow))
    obtain ⟨r, hr⟩ := hreadable
    rw [hr]
    cases r with
    | none =>
        refine ⟨_, rfl, fun dir hdir => ?_, fun key' h dir hdir => ?_⟩
        · simp [Stmt.exec, Disk.moveArtifact] at hdir
        · by_cases hkey : key' = key
          · subst hkey
            simp [Stmt.exec, Disk.moveArtifact] at hdir
          · exact h dir ((AList.lookup_erase_ne hkey).symm.trans hdir)
    | some row =>
        obtain ⟨hkey, -⟩ := adopted?_holds hr
        subst hkey
        refine ⟨_, rfl, fun dir hdir => ?_, fun key' h dir hdir => ?_⟩
        · simp [Stmt.exec, Registry.getArtifact_addArtifact_self
            (Option.not_isSome_iff_eq_none.mp hrow)]
        · have hsome := h dir hdir
          simpa only [Stmt.exec, Registry.getArtifact_addArtifact_of_some hsome] using hsome

/-- The repair of one work directory ends. -/
theorem run_recoverWork (setup : Setup) (uuid : PyStr) (s : Manager) :
    ∃ t, (recoverWork uuid).run (Stmt.exec setup) s = (t, .ok ()) ∧
      (Legible s → Legible t) := by
  have hlegible : Legible s →
      Legible ((recoverWork uuid).run (Stmt.exec setup) s).1 := fun hs =>
    ((solo_of_repairsRows (repairsRows_recoverWork uuid) s).run hs).1
  suffices hrun : ∃ t, (recoverWork uuid).run (Stmt.exec setup) s = (t, .ok ()) by
    obtain ⟨t, hrun⟩ := hrun
    rw [hrun] at hlegible
    exact ⟨t, hrun, hlegible⟩
  unfold recoverWork
  rw [Program.run_bind, run_read]
  dsimp only
  cases s.registry.getJob uuid with
  | none => exact ⟨_, rfl⟩
  | some job =>
      dsimp only
      split
      · exact ⟨s, rfl⟩
      · rw [Program.run_bind, run_exec]
        dsimp only
        rw [Program.run_bind, run_read]
        dsimp only
        unfold whenever
        split <;> exact ⟨_, rfl⟩

/-- **A repair ends, and every directory has a row.** -/
theorem recover_recorded (setup : Setup) (hs : Legible s) :
    ∃ t, (recover setup).run (Stmt.exec setup) s = (t, .ok ()) ∧ ∀ key, Recorded key t := by
  obtain ⟨s₁, hwork, hs₁, -⟩ := Program.run_forEach (Stmt.exec setup) (I := Legible)
    (T := fun _ _ => True) (sortedNames s.disk.work) recoverWork
    (fun uuid _ u hu => by
      obtain ⟨t, hrun, ht⟩ := run_recoverWork setup uuid u
      exact ⟨t, hrun, ht hu, trivial, fun _ _ => trivial⟩) hs
  obtain ⟨s₂, hstaged, hs₂, -⟩ := Program.run_forEach (Stmt.exec setup) (I := Legible)
    (T := fun _ _ => True) (sortedNames s₁.disk.staged.keys)
    (fun uuid => exec (.dropStaged uuid))
    (fun uuid _ u hu => ⟨_, rfl, hu.of_same rfl rfl, trivial, fun _ _ => trivial⟩) hs₁
  obtain ⟨s₃, hkeys, -, hall, hkeep⟩ := Program.run_forEach (Stmt.exec setup)
    (I := Legible) (T := Recorded) (sortedNames s₂.disk.artifacts.keys)
    (recoverArtifact setup) (fun key _ u hu => run_recoverArtifact hu key) hs₂
  refine ⟨s₃, ?_, fun key => ?_⟩
  · unfold recover
    rw [Program.run_bind, run_read]
    dsimp only
    rw [Program.run_bind_of_ok _ hwork, Program.run_bind, run_read]
    dsimp only
    rw [Program.run_bind_of_ok _ hstaged, Program.run_bind, run_read]
    exact hkeys
  · by_cases hmem : key ∈ s₂.disk.artifacts.keys
    · exact hall key ((List.perm_insertionSort _ _).mem_iff.mpr hmem)
    · refine hkeep key fun dir hdir => ?_
      have hkey : key ∈ s₂.disk.artifacts := AList.lookup_isSome.mp (by rw [hdir]; rfl)
      exact absurd (AList.mem_keys.mp hkey) hmem

/-! ## Operations and crashes -/

/-- An operation on the artifact cache. -/
inductive Operation
  | publish (job : JobRow)
  | invalidate (key : PyStr)

namespace Operation

/-- What the operation runs. -/
def program (setup : Setup) : Operation → Prog Unit
  | publish job => publishResult setup job
  | invalidate key => invalidateArtifact key

/-- The compile key it is about. -/
def key : Operation → PyStr
  | publish job => job.compileKey.getD []
  | invalidate key => key

end Operation

/-- What happens next: an operation ends, or the process dies after some of its actions and
is started until a repair ends, or anything else happens that leaves artifacts alone. -/
inductive Label
  | completed (op : Operation)
  | crashed (op : Operation) (n : Nat) (starts : List Nat)
  | meanwhile (other : Manager)

/-- A publication, completed or not, with the states around it. -/
structure Event where
  job : JobRow
  completed : Bool
  before : Manager
  after : Manager

/-- A process that starts anew has no backend objects. -/
def reboot (s : Manager) : Manager :=
  { s with backends := ∅ }

/-- Starts that die while they repair, each after some of its actions. -/
def failedStarts (setup : Setup) (starts : List Nat) (s : Manager) : Manager :=
  starts.foldl (fun s m => reboot ((recover setup).after (Stmt.exec setup) m s)) s

/-- Start again until a repair ends. -/
def restart (setup : Setup) (starts : List Nat) (s : Manager) : Manager :=
  ((recover setup).run (Stmt.exec setup) (failedStarts setup starts (reboot s))).1

/-- What an operation shows. -/
def shown (op : Operation) (completed : Bool) (before after : Manager) : List Event :=
  match op with
  | .publish job => [⟨job, completed, before, after⟩]
  | .invalidate _ => []

/-- One step.  No operation is run without a key. -/
def step (setup : Setup) (s : Manager) : Label → Option (Manager × List Event)
  | .completed op =>
      if op.key = [] then none
      else
        let t := ((op.program setup).run (Stmt.exec setup) s).1
        some (t, shown op true s t)
  | .crashed op n starts =>
      if op.key = [] then none
      else
        let t := restart setup starts ((op.program setup).after (Stmt.exec setup) n s)
        some (t, shown op false s t)
  | .meanwhile other =>
      some ({ other with
        registry := { other.registry with artifacts := s.registry.artifacts }
        disk := { other.disk with artifacts := s.disk.artifacts } }, [])

/-- The cache as a machine. -/
def machine (setup : Setup) : Machine Manager Label Event where
  step := step setup

/-- A publication overwrites no committed artifact, and if it ended, and its backend left
an artifact for a key without a row, then that artifact is published. -/
def Good (setup : Setup) (e : Event) : Prop :=
  (∀ key, e.before.committed key = true →
      e.after.disk.artifacts.lookup key = e.before.disk.artifacts.lookup key) ∧
    (e.completed = true → ∀ data,
      e.before.registry.getArtifact (e.job.compileKey.getD []) = none →
      leftBytes e.before e.job.uuid (e.job.compileKey.getD []) = some data →
        Published setup e.before e.after (e.job.compileKey.getD []) data)

/-- No crash splits an invalidation of a committed artifact: its second action is the
rename, its third one the deletion of the row. -/
def Untorn (s : Manager) : Label → Prop
  | .crashed (.invalidate key) n _ => s.committed key = true → n ≠ 2
  | _ => True

/-! ## Restarts -/

theorem failedStarts_extends (setup : Setup) (hs : Legible s) (starts : List Nat) :
    Legible (failedStarts setup starts s) ∧
      Extends setup s (failedStarts setup starts s) := by
  induction starts generalizing s with
  | nil => exact ⟨hs, Extends.refl s⟩
  | cons m rest ih =>
      obtain ⟨hlegible, hextends⟩ := (recover_solo setup s).after hs m
      obtain ⟨hlegible', hextends'⟩ := ih (s := reboot
        ((recover setup).after (Stmt.exec setup) m s)) (hlegible.of_same rfl rfl)
      refine ⟨hlegible', hextends.trans (Extends.trans ?_ hextends')⟩
      exact Extends.of_same rfl rfl

/-- A restart only extends what a crash left, and every directory has a row then. -/
theorem restart_extends (setup : Setup) (hs : Legible s) (starts : List Nat) :
    Extends setup s (restart setup starts s) ∧
      ∀ key, Recorded key (restart setup starts s) := by
  have hreboot : Legible (reboot s) := hs.of_same rfl rfl
  obtain ⟨hlegible, hextends⟩ := failedStarts_extends setup hreboot starts
  have hrun := ((recover_solo setup _).run hlegible).2
  have hboot : Extends setup s (reboot s) := .of_same rfl rfl
  refine ⟨hboot.trans (hextends.trans hrun), ?_⟩
  obtain ⟨t, ht, hrecorded⟩ := recover_recorded setup hlegible
  unfold restart
  rw [ht]
  exact hrecorded

/-- A restart makes the cache consistent, if every row has its directory. -/
theorem restart_consistent (hs : Legible s) (hbacked : Backed setup s) (starts : List Nat) :
    Consistent setup (restart setup starts s) := by
  obtain ⟨hextends, hrecorded⟩ := restart_extends setup hs starts
  exact ⟨hextends.backed hbacked, hrecorded⟩

/-! ## Invalidations -/

/-- The state after an invalidation. -/
structure Invalidated (s t : Manager) (key : PyStr) : Prop where
  row : t.registry.getArtifact key = none
  dir : t.disk.artifacts.lookup key = none
  others : ∀ key', key' ≠ key →
    t.registry.getArtifact key' = s.registry.getArtifact key' ∧
      t.disk.artifacts.lookup key' = s.disk.artifacts.lookup key'

/-- An invalidation keeps the cache consistent. -/
theorem Consistent.invalidate (h : Consistent setup s) {key : PyStr}
    (ht : Invalidated s t key) : Consistent setup t := by
  refine ⟨fun key' row hrow => ?_, fun key' dir hdir => ?_⟩
  · by_cases hkey : key' = key
    · subst hkey
      rw [ht.row] at hrow
      contradiction
    · obtain ⟨hr, hd⟩ := ht.others key' hkey
      rw [hd]
      exact h.backed key' row (hr.symm.trans hrow)
  · by_cases hkey : key' = key
    · subst hkey
      rw [ht.dir] at hdir
      contradiction
    · obtain ⟨hr, hd⟩ := ht.others key' hkey
      rw [hr]
      exact h.recorded key' dir (hd.symm.trans hdir)

/-- The two changes of an invalidation: the rename, if there is a directory, and the
deletion of the row. -/
theorem invalidateArtifact_after (key : PyStr) (s : Manager) (n : Nat) :
    let moved := (Stmt.moveArtifact key true).exec setup s
    (invalidateArtifact key).after (Stmt.exec setup) (n + 2) s =
      if s.disk.hasArtifact key then
        if n = 0 then moved else (Stmt.deleteArtifact key).exec setup moved
      else (Stmt.deleteArtifact key).exec setup s := by
  change ((whenever (s.disk.hasArtifact key) (exec (.moveArtifact key true))) >>= fun _ =>
    exec (.deleteArtifact key)).after (Stmt.exec setup) (n + 1) s = _
  cases s.disk.hasArtifact key with
  | true =>
      rcases n with _ | _ | n <;> rfl
  | false =>
      rcases n with _ | n <;> rfl

/-- Deleting the row of a key whose directory is gone completes its invalidation. -/
theorem invalidated_of_deleted {u : Manager} {key : PyStr}
    (hrows : u.registry.artifacts = s.registry.artifacts)
    (hdir : u.disk.artifacts.lookup key = none)
    (hothers : ∀ key', key' ≠ key →
      u.disk.artifacts.lookup key' = s.disk.artifacts.lookup key') :
    Invalidated s ((Stmt.deleteArtifact key).exec setup u) key := by
  refine ⟨Registry.getArtifact_deleteArtifact_self _ _, hdir, fun key' hne =>
    ⟨(Registry.getArtifact_deleteArtifact_ne hne).trans ?_, hothers key' hne⟩⟩
  simp only [Registry.getArtifact, hrows]

/-- Where an invalidation may stop: before its first change, after its last one, or, if
there is a directory, between the two. -/
theorem invalidateArtifact_stops (setup : Setup) (key : PyStr) (s : Manager) (n : Nat) :
    let t := (invalidateArtifact key).after (Stmt.exec setup) n s
    (n < 2 ∧ t = s) ∨ (s.disk.hasArtifact key = true ∧ n = 2 ∧
        t = (Stmt.moveArtifact key true).exec setup s) ∨
      (n ≠ 2 ∨ s.disk.hasArtifact key = false) ∧ Invalidated s t key := by
  have hmoved : Invalidated s ((Stmt.deleteArtifact key).exec setup
      ((Stmt.moveArtifact key true).exec setup s)) key := by
    refine invalidated_of_deleted rfl ?_ fun key' hne => AList.lookup_erase_ne hne
    simp [Stmt.exec, Disk.moveArtifact]
  rcases n with _ | _ | n
  · exact Or.inl ⟨by omega, rfl⟩
  · exact Or.inl ⟨by omega, rfl⟩
  · rw [invalidateArtifact_after]
    by_cases hdir : s.disk.hasArtifact key = true
    · rw [if_pos hdir]
      split
      · rename_i hn
        exact Or.inr (Or.inl ⟨hdir, by omega, rfl⟩)
      · exact Or.inr (Or.inr ⟨Or.inl (by omega), hmoved⟩)
    · rw [if_neg hdir]
      refine Or.inr (Or.inr ⟨Or.inr (by simpa using hdir), ?_⟩)
      refine invalidated_of_deleted rfl ?_ fun _ _ => rfl
      simpa [Disk.hasArtifact] using hdir

/-- A completed invalidation. -/
theorem run_invalidateArtifact (key : PyStr) (s : Manager) :
    Invalidated s ((invalidateArtifact key).run (Stmt.exec setup) s).1 key := by
  have hrun : ((invalidateArtifact key).run (Stmt.exec setup) s).1 =
      (invalidateArtifact key).after (Stmt.exec setup) (1 + 2) s := by
    rw [invalidateArtifact_after]
    change (((whenever (s.disk.hasArtifact key) (exec (.moveArtifact key true))) >>= fun _ =>
      exec (.deleteArtifact key)).run (Stmt.exec setup) s).1 = _
    cases s.disk.hasArtifact key <;> rfl
  rw [hrun]
  rcases invalidateArtifact_stops setup key s 3 with ⟨hn, -⟩ | ⟨-, hn, -⟩ | ⟨-, h⟩
  · omega
  · omega
  · exact h

/-! ## One step -/

/-- What only extends the cache overwrites nothing. -/
theorem Extends.good (h : Extends setup s t) {job : JobRow} {completed : Bool}
    (hpublished : completed = true → ∀ data,
      s.registry.getArtifact (job.compileKey.getD []) = none →
      leftBytes s job.uuid (job.compileKey.getD []) = some data →
        Published setup s t (job.compileKey.getD []) data) :
    Good setup ⟨job, completed, s, t⟩ := by
  refine ⟨fun key hcommitted => ?_, hpublished⟩
  simp only [Manager.committed, Bool.and_eq_true] at hcommitted
  exact (h.kept key hcommitted.1).2

/-- A completed publication. -/
theorem publish_good (h : Consistent setup s) (job : JobRow) :
    Good setup ⟨job, true, s, ((publishResult setup job).run (Stmt.exec setup) s).1⟩ := by
  refine Extends.good ((publishResult_solo job).run h.legible).2 fun _ data hrow hleft => ?_
  obtain ⟨t, r, hrun, hcase⟩ := run_publishResult setup (rfl : job.compileKey.getD [] = _) hrow
  rw [hleft] at hcase
  rw [hrun]
  exact hcase.2

/-- **A publication that crashes anywhere** leaves what the next start makes consistent. -/
theorem crashed_publish (h : Consistent setup s) (job : JobRow) (n : Nat)
    (starts : List Nat) :
    Consistent setup
        (restart setup starts ((publishResult setup job).after (Stmt.exec setup) n s)) ∧
      Good setup ⟨job, false, s,
        restart setup starts ((publishResult setup job).after (Stmt.exec setup) n s)⟩ := by
  obtain ⟨hlegible, hextends⟩ := (publishResult_solo job).after h.legible n
  refine ⟨restart_consistent hlegible (hextends.backed h.backed) starts, ?_⟩
  exact Extends.good (hextends.trans (restart_extends setup hlegible starts).1)
    fun hfalse => by contradiction

/-- A directory that was renamed away leaves its row behind for good. -/
theorem crashed_rename (h : Consistent setup s) {key : PyStr}
    (hrow : (s.registry.getArtifact key).isSome = true) (starts : List Nat) :
    ¬ Consistent setup
      (restart setup starts ((Stmt.moveArtifact key true).exec setup s)) := by
  intro hconsistent
  have hlegible : Legible ((Stmt.moveArtifact key true).exec setup s) := by
    intro key' dir hdir hnone
    by_cases hkey : key' = key
    · subst hkey
      simp [Stmt.exec, Disk.moveArtifact] at hdir
    · exact h.legible key' dir ((AList.lookup_erase_ne hkey).symm.trans hdir) hnone
  obtain ⟨hsame, hgone⟩ := (restart_extends setup hlegible starts).1.kept key hrow
  obtain ⟨row, hnew⟩ := Option.isSome_iff_exists.mp (hsame ▸ hrow)
  obtain ⟨dir, hdir, -⟩ := hconsistent.backed key row hnew
  rw [hgone] at hdir
  simp [Stmt.exec, Disk.moveArtifact] at hdir

/-- An invalidation that crashes leaves what the next start makes consistent, exactly when
the crash does not split it. -/
theorem crashed_invalidate_iff (h : Consistent setup s) (key : PyStr) (n : Nat)
    (starts : List Nat) :
    Consistent setup
        (restart setup starts ((invalidateArtifact key).after (Stmt.exec setup) n s)) ↔
      (s.committed key = true → n ≠ 2) := by
  have hlater : ∀ t, Consistent setup t → Consistent setup (restart setup starts t) :=
    fun t ht => restart_consistent ht.legible ht.backed starts
  rcases invalidateArtifact_stops setup key s n with ⟨hn, ht⟩ | ⟨hdir, rfl, ht⟩ | ⟨hn, ht⟩
  · rw [ht]
    exact iff_of_true (hlater s h) fun _ => by omega
  · have hrow : (s.registry.getArtifact key).isSome = true := by
      obtain ⟨dir, hd⟩ := Option.isSome_iff_exists.mp hdir
      exact h.recorded key dir hd
    rw [ht]
    refine iff_of_false (crashed_rename h hrow starts) fun hne => hne ?_ rfl
    simp [Manager.committed, hrow, hdir]
  · refine iff_of_true (hlater _ (h.invalidate ht)) fun hcommitted => ?_
    rcases hn with hn | hdir
    · exact hn
    · simp [Manager.committed, hdir] at hcommitted

/-- **One step.** -/
theorem step_consistent_iff (h : Consistent setup s) {l : Label} {es : List Event}
    (hstep : step setup s l = some (t, es)) :
    (Consistent setup t ∧ ∀ e ∈ es, Good setup e) ↔ Untorn s l := by
  cases l with
  | completed op =>
      simp only [step] at hstep
      split at hstep
      · contradiction
      · cases hstep
        refine iff_of_true ?_ trivial
        cases op with
        | publish job =>
            exact ⟨h.publish job, by simpa [shown, Operation.program] using publish_good h job⟩
        | invalidate key =>
            exact ⟨h.invalidate (run_invalidateArtifact key s), by simp [shown]⟩
  | crashed op n starts =>
      simp only [step] at hstep
      split at hstep
      · contradiction
      · cases hstep
        cases op with
        | publish job =>
            obtain ⟨hconsistent, hgood⟩ := crashed_publish h job n starts
            exact iff_of_true ⟨hconsistent, by simpa [shown, Operation.program] using hgood⟩ trivial
        | invalidate key =>
            simpa [shown, Untorn, Operation.program] using
              crashed_invalidate_iff h key n starts
  | meanwhile other =>
      cases hstep
      refine iff_of_true ⟨⟨h.backed, h.recorded⟩, by simp⟩ trivial

/-! ## Runs -/

/-- An empty cache is consistent. -/
theorem consistent_initial : Consistent setup {} where
  backed key row h := by simp [Registry.getArtifact] at h
  recorded key dir h := by simp at h

/-- **Crash consistency.**  From an empty data dir, after every operation and after every
repair that follows a crash, rows and directories match, no publication has overwritten a
committed artifact, and every completed one has published a key without a row, exactly
when no crash splits an invalidation of a committed artifact. -/
theorem crash_consistent_iff {labels : List Label} {t : Manager} {es : List Event}
    (hrun : (machine setup).exec labels {} = some (t, es)) :
    ((machine setup).Throughout (Consistent setup) labels {} ∧ ∀ e ∈ es, Good setup e) ↔
      (machine setup).Along Untorn labels {} :=
  Machine.throughout_events_iff_along (I := Consistent setup)
    (fun _ _ _ _ h hstep => step_consistent_iff h hstep)
    (fun _ _ _ _ h hG hstep => ((step_consistent_iff h hstep).mpr hG).1)
    consistent_initial consistent_initial hrun

/-- A job whose compile has ended. -/
def sampleJob : JobRow where
  uuid := py "job"
  ref := py "local://cam"
  compileKey := some sampleKey
  stage := .prepared
  attempt := 1
  createdAt := 0
  updatedAt := 0
  bootToken := none
  progress := none
  errorCode := none
  failure := none
  sourceSha256 := some sampleDigest

/-- The job has its backend object. -/
def compiled : Label :=
  .meanwhile
    { backends := (∅ : AList fun _ : PyStr => Backend).insert (py "job")
        (.fake { sourceSha256 := sampleDigest, compileKey := sampleKey }) }

/-- A publication dies after its rename, the next start dies while it repairs, and the one
after adopts the artifact; then the artifact is invalidated and published again. -/
def crashedPublication : List Label :=
  [compiled, .crashed (.publish sampleJob) 9 [2],
    .completed (.invalidate sampleKey), compiled, .completed (.publish sampleJob)]

/-- The run in which a publication crashes. -/
theorem crash_consistent_crashedPublication :
    ∃ t es, (machine sampleSetup).exec crashedPublication {} = some (t, es) ∧
      t.committed sampleKey = true ∧
      (((machine sampleSetup).Throughout (Consistent sampleSetup) crashedPublication {} ∧
          ∀ e ∈ es, Good sampleSetup e) ↔
        (machine sampleSetup).Along Untorn crashedPublication {}) := by
  have hends : (machine sampleSetup).endsIn crashedPublication {}
      (fun t => t.committed sampleKey) = true := by
    decide +kernel
  obtain ⟨t, es, hrun, hcommitted⟩ := (machine sampleSetup).exists_exec_of_endsIn hends
  exact ⟨t, es, hrun, hcommitted, crash_consistent_iff hrun⟩

/-- An artifact is published, and its invalidation dies between the rename and the deletion
of the row. -/
def splitInvalidation : List Label :=
  [compiled, .completed (.publish sampleJob), .crashed (.invalidate sampleKey) 2 []]

/-- Whether a key has a row and no directory. -/
def lacksDir (s : Manager) (key : PyStr) : Bool :=
  (s.registry.getArtifact key).isSome && !s.disk.hasArtifact key

theorem not_consistent_of_lacksDir {key : PyStr} (h : lacksDir s key = true) :
    ¬ Consistent setup s := by
  intro hconsistent
  simp only [lacksDir, Bool.and_eq_true, Bool.not_eq_true'] at h
  obtain ⟨row, hrow⟩ := Option.isSome_iff_exists.mp h.1
  obtain ⟨dir, hdir, -⟩ := hconsistent.backed key row hrow
  simp [Disk.hasArtifact, hdir] at h

/-- The next start does not repair a row without a directory. -/
theorem splitInvalidation_inconsistent :
    ∃ t es, (machine sampleSetup).exec splitInvalidation {} = some (t, es) ∧
      ¬ Consistent sampleSetup t := by
  have hends : (machine sampleSetup).endsIn splitInvalidation {}
      (fun t => lacksDir t sampleKey) = true := by
    decide +kernel
  obtain ⟨t, es, hrun, hlacks⟩ := (machine sampleSetup).exists_exec_of_endsIn hends
  exact ⟨t, es, hrun, not_consistent_of_lacksDir hlacks⟩

end Durability
end FrigateXdna
