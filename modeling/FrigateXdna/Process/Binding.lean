import FrigateXdna.Process

/-!
# The content binding of artifacts

A compile key is the digest of a source digest, the pinned recipe and the geometry of the
source.  A row, a backend object, a manifest and an artifact row each carry the key and
the source digest; this file says what they owe to each other, and which statements keep
it.  SHA-256 is assumed to be collision free.

Main results:

- Definition {lit}`Sound`: the invariant of the manager process.
- Theorem {lit}`allowed_sound`: an allowed statement keeps the invariant and takes
  nothing away that others rely on.
-/

namespace FrigateXdna

open Python Library

variable {setup : Setup} {s t u : Manager}

/-! ## Content -/

/-- The bytes stored for a source digest. -/
def Stored (s : Manager) (src : PyStr) (data : Bytes) : Prop :=
  ∃ fileName, s.disk.sources.lookup (src, fileName) = some data

/-- A key is the compile key of some bytes, their digest, and their input geometry. -/
structure KeyOf (setup : Setup) (key src : PyStr) (data : Bytes) : Prop where
  digest : setup.sha256 data = src
  geometry : ∃ contract dims, setup.inspect data = .ok contract ∧
    geometryOf contract = some dims ∧ compileKey setup.sha256 src dims = .ok key

/-- A key is bound to a source digest whose bytes are stored. -/
def Bound (setup : Setup) (s : Manager) (key src : PyStr) : Prop :=
  ∃ data, Stored s src data ∧ KeyOf setup key src data

/-- With compilers, an artifact was produced for a key from the stored bytes of its
source. -/
def Compiled (setup : Setup) (s : Manager) (key src artifactSha256 : PyStr) : Prop :=
  setup.real = true → ∃ p ∈ s.productions, p.compileKey = key ∧
    p.artifactSha256 = artifactSha256 ∧ Stored s src p.read

/-- What an artifact row says is true. -/
def Made (setup : Setup) (s : Manager) (key src artifactSha256 : PyStr) : Prop :=
  Bound setup s key src ∧ Compiled setup s key src artifactSha256

/-- What is never taken away: stored sources, the memory of created rows, and
productions. -/
structure Grows (s t : Manager) : Prop where
  sources : ∀ path data, s.disk.sources.lookup path = some data →
    t.disk.sources.lookup path = some data
  issued : ∀ i ∈ s.issued, i ∈ t.issued
  productions : ∀ p ∈ s.productions, p ∈ t.productions

theorem Grows.refl (s : Manager) : Grows s s :=
  ⟨fun _ _ h => h, fun _ h => h, fun _ h => h⟩

theorem Grows.trans (h : Grows s t) (h' : Grows t u) : Grows s u :=
  ⟨fun path data hp => h'.sources path data (h.sources path data hp),
    fun i hi => h'.issued i (h.issued i hi),
    fun p hp => h'.productions p (h.productions p hp)⟩

theorem Stored.mono {src : PyStr} {data : Bytes} (h : Stored s src data) (hg : Grows s t) :
    Stored t src data := by
  obtain ⟨fileName, hfile⟩ := h
  exact ⟨fileName, hg.sources _ _ hfile⟩

theorem Bound.mono {key src : PyStr} (h : Bound setup s key src) (hg : Grows s t) :
    Bound setup t key src := by
  obtain ⟨data, hstored, hkey⟩ := h
  exact ⟨data, hstored.mono hg, hkey⟩

theorem Compiled.mono {key src sha : PyStr} (h : Compiled setup s key src sha)
    (hg : Grows s t) : Compiled setup t key src sha := by
  intro hreal
  obtain ⟨p, hp, hkey, hsha, hread⟩ := h hreal
  exact ⟨p, hg.productions p hp, hkey, hsha, hread.mono hg⟩

theorem Made.mono {key src sha : PyStr} (h : Made setup s key src sha) (hg : Grows s t) :
    Made setup t key src sha :=
  ⟨h.1.mono hg, h.2.mono hg⟩

/-! ## The invariant -/

/-- What is remembered of a row. -/
def JobRow.memory (j : JobRow) : Issued :=
  ⟨j.uuid, j.compileKey, j.sourceSha256⟩

/-- A created row names a key and the source digest it is bound to. -/
def IssuedBound (setup : Setup) (s : Manager) (i : Issued) : Prop :=
  ∃ key src, i.compileKey = some key ∧ i.sourceSha256 = some src ∧ Bound setup s key src

theorem IssuedBound.mono {i : Issued} (h : IssuedBound setup s i) (hg : Grows s t) :
    IssuedBound setup t i := by
  obtain ⟨key, src, hkey, hsrc, hbound⟩ := h
  exact ⟨key, src, hkey, hsrc, hbound.mono hg⟩

/-- A backend object compiles what its row names.  Without a key it is a fake one, and
what a real one leaves was compiled from the stored source. -/
def BackendFor (setup : Setup) (s : Manager) (uuid : PyStr) (b : Backend) : Prop :=
  ⟨uuid, some b.compileKey, some b.sourceSha256⟩ ∈ s.issued ∧
    match b with
    | .fake j => setup.real = true → j.compileKey = []
    | .real j =>
        j.source.1 = j.sourceSha256 ∧ ∀ r data, j.result = some r → r.rai = some (some data) →
          Compiled setup s j.compileKey j.sourceSha256 (setup.sha256 data)

theorem BackendFor.mono {uuid : PyStr} {b : Backend} (h : BackendFor setup s uuid b)
    (hg : Grows s t) : BackendFor setup t uuid b := by
  refine ⟨hg.issued _ h.1, ?_⟩
  cases b with
  | fake j => exact h.2
  | real j => exact ⟨h.2.1, fun r data hr hd => (h.2.2 r data hr hd).mono hg⟩

/-- A manifest that a publication writes, whose content is true. -/
def ManifestFor (setup : Setup) (s : Manager) (m : Except PyExc Json) : Prop :=
  ∃ backend key src sha, m = .ok (publishedManifest backend key src sha) ∧
    Made setup s key src sha

theorem ManifestFor.mono {m : Except PyExc Json} (h : ManifestFor setup s m)
    (hg : Grows s t) : ManifestFor setup t m := by
  obtain ⟨backend, key, src, sha, hm, hmade⟩ := h
  exact ⟨backend, key, src, sha, hm, hmade.mono hg⟩

/-- A directory whose manifest, if it has one, is true. -/
def DirFor (setup : Setup) (s : Manager) (dir : Dir) : Prop :=
  ∀ m, dir.manifest = some m → ManifestFor setup s m

/-- The rows, the backend objects, the directories and the artifact rows fit together. -/
structure Sound (setup : Setup) (s : Manager) : Prop where
  stored : ∀ path data, s.disk.sources.lookup path = some data → setup.sha256 data = path.1
  minted : ∀ i ∈ s.issued, ∃ n < s.minted, i.uuid = setup.uuid4 n
  unique : ∀ i ∈ s.issued, ∀ i' ∈ s.issued, i.uuid = i'.uuid → i = i'
  bound : ∀ i ∈ s.issued, IssuedBound setup s i
  rows : ∀ j ∈ s.registry.jobs, j.memory ∈ s.issued
  backends : ∀ uuid b, s.backends.lookup uuid = some b → BackendFor setup s uuid b
  staged : ∀ uuid dir, s.disk.staged.lookup uuid = some dir → DirFor setup s dir
  dirs : ∀ key dir, s.disk.artifacts.lookup key = some dir → DirFor setup s dir
  artifacts : ∀ a ∈ s.registry.artifacts,
    Made setup s a.compileKey a.sourceSha256 a.artifactSha256

/-- The state of a process on an empty data dir. -/
theorem Sound.initial (bootToken : PyStr) : Sound setup { bootToken } where
  stored path data h := by simp at h
  minted := by simp
  unique := by simp
  bound := by simp
  rows := by simp
  backends uuid b h := by simp at h
  staged uuid dir h := by simp at h
  dirs key dir h := by simp at h
  artifacts := by simp

/-! ## What statements keep -/

/-- A statement that only changes rows. -/
theorem Sound.rows_changed (h : Sound setup s) (r : Registry)
    (hrows : ∀ j ∈ r.jobs, j.memory ∈ s.issued)
    (hartifacts : ∀ a ∈ r.artifacts, a ∈ s.registry.artifacts) (excused : List PyStr) :
    Sound setup { s with registry := r, excused } ∧
      Grows s { s with registry := r, excused } where
  left :=
    { h with
      rows := hrows
      artifacts := fun a ha => h.artifacts a (hartifacts a ha) }
  right := ⟨fun _ _ hp => hp, fun _ hi => hi, fun _ hp => hp⟩

/-- A statement that only changes directories. -/
theorem Sound.dirs_changed (h : Sound setup s) (d : Disk)
    (hsources : d.sources = s.disk.sources) (excused : List PyStr)
    (hstaged : ∀ uuid dir, d.staged.lookup uuid = some dir → DirFor setup s dir)
    (hdirs : ∀ key dir, d.artifacts.lookup key = some dir → DirFor setup s dir) :
    Sound setup { s with disk := d, excused } ∧ Grows s { s with disk := d, excused } := by
  have hg : Grows s { s with disk := d, excused } :=
    ⟨fun path data hp => by rwa [hsources], fun _ hi => hi, fun _ hp => hp⟩
  refine ⟨?_, hg⟩
  exact
    { stored := fun path data hp => h.stored path data (by rwa [← hsources])
      minted := h.minted
      unique := h.unique
      bound := fun i hi => (h.bound i hi).mono hg
      rows := h.rows
      backends := fun uuid b hb => (h.backends uuid b hb).mono hg
      staged := fun uuid dir hd m hm => (hstaged uuid dir hd m hm).mono hg
      dirs := fun key dir hd m hm => (hdirs key dir hd m hm).mono hg
      artifacts := fun a ha => (h.artifacts a ha).mono hg }

/-- A change of rows that keeps what is remembered of them. -/
theorem Sound.modifyJob (h : Sound setup s) (uuid : PyStr) {f : JobRow → JobRow}
    (hf : ∀ j, (f j).memory = j.memory) (excused : List PyStr) :
    Sound setup { s with registry := s.registry.modifyJob uuid f, excused } ∧
      Grows s { s with registry := s.registry.modifyJob uuid f, excused } := by
  refine h.rows_changed _ ?_ ?_ excused
  swap
  · exact fun _ ha => ha
  intro j hj
  obtain ⟨old, hold, rfl⟩ := Registry.mem_modifyJob.mp hj
  by_cases hu : old.uuid = uuid
  · rw [if_pos hu, hf]
    exact h.rows old hold
  · rw [if_neg hu]
    exact h.rows old hold

/-- A backend object that is put in place. -/
theorem Sound.putBackend (h : Sound setup s) {uuid : PyStr} {b : Backend}
    (hb : BackendFor setup s uuid b) :
    Sound setup { s with backends := s.backends.insert uuid b } ∧
      Grows s { s with backends := s.backends.insert uuid b } where
  left :=
    { h with
      backends := by
        intro uuid' b' hb'
        by_cases hu : uuid' = uuid
        · subst hu
          rw [AList.lookup_insert] at hb'
          obtain rfl := Option.some.inj hb'
          exact hb
        · rw [AList.lookup_insert_ne hu] at hb'
          exact h.backends uuid' b' hb' }
  right := ⟨fun _ _ hp => hp, fun _ hi => hi, fun _ hp => hp⟩

/-- A poll keeps what a backend compiles and what it left. -/
theorem BackendFor.poll {uuid : PyStr} {b : Backend} (h : BackendFor setup s uuid b)
    (dt : Int) : BackendFor setup s uuid (b.poll dt) := by
  cases b with
  | fake j =>
      obtain ⟨hsource, hkey⟩ := j.poll_kept dt
      refine ⟨?_, fun hreal => hkey.trans (h.2 hreal)⟩
      have hissued := h.1
      simp only [Backend.compileKey, Backend.sourceSha256, Backend.poll] at hissued ⊢
      rwa [hsource, hkey]
  | real j =>
      obtain ⟨hsource, hkey, hpath, hresult⟩ := j.poll_kept
      refine ⟨?_, ?_, ?_⟩
      · have hissued := h.1
        simp only [Backend.compileKey, Backend.sourceSha256, Backend.poll] at hissued ⊢
        rwa [hsource, hkey]
      · rw [hpath, hsource]
        exact h.2.1
      · intro r data hr hd
        rw [hkey, hsource]
        exact h.2.2 r data (hresult ▸ hr) hd

/-! ## Allowed statements -/

/-- What a statement must respect. -/
def Allowed (setup : Setup) (s : Manager) : Stmt → Prop
  | .createJob row =>
      ∃ key src, row.compileKey = some key ∧ row.sourceSha256 = some src ∧
        Bound setup s key src
  | .putBackend uuid b => BackendFor setup s uuid b
  | .writeSource path data => setup.sha256 data = path.1
  | .stageManifest _ m => ManifestFor setup s (.ok m)
  | .addArtifact row => Made setup s row.compileKey row.sourceSha256 row.artifactSha256
  | _ => True

/-- A new row. -/
theorem Sound.createJob (h : Sound setup s) {row : NewJob}
    (hrow : Allowed setup s (.createJob row)) :
    Sound setup ((Stmt.createJob row).exec setup s) ∧
      Grows s ((Stmt.createJob row).exec setup s) := by
  let new : Issued := ⟨setup.uuid4 s.minted, row.compileKey, row.sourceSha256⟩
  have hg : Grows s ((Stmt.createJob row).exec setup s) :=
    ⟨fun _ _ hp => hp, fun _ hi => List.mem_append_left _ hi, fun _ hp => hp⟩
  have hnew : ∀ i ∈ s.issued, i.uuid ≠ new.uuid := by
    intro i hi heq
    obtain ⟨n, hn, hu⟩ := h.minted i hi
    rw [hu] at heq
    exact absurd (setup.uuid4_injective heq) (by omega)
  refine ⟨?_, hg⟩
  exact
    { stored := h.stored
      minted := by
        intro i hi
        rcases List.mem_append.mp hi with hold | hmem
        · obtain ⟨n, hn, hu⟩ := h.minted i hold
          exact ⟨n, by simp only [Stmt.exec]; omega, hu⟩
        · obtain rfl := List.mem_singleton.mp hmem
          exact ⟨s.minted, by simp [Stmt.exec], rfl⟩
      unique := by
        intro i hi i' hi' hu
        rcases List.mem_append.mp hi with hold | hmem
        · rcases List.mem_append.mp hi' with hold' | hmem'
          · exact h.unique i hold i' hold' hu
          · obtain rfl := List.mem_singleton.mp hmem'
            exact absurd hu (hnew i hold)
        · obtain rfl := List.mem_singleton.mp hmem
          rcases List.mem_append.mp hi' with hold' | hmem'
          · exact absurd hu.symm (hnew i' hold')
          · exact (List.mem_singleton.mp hmem').symm
      bound := by
        intro i hi
        rcases List.mem_append.mp hi with hold | hmem
        · exact (h.bound i hold).mono hg
        · obtain rfl := List.mem_singleton.mp hmem
          obtain ⟨key, src, hkey, hsrc, hbound⟩ := hrow
          exact ⟨key, src, hkey, hsrc, hbound.mono hg⟩
      rows := by
        intro j hj
        rcases List.mem_append.mp hj with hold | hmem
        · exact List.mem_append_left _ (h.rows j hold)
        · obtain rfl := List.mem_singleton.mp hmem
          exact List.mem_append_right _ List.mem_cons_self
      backends := fun uuid b hb => (h.backends uuid b hb).mono hg
      staged := fun uuid dir hd m hm => (h.staged uuid dir hd m hm).mono hg
      dirs := fun key dir hd m hm => (h.dirs key dir hd m hm).mono hg
      artifacts := fun a ha => (h.artifacts a ha).mono hg }

/-- Source bytes that are stored under their digest. -/
theorem Sound.writeSource (hsha : Function.Injective setup.sha256) (h : Sound setup s)
    {path : SourcePath} {data : Bytes} (hdata : setup.sha256 data = path.1) :
    Sound setup { s with disk := s.disk.writeSource path data } ∧
      Grows s { s with disk := s.disk.writeSource path data } := by
  have hg : Grows s { s with disk := s.disk.writeSource path data } := by
    refine ⟨fun path' data' hp => ?_, fun _ hi => hi, fun _ hp => hp⟩
    by_cases hpath : path' = path
    · subst hpath
      have hsame : data' = data := hsha ((h.stored _ _ hp).trans hdata.symm)
      rw [hsame]
      exact AList.lookup_insert _
    · exact (AList.lookup_insert_ne hpath).trans hp
  refine ⟨?_, hg⟩
  exact
    { stored := by
        intro path' data' hp
        by_cases hpath : path' = path
        · subst hpath
          have hp' : (s.disk.sources.insert path' data).lookup path' = some data' := hp
          rw [AList.lookup_insert] at hp'
          obtain rfl := Option.some.inj hp'
          exact hdata
        · exact h.stored path' data' ((AList.lookup_insert_ne hpath).symm.trans hp)
      minted := h.minted
      unique := h.unique
      bound := fun i hi => (h.bound i hi).mono hg
      rows := h.rows
      backends := fun uuid b hb => (h.backends uuid b hb).mono hg
      staged := fun uuid dir hd m hm => (h.staged uuid dir hd m hm).mono hg
      dirs := fun key dir hd m hm => (h.dirs key dir hd m hm).mono hg
      artifacts := fun a ha => (h.artifacts a ha).mono hg }

/-- **An allowed statement keeps the invariant** and takes nothing away. -/
theorem allowed_sound (hsha : Function.Injective setup.sha256) (h : Sound setup s)
    {a : Stmt} (ha : Allowed setup s a) :
    Sound setup (a.exec setup s) ∧ Grows s (a.exec setup s) := by
  cases a with
  | query => exact ⟨h, Grows.refl s⟩
  | createJob row => exact h.createJob ha
  | setJob uuid stage errorCode =>
      refine h.modifyJob uuid ?_ _
      exact fun _ => rfl
  | setFailure uuid record =>
      refine h.modifyJob uuid ?_ s.excused
      exact fun _ => rfl
  | deleteJob uuid =>
      refine h.rows_changed _ ?_ ?_ s.excused
      · exact fun j hj => h.rows j (List.mem_filter.mp hj).1
      · exact fun _ ha => ha
  | addAlias uuid ref =>
      refine h.rows_changed _ ?_ ?_ s.excused
      · intro j hj
        simp only [Registry.addAlias] at hj
        split at hj <;> exact h.rows j hj
      · intro a ha
        simp only [Registry.addAlias] at ha
        split at ha <;> exact ha
  | upsertRef ref kind =>
      refine h.rows_changed _ ?_ ?_ s.excused
      · intro j hj
        simp only [Registry.upsertRef] at hj
        split at hj <;> exact h.rows j hj
      · intro a ha
        simp only [Registry.upsertRef] at ha
        split at ha <;> exact ha
  | setRefState ref state =>
      refine h.rows_changed _ ?_ ?_ s.excused
      · exact h.rows
      · exact fun _ ha => ha
  | setRefSource ref src state =>
      refine h.rows_changed _ ?_ ?_ s.excused
      · exact h.rows
      · exact fun _ ha => ha
  | setRefInspection ref summary =>
      refine h.rows_changed _ ?_ ?_ s.excused
      · exact h.rows
      · exact fun _ ha => ha
  | addSource row =>
      refine h.rows_changed _ ?_ ?_ s.excused
      · intro j hj
        simp only [Registry.addSource] at hj
        split at hj <;> exact h.rows j hj
      · intro a ha
        simp only [Registry.addSource] at ha
        split at ha <;> exact ha
  | addPin pin =>
      refine h.rows_changed _ ?_ ?_ s.excused
      · exact h.rows
      · exact fun _ ha => ha
  | addArtifact row =>
      refine ⟨{ h with rows := ?_, artifacts := ?_ },
        fun _ _ hp => hp, fun _ hi => hi, fun _ hp => hp⟩
      · intro j hj
        simp only [Stmt.exec, Registry.addArtifact] at hj
        split at hj <;> exact h.rows j hj
      · intro a hmem
        simp only [Stmt.exec, Registry.addArtifact] at hmem
        split at hmem
        · exact h.artifacts a hmem
        · rcases List.mem_append.mp hmem with hold | hnew
          · exact h.artifacts a hold
          · obtain rfl := List.mem_singleton.mp hnew
            exact ha
  | deleteArtifact key =>
      refine h.rows_changed _ ?_ ?_ _
      · exact h.rows
      · exact fun a hmem => (List.mem_filter.mp hmem).1
  | putBackend uuid b => exact h.putBackend ha
  | poll uuid dt =>
      simp only [Stmt.exec]
      split
      · exact ⟨h, Grows.refl s⟩
      · rename_i b hb
        exact h.putBackend ((h.backends uuid b hb).poll dt)
  | writeSource path data => exact h.writeSource hsha ha
  | moveArtifact key invalidated =>
      refine h.dirs_changed _ ?_ _ ?_ ?_
      · rfl
      · exact h.staged
      · intro key' dir hd
        by_cases hkey : key' = key
        · subst hkey
          simp [Disk.moveArtifact] at hd
        · rw [Disk.moveArtifact, AList.lookup_erase_ne hkey] at hd
          exact h.dirs key' dir hd
  | makeStaged uuid =>
      refine h.dirs_changed _ ?_ s.excused ?_ ?_
      · rfl
      · intro uuid' dir hd
        by_cases hu : uuid' = uuid
        · subst hu
          simp only [Disk.makeStaged, AList.lookup_insert, Option.some.injEq] at hd
          subst hd
          cases hold : s.disk.staged.lookup uuid' with
          | none => simp [DirFor]
          | some dir => exact h.staged uuid' dir hold
        · rw [Disk.makeStaged, AList.lookup_insert_ne hu] at hd
          exact h.staged uuid' dir hd
      · exact h.dirs
  | stageModel uuid data =>
      cases hold : s.disk.staged.lookup uuid with
      | none => simpa [Stmt.exec, Disk.stageModel, hold] using ⟨h, Grows.refl s⟩
      | some old =>
          simp only [Stmt.exec, Disk.stageModel, hold]
          refine h.dirs_changed _ ?_ s.excused ?_ ?_
          · rfl
          · intro uuid' dir hd
            by_cases hu : uuid' = uuid
            · subst hu
              simp only [AList.lookup_insert, Option.some.injEq] at hd
              subst hd
              exact h.staged uuid' old hold
            · rw [AList.lookup_insert_ne hu] at hd
              exact h.staged uuid' dir hd
          · exact h.dirs
  | stageManifest uuid manifest =>
      cases hold : s.disk.staged.lookup uuid with
      | none => simpa [Stmt.exec, Disk.stageManifest, hold] using ⟨h, Grows.refl s⟩
      | some old =>
          simp only [Stmt.exec, Disk.stageManifest, hold]
          refine h.dirs_changed _ ?_ s.excused ?_ ?_
          · rfl
          · intro uuid' dir hd
            by_cases hu : uuid' = uuid
            · subst hu
              simp only [AList.lookup_insert, Option.some.injEq] at hd
              subst hd
              intro m hm
              obtain rfl := Option.some.inj hm
              exact ha
            · rw [AList.lookup_insert_ne hu] at hd
              exact h.staged uuid' dir hd
          · exact h.dirs
  | commitStaged uuid key =>
      cases hold : s.disk.staged.lookup uuid with
      | none => simpa [Stmt.exec, Disk.commitStaged, hold] using ⟨h, Grows.refl s⟩
      | some old =>
          simp only [Stmt.exec, Disk.commitStaged, hold]
          refine h.dirs_changed _ ?_ s.excused ?_ ?_
          · rfl
          · intro uuid' dir hd
            by_cases hu : uuid' = uuid
            · subst hu
              simp at hd
            · rw [AList.lookup_erase_ne hu] at hd
              exact h.staged uuid' dir hd
          · intro key' dir hd
            by_cases hkey : key' = key
            · subst hkey
              simp only [AList.lookup_insert, Option.some.injEq] at hd
              subst hd
              exact h.staged uuid old hold
            · rw [AList.lookup_insert_ne hkey] at hd
              exact h.dirs key' dir hd
  | dropStaged uuid =>
      refine h.dirs_changed _ ?_ s.excused ?_ ?_
      · rfl
      · intro uuid' dir hd
        by_cases hu : uuid' = uuid
        · subst hu
          simp [Disk.dropStaged] at hd
        · rw [Disk.dropStaged, AList.lookup_erase_ne hu] at hd
          exact h.staged uuid' dir hd
      · exact h.dirs
  | dropWork uuid =>
      refine h.dirs_changed _ ?_ s.excused ?_ ?_
      · rfl
      · exact h.staged
      · exact h.dirs

/-! ## Other changes -/

/-- A registry that is rolled back. -/
theorem Sound.rollback (h : Sound setup s) (h' : Sound setup t) (hg : Grows s t) :
    Sound setup { t with registry := s.registry } ∧
      Grows s { t with registry := s.registry } := by
  have hroll : Grows s { t with registry := s.registry } :=
    ⟨hg.sources, hg.issued, hg.productions⟩
  refine ⟨{ h' with rows := ?_, artifacts := ?_ }, hroll⟩
  · exact fun j hj => hg.issued _ (h.rows j hj)
  · exact fun a ha => (h.artifacts a ha).mono hroll

/-- A process that dies loses its backend objects. -/
theorem Sound.crash (h : Sound setup s) (bootToken : PyStr) :
    Sound setup { s with backends := ∅, bootToken } :=
  { h with backends := fun uuid b hb => by simp at hb }

/-- The result that the thread of a compile leaves. -/
theorem BackendFor.finish {uuid : PyStr} {j : RealCompileJob}
    (hb : BackendFor setup s uuid (.real j)) (hg : Grows s t) {outcome : Option CompileResult}
    (hsource : (s.disk.sources.lookup j.source).isSome = true ∨
      outcome.all (fun r => r.rai.isNone) = true)
    (hproduced : ∀ p ∈ producedBy setup j.compileKey outcome (s.disk.sources.lookup j.source),
      p ∈ t.productions) :
    BackendFor setup t uuid (.real (j.finish (outcome.map fun r =>
      { r with read := s.disk.sources.lookup j.source }))) := by
  obtain ⟨hissued, hpath, hresult⟩ := hb.mono hg
  refine ⟨hissued, hpath, fun r data hr hd hreal => ?_⟩
  cases outcome with
  | none => exact hresult r data hr hd hreal
  | some r' =>
      have hr' : { r' with read := s.disk.sources.lookup j.source } = r := Option.some.inj hr
      have hrai : r'.rai = some (some data) := by rw [← hd, ← hr']
      cases hread : s.disk.sources.lookup j.source with
      | none =>
          rcases hsource with hsome | hnone
          · rw [hread] at hsome
            contradiction
          · simp [hrai] at hnone
      | some bytes =>
          refine ⟨⟨j.compileKey, setup.sha256 data, bytes⟩, hproduced _ ?_, rfl, rfl, ?_⟩
          · rw [hread]
            simp [producedBy, hrai]
          · refine ⟨j.source.2, hg.sources _ _ ?_⟩
            change s.disk.sources.lookup (j.sourceSha256, j.source.2) = some bytes
            rw [← hpath]
            exact hread

/-- **Outside events keep the invariant.** -/
theorem Sound.happen (h : Sound setup s) {e : Outside} (he : e.happen setup s = some t) :
    Sound setup t ∧ Grows s t := by
  cases e with
  | makeWork uuid =>
      simp only [Outside.happen] at he
      split at he
      · split at he
        · obtain rfl := Option.some.inj he
          have hsame : (s.disk.makeWork uuid).sources = s.disk.sources ∧
              (s.disk.makeWork uuid).staged = s.disk.staged ∧
              (s.disk.makeWork uuid).artifacts = s.disk.artifacts := by
            unfold Disk.makeWork
            split <;> exact ⟨rfl, rfl, rfl⟩
          refine h.dirs_changed _ hsame.1 s.excused ?_ ?_
          · rw [hsame.2.1]
            exact h.staged
          · rw [hsame.2.2]
            exact h.dirs
        · contradiction
      · contradiction
  | compiled uuid outcome =>
      simp only [Outside.happen] at he
      split at he
      · rename_i j hj
        split at he
        · rename_i hcond
          obtain rfl := Option.some.inj he
          let source := s.disk.sources.lookup j.source
          let produced := s.productions ++ producedBy setup j.compileKey outcome source
          have hg : Grows s { s with productions := produced } :=
            ⟨fun _ _ hp => hp, fun _ hi => hi, fun _ hp => List.mem_append_left _ hp⟩
          have hsound : Sound setup { s with productions := produced } :=
            { h with
              bound := fun i hi => (h.bound i hi).mono hg
              backends := fun uuid b hb => (h.backends uuid b hb).mono hg
              staged := fun uuid dir hd m hm => (h.staged uuid dir hd m hm).mono hg
              dirs := fun key dir hd m hm => (h.dirs key dir hd m hm).mono hg
              artifacts := fun a ha => (h.artifacts a ha).mono hg }
          rw [Bool.and_eq_true, Bool.or_eq_true] at hcond
          have hbackend := BackendFor.finish (h.backends uuid _ hj) hg hcond.2
            (fun p hp => List.mem_append_right _ hp)
          obtain ⟨hsound', hg'⟩ := hsound.putBackend hbackend
          exact ⟨hsound', hg.trans hg'⟩
        · contradiction
      · contradiction
  | clock now =>
      obtain rfl := Option.some.inj he
      exact ⟨{ h with }, fun _ _ hp => hp, fun _ hi => hi, fun _ hp => hp⟩
  | memlock adequate =>
      obtain rfl := Option.some.inj he
      exact ⟨{ h with }, fun _ _ hp => hp, fun _ hi => hi, fun _ hp => hp⟩
  | space free total =>
      obtain rfl := Option.some.inj he
      exact ⟨{ h with }, fun _ _ hp => hp, fun _ hi => hi, fun _ hp => hp⟩
  | service state =>
      obtain rfl := Option.some.inj he
      exact ⟨{ h with }, fun _ _ hp => hp, fun _ hi => hi, fun _ hp => hp⟩

end FrigateXdna
