import FrigateXdna.Process.Binding

/-!
# Every artifact is bound to its content

The programs of the manager process only perform allowed statements, whatever the other
threads do meanwhile: each place that derives a source digest takes it from the bytes it
ingested or from the row of the job, never from the current state of the ref.

Main results:

- Theorem {lit}`publishResult_safe`: a publication names the source of its job.
- Theorem {lit}`Task.safe`: every task of the process is safe.
- Theorem {lit}`content_bound`: in every reachable state every artifact row is the
  compile key of its source, and was compiled from the stored bytes.
-/

namespace FrigateXdna

open Python Library JobManager

variable {setup : Setup} {s t : Manager}

/-! ## Safe programs -/

/-- What threads rely on: the invariant, and that nothing is taken away. -/
def soundRely (setup : Setup) : Program.Rely Manager where
  holds := Sound setup
  le := Grows
  refl := Grows.refl
  trans _ _ _ := Grows.trans

/-- A program that only performs allowed statements from a state on. -/
abbrev Binds {β : Type} (setup : Setup) (p : Prog β) (Q : Manager → β → Prop)
    (s : Manager) : Prop :=
  p.Safe (Stmt.exec setup) (soundRely setup) (Allowed setup) Q s

/-- A statement that is allowed in every state. -/
def Stmt.free : Stmt → Bool
  | .createJob _ | .putBackend _ _ | .writeSource _ _ | .stageManifest _ _
  | .addArtifact _ => false
  | _ => true

theorem allowed_of_free {a : Stmt} (h : a.free = true) (s : Manager) :
    Allowed setup s a := by
  cases a <;> trivial

/-- A read. -/
theorem binds_read {β : Type} {f : Manager → β} {Q : Manager → β → Prop}
    (h : ∀ s', Grows s s' → Sound setup s' → ∀ t, Grows s' t → Q t (f s')) :
    Binds setup (read f) Q s :=
  fun s' hle hs => ⟨trivial, fun t hle' _ => h s' hle hs t hle'⟩

/-- A read whose result does not matter. -/
theorem binds_read' {β : Type} {f : Manager → β} :
    Binds setup (read f) (fun _ _ => True) s :=
  binds_read fun _ _ _ _ _ => trivial

/-- One allowed statement. -/
theorem binds_exec {a : Stmt} (h : ∀ s', Grows s s' → Sound setup s' → Allowed setup s' a) :
    Binds setup (exec a) (fun _ _ => True) s :=
  fun s' hle hs => ⟨h s' hle hs, fun _ _ _ => trivial⟩

/-- One statement that is allowed in every state. -/
theorem binds_free {a : Stmt} (h : a.free = true) :
    Binds setup (exec a) (fun _ _ => True) s :=
  binds_exec fun s' _ _ => allowed_of_free h s'

theorem binds_ret {β : Type} {b : β} {Q : Manager → β → Prop}
    (h : ∀ t, Grows s t → Sound setup t → Q t b) :
    Binds setup (.ret b) Q s :=
  h

/-- A conditional action that is allowed in every state. -/
theorem whenever_safe {c : Bool} {a : Stmt} (h : a.free = true) :
    Binds setup (whenever c (exec a)) (fun _ _ => True) s := by
  unfold whenever
  split
  · exact binds_free h
  · exact binds_ret fun _ _ _ => trivial

/-- A program of statements that are allowed in every state. -/
theorem binds_of_only {β : Type} {p : Prog β} (h : p.Only fun a => a.free = true)
    (s : Manager) : Binds setup p (fun _ _ => True) s := by
  induction p generalizing s with
  | ret b => exact fun _ _ _ => trivial
  | raise e => trivial
  | act a k ih => exact fun s' _ _ => ⟨allowed_of_free h.1 s', ih s' (h.2 s') _⟩

/-- A program of statements that are allowed in every state. -/
abbrev Free {β : Type} (p : Prog β) : Prop :=
  p.Only fun a => a.free = true

theorem free_read {β : Type} (f : Manager → β) : Free (read f) :=
  ⟨rfl, fun _ => trivial⟩

theorem free_exec {a : Stmt} (h : a.free = true) : Free (exec a) :=
  ⟨h, fun _ => trivial⟩

/-! ## Rows -/

/-- A row of a job that was created. -/
def Known (s : Manager) (job : JobRow) : Prop :=
  job.memory ∈ s.issued

theorem Known.mono {job : JobRow} (h : Known s job) (hg : Grows s t) : Known t job :=
  hg.issued _ h

/-- A row that is found under its id. -/
theorem getJob_some {r : Registry} {uuid : PyStr} {job : JobRow}
    (h : r.getJob uuid = some job) : job ∈ r.jobs ∧ job.uuid = uuid := by
  refine ⟨List.mem_of_find?_eq_some h, ?_⟩
  simpa using List.find?_some h

/-- What is remembered determines the key and the source of a known row. -/
theorem Known.of_uuid (hs : Sound setup s) {job : JobRow} (h : Known s job) {i : Issued}
    (hi : i ∈ s.issued) (hu : job.uuid = i.uuid) : job.memory = i :=
  hs.unique _ h _ hi hu

/-- A known row names a key and the source digest it is bound to. -/
theorem Known.bound (hs : Sound setup s) {job : JobRow} (h : Known s job) :
    ∃ key src, job.compileKey = some key ∧ job.sourceSha256 = some src ∧ src ≠ [] ∧
      Bound setup s key src := by
  obtain ⟨key, src, hkey, hsrc, hbound⟩ := hs.bound _ h
  refine ⟨key, src, hkey, hsrc, ?_, hbound⟩
  obtain ⟨data, -, hdata⟩ := hbound
  rw [← hdata.digest]
  exact setup.sha256_ne_nil data

theorem someJob_safe (uuid : PyStr) :
    Binds setup (someJob uuid) (fun t job => Known t job ∧ job.uuid = uuid) s := by
  refine Program.Safe.bind (Q := fun t r => ∀ job, r = some job → Known t job ∧ job.uuid = uuid)
    (binds_read fun s' _ hs t hle job hjob => ?_) fun r t ht hr => ?_
  · obtain ⟨hmem, hu⟩ := getJob_some hjob
    exact ⟨Known.mono (hs.rows job hmem) hle, hu⟩
  · cases r with
    | none => trivial
    | some job =>
        obtain ⟨hknown, hu⟩ := hr job rfl
        exact binds_ret fun t' hle _ => ⟨hknown.mono hle, hu⟩

theorem recordTerminal_safe (uuid : PyStr) (stage : Stage) (errorCode : Option PyStr)
    (detail errorText : PyStr) :
    Binds setup (recordTerminal uuid stage errorCode detail errorText)
      (fun t job => Known t job ∧ job.uuid = uuid) s := by
  refine Program.Safe.bind (someJob_safe uuid) fun job t _ _ => ?_
  refine Program.Safe.bind binds_read' fun record t' _ _ => ?_
  refine Program.Safe.bind (binds_free rfl) fun _ t'' _ _ => ?_
  exact someJob_safe uuid

/-! ## Attempts -/

/-- What a new row of a job may name. -/
structure AttemptFor (setup : Setup) (s : Manager) (key : Option PyStr) (extra : Extra)
    (src : Option PyStr) : Prop where
  bound : ∃ k d, key = some k ∧ src = some d ∧ Bound setup s k d ∧
    (extra.sourceSha256.or src).getD [] = d ∧ ∀ path, extra.sourcePath = some path → path.1 = d

theorem AttemptFor.mono {key : Option PyStr} {extra : Extra} {src : Option PyStr}
    (h : AttemptFor setup s key extra src) (hg : Grows s t) :
    AttemptFor setup t key extra src := by
  obtain ⟨k, d, hkey, hsrc, hbound, hextra, hpath⟩ := h
  exact ⟨k, d, hkey, hsrc, hbound.mono hg, hextra, hpath⟩

/-- A row that was created under a new id. -/
theorem newRow_safe {row : NewJob} {key src : PyStr} (hkey : row.compileKey = some key)
    (hsrc : row.sourceSha256 = some src) (hbound : Bound setup s key src) :
    Binds setup (newRow setup row) (fun t uuid => ⟨uuid, some key, some src⟩ ∈ t.issued) s := by
  intro s' hle _
  refine ⟨⟨key, src, hkey, hsrc, hbound.mono hle⟩, fun t hle' _ => ?_⟩
  refine hle'.issued _ (List.mem_append_right _ ?_)
  rw [hkey, hsrc]
  exact List.mem_cons_self

/-- What the backend factory makes of its arguments. -/
def MadeFor (setup : Setup) (kw : BackendArgs) (b : Backend) : Prop :=
  b.compileKey = kw.compileKey ∧ b.sourceSha256 = kw.sourceSha256 ∧
    match b with
    | .fake _ => setup.real = true → kw.compileKey = []
    | .real j => j.source.1 = kw.sourceSha256 ∧ j.result = none

theorem makeBackendJob_safe {kw : BackendArgs}
    (hpath : ∀ path, kw.sourcePath = some path → path.1 = kw.sourceSha256) :
    Binds setup (makeBackendJob setup kw) (fun _ b => MadeFor setup kw b) s := by
  unfold makeBackendJob
  split
  · rename_i hreal
    split
    · rename_i source hsource
      exact binds_ret fun _ _ _ => ⟨rfl, rfl, hpath source hsource, rfl⟩
    · refine Program.Safe.bind (Q := fun _ path => path.1 = kw.sourceSha256) ?_
        fun source t _ hsource => binds_ret fun _ _ _ => ⟨rfl, rfl, hsource, rfl⟩
      refine Program.Safe.bind
        (Q := fun _ src => ∀ x, src = some x → x.sha256 = kw.sourceSha256)
        (binds_read fun s' _ _ t _ x hx => by simpa using List.find?_some hx)
        fun src t _ hsrc => ?_
      cases src with
      | none => trivial
      | some src =>
          refine Program.Safe.bind binds_read' fun found t _ _ => ?_
          split
          · exact binds_ret fun _ _ _ => hsrc src rfl
          · trivial
  · rename_i hfake
    refine binds_ret fun _ _ _ => ⟨rfl, rfl, fun hreal => ?_⟩
    simpa [hreal] using hfake

/-- A backend made for a row is put in its place. -/
theorem putBackend_safe {uuid : PyStr} {kw : BackendArgs} {b : Backend}
    (hissued : ⟨uuid, some kw.compileKey, some kw.sourceSha256⟩ ∈ s.issued)
    (hmade : MadeFor setup kw b) :
    Binds setup (exec (.putBackend uuid b)) (fun _ _ => True) s := by
  refine binds_exec fun s' hle _ => ?_
  obtain ⟨hkey, hsrc, hcase⟩ := hmade
  refine ⟨by rw [hkey, hsrc]; exact hle.issued _ hissued, ?_⟩
  cases b with
  | fake j => exact fun hreal => hkey.trans (hcase hreal)
  | real j =>
      have hsrc' : j.sourceSha256 = kw.sourceSha256 := hsrc
      exact ⟨hcase.1.trans hsrc'.symm, fun r data hr => by rw [hcase.2] at hr; contradiction⟩

/-- A known row may be attempted again under its own key and source. -/
theorem AttemptFor.again (hs : Sound setup s) {job : JobRow} (h : Known s job) :
    AttemptFor setup s job.compileKey {} job.sourceSha256 := by
  obtain ⟨key, src, hkey, hsrc, -, hbound⟩ := h.bound hs
  exact ⟨key, src, hkey, hsrc, hbound, by simp [hsrc], fun path hp => by contradiction⟩

/-- What a submission may name. -/
structure SubmitFor (setup : Setup) (s : Manager) (key : Option PyStr) (extra : Extra) :
    Prop where
  bound : ∃ k d, key = some k ∧ extra.sourceSha256 = some d ∧ d ≠ [] ∧
    Bound setup s k d ∧ ∀ path, extra.sourcePath = some path → path.1 = d

theorem SubmitFor.mono {key : Option PyStr} {extra : Extra}
    (h : SubmitFor setup s key extra) (hg : Grows s t) : SubmitFor setup t key extra := by
  obtain ⟨k, d, hkey, hsrc, hne, hbound, hpath⟩ := h
  exact ⟨k, d, hkey, hsrc, hne, hbound.mono hg, hpath⟩

/-- A submission may resume any failed row of its key. -/
theorem SubmitFor.attempt {key : Option PyStr} {extra : Extra}
    (h : SubmitFor setup s key extra) (failed : JobRow) :
    AttemptFor setup s key extra (orText extra.sourceSha256 failed.sourceSha256) := by
  obtain ⟨k, d, hkey, hsrc, hne, hbound, hpath⟩ := h
  refine ⟨k, d, hkey, ?_, hbound, ?_, hpath⟩
  · simp [orText, hsrc, hne]
  · simp [hsrc]

theorem carryAliases_safe (uuid ref prevUuid : PyStr) :
    Binds setup (carryAliases uuid ref prevUuid) (fun _ _ => True) s :=
  Program.Safe.bind binds_read' fun _ _ _ _ =>
    Program.Safe.forEach fun _ _ _ _ => binds_free rfl

/-! ## The job manager -/

section JobManager

variable (hsha : Function.Injective setup.sha256)

include hsha

/-- Allowed statements do what others rely on. -/
theorem sound_guarantees :
    Program.Guarantees (Stmt.exec setup) (soundRely setup) (Allowed setup) :=
  fun _ _ hs ha => allowed_sound hsha hs ha

theorem spawnBackend_safe {uuid : PyStr} {kw : BackendArgs} {prevUuid : PyStr}
    (hissued : ⟨uuid, some kw.compileKey, some kw.sourceSha256⟩ ∈ s.issued)
    (hpath : ∀ path, kw.sourcePath = some path → path.1 = kw.sourceSha256) :
    Binds setup (spawnBackend setup uuid kw prevUuid) (fun _ _ => True) s := by
  refine Program.Safe.step (sound_guarantees hsha) (makeBackendJob_safe hpath).attempt
    fun r t hle _ hr => ?_
  cases r with
  | ok b =>
      refine Program.Safe.bind (putBackend_safe (hle.issued _ hissued) (hr b rfl))
        fun _ t' _ _ => ?_
      exact binds_ret fun _ _ _ => trivial
  | error e =>
      refine Program.Safe.bind (binds_free rfl) fun _ t' _ _ => ?_
      refine Program.Safe.bind binds_read' fun prior t' _ _ => ?_
      cases prior with
      | none => exact binds_ret fun _ _ _ => trivial
      | some prior =>
          refine Program.Safe.bind (binds_free rfl) fun _ t' _ _ => ?_
          exact binds_ret fun _ _ _ => trivial

theorem newAttempt_safe {ref : PyStr} {key : Option PyStr} {prev : Failure} {held : Bool}
    {extra : Extra} {prevUuid : PyStr} {src : Option PyStr}
    (h : AttemptFor setup s key extra src) :
    Binds setup (newAttempt setup ref key prev held extra prevUuid src)
      (fun t r => ∀ job, r = some job → Known t job) s := by
  obtain ⟨k, d, rfl, rfl, hbound, hextra, hpath⟩ := h
  refine Program.Safe.step (sound_guarantees hsha) (newRow_safe rfl rfl hbound)
    fun uuid t hle _ hissued => ?_
  refine Program.Safe.step (sound_guarantees hsha) (binds_free rfl) fun _ t₂ hle₂ _ _ => ?_
  refine Program.Safe.step (sound_guarantees hsha) (carryAliases_safe uuid ref prevUuid)
    fun _ t₃ hle₃ _ _ => ?_
  have hspawn : Binds setup
      (spawnBackend setup uuid (attemptArgs (some k) held extra (some d)) prevUuid)
      (fun _ _ => True) t₃ := by
    refine spawnBackend_safe hsha ?_ fun path hp => ?_
    · simp only [attemptArgs, Option.getD_some, hextra]
      exact hle₃.issued _ (hle₂.issued _ hissued)
    · simp only [attemptArgs, hextra] at hp ⊢
      exact hpath path hp
  refine Program.Safe.step (sound_guarantees hsha) hspawn fun ok t₄ _ _ _ => ?_
  split
  · refine Program.Safe.bind (binds_free rfl) fun _ t₅ _ _ => ?_
    refine Program.Safe.bind (someJob_safe uuid) fun job t₆ _ hjob => ?_
    refine binds_ret fun t₇ hle₇ _ job' hjob' => ?_
    obtain rfl := Option.some.inj hjob'
    exact hjob.1.mono hle₇
  · exact binds_ret fun _ _ _ job hjob => by contradiction

theorem maybeResume_safe {ref : PyStr} {key : Option PyStr} {failed : JobRow} {held : Bool}
    {extra : Extra}
    (h : AttemptFor setup s key extra (orText extra.sourceSha256 failed.sourceSha256)) :
    Binds setup (maybeResume setup ref key failed held extra)
      (fun t r => ∀ job, r = some job → Known t job) s := by
  have hnone : ∀ t, Binds setup (.ret (none : Option JobRow))
      (fun t r => ∀ job, r = some job → Known t job) t :=
    fun t => binds_ret fun _ _ _ job hjob => by contradiction
  refine Program.Safe.step (sound_guarantees hsha) binds_read' fun live t hle _ _ => ?_
  split
  · exact hnone t
  · refine Program.Safe.step (sound_guarantees hsha) binds_read' fun inhibited t₂ hle₂ _ _ => ?_
    split
    · exact hnone t₂
    · split
      · exact hnone t₂
      · rename_i record hrecord
        refine Program.Safe.step (sound_guarantees hsha) binds_read'
          fun eligible t₃ hle₃ _ _ => ?_
        split
        · refine Program.Safe.bind
            (newAttempt_safe hsha (((h.mono hle).mono hle₂).mono hle₃)) fun new t₄ _ hnew => ?_
          cases new with
          | none => exact hnone t₄
          | some new =>
              refine Program.Safe.step (sound_guarantees hsha) (binds_free rfl)
                fun _ t₅ hle₅ _ _ => ?_
              refine binds_ret fun t₆ hle₆ _ job hjob => ?_
              obtain rfl := Option.some.inj hjob
              exact ((hnew new rfl).mono hle₅).mono hle₆
        · exact hnone t₃

theorem joinOrCreate_safe {ref : PyStr} {key : Option PyStr} {extra : Extra}
    (h : SubmitFor setup s key extra) :
    Binds setup (joinOrCreate setup ref key extra) (fun _ _ => True) s := by
  refine Program.Safe.step (sound_guarantees hsha) binds_read' fun live t hle _ _ => ?_
  cases live with
  | some live =>
      refine Program.Safe.bind (binds_free rfl) fun _ t₂ _ _ => ?_
      exact binds_ret fun _ _ _ => trivial
  | none =>
      obtain ⟨k, d, rfl, hsrc, hne, hbound, hpath⟩ := h.mono hle
      refine Program.Safe.step (sound_guarantees hsha) (newRow_safe rfl hsrc hbound)
        fun uuid t₂ hle₂ _ hissued => ?_
      have hmake : Binds setup (makeBackendJob setup (createArgs setup (some k) extra))
          (fun _ b => MadeFor setup (createArgs setup (some k) extra) b) t₂ := by
        refine makeBackendJob_safe fun path hp => ?_
        simp only [createArgs, hsrc, Option.getD_some] at hp ⊢
        exact hpath path hp
      refine Program.Safe.step (sound_guarantees hsha) hmake fun b t₃ hle₃ _ hmade => ?_
      refine Program.Safe.bind (putBackend_safe ?_ hmade) fun _ t₄ _ _ => ?_
      · simp only [createArgs, hsrc, Option.getD_some]
        exact hle₃.issued _ hissued
      · exact (someJob_safe uuid).weaken fun _ _ _ _ => trivial

theorem submit_safe {ref : PyStr} {key : Option PyStr} {extra : Extra}
    (h : SubmitFor setup s key extra) :
    Binds setup (submit setup ref key extra) (fun _ _ => True) s := by
  refine Program.Safe.step (sound_guarantees hsha) binds_read' fun existing t hle _ _ => ?_
  cases existing with
  | none => exact joinOrCreate_safe hsha (h.mono hle)
  | some existing =>
      dsimp only
      split
      · refine Program.Safe.bind (binds_free rfl) fun _ t₂ _ _ => ?_
        exact binds_ret fun _ _ _ => trivial
      · split
        · refine Program.Safe.step (sound_guarantees hsha) (someJob_safe existing.uuid)
            fun full t₂ hle₂ _ _ => ?_
          refine Program.Safe.bind
            (maybeResume_safe hsha (((h.mono hle).mono hle₂).attempt full)) fun new t₃ _ _ => ?_
          cases new with
          | none => exact binds_ret fun _ _ _ => trivial
          | some new => exact binds_ret fun _ _ _ => trivial
        · refine Program.Safe.step (sound_guarantees hsha) binds_read'
            fun cached t₂ hle₂ _ _ => ?_
          split
          · exact binds_ret fun _ _ _ => trivial
          · exact joinOrCreate_safe hsha ((h.mono hle).mono hle₂)

theorem resumeRow_safe {uuid ref : PyStr} {key : Option PyStr}
    (h : ∃ i ∈ s.issued, i.uuid = uuid ∧ i.compileKey = key) :
    Binds setup (resumeRow setup uuid ref key) (fun _ _ => True) s := by
  obtain ⟨i, hi, rfl, rfl⟩ := h
  refine Program.Safe.step (Q := fun t r => ∀ full, r = some full →
      AttemptFor setup t i.compileKey {} full.sourceSha256) (sound_guarantees hsha) ?_
    fun full t _ _ hfull => ?_
  · refine binds_read fun s' hle hs t hle' full hjob => ?_
    obtain ⟨hmem, hu⟩ := getJob_some hjob
    have hknown : Known s' full := hs.rows full hmem
    have hsame : full.memory = i := hknown.of_uuid hs (hle.issued _ hi) hu
    have hkey : full.compileKey = i.compileKey := congrArg Issued.compileKey hsame
    rw [← hkey]
    exact (AttemptFor.again hs hknown).mono hle'
  · cases full with
    | none => exact binds_ret fun _ _ _ => trivial
    | some full =>
        exact (maybeResume_safe hsha (hfull full rfl)).weaken fun _ _ _ _ => trivial

theorem requeue_safe {ref : PyStr} {key : Option PyStr} :
    Binds setup (requeue setup ref key) (fun _ _ => True) s := by
  refine Program.Safe.step (Q := fun t r => ∀ existing, r = some existing →
      Known t existing ∧ existing.compileKey = key) (sound_guarantees hsha) ?_
    fun existing t _ _ hexisting => ?_
  · refine binds_read fun s' _ hs t hle existing hfind => ?_
    refine ⟨Known.mono (hs.rows existing (findJob_mem hfind)) hle, ?_⟩
    have hmatch := (List.mem_filter.mp (newestBy_mem hfind)).2
    simp only [Bool.and_eq_true, beq_iff_eq] at hmatch
    exact hmatch.2
  · cases existing with
    | none => exact binds_ret fun _ _ _ => trivial
    | some existing =>
        obtain ⟨hknown, hkey⟩ := hexisting existing rfl
        dsimp only
        split
        · exact binds_ret fun _ _ _ => trivial
        · refine Program.Safe.step (sound_guarantees hsha) binds_read'
            fun inhibited t₂ hle₂ _ _ => ?_
          split
          · exact binds_ret fun _ _ _ => trivial
          · refine Program.Safe.step (sound_guarantees hsha) (someJob_safe existing.uuid)
              fun full t₃ hle₃ hs₃ hfull => ?_
            have hsame : full.memory = existing.memory :=
              hfull.1.of_uuid hs₃ ((hknown.mono hle₂).mono hle₃) hfull.2
            have hfullKey : full.compileKey = key :=
              (congrArg Issued.compileKey hsame).trans hkey
            cases requeuePrev full with
            | none => exact binds_ret fun _ _ _ => trivial
            | some prev =>
                refine Program.Safe.step (sound_guarantees hsha) binds_read'
                  fun live t₄ hle₄ hs₄ _ => ?_
                split
                · exact binds_ret fun _ _ _ => trivial
                · have hattempt := AttemptFor.again hs₄ (hfull.1.mono hle₄)
                  rw [hfullKey] at hattempt
                  refine Program.Safe.bind (newAttempt_safe hsha hattempt)
                    fun new t₅ _ _ => ?_
                  cases new with
                  | none => exact binds_ret fun _ _ _ => trivial
                  | some new =>
                      refine Program.Safe.bind (binds_free rfl) fun _ t₆ _ _ => ?_
                      exact binds_ret fun _ _ _ => trivial

theorem finishTerminal_safe {uuid : PyStr} {b : Backend} {job : JobRow} :
    Binds setup (finishTerminal setup uuid b job) (fun t job => Known t job) s := by
  refine Program.Safe.step (sound_guarantees hsha) (recordTerminal_safe uuid _ _ _ _)
    fun job t _ hs hjob => ?_
  have hattempt : AttemptFor setup t job.compileKey {}
      (orText ({} : Extra).sourceSha256 job.sourceSha256) := by
    simpa [orText] using AttemptFor.again hs hjob.1
  refine Program.Safe.step (sound_guarantees hsha) (maybeResume_safe hsha hattempt)
    fun new t₂ hle₂ _ hnew => ?_
  cases new with
  | none => exact binds_ret fun t₃ hle₃ _ => (hjob.1.mono hle₂).mono hle₃
  | some new => exact binds_ret fun t₃ hle₃ _ => (hnew new rfl).mono hle₃

theorem pump_safe {uuid : PyStr} {dt : Int} :
    Binds setup (JobManager.pump setup uuid dt) (fun t job => Known t job) s := by
  refine Program.Safe.step (sound_guarantees hsha) binds_read' fun b t _ _ _ => ?_
  cases b with
  | none =>
      refine Program.Safe.bind (Q := fun t r => ∀ job, r = some job → Known t job)
        (binds_read fun s' _ hs t' hle job hjob =>
          Known.mono (hs.rows job (getJob_some hjob).1) hle) fun r t₂ _ hr => ?_
      cases r with
      | none => trivial
      | some job => exact binds_ret fun t₃ hle₃ _ => (hr job rfl).mono hle₃
  | some b =>
      refine Program.Safe.bind binds_read' fun prev t₂ _ _ => ?_
      have hpoll : Binds setup (pollBackend uuid dt b) (fun _ _ => True) t₂ :=
        fun s' _ _ => ⟨trivial, fun _ _ _ => trivial⟩
      refine Program.Safe.bind hpoll fun b' t₃ _ _ => ?_
      refine Program.Safe.bind (binds_free rfl) fun _ t₄ _ _ => ?_
      refine Program.Safe.bind (someJob_safe uuid) fun job t₅ _ hjob => ?_
      split
      · exact finishTerminal_safe hsha
      · exact binds_ret fun t₆ hle₆ _ => hjob.1.mono hle₆

end JobManager

/-! ## Publications -/

section Publications

variable (hsha : Function.Injective setup.sha256)

/-- What a backend leaves to publish was compiled from the source of its row. -/
theorem artifactBytes_compiled {uuid key src : PyStr} {b : Backend}
    (hb : BackendFor setup s uuid b) (hkey : b.compileKey = key) (hne : key ≠ [])
    (hsrc : b.sourceSha256 = src) {data : Bytes} (h : artifactBytes key b = .ok data) :
    Compiled setup s key src (setup.sha256 data) := by
  subst hkey hsrc
  cases b with
  | fake j => exact fun hreal => absurd (hb.2 hreal) hne
  | real j =>
      unfold artifactBytes at h
      dsimp only at h
      split at h
      · contradiction
      · contradiction
      · rename_i data' hrai
        obtain rfl := Except.ok.inj h
        obtain ⟨r, hr, hd⟩ := Option.bind_eq_some_iff.mp hrai
        exact hb.2.2 r data' hr hd

theorem publishArtifact_safe {key uuid : PyStr} {data : Bytes} {manifest : Json}
    (h : ManifestFor setup s (.ok manifest)) (hsha : Function.Injective setup.sha256) :
    Binds setup (publishArtifact key uuid data manifest) (fun _ _ => True) s := by
  refine Program.Safe.step (sound_guarantees hsha) binds_read' fun found t hle _ _ => ?_
  split
  · trivial
  · refine Program.Safe.step (sound_guarantees hsha) (binds_free rfl) fun _ t₂ hle₂ _ _ => ?_
    refine Program.Safe.bind (binds_exec fun s' hle' _ => ((h.mono hle).mono hle₂).mono hle')
      fun _ t₃ _ _ => ?_
    exact binds_free rfl

include hsha

/-- The commit of an artifact under a key that has neither row nor directory. -/
theorem publishStaged_safe {job : JobRow} {key : PyStr} (h : Known s job)
    (hkey : job.compileKey = some key) (hne : key ≠ []) :
    Binds setup (publishStaged setup job key) (fun _ _ => True) s := by
  refine Program.Safe.step (sound_guarantees hsha) (binds_free rfl) fun _ t hle hs _ => ?_
  obtain ⟨key', src, hkey', hsrc, hsrcNe, hbound⟩ := (h.mono hle).bound hs
  rw [hkey] at hkey'
  obtain rfl := Option.some.inj hkey'
  refine Program.Safe.step (Q := fun _ source => source = src) (sound_guarantees hsha)
    (binds_read fun s' _ _ t' _ => by simp [JobManager.orText, hsrc, hsrcNe])
    fun source t₂ hle₂ _ hsource => ?_
  subst hsource
  refine Program.Safe.step
    (Q := fun t r => ∀ b, r = some b → BackendFor setup t job.uuid b) (sound_guarantees hsha)
    (binds_read fun s' _ hs t hle b hb => (hs.backends job.uuid b hb).mono hle)
    fun r t₃ hle₃ hs₃ hr => ?_
  cases r with
  | none => trivial
  | some b =>
      have hb := hr b rfl
      have hsame := (((h.mono hle).mono hle₂).mono hle₃).of_uuid hs₃ hb.1 rfl
      have hkeyB : b.compileKey = key := by
        have := congrArg Issued.compileKey hsame
        exact (Option.some.inj (hkey.symm.trans this)).symm
      have hsrcB : b.sourceSha256 = source := by
        have := congrArg Issued.sourceSha256 hsame
        exact (Option.some.inj (hsrc.symm.trans this)).symm
      dsimp only
      split
      · trivial
      · rename_i data hdata
        have hmade : Made setup t₃ key source (setup.sha256 data) :=
          ⟨(hbound.mono hle₂).mono hle₃, artifactBytes_compiled hb hkeyB hne hsrcB hdata⟩
        have hmanifest : ManifestFor setup t₃ (.ok
            (publishedManifest b.backendId key source (setup.sha256 data))) :=
          ⟨b.backendId, key, source, setup.sha256 data, rfl, hmade⟩
        refine Program.Safe.step (sound_guarantees hsha) (publishArtifact_safe hmanifest hsha)
          fun _ t₄ hle₄ _ _ => ?_
        exact binds_exec fun s' hle' _ => (hmade.mono hle₄).mono hle'

/-- **A publication names the source of its job**, and what it publishes was compiled from
that source. -/
theorem publishResult_safe {job : JobRow} (h : Known s job)
    (hne : job.compileKey.getD [] ≠ []) :
    Binds setup (publishResult setup job) (fun _ _ => True) s := by
  refine Program.Safe.step (sound_guarantees hsha) binds_read' fun done t hle _ _ => ?_
  split
  · exact binds_ret fun _ _ _ => trivial
  · refine Program.Safe.step (sound_guarantees hsha) binds_read' fun colliding t₂ hle₂ _ _ => ?_
    refine Program.Safe.step (sound_guarantees hsha) (whenever_safe rfl)
      fun _ t₃ hle₃ hs₃ _ => ?_
    have hknown := ((h.mono hle).mono hle₂).mono hle₃
    obtain ⟨key, src, hkey, -⟩ := hknown.bound hs₃
    rw [hkey] at hne ⊢
    exact publishStaged_safe hsha hknown hkey hne

end Publications

/-! ## The supervisor -/

theorem setRefStates_free (refs : List PyStr) (state : PyStr) : Free (setRefStates refs state) :=
  Program.Only.forEach fun _ _ => free_exec rfl

theorem markPreparedRefs_free (key : PyStr) : Free (markPreparedRefs key) :=
  Program.Only.bind (free_read _) fun refs => setRefStates_free refs _

theorem markJobRefs_free (uuid : PyStr) (stage : Stage) : Free (markJobRefs uuid stage) :=
  Program.Only.bind (free_read _) fun refs => setRefStates_free refs _

theorem whenever_free {c : Bool} {p : Prog Unit} (h : Free p) : Free (whenever c p) := by
  unfold whenever
  split
  · exact h
  · trivial

theorem invalidateArtifact_free (key : PyStr) : Free (invalidateArtifact key) := by
  refine Program.Only.bind (free_read _) fun found => ?_
  exact Program.Only.bind (whenever_free (free_exec rfl)) fun _ => free_exec rfl

/-- A repair of rows is allowed in every state. -/
theorem free_of_repairsRows {β : Type} {p : Prog β} (h : RepairsRows p) : Free p :=
  h.weaken fun a ha => by cases a <;> first | rfl | simp [Stmt.ofRepair] at ha

theorem failJob_safe (uuid : PyStr) (e : FxdnaError) :
    Binds setup (failJob uuid e) (fun _ _ => True) s := by
  refine Program.Safe.bind (binds_free rfl) fun _ t _ _ => ?_
  refine Program.Safe.bind (recordTerminal_safe uuid _ _ _ _) fun _ t _ _ => ?_
  exact binds_of_only (markJobRefs_free uuid _) t

/-- The row that {lit}`recover` adopts for a directory says what its manifest says. -/
theorem adopted_made {key : PyStr} {dir : Dir} (h : DirFor setup s dir) {row : ArtifactRow}
    (hrow : adopted? setup.sha256 key dir = .ok (some row)) :
    Made setup s row.compileKey row.sourceSha256 row.artifactSha256 := by
  obtain ⟨hkey, fields, data, source, hmanifest, -, hsha, hnamed, hdigest, hsource, hbind⟩ :=
    adopted?_eq_some hrow
  obtain ⟨backend, key', src, sha, hm, hmade⟩ := h _ hmanifest
  obtain rfl := Json.obj.inj (Except.ok.inj hm)
  have hkey' : key' = key := by
    simpa [lookupField, py, Json.eqStr] using hnamed
  have hsha' : sha = setup.sha256 data := by
    simpa [lookupField, py, Json.eqStr] using hdigest
  subst hsource
  have hsrc : src = row.sourceSha256 := by
    simpa [lookupField, py, bindText] using hbind
  rw [hkey, hsha, ← hkey', ← hsha', ← hsrc]
  exact hmade

theorem recoverArtifact_safe (key : PyStr) :
    Binds setup (recoverArtifact setup key) (fun _ _ => True) s := by
  refine Program.Safe.bind binds_read' fun known t _ _ => ?_
  split
  · exact binds_ret fun _ _ _ => trivial
  · refine Program.Safe.bind (Q := fun t r => ∀ row, r = .ok (some row) →
        Made setup t row.compileKey row.sourceSha256 row.artifactSha256)
      (binds_read fun s' _ hs t hle row hrow => ?_) fun r t₂ _ hr => ?_
    · refine (adopted_made ?_ hrow).mono hle
      cases hdir : s'.disk.artifacts.lookup key with
      | none => exact fun m hm => by contradiction
      | some dir => exact hs.dirs key dir hdir
    · rcases r with e | _ | row
      · trivial
      · exact binds_free rfl
      · exact binds_exec fun s' hle _ => (hr row rfl).mono hle

/-- **A start of the process adopts only true artifacts.** -/
theorem construct_safe : Binds setup (construct setup) (fun _ _ => True) s := by
  have hrecover : Binds setup (recover setup) (fun _ _ => True) s := by
    refine Program.Safe.bind binds_read' fun work t _ _ => ?_
    refine Program.Safe.bind (Program.Safe.forEach fun uuid _ t' _ =>
      binds_of_only (free_of_repairsRows (repairsRows_recoverWork uuid)) t') fun _ t₂ _ _ => ?_
    refine Program.Safe.bind binds_read' fun staged t₃ _ _ => ?_
    refine Program.Safe.bind (Program.Safe.forEach fun _ _ _ _ => binds_free rfl)
      fun _ t₄ _ _ => ?_
    refine Program.Safe.bind binds_read' fun keys t₅ _ _ => ?_
    exact Program.Safe.forEach fun key _ _ _ => recoverArtifact_safe key
  exact Program.Safe.bind hrecover fun _ t _ _ => binds_of_only
    (free_of_repairsRows repairsRows_reconcileJobs) t

section Supervisor

variable (hsha : Function.Injective setup.sha256)

include hsha

theorem pumpPrepared_safe {uuid : PyStr} {job : JobRow} (h : Known s job) :
    Binds setup (pumpPrepared setup uuid job) (fun _ _ => True) s := by
  unfold pumpPrepared
  dsimp only
  split
  · exact binds_free rfl
  · rename_i hkey
    have hne : job.compileKey.getD [] ≠ [] := by simpa using hkey
    refine Program.Safe.bind (publishResult_safe hsha h hne).attempt fun r t _ _ => ?_
    split
    · exact failJob_safe uuid _
    · trivial
    · exact binds_of_only (markPreparedRefs_free _) t

theorem pumpOne_safe (uuid : PyStr) (dt : Int) :
    Binds setup (pumpOne setup uuid dt) (fun _ _ => True) s := by
  refine Program.Safe.bind (pump_safe hsha).attempt fun r t _ hr => ?_
  split
  · exact failJob_safe uuid _
  · trivial
  · rename_i job
    split
    · exact binds_of_only (markJobRefs_free uuid _) t
    · split
      · exact pumpPrepared_safe hsha (hr job rfl)
      · exact binds_ret fun _ _ _ => trivial

theorem waitPrepared_safe {uuid : PyStr} {pumping : Bool} {job : JobRow} (h : Known s job) :
    Binds setup (waitPrepared setup uuid pumping job) (fun _ _ => True) s := by
  unfold waitPrepared
  dsimp only
  split
  · exact binds_free rfl
  · rename_i hkey
    have hne : job.compileKey.getD [] ≠ [] := by simpa using hkey
    split
    · refine Program.Safe.bind (publishResult_safe hsha h hne).attempt fun r t _ _ => ?_
      split
      · refine Program.Safe.bind (binds_free rfl) fun _ t₂ _ _ => ?_
        exact binds_of_only (markJobRefs_free uuid _) t₂
      · trivial
      · exact binds_of_only (markPreparedRefs_free _) t
    · exact binds_of_only (markPreparedRefs_free _) s

theorem waitStep_safe (uuid : PyStr) (dt : Int) (pumping : Bool) :
    Binds setup (waitStep setup uuid dt pumping) (fun _ _ => True) s := by
  have hjob : Binds setup (waitedJob setup uuid dt pumping) (fun t job => Known t job) s := by
    unfold waitedJob
    split
    · exact pump_safe hsha
    · refine Program.Safe.bind (Q := fun t r => ∀ job, r = some job → Known t job)
        (binds_read fun s' _ hs t' hle job hfound =>
          Known.mono (hs.rows job (getJob_some hfound).1) hle) fun r t _ hr => ?_
      cases r with
      | none => trivial
      | some job => exact binds_ret fun t₂ hle _ => (hr job rfl).mono hle
  refine Program.Safe.bind hjob fun job t _ hknown => ?_
  dsimp only
  split
  · exact waitPrepared_safe hsha hknown
  · split
    · exact binds_of_only (markJobRefs_free _ _) t
    · exact binds_ret fun _ _ _ => trivial

end Supervisor

/-! ## Threads -/

/-- What an action of a thread must respect. -/
def ActAllowed (setup : Setup) (s : Manager) : Act → Prop
  | .stmt a => Allowed setup s a
  | .submit _ key extra => SubmitFor setup s key extra
  | .resume uuid _ key => ∃ i ∈ s.issued, i.uuid = uuid ∧ i.compileKey = key
  | .requeue _ _ => True

/-- A thread that only performs allowed actions from a state on. -/
abbrev Follows {β : Type} (setup : Setup) (p : ThreadProg β) (Q : Manager → β → Prop)
    (s : Manager) : Prop :=
  p.Safe (Act.exec setup) (soundRely setup) (ActAllowed setup) Q s

/-- Statements that are performed one by one. -/
theorem spread_safe {β : Type} {p : Prog β} {Q : Manager → β → Prop}
    (h : Binds setup p Q s) : Follows setup (spread p) Q s :=
  Program.Safe.relabel (f := Act.stmt) (fun _ _ => rfl) (fun _ _ ha => ha) h

/-- A read by a thread whose result does not matter. -/
theorem spread_read {β : Type} {f : Manager → β} :
    Follows setup (spread (read f)) (fun _ _ => True) s :=
  spread_safe binds_read'

/-- A statement of a thread that is allowed in every state. -/
theorem spread_free {a : Stmt} (h : a.free = true) :
    Follows setup (spread (exec a)) (fun _ _ => True) s :=
  spread_safe (binds_free h)

theorem follows_ret {β : Type} {b : β} :
    Follows setup (.ret b) (fun _ _ => True) s :=
  fun _ _ _ => trivial

/-- A transaction of a thread. -/
theorem atomically_safe {β : Type} {a : Act} {p : Prog β}
    (h : ∀ t, Grows s t → ActAllowed setup t a) :
    Follows setup (atomically setup a p) (fun _ _ => True) s := by
  refine fun t hle _ => ⟨h t hle, ?_⟩
  dsimp only
  split
  · exact follows_ret
  · trivial

/-- The provenance row of a hit names the source that was ingested. -/
theorem recordHit_safe {ref digest key serving : PyStr} (h : Bound setup s key digest) :
    Follows setup (recordHit setup ref digest key serving) (fun _ _ => True) s := by
  refine Program.Safe.bind (spread_safe (newRow_safe rfl rfl h)) fun uuid t _ _ => ?_
  refine Program.Safe.bind (spread_free rfl) fun _ t _ _ => ?_
  refine Program.Safe.bind (spread_free rfl) fun _ t _ _ => ?_
  exact follows_ret

/-- The key of an inspected source is the compile key of its bytes. -/
theorem keysOf_keyOf {data : Bytes} {contract : Json} {key serving : PyStr}
    (hinspect : setup.inspect data = .ok contract)
    (h : keysOf setup (setup.sha256 data) contract = .ok (key, serving)) :
    KeyOf setup key (setup.sha256 data) data := by
  unfold keysOf at h
  split at h
  · contradiction
  · rename_i dims hdims
    split at h
    · contradiction
    · rename_i key' hkey
      split at h
      · contradiction
      · cases h
        exact ⟨rfl, contract, dims, hinspect, hdims, hkey⟩

theorem requeueRef_safe (ref : PyStr) :
    Follows setup (requeueRef setup ref) (fun _ _ => True) s := by
  refine Program.Safe.bind spread_read fun row t _ _ => ?_
  cases row with
  | none => exact follows_ret
  | some row =>
      exact Program.Safe.bind (atomically_safe fun _ _ => trivial) fun _ _ _ _ => follows_ret

section Threads

/-- A checked inspection returns what the inspection says of the bytes. -/
theorem inspectChecked_safe (ref : PyStr) (data : Bytes) :
    Follows setup (inspectChecked setup ref data)
      (fun _ contract => setup.inspect data = .ok contract) s := by
  unfold inspectChecked
  split
  · exact Program.Safe.bind (spread_free rfl) fun _ _ _ _ => trivial
  · trivial
  · rename_i contract hinspect
    exact Program.Safe.bind (spread_free rfl) fun _ _ _ _ _ _ _ => hinspect

variable (hsha : Function.Injective setup.sha256)

include hsha

/-- A transaction, completed or rolled back, keeps the invariant. -/
theorem transaction_sound {β : Type} {p : Prog β} {Q : Manager → β → Prop}
    (hp : Binds setup p Q s) (hs : Sound setup s) :
    Sound setup (transaction setup p s).1 ∧ Grows s (transaction setup p s).1 := by
  obtain ⟨hrun, hgrows, -⟩ := hp.run (sound_guarantees hsha) hs
  unfold transaction
  split
  · rename_i t b heq
    rw [heq] at hrun hgrows
    exact ⟨hrun, hgrows⟩
  · rename_i t e heq
    rw [heq] at hrun hgrows
    exact hs.rollback hrun hgrows

/-- **Allowed actions do what other threads rely on.** -/
theorem act_guarantees :
    Program.Guarantees (Act.exec setup) (soundRely setup) (ActAllowed setup) := by
  intro s a hs ha
  cases a with
  | stmt a => exact allowed_sound hsha hs ha
  | submit ref key extra => exact transaction_sound hsha (submit_safe hsha ha) hs
  | resume uuid ref key => exact transaction_sound hsha (resumeRow_safe hsha ha) hs
  | requeue ref key => exact transaction_sound hsha (requeue_safe hsha) hs

/-- Ingested bytes are stored under their digest. -/
theorem ingestBytes_safe (data : Bytes) (fileName : PyStr) :
    Follows setup (ingestBytes setup data fileName)
      (fun t _ => Stored t (setup.sha256 data) data) s := by
  refine Program.Safe.bind
    (Q := fun t r => ∀ old, r = some old → Stored t (setup.sha256 data) data)
    (spread_safe (binds_read fun s' _ hs t hle old hold => ?_)) fun r t _ hr => ?_
  · have hsame : old = data := hsha (hs.stored _ _ hold)
    subst hsame
    exact ⟨fileName, hle.sources _ _ hold⟩
  · cases r with
    | none =>
        refine spread_safe fun s' _ _ => ⟨rfl, fun t hle _ => ⟨fileName, hle.sources _ _ ?_⟩⟩
        exact AList.lookup_insert _
    | some old =>
        dsimp only
        split
        · exact fun t' hle _ => (hr old rfl).mono hle
        · trivial

/-- A submission names the source that was ingested. -/
theorem submitCompile_safe {ref digest key serving : PyStr} {origin : Origin}
    (h : Bound setup s key digest) (hne : digest ≠ []) :
    Follows setup (submitCompile setup ref digest key serving origin) (fun _ _ => True) s := by
  refine Program.Safe.step (act_guarantees hsha) spread_read fun space t hle _ _ => ?_
  split
  · refine Program.Safe.bind (atomically_safe fun t' hle' => ?_) fun job t₂ _ _ => ?_
    · refine ⟨key, digest, rfl, rfl, hne, (h.mono hle).mono hle', fun path hpath => ?_⟩
      obtain rfl := Option.some.inj hpath
      rfl
    · refine Program.Safe.bind (spread_free rfl) fun _ t₃ _ _ => ?_
      exact follows_ret
  · trivial

theorem hitOrSubmit_safe {ref digest key serving : PyStr} {origin : Origin}
    (h : Bound setup s key digest) (hne : digest ≠ []) :
    Follows setup (hitOrSubmit setup ref digest key serving origin) (fun _ _ => True) s := by
  refine Program.Safe.step (act_guarantees hsha) spread_read fun found t hle _ _ => ?_
  split
  · refine Program.Safe.step (act_guarantees hsha) spread_read fun ok t₂ hle₂ _ _ => ?_
    split
    · exact recordHit_safe ((h.mono hle).mono hle₂)
    · refine Program.Safe.step (act_guarantees hsha)
        (spread_safe (binds_of_only (invalidateArtifact_free key) t₂)) fun _ t₃ hle₃ _ _ => ?_
      exact submitCompile_safe hsha (((h.mono hle).mono hle₂).mono hle₃) hne
  · exact submitCompile_safe hsha (h.mono hle) hne

/-- **An ingestion derives every key from the bytes it ingests.** -/
theorem ingestSource_safe {ref : PyStr} {data : Bytes} {origin : Origin} {contract : Json}
    {refresh : Bool}
    (h : origin ≠ .importedRai → setup.inspect data = .ok contract) :
    Follows setup (ingestSource setup ref data origin contract refresh)
      (fun _ _ => True) s := by
  refine Program.Safe.bind spread_read fun moved t _ _ => ?_
  split
  · exact Program.Safe.bind (spread_free rfl) fun _ _ _ _ => trivial
  · refine Program.Safe.bind (ingestBytes_safe hsha data origin.fileName)
      fun _ t hs hstored => ?_
    refine Program.Safe.step (act_guarantees hsha) (spread_free rfl) fun _ t₂ hle₂ _ _ => ?_
    refine Program.Safe.step (act_guarantees hsha) (spread_free rfl) fun _ t₃ hle₃ _ _ => ?_
    split
    · exact follows_ret
    · rename_i horigin
      split
      · trivial
      · rename_i key serving hkeys
        have hkey := keysOf_keyOf (h horigin) hkeys
        refine hitOrSubmit_safe hsha ⟨data, ?_, hkey⟩ (setup.sha256_ne_nil data)
        exact (hstored.mono hle₂).mono hle₃

theorem prepare_safe (ref kind : PyStr) (refresh : Bool) (acquired : Acquired) :
    Follows setup (prepare setup ref kind refresh acquired) (fun _ _ => True) s := by
  refine Program.Safe.bind (spread_free rfl) fun _ t _ _ => ?_
  refine Program.Safe.bind (spread_safe (whenever_safe rfl)) fun _ t₂ _ _ => ?_
  cases acquired with
  | fetchFailed e =>
      refine Program.Safe.bind spread_read fun key t₃ _ _ => ?_
      cases key with
      | none => trivial
      | some key => exact spread_free rfl
  | bytes data origin =>
      cases origin with
      | importedRai =>
          exact Program.Safe.bind (ingestSource_safe hsha fun hne => absurd rfl hne)
            fun _ _ _ _ => follows_ret
      | _ =>
          refine Program.Safe.bind (inspectChecked_safe ref data)
            fun contract _ _ hinspect => ?_
          exact Program.Safe.bind (ingestSource_safe hsha fun _ => hinspect)
            fun _ _ _ _ => follows_ret

theorem prepareCall_safe (ref kind : PyStr) (refresh : Bool) (acquisition : Acquisition) :
    Follows setup (prepareCall setup ref kind refresh acquisition) (fun _ _ => True) s := by
  cases acquisition with
  | unparsed e => trivial
  | refused e =>
      refine Program.Safe.bind (spread_free rfl) fun _ t _ _ => ?_
      exact Program.Safe.bind (spread_safe (whenever_safe rfl)) fun _ _ _ _ => trivial
  | acquired acquired => exact prepare_safe hsha ref kind refresh acquired

theorem reconcileConfigured_safe (found : PyStr → Found) :
    Follows setup (reconcileConfigured setup found) (fun _ _ => True) s := by
  refine Program.Safe.forEach fun model _ t _ => ?_
  refine Program.Safe.bind
    (Program.Safe.attempt (prepareCall_safe hsha _ _ _ _)) fun outcome t' _ _ => ?_
  split
  · exact follows_ret
  · trivial
  · exact follows_ret

theorem ingestZmqBytes_safe (data : Bytes) :
    Follows setup (ingestZmqBytes setup data) (fun _ _ => True) s := by
  unfold ingestZmqBytes
  split
  · trivial
  · rename_i contract hinspect
    refine Program.Safe.bind (spread_free rfl) fun _ t _ _ => ?_
    refine Program.Safe.bind (spread_free rfl) fun _ t₂ _ _ => ?_
    exact Program.Safe.bind (ingestSource_safe hsha fun _ => hinspect)
      fun _ _ _ _ => follows_ret

/-- A retry resumes a row under its own key. -/
theorem retryDue_safe : Follows setup (retryDue setup) (fun _ _ => True) s := by
  refine Program.Safe.bind (Q := fun t rows => ∀ row ∈ rows, Known t row)
    (spread_safe (binds_read fun s' _ hs t hle row hrow => ?_)) fun rows t _ hrows => ?_
  · exact Known.mono (hs.rows row (List.mem_filter.mp hrow).1) hle
  · refine Program.Safe.forEach_step (act_guarantees hsha) fun row hrow t' hle _ => ?_
    refine Program.Safe.bind (atomically_safe fun t'' hle' => ?_) fun _ _ _ _ => follows_ret
    exact ⟨row.memory, ((hrows row hrow).mono hle).mono hle', rfl, rfl⟩

theorem pumpJobs_safe (dt : Int) : Follows setup (FrigateXdna.pump setup dt)
    (fun _ _ => True) s := by
  refine Program.Safe.bind (retryDue_safe hsha) fun _ t _ _ => ?_
  refine Program.Safe.bind spread_read fun rows t₂ _ _ => ?_
  exact Program.Safe.forEach fun row _ _ _ => spread_safe (pumpOne_safe hsha row.uuid dt)

/-- **Every task of the process is safe.** -/
theorem Task.safe (task : Task) : Follows setup (task.program setup) (fun _ _ => True) s := by
  cases task with
  | construct => exact spread_safe construct_safe
  | prepare ref kind refresh acquired => exact prepare_safe hsha ref kind refresh acquired
  | reconcile found => exact reconcileConfigured_safe hsha found
  | upload data => exact ingestZmqBytes_safe hsha data
  | requeue ref => exact requeueRef_safe ref
  | pump dt => exact pumpJobs_safe hsha dt
  | wait uuid dt pumping => exact spread_safe (waitStep_safe hsha uuid dt pumping)

end Threads

/-! ## Runs -/

namespace Process

/-- The state is sound, and so is what every thread still does. -/
abbrev Secure (setup : Setup) (P : Process) : Prop :=
  Pool.Safe (Act.exec setup) (soundRely setup) (fun _ => ActAllowed setup) P

section Runs

variable (hsha : Function.Injective setup.sha256)

include hsha

/-- A new process on a sound data dir. -/
theorem boot_secure (h : Sound setup s) (bootToken : PyStr) :
    Secure setup (boot setup bootToken s) where
  holds := h.crash bootToken
  threads := by
    intro th hth
    obtain rfl := List.mem_singleton.mp hth
    exact Task.safe hsha .construct

theorem first_secure (bootToken : PyStr) : Secure setup (first setup bootToken) :=
  boot_secure hsha (Sound.initial []) bootToken

/-- **Every step keeps the process sound.** -/
theorem step_secure {P P' : Process} {l : Label} {es : List Event} (h : Secure setup P)
    (hstep : step setup P l = some (P', es)) : Secure setup P' := by
  cases l with
  | start task =>
      simp only [step] at hstep
      split at hstep
      · contradiction
      · cases hstep
        exact h.start (Task.safe hsha task)
  | turn i =>
      simp only [step] at hstep
      split at hstep
      · contradiction
      · obtain ⟨Q, hturn, hQ⟩ := Option.map_eq_some_iff.mp hstep
        cases hQ
        exact Pool.turn_safe h (fun _ a _ _ ha => act_guarantees hsha P.shared a h.holds ha)
          hturn
  | abort i =>
      simp only [step] at hstep
      split at hstep
      · contradiction
      · cases hstep
        exact ⟨h.holds, fun th hth => h.threads th (List.mem_of_mem_eraseIdx hth)⟩
  | outside e =>
      obtain ⟨t, ht, hP⟩ := Option.map_eq_some_iff.mp hstep
      cases hP
      obtain ⟨hsound, hgrows⟩ := h.holds.happen ht
      exact h.outside hsound hgrows
  | crash token =>
      cases hstep
      exact boot_secure hsha h.holds token

/-- **Every artifact is bound to its content.**  In every reachable state an artifact row
names a stored source: its key is the compile key of the digest of the stored bytes, of
the pinned recipe and of their input geometry, and on a host with compilers the compile
that produced the artifact read exactly the stored bytes.  Distinct bytes have distinct
digests. -/
theorem content_bound {bootToken : PyStr} {labels : List Label} {P : Process}
    {es : List Event}
    (hrun : (machine setup).exec labels (first setup bootToken) = some (P, es)) :
    ∀ a ∈ P.shared.registry.artifacts, ∃ data, Stored P.shared a.sourceSha256 data ∧
      KeyOf setup a.compileKey a.sourceSha256 data ∧
      (setup.real = true → ∃ p ∈ P.shared.productions, p.compileKey = a.compileKey ∧
        p.artifactSha256 = a.artifactSha256 ∧ p.read = data) := by
  intro a ha
  have hsecure : Secure setup P :=
    (machine setup).exec_invariant (I := Secure setup)
      (fun _ _ _ _ h hstep => step_secure hsha h hstep) (first_secure hsha bootToken) hrun
  obtain ⟨⟨data, hstored, hkey⟩, hcompiled⟩ := hsecure.holds.artifacts a ha
  refine ⟨data, hstored, hkey, fun hreal => ?_⟩
  obtain ⟨p, hp, hpkey, hpsha, fileName, hread⟩ := hcompiled hreal
  refine ⟨p, hp, hpkey, hpsha, hsha ?_⟩
  exact (hsecure.holds.stored _ _ hread).trans hkey.digest.symm

end Runs

/-- The model is uploaded and compiled, on a host with compilers. -/
def compiledUpload : List Label :=
  sampleUpload ++ [.start (.pump 1)] ++ turns 0 8 ++
    [.outside (.compiled (py "job-" ++ [0])
      (some { returncode := 0, rai := some (some [114, 97, 105]) })), .start (.pump 1)] ++
    turns 0 20

/-- An artifact that was compiled from the uploaded model. -/
theorem content_bound_compiledUpload :
    ∃ P es, (machine compilingSetup).exec compiledUpload
        (first compilingSetup (py "boot")) = some (P, es) ∧
      P.shared.registry.artifacts.length = 1 ∧
      ∀ a ∈ P.shared.registry.artifacts, ∃ data, Stored P.shared a.sourceSha256 data ∧
        KeyOf compilingSetup a.compileKey a.sourceSha256 data ∧
        (compilingSetup.real = true → ∃ p ∈ P.shared.productions,
          p.compileKey = a.compileKey ∧ p.artifactSha256 = a.artifactSha256 ∧
            p.read = data) := by
  have hends : (machine compilingSetup).endsIn compiledUpload
      (first compilingSetup (py "boot"))
      (fun P => P.shared.registry.artifacts.length == 1) = true := by
    decide +kernel
  obtain ⟨P, es, hrun, hone⟩ := (machine compilingSetup).exists_exec_of_endsIn hends
  exact ⟨P, es, hrun, by simpa using hone, content_bound sampleSha256_injective hrun⟩

end Process
end FrigateXdna
