import FrigateXdna.Cache.Recover
import FrigateXdna.Library.Passes

/-!
# When recovery does what it is for

Each pass of {lit}`recover` handles its names in order.  What an entry meets at its turn is
what stood there at first, or what an earlier entry has left; an invariant for each pass says
which, and from it whether one step goes through depends on the data dir alone.

Main results:

- Theorem {lit}`DataDir.recoverWork_step`, {lit}`DataDir.recoverArtifact_step`: one step of a
  pass goes through exactly when its entry is clear.
- Theorem {lit}`DataDir.recovered_iff`: a recovery returns, keeps the committed artifacts,
  adopts what its manifest vouches for and leaves nothing for a second one, exactly when the
  data dir is recoverable.
- Theorem {lit}`DataDir.adoption_eq_adopted?`: manifests of texts are adopted as the manager
  process adopts them.
-/

namespace FrigateXdna

open Python Library

namespace DataDir

/-! ## File operations -/

/-- When an entry moves. -/
theorem moveTo_eq (h : Host) (guard : Node → Bool) (place : Folder) (name : PyStr)
    (entry : Node) :
    moveTo h guard place name entry =
      if h.nameFits name && admits guard entry (place.lookup name) then
        .ok (place.insert name entry)
      else .error .osError := by
  unfold moveTo admits
  cases hplace : place.lookup name with
  | none => cases h.nameFits name <;> simp [renameOnto, bind, Except.bind] <;> rfl
  | some old =>
      cases hguard : guard old <;> cases h.nameFits name <;> cases old <;>
        cases entry <;>
        simp [hguard, renameOnto, rmtree, Node.isReal, bind, Except.bind, pure, Except.pure]

/-- When a marker is written. -/
theorem atomicWrite_eq (h : Host) (place : Folder) (name : PyStr) :
    atomicWrite h place name =
      if h.nameFits (h.tmpName name) && !((place.lookup name).map Node.isReal).getD false then
        .ok (place.insert name .file)
      else .error .osError := by
  unfold atomicWrite
  cases hplace : place.lookup name with
  | none =>
      cases h.nameFits (h.tmpName name)
      · rfl
      · rfl
  | some old =>
      cases h.nameFits (h.tmpName name) <;> cases old <;>
        simp [renameOnto, Node.isReal, bind, Except.bind, pure, Except.pure]

/-! ## The first pass -/

/-- A job update leaves the other rows. -/
theorem getJob_setJob_ne {r : Registry} {uuid other : PyStr} {stage : Stage}
    {code progress : Option PyStr} {now : Int} (h : other ≠ uuid) :
    (r.setJob uuid stage code progress now).getJob other = r.getJob other := by
  unfold Registry.setJob Registry.modifyJob Registry.getJob
  rw [List.find?_map]
  have hsame : ((fun j : JobRow => j.uuid == other) ∘ fun j =>
      if j.uuid = uuid then
        { j with stage, errorCode := code, progress, updatedAt := now } else j) =
      fun j => j.uuid == other := by
    funext j
    by_cases hj : j.uuid = uuid <;> simp [hj]
  rw [hsame]
  cases hfind : r.jobs.find? fun j => j.uuid == other with
  | none => rfl
  | some j =>
      have hj : j.uuid = other := by simpa using List.find?_some hfind
      simp [hj, h]

@[simp]
theorem interruptJob_artifacts (r : Registry) (uuid : PyStr) (now : Int) :
    (interruptJob r uuid now).artifacts = r.artifacts := by
  unfold interruptJob
  dsimp only
  split <;> rfl

/-- The rows of other jobs stay. -/
theorem getJob_interruptJob_ne {r : Registry} {uuid other : PyStr} {now : Int}
    (h : other ≠ uuid) : (interruptJob r uuid now).getJob other = r.getJob other := by
  unfold interruptJob
  dsimp only
  split
  · exact getJob_setJob_ne h
  · exact getJob_setJob_ne h

/-- An entry that stays where it is. -/
theorem recoverWork_of_idle {h : Host} {s : DataDir × Summary} {uuid : PyStr}
    (hscratch : s.1.scratch uuid = none)
    (hname : ∀ entry, s.1.work.lookup uuid = some entry → entry.isDir = true →
      Encodable uuid) : recoverWork h s uuid = .ok s := by
  unfold scratch at hscratch
  unfold recoverWork
  cases hentry : s.1.work.lookup uuid with
  | none => rfl
  | some entry =>
      simp only [hentry] at hscratch ⊢
      cases hdir : entry.isDir with
      | false => rfl
      | true =>
          obtain ⟨data, hdata⟩ := hname entry hentry hdir
          simp only [hdir, Bool.not_true, Bool.false_eq_true, if_false] at hscratch ⊢
          cases hjob : s.1.registry.getJob uuid with
          | none => simp [hjob] at hscratch
          | some job =>
              have hterminal : job.stage.terminal = true := by
                by_contra hlive
                simp [hjob, hlive] at hscratch
              rw [hdata]
              simp [bind, Except.bind, hterminal]
              rfl

/-- A name that is no text. -/
theorem recoverWork_of_name {h : Host} {s : DataDir × Summary} {uuid : PyStr} {entry : Node}
    (hentry : s.1.work.lookup uuid = some entry) (hdir : entry.isDir = true)
    (hname : ¬Encodable uuid) : ∃ e, recoverWork h s uuid = .error e := by
  cases hdata : utf8Encode uuid with
  | ok data => exact absurd ⟨data, hdata⟩ hname
  | error e =>
      refine ⟨e, ?_⟩
      unfold recoverWork
      simp only [hentry, hdir, hdata]
      rfl

/-- An entry that is moved: where it goes, and what else changes. -/
theorem recoverWork_of_move {h : Host} {s : DataDir × Summary} {uuid name : PyStr}
    {entry : Node} (hscratch : s.1.scratch uuid = some (name, entry))
    (hname : Encodable uuid) :
    ∃ registry summary,
      registry.artifacts = s.1.registry.artifacts ∧
      (∀ other ≠ uuid, registry.getJob other = s.1.registry.getJob other) ∧
      summary.adopted = s.2.adopted ∧
      recoverWork h s uuid =
        (moveTo h Node.isDir s.1.failures name entry).map fun failures =>
          ({ s.1 with registry, work := s.1.work.erase uuid, failures }, summary) := by
  obtain ⟨data, hdata⟩ := hname
  unfold scratch at hscratch
  unfold recoverWork
  cases hentry : s.1.work.lookup uuid with
  | none => simp [hentry] at hscratch
  | some found =>
      simp only [hentry] at hscratch ⊢
      cases hdir : found.isDir with
      | false => simp [hdir] at hscratch
      | true =>
          simp only [hdir, Bool.not_true, Bool.false_eq_true, if_false] at hscratch ⊢
          rw [hdata]
          cases hjob : s.1.registry.getJob uuid with
          | none =>
              simp only [hjob, Option.some.injEq, Prod.mk.injEq] at hscratch
              obtain ⟨rfl, rfl⟩ := hscratch
              refine ⟨s.1.registry, { s.2 with orphans := s.2.orphans ++ [uuid] }, rfl,
                fun _ _ => rfl, rfl, ?_⟩
              cases moveTo h Node.isDir s.1.failures (py "orphan-" ++ uuid) found <;> rfl
          | some job =>
              cases hlive : job.stage.terminal with
              | true => simp [hjob, hlive] at hscratch
              | false =>
                  simp only [hjob, hlive, Bool.false_eq_true, if_false, Option.some.injEq,
                    Prod.mk.injEq] at hscratch ⊢
                  obtain ⟨rfl, rfl⟩ := hscratch
                  refine ⟨interruptJob s.1.registry uuid h.now,
                    { s.2 with interrupted := s.2.interrupted ++ [uuid] }, by simp,
                    fun _ hother => getJob_interruptJob_ne hother, rfl, ?_⟩
                  cases moveTo h Node.isDir s.1.failures uuid found <;> rfl

/-- Names in a strict order differ. -/
theorem ne_of_before {u v : PyStr} (h : u < v) : u ≠ v := by
  rintro rfl
  exact lt_irrefl u h

/-- Where the names before a name stand in a sorted listing. -/
theorem mem_before_iff {names pre post : List PyStr} {x v : PyStr} (hnodup : names.Nodup)
    (hsplit : sortedNames names = pre ++ x :: post) : v ∈ pre ↔ v ∈ names ∧ v < x := by
  have hsorted : (sortedNames names).Pairwise (· ≤ ·) := List.pairwise_insertionSort _ _
  have hperm : (sortedNames names).Perm names := List.perm_insertionSort _ _
  have hdistinct : (sortedNames names).Nodup := hperm.nodup_iff.mpr hnodup
  have hmem : v ∈ names ↔ v ∈ pre ++ x :: post := by rw [← hsplit, hperm.mem_iff]
  rw [hsplit, List.pairwise_append, List.pairwise_cons] at hsorted
  rw [hsplit, List.nodup_append, List.nodup_cons] at hdistinct
  obtain ⟨_, ⟨hafter, _⟩, hbefore⟩ := hsorted
  obtain ⟨_, _, hapart⟩ := hdistinct
  constructor
  · intro hv
    refine ⟨hmem.mpr (List.mem_append_left _ hv), ?_⟩
    by_contra hnot
    exact hapart v hv x List.mem_cons_self
      (le_antisymm (hbefore v hv x List.mem_cons_self) (not_lt.mp hnot))
  · rintro ⟨hv, hlt⟩
    rcases List.mem_append.mp (hmem.mp hv) with hv | hv
    · exact hv
    · rcases List.mem_cons.mp hv with rfl | hv
      · exact absurd hlt (lt_irrefl _)
      · exact absurd hlt (not_lt.mpr (hafter v hv))

/-- What is moved out of {lit}`work/` is a directory there. -/
theorem scratch_some {d : DataDir} {uuid name : PyStr} {entry : Node}
    (h : d.scratch uuid = some (name, entry)) :
    d.work.lookup uuid = some entry ∧ entry.isDir = true ∧
      (name = uuid ∨ name = py "orphan-" ++ uuid) := by
  unfold scratch at h
  cases hentry : d.work.lookup uuid with
  | none => simp [hentry] at h
  | some found =>
      cases hdir : found.isDir with
      | false => simp [hentry, hdir] at h
      | true =>
          simp only [hentry, hdir, Bool.not_true, Bool.false_eq_true, if_false] at h
          split at h
          · simp only [Option.some.injEq, Prod.mk.injEq] at h
            obtain ⟨rfl, rfl⟩ := h
            exact ⟨rfl, hdir, .inr rfl⟩
          · split at h
            · simp at h
            · simp only [Option.some.injEq, Prod.mk.injEq] at h
              obtain ⟨rfl, rfl⟩ := h
              exact ⟨rfl, hdir, .inl rfl⟩

/-- At most two entries go to one place. -/
theorem scratch_inj {d : DataDir} {u v w name : PyStr} {a b c : Node}
    (hu : d.scratch u = some (name, a)) (hv : d.scratch v = some (name, b))
    (hw : d.scratch w = some (name, c)) (hvu : v ≠ u) (hwu : w ≠ u) : v = w := by
  obtain ⟨-, -, rfl | hu'⟩ := scratch_some hu
  · obtain ⟨-, -, hv' | hv'⟩ := scratch_some hv
    · exact absurd hv'.symm hvu
    · obtain ⟨-, -, hw' | hw'⟩ := scratch_some hw
      · exact absurd hw'.symm hwu
      · exact List.append_cancel_left (hv'.symm.trans hw')
  · obtain ⟨-, -, hv' | hv'⟩ := scratch_some hv
    · obtain ⟨-, -, hw' | hw'⟩ := scratch_some hw
      · exact hv'.symm.trans hw'
      · exact absurd (List.append_cancel_left (hw'.symm.trans hu')) hwu
    · exact absurd (List.append_cancel_left (hv'.symm.trans hu')) hvu

/-- What the first pass has done when it has handled some names. -/
structure Swept (d : DataDir) (done : List PyStr) (s : DataDir × Summary) : Prop where
  artifacts : s.1.artifacts = d.artifacts
  quarantine : s.1.quarantine = d.quarantine
  rows : s.1.registry.artifacts = d.registry.artifacts
  adopted : s.2.adopted = []
  job : ∀ u, u ∉ done ∨ d.scratch u = none → s.1.registry.getJob u = d.registry.getJob u
  work : ∀ u, s.1.work.lookup u =
    if u ∈ done ∧ (d.scratch u).isSome then none else d.work.lookup u
  untouched : ∀ name, (∀ v ∈ done, ∀ a, d.scratch v ≠ some (name, a)) →
    s.1.failures.lookup name = d.failures.lookup name
  arrived : ∀ v ∈ done, ∀ name a, d.scratch v = some (name, a) →
    ∃ w ∈ done, ∃ b, d.scratch w = some (name, b) ∧ s.1.failures.lookup name = some b

/-- An entry that is not yet handled stands as it stood at first. -/
theorem Swept.scratch_eq {d : DataDir} {done : List PyStr} {s : DataDir × Summary}
    (hs : Swept d done s) {u : PyStr} (hu : u ∉ done) : s.1.scratch u = d.scratch u := by
  unfold scratch
  rw [hs.work u, hs.job u (.inl hu), if_neg (by simp [hu])]

/-- **An entry finds its place in {lit}`failures/` exactly when it is clear.** -/
theorem Swept.place_iff {h : Host} {d : DataDir} {pre post : List PyStr} {x name : PyStr}
    {entry : Node} {s : DataDir × Summary} (hs : Swept d pre s)
    (hsplit : sortedNames d.work.keys = pre ++ x :: post)
    (hclear : ∀ y ∈ pre, WorkClear h d y) (hscratch : d.scratch x = some (name, entry))
    (hname : Encodable x) :
    (h.nameFits name && admits Node.isDir entry (s.1.failures.lookup name)) = true ↔
      WorkClear h d x := by
  have hbefore : ∀ v, v ∈ pre ↔ v ∈ d.work.keys ∧ v < x := fun v =>
    mem_before_iff d.work.nodupKeys hsplit
  have hlisted : ∀ {v p}, d.scratch v = some p → v ∈ d.work.keys := fun {v p} hv => by
    rw [← AList.mem_keys, ← AList.lookup_isSome, (scratch_some hv).1]
    rfl
  rw [Bool.and_eq_true]
  by_cases htaken : ∃ v ∈ pre, ∃ a, d.scratch v = some (name, a)
  · obtain ⟨v, hv, a, hva⟩ := htaken
    obtain ⟨w, hw, b, hwb, hthere⟩ := hs.arrived v hv name a hva
    have hwx : w < x := ((hbefore w).mp hw).2
    have hdir : b.isDir = true := (scratch_some hwb).2.1
    rw [hthere]
    simp only [admits, hdir, if_true]
    constructor
    · rintro ⟨hfits, hreal⟩
      refine ⟨fun _ _ _ => hname, fun name' entry' h' => ?_,
        fun u hu name' entry' old h' hold => ?_⟩
      · obtain ⟨rfl, rfl⟩ : name = name' ∧ entry = entry' := by simpa [hscratch] using h'
        refine ⟨hfits, ?_⟩
        have hfirst := ((hclear w hw).place name b hwb).2
        cases hplace : d.failures.lookup name with
        | none => rfl
        | some there =>
            rw [hplace] at hfirst
            simp only [admits, hreal, Bool.not_true, Bool.and_false] at hfirst ⊢
            split at hfirst
            · rename_i hthereDir
              rw [if_pos hthereDir]
              exact hfirst
            · exact absurd hfirst Bool.false_ne_true
      · obtain ⟨rfl, rfl⟩ : name = name' ∧ entry = entry' := by simpa [hscratch] using h'
        obtain rfl := scratch_inj hscratch hwb hold (ne_of_before hwx) (ne_of_before hu)
        obtain rfl : b = old := by simpa [hwb] using hold
        exact hreal
    · intro hx
      exact ⟨(hx.place name entry hscratch).1, hx.earlier w hwx name entry b hscratch hwb⟩
  · have hfree : ∀ v ∈ pre, ∀ a, d.scratch v ≠ some (name, a) := fun v hv a hva =>
      htaken ⟨v, hv, a, hva⟩
    rw [hs.untouched name hfree]
    constructor
    · intro hplace
      refine ⟨fun _ _ _ => hname, fun name' entry' h' => ?_,
        fun u hu name' entry' old h' hold => ?_⟩
      · obtain ⟨rfl, rfl⟩ : name = name' ∧ entry = entry' := by simpa [hscratch] using h'
        exact hplace
      · obtain ⟨rfl, rfl⟩ : name = name' ∧ entry = entry' := by simpa [hscratch] using h'
        exact absurd hold (hfree u ((hbefore u).mpr ⟨hlisted hold, hu⟩) old)
    · intro hx
      exact hx.place name entry hscratch

/-- An entry that stays adds nothing to what was done. -/
theorem Swept.stay {d : DataDir} {pre : List PyStr} {x : PyStr} {s : DataDir × Summary}
    (hs : Swept d pre s) (hx : d.scratch x = none) : Swept d (pre ++ [x]) s := by
  refine ⟨hs.artifacts, hs.quarantine, hs.rows, hs.adopted, fun u hu => hs.job u ?_,
    fun u => ?_, fun name hname => hs.untouched name fun v hv => ?_, fun v hv name a hva => ?_⟩
  · exact hu.imp_left fun h hpre => h (List.mem_append_left _ hpre)
  · rw [hs.work u]
    by_cases hu : u = x
    · simp [hu, hx]
    · simp [hu]
  · exact hname v (List.mem_append_left _ hv)
  · rcases List.mem_append.mp hv with hv | hv
    · obtain ⟨w, hw, hb⟩ := hs.arrived v hv name a hva
      exact ⟨w, List.mem_append_left _ hw, hb⟩
    · rw [List.mem_singleton.mp hv, hx] at hva
      simp at hva

/-- An entry that is moved. -/
theorem Swept.move {d : DataDir} {pre : List PyStr} {x name : PyStr} {entry : Node}
    {s : DataDir × Summary} {registry : Registry} {summary : Summary} (hs : Swept d pre s)
    (hx : d.scratch x = some (name, entry))
    (hrows : registry.artifacts = s.1.registry.artifacts)
    (hjobs : ∀ other ≠ x, registry.getJob other = s.1.registry.getJob other)
    (hadopted : summary.adopted = s.2.adopted) :
    Swept d (pre ++ [x])
      ({ s.1 with
          registry
          work := s.1.work.erase x
          failures := s.1.failures.insert name entry }, summary) := by
  refine ⟨hs.artifacts, hs.quarantine, hrows.trans hs.rows, hadopted.trans hs.adopted,
    fun u hu => ?_, fun u => ?_, fun other hother => ?_, fun v hv other a hva => ?_⟩
  · have hne : u ≠ x := by
      rintro rfl
      simp [hx] at hu
    exact (hjobs u hne).trans
      (hs.job u (hu.imp_left fun h hpre => h (List.mem_append_left _ hpre)))
  · by_cases hu : u = x
    · subst hu
      simp [hx]
    · simp [AList.lookup_erase_ne hu, hs.work u, hu]
  · have hne : other ≠ name := by
      rintro rfl
      exact hother x (by simp) entry hx
    exact (AList.lookup_insert_ne hne).trans
      (hs.untouched other fun v hv => hother v (List.mem_append_left _ hv))
  · by_cases hne : other = name
    · subst hne
      exact ⟨x, by simp, entry, hx, AList.lookup_insert _⟩
    · rcases List.mem_append.mp hv with hv | hv
      · obtain ⟨w, hw, b, hwb, hthere⟩ := hs.arrived v hv other a hva
        exact ⟨w, List.mem_append_left _ hw, b, hwb,
          (AList.lookup_insert_ne hne).trans hthere⟩
      · rw [List.mem_singleton.mp hv, hx] at hva
        simp only [Option.some.injEq, Prod.mk.injEq] at hva
        exact absurd hva.1.symm hne

/-- **One step of the first pass.** -/
theorem recoverWork_step {h : Host} {d : DataDir} {pre post : List PyStr} {x : PyStr}
    {s : DataDir × Summary} (hsplit : sortedNames d.work.keys = pre ++ x :: post)
    (hclear : ∀ y ∈ pre, WorkClear h d y) (hs : Swept d pre s) :
    (WorkClear h d x ∧ ∃ t, recoverWork h s x = .ok t ∧ Swept d (pre ++ [x]) t) ∨
      (¬WorkClear h d x ∧ ∃ e, recoverWork h s x = .error e) := by
  have hpre : x ∉ pre := fun hx =>
    ne_of_before ((mem_before_iff d.work.nodupKeys hsplit).mp hx).2 rfl
  have hwork : s.1.work.lookup x = d.work.lookup x := by
    rw [hs.work x, if_neg (by simp [hpre])]
  by_cases hname : ∀ entry, d.work.lookup x = some entry → entry.isDir = true → Encodable x
  · cases hscratch : d.scratch x with
    | none =>
        refine .inl ⟨⟨hname, by simp [hscratch], by simp [hscratch]⟩, s,
          recoverWork_of_idle ?_ ?_, hs.stay hscratch⟩
        · rw [hs.scratch_eq hpre, hscratch]
        · rw [hwork]
          exact hname
    | some p =>
        obtain ⟨name, entry⟩ := p
        obtain ⟨hentry, hdir, -⟩ := scratch_some hscratch
        have henc : Encodable x := hname entry hentry hdir
        have hhere : s.1.scratch x = some (name, entry) := by
          rw [hs.scratch_eq hpre, hscratch]
        obtain ⟨registry, summary, hrows, hjobs, hadopted, hrun⟩ :=
          recoverWork_of_move (h := h) hhere henc
        have hplace := hs.place_iff hsplit hclear hscratch henc
        rw [hrun, moveTo_eq]
        by_cases hx : WorkClear h d x
        · rw [if_pos (hplace.mpr hx)]
          exact .inl ⟨hx, _, rfl, hs.move hscratch hrows hjobs hadopted⟩
        · rw [if_neg fun hyes => hx (hplace.mp hyes)]
          exact .inr ⟨hx, _, rfl⟩
  · push Not at hname
    obtain ⟨entry, hentry, hdir, hbad⟩ := hname
    refine .inr ⟨fun hx => hbad (hx.name entry hentry hdir), ?_⟩
    exact recoverWork_of_name (hwork.trans hentry) hdir hbad

/-- The first pass. -/
theorem sweep_cases (h : Host) (d : DataDir) :
    ((∀ x ∈ sortedNames d.work.keys, WorkClear h d x) ∧
      ∃ t, (sortedNames d.work.keys).foldlM (recoverWork h) (d, {}) = .ok t ∧
        Swept d (sortedNames d.work.keys) t) ∨
      ((¬∀ x ∈ sortedNames d.work.keys, WorkClear h d x) ∧
        ∃ e, (sortedNames d.work.keys).foldlM (recoverWork h) (d, {}) = .error e) :=
  pass_cases (fun _ _ _ _ hsplit hclear hs => recoverWork_step hsplit hclear hs)
    ⟨rfl, rfl, rfl, rfl, fun _ _ => rfl, fun _ => by simp, fun _ _ => rfl, by simp⟩

/-! ## The second pass -/

/-- A marker comes after its key. -/
theorem before_marker (key : PyStr) : key < marker key := by
  unfold marker
  induction key with
  | nil => decide
  | cons c rest ih => exact List.cons_lt_cons_iff.mpr (.inr ⟨rfl, ih⟩)

/-- Keys with one marker are one. -/
theorem marker_injective : Function.Injective marker := fun _ _ h =>
  List.append_cancel_right h

/-- An entry with a row. -/
theorem recoverArtifact_of_row {h : Host} {s : DataDir × Summary} {key : PyStr}
    (hname : Encodable key) (hrow : (s.1.registry.getArtifact key).isSome = true) :
    recoverArtifact h s key = .ok s := by
  obtain ⟨data, hdata⟩ := hname
  unfold recoverArtifact
  simp only [hdata, hrow]
  rfl

/-- A name that is no text. -/
theorem recoverArtifact_of_name {h : Host} {s : DataDir × Summary} {key : PyStr}
    (hname : ¬Encodable key) : ∃ e, recoverArtifact h s key = .error e := by
  cases hdata : utf8Encode key with
  | ok data => exact absurd ⟨data, hdata⟩ hname
  | error e =>
      refine ⟨e, ?_⟩
      unfold recoverArtifact
      rw [hdata]
      rfl

/-- An entry without a row. -/
theorem recoverArtifact_of_rowless {h : Host} {s : DataDir × Summary} {key : PyStr}
    {entry : Node} (hname : Encodable key) (hrowless : s.1.Rowless key entry) :
    recoverArtifact h s key =
      match adoption h key entry with
      | .error e => .error e
      | .ok (.adopted row) =>
          .ok ({ s.1 with registry := (row.map s.1.registry.addArtifact).getD s.1.registry },
            { s.2 with adopted := s.2.adopted ++ [key] })
      | .ok .refused =>
          if (h.nameFits key && admits (fun old => old.isDir || old.isLink) entry
              (s.1.quarantine.lookup key)) &&
            (h.nameFits (h.tmpName (marker key)) &&
              !((s.1.quarantine.lookup (marker key)).map Node.isReal).getD false) then
            .ok ({ s.1 with
                artifacts := s.1.artifacts.erase key
                quarantine := (s.1.quarantine.insert key entry).insert (marker key) .file },
              { s.2 with quarantined := s.2.quarantined ++ [key] })
          else .error .osError := by
  obtain ⟨data, hdata⟩ := hname
  have hmarker : marker key ≠ key := (ne_of_before (before_marker key)).symm
  unfold recoverArtifact
  simp only [hdata, hrowless.1, hrowless.2]
  cases hadopt : adoption h key entry with
  | error e => rfl
  | ok a =>
      cases a with
      | adopted row => rfl
      | refused =>
          simp only [bind, Except.bind, pure, Except.pure, Option.isSome_none,
            Bool.false_eq_true, if_false, moveTo_eq]
          by_cases hmove : (h.nameFits key && admits (fun old => old.isDir || old.isLink) entry
              (s.1.quarantine.lookup key)) = true
          · simp only [hmove, if_true, Bool.true_and, atomicWrite_eq,
              AList.lookup_insert_ne hmarker]
            by_cases hmark : (h.nameFits (h.tmpName (marker key)) &&
                !((s.1.quarantine.lookup (marker key)).map Node.isReal).getD false) = true
            · simp only [hmark, if_true]
            · simp only [hmark, if_false, Bool.false_eq_true]
          · simp only [hmove, if_false, Bool.false_and, Bool.false_eq_true]

/-- What the second pass has done when it has handled some keys. -/
structure Sifted (h : Host) (d : DataDir) (done : List PyStr) (s : DataDir × Summary) :
    Prop where
  work : s.1.work = d.work
  jobs : s.1.registry.jobs = d.registry.jobs
  row : ∀ k ∉ done, s.1.registry.getArtifact k = d.registry.getArtifact k
  rows : ∀ k, (d.registry.getArtifact k).isSome = true →
    s.1.registry.getArtifact k = d.registry.getArtifact k
  skipped : ∀ k entry, d.Rowless k entry → adoption h k entry = .ok (.adopted none) →
    s.1.registry.getArtifact k = none
  stored : ∀ k ∈ done, ∀ entry row, d.Rowless k entry →
    adoption h k entry = .ok (.adopted (some row)) →
    (s.1.registry.getArtifact k).isSome = true
  gone : ∀ k ∈ done, Refused h d k → s.1.artifacts.lookup k = none
  entry : ∀ k, ¬(k ∈ done ∧ Refused h d k) → s.1.artifacts.lookup k = d.artifacts.lookup k
  adopted : ∀ k, k ∈ s.2.adopted ↔
    k ∈ done ∧ ∃ entry row, d.Rowless k entry ∧ adoption h k entry = .ok (.adopted row)
  marked : ∀ k ∈ done, Refused h d k → ∀ name ∉ done, marker k = name →
    s.1.quarantine.lookup name = some .file
  unmarked : ∀ name ∉ done, (∀ k ∈ done, Refused h d k → marker k ≠ name) →
    s.1.quarantine.lookup name = d.quarantine.lookup name

/-- A refused entry has no row, and is refused once looked at. -/
theorem Rowless.unique {d : DataDir} {key : PyStr} {a b : Node} (ha : d.Rowless key a)
    (hb : d.Rowless key b) : a = b :=
  Option.some.inj (ha.2.symm.trans hb.2)

/-- **A refused entry finds its place in {lit}`quarantine/` exactly when it is clear.** -/
theorem Sifted.place_iff {h : Host} {d : DataDir} {pre post : List PyStr} {x : PyStr}
    {entry : Node} {s : DataDir × Summary} (hs : Sifted h d pre s)
    (hsplit : sortedNames d.artifacts.keys = pre ++ x :: post) :
    ((h.nameFits x && admits (fun old => old.isDir || old.isLink) entry
        (s.1.quarantine.lookup x)) &&
      (h.nameFits (h.tmpName (marker x)) &&
        !((s.1.quarantine.lookup (marker x)).map Node.isReal).getD false)) = true ↔
      QuarantineClear h d x entry := by
  have hbefore : ∀ v, v ∈ pre ↔ v ∈ d.artifacts.keys ∧ v < x := fun v =>
    mem_before_iff d.artifacts.nodupKeys hsplit
  have hx : x ∉ pre := fun hmem => ne_of_before ((hbefore x).mp hmem).2 rfl
  have hlater : marker x ∉ pre := fun hmem =>
    lt_asymm (before_marker x) ((hbefore _).mp hmem).2
  have hplace : s.1.quarantine.lookup (marker x) = d.quarantine.lookup (marker x) := by
    refine hs.unmarked _ hlater fun k hk _ hmark => ?_
    rw [marker_injective hmark] at hk
    exact hx hk
  have hfirst : ∀ k, Refused h d k → marker k = x → k ∈ pre := by
    rintro k ⟨e, hk, _⟩ rfl
    refine (hbefore k).mpr ⟨?_, before_marker k⟩
    rw [← AList.mem_keys, ← AList.lookup_isSome, hk.2]
    rfl
  rw [hplace]
  by_cases hmarked : ∃ k, Refused h d k ∧ marker k = x
  · obtain ⟨k, hk, hmark⟩ := hmarked
    rw [hs.marked k (hfirst k hk hmark) hk x hx hmark]
    simp only [admits, Node.isDir, Node.content?, Option.isSome_none, Node.isLink, Bool.or_self,
      Bool.false_eq_true, if_false, Node.isReal, Bool.not_false, Bool.true_and, Bool.and_eq_true,
      Bool.not_eq_true']
    constructor
    · rintro ⟨⟨hfits, hreal⟩, hmfits, hmplace⟩
      refine ⟨hfits, hmfits, fun old hold => ?_, fun _ _ _ => hreal, fun hno => ?_⟩
      · rw [hold] at hmplace
        exact hmplace
      · exact absurd ⟨k, hk, hmark⟩ hno
    · intro hq
      refine ⟨⟨hq.fits, hq.marked k hk hmark⟩, hq.marker_fits, ?_⟩
      cases hold : d.quarantine.lookup (marker x) with
      | none => rfl
      | some old => exact hq.marker_place old hold
  · rw [hs.unmarked x hx fun k _ hk hmark => hmarked ⟨k, hk, hmark⟩]
    simp only [Bool.and_eq_true, Bool.not_eq_true']
    constructor
    · rintro ⟨⟨hfits, hadmits⟩, hmfits, hmplace⟩
      refine ⟨hfits, hmfits, fun old hold => ?_, fun k hk hmark => ?_, fun _ => hadmits⟩
      · rw [hold] at hmplace
        exact hmplace
      · exact absurd ⟨k, hk, hmark⟩ hmarked
    · intro hq
      refine ⟨⟨hq.fits, hq.place hmarked⟩, hq.marker_fits, ?_⟩
      cases hold : d.quarantine.lookup (marker x) with
      | none => rfl
      | some old => exact hq.marker_place old hold

/-- An entry with a row adds nothing to what was done. -/
theorem Sifted.stay {h : Host} {d : DataDir} {pre : List PyStr} {x : PyStr}
    {s : DataDir × Summary} (hs : Sifted h d pre s)
    (hx : ∀ entry, ¬d.Rowless x entry) : Sifted h d (pre ++ [x]) s := by
  have hrefused : ¬Refused h d x := fun ⟨entry, hr, _⟩ => hx entry hr
  refine ⟨hs.work, hs.jobs, fun k hk => hs.row k fun hp => hk (List.mem_append_left _ hp),
    hs.rows, hs.skipped, fun k hk => ?_, fun k hk hr => ?_, fun k hk => hs.entry k ?_,
    fun k => ?_, fun k hk => ?_, fun name hname hno => ?_⟩
  · rcases List.mem_append.mp hk with hk | hk
    · exact hs.stored k hk
    · rw [List.mem_singleton.mp hk]
      exact fun entry _ hr => absurd hr (hx entry)
  · rcases List.mem_append.mp hk with hk | hk
    · exact hs.gone k hk hr
    · rw [List.mem_singleton.mp hk] at hr
      exact absurd hr hrefused
  · exact fun hno => hk ⟨List.mem_append_left _ hno.1, hno.2⟩
  · rw [hs.adopted k]
    constructor
    · rintro ⟨hk, hrest⟩
      exact ⟨List.mem_append_left _ hk, hrest⟩
    · rintro ⟨hk, entry, row, hr, hadopt⟩
      rcases List.mem_append.mp hk with hk | hk
      · exact ⟨hk, entry, row, hr, hadopt⟩
      · rw [List.mem_singleton.mp hk] at hr
        exact absurd hr (hx entry)
  · rcases List.mem_append.mp hk with hk | hk
    · exact fun hr name hname => hs.marked k hk hr name fun hp =>
        hname (List.mem_append_left _ hp)
    · rw [List.mem_singleton.mp hk]
      exact fun hr => absurd hr hrefused
  · exact hs.unmarked name (fun hp => hname (List.mem_append_left _ hp)) fun k hk =>
      hno k (List.mem_append_left _ hk)

/-- What an adopted entry holds. -/
theorem adoption_adopted {h : Host} {key : PyStr} {entry : Node} {row : Option ArtifactRow}
    (hadopt : adoption h key entry = .ok (.adopted row)) :
    ∃ content data fields model,
      entry.content? = some content ∧ content.manifest = some data ∧
      loads h.jsonLimit data = .ok (.obj fields) ∧
      lookupField (py "compile_key") fields = some (.str key) ∧
      content.model = some model ∧
      lookupField (py "artifact_sha256") fields = some (.str (h.sha256 model)) ∧
      storedRow h key (h.sha256 model) ((lookupField (py "source_sha256") fields).getD .null)
        ((lookupField (py "recipe_id") fields).getD .null)
        ((lookupField (py "target_profile") fields).getD (.str [])) = .ok row := by
  have named : ∀ {name : PyStr} {fields : List (PyStr × Json)} {text : PyStr},
      ((lookupField name fields).getD .null).eqStr text = true →
        lookupField name fields = some (.str text) := by
    intro name fields text heq
    cases hfield : lookupField name fields with
    | none => simp [hfield, Json.eqStr] at heq
    | some value => cases value <;> simp_all [Json.eqStr]
  unfold adoption at hadopt
  cases htry : tryAdopt h key entry with
  | error e =>
      rw [htry] at hadopt
      dsimp only at hadopt
      split at hadopt <;> simp at hadopt
  | ok a =>
      rw [htry] at hadopt
      obtain rfl := Except.ok.inj hadopt
      unfold tryAdopt at htry
      cases hcontent : entry.content? with
      | none => simp [hcontent, bind, Except.bind] at htry
      | some content =>
          cases hmanifest : content.manifest with
          | none => simp [hcontent, hmanifest, bind, Except.bind] at htry
          | some data =>
              cases hloads : loads h.jsonLimit data with
              | error e => simp [hcontent, hmanifest, hloads, bind, Except.bind] at htry
              | ok json =>
                  cases json with
                  | obj fields =>
                      simp only [hcontent, hmanifest, hloads, bind, Except.bind, pure,
                        Except.pure, Option.bind_some, Option.elim_some] at htry
                      split at htry
                      · rename_i hkey
                        cases hmodel : content.model with
                        | none => simp [hmodel] at htry
                        | some model =>
                            simp only [hmodel, Option.elim_some] at htry
                            split at htry
                            · rename_i hrest
                              simp only [Bool.and_eq_true] at hrest
                              split at htry
                              · simp at htry
                              · rename_i stored hstored
                                obtain rfl := Adoption.adopted.inj (Except.ok.inj htry)
                                exact ⟨content, data, fields, model, rfl, hmanifest, hloads,
                                  named hkey, hmodel, named hrest.1.1, hstored⟩
                            · simp at htry
                      · simp at htry
                  | _ =>
                      simp [hcontent, hmanifest, hloads, bind, Except.bind, pure,
                        Except.pure] at htry

/-- A stored row stands under its key. -/
theorem storedRow_compileKey {h : Host} {key sha256 : PyStr} {source recipe target : Json}
    {row : ArtifactRow} (hrow : storedRow h key sha256 source recipe target = .ok (some row)) :
    row.compileKey = key := by
  unfold storedRow at hrow
  cases hs : bindColumn h source with
  | error e => simp [hs, bind, Except.bind] at hrow
  | ok s =>
      cases hr : bindColumn h recipe with
      | error e => simp [hs, hr, bind, Except.bind] at hrow
      | ok r =>
          cases ht : bindColumn h target with
          | error e => simp [hs, hr, ht, bind, Except.bind] at hrow
          | ok t =>
              rw [hs, hr, ht] at hrow
              cases s <;> cases r <;> cases t <;>
                try simp [bind, Except.bind, pure, Except.pure] at hrow
              exact congrArg ArtifactRow.compileKey hrow.symm

/-- An entry that is reported as adopted. -/
theorem Sifted.adopt {h : Host} {d : DataDir} {pre : List PyStr} {x : PyStr} {entry : Node}
    {row : Option ArtifactRow} {s : DataDir × Summary} (hs : Sifted h d pre s) (hpre : x ∉ pre)
    (hx : d.Rowless x entry) (hadopt : adoption h x entry = .ok (.adopted row)) :
    Sifted h d (pre ++ [x])
      ({ s.1 with registry := (row.map s.1.registry.addArtifact).getD s.1.registry },
        { s.2 with adopted := s.2.adopted ++ [x] }) := by
  have hrefused : ¬Refused h d x := by
    rintro ⟨other, hr, hadopt'⟩
    rw [hr.unique hx, hadopt] at hadopt'
    simp at hadopt'
  have hkey : ∀ r, row = some r → r.compileKey = x := by
    rintro r rfl
    obtain ⟨_, _, _, _, _, _, _, _, _, _, hstored⟩ := adoption_adopted hadopt
    exact storedRow_compileKey hstored
  have hothers : ∀ k, k ≠ x →
      ((row.map s.1.registry.addArtifact).getD s.1.registry).getArtifact k =
        s.1.registry.getArtifact k := by
    intro k hk
    cases row with
    | none => rfl
    | some r => exact Registry.getArtifact_addArtifact_ne (by rw [hkey r rfl]; exact hk.symm)
  have hhere : s.1.registry.getArtifact x = none := (hs.row x hpre).trans hx.1
  refine ⟨hs.work, ?_, fun k hk => ?_, fun k hk => ?_, fun k e hr hk => ?_,
    fun k hk e r hr hk' => ?_, fun k hk hr => ?_, fun k hk => hs.entry k ?_, fun k => ?_,
    fun k hk hr name hname => ?_, fun name hname hno => ?_⟩
  · cases row with
    | none => exact hs.jobs
    | some r =>
        refine Eq.trans ?_ hs.jobs
        change (s.1.registry.addArtifact r).jobs = _
        unfold Registry.addArtifact
        split <;> rfl
  · exact (hothers k (by rintro rfl; simp at hk)).trans
      (hs.row k fun hp => hk (List.mem_append_left _ hp))
  · refine (hothers k ?_).trans (hs.rows k hk)
    rintro rfl
    simp [hx.1] at hk
  · by_cases hkx : k = x
    · subst hkx
      rw [hr.unique hx, hadopt] at hk
      obtain rfl := Adoption.adopted.inj (Except.ok.inj hk)
      exact hhere
    · exact (hothers k hkx).trans (hs.skipped k e hr hk)
  · by_cases hkx : k = x
    · subst hkx
      rw [hr.unique hx, hadopt] at hk'
      obtain rfl := Adoption.adopted.inj (Except.ok.inj hk')
      change ((s.1.registry.addArtifact r).getArtifact k).isSome = true
      have hself := hkey r rfl
      subst hself
      rw [Registry.getArtifact_addArtifact_self hhere]
      rfl
    · rw [hothers k hkx]
      refine hs.stored k ?_ e r hr hk'
      simpa [hkx] using hk
  · rcases List.mem_append.mp hk with hk | hk
    · exact hs.gone k hk hr
    · rw [List.mem_singleton.mp hk] at hr
      exact absurd hr hrefused
  · exact fun hno => hk ⟨List.mem_append_left _ hno.1, hno.2⟩
  · rw [List.mem_append, hs.adopted k, List.mem_append]
    constructor
    · rintro (⟨hk, hrest⟩ | hk)
      · exact ⟨.inl hk, hrest⟩
      · refine ⟨.inr hk, ?_⟩
        rw [List.mem_singleton.mp hk]
        exact ⟨entry, row, hx, hadopt⟩
    · rintro ⟨hk | hk, hrest⟩
      · exact .inl ⟨hk, hrest⟩
      · exact .inr hk
  · rcases List.mem_append.mp hk with hk | hk
    · exact hs.marked k hk hr name fun hp => hname (List.mem_append_left _ hp)
    · rw [List.mem_singleton.mp hk] at hr
      exact absurd hr hrefused
  · exact hs.unmarked name (fun hp => hname (List.mem_append_left _ hp)) fun k hk =>
      hno k (List.mem_append_left _ hk)

/-- An entry that goes to quarantine. -/
theorem Sifted.quarantine {h : Host} {d : DataDir} {pre : List PyStr} {x : PyStr} {entry : Node}
    {s : DataDir × Summary} (hs : Sifted h d pre s) (hpre : x ∉ pre)
    (hx : d.Rowless x entry) (hadopt : adoption h x entry = .ok .refused) :
    Sifted h d (pre ++ [x])
      ({ s.1 with
          artifacts := s.1.artifacts.erase x
          quarantine := (s.1.quarantine.insert x entry).insert (marker x) .file },
        { s.2 with quarantined := s.2.quarantined ++ [x] }) := by
  have hnot : ∀ {e row}, d.Rowless x e → adoption h x e ≠ .ok (.adopted row) := by
    intro e row hr hadopt'
    rw [hr.unique hx, hadopt] at hadopt'
    simp at hadopt'
  refine ⟨hs.work, hs.jobs, fun k hk => hs.row k fun hp => hk (List.mem_append_left _ hp),
    hs.rows, hs.skipped, fun k hk e r hr hk' => ?_, fun k hk hr => ?_, fun k hk => ?_,
    fun k => ?_, fun k hk hr name hname hmark => ?_, fun name hname hno => ?_⟩
  · rcases List.mem_append.mp hk with hk | hk
    · exact hs.stored k hk e r hr hk'
    · rw [List.mem_singleton.mp hk] at hr hk'
      exact absurd hk' (hnot hr)
  · by_cases hkx : k = x
    · subst hkx
      exact AList.lookup_erase _ _
    · refine (AList.lookup_erase_ne hkx).trans (hs.gone k ?_ hr)
      simpa [hkx] using hk
  · have hkx : k ≠ x := by
      rintro rfl
      exact hk ⟨by simp, entry, hx, hadopt⟩
    refine (AList.lookup_erase_ne hkx).trans (hs.entry k fun hno => hk ?_)
    exact ⟨List.mem_append_left _ hno.1, hno.2⟩
  · rw [hs.adopted k]
    constructor
    · rintro ⟨hk, hrest⟩
      exact ⟨List.mem_append_left _ hk, hrest⟩
    · rintro ⟨hk, e, row, hr, hadopt'⟩
      rcases List.mem_append.mp hk with hk | hk
      · exact ⟨hk, e, row, hr, hadopt'⟩
      · rw [List.mem_singleton.mp hk] at hr hadopt'
        exact absurd hadopt' (hnot hr)
  · have hnx : name ≠ x := by
      rintro rfl
      simp at hname
    by_cases hm : name = marker x
    · subst hm
      exact AList.lookup_insert _
    · refine (AList.lookup_insert_ne hm).trans ((AList.lookup_insert_ne hnx).trans ?_)
      have hkx : k ≠ x := by
        rintro rfl
        exact hm hmark.symm
      exact hs.marked k (by simpa [hkx] using hk) hr name
        (fun hp => hname (List.mem_append_left _ hp)) hmark
  · have hnx : name ≠ x := by
      rintro rfl
      simp at hname
    have hm : name ≠ marker x := fun hm =>
      hno x (by simp) ⟨entry, hx, hadopt⟩ hm.symm
    exact (AList.lookup_insert_ne hm).trans ((AList.lookup_insert_ne hnx).trans
      (hs.unmarked name (fun hp => hname (List.mem_append_left _ hp)) fun k hk =>
        hno k (List.mem_append_left _ hk)))

/-- **One step of the second pass.** -/
theorem recoverArtifact_step {h : Host} {d : DataDir} {pre post : List PyStr} {x : PyStr}
    {s : DataDir × Summary} (hsplit : sortedNames d.artifacts.keys = pre ++ x :: post)
    (hs : Sifted h d pre s) :
    (ArtifactClear h d x ∧ ∃ t, recoverArtifact h s x = .ok t ∧ Sifted h d (pre ++ [x]) t) ∨
      (¬ArtifactClear h d x ∧ ∃ e, recoverArtifact h s x = .error e) := by
  have hpre : x ∉ pre := fun hx =>
    ne_of_before ((mem_before_iff d.artifacts.nodupKeys hsplit).mp hx).2 rfl
  have hlisted : x ∈ d.artifacts.keys := by
    have hperm : (sortedNames d.artifacts.keys).Perm d.artifacts.keys :=
      List.perm_insertionSort _ _
    rw [← hperm.mem_iff, hsplit]
    simp
  obtain ⟨entry, hentry⟩ : ∃ entry, d.artifacts.lookup x = some entry := by
    rw [← AList.mem_keys, ← AList.lookup_isSome] at hlisted
    exact Option.isSome_iff_exists.mp hlisted
  by_cases hname : Encodable x
  · by_cases hrow : (d.registry.getArtifact x).isSome = true
    · have hno : ∀ e, ¬d.Rowless x e := fun e hr => by simp [hr.1] at hrow
      refine .inl ⟨⟨fun _ _ => hname, fun e hr => absurd hr (hno e)⟩, s,
        recoverArtifact_of_row hname ?_, hs.stay hno⟩
      rw [hs.row x hpre]
      exact hrow
    · have hr : d.Rowless x entry := ⟨by simpa using hrow, hentry⟩
      have hhere : s.1.Rowless x entry :=
        ⟨(hs.row x hpre).trans hr.1, (hs.entry x fun hno => hpre hno.1).trans hentry⟩
      rw [recoverArtifact_of_rowless hname hhere]
      cases hadopt : adoption h x entry with
      | error e =>
          refine .inr ⟨fun hx => ?_, e, rfl⟩
          rcases hx.settled entry hr with ⟨row, hok⟩ | ⟨hok, _⟩
          · rw [hadopt] at hok
            simp at hok
          · rw [hadopt] at hok
            simp at hok
      | ok a =>
          cases a with
          | adopted row =>
              refine .inl ⟨⟨fun _ _ => hname, fun e he => .inl ⟨row, ?_⟩⟩, _, rfl,
                hs.adopt hpre hr hadopt⟩
              rw [he.unique hr]
              exact hadopt
          | refused =>
              have hplace := @Sifted.place_iff h d _ _ x entry _ hs hsplit
              by_cases hq : QuarantineClear h d x entry
              · dsimp only
                rw [if_pos (hplace.mpr hq)]
                refine .inl ⟨⟨fun _ _ => hname, fun e he => .inr ?_⟩, _, rfl,
                  hs.quarantine hpre hr hadopt⟩
                rw [he.unique hr]
                exact ⟨hadopt, hq⟩
              · dsimp only
                rw [if_neg fun hyes => hq (hplace.mp hyes)]
                refine .inr ⟨fun hx => ?_, _, rfl⟩
                rcases hx.settled entry hr with ⟨row, hok⟩ | ⟨_, hq'⟩
                · rw [hadopt] at hok
                  simp at hok
                · exact hq hq'
  · refine .inr ⟨fun hx => hname (hx.name entry hentry), ?_⟩
    exact recoverArtifact_of_name hname

/-- The second pass. -/
theorem sift_cases (h : Host) (d : DataDir) {summary : Summary}
    (hsummary : summary.adopted = []) :
    ((∀ x ∈ sortedNames d.artifacts.keys, ArtifactClear h d x) ∧
      ∃ t, (sortedNames d.artifacts.keys).foldlM (recoverArtifact h) (d, summary) = .ok t ∧
        Sifted h d (sortedNames d.artifacts.keys) t) ∨
      ((¬∀ x ∈ sortedNames d.artifacts.keys, ArtifactClear h d x) ∧
        ∃ e, (sortedNames d.artifacts.keys).foldlM (recoverArtifact h) (d, summary) =
          .error e) :=
  pass_cases (fun _ _ _ _ hsplit _ hs => recoverArtifact_step hsplit hs)
    ⟨rfl, rfl, fun _ _ => rfl, fun _ _ => rfl, fun _ _ hr _ => hr.1, by simp, by simp,
      fun _ _ => rfl, by simp [hsummary], by simp, fun _ _ _ => rfl⟩

/-! ## Both passes -/

/-- What the second pass needs lies in the directories and rows that the first one keeps. -/
theorem artifactClear_congr {h : Host} {d e : DataDir}
    (hrows : e.registry.artifacts = d.registry.artifacts)
    (hartifacts : e.artifacts = d.artifacts) (hquarantine : e.quarantine = d.quarantine)
    {key : PyStr} : ArtifactClear h e key ↔ ArtifactClear h d key := by
  have hrowless : e.Rowless = d.Rowless := by
    funext k entry
    simp only [Rowless, Registry.getArtifact, hrows, hartifacts]
  have hrefused : Refused h e = Refused h d := by
    funext k
    simp only [Refused, hrowless]
  have hclear : ∀ k entry, QuarantineClear h e k entry ↔ QuarantineClear h d k entry := by
    intro k entry
    constructor
    · rintro ⟨h₁, h₂, h₃, h₄, h₅⟩
      rw [hquarantine] at h₃ h₅
      rw [hrefused] at h₄ h₅
      exact ⟨h₁, h₂, h₃, h₄, h₅⟩
    · rintro ⟨h₁, h₂, h₃, h₄, h₅⟩
      rw [← hquarantine] at h₃ h₅
      rw [← hrefused] at h₄ h₅
      exact ⟨h₁, h₂, h₃, h₄, h₅⟩
  constructor
  · rintro ⟨hname, hsettled⟩
    rw [hartifacts] at hname
    rw [hrowless] at hsettled
    exact ⟨hname, fun entry hr =>
      (hsettled entry hr).imp_right fun hq => ⟨hq.1, (hclear key entry).mp hq.2⟩⟩
  · rintro ⟨hname, hsettled⟩
    rw [← hartifacts] at hname
    rw [← hrowless] at hsettled
    exact ⟨hname, fun entry hr =>
      (hsettled entry hr).imp_right fun hq => ⟨hq.1, (hclear key entry).mpr hq.2⟩⟩

/-- Names without an entry need nothing. -/
theorem workClear_of_listed {h : Host} {d : DataDir}
    (hall : ∀ x ∈ sortedNames d.work.keys, WorkClear h d x) (uuid : PyStr) :
    WorkClear h d uuid := by
  have hperm : (sortedNames d.work.keys).Perm d.work.keys := List.perm_insertionSort _ _
  by_cases hmem : uuid ∈ sortedNames d.work.keys
  · exact hall uuid hmem
  · rw [hperm.mem_iff, ← AList.mem_keys, ← AList.lookup_isSome] at hmem
    have hnone : d.work.lookup uuid = none := by simpa using hmem
    have hscratch : d.scratch uuid = none := by
      unfold scratch
      rw [hnone]
    exact ⟨by simp [hnone], by simp [hscratch], by simp [hscratch]⟩

/-- Keys without an entry need nothing. -/
theorem artifactClear_of_listed {h : Host} {d : DataDir}
    (hall : ∀ x ∈ sortedNames d.artifacts.keys, ArtifactClear h d x) (key : PyStr) :
    ArtifactClear h d key := by
  have hperm : (sortedNames d.artifacts.keys).Perm d.artifacts.keys :=
    List.perm_insertionSort _ _
  by_cases hmem : key ∈ sortedNames d.artifacts.keys
  · exact hall key hmem
  · rw [hperm.mem_iff, ← AList.mem_keys, ← AList.lookup_isSome] at hmem
    have hnone : d.artifacts.lookup key = none := by simpa using hmem
    exact ⟨by simp [hnone], fun entry hr => by simp [hr.2] at hnone⟩

/-- **When recovery returns, and what it has done then.** -/
theorem recover_cases (h : Host) (d : DataDir) :
    (((∀ uuid, WorkClear h d uuid) ∧ ∀ key, ArtifactClear h d key) ∧
      ∃ m t, recover h d = .ok t ∧ Swept d (sortedNames d.work.keys) m ∧
        Sifted h m.1 (sortedNames d.artifacts.keys) t) ∨
      (¬((∀ uuid, WorkClear h d uuid) ∧ ∀ key, ArtifactClear h d key) ∧
        ∃ e, recover h d = .error e) := by
  unfold recover
  rcases sweep_cases h d with ⟨hall, m, hm, hswept⟩ | ⟨hnot, e, he⟩
  · rw [hm]
    have hcongr : ∀ {key}, ArtifactClear h m.1 key ↔ ArtifactClear h d key :=
      artifactClear_congr hswept.rows hswept.artifacts hswept.quarantine
    have hsift := sift_cases h m.1 hswept.adopted
    rw [hswept.artifacts] at hsift
    rcases hsift with ⟨hall', t, ht, hsifted⟩ | ⟨hnot, e, he⟩
    · refine .inl ⟨⟨workClear_of_listed hall, ?_⟩, m, t, ht, hswept, hsifted⟩
      exact artifactClear_of_listed fun x hx => hcongr.mp (hall' x hx)
    · exact .inr ⟨fun hclear => hnot fun x _ => hcongr.mpr (hclear.2 x), e, he⟩
  · rw [he]
    exact .inr ⟨fun hclear => hnot fun x _ => hclear.1 x, e, rfl⟩

/-- A data dir with nothing left to do. -/
theorem recover_idle {h : Host} {d : DataDir}
    (hnames : ∀ uuid entry, d.work.lookup uuid = some entry → entry.isDir = true →
      Encodable uuid)
    (hscratch : ∀ uuid, d.scratch uuid = none)
    (hrows : ∀ key entry, d.artifacts.lookup key = some entry →
      Encodable key ∧ (d.registry.getArtifact key).isSome = true) :
    recover h d = .ok (d, {}) := by
  have hfirst : (sortedNames d.work.keys).foldlM (recoverWork h) (d, {}) = .ok (d, {}) :=
    pass_idle fun uuid _ => recoverWork_of_idle (hscratch uuid) (hnames uuid)
  unfold recover
  rw [hfirst]
  refine pass_idle fun key hkey => ?_
  have hperm : (sortedNames d.artifacts.keys).Perm d.artifacts.keys :=
    List.perm_insertionSort _ _
  rw [hperm.mem_iff, ← AList.mem_keys, ← AList.lookup_isSome] at hkey
  obtain ⟨entry, hentry⟩ := Option.isSome_iff_exists.mp hkey
  exact recoverArtifact_of_row (hrows key entry hentry).1 (hrows key entry hentry).2

/-- After a recovery no entry of {lit}`work/` waits to be moved. -/
theorem Swept.scratch_none {d : DataDir} {s : DataDir × Summary}
    (hs : Swept d (sortedNames d.work.keys) s) (uuid : PyStr) : s.1.scratch uuid = none := by
  have hperm : (sortedNames d.work.keys).Perm d.work.keys := List.perm_insertionSort _ _
  by_cases hmem : uuid ∈ sortedNames d.work.keys
  · cases hscratch : d.scratch uuid with
    | some p =>
        unfold scratch
        rw [hs.work uuid, if_pos ⟨hmem, by simp [hscratch]⟩]
    | none =>
        rw [← hscratch]
        unfold scratch
        rw [hs.work uuid, if_neg (by simp [hscratch]), hs.job uuid (.inr hscratch)]
  · have hnone : d.work.lookup uuid = none := by
      rw [hperm.mem_iff, ← AList.mem_keys, ← AList.lookup_isSome] at hmem
      simpa using hmem
    unfold scratch
    rw [hs.work uuid, if_neg (by simp [hmem]), hnone]

/-- What recovery keeps in {lit}`artifacts/` has a row, if every adopted row was stored. -/
theorem Sifted.row_of_entry {h : Host} {d : DataDir} {s : DataDir × Summary} {key : PyStr}
    {entry : Node} (hs : Sifted h d (sortedNames d.artifacts.keys) s)
    (hclear : ArtifactClear h d key)
    (hstored : ∀ e, d.Rowless key e → adoption h key e ≠ .ok (.adopted none))
    (hentry : s.1.artifacts.lookup key = some entry) :
    d.artifacts.lookup key = some entry ∧ (s.1.registry.getArtifact key).isSome = true := by
  have hperm : (sortedNames d.artifacts.keys).Perm d.artifacts.keys :=
    List.perm_insertionSort _ _
  have hkept : ¬(key ∈ sortedNames d.artifacts.keys ∧ Refused h d key) := fun hno => by
    rw [hs.gone key hno.1 hno.2] at hentry
    simp at hentry
  have hbefore : d.artifacts.lookup key = some entry := (hs.entry key hkept).symm.trans hentry
  have hmem : key ∈ sortedNames d.artifacts.keys := by
    rw [hperm.mem_iff, ← AList.mem_keys, ← AList.lookup_isSome, hbefore]
    rfl
  refine ⟨hbefore, ?_⟩
  by_cases hrow : (d.registry.getArtifact key).isSome = true
  · rw [hs.rows key hrow]
    exact hrow
  · have hr : d.Rowless key entry := ⟨by simpa using hrow, hbefore⟩
    rcases hclear.settled entry hr with ⟨row, hadopt⟩ | ⟨hadopt, _⟩
    · cases row with
      | none => exact absurd hadopt (hstored entry hr)
      | some row => exact hs.stored key hmem entry row hr hadopt
    · exact absurd ⟨hmem, entry, hr, hadopt⟩ hkept

/-- **Recovery does what it is for exactly on the recoverable data dirs.** -/
theorem recovered_iff (h : Host) (d : DataDir) : Recovered h d ↔ Recoverable h d := by
  rcases recover_cases h d with ⟨⟨hwork, hart⟩, m, t, ht, hswept, hsifted⟩ | ⟨hnot, e, he⟩
  · have hrowless : m.1.Rowless = d.Rowless := by
      funext k entry
      simp only [Rowless, Registry.getArtifact, hswept.rows, hswept.artifacts]
    constructor
    · rintro ⟨t', summary, hrun, _, _, hagain⟩
      obtain rfl : t = (t', summary) := Except.ok.inj (ht.symm.trans hrun)
      refine ⟨hwork, hart, fun key entry hr hadopt => ?_⟩
      -- A row that was not stored is reported once more.
      have hnone : t'.registry.getArtifact key = none :=
        hsifted.skipped key entry (by rw [hrowless]; exact hr) hadopt
      have hkept : ¬(key ∈ sortedNames d.artifacts.keys ∧ Refused h m.1 key) := by
        rintro ⟨-, other, hr', hadopt'⟩
        rw [hrowless] at hr'
        rw [hr'.unique hr, hadopt] at hadopt'
        simp at hadopt'
      have hentry : t'.artifacts.lookup key = some entry := by
        rw [hsifted.entry key hkept, hswept.artifacts]
        exact hr.2
      rcases recover_cases h t' with ⟨-, m₂, t₂, ht₂, hswept₂, hsifted₂⟩ | ⟨-, e, he⟩
      · obtain rfl : t₂ = (t', {}) := Except.ok.inj (ht₂.symm.trans (hagain h.now))
        have hperm : (sortedNames t'.artifacts.keys).Perm t'.artifacts.keys :=
          List.perm_insertionSort _ _
        have hreported : key ∈ ({} : Summary).adopted := by
          refine (hsifted₂.adopted key).mpr ⟨?_, entry, none, ⟨?_, ?_⟩, hadopt⟩
          · rw [hperm.mem_iff, ← AList.mem_keys, ← AList.lookup_isSome, hentry]
            rfl
          · simp only [Registry.getArtifact, hswept₂.rows]
            exact hnone
          · rw [hswept₂.artifacts]
            exact hentry
        simp at hreported
      · rw [hagain h.now] at he
        simp at he
    · rintro ⟨-, -, hstored⟩
      have hrowEq : ∀ k, m.1.registry.getArtifact k = d.registry.getArtifact k := fun k => by
        simp only [Registry.getArtifact, hswept.rows]
      refine ⟨t.1, t.2, ht, fun key hrow => ?_, fun key hkey => ?_, fun now => ?_⟩
      · rw [hsifted.entry key, hswept.artifacts]
        rintro ⟨-, entry, hr, -⟩
        rw [hrowless] at hr
        simp [hr.1] at hrow
      · obtain ⟨-, entry, row, hr, hadopt⟩ := (hsifted.adopted key).mp hkey
        rw [hrowless] at hr
        obtain ⟨content, data, fields, model, h₁, h₂, h₃, h₄, h₅, h₆, -⟩ :=
          adoption_adopted hadopt
        exact ⟨hr.1, entry, content, data, fields, model, hr.2, h₁, h₂, h₃, h₄, h₅, h₆⟩
      · have hwork' : t.1.work = m.1.work := hsifted.work
        have hscratch : t.1.scratch = m.1.scratch := by
          funext uuid
          simp only [scratch, Registry.getJob, hwork', hsifted.jobs]
        refine recover_idle (fun uuid entry hentry hdir => ?_) (fun uuid => ?_)
          fun key entry hentry => ?_
        · rw [hwork', hswept.work uuid] at hentry
          split at hentry
          · simp at hentry
          · exact (hwork uuid).name entry hentry hdir
        · rw [hscratch]
          exact hswept.scratch_none uuid
        · have hclear : ArtifactClear h m.1 key :=
            (artifactClear_congr hswept.rows hswept.artifacts hswept.quarantine).mpr (hart key)
          rw [← hswept.artifacts] at hsifted
          obtain ⟨hbefore, hrow⟩ := hsifted.row_of_entry hclear
            (fun e hr => hstored key e (by rw [← hrowless]; exact hr)) hentry
          exact ⟨hclear.name entry hbefore, hrow⟩
  · constructor
    · rintro ⟨t, summary, hrun, _⟩
      rw [hrun] at he
      simp at he
    · exact fun hclear => absurd ⟨hclear.work, hclear.artifacts⟩ hnot

/-! ## The manager process -/

/-- The value of a text or absent field. -/
theorem bindColumn_text (h : Host) {text : PyStr} (htext : Encodable text) :
    bindColumn h (.str text) = .ok (some text) := by
  obtain ⟨data, hdata⟩ := htext
  simp only [bindColumn, hdata]

/-- **Manifests of texts are adopted as the manager process adopts them.** -/
theorem adoption_eq_adopted? {h : Host} {key : PyStr} {content : Content}
    (htexts : ∀ data fields, content.manifest = some data →
      loads h.jsonLimit data = .ok (.obj fields) →
      ∀ name ∈ [py "source_sha256", py "recipe_id", py "target_profile"], ∀ value,
        lookupField name fields = some value → ∃ text, value = .str text ∧ Encodable text) :
    adopted? h.sha256 key
        { model := content.model, manifest := content.manifest.map (loads h.jsonLimit) } =
      match adoption h key (.dir content) with
      | .ok (.adopted row) => .ok row
      | .ok .refused => .ok none
      | .error e => .error e := by
  unfold adopted? adoption tryAdopt
  cases hmanifest : content.manifest with
  | none => simp [Node.content?, hmanifest, bind, Except.bind, PyExc.isOSError]
  | some data =>
      cases hloads : loads h.jsonLimit data with
      | error e =>
          simp only [Node.content?, hmanifest, hloads, Option.map_some, Option.bind_some,
            Option.elim_some, bind, Except.bind]
          split <;> rfl
      | ok json =>
          cases json with
          | obj fields =>
              have hvalue : ∀ (name : String) (absent : Json),
                  py name ∈ [py "source_sha256", py "recipe_id", py "target_profile"] →
                  (lookupField (py name) fields).getD absent = absent ∨ ∃ text,
                    (lookupField (py name) fields).getD absent = .str text ∧ Encodable text := by
                intro name absent hname
                cases hfield : lookupField (py name) fields with
                | none => exact .inl rfl
                | some value => exact .inr (htexts data fields hmanifest hloads _ hname _ hfield)
              simp only [Node.content?, hmanifest, hloads, Option.map_some, Option.bind_some,
                Option.elim_some, bind, Except.bind, pure, Except.pure]
              by_cases hkey : ((lookupField (py "compile_key") fields).getD .null).eqStr key = true
              · simp only [hkey, Bool.not_true, Bool.false_eq_true, if_false, if_true]
                cases hmodel : content.model with
                | none => simp [PyExc.isOSError]
                | some model =>
                    simp only [Option.elim_some]
                    by_cases hsha : ((lookupField (py "artifact_sha256") fields).getD
                        .null).eqStr (h.sha256 model) = true
                    · rcases hvalue "source_sha256" .null (by simp) with hsrc | ⟨src, hsrc, hsrcE⟩
                      · simp [hsha, hsrc, Json.truthy]
                      · rcases hvalue "recipe_id" .null (by simp) with hrec | ⟨rec, hrec, hrecE⟩
                        · simp [hsha, hsrc, hrec, Json.truthy]
                        · obtain ⟨text, htext, htextE⟩ : ∃ text,
                              (lookupField (py "target_profile") fields).getD (.str []) =
                                .str text ∧ Encodable text := by
                            rcases hvalue "target_profile" (.str []) (by simp) with h' | h'
                            · exact ⟨[], h', [], rfl⟩
                            · exact h'
                          simp only [hsha, hsrc, hrec, htext, storedRow, bindColumn_text h hsrcE,
                            bindColumn_text h hrecE, bindColumn_text h htextE, bindText,
                            Bool.not_true, Bool.false_eq_true, if_false, Bool.true_and, bind,
                            Except.bind, pure, Except.pure, Option.bind_some]
                          cases (Json.str src).truthy <;> cases (Json.str rec).truthy <;> rfl
                    · simp [hsha]
              · simp [hkey]
          | _ => simp [Node.content?, hmanifest, hloads, bind, Except.bind, pure, Except.pure]

/-! ## A run -/

/-- The host of the following runs. -/
def sampleHost : Host where
  now := 0
  sha256 := fun _ => py "sha"
  jsonLimit := 100
  realText := PyFloat.repr
  nameFits := fun name => name.length ≤ 255
  tmpName := fun name => name ++ py ".tmp-1-1"

/-- A data dir with one artifact directory and the given source in its manifest. -/
def sampleDir (source : Json) : DataDir where
  artifacts := AList.singleton (py "key") (.dir {
    manifest := some ((dumps (.obj [(py "compile_key", .str (py "key")),
      (py "artifact_sha256", .str (py "sha")), (py "source_sha256", source),
      (py "recipe_id", .str (py "recipe")), (py "target_profile", .str (py "npu"))])).map
        UInt8.ofNat)
    model := some [1] })

/-- A manifest whose source is a list makes recovery raise. -/
theorem list_source_not_recovered : ¬Recovered sampleHost (sampleDir (.arr [.int 1])) := by
  have hrun : (recover sampleHost (sampleDir (.arr [.int 1]))).toOption.isNone = true := by
    decide +kernel
  rintro ⟨t, summary, hok, -⟩
  rw [hok] at hrun
  simp [Except.toOption] at hrun

end DataDir
end FrigateXdna
