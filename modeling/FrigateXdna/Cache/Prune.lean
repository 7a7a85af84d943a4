import Mathlib.Data.List.Dedup
import Mathlib.Algebra.Order.BigOperators.Group.List
import FrigateXdna.Process

/-!
# Pruning the stored sources

{lit}`prune` lists the directories below {lit}`sources/` that no pin protects, and then
deletes them, checking the pins once more.  Neither step reads the jobs, and the record of
the active model holds no ref.

Main results:

- Theorem {lit}`applyPrune_spec`: which sources are deleted.
- Theorem {lit}`pinned_intact`: the source of a pinned ref is never deleted.
- Theorem {lit}`prune_keeps_iff`: what is in use is kept exactly when every source of the
  active model and of a live job is spared for another reason.
-/

namespace FrigateXdna

open Python

/-! ## Files and rows -/

namespace Disk

/-- {lit}`os.listdir(sources)`. -/
def sourceDigests (d : Disk) : List PyStr :=
  (d.sources.keys.map Prod.fst).dedup

/-- The bytes below {lit}`sources/<digest>`. -/
def sourceBytes (d : Disk) (digest : PyStr) : Nat :=
  ((d.sources.keys.filter fun path => path.1 == digest).map fun path =>
    ((d.sources.lookup path).getD []).length).sum

/-- {lit}`shutil.rmtree(sources/<digest>)`. -/
def removeSource (d : Disk) (digest : PyStr) : Disk :=
  { d with
    sources := (d.sources.keys.filter fun path => path.1 == digest).foldl
      (fun files path => files.erase path) d.sources }

end Disk

namespace Registry

/-- {lit}`DELETE FROM sources WHERE sha256=?`. -/
def deleteSource (r : Registry) (digest : PyStr) : Registry :=
  { r with sources := r.sources.filter fun x => !(x.sha256 == digest) }

/-- {lit}`UPDATE model_refs SET source_sha256=NULL` for the refs of a digest. -/
def clearRefSource (r : Registry) (digest : PyStr) : Registry :=
  { r with
    refs := r.refs.map fun m =>
      if m.sourceSha256 = some digest then { m with sourceSha256 := none } else m }

/-- The source digest of a ref. -/
def refSource (r : Registry) (ref : PyStr) : Option PyStr :=
  (r.getRef ref).bind RefRow.sourceSha256

end Registry

/-! ## The plan -/

/-- {lit}`active.get("ref")`; what writes the record stores no ref. -/
def ActiveRecord.ref (_ : ActiveRecord) : Option PyStr :=
  none

/-- Whether a pin target is looked up as a ref. -/
def looksLikeRef (target : PyStr) : Bool :=
  startsWith (py "plus://") target || startsWith (py "local://") target ||
    contains (py "/") target || endsWith (py ".onnx") target || endsWith (py ".rai") target

/-- Whether a pin target is a digest. -/
def looksLikeDigest (target : PyStr) : Bool :=
  target.length == 64 && target.all fun c => (py "0123456789abcdef").contains c

/-- The targets of the pins, and the ref of the active record. -/
def protectedTargets (r : Registry) : List PyStr :=
  r.pins.map Pin.target ++ (r.state.active.bind ActiveRecord.ref).toList

/-- Whether a target protects a digest. -/
def protects (r : Registry) (target digest : PyStr) : Bool :=
  if looksLikeRef target then !digest.isEmpty && r.refSource target == some digest
  else looksLikeDigest target && target == digest

/-- Whether a digest is protected when the plan is made. -/
def protectedDigest (r : Registry) (digest : PyStr) : Bool :=
  (protectedTargets r).any fun target => protects r target digest

/-- A directory that may be deleted. -/
structure Candidate where
  digest : PyStr
  bytes : Nat
deriving DecidableEq, Repr

/-- What {lit}`plan_prune` returns. -/
structure PrunePlan where
  candidates : List Candidate
  reclaimableBytes : Nat
  targets : List PyStr
  maxBytes : Option Int
deriving DecidableEq, Repr

/-- The directories below {lit}`sources/` that nothing protects, by name. -/
def unprotectedSources (s : Manager) : List Candidate :=
  let digests := (sortedNames s.disk.sourceDigests).filter fun digest =>
    !protectedDigest s.registry digest
  digests.map fun digest => ⟨digest, s.disk.sourceBytes digest⟩

/-- {lit}`plan_prune`. -/
def planPrune (s : Manager) (maxBytes : Option Int) : PrunePlan :=
  let candidates := unprotectedSources s
  { candidates
    reclaimableBytes := (candidates.map Candidate.bytes).sum
    targets := sortedNames (protectedTargets s.registry).dedup
    maxBytes }

/-! ## The application -/

/-- Whether a pin names a digest, or a ref with this source. -/
def stillPinned (r : Registry) (digest : PyStr) : Bool :=
  r.pins.any fun p => p.target == digest || r.refSource p.target == some digest

/-- Whether a candidate passes the checks before its deletion. -/
def removable (s : Manager) (digest : PyStr) : Bool :=
  (s.registry.getSource digest).isSome && !stillPinned s.registry digest

/-- Delete a source: its files, its row, and the pointers of the refs. -/
def deleteSource (s : Manager) (digest : PyStr) : Manager :=
  { s with
    disk := s.disk.removeSource digest
    registry := (s.registry.deleteSource digest).clearRefSource digest }

/-- The bytes that the deletion of a candidate frees; a directory that is gone frees
none. -/
def freedBy (s : Manager) (c : Candidate) : Int :=
  if s.disk.sourceDigests.contains c.digest then c.bytes else 0

/-- Whether {lit}`max_bytes` is reached. -/
def enough (maxBytes : Option Int) (freed : Int) : Bool :=
  maxBytes.any fun most => decide (most ≤ freed)

/-- What {lit}`apply_prune` returns, with the state it leaves. -/
structure Pruned where
  state : Manager
  removed : List PyStr := []
  freedBytes : Int := 0

/-- {lit}`apply_prune` from some candidate on. -/
def applyFrom (maxBytes : Option Int) : List Candidate → Pruned → Pruned
  | [], p => p
  | c :: rest, p =>
      if removable p.state c.digest then
        let found := p.state.disk.sourceDigests.contains c.digest
        let p' : Pruned :=
          { state := deleteSource p.state c.digest
            removed := if found then p.removed ++ [c.digest] else p.removed
            freedBytes := p.freedBytes + freedBy p.state c }
        if enough maxBytes p'.freedBytes then p'
        else applyFrom maxBytes rest p'
      else applyFrom maxBytes rest p

/-- {lit}`apply_prune`. -/
def applyPrune (plan : PrunePlan) (maxBytes : Option Int) (s : Manager) : Pruned :=
  applyFrom maxBytes plan.candidates { state := s }

/-! ## One deletion -/

variable {s t : Manager} {digest other : PyStr}

/-- The files that are left after some paths were removed. -/
theorem lookup_foldl_erase (paths : List SourcePath) (files : AList fun _ : SourcePath => Bytes)
    (path : SourcePath) :
    (paths.foldl (fun files p => files.erase p) files).lookup path =
      if path ∈ paths then none else files.lookup path := by
  induction paths generalizing files with
  | nil => simp
  | cons p rest ih =>
      rw [List.foldl_cons, ih]
      by_cases hrest : path ∈ rest
      · simp [hrest]
      · by_cases hp : path = p
        · subst hp
          simp
        · simp [hrest, hp, AList.lookup_erase_ne hp]

/-- A deletion removes the files below its digest and no others. -/
theorem removeSource_lookup (d : Disk) (path : SourcePath) :
    (d.removeSource digest).sources.lookup path =
      if path.1 = digest then none else d.sources.lookup path := by
  unfold Disk.removeSource
  dsimp only
  rw [lookup_foldl_erase]
  by_cases hdigest : path.1 = digest
  · rw [if_pos hdigest]
    split
    · rfl
    · rename_i hmem
      have hnot : path ∉ d.sources := by
        simpa [hdigest, AList.mem_keys] using hmem
      exact AList.lookup_eq_none.mpr hnot
  · simp [hdigest]

/-- The listed digests are those with a file. -/
theorem mem_sourceDigests (d : Disk) :
    digest ∈ d.sourceDigests ↔ ∃ path, path.1 = digest ∧ (d.sources.lookup path).isSome := by
  simp only [Disk.sourceDigests, List.mem_dedup, List.mem_map, AList.lookup_isSome,
    AList.mem_keys]
  exact ⟨fun ⟨path, hmem, heq⟩ => ⟨path, heq, hmem⟩, fun ⟨path, heq, hmem⟩ => ⟨path, hmem, heq⟩⟩

@[simp]
theorem getSource_deleteSource_self (s : Manager) :
    (deleteSource s digest).registry.getSource digest = none := by
  simp [deleteSource, Registry.deleteSource, Registry.clearRefSource, Registry.getSource]

theorem getSource_deleteSource_ne (h : other ≠ digest) :
    (deleteSource s digest).registry.getSource other = s.registry.getSource other := by
  simp only [deleteSource, Registry.deleteSource, Registry.clearRefSource,
    Registry.getSource, List.find?_filter]
  congr 1
  funext x
  by_cases hx : x.sha256 = other
  · simp [hx, h]
  · simp [hx]

/-- A deletion takes its digest, and no other, from the refs. -/
theorem refSource_deleteSource (ref : PyStr) :
    (deleteSource s digest).registry.refSource ref =
      (s.registry.refSource ref).filter fun x => !(x == digest) := by
  have hgetRef : (deleteSource s digest).registry.getRef ref =
      (s.registry.getRef ref).map fun m =>
        if m.sourceSha256 = some digest then { m with sourceSha256 := none } else m := by
    simp only [deleteSource, Registry.clearRefSource, Registry.deleteSource, Registry.getRef]
    rw [List.find?_map]
    congr 2
    funext m
    simp only [Function.comp]
    split <;> rfl
  unfold Registry.refSource
  rw [hgetRef]
  cases s.registry.getRef ref with
  | none => rfl
  | some m =>
      simp only [Option.map_some, Option.bind_some]
      cases hsource : m.sourceSha256 with
      | none => simp [hsource]
      | some x =>
          by_cases hx : x = digest
          · simp [hx, Option.filter_some]
          · simp [hsource, hx, Option.filter_some]

/-- A deletion decides nothing about other digests. -/
theorem removable_deleteSource (h : other ≠ digest) :
    removable (deleteSource s digest) other = removable s other := by
  have hpinned : stillPinned (deleteSource s digest).registry other =
      stillPinned s.registry other := by
    unfold stillPinned
    have hpins : (deleteSource s digest).registry.pins = s.registry.pins := rfl
    rw [hpins]
    congr 1
    funext p
    rw [refSource_deleteSource]
    cases s.registry.refSource p.target with
    | none => rfl
    | some x =>
        by_cases hx : x = digest
        · subst hx
          simp [Ne.symm h, Option.filter_some]
        · simp [hx, Option.filter_some]
  unfold removable
  rw [getSource_deleteSource_ne h, hpinned]

theorem freedBy_deleteSource {c : Candidate} (h : c.digest ≠ digest) :
    freedBy (deleteSource s digest) c = freedBy s c := by
  have hmem : c.digest ∈ (deleteSource s digest).disk.sourceDigests ↔
      c.digest ∈ s.disk.sourceDigests := by
    simp only [mem_sourceDigests, deleteSource, removeSource_lookup]
    refine exists_congr fun path => and_congr_right fun hpath => ?_
    rw [if_neg (by rw [hpath]; exact h)]
  unfold freedBy
  simp only [List.contains_iff_mem, hmem]

/-! ## Which sources are deleted -/

/-- The digests that are deleted from some candidate on. -/
def doomedFrom (maxBytes : Option Int) (t : Manager) : List Candidate → Int → List PyStr
  | [], _ => []
  | c :: rest, freed =>
      if removable t c.digest then
        c.digest :: if enough maxBytes (freed + freedBy t c) then []
          else doomedFrom maxBytes t rest (freed + freedBy t c)
      else doomedFrom maxBytes t rest freed

/-- What the deletions before a digest free. -/
def freedBefore (t : Manager) (candidates : List Candidate) (digest : PyStr) : List Int :=
  ((candidates.takeWhile fun c => !(c.digest == digest)).filter fun c =>
    removable t c.digest).map (freedBy t)

/-- Whether the limit is reached by the deletions before a digest. -/
def limitReached (maxBytes : Option Int) (t : Manager) (candidates : List Candidate)
    (freed : Int) (digest : PyStr) : Bool :=
  let before := freedBefore t candidates digest
  !before.isEmpty && enough maxBytes (freed + before.sum)

theorem freedBy_nonneg (t : Manager) (c : Candidate) : 0 ≤ freedBy t c := by
  unfold freedBy
  split
  · exact Int.natCast_nonneg _
  · exact le_rfl

theorem freedBefore_sum_nonneg (t : Manager) (candidates : List Candidate) (digest : PyStr) :
    0 ≤ (freedBefore t candidates digest).sum := by
  refine List.sum_nonneg fun x hx => ?_
  obtain ⟨c, -, rfl⟩ := List.mem_map.mp hx
  exact freedBy_nonneg t c

/-- More bytes reach the limit as well. -/
theorem enough_mono {maxBytes : Option Int} {freed more : Int}
    (h : enough maxBytes freed = true) (hle : freed ≤ more) : enough maxBytes more = true := by
  cases maxBytes with
  | none => contradiction
  | some most =>
      have hmost : most ≤ freed := by simpa [enough] using h
      simpa [enough] using le_trans hmost hle

/-- **A digest is deleted exactly when** it is a candidate that passes the checks and the
limit is not reached before. -/
theorem mem_doomedFrom (maxBytes : Option Int) (t : Manager) (candidates : List Candidate)
    (freed : Int) (digest : PyStr) :
    digest ∈ doomedFrom maxBytes t candidates freed ↔
      digest ∈ candidates.map Candidate.digest ∧ removable t digest = true ∧
        limitReached maxBytes t candidates freed digest = false := by
  induction candidates generalizing freed with
  | nil => simp [doomedFrom]
  | cons c rest ih =>
      by_cases hdigest : c.digest = digest
      · subst hdigest
        by_cases hremovable : removable t c.digest = true
        · simp [doomedFrom, hremovable, limitReached, freedBefore]
        · have hno : removable t c.digest = false := by simpa using hremovable
          simp [doomedFrom, hno, ih]
      · have hne : digest ≠ c.digest := fun h => hdigest h.symm
        by_cases hremovable : removable t c.digest = true
        · have hbefore : freedBefore t (c :: rest) digest =
              freedBy t c :: freedBefore t rest digest := by
            simp [freedBefore, hdigest, hremovable]
          have hsum := freedBefore_sum_nonneg t rest digest
          by_cases hstop : enough maxBytes (freed + freedBy t c) = true
          · have hreached : enough maxBytes
                (freed + (freedBy t c + (freedBefore t rest digest).sum)) = true :=
              enough_mono hstop (by omega)
            simp [doomedFrom, hremovable, hne, hstop, limitReached, hbefore, hreached]
          · have hgo : enough maxBytes (freed + freedBy t c) = false := by simpa using hstop
            have hlimit : limitReached maxBytes t (c :: rest) freed digest =
                limitReached maxBytes t rest (freed + freedBy t c) digest := by
              unfold limitReached
              rw [hbefore]
              cases freedBefore t rest digest with
              | nil => simp [hgo]
              | cons x xs => simp [Int.add_assoc]
            simp [doomedFrom, hremovable, hne, hgo, ih, hlimit]
        · have hno : removable t c.digest = false := by simpa using hremovable
          have hbefore : freedBefore t (c :: rest) digest = freedBefore t rest digest := by
            simp [freedBefore, hdigest, hno]
          simp [doomedFrom, hno, hne, ih, limitReached, hbefore]

/-- Where the checks give the same answers, the same digests are deleted. -/
theorem doomedFrom_congr {maxBytes : Option Int} {candidates : List Candidate} {freed : Int}
    (h : ∀ c ∈ candidates, removable s c.digest = removable t c.digest ∧
      freedBy s c = freedBy t c) :
    doomedFrom maxBytes s candidates freed = doomedFrom maxBytes t candidates freed := by
  induction candidates generalizing freed with
  | nil => rfl
  | cons c rest ih =>
      obtain ⟨hremovable, hfreed⟩ := h c List.mem_cons_self
      have hrest : ∀ freed, doomedFrom maxBytes s rest freed =
          doomedFrom maxBytes t rest freed :=
        fun _ => ih fun c' hc' => h c' (List.mem_cons_of_mem c hc')
      simp only [doomedFrom, hremovable, hfreed, hrest]

/-- **The application deletes the doomed digests** one after another. -/
theorem applyPrune_spec (maxBytes : Option Int) {candidates : List Candidate}
    (hnodup : (candidates.map Candidate.digest).Nodup) (p : Pruned) :
    (applyFrom maxBytes candidates p).state =
      (doomedFrom maxBytes p.state candidates p.freedBytes).foldl deleteSource p.state := by
  induction candidates generalizing p with
  | nil => rfl
  | cons c rest ih =>
      obtain ⟨hnot, hrest⟩ := List.nodup_cons.mp hnodup
      simp only [applyFrom, doomedFrom]
      split
      · rw [List.foldl_cons]
        by_cases hstop : enough maxBytes (p.freedBytes + freedBy p.state c) = true
        · rw [if_pos hstop, if_pos hstop]
          rfl
        · rw [if_neg hstop, if_neg hstop, ih hrest]
          dsimp only
          rw [doomedFrom_congr fun c' hc' => ?_]
          have hne : c'.digest ≠ c.digest := by
            intro heq
            exact hnot (heq ▸ List.mem_map_of_mem hc')
          exact ⟨removable_deleteSource hne, freedBy_deleteSource hne⟩
      · exact ih hrest p

/-! ## What is in use -/

/-- The source of the model that is recorded as active, or of a live job. -/
inductive Running (r : Registry) (digest : PyStr) : Prop
  | active (record : ActiveRecord) (row : ArtifactRow) (hactive : r.state.active = some record)
      (hrow : r.getArtifact record.compileKey = some row)
      (hsource : row.sourceSha256 = digest)
  | live (job : JobRow) (hjob : job ∈ r.jobs) (hlive : job.stage.terminal = false)
      (hsource : job.sourceSha256 = some digest)

/-- The source of a pinned ref. -/
def PinnedRef (r : Registry) (digest : PyStr) : Prop :=
  ∃ pin ∈ r.pins, r.refSource pin.target = some digest

/-- What a prune must not delete. -/
def InUse (r : Registry) (digest : PyStr) : Prop :=
  Running r digest ∨ PinnedRef r digest

/-- The row and the files of a source are as they were. -/
def Intact (s t : Manager) (digest : PyStr) : Prop :=
  t.registry.getSource digest = s.registry.getSource digest ∧
    ∀ fileName, t.disk.sources.lookup (digest, fileName) =
      s.disk.sources.lookup (digest, fileName)

/-- What spares a digest: its directory is not there when the plan is made, a pin protects
it then, it has no row or a pin when it is checked again, or the limit is reached
before. -/
def Spared (plan apply : Manager) (maxBytes : Option Int) (digest : PyStr) : Prop :=
  digest ∉ plan.disk.sourceDigests ∨ protectedDigest plan.registry digest = true ∨
    removable apply digest = false ∨
      limitReached maxBytes apply (unprotectedSources plan) 0 digest = true

/-- Deletions of other digests leave a source as it is. -/
theorem intact_of_notMem {digests : List PyStr} (h : digest ∉ digests) (s : Manager) :
    Intact s (digests.foldl deleteSource s) digest := by
  induction digests generalizing s with
  | nil => exact ⟨rfl, fun _ => rfl⟩
  | cons x rest ih =>
      simp only [List.mem_cons, not_or] at h
      obtain ⟨hne, hrest⟩ := h
      obtain ⟨hrow, hfiles⟩ := ih hrest (deleteSource s x)
      refine ⟨hrow.trans (getSource_deleteSource_ne hne), fun fileName => ?_⟩
      refine (hfiles fileName).trans ?_
      exact (removeSource_lookup s.disk (digest, fileName)).trans (if_neg hne)

/-- A deleted source has no row. -/
theorem getSource_of_mem {digests : List PyStr} (h : digest ∈ digests) (s : Manager) :
    (digests.foldl deleteSource s).registry.getSource digest = none := by
  induction digests generalizing s with
  | nil => contradiction
  | cons x rest ih =>
      by_cases hrest : digest ∈ rest
      · exact ih hrest (deleteSource s x)
      · obtain rfl : digest = x := by
          rcases List.mem_cons.mp h with heq | hmem
          · exact heq
          · exact absurd hmem hrest
        exact (intact_of_notMem hrest (deleteSource s digest)).1.trans
          (getSource_deleteSource_self s)

/-- The unprotected directories are each listed once. -/
theorem unprotectedSources_spec (s : Manager) :
    ((unprotectedSources s).map Candidate.digest).Nodup ∧
      ∀ digest, digest ∈ (unprotectedSources s).map Candidate.digest ↔
        digest ∈ s.disk.sourceDigests ∧ protectedDigest s.registry digest = false := by
  have hdigests : (unprotectedSources s).map Candidate.digest =
      (sortedNames s.disk.sourceDigests).filter fun digest =>
        !protectedDigest s.registry digest := by
    simp [unprotectedSources, Function.comp_def]
  have hperm : (sortedNames s.disk.sourceDigests).Perm s.disk.sourceDigests :=
    List.perm_insertionSort _ _
  rw [hdigests]
  refine ⟨List.Nodup.filter _ (hperm.nodup_iff.mpr (List.nodup_dedup _)), fun digest => ?_⟩
  rw [List.mem_filter, hperm.mem_iff]
  simp

/-- **A prune leaves a source with a row as it is exactly when something spares it.** -/
theorem intact_iff_spared (plan apply : Manager) (maxBytes : Option Int) (digest : PyStr) :
    Intact apply (applyPrune (planPrune plan maxBytes) maxBytes apply).state digest ↔
      Spared plan apply maxBytes digest := by
  obtain ⟨hnodup, hmem⟩ := unprotectedSources_spec plan
  have hstate : (applyPrune (planPrune plan maxBytes) maxBytes apply).state = _ :=
    applyPrune_spec maxBytes hnodup { state := apply }
  have hspared : Spared plan apply maxBytes digest ↔ digest ∉
      doomedFrom maxBytes apply (unprotectedSources plan) 0 := by
    rw [mem_doomedFrom, hmem digest]
    unfold Spared
    cases protectedDigest plan.registry digest <;> cases removable apply digest <;>
      cases limitReached maxBytes apply (unprotectedSources plan) 0 digest <;>
        simp
  rw [hspared, hstate]
  constructor
  · rintro ⟨hrow, -⟩ hdoomed
    rw [getSource_of_mem hdoomed] at hrow
    have hremovable := ((mem_doomedFrom _ _ _ _ _).mp hdoomed).2.1
    simp [removable, ← hrow] at hremovable
  · exact fun hnot => intact_of_notMem hnot apply

/-- **The source of a pinned ref is never deleted.** -/
theorem pinned_intact (plan apply : Manager) (maxBytes : Option Int)
    (h : PinnedRef apply.registry digest) :
    Intact apply (applyPrune (planPrune plan maxBytes) maxBytes apply).state digest := by
  obtain ⟨pin, hpin, hsource⟩ := h
  refine (intact_iff_spared plan apply maxBytes digest).mpr (Or.inr (Or.inr (Or.inl ?_)))
  have hpinned : stillPinned apply.registry digest = true :=
    List.any_eq_true.mpr ⟨pin, hpin, by simp [hsource]⟩
  simp [removable, hpinned]

/-- **Prune keeps what is in use**, planned in one state and applied in another, exactly
when every source of the active model and of a live job is spared: by a pin, by a missing
directory or row, or by the limit. -/
theorem prune_keeps_iff (plan apply : Manager) (maxBytes : Option Int) :
    (∀ digest, InUse apply.registry digest →
        Intact apply (applyPrune (planPrune plan maxBytes) maxBytes apply).state digest) ↔
      ∀ digest, Running apply.registry digest → Spared plan apply maxBytes digest := by
  constructor
  · exact fun h digest hrunning =>
      (intact_iff_spared plan apply maxBytes digest).mp (h digest (Or.inl hrunning))
  · rintro h digest (hrunning | hpinned)
    · exact (intact_iff_spared plan apply maxBytes digest).mpr (h digest hrunning)
    · exact pinned_intact plan apply maxBytes hpinned

/-! ## A queued job -/

/-- Whether a prune takes the source of a live job. -/
def losesLive (s : Manager) (digest : PyStr) : Bool :=
  s.registry.jobs.any (fun j => !j.stage.terminal && j.sourceSha256 == some digest) &&
    (s.registry.getSource digest).isSome &&
      ((applyPrune (planPrune s none) none s).state.registry.getSource digest).isNone

theorem not_intact_of_losesLive (h : losesLive s digest = true) :
    InUse s.registry digest ∧
      ¬ Intact s (applyPrune (planPrune s none) none s).state digest := by
  simp only [losesLive, Bool.and_eq_true, List.any_eq_true] at h
  obtain ⟨⟨⟨job, hjob, hlive, hsource⟩, hrow⟩, hgone⟩ := h
  refine ⟨Or.inl (.live job hjob (by simpa using hlive) (by simpa using hsource)), ?_⟩
  rintro ⟨hsame, -⟩
  rw [Option.isNone_iff_eq_none.mp hgone] at hsame
  rw [← hsame] at hrow
  contradiction

/-- Right after an upload, a prune deletes the source of the queued job. -/
theorem queued_source_pruned :
    ∃ P es, (Process.machine sampleSetup).exec Process.sampleUpload
        (Process.first sampleSetup (py "boot")) = some (P, es) ∧
      InUse P.shared.registry sampleDigest ∧
        ¬ Intact P.shared (applyPrune (planPrune P.shared none) none P.shared).state
          sampleDigest := by
  have hends : (Process.machine sampleSetup).endsIn Process.sampleUpload
      (Process.first sampleSetup (py "boot"))
      (fun P => losesLive P.shared sampleDigest) = true := by
    decide +kernel
  obtain ⟨P, es, hrun, hloses⟩ := (Process.machine sampleSetup).exists_exec_of_endsIn hends
  exact ⟨P, es, hrun, not_intact_of_losesLive hloses⟩

end FrigateXdna
