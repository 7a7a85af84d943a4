import FrigateXdna.Cache.Prune

/-!
# What a prune touches

{lit}`apply_prune` walks the candidates of a plan that may be older than the registry.  A
candidate with a row and without a pin is deleted; where its directory is gone already, only
its row and the pointers of the refs are.

Main results:

- Definition {lit}`deletionsFrom`: the deletions, each with what the loop had done before.
- Theorem {lit}`applyFrom_touches`: the loop touches what it deletes and nothing else.
- Theorem {lit}`applyPrune_touches`: what is removed, what is cleaned up, and what stays.
-/

namespace FrigateXdna

open Python

/-! ## The deletions of a prune -/

/-- The loop after the deletion of a candidate. -/
def Pruned.delete (p : Pruned) (c : Candidate) : Pruned where
  state := deleteSource p.state c.digest
  removed :=
    if p.state.disk.sourceDigests.contains c.digest then p.removed ++ [c.digest] else p.removed
  freedBytes := p.freedBytes + freedBy p.state c

/-- The deletions from some candidate on, each with the loop before it. -/
def deletionsFrom (maxBytes : Option Int) : List Candidate → Pruned → List (Pruned × Candidate)
  | [], _ => []
  | c :: rest, p =>
      if removable p.state c.digest then
        (p, c) :: if enough maxBytes (p.delete c).freedBytes then []
          else deletionsFrom maxBytes rest (p.delete c)
      else deletionsFrom maxBytes rest p

/-- The deletions of {lit}`apply_prune`. -/
def deletions (plan : PrunePlan) (maxBytes : Option Int) (s : Manager) :
    List (Pruned × Candidate) :=
  deletionsFrom maxBytes plan.candidates { state := s }

/-- A deletion that found the directory. -/
def foundDirectory (d : Pruned × Candidate) : Bool :=
  d.1.state.disk.sourceDigests.contains d.2.digest

variable {s t u : Manager}

@[simp]
theorem applyFrom_cons (maxBytes : Option Int) (c : Candidate) (rest : List Candidate)
    (p : Pruned) :
    applyFrom maxBytes (c :: rest) p =
      if removable p.state c.digest then
        if enough maxBytes (p.delete c).freedBytes then p.delete c
        else applyFrom maxBytes rest (p.delete c)
      else applyFrom maxBytes rest p :=
  rfl

/-- An induction along the deletions of the loop. -/
theorem applyFrom_induct (maxBytes : Option Int)
    {motive : Pruned → List (Pruned × Candidate) → Pruned → Prop}
    (stays : ∀ p, motive p [] p)
    (deletes : ∀ p c ds q, removable p.state c.digest = true →
      (ds ≠ [] → enough maxBytes (p.delete c).freedBytes = false) →
        motive (p.delete c) ds q → motive p ((p, c) :: ds) q)
    (candidates : List Candidate) (p : Pruned) :
    motive p (deletionsFrom maxBytes candidates p) (applyFrom maxBytes candidates p) := by
  induction candidates generalizing p with
  | nil => exact stays p
  | cons c rest ih =>
      rw [applyFrom_cons, deletionsFrom]
      by_cases hremovable : removable p.state c.digest = true
      · rw [if_pos hremovable, if_pos hremovable]
        by_cases hstop : enough maxBytes (p.delete c).freedBytes = true
        · rw [if_pos hstop, if_pos hstop]
          exact deletes p c [] _ hremovable (fun h => absurd rfl h) (stays _)
        · rw [if_neg hstop, if_neg hstop]
          exact deletes p c _ _ hremovable (fun _ => by simpa using hstop) (ih _)
      · rw [if_neg hremovable, if_neg hremovable]
        exact ih p

/-! ## The frame -/

/-- What a deletion of digests touches: the files below them, their rows, and the refs that
point to them. -/
structure Touches (s t : Manager) (digests : List PyStr) : Prop where
  files : ∀ path, t.disk.sources.lookup path =
    if path.1 ∈ digests then none else s.disk.sources.lookup path
  rows : t.registry.sources = s.registry.sources.filter fun x => !digests.contains x.sha256
  refs : t.registry.refs = s.registry.refs.map fun m =>
    if m.sourceSha256.any digests.contains then { m with sourceSha256 := none } else m
  rest : t =
    { s with
      disk := { s.disk with sources := t.disk.sources }
      registry := { s.registry with sources := t.registry.sources, refs := t.registry.refs } }

namespace Touches

theorem refl (s : Manager) : Touches s s [] where
  files path := by simp
  rows := by simp
  refs := by
    have hid : ∀ m : RefRow,
        (if m.sourceSha256.any ([] : List PyStr).contains then
          { m with sourceSha256 := none } else m) = m := by
      intro m
      cases m.sourceSha256 <;> simp
    simp [hid]
  rest := rfl

/-- One deletion touches its digest. -/
theorem deleteSource (s : Manager) (digest : PyStr) :
    Touches s (deleteSource s digest) [digest] where
  files path := by
    rw [FrigateXdna.deleteSource, removeSource_lookup]
    simp
  rows := by
    refine List.filter_congr fun x _ => ?_
    by_cases hx : x.sha256 = digest <;> simp [hx]
  refs := by
    simp only [FrigateXdna.deleteSource, Registry.deleteSource, Registry.clearRefSource]
    refine List.map_congr_left fun m _ => ?_
    cases m.sourceSha256 <;> simp
  rest := rfl

/-- Deletions one after another. -/
theorem trans {first more : List PyStr} (h : Touches s t first) (h' : Touches t u more) :
    Touches s u (first ++ more) where
  files path := by
    rw [h'.files, h.files]
    by_cases hfirst : path.1 ∈ first
    · simp [hfirst]
    · simp [hfirst]
  rows := by
    rw [h'.rows, h.rows, List.filter_filter]
    refine List.filter_congr fun x _ => ?_
    simp [Bool.and_comm]
  refs := by
    rw [h'.refs, h.refs, List.map_map]
    refine List.map_congr_left fun m _ => ?_
    cases hsource : m.sourceSha256 with
    | none => simp [hsource]
    | some x =>
        by_cases hfirst : x ∈ first
        · simp [hsource, hfirst]
        · simp [hsource, hfirst]
  rest := by
    have hrest := h'.rest
    rw [h.rest] at hrest
    exact hrest

/-- A touched digest has no directory, no row, and no ref that points to it. -/
theorem gone {digests : List PyStr} (h : Touches s t digests) {digest : PyStr}
    (hmem : digest ∈ digests) :
    digest ∉ t.disk.sourceDigests ∧ t.registry.getSource digest = none ∧
      ∀ m ∈ t.registry.refs, m.sourceSha256 ≠ some digest := by
  refine ⟨?_, ?_, ?_⟩
  · rw [mem_sourceDigests]
    rintro ⟨path, rfl, hpath⟩
    rw [h.files, if_pos hmem] at hpath
    contradiction
  · rw [Registry.getSource, h.rows, List.find?_eq_none]
    rintro x hx hsha
    have hnot := (List.mem_filter.mp hx).2
    rw [beq_iff_eq.mp hsha] at hnot
    simp [hmem] at hnot
  · rw [h.refs]
    intro m hm
    obtain ⟨m', -, rfl⟩ := List.mem_map.mp hm
    split
    · simp
    · rename_i hnot
      intro hsource
      rw [hsource] at hnot
      exact hnot (by simpa using hmem)

end Touches

/-- **The loop touches what it deletes** and nothing else. -/
theorem applyFrom_touches (maxBytes : Option Int) (candidates : List Candidate) (p : Pruned) :
    Touches p.state (applyFrom maxBytes candidates p).state
      ((deletionsFrom maxBytes candidates p).map fun d => d.2.digest) := by
  refine applyFrom_induct maxBytes
    (motive := fun p ds q => Touches p.state q.state (ds.map fun d => d.2.digest))
    (fun p => .refl p.state) (fun p c ds q _ _ h => ?_) candidates p
  exact Touches.trans (.deleteSource p.state c.digest) h

/-! ## What is deleted -/

/-- What is removed is what was deleted with its directory. -/
theorem applyFrom_removed (maxBytes : Option Int) (candidates : List Candidate) (p : Pruned) :
    (applyFrom maxBytes candidates p).removed = p.removed ++
      ((deletionsFrom maxBytes candidates p).filter foundDirectory).map fun d => d.2.digest := by
  refine applyFrom_induct maxBytes
    (motive := fun p ds q => q.removed =
      p.removed ++ (ds.filter foundDirectory).map fun d => d.2.digest)
    (fun p => by simp) (fun p c ds q _ _ h => ?_) candidates p
  rw [h]
  by_cases hfound : foundDirectory (p, c) = true
  · rw [List.filter_cons_of_pos hfound, List.map_cons, Pruned.delete]
    rw [foundDirectory] at hfound
    simp only [hfound, if_true, List.append_assoc, List.singleton_append]
  · rw [List.filter_cons_of_neg hfound, Pruned.delete]
    rw [foundDirectory] at hfound
    simp only [hfound, if_false, Bool.false_eq_true]

/-- What is deleted has a row and no pin when it is checked. -/
theorem removable_of_mem (maxBytes : Option Int) (candidates : List Candidate) (p : Pruned) :
    ∀ d ∈ deletionsFrom maxBytes candidates p, removable d.1.state d.2.digest = true := by
  refine applyFrom_induct maxBytes
    (motive := fun _ ds _ => ∀ d ∈ ds, removable d.1.state d.2.digest = true)
    (fun p => by simp) (fun p c ds q hremovable _ h => ?_) candidates p
  rintro d (_ | ⟨_, hd⟩)
  · exact hremovable
  · exact h d hd

/-- A digest that is not removed keeps its files. -/
theorem files_of_notMem (maxBytes : Option Int) (candidates : List Candidate) (p : Pruned) :
    ∀ path : SourcePath,
      path.1 ∉ ((deletionsFrom maxBytes candidates p).filter foundDirectory).map
          (fun d => d.2.digest) →
        (applyFrom maxBytes candidates p).state.disk.sources.lookup path =
          p.state.disk.sources.lookup path := by
  refine applyFrom_induct maxBytes
    (motive := fun p ds q => ∀ path : SourcePath,
      path.1 ∉ (ds.filter foundDirectory).map (fun d => d.2.digest) →
        q.state.disk.sources.lookup path = p.state.disk.sources.lookup path)
    (fun p path _ => rfl) (fun p c ds q _ _ h path hpath => ?_) candidates p
  by_cases hfound : foundDirectory (p, c) = true
  · rw [List.filter_cons_of_pos hfound, List.map_cons, List.mem_cons, not_or] at hpath
    rw [h path hpath.2, Pruned.delete, deleteSource, removeSource_lookup, if_neg hpath.1]
  · rw [List.filter_cons_of_neg hfound] at hpath
    rw [h path hpath, Pruned.delete, deleteSource, removeSource_lookup]
    split
    · rename_i hdigest
      have hgone : c.digest ∉ p.state.disk.sourceDigests := by
        simpa [foundDirectory] using hfound
      by_contra hne
      refine hgone ((mem_sourceDigests _).mpr ⟨path, hdigest, ?_⟩)
      exact Option.isSome_iff_ne_none.mpr (Ne.symm hne)
    · rfl

/-- With a limit above what is freed at first, no deletion starts once it is reached. -/
theorem freedBytes_lt_of_mem {most : Int} (candidates : List Candidate) {p : Pruned}
    (hpos : p.freedBytes < most) :
    ∀ d ∈ deletionsFrom (some most) candidates p, d.1.freedBytes < most := by
  have hall := applyFrom_induct (some most)
    (motive := fun p ds _ => p.freedBytes < most → ∀ d ∈ ds, d.1.freedBytes < most)
    (fun p _ => by simp) (fun p c ds q _ hgo h hlt => ?_) candidates p
  · exact hall hpos
  · rintro d (_ | ⟨_, hd⟩)
    · exact hlt
    · refine h ?_ d hd
      have hnot := hgo (List.ne_nil_of_mem hd)
      simpa [enough] using hnot

/-! ## What a prune does -/

/-- A candidate of the plan whose directory is gone when it is checked: it has a row and no
pin, and only its row and the pointers to it are deleted. -/
def CleanedUp (plan : PrunePlan) (maxBytes : Option Int) (s : Manager) (digest : PyStr) : Prop :=
  ∃ d ∈ deletions plan maxBytes s, d.2.digest = digest ∧
    stillPinned d.1.state.registry digest = false ∧ digest ∉ d.1.state.disk.sourceDigests

/-- **A prune touches what it removes or cleans up**, for every plan and every registry: a
removed digest had no pin when it was checked and leaves no directory, no row and no ref that
points to it; every other digest keeps its files, and its row and pointers unless it was
cleaned up; nothing else changes; and with a positive limit no deletion starts once the freed
bytes reached it. -/
theorem applyPrune_touches (plan : PrunePlan) (maxBytes : Option Int) (s : Manager) :
    let r := applyPrune plan maxBytes s
    (∀ digest ∈ r.removed,
        (∃ d ∈ deletions plan maxBytes s, d.2.digest = digest ∧
          stillPinned d.1.state.registry digest = false) ∧
        digest ∉ r.state.disk.sourceDigests ∧ r.state.registry.getSource digest = none ∧
          ∀ m ∈ r.state.registry.refs, m.sourceSha256 ≠ some digest) ∧
      (∀ path, path.1 ∉ r.removed →
        r.state.disk.sources.lookup path = s.disk.sources.lookup path) ∧
      (∃ touched : List PyStr,
        (∀ digest ∈ touched, digest ∈ r.removed ∨ CleanedUp plan maxBytes s digest) ∧
        r.state.registry.sources =
          s.registry.sources.filter (fun x => !touched.contains x.sha256) ∧
        r.state.registry.refs = s.registry.refs.map fun m =>
          if m.sourceSha256.any touched.contains then { m with sourceSha256 := none } else m) ∧
      r.state =
        { s with
          disk := { s.disk with sources := r.state.disk.sources }
          registry := { s.registry with
            sources := r.state.registry.sources, refs := r.state.registry.refs } } ∧
      ∀ most, maxBytes = some most → 0 < most →
        ∀ d ∈ deletions plan maxBytes s, d.1.freedBytes < most := by
  intro r
  have htouches : Touches s r.state ((deletions plan maxBytes s).map fun d => d.2.digest) :=
    applyFrom_touches maxBytes plan.candidates { state := s }
  have hremoved : r.removed = ((deletions plan maxBytes s).filter foundDirectory).map
      fun d => d.2.digest :=
    (applyFrom_removed maxBytes plan.candidates { state := s }).trans (List.nil_append _)
  have hchecked := removable_of_mem maxBytes plan.candidates { state := s }
  have hunpinned : ∀ d ∈ deletions plan maxBytes s,
      stillPinned d.1.state.registry d.2.digest = false := by
    intro d hd
    have h := hchecked d hd
    unfold removable at h
    rw [Bool.and_eq_true] at h
    simpa using h.2
  have hcases : ∀ d ∈ deletions plan maxBytes s,
      d.2.digest ∈ r.removed ∨ d.2.digest ∉ d.1.state.disk.sourceDigests := by
    intro d hd
    by_cases hfound : foundDirectory d = true
    · left
      rw [hremoved]
      exact List.mem_map_of_mem (List.mem_filter.mpr ⟨hd, hfound⟩)
    · right
      simpa [foundDirectory] using hfound
  refine ⟨?_, ?_, ⟨_, ?_, htouches.rows, htouches.refs⟩, htouches.rest, ?_⟩
  · intro digest hdigest
    rw [hremoved] at hdigest
    obtain ⟨d, hd, rfl⟩ := List.mem_map.mp hdigest
    have hmem := List.mem_of_mem_filter hd
    exact ⟨⟨d, hmem, rfl, hunpinned d hmem⟩, htouches.gone (List.mem_map_of_mem hmem)⟩
  · intro path hpath
    rw [hremoved] at hpath
    exact files_of_notMem maxBytes plan.candidates { state := s } path hpath
  · intro digest hdigest
    obtain ⟨d, hd, rfl⟩ := List.mem_map.mp hdigest
    rcases hcases d hd with h | h
    · exact Or.inl h
    · exact Or.inr ⟨d, hd, rfl, hunpinned d hd, h⟩
  · rintro most rfl hpos
    exact freedBytes_lt_of_mem plan.candidates hpos

/-! ## A directory that is gone -/

/-- A registry that still has the row of a source whose directory is gone. -/
def goneStore : Manager where
  registry := { sources := [⟨sampleDigest, py "model.onnx", py "local"⟩] }

/-- A plan from before the directory went. -/
def stalePlan : PrunePlan where
  candidates := [⟨sampleDigest, 4⟩]
  reclaimableBytes := 4
  targets := []
  maxBytes := none

/-- **A digest that is not removed loses its row** where its directory is gone. -/
theorem row_of_gone_directory :
    ¬ ∀ (plan : PrunePlan) (maxBytes : Option Int) (s : Manager),
      ∀ digest, digest ∉ (applyPrune plan maxBytes s).removed →
        (applyPrune plan maxBytes s).state.registry.getSource digest =
          s.registry.getSource digest := by
  intro h
  exact absurd (h stalePlan none goneStore sampleDigest (by decide)) (by decide)

end FrigateXdna
