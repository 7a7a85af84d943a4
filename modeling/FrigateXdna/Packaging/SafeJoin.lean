import FrigateXdna.Python.Path

/-!
# Joining a manifest path under a base

{lit}`safe_join` of {lit}`packaging/verify_payload.py`, which joins two texts, normalises the
result and tests it by its prefix.

Main results:

- Definition {lit}`safeJoin`: the path that the verifier reads, if it reads one.
- Theorem {lit}`safeJoin_isSome_iff`: which paths are joined, read on the steps.
- Theorem {lit}`safeJoin_contains_iff`: for which bases and paths the join neither escapes nor
  refuses a path that stays inside.
-/

namespace FrigateXdna
namespace Packaging

open Library Python

/-- {lit}`safe_join`. -/
def safeJoin (base rel : PyStr) : Option PyStr :=
  if isAbs rel then none
  else
    let normBase := normPath base
    let full := normPath (joinPath normBase rel)
    if full != normBase && !startsWith (normBase ++ py "/") full then none
    else some full

/-! ## Lexical containment -/

/-- A path is lexically inside a base: from the same start along the steps of the base, and
from there down along names only. -/
def Inside (base full : PyStr) : Prop :=
  initialSlashes full = initialSlashes base ∧
    ∃ names : List PyStr, pathSteps full = pathSteps base ++ names.map .name

/-- On no part of the path from its start more components go up than down. -/
def NeverClimbs (rel : PyStr) : Prop :=
  ∀ part, part <+: pathSteps rel →
    part.countP (fun s => !s.isName) ≤ part.countP Step.isName

/-- A normal base of components that all go up. -/
def OnlyUps (base : PyStr) : Prop :=
  pathSteps (normPath base) ≠ [] ∧ ∀ s ∈ pathSteps (normPath base), s = .up

/-- A normal base without components. -/
def IsBare (base : PyStr) : Prop :=
  normPath base = py "." ∨ normPath base = py "/" ∨ normPath base = py "//"

theorem neverClimbs_iff {rel : PyStr} (hrel : isAbs rel = false) :
    NeverClimbs rel ↔ (pathPlace rel).ups = 0 := by
  rw [pathPlace, initialSlashes_of_relative hrel]
  rw [show (0 != 0) = false from rfl, show (Place.start : Place PyStr) = ⟨0, []⟩ from rfl,
    Place.ups_eq_zero_iff]
  simp [NeverClimbs]

theorem onlyUps_iff {base : PyStr} :
    OnlyUps base ↔ (pathPlace base).names = [] ∧ (pathPlace base).ups ≠ 0 := by
  unfold OnlyUps
  rw [pathSteps_normPath]
  constructor
  · rintro ⟨hne, hall⟩
    have hnames : (pathPlace base).names = [] := by
      rw [List.eq_nil_iff_forall_not_mem]
      intro n hn
      have := hall (.name n) (List.mem_append_right _ (List.mem_map_of_mem hn))
      contradiction
    refine ⟨hnames, fun hups => hne ?_⟩
    simp [Place.steps, hnames, hups]
  · rintro ⟨hnames, hups⟩
    constructor
    · simp [Place.steps, hups]
    · intro s hs
      rw [Place.steps, hnames, List.map_nil, List.append_nil] at hs
      exact List.eq_of_mem_replicate hs

/-- A normal text is bare exactly when its place is the start. -/
theorem isBare_iff {base : PyStr} : IsBare base ↔ (pathPlace base).steps = [] := by
  constructor
  · intro hbare
    rw [← pathSteps_normPath]
    rcases hbare with h | h | h <;> rw [h] <;> decide
  · intro hempty
    have hfew := initialSlashes_le base
    have hcases : initialSlashes base = 0 ∨ initialSlashes base = 1 ∨ initialSlashes base = 2 := by
      omega
    unfold IsBare
    rw [normPath_eq_render, render, hempty]
    rcases hcases with h | h | h <;> rw [h] <;> decide

theorem steps_eq_nil_iff {p : Place PyStr} : p.steps = [] ↔ p.ups = 0 ∧ p.names = [] := by
  simp [Place.steps]

/-! ## What is joined -/

/-- Where the joined path leads. -/
def joined (base rel : PyStr) : Place PyStr :=
  (pathPlace base).follow (initialSlashes base != 0) (pathPlace rel)

theorem normPath_join (base : PyStr) {rel : PyStr} (hrel : isAbs rel = false) :
    normPath (joinPath (normPath base) rel) = render (initialSlashes base) (joined base rel) := by
  rw [normPath_eq_render, initialSlashes_joinPath _ hrel, initialSlashes_normPath,
    pathPlace_joinPath _ hrel, pathPlace_normPath, initialSlashes_normPath, joined]

theorem isPosix_joined (base : PyStr) {rel : PyStr} (hrel : isAbs rel = false) :
    IsPosix (initialSlashes base) (joined base rel) := by
  have h := isPosix_pathPlace (joinPath (normPath base) rel)
  rwa [initialSlashes_joinPath _ hrel, initialSlashes_normPath, pathPlace_joinPath _ hrel,
    pathPlace_normPath, initialSlashes_normPath] at h

/-- **What is joined**: the base itself, and what leads on from a base with components. -/
theorem safeJoin_isSome_iff (base : PyStr) {rel : PyStr} (hrel : isAbs rel = false) :
    (safeJoin base rel).isSome ↔
      ∃ more, (joined base rel).steps = (pathPlace base).steps ++ more ∧
        (more = [] ∨ (pathPlace base).steps ≠ []) := by
  have hposix := isPosix_pathPlace base
  have hjoined := isPosix_joined base hrel
  have hsome : (safeJoin base rel).isSome ↔
      render (initialSlashes base) (joined base rel) =
          render (initialSlashes base) (pathPlace base) ∨
        render (initialSlashes base) (pathPlace base) ++ [47] <+:
          render (initialSlashes base) (joined base rel) := by
    unfold safeJoin
    rw [hrel, if_neg Bool.false_ne_true, show py "/" = [47] from rfl]
    dsimp only
    rw [normPath_join base hrel, normPath_eq_render base]
    split
    · rename_i houtside
      simp only [startsWith, Bool.and_eq_true, bne_iff_ne, Bool.not_eq_true',
        Bool.eq_false_iff, ne_eq, List.isPrefixOf_iff_prefix] at houtside
      simpa using houtside
    · rename_i hinside
      simp only [startsWith, Bool.and_eq_true, bne_iff_ne, Bool.not_eq_true',
        Bool.eq_false_iff, ne_eq, List.isPrefixOf_iff_prefix, not_and_or, not_not] at hinside
      exact iff_of_true rfl hinside
  rw [hsome]
  have heq : render (initialSlashes base) (joined base rel) =
      render (initialSlashes base) (pathPlace base) ↔
        (joined base rel).steps = (pathPlace base).steps := by
    constructor
    · intro h
      rw [← hjoined.pathSteps_render, h, hposix.pathSteps_render]
    · intro h
      rw [render, h, ← render]
  rw [heq]
  by_cases hne : (pathPlace base).steps = []
  · constructor
    · rintro (h | h)
      · exact ⟨[], by simpa using h, Or.inl rfl⟩
      · exact absurd h (hjoined.not_prefix_render hne)
    · rintro ⟨more, h, rfl | hbase⟩
      · exact Or.inl (by simpa using h)
      · contradiction
  · rw [hposix.render_prefix_iff hjoined hne]
    constructor
    · rintro (h | ⟨more, -, h⟩)
      · exact ⟨[], by simpa using h, Or.inl rfl⟩
      · exact ⟨more, h, Or.inr hne⟩
    · rintro ⟨more, h, -⟩
      by_cases hmore : more = []
      · exact Or.inl (by simpa [hmore] using h)
      · exact Or.inr ⟨more, hmore, h⟩

/-- A joined path is the normal text of where it leads. -/
theorem safeJoin_eq {base rel full : PyStr} (h : safeJoin base rel = some full) :
    isAbs rel = false ∧ full = render (initialSlashes base) (joined base rel) := by
  cases hrel : isAbs rel with
  | true =>
      rw [safeJoin, hrel] at h
      contradiction
  | false =>
      unfold safeJoin at h
      rw [hrel, if_neg Bool.false_ne_true] at h
      dsimp only at h
      split at h
      · contradiction
      · rw [← normPath_join base hrel]
        exact ⟨rfl, (Option.some.inj h).symm⟩

theorem normPath_of_safeJoin {base rel full : PyStr} (h : safeJoin base rel = some full) :
    normPath full = full := by
  obtain ⟨hrel, rfl⟩ := safeJoin_eq h
  rw [← normPath_join base hrel, normPath_normPath]

/-- Which joined paths are inside the base. -/
theorem inside_iff {base rel full : PyStr} (h : safeJoin base rel = some full) :
    Inside (normPath base) full ↔
      ∃ names : List PyStr, (joined base rel).steps =
        (pathPlace base).steps ++ names.map .name := by
  obtain ⟨hrel, rfl⟩ := safeJoin_eq h
  have hjoined := isPosix_joined base hrel
  unfold Inside
  rw [hjoined.initialSlashes_render, initialSlashes_normPath, hjoined.pathSteps_render,
    pathSteps_normPath]
  exact and_iff_right rfl

/-- A relative path is normally {lit}`"."` exactly when it leads nowhere. -/
theorem normPath_eq_dot_iff {rel : PyStr} (hrel : isAbs rel = false) :
    normPath rel = py "." ↔ (pathPlace rel).steps = [] := by
  constructor
  · intro h
    rw [← pathSteps_normPath, h]
    decide
  · intro h
    rw [normPath_eq_render, render, h, initialSlashes_of_relative hrel]
    decide

/-! ## Where the join keeps inside the base -/

/-- A base with a name is never left, and what never climbs is joined. -/
theorem safeJoin_of_names {base rel : PyStr} (hrel : isAbs rel = false)
    (hnames : (pathPlace base).names ≠ []) :
    (∀ full, safeJoin base rel = some full → Inside (normPath base) full) ∧
      (NeverClimbs rel → (safeJoin base rel).isSome) := by
  have hne : (pathPlace base).steps ≠ [] := fun h => hnames (steps_eq_nil_iff.mp h).2
  constructor
  · intro full h
    obtain ⟨more, hmore, -⟩ := (safeJoin_isSome_iff base hrel).mp (by rw [h]; rfl)
    obtain ⟨names, rfl⟩ := Place.eq_names_of_append hnames hmore
    exact (inside_iff h).mpr ⟨names, hmore⟩
  · intro hnever
    refine (safeJoin_isSome_iff base hrel).mpr
      ⟨(pathPlace rel).names.map .name, ?_, Or.inr hne⟩
    rw [joined, Place.follow_of_ups_eq_zero _ _ ((neverClimbs_iff hrel).mp hnever)]
    simp [Place.steps]

/-- A base that only goes up is joined with every relative path, and left by the paths that
climb. -/
theorem safeJoin_of_onlyUps {base rel : PyStr} (hrel : isAbs rel = false)
    (hups : OnlyUps base) :
    (safeJoin base rel).isSome ∧
      ((∀ full, safeJoin base rel = some full → Inside (normPath base) full) ↔
        NeverClimbs rel) := by
  obtain ⟨hnames, hpos⟩ := onlyUps_iff.mp hups
  have hslashes : initialSlashes base = 0 := by
    by_contra h
    exact hpos ((isPosix_pathPlace base).rooted h)
  have hsteps : (joined base rel).steps =
      (pathPlace base).steps ++ (pathPlace rel).steps := by
    unfold joined Place.follow
    rw [hnames, hslashes]
    by_cases hzero : (pathPlace rel).ups = 0
    · simp [Place.steps, hnames, hzero]
    · simp [Place.steps, hnames, hzero]
      rw [← List.append_assoc, List.replicate_append_replicate]
  have hne : (pathPlace base).steps ≠ [] := fun h => hpos (steps_eq_nil_iff.mp h).1
  have hsome := (safeJoin_isSome_iff base hrel).mpr ⟨_, hsteps, Or.inr hne⟩
  refine ⟨hsome, ?_⟩
  obtain ⟨full, hfull⟩ := Option.isSome_iff_exists.mp hsome
  have hinside := inside_iff hfull
  rw [hsteps] at hinside
  rw [neverClimbs_iff hrel]
  constructor
  · intro h
    obtain ⟨names, heq⟩ := hinside.mp (h full hfull)
    have hrelSteps := List.append_cancel_left heq
    by_contra hclimbs
    obtain ⟨n, hn⟩ := Nat.exists_eq_succ_of_ne_zero hclimbs
    have hup : Step.up ∈ names.map Step.name := by
      rw [← hrelSteps, Place.steps, hn]
      exact List.mem_append_left _ List.mem_cons_self
    obtain ⟨m, -, hm⟩ := List.mem_map.mp hup
    contradiction
  · intro hzero other hother
    obtain rfl := Option.some.inj (hfull.symm.trans hother)
    exact hinside.mpr ⟨(pathPlace rel).names, by simp [Place.steps, hzero]⟩

/-- A base without components is never left, and joined only with what leads back to it. -/
theorem safeJoin_of_isBare {base rel : PyStr} (hrel : isAbs rel = false) (hbare : IsBare base) :
    (∀ full, safeJoin base rel = some full → Inside (normPath base) full) ∧
      ((NeverClimbs rel → (safeJoin base rel).isSome) ↔
        (NeverClimbs rel → normPath rel = py ".")) := by
  have hempty := isBare_iff.mp hbare
  constructor
  · intro full h
    obtain ⟨more, hmore, rfl | hne⟩ := (safeJoin_isSome_iff base hrel).mp (by rw [h]; rfl)
    · exact (inside_iff h).mpr ⟨[], hmore⟩
    · contradiction
  · refine forall_congr' fun hnever => ?_
    have hups := (neverClimbs_iff hrel).mp hnever
    obtain ⟨hbaseUps, hbaseNames⟩ := steps_eq_nil_iff.mp hempty
    have hjoined : (joined base rel).steps = (pathPlace rel).steps := by
      rw [joined, Place.follow_of_ups_eq_zero _ _ hups]
      simp [Place.steps, hups, hbaseUps, hbaseNames]
    rw [normPath_eq_dot_iff hrel, safeJoin_isSome_iff base hrel, hjoined, hempty]
    simp

/-- **Where the join keeps inside its base**: what is joined is a normal path inside the base,
and what never climbs is joined, but for paths that climb from a base that only goes up, and
for paths that lead anywhere from a base without components. -/
theorem safeJoin_contains_iff (base rel : PyStr) :
    ((∀ full, safeJoin base rel = some full →
        normPath full = full ∧ Inside (normPath base) full) ∧
      (isAbs rel = false → NeverClimbs rel → (safeJoin base rel).isSome)) ↔
      (isAbs rel = true ∨
        (OnlyUps base → NeverClimbs rel) ∧
          (IsBare base → NeverClimbs rel → normPath rel = py ".")) := by
  cases hrel : isAbs rel with
  | true =>
      have hnone : safeJoin base rel = none := by rw [safeJoin, hrel]; rfl
      simp [hnone]
  | false =>
      simp only [forall_const, Bool.false_eq_true, false_or]
      have hnormal : (∀ full, safeJoin base rel = some full →
          normPath full = full ∧ Inside (normPath base) full) ↔
            ∀ full, safeJoin base rel = some full → Inside (normPath base) full :=
        ⟨fun h full hfull => (h full hfull).2,
          fun h full hfull => ⟨normPath_of_safeJoin hfull, h full hfull⟩⟩
      rw [hnormal]
      by_cases hnames : (pathPlace base).names = []
      · by_cases hups : (pathPlace base).ups = 0
        · have hbare := isBare_iff.mpr (steps_eq_nil_iff.mpr ⟨hups, hnames⟩)
          have hnot : ¬ OnlyUps base := fun h => (onlyUps_iff.mp h).2 hups
          obtain ⟨hinside, hjoins⟩ := safeJoin_of_isBare hrel hbare
          simp only [hnot, hbare, false_imp_iff, true_and, true_imp_iff]
          rw [← hjoins]
          exact and_iff_right hinside
        · have honly := onlyUps_iff.mpr ⟨hnames, hups⟩
          have hnot : ¬ IsBare base := fun h => hups (steps_eq_nil_iff.mp (isBare_iff.mp h)).1
          obtain ⟨hsome, hinside⟩ := safeJoin_of_onlyUps hrel honly
          simp only [hnot, honly, false_imp_iff, true_imp_iff, and_true]
          rw [hinside]
          exact and_iff_left fun _ => hsome
      · have hbare : ¬ IsBare base := fun h => hnames (steps_eq_nil_iff.mp (isBare_iff.mp h)).2
        have honly : ¬ OnlyUps base := fun h => hnames (onlyUps_iff.mp h).1
        simp only [hbare, honly, false_imp_iff, and_true, iff_true]
        exact safeJoin_of_names hrel hnames

/-- From the base {lit}`".."` the path {lit}`"../x"` is joined, and leads outside. -/
theorem safeJoin_escapes :
    ¬ ∀ base rel : PyStr,
      (∀ full, safeJoin base rel = some full →
          normPath full = full ∧ Inside (normPath base) full) ∧
        (isAbs rel = false → NeverClimbs rel → (safeJoin base rel).isSome) := by
  intro h
  have hinside := ((h (py "..") (py "../x")).1 (py "../../x") (by decide)).2
  obtain ⟨-, names, hsteps⟩ := hinside
  have hcancel : [Step.up, Step.name (py "x")] = names.map .name := by
    have hleft : pathSteps (py "../../x") =
        pathSteps (normPath (py "..")) ++ [Step.up, Step.name (py "x")] := by decide
    exact List.append_cancel_left (hleft.symm.trans hsteps)
  cases names with
  | nil => contradiction
  | cons n rest =>
      have hname := (List.cons.inj hcancel).1
      contradiction

end Packaging
end FrigateXdna
