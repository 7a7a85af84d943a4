import Mathlib.Algebra.Order.Field.Basic
import Mathlib.Algebra.Order.Field.Rat
import FrigateXdna.Models.Decoders

/-!
# The rows of the worker's result

What {lit}`postprocess_yolo_raw` keeps and what it writes, over exact rational numbers.  The
suppression loop is non-maximum suppression: a walk through the candidates by falling score
that keeps what no kept box of the same class overlaps.  A box of negative size is a candidate
like any other, and its row has its edges in the wrong order.

Main results:

- Theorem {lit}`keptDetections_eq`: the kept list is the walk through the sorted candidates.
- Theorem {lit}`suppression_greedy`: what the walk keeps and what it drops.
- Theorem {lit}`frameOk_iff`: when the rows honour the output contract.
- Theorem {lit}`invertedColumn_not_frameOk`: a column that breaks it.
-/

namespace FrigateXdna
namespace Models

open Python Library Native

/-! ## The parts of the postprocessing -/

section Parts

variable {F : Type} (A : Arith F)

/-- {lit}`kept` after the suppression loop. -/
def keptDetections (sort : Sorter F) (raw : List F) (cols : Nat) (cfg : YoloConfig F) :
    Option (List (Det F)) :=
  (detections A raw cols cfg).map fun dets =>
    let sorted := sort (byScoreThenClass A) dets
    suppress A cfg sorted.length 0 (sorted.map fun d => (d, false))

/-- The rows for a kept list. -/
def resultRows (sort : Sorter F) (cfg : YoloConfig F) (kept : List (Det F)) : List (List F) :=
  let kept := sort (byScore A) kept
  let rows := (kept.take 20).map (resultRow A cfg)
  (rows ++ List.replicate (20 - rows.length) (zeroRow A)).map (finiteRow A)

/-- The result is made of the kept list. -/
theorem postprocessYoloRaw_eq (sort : Sorter F) (raw : List F) (cols : Nat)
    (cfg : YoloConfig F) :
    postprocessYoloRaw A sort raw cols cfg =
      (keptDetections A sort raw cols cfg).map (resultRows A sort cfg) := by
  rw [postprocessYoloRaw, keptDetections, Option.map_map]
  rfl

end Parts

/-! ## Non-maximum suppression -/

/-- A configuration that keeps overlapping boxes of different classes, as the worker's does. -/
def classAware {F : Type} (cfg : YoloConfig F) : YoloConfig F :=
  { cfg with classAwareNms := true }

/-- The area that two boxes have in common over that of their union, to which the code adds
{lit}`1e-9`. -/
def overlap (a b : Det ℚ) : ℚ :=
  let inter := max 0 (min a.x2 b.x2 - max a.x1 b.x1) * max 0 (min a.y2 b.y2 - max a.y1 b.y1)
  let areaA := (a.x2 - a.x1) * (a.y2 - a.y1)
  let areaB := (b.x2 - b.x1) * (b.y2 - b.y1)
  inter / (areaA + areaB - inter + 1 / 1000000000)

/-- Whether a kept box drops another: they have one class and overlap too much. -/
def dropsBox (nmsIou : ℚ) (a b : Det ℚ) : Bool :=
  decide (a.cls = b.cls ∧ nmsIou < overlap a b)

/-- Greedy class-aware non-maximum suppression of boxes in order of preference. -/
def greedyNms (nmsIou : ℚ) (maxDet : Int) (order : List (Det ℚ)) : List (Det ℚ) :=
  walk (dropsBox nmsIou) maxDet.toNat order

/-- The boxes of the columns whose best score is positive and reaches the threshold. -/
def candidates (raw : List ℚ) (cols : Nat) (cfg : YoloConfig ℚ) : List (Det ℚ) :=
  ((List.range cols).filter fun c =>
      decide (0 < score raw cols cfg.classCount.toNat c ∧
        cfg.scoreThreshold ≤ score raw cols cfg.classCount.toNat c)).map
    (detOf raw cols cfg.classCount.toNat)

/-- The order of preference: by falling score, and then by class. -/
def Preferred (a b : Det ℚ) : Prop :=
  b.score < a.score ∨ b.score = a.score ∧ a.cls ≤ b.cls

section Suppression

variable {raw : List ℚ} {cols : Nat} {cfg : YoloConfig ℚ} (ofBytes : Bytes → ℚ)
  (toBytes : ℚ → Bytes)

theorem overlap_comm (a b : Det ℚ) : overlap a b = overlap b a := by
  simp only [overlap, min_comm, max_comm b.x1, max_comm b.y1]
  rw [add_comm ((b.x2 - b.x1) * (b.y2 - b.y1))]

/-- The best class of a column, with or without classes. -/
theorem bestClass_toNat {c : Nat} (hsize : raw.length = (4 + cfg.classCount.toNat) * cols)
    (hc : c < cols) :
    bestClass (exactArith ofBytes toBytes) raw cols cfg.classCount c =
      some (if 0 < score raw cols cfg.classCount.toNat c then
        (score raw cols cfg.classCount.toNat c,
          (classOf raw cols cfg.classCount.toNat c : Int)) else (0, -1)) := by
  have hcast : bestClass (exactArith ofBytes toBytes) raw cols cfg.classCount c =
      bestClass (exactArith ofBytes toBytes) raw cols (cfg.classCount.toNat : Int) c := rfl
  rw [hcast]
  rcases Nat.eq_zero_or_pos cfg.classCount.toNat with hzero | hpos
  · rw [hzero]
    rfl
  · exact bestClass_eq ofBytes toBytes hsize hc hpos

/-- A column has a detection if its best score is positive and reaches the threshold. -/
theorem detection_eq_ite {c : Nat} (hsize : raw.length = (4 + cfg.classCount.toNat) * cols)
    (hc : c < cols) :
    detection (exactArith ofBytes toBytes) raw cols cfg c =
      some (if 0 < score raw cols cfg.classCount.toNat c ∧
          cfg.scoreThreshold ≤ score raw cols cfg.classCount.toNat c then
        some (detOf raw cols cfg.classCount.toNat c) else none) := by
  have hread : ∀ r < 4, readRaw raw cols r c = some (entry raw cols r c) := fun r hr =>
    readRaw_eq hsize (by omega) hc
  unfold detection
  simp only [bestClass_toNat ofBytes toBytes hsize hc, Option.bind_eq_bind, Option.bind_some]
  by_cases hpos : 0 < score raw cols cfg.classCount.toNat c
  · rw [if_pos hpos]
    have hcls : ¬ ((classOf raw cols cfg.classCount.toNat c : Int) < 0) := by omega
    by_cases hsel : cfg.scoreThreshold ≤ score raw cols cfg.classCount.toNat c
    · have hlt : ¬ score raw cols cfg.classCount.toNat c < cfg.scoreThreshold := hsel.not_gt
      simp [exactArith, hsel, hlt, hcls, hpos, hread, detOf, boxOf, div_eq_mul_inv]
    · simp [exactArith, hsel, not_le.mp hsel]
  · simp [exactArith, hpos]

/-- **The detections are the candidates.** -/
theorem detections_eq_candidates (hsize : raw.length = (4 + cfg.classCount.toNat) * cols) :
    detections (exactArith ofBytes toBytes) raw cols cfg = some (candidates raw cols cfg) := by
  have hmap : (List.range cols).mapM (detection (exactArith ofBytes toBytes) raw cols cfg) =
      some _ :=
    mapM_some fun c hc => detection_eq_ite ofBytes toBytes hsize (List.mem_range.mp hc)
  rw [detections, hmap, Option.map_some, filterMap_ite]
  rfl

/-- The formula of the loop. -/
theorem iou_eq_overlap (a b : Det ℚ) : iou (exactArith ofBytes toBytes) a b = overlap a b := by
  simp only [iou, overlap, max_eq, min_eq]
  rfl

/-- What the loop marks. -/
theorem suppresses_eq_dropsBox :
    suppresses (exactArith ofBytes toBytes) (classAware cfg) = dropsBox cfg.nmsIou := by
  funext a b
  rw [suppresses, iou_eq_overlap, dropsBox]
  by_cases hcls : a.cls = b.cls
  · simp [classAware, exactArith, hcls]
  · simp [classAware, hcls, Ne.symm hcls]

/-- **The kept list** is the walk through the sorted candidates. -/
theorem keptDetections_eq (sort : Sorter ℚ)
    (hsize : raw.length = (4 + cfg.classCount.toNat) * cols) :
    keptDetections (exactArith ofBytes toBytes) sort raw cols (classAware cfg) =
      some (greedyNms cfg.nmsIou cfg.maxDet
        (sort (byScoreThenClass (exactArith ofBytes toBytes)) (candidates raw cols cfg))) := by
  have hfound : detections (exactArith ofBytes toBytes) raw cols (classAware cfg) =
      some (candidates raw cols cfg) := detections_eq_candidates ofBytes toBytes hsize
  let order := sort (byScoreThenClass (exactArith ofBytes toBytes)) (candidates raw cols cfg)
  have hfuel : (unmarked (order.map fun d => (d, false))).length ≤ order.length := by
    rw [unmarked_fresh]
  have hkept : suppress (exactArith ofBytes toBytes) (classAware cfg) order.length
      ((0 : Nat) : Int) (order.map fun d => (d, false)) =
        greedyNms cfg.nmsIou cfg.maxDet order := by
    rw [suppress_eq, suppresses_eq_dropsBox, greedyMarks_eq (by simp) hfuel, unmarked_fresh,
      greedy_eq_walk le_rfl]
    rfl
  rw [keptDetections, hfound, Option.map_some]
  exact congrArg some hkept

/-- The sorted candidates are in the order of preference. -/
theorem sort_preferred {sort : Sorter ℚ} (hsort : LawfulSorter sort) (items : List (Det ℚ)) :
    (sort (byScoreThenClass (exactArith ofBytes toBytes)) items).Pairwise Preferred := by
  refine (hsort.sorted (byScoreThenClass_strictWeak ofBytes toBytes) items).imp ?_
  intro a b hba
  rw [← Bool.not_eq_true, byScoreThenClass_iff, not_or, not_lt, not_and, not_lt] at hba
  rcases lt_or_eq_of_le hba.1 with hlt | heq
  · exact Or.inl hlt
  · exact Or.inr ⟨heq, hba.2 heq⟩

/-- What a walk of boxes keeps and what it drops: the kept boxes of one class do not overlap
too much, and a box is kept, or a kept box of its class before it overlaps it, or there is no
room. -/
structure Suppressed (nmsIou : ℚ) (maxDet : Int) (order kept : List (Det ℚ)) : Prop where
  kept_eq : kept = greedyNms nmsIou maxDet order
  apart : kept.Pairwise fun a b => a.cls = b.cls → overlap a b ≤ nmsIou ∧ overlap b a ≤ nmsIou
  turns : ∀ before d after, order = before ++ d :: after →
    greedyNms nmsIou maxDet before <+: kept ∧
      (greedyNms nmsIou maxDet (before ++ [d]) = greedyNms nmsIou maxDet before ++ [d] ∧
          greedyNms nmsIou maxDet (before ++ [d]) <+: kept ∨
        greedyNms nmsIou maxDet (before ++ [d]) = greedyNms nmsIou maxDet before ∧
          ((∃ k ∈ greedyNms nmsIou maxDet before, k.cls = d.cls ∧ nmsIou < overlap k d) ∨
            maxDet ≤ (greedyNms nmsIou maxDet before).length))

theorem greedyNms_suppressed (nmsIou : ℚ) (maxDet : Int) (order : List (Det ℚ)) :
    Suppressed nmsIou maxDet order (greedyNms nmsIou maxDet order) where
  kept_eq := rfl
  apart := by
    refine (walk_pairwise order).imp ?_
    intro a b hab hcls
    rw [overlap_comm b a, and_self]
    simpa [dropsBox, hcls] using hab
  turns before d after horder := by
    refine ⟨horder ▸ walk_prefix before (d :: after), ?_⟩
    have hturn : greedyNms nmsIou maxDet (before ++ [d]) =
        keepIf (dropsBox nmsIou) maxDet.toNat (greedyNms nmsIou maxDet before) d :=
      walk_append_singleton before d
    unfold keepIf at hturn
    split_ifs at hturn with hkeep
    · refine Or.inl ⟨hturn, ?_⟩
      have hmore : greedyNms nmsIou maxDet (before ++ [d]) <+:
          greedyNms nmsIou maxDet (before ++ [d] ++ after) := walk_prefix (before ++ [d]) after
      rw [List.append_assoc] at hmore
      rw [horder]
      exact hmore
    · refine Or.inr ⟨hturn, ?_⟩
      by_cases hroom : (greedyNms nmsIou maxDet before).length < maxDet.toNat
      · left
        have hdrop : ¬ ∀ k ∈ greedyNms nmsIou maxDet before, dropsBox nmsIou k d = false :=
          fun hfree => hkeep ⟨hroom, hfree⟩
        push Not at hdrop
        obtain ⟨k, hk, hkd⟩ := hdrop
        exact ⟨k, hk, by simpa [dropsBox] using hkd⟩
      · right
        omega

/-- **The suppression is greedy class-aware non-maximum suppression** of the candidates in the
order of preference. -/
theorem suppression_greedy {sort : Sorter ℚ} (hsort : LawfulSorter sort)
    (hsize : raw.length = (4 + cfg.classCount.toNat) * cols) :
    ∃ order kept,
      keptDetections (exactArith ofBytes toBytes) sort raw cols (classAware cfg) = some kept ∧
        order.Perm (candidates raw cols cfg) ∧ order.Pairwise Preferred ∧
        Suppressed cfg.nmsIou cfg.maxDet order kept :=
  ⟨_, _, keptDetections_eq ofBytes toBytes sort hsize,
    hsort.perm (byScoreThenClass_strictWeak ofBytes toBytes) _,
    sort_preferred ofBytes toBytes hsort _, greedyNms_suppressed _ _ _⟩

end Suppression

/-! ## The output contract -/

/-- A used row: an integral class, a positive score, and the edges of a box within the
image. -/
def RowOk (classCount : Int) (row : List ℚ) : Prop :=
  ∃ (cls : Int) (score ymin xmin ymax xmax : ℚ), row = [(cls : ℚ), score, ymin, xmin, ymax, xmax] ∧
    (0 ≤ cls ∧ cls < classCount) ∧ 0 < score ∧ (0 ≤ ymin ∧ ymin ≤ ymax ∧ ymax ≤ 1) ∧
      (0 ≤ xmin ∧ xmin ≤ xmax ∧ xmax ≤ 1)

/-- The contract of the twenty rows: the used ones come first, by falling score, and the
others are zero. -/
def FrameOk (classCount : Int) (rows : List (List ℚ)) : Prop :=
  ∃ used, used.length ≤ 20 ∧
    rows = used ++ List.replicate (20 - used.length) (List.replicate 6 0) ∧
    (∀ row ∈ used, RowOk classCount row) ∧ used.Pairwise fun a b => rowScore b ≤ rowScore a

/-- The configuration of the worker for an image. -/
def frameConfig (size : ImageSize) (classCount : Int) (scoreThreshold nmsIou : ℚ) :
    YoloConfig ℚ where
  imageW := size.width
  imageH := size.height
  classCount
  scoreThreshold
  nmsIou

/-- A box of negative size that shows within the image. -/
def Inverted (size : ImageSize) (d : Det ℚ) : Prop :=
  (d.x2 < d.x1 ∧ 0 < d.x1 ∧ d.x2 < size.width) ∨ (d.y2 < d.y1 ∧ 0 < d.y1 ∧ d.y2 < size.height)

instance (size : ImageSize) (d : Det ℚ) : Decidable (Inverted size d) :=
  inferInstanceAs (Decidable (_ ∨ _))

/-- The order of two edges after scaling and clamping. -/
theorem clamp_le_iff {K : Type*} [Field K] [LinearOrder K] [IsStrictOrderedRing K] {a b n : K}
    (hn : 0 < n) :
    max 0 (min (a / n) 1) ≤ max 0 (min (b / n) 1) ↔ ¬ (b < a ∧ 0 < a ∧ b < n) := by
  constructor
  · rintro hle ⟨hba, ha, hbn⟩
    have hlt : b / n < min (a / n) 1 :=
      lt_min (div_lt_div_of_pos_right hba hn) ((div_lt_one hn).mpr hbn)
    have hpos : 0 < min (a / n) 1 := lt_min (div_pos ha hn) one_pos
    have hclamped : max 0 (min (b / n) 1) < min (a / n) 1 :=
      max_lt hpos (lt_of_le_of_lt (min_le_left _ _) hlt)
    exact absurd (le_trans (le_max_right _ _) hle) (not_le.mpr hclamped)
  · intro hnot
    by_cases hba : b < a
    · by_cases ha : 0 < a
      · have hnb : 1 ≤ b / n := (one_le_div hn).mpr (not_lt.mp fun hbn => hnot ⟨hba, ha, hbn⟩)
        rw [min_eq_right hnb]
        exact max_le_max le_rfl (min_le_right _ _)
      · have hneg : a / n ≤ 0 := div_nonpos_of_nonpos_of_nonneg (not_lt.mp ha) hn.le
        rw [max_eq_left ((min_le_left _ _).trans hneg)]
        exact le_max_left _ _
    · exact max_le_max le_rfl
        (min_le_min (div_le_div_of_nonneg_right (not_lt.mp hba) hn.le) le_rfl)

section Frame

variable {raw : List ℚ} {cols : Nat} {size : ImageSize} {classCount : Int}
  {scoreThreshold nmsIou : ℚ} (ofBytes : Bytes → ℚ) (toBytes : ℚ → Bytes)

/-- A candidate has a positive score and a class within the count. -/
theorem mem_candidates {cfg : YoloConfig ℚ} {d : Det ℚ} (h : d ∈ candidates raw cols cfg) :
    0 < d.score ∧ 0 ≤ d.cls ∧ d.cls < cfg.classCount := by
  obtain ⟨c, hc, rfl⟩ := List.mem_map.mp h
  obtain ⟨hpos, -⟩ := of_decide_eq_true (List.mem_filter.mp hc).2
  have hne : classScores raw cols cfg.classCount.toNat c ≠ [] := by
    intro hnil
    rw [score, hnil] at hpos
    exact lt_irrefl _ hpos
  have hlt : classOf raw cols cfg.classCount.toNat c < cfg.classCount.toNat := by
    have hindex := List.idxOf_lt_length_of_mem (maxScore_mem hne)
    simpa [classOf, argmax, classScores] using hindex
  refine ⟨hpos, ?_, ?_⟩
  · exact Int.natCast_nonneg _
  · change (classOf raw cols cfg.classCount.toNat c : Int) < cfg.classCount
    omega

/-- The row of a detection. -/
theorem resultRow_eq (d : Det ℚ) :
    resultRow (exactArith ofBytes toBytes)
        (frameConfig size classCount scoreThreshold nmsIou) d =
      [(d.cls : ℚ), d.score, max 0 (min (d.y1 / size.height) 1), max 0 (min (d.x1 / size.width) 1),
        max 0 (min (d.y2 / size.height) 1), max 0 (min (d.x2 / size.width) 1)] := by
  simp only [resultRow, clamp_eq]
  rfl

/-- The row of a candidate is as it should be unless its box is inverted. -/
theorem rowOk_resultRow {d : Det ℚ} (hscore : 0 < d.score)
    (hcls : 0 ≤ d.cls ∧ d.cls < classCount) :
    RowOk classCount (resultRow (exactArith ofBytes toBytes)
      (frameConfig size classCount scoreThreshold nmsIou) d) ↔ ¬ Inverted size d := by
  have hwidth : (0 : ℚ) < size.width := by exact_mod_cast size.width_pos
  have hheight : (0 : ℚ) < size.height := by exact_mod_cast size.height_pos
  have hone : ∀ v : ℚ, max 0 (min v 1) ≤ 1 := fun v => max_le zero_le_one (min_le_right _ _)
  have hedges : max 0 (min (d.x1 / size.width) 1) ≤ max 0 (min (d.x2 / size.width) 1) ↔
      ¬ (d.x2 < d.x1 ∧ 0 < d.x1 ∧ d.x2 < size.width) := clamp_le_iff hwidth
  have hedges' : max 0 (min (d.y1 / size.height) 1) ≤ max 0 (min (d.y2 / size.height) 1) ↔
      ¬ (d.y2 < d.y1 ∧ 0 < d.y1 ∧ d.y2 < size.height) := clamp_le_iff hheight
  rw [resultRow_eq, Inverted, not_or, ← hedges, ← hedges']
  constructor
  · rintro ⟨cls, score, ymin, xmin, ymax, xmax, hrow, -, -, ⟨-, hy, -⟩, ⟨-, hx, -⟩⟩
    simp only [List.cons.injEq, and_true] at hrow
    obtain ⟨-, -, rfl, rfl, rfl, rfl⟩ := hrow
    exact ⟨hx, hy⟩
  · rintro ⟨hx, hy⟩
    exact ⟨d.cls, d.score, _, _, _, _, rfl, hcls, hscore, ⟨le_max_left _ _, hy, hone _⟩,
      ⟨le_max_left _ _, hx, hone _⟩⟩

/-- The rows of the result: those of the kept boxes, sorted again, and zeros. -/
theorem resultRows_eq {sort : Sorter ℚ} (hsort : LawfulSorter sort) {cfg : YoloConfig ℚ}
    {kept : List (Det ℚ)} (hlen : kept.length ≤ 20) :
    resultRows (exactArith ofBytes toBytes) sort cfg kept =
      (sort (byScore (exactArith ofBytes toBytes)) kept).map
          (resultRow (exactArith ofBytes toBytes) cfg) ++
        List.replicate (20 - kept.length) (List.replicate 6 0) := by
  have hperm := hsort.perm (byScore_strictWeak ofBytes toBytes) kept
  rw [resultRows]
  simp only [List.take_of_length_le (hperm.length_eq.trans_le hlen), List.map_append,
    List.map_map, List.map_replicate, List.length_map, hperm.length_eq, finiteRow_eq]
  congr 1

/-- **When the rows honour the output contract**: exactly when suppression keeps no box of
negative size that shows within the image. -/
theorem frameOk_iff {sort : Sorter ℚ} (hsort : LawfulSorter sort)
    (hsize : raw.length = (4 + classCount.toNat) * cols) :
    (∃ rows, postprocessYoloRaw (exactArith ofBytes toBytes) sort raw cols
        (frameConfig size classCount scoreThreshold nmsIou) = some rows ∧
          FrameOk classCount rows) ↔
      ∀ d ∈ greedyNms nmsIou 20 (sort (byScoreThenClass (exactArith ofBytes toBytes))
        (candidates raw cols (frameConfig size classCount scoreThreshold nmsIou))),
        ¬ Inverted size d := by
  let cfg := frameConfig size classCount scoreThreshold nmsIou
  let order := sort (byScoreThenClass (exactArith ofBytes toBytes)) (candidates raw cols cfg)
  let kept := greedyNms nmsIou 20 order
  have hkept : keptDetections (exactArith ofBytes toBytes) sort raw cols (classAware cfg) =
      some kept := keptDetections_eq ofBytes toBytes sort hsize
  have hlen : kept.length ≤ 20 := walk_length_le order
  have hperm := hsort.perm (byScore_strictWeak ofBytes toBytes) kept
  have hgood : ∀ d ∈ kept, 0 < d.score ∧ 0 ≤ d.cls ∧ d.cls < classCount := by
    intro d hd
    have hcandidate : d ∈ candidates raw cols cfg :=
      (hsort.perm (byScoreThenClass_strictWeak ofBytes toBytes) _).mem_iff.mp
        ((walk_sublist order).subset hd)
    exact mem_candidates hcandidate
  have hresult : postprocessYoloRaw (exactArith ofBytes toBytes) sort raw cols cfg =
      some (resultRows (exactArith ofBytes toBytes) sort cfg kept) := by
    rw [postprocessYoloRaw_eq]
    exact congrArg (Option.map _) hkept
  rw [resultRows_eq ofBytes toBytes hsort hlen] at hresult
  constructor
  · rintro ⟨rows, hrows, used, hused, hsplit, hok, -⟩ d hd
    rw [hresult] at hrows
    obtain rfl := Option.some.inj hrows
    obtain ⟨hscore, hcls⟩ := hgood d hd
    have hmem : resultRow (exactArith ofBytes toBytes) cfg d ∈
        used ++ List.replicate (20 - used.length) (List.replicate 6 0) := by
      rw [← hsplit]
      exact List.mem_append_left _ (List.mem_map_of_mem (hperm.mem_iff.mpr hd))
    rcases List.mem_append.mp hmem with hin | hzero
    · exact (rowOk_resultRow ofBytes toBytes hscore hcls).mp (hok _ hin)
    · have heq := List.eq_of_mem_replicate hzero
      rw [resultRow_eq] at heq
      simp only [List.replicate, List.cons.injEq] at heq
      exact absurd heq.2.1 hscore.ne'
  · intro hnone
    refine ⟨_, hresult, (sort (byScore (exactArith ofBytes toBytes)) kept).map
      (resultRow (exactArith ofBytes toBytes) cfg), ?_, ?_, ?_, ?_⟩
    · rw [List.length_map, hperm.length_eq]
      exact hlen
    · rw [List.length_map, hperm.length_eq]
    · intro row hrow
      obtain ⟨d, hd, rfl⟩ := List.mem_map.mp hrow
      have hd := hperm.mem_iff.mp hd
      obtain ⟨hscore, hcls⟩ := hgood d hd
      exact (rowOk_resultRow ofBytes toBytes hscore hcls).mpr (hnone d hd)
    · rw [List.pairwise_map]
      refine (hsort.sorted (byScore_strictWeak ofBytes toBytes) kept).imp ?_
      intro a b hba
      rw [← Bool.not_eq_true, byScore_iff, not_lt] at hba
      rw [resultRow_eq, resultRow_eq]
      exact hba

end Frame

/-! ## Two columns -/

/-- The suppression of a sample with two classes. -/
theorem suppression_greedy_twoColumns :
    ∃ order kept,
      keptDetections (exactArith (fun _ => 0) fun _ => []) insertionSorter twoColumns.data 2
          (classAware (nativeConfig (pixelProfile 2) squareImage)) = some kept ∧
        order.Perm (candidates twoColumns.data 2 (nativeConfig (pixelProfile 2) squareImage)) ∧
        order.Pairwise Preferred ∧ Suppressed (9 / 20) 20 order kept :=
  suppression_greedy _ _ insertionSorter_lawful rfl

theorem frameOk_twoColumns :
    ∃ rows, postprocessYoloRaw (exactArith (fun _ => 0) fun _ => []) insertionSorter
        twoColumns.data 2 (frameConfig squareImage 2 (1 / 4) (9 / 20)) = some rows ∧
      FrameOk 2 rows :=
  (frameOk_iff _ _ insertionSorter_lawful rfl).mpr (by decide +kernel)

/-- One column whose box has a negative width. -/
def invertedColumn : List ℚ :=
  [160, 160, -80, 40, 9 / 10]

/-- Its row has its edges in the wrong order. -/
theorem invertedColumn_not_frameOk :
    LawfulSorter insertionSorter ∧
      ¬ ∃ rows, postprocessYoloRaw (exactArith (fun _ => 0) fun _ => []) insertionSorter
          invertedColumn 1 (frameConfig squareImage 1 (1 / 4) (9 / 20)) = some rows ∧
        FrameOk 1 rows := by
  have hkept : ¬ ∀ d ∈ greedyNms (9 / 20) 20
      (insertionSorter (byScoreThenClass (exactArith (fun _ => 0) fun _ => []))
        (candidates invertedColumn 1 (frameConfig squareImage 1 (1 / 4) (9 / 20)))),
      ¬ Inverted squareImage d := by
    decide +kernel
  exact ⟨insertionSorter_lawful,
    fun hok => hkept ((frameOk_iff _ _ insertionSorter_lawful rfl).mp hok)⟩

end Models
end FrigateXdna
