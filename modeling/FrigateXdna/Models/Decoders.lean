import Mathlib.Tactic.FinCases
import FrigateXdna.Models.Contracts
import FrigateXdna.Native.Postprocess

/-!
# The two YOLO decoders

{lit}`decode_yolo_raw` in Python and {lit}`postprocess_yolo_raw` in the worker, side by side
over exact rational numbers.  They part ways at the threshold, which only the worker admits,
at scores that are not positive, which only Python admits, at equal scores, whose order
{lit}`std::sort` leaves open, and without classes.

Main results:

- Theorem {lit}`bestClass_eq`: the worker's loop over the classes finds the maximum.
- Theorem {lit}`detections_eq`: the worker finds the columns that Python selects.
- Theorem {lit}`decoders_agree`: the decoders agree on an output with decisive scores.
- Theorem {lit}`decoders_disagree_of_no_class`: they never agree without classes.
-/

namespace FrigateXdna
namespace Models

open Python Library Native

/-! ## Agreement -/

/-- The profile for the worker. -/
def nativeConfig (profile : RawYoloProfile) (size : ImageSize) : YoloConfig ℚ where
  imageW := size.width
  imageH := size.height
  classCount := profile.classCount
  scoreThreshold := profile.scoreThreshold
  nmsIou := profile.nmsIou

/-- A row whose coordinates are clamped to the image. -/
def clampRow (row : List ℚ) : List ℚ :=
  row.mapIdx fun k v => if 2 ≤ k then max 0 (min v 1) else v

/-- The worker's rows are Python's rows, clamped. -/
def DecodersAgree (A : Arith ℚ) (sort : Sorter ℚ) (raw : NdArray) (cols : Nat)
    (profile : RawYoloProfile) (size : ImageSize) : Prop :=
  ∃ rows, decodeYoloRaw raw profile size = .ok rows ∧ rows.length = 20 ∧
    postprocessYoloRaw A sort raw.data cols (nativeConfig profile size) =
      some (rows.map clampRow)

/-- A comparison that {lit}`std::sort` accepts: a strict weak order. -/
structure StrictWeak {F : Type} (lt : Det F → Det F → Bool) : Prop where
  irrefl (a : Det F) : lt a a = false
  trans {a b c : Det F} : lt a b = true → lt b c = true → lt a c = true
  incomp {a b c : Det F} : lt a b = false → lt b a = false → lt b c = false → lt c b = false →
    lt a c = false

/-- What {lit}`std::sort` promises: the same items, none before one that is smaller. -/
structure LawfulSorter {F : Type} (sort : Sorter F) : Prop where
  perm {lt : Det F → Det F → Bool} (h : StrictWeak lt) (items : List (Det F)) :
    (sort lt items).Perm items
  sorted {lt : Det F → Det F → Bool} (h : StrictWeak lt) (items : List (Det F)) :
    (sort lt items).Pairwise fun a b => lt b a = false

/-- Scores that leave no choice: there is a class, no best score is a positive threshold or
above the threshold without being positive, and the selected columns differ in theirs. -/
structure Decisive (data : List ℚ) (cols classes : Nat) (threshold : ℚ) : Prop where
  classes_pos : 0 < classes
  off_threshold : ∀ c < cols, 0 < threshold → score data cols classes c ≠ threshold
  positive : ∀ c < cols, threshold < score data cols classes c → 0 < score data cols classes c
  distinct : ∀ c < cols, ∀ d < cols, threshold < score data cols classes c →
    score data cols classes c = score data cols classes d → c = d

/-! ## The best class of a column -/

section Columns

variable {data : List ℚ} {cols classes : Nat} (ofBytes : Bytes → ℚ) (toBytes : ℚ → Bytes)

/-- A loop whose rounds all have a value is a loop over the values. -/
theorem foldlM_some {β ι : Type} {f : β → ι → Option β} {g : β → ι → β} {items : List ι}
    (h : ∀ b, ∀ i ∈ items, f b i = some (g b i)) (b : β) :
    items.foldlM f b = some (items.foldl g b) := by
  induction items generalizing b with
  | nil => rfl
  | cons i rest ih =>
      rw [List.foldlM_cons, h b i List.mem_cons_self, List.foldl_cons]
      exact ih (fun b j hj => h b j (List.mem_cons_of_mem i hj)) (g b i)

/-- A map whose items all have a value is a map to the values. -/
theorem mapM_some {ι β : Type} {f : ι → Option β} {g : ι → β} {items : List ι}
    (h : ∀ i ∈ items, f i = some (g i)) : items.mapM f = some (items.map g) := by
  induction items with
  | nil => rfl
  | cons i rest ih =>
      rw [List.mapM_cons, h i List.mem_cons_self, ih fun j hj => h j (List.mem_cons_of_mem i hj)]
      rfl

/-- The values of the items that have one. -/
theorem filterMap_ite {ι β : Type} (p : ι → Prop) [DecidablePred p] (f : ι → β)
    (items : List ι) :
    (items.map fun i => if p i then some (f i) else none).filterMap id =
      (items.filter fun i => decide (p i)).map f := by
  induction items with
  | nil => rfl
  | cons i rest ih =>
      rw [List.map_cons, List.filter_cons]
      by_cases hp : p i
      · rw [if_pos hp, if_pos (decide_eq_true hp), List.map_cons, ← ih]
        rfl
      · rw [if_neg hp, if_neg (by simpa using hp), ← ih]
        rfl

theorem readRaw_eq {rows r c : Nat} (hsize : data.length = rows * cols) (hr : r < rows)
    (hc : c < cols) : readRaw data cols r c = some (entry data cols r c) := by
  have hle : (r + 1) * cols ≤ rows * cols := Nat.mul_le_mul_right cols hr
  have hlt : r * cols + c < data.length := by
    rw [hsize]
    rw [Nat.add_mul, Nat.one_mul] at hle
    omega
  simp [readRaw, entry, hlt]

/-- The class that the loop has found after some classes: none while no score is positive,
and else the first with the greatest. -/
def BestUpTo (s : Nat → ℚ) (n : Nat) (best : ℚ × Int) : Prop :=
  (best = (0, -1) ∧ ∀ k < n, s k ≤ 0) ∨
    ∃ j < n, best = (s j, (j : Int)) ∧ 0 < s j ∧ (∀ k < n, s k ≤ s j) ∧ ∀ k < j, s k < s j

/-- One round of the loop. -/
theorem BestUpTo.step {s : Nat → ℚ} {n : Nat} {best : ℚ × Int} (h : BestUpTo s n best) :
    BestUpTo s (n + 1) (if best.1 < s n then (s n, (n : Int)) else best) := by
  rcases h with ⟨rfl, hle⟩ | ⟨j, hj, rfl, hpos, hmax, hfirst⟩
  · by_cases hn : 0 < s n
    · rw [if_pos hn]
      refine Or.inr ⟨n, Nat.lt_succ_self n, rfl, hn, ?_, ?_⟩
      · intro k hk
        rcases Nat.lt_succ_iff_lt_or_eq.mp hk with hk | rfl
        · exact (hle k hk).trans hn.le
        · exact le_refl _
      · intro k hk
        exact (hle k hk).trans_lt hn
    · rw [if_neg hn]
      refine Or.inl ⟨rfl, ?_⟩
      intro k hk
      rcases Nat.lt_succ_iff_lt_or_eq.mp hk with hk | rfl
      · exact hle k hk
      · exact not_lt.mp hn
  · by_cases hn : s j < s n
    · rw [if_pos hn]
      refine Or.inr ⟨n, Nat.lt_succ_self n, rfl, hpos.trans hn, ?_, ?_⟩
      · intro k hk
        rcases Nat.lt_succ_iff_lt_or_eq.mp hk with hk | rfl
        · exact (hmax k hk).trans hn.le
        · exact le_refl _
      · intro k hk
        exact (hmax k hk).trans_lt hn
    · rw [if_neg hn]
      refine Or.inr ⟨j, Nat.lt_succ_of_lt hj, rfl, hpos, ?_, hfirst⟩
      intro k hk
      rcases Nat.lt_succ_iff_lt_or_eq.mp hk with hk | rfl
      · exact hmax k hk
      · exact not_lt.mp hn

theorem foldl_bestUpTo (s : Nat → ℚ) (n : Nat) :
    BestUpTo s n ((List.range n).foldl
      (fun best k => if best.1 < s k then (s k, (k : Int)) else best) (0, -1)) := by
  induction n with
  | zero => exact Or.inl ⟨rfl, fun k hk => absurd hk (Nat.not_lt_zero k)⟩
  | succ n ih =>
      rw [List.range_succ, List.foldl_append]
      exact ih.step

/-- The first place of the greatest score. -/
theorem argmax_eq {s : Nat → ℚ} {n j : Nat} (hj : j < n) (hmax : ∀ k < n, s k ≤ s j)
    (hfirst : ∀ k < j, s k < s j) :
    maxScore ((List.range n).map s) = s j ∧ argmax ((List.range n).map s) = j := by
  have hmem : s j ∈ (List.range n).map s :=
    List.mem_map.mpr ⟨j, List.mem_range.mpr hj, rfl⟩
  have hscore : maxScore ((List.range n).map s) = s j := by
    apply le_antisymm
    · obtain ⟨k, hk, heq⟩ := List.mem_map.mp (maxScore_mem (List.ne_nil_of_mem hmem))
      rw [← heq]
      exact hmax k (List.mem_range.mp hk)
    · exact le_maxScore hmem
  refine ⟨hscore, ?_⟩
  have hlt : j < ((List.range n).map s).length := by simpa using hj
  rw [argmax, hscore, List.idxOf, List.findIdx_eq hlt]
  constructor
  · simp
  · intro k hk
    simp [(hfirst k hk).ne]

/-- **The worker's loop over the classes finds the maximum**, if it is positive. -/
theorem bestClass_eq {c : Nat} (hsize : data.length = (4 + classes) * cols) (hc : c < cols)
    (hclasses : 0 < classes) :
    bestClass (exactArith ofBytes toBytes) data cols classes c =
      some (if 0 < score data cols classes c then
        (score data cols classes c, (classOf data cols classes c : Int)) else (0, -1)) := by
  have hround : ∀ best : ℚ × Int, ∀ k ∈ List.range classes,
      betterClass (exactArith ofBytes toBytes) data cols c best k =
        some (if best.1 < entry data cols (4 + k) c then (entry data cols (4 + k) c, (k : Int))
          else best) := by
    intro best k hk
    have hk : 4 + k < 4 + classes := Nat.add_lt_add_left (List.mem_range.mp hk) 4
    simp [betterClass, readRaw_eq hsize hk hc, exactArith]
  have hloop : bestClass (exactArith ofBytes toBytes) data cols classes c = some _ :=
    foldlM_some hround (0, -1)
  rw [hloop]
  congr 1
  rcases foldl_bestUpTo (fun k => entry data cols (4 + k) c) classes with
    ⟨hnone, hle⟩ | ⟨j, hj, hbest, hpos, hmax, hfirst⟩
  · rw [hnone, if_neg]
    have hne : classScores data cols classes c ≠ [] := by
      simpa [classScores] using hclasses.ne'
    obtain ⟨k, hk, heq⟩ := List.mem_map.mp (maxScore_mem hne)
    rw [not_lt, score, classScores, ← heq]
    exact hle k (List.mem_range.mp hk)
  · obtain ⟨hscore, harg⟩ := argmax_eq hj hmax hfirst
    rw [hbest, score, classOf, classScores, hscore, harg, if_pos hpos]

/-! ## The detections -/

/-- The worker's detection of a column. -/
def detOf (data : List ℚ) (cols classes c : Nat) : Det ℚ where
  score := score data cols classes c
  cls := classOf data cols classes c
  x1 := (boxOf data cols c).x1
  y1 := (boxOf data cols c).y1
  x2 := (boxOf data cols c).x2
  y2 := (boxOf data cols c).y2

variable {profile : RawYoloProfile} {size : ImageSize}

/-- A column whose scores are decisive is detected if Python selects it. -/
theorem detection_eq {c : Nat} (hsize : data.length = (4 + classes) * cols) (hc : c < cols)
    (hcount : profile.classCount = classes)
    (h : Decisive data cols classes profile.scoreThreshold) :
    detection (exactArith ofBytes toBytes) data cols (nativeConfig profile size) c =
      some (if profile.scoreThreshold < score data cols classes c then
        some (detOf data cols classes c) else none) := by
  have hread : ∀ r < 4, readRaw data cols r c = some (entry data cols r c) := fun r hr =>
    readRaw_eq hsize (by omega) hc
  unfold detection
  simp only [nativeConfig, hcount, bestClass_eq ofBytes toBytes hsize hc h.classes_pos,
    Option.bind_eq_bind, Option.bind_some]
  by_cases hpos : 0 < score data cols classes c
  · rw [if_pos hpos]
    have hcls : ¬ ((classOf data cols classes c : Int) < 0) := by omega
    by_cases hsel : profile.scoreThreshold < score data cols classes c
    · have hlt : ¬ score data cols classes c < profile.scoreThreshold := hsel.not_gt
      simp [exactArith, hsel, hlt, hcls, hread, detOf, boxOf, div_eq_mul_inv]
    · have hlt : score data cols classes c < profile.scoreThreshold := by
        apply lt_of_le_of_ne (not_lt.mp hsel)
        intro heq
        exact h.off_threshold c hc (heq ▸ hpos) heq
      simp [exactArith, hsel, hlt]
  · have hsel : ¬ profile.scoreThreshold < score data cols classes c := fun hsel =>
      hpos (h.positive c hc hsel)
    simp [exactArith, hpos, hsel]

/-- **The worker finds the columns that Python selects.** -/
theorem detections_eq (hsize : data.length = (4 + classes) * cols)
    (hcount : profile.classCount = classes)
    (h : Decisive data cols classes profile.scoreThreshold) :
    detections (exactArith ofBytes toBytes) data cols (nativeConfig profile size) =
      some ((selected data cols classes profile).map (detOf data cols classes)) := by
  have hmap : (List.range cols).mapM
      (detection (exactArith ofBytes toBytes) data cols (nativeConfig profile size)) = some _ :=
    mapM_some fun c hc => detection_eq ofBytes toBytes hsize (List.mem_range.mp hc) hcount h
  rw [detections, hmap, Option.map_some, filterMap_ite]
  rfl

end Columns

/-! ## Sorting -/

section Sorting

variable {F : Type} {lt : Det F → Det F → Bool} {sort : Sorter F}

theorem StrictWeak.asymm (h : StrictWeak lt) {a b : Det F} (hab : lt a b = true) :
    lt b a = false := by
  rw [← Bool.not_eq_true]
  intro hba
  have hself := h.trans hab hba
  rw [h.irrefl a] at hself
  exact Bool.false_ne_true hself

/-- **Items in strict order** are what every lawful sorter makes of them. -/
theorem LawfulSorter.eq_of_strict (hsort : LawfulSorter sort) (h : StrictWeak lt)
    {items sorted : List (Det F)} (hperm : sorted.Perm items)
    (hstrict : sorted.Pairwise fun a b => lt a b = true) : sort lt items = sorted := by
  have hcompare : ∀ a ∈ sorted, ∀ b ∈ sorted, a = b ∨ lt a b = true ∨ lt b a = true := by
    apply List.Pairwise.forall_of_forall_of_flip
    · exact fun a _ => Or.inl rfl
    · exact hstrict.imp fun hab => Or.inr (Or.inl hab)
    · exact hstrict.imp fun hab => Or.inr (Or.inr hab)
  have hperm' := (hsort.perm h items).trans hperm.symm
  refine List.Perm.eq_of_pairwise ?_ (hsort.sorted h items) ?_ hperm'
  · intro a b ha hb hba hab
    rcases hcompare a (hperm'.mem_iff.mp ha) b hb with heq | hlt | hlt
    · exact heq
    · rw [hab] at hlt
      contradiction
    · rw [hba] at hlt
      contradiction
  · exact hstrict.imp fun hab => h.asymm hab

end Sorting

section Order

variable (ofBytes : Bytes → ℚ) (toBytes : ℚ → Bytes)

theorem byScoreThenClass_iff (a b : Det ℚ) :
    byScoreThenClass (exactArith ofBytes toBytes) a b = true ↔
      b.score < a.score ∨ a.score = b.score ∧ a.cls < b.cls := by
  by_cases h : a.score = b.score
  · simp [byScoreThenClass, exactArith, h]
  · simp [byScoreThenClass, exactArith, h]

theorem byScore_iff (a b : Det ℚ) :
    byScore (exactArith ofBytes toBytes) a b = true ↔ b.score < a.score := by
  simp [byScore, exactArith]

theorem byScoreThenClass_strictWeak :
    StrictWeak (byScoreThenClass (exactArith ofBytes toBytes)) where
  irrefl a := by
    rw [← Bool.not_eq_true, byScoreThenClass_iff]
    simp
  trans {a b c} hab hbc := by
    rw [byScoreThenClass_iff] at hab hbc ⊢
    grind
  incomp {a b c} hab hba hbc hcb := by
    rw [← Bool.not_eq_true, byScoreThenClass_iff] at hab hba hbc hcb ⊢
    grind

theorem byScore_strictWeak : StrictWeak (byScore (exactArith ofBytes toBytes)) where
  irrefl a := by
    rw [← Bool.not_eq_true, byScore_iff]
    exact lt_irrefl _
  trans {a b c} hab hbc := by
    rw [byScore_iff] at hab hbc ⊢
    exact hbc.trans hab
  incomp {a b c} hab hba hbc hcb := by
    rw [← Bool.not_eq_true, byScore_iff, not_lt] at hab hba hbc hcb ⊢
    exact hab.trans hbc

end Order

/-! ## Suppression -/

/-- The worker's loop marks what it drops. -/
theorem suppress_eq {F : Type} (A : Arith F) {cfg : YoloConfig F} (fuel kept : Nat)
    (items : List (Det F × Bool)) :
    suppress A cfg fuel kept items =
      greedyMarks (suppresses A cfg) cfg.maxDet.toNat fuel kept items := by
  induction fuel generalizing kept items with
  | zero => rfl
  | succ fuel ih =>
      cases items with
      | nil => rfl
      | cons x rest =>
          rcases x with ⟨d, dropped⟩
          have hkept : (kept : Int) < cfg.maxDet ↔ kept < cfg.maxDet.toNat := by omega
          rw [suppress, greedyMarks, if_congr hkept rfl rfl]
          split_ifs with hmore hdropped
          · exact ih kept rest
          · rw [← Nat.cast_succ, ih]
          · rfl

section Decoders

variable {data : List ℚ} {cols classes : Nat} (ofBytes : Bytes → ℚ) (toBytes : ℚ → Bytes)
  {profile : RawYoloProfile} {size : ImageSize}

theorem max_eq (a b : ℚ) : (exactArith ofBytes toBytes).max a b = max a b := by
  by_cases h : a < b
  · simp [Arith.max, exactArith, h, max_eq_right h.le]
  · simp [Arith.max, exactArith, h, max_eq_left (not_lt.mp h)]

theorem min_eq (a b : ℚ) : (exactArith ofBytes toBytes).min a b = min a b := by
  by_cases h : b < a
  · simp [Arith.min, exactArith, h, min_eq_right h.le]
  · simp [Arith.min, exactArith, h, min_eq_left (not_lt.mp h)]

/-- The two formulas for the overlap. -/
theorem iou_detOf (a b : Nat) :
    iou (exactArith ofBytes toBytes) (detOf data cols classes a) (detOf data cols classes b) =
      iouXyxy (boxOf data cols a) (boxOf data cols b) := by
  simp only [iou, iouXyxy, max_eq, min_eq]
  rfl

/-- The worker suppresses what Python filters out. -/
theorem suppresses_detOf (a b : Nat) :
    suppresses (exactArith ofBytes toBytes) (nativeConfig profile size)
      (detOf data cols classes a) (detOf data cols classes b) =
        overlaps data cols classes profile a b := by
  rw [suppresses, iou_detOf, overlaps]
  simp [nativeConfig, exactArith, detOf]

/-- The columns in the order of their scores are in the worker's strict order. -/
theorem order_strict (h : Decisive data cols classes profile.scoreThreshold) :
    (scoreOrder data cols classes (selected data cols classes profile)).Pairwise fun a b =>
      score data cols classes b < score data cols classes a := by
  have hperm := scoreOrder_perm data cols classes (selected data cols classes profile)
  have hnodup : (scoreOrder data cols classes (selected data cols classes profile)).Nodup :=
    hperm.nodup_iff.mpr (List.nodup_range.filter _)
  refine (hnodup.and (scoreOrder_pairwise _ _ _ _)).imp_of_mem ?_
  intro a b ha hb hab
  have hsel := List.mem_filter.mp (hperm.mem_iff.mp ha)
  have hsel' := List.mem_filter.mp (hperm.mem_iff.mp hb)
  apply lt_of_le_of_ne hab.2
  intro heq
  exact hab.1 (h.distinct a (List.mem_range.mp hsel.1) b (List.mem_range.mp hsel'.1)
    (of_decide_eq_true hsel.2) heq.symm)

/-! ## The rows -/

theorem clamp_eq (v : ℚ) : (exactArith ofBytes toBytes).clampFinite v = max 0 (min v 1) := by
  have hfinite : (exactArith ofBytes toBytes).finite v = true := rfl
  rw [Arith.clampFinite, if_pos hfinite, Arith.clamp]
  by_cases hneg : v < 0
  · have hmin : min v 1 = v := min_eq_left (hneg.le.trans zero_le_one)
    simp [exactArith, hneg, hmin, hneg.le]
  · by_cases hbig : 1 < v
    · simp [exactArith, hneg, hbig, min_eq_right hbig.le]
    · simp [exactArith, hneg, hbig, min_eq_left (not_lt.mp hbig), not_lt.mp hneg]

/-- The worker's row is Python's row, clamped. -/
theorem resultRow_detOf (c : Nat) :
    resultRow (exactArith ofBytes toBytes) (nativeConfig profile size) (detOf data cols classes c) =
      clampRow (detectionRow data cols classes size c) := by
  simp only [resultRow, clamp_eq]
  simp [clampRow, detectionRow, List.mapIdx_cons, exactArith, nativeConfig, detOf]

/-- Exact numbers are finite. -/
theorem finiteRow_eq (row : List ℚ) : finiteRow (exactArith ofBytes toBytes) row = row := by
  apply List.ext_getElem?
  intro k
  simp [finiteRow, exactArith]

theorem zeroRow_eq :
    zeroRow (exactArith ofBytes toBytes) = clampRow (List.replicate 6 0) := by
  simp [zeroRow, clampRow, exactArith, List.replicate, List.mapIdx_cons]

/-- The rows that Python keeps are in the order of their scores. -/
theorem rows_sorted {kept : List Nat}
    (h : kept.Pairwise fun a b => score data cols classes b < score data cols classes a) :
    (kept.map (detectionRow data cols classes size)).insertionSort
      (fun a b => -rowScore a ≤ -rowScore b) = kept.map (detectionRow data cols classes size) := by
  apply List.Pairwise.insertionSort_eq
  rw [List.pairwise_map]
  exact h.imp fun hab => neg_le_neg hab.le

/-- The rows of Python's result, when no two scores are equal. -/
theorem decodedRows_eq (h : Decisive data cols classes profile.scoreThreshold) {order : List Nat}
    (horder : order = scoreOrder data cols classes (selected data cols classes profile)) :
    decodedRows data cols classes profile size =
      (nms data cols classes profile order.length 0 order).map
          (detectionRow data cols classes size) ++
        List.replicate
          (profile.maxDetections - (nms data cols classes profile order.length 0 order).length)
          (List.replicate 6 0) := by
  have hstrict := order_strict h
  rw [← horder] at hstrict
  have hsub : (nms data cols classes profile order.length 0 order).Sublist order := by
    rw [nms_eq_greedy]
    exact greedy_sublist _ _ _
  rw [decodedRows, ← horder, rows_sorted (hstrict.sublist hsub)]

/-- The rows of the worker's result, when no two scores are equal. -/
theorem postprocess_eq {sort : Sorter ℚ} (hsort : LawfulSorter sort)
    (hsize : data.length = (4 + classes) * cols) (hcount : profile.classCount = classes)
    (hmax : profile.maxDetections = 20)
    (h : Decisive data cols classes profile.scoreThreshold) {order : List Nat}
    (horder : order = scoreOrder data cols classes (selected data cols classes profile)) :
    postprocessYoloRaw (exactArith ofBytes toBytes) sort data cols (nativeConfig profile size) =
      some ((nms data cols classes profile order.length 0 order).map
          (fun c => clampRow (detectionRow data cols classes size c)) ++
        List.replicate (20 - (nms data cols classes profile order.length 0 order).length)
          (clampRow (List.replicate 6 0))) := by
  have hstrict := order_strict h
  rw [← horder] at hstrict
  have hperm : (order.map (detOf data cols classes)).Perm
      ((selected data cols classes profile).map (detOf data cols classes)) := by
    rw [horder]
    exact (scoreOrder_perm _ _ _ _).map _
  have hsorted := hsort.eq_of_strict (byScoreThenClass_strictWeak ofBytes toBytes) hperm (by
    rw [List.pairwise_map]
    exact hstrict.imp fun hab => (byScoreThenClass_iff ofBytes toBytes _ _).mpr (Or.inl hab))
  have hlimit : (nativeConfig profile size).maxDet.toNat = 20 := rfl
  have hkept : suppress (exactArith ofBytes toBytes) (nativeConfig profile size) order.length
      ((0 : Nat) : Int) ((order.map (detOf data cols classes)).map fun d => (d, false)) =
        (nms data cols classes profile order.length 0 order).map (detOf data cols classes) := by
    have hfuel : (unmarked ((order.map (detOf data cols classes)).map fun d => (d, false))).length ≤
        order.length := by rw [unmarked_fresh, List.length_map]
    rw [suppress_eq, hlimit, greedyMarks_eq (by simp) hfuel, unmarked_fresh,
      greedy_map (suppresses_detOf ofBytes toBytes), nms_eq_greedy, hmax]
  have hsub : (nms data cols classes profile order.length 0 order).Sublist order := by
    rw [nms_eq_greedy]
    exact greedy_sublist _ _ _
  have hagain := hsort.eq_of_strict (byScore_strictWeak ofBytes toBytes)
    (List.Perm.refl
      ((nms data cols classes profile order.length 0 order).map (detOf data cols classes))) (by
    rw [List.pairwise_map]
    exact (hstrict.sublist hsub).imp fun hab => (byScore_iff ofBytes toBytes _ _).mpr hab)
  have hlen := nms_length_le data cols classes profile order.length order
  rw [hmax] at hlen
  rw [postprocessYoloRaw, detections_eq ofBytes toBytes hsize hcount h, Option.map_some]
  simp only [hsorted, List.length_map]
  rw [Nat.cast_zero] at hkept
  rw [hkept, hagain, List.take_of_length_le (by rwa [List.length_map])]
  simp only [List.map_append, List.map_map, List.map_replicate, List.length_map, finiteRow_eq,
    zeroRow_eq]
  congr 3
  funext c
  simp [resultRow_detOf, finiteRow_eq]

/-- **The decoders agree on an output with decisive scores.** -/
theorem decoders_agree {sort : Sorter ℚ} (hsort : LawfulSorter sort) {raw : NdArray}
    (hlayout : profile.layout = py "cxcywh") (hunits : profile.coordinateUnits = py "pixels")
    (hobjectness : profile.objectness = false) (hmax : profile.maxDetections = 20)
    (hcount : profile.classCount = classes) (hshape : raw.shape = [4 + classes, cols])
    (h : Decisive raw.data cols classes profile.scoreThreshold) :
    DecodersAgree (exactArith ofBytes toBytes) sort raw cols profile size := by
  have hsize : raw.data.length = (4 + classes) * cols := by
    rw [raw.length_eq, hshape]
    simp
  have hdecode : decodeYoloRaw raw profile size =
      .ok (decodedRows raw.data cols classes profile size) := by
    have hrows : ((4 + classes : Nat) : Int) = 4 + profile.classCount := by
      rw [hcount]
      push_cast
      rfl
    have hpos : ¬ 4 + classes ≤ 4 := by
      have := h.classes_pos
      omega
    simp only [decodeYoloRaw, hlayout, hunits, hobjectness, hshape, hrows, hpos, ne_eq,
      not_true_eq_false, or_self, if_false, Bool.false_eq_true, Nat.add_sub_cancel_left]
  have hrows : decodedRows raw.data cols classes profile size = _ := decodedRows_eq h rfl
  rw [hmax] at hrows
  refine ⟨_, hdecode, ?_, ?_⟩
  · have hlen := nms_length_le raw.data cols classes profile
      (scoreOrder raw.data cols classes (selected raw.data cols classes profile)).length
      (scoreOrder raw.data cols classes (selected raw.data cols classes profile))
    rw [hmax] at hlen
    rw [hrows]
    simp only [List.length_append, List.length_map, List.length_replicate]
    omega
  · rw [postprocess_eq ofBytes toBytes hsort hsize hcount hmax h rfl, hrows]
    simp

/-- Without classes Python refuses an output that the worker decodes. -/
theorem decoders_disagree_of_no_class (sort : Sorter ℚ) {raw : NdArray}
    (hshape : raw.shape = [4, cols]) :
    ¬ DecodersAgree (exactArith ofBytes toBytes) sort raw cols profile size := by
  rintro ⟨rows, hdecode, -⟩
  simp only [decodeYoloRaw, hshape] at hdecode
  split_ifs at hdecode
  all_goals contradiction

end Decoders

/-! ## Two outputs -/

/-- A sorter that keeps the order of items that compare equal. -/
def insertionSorter : Sorter ℚ :=
  fun lt items => items.insertionSort fun a b => lt b a = false

theorem insertionSorter_lawful : LawfulSorter insertionSorter where
  perm _ items := List.perm_insertionSort _ items
  sorted {lt} h items := by
    have : Std.Total fun a b => lt b a = false := ⟨fun a b => by
      cases hab : lt a b with
      | true => exact Or.inl (h.asymm hab)
      | false => exact Or.inr rfl⟩
    have : IsTrans (Det ℚ) fun a b => lt b a = false := ⟨fun a b c hba hcb => by
      rw [← Bool.not_eq_true]
      intro hca
      cases hab : lt a b with
      | true =>
          rw [h.trans hca hab] at hcb
          contradiction
      | false =>
          cases hbc : lt b c with
          | true =>
              rw [h.trans hbc hca] at hba
              contradiction
          | false =>
              rw [h.incomp hcb hbc hba hab] at hca
              contradiction⟩
    exact List.pairwise_insertionSort _ items

/-- Two columns, each with its own class. -/
def twoColumns : NdArray where
  shape := [6, 2]
  data := [160, 100, 160, 120, 80, 20, 40, 60, 9 / 10, 1 / 10, 1 / 5, 1 / 2]
  length_eq := by decide

/-- One column whose score is the threshold. -/
def thresholdColumn : NdArray where
  shape := [5, 1]
  data := [160, 160, 80, 40, 1 / 4]
  length_eq := by decide

/-- A profile for pixels with some number of classes. -/
def pixelProfile (classCount : Int) : RawYoloProfile where
  layout := py "cxcywh"
  coordinateUnits := py "pixels"
  classCount

/-- A square image. -/
def squareImage : ImageSize where
  width := 320
  height := 320
  width_pos := by decide
  height_pos := by decide

theorem decoders_agree_twoColumns :
    DecodersAgree (exactArith (fun _ => 0) fun _ => []) insertionSorter twoColumns 2
      (pixelProfile 2) squareImage := by
  have hdecisive : Decisive twoColumns.data 2 2 (pixelProfile 2).scoreThreshold :=
    { classes_pos := by decide
      off_threshold := by decide +kernel
      positive := by decide +kernel
      distinct := by decide +kernel }
  exact decoders_agree _ _ insertionSorter_lawful rfl rfl rfl rfl rfl rfl hdecisive

/-- The worker keeps a column at the threshold, and Python does not. -/
theorem thresholdColumn_disagree :
    LawfulSorter insertionSorter ∧
      ¬ DecodersAgree (exactArith (fun _ => 0) fun _ => []) insertionSorter thresholdColumn 1
        (pixelProfile 1) squareImage := by
  refine ⟨insertionSorter_lawful, ?_⟩
  rintro ⟨rows, hdecode, -, hnative⟩
  have hzero : decodeYoloRaw thresholdColumn (pixelProfile 1) squareImage =
      .ok (List.replicate 20 (List.replicate 6 0)) := by decide +kernel
  rw [hzero] at hdecode
  obtain rfl := Except.ok.inj hdecode
  revert hnative
  decide +kernel

end Models
end FrigateXdna
