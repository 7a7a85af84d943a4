import Mathlib.Algebra.Order.Ring.Rat
import Mathlib.Data.List.Sort
import FrigateXdna.Errors
import FrigateXdna.Library.Greedy

/-!
# Decoding a raw YOLO output

{lit}`decode_yolo_raw` of {lit}`models/contracts.py`, over exact rational numbers, all of
which are finite.  A position in {lit}`sel` is given as the column that stands there.

Main results:

- Theorem {lit}`nms_eq_greedy`: the suppression loop is a greedy selection.
- Theorem {lit}`scoreOrder_pairwise`: the loop goes through the columns by falling score.
-/

namespace FrigateXdna
namespace Models

open Python Library

/-! ## Arrays -/

/-- An array of numbers in row-major order. -/
structure NdArray where
  shape : List Nat
  data : List ℚ
  length_eq : data.length = shape.prod

/-- The size of an image, {lit}`image_wh`. -/
structure ImageSize where
  width : Int
  height : Int
  width_pos : 0 < width
  height_pos : 0 < height

/-- {lit}`RawYoloProfile`. -/
structure RawYoloProfile where
  layout : PyStr
  coordinateUnits : PyStr
  classCount : Int
  objectness : Bool := false
  scoreThreshold : ℚ := 1 / 4
  nmsIou : ℚ := 9 / 20
  maxDetections : Nat := 20

/-- {lit}`raw[k, c]`. -/
def entry (data : List ℚ) (cols k c : Nat) : ℚ :=
  data.getD (k * cols + c) 0

/-- {lit}`max` of one column; there is at least one number. -/
def maxScore : List ℚ → ℚ
  | [] => 0
  | s :: rest => rest.foldl max s

/-- {lit}`argmax` of one column: the first place of its maximum. -/
def argmax (column : List ℚ) : Nat :=
  column.idxOf (maxScore column)

/-! ## Boxes -/

/-- One row of {lit}`boxes`. -/
structure Box where
  x1 : ℚ
  y1 : ℚ
  x2 : ℚ
  y2 : ℚ

/-- {lit}`_iou_xyxy` for one pair. -/
def iouXyxy (a b : Box) : ℚ :=
  let xx1 := max a.x1 b.x1
  let yy1 := max a.y1 b.y1
  let xx2 := min a.x2 b.x2
  let yy2 := min a.y2 b.y2
  let inter := max 0 (xx2 - xx1) * max 0 (yy2 - yy1)
  let areaA := (a.x2 - a.x1) * (a.y2 - a.y1)
  let areaB := (b.x2 - b.x1) * (b.y2 - b.y1)
  inter / (areaA + areaB - inter + 1 / 1000000000)

/-! ## decode_yolo_raw -/

section Decode

variable (data : List ℚ) (cols classes : Nat)

/-- {lit}`raw[4:, c]`. -/
def classScores (c : Nat) : List ℚ :=
  (List.range classes).map fun k => entry data cols (4 + k) c

/-- {lit}`scores[c]`. -/
def score (c : Nat) : ℚ :=
  maxScore (classScores data cols classes c)

/-- {lit}`classes[c]`. -/
def classOf (c : Nat) : Nat :=
  argmax (classScores data cols classes c)

/-- {lit}`boxes` at the position of a column. -/
def boxOf (c : Nat) : Box :=
  let cx := entry data cols 0 c
  let cy := entry data cols 1 c
  let bw := entry data cols 2 c
  let bh := entry data cols 3 c
  { x1 := cx - bw / 2, y1 := cy - bh / 2, x2 := cx + bw / 2, y2 := cy + bh / 2 }

/-- {lit}`sel`. -/
def selected (profile : RawYoloProfile) : List Nat :=
  (List.range cols).filter fun c => decide (profile.scoreThreshold < score data cols classes c)

/-- {lit}`np.argsort(-scores, kind="stable")`, as the columns in that order. -/
def scoreOrder (sel : List Nat) : List Nat :=
  sel.insertionSort fun a b => -score data cols classes a ≤ -score data cols classes b

/-- {lit}`same & (ious > profile.nms_iou)`. -/
def overlaps (profile : RawYoloProfile) (i j : Nat) : Bool :=
  decide (classOf data cols classes j = classOf data cols classes i) &&
    decide (profile.nmsIou < iouXyxy (boxOf data cols i) (boxOf data cols j))

/-- The suppression loop with the number of columns kept; {lit}`fuel` bounds its rounds. -/
def nms (profile : RawYoloProfile) : Nat → Nat → List Nat → List Nat
  | 0, _, _ => []
  | _ + 1, _, [] => []
  | fuel + 1, kept, i :: rest =>
      if kept < profile.maxDetections then
        if rest.isEmpty then [i]
        else
          i :: nms profile fuel (kept + 1)
            (rest.filter fun j => !overlaps data cols classes profile i j)
      else []

/-- One row of {lit}`out`. -/
def detectionRow (size : ImageSize) (c : Nat) : List ℚ :=
  let box := boxOf data cols c
  [classOf data cols classes c, score data cols classes c, box.y1 / size.height,
    box.x1 / size.width, box.y2 / size.height, box.x2 / size.width]

/-- {lit}`det[:, 1]`. -/
def rowScore (row : List ℚ) : ℚ :=
  row.getD 1 0

/-- The rows of the result. -/
def decodedRows (profile : RawYoloProfile) (size : ImageSize) : List (List ℚ) :=
  let order := scoreOrder data cols classes (selected data cols classes profile)
  let kept := nms data cols classes profile order.length 0 order
  let det := (kept.map (detectionRow data cols classes size)).insertionSort
    fun a b => -rowScore a ≤ -rowScore b
  det ++ List.replicate (profile.maxDetections - kept.length) (List.replicate 6 0)

end Decode

/-- {lit}`decode_yolo_raw`.  An array without class rows has no {lit}`argmax`. -/
def decodeYoloRaw (raw : NdArray) (profile : RawYoloProfile) (size : ImageSize) :
    Except PyExc (List (List ℚ)) :=
  if profile.layout ≠ py "cxcywh" ∨ profile.coordinateUnits ≠ py "pixels" then
    .error .valueError
  else if profile.objectness then .error .valueError
  else
    match raw.shape with
    | [rows, cols] =>
        if (rows : Int) ≠ 4 + profile.classCount then .error .valueError
        else if rows ≤ 4 then .error .valueError
        else .ok (decodedRows raw.data cols (rows - 4) profile size)
    | _ => .error .valueError

/-! ## Columns -/

/-- The maximum is one of the numbers, and none is greater. -/
theorem foldl_max_spec (rest : List ℚ) (s : ℚ) :
    rest.foldl max s ∈ s :: rest ∧ ∀ v ∈ s :: rest, v ≤ rest.foldl max s := by
  induction rest generalizing s with
  | nil => simp
  | cons t rest ih =>
      obtain ⟨hmem, hle⟩ := ih (max s t)
      rw [List.foldl_cons]
      constructor
      · rcases List.mem_cons.mp hmem with hmax | hrest
        · rw [hmax]
          rcases max_choice s t with h | h
          · rw [h]
            exact List.mem_cons_self
          · rw [h]
            exact List.mem_cons_of_mem s List.mem_cons_self
        · exact List.mem_cons_of_mem s (List.mem_cons_of_mem t hrest)
      · intro v hv
        have hfirst : max s t ≤ rest.foldl max (max s t) := hle _ List.mem_cons_self
        rcases List.mem_cons.mp hv with rfl | hv
        · exact (le_max_left v t).trans hfirst
        · rcases List.mem_cons.mp hv with rfl | hv
          · exact (le_max_right s v).trans hfirst
          · exact hle v (List.mem_cons_of_mem _ hv)

theorem maxScore_mem {column : List ℚ} (h : column ≠ []) : maxScore column ∈ column := by
  cases column with
  | nil => contradiction
  | cons s rest => exact (foldl_max_spec rest s).1

theorem le_maxScore {column : List ℚ} {v : ℚ} (h : v ∈ column) : v ≤ maxScore column := by
  cases column with
  | nil => contradiction
  | cons s rest => exact (foldl_max_spec rest s).2 v h

/-! ## The order of the loop -/

variable (data : List ℚ) (cols classes : Nat)

theorem scoreOrder_perm (sel : List Nat) : (scoreOrder data cols classes sel).Perm sel :=
  List.perm_insertionSort _ sel

/-- **The loop goes through the columns by falling score.** -/
theorem scoreOrder_pairwise (sel : List Nat) :
    (scoreOrder data cols classes sel).Pairwise fun a b =>
      score data cols classes b ≤ score data cols classes a := by
  have : Std.Total fun a b => -score data cols classes a ≤ -score data cols classes b :=
    ⟨fun a b => le_total _ _⟩
  have : IsTrans Nat fun a b => -score data cols classes a ≤ -score data cols classes b :=
    ⟨fun a b c => le_trans⟩
  have hsorted := List.pairwise_insertionSort
    (fun a b => -score data cols classes a ≤ -score data cols classes b) sel
  exact hsorted.imp fun h => neg_le_neg_iff.mp h

/-- **The suppression loop is a greedy selection.** -/
theorem nms_eq_greedy (profile : RawYoloProfile) (fuel kept : Nat) (order : List Nat) :
    nms data cols classes profile fuel kept order =
      greedy (overlaps data cols classes profile) profile.maxDetections fuel kept order := by
  induction fuel generalizing kept order with
  | zero => rfl
  | succ fuel ih =>
      cases order with
      | nil => rfl
      | cons i rest =>
          rw [nms, greedy]
          split_ifs with hkept hempty
          · rw [List.isEmpty_iff.mp hempty, List.filter_nil, greedy_nil]
          · rw [ih]
          · rfl

/-- The loop keeps at most as many columns as it may. -/
theorem nms_length_le (profile : RawYoloProfile) (fuel : Nat) (order : List Nat) :
    (nms data cols classes profile fuel 0 order).length ≤ profile.maxDetections := by
  rw [nms_eq_greedy]
  exact greedy_length_le fuel 0 order

end Models
end FrigateXdna
