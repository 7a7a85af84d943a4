import Mathlib.Algebra.Order.Ring.Rat
import Mathlib.Data.List.Sort
import FrigateXdna.Native.Protocol

/-!
# Postprocessing a raw YOLO tensor

{lit}`postprocess_yolo.cpp`: the best class of every column, the non-maximum suppression,
and the twenty rows of the result.  The numbers are a parameter: {lit}`float` in the
worker, and any other arithmetic with the same operations.  A read that leaves the buffer
has no value, and neither has a call that makes one.

Main results:

- Theorem {lit}`postprocessYoloRaw_isSome`: a buffer of {lit}`(4 + classes) * columns`
  numbers is read within its bounds.
-/

namespace FrigateXdna
namespace Native

open Python

/-! ## Numbers -/

/-- The operations that the code applies to {lit}`float`. -/
structure Arith (F : Type) where
  zero : F
  one : F
  half : F
  tiny : F
  add : F → F → F
  sub : F → F → F
  mul : F → F → F
  div : F → F → F
  lt : F → F → Bool
  eq : F → F → Bool
  finite : F → Bool
  ofInt : Int → F
  ofBytes : Bytes → F
  toBytes : F → Bytes

variable {F : Type} (A : Arith F)

namespace Arith

/-- {lit}`std::max`. -/
def max (a b : F) : F :=
  if A.lt a b then b else a

/-- {lit}`std::min`. -/
def min (a b : F) : F :=
  if A.lt b a then b else a

/-- {lit}`std::clamp(v, 0.0f, 1.0f)`. -/
def clamp (v : F) : F :=
  if A.lt v A.zero then A.zero else if A.lt A.one v then A.one else v

/-- {lit}`std::isfinite(v) ? std::clamp(v, 0.0f, 1.0f) : 0.0f`. -/
def clampFinite (v : F) : F :=
  if A.finite v then A.clamp v else A.zero

end Arith

/-- Exact rational numbers, read from and written to bytes in some way. -/
def exactArith (ofBytes : Bytes → ℚ) (toBytes : ℚ → Bytes) : Arith ℚ where
  zero := 0
  one := 1
  half := 1 / 2
  tiny := 1 / 1000000000
  add a b := a + b
  sub a b := a - b
  mul a b := a * b
  div a b := a / b
  lt a b := decide (a < b)
  eq a b := decide (a = b)
  finite _ := true
  ofInt z := z
  ofBytes
  toBytes

/-- {lit}`YoloConfig`; the two sizes and the counts are {lit}`int`. -/
structure YoloConfig (F : Type) where
  imageW : Int := 320
  imageH : Int := 320
  classCount : Int := 80
  scoreThreshold : F
  nmsIou : F
  maxDet : Int := 20
  classAwareNms : Bool := true
deriving DecidableEq, Repr

/-- {lit}`Det`. -/
structure Det (F : Type) where
  score : F
  cls : Int
  x1 : F
  y1 : F
  x2 : F
  y2 : F
deriving DecidableEq, Repr

/-- {lit}`std::sort` with a comparison; the order of items that compare equal is its
own. -/
abbrev Sorter (F : Type) :=
  (Det F → Det F → Bool) → List (Det F) → List (Det F)

/-! ## Detections -/

/-- {lit}`raw[r*cols + c]`. -/
def readRaw (raw : List F) (cols r c : Nat) : Option F :=
  raw[r * cols + c]?

/-- One round of the loop over the classes. -/
def betterClass (raw : List F) (cols c : Nat) (best : F × Int) (k : Nat) : Option (F × Int) :=
  (readRaw raw cols (4 + k) c).map fun s => if A.lt best.1 s then (s, (k : Int)) else best

/-- The best score of a column with its class, or class -1. -/
def bestClass (raw : List F) (cols : Nat) (classes : Int) (c : Nat) : Option (F × Int) :=
  (List.range classes.toNat).foldlM (betterClass A raw cols c) (A.zero, -1)

/-- The detection of a column, if its score suffices. -/
def detection (raw : List F) (cols : Nat) (cfg : YoloConfig F) (c : Nat) :
    Option (Option (Det F)) := do
  let (best, cls) ← bestClass A raw cols cfg.classCount c
  if A.lt best cfg.scoreThreshold || decide (cls < 0) then
    return none
  else
    let cx ← readRaw raw cols 0 c
    let cy ← readRaw raw cols 1 c
    let w ← readRaw raw cols 2 c
    let h ← readRaw raw cols 3 c
    return some
      { score := best
        cls
        x1 := A.sub cx (A.mul w A.half)
        y1 := A.sub cy (A.mul h A.half)
        x2 := A.add cx (A.mul w A.half)
        y2 := A.add cy (A.mul h A.half) }

/-- The detections of all columns. -/
def detections (raw : List F) (cols : Nat) (cfg : YoloConfig F) : Option (List (Det F)) :=
  ((List.range cols).mapM (detection A raw cols cfg)).map fun found => found.filterMap id

/-! ## Suppression -/

/-- The order of the first sort: by score, and then by class. -/
def byScoreThenClass (a b : Det F) : Bool :=
  if !A.eq a.score b.score then A.lt b.score a.score else decide (a.cls < b.cls)

/-- The order of the second sort: by score. -/
def byScore (a b : Det F) : Bool :=
  A.lt b.score a.score

/-- {lit}`areas[i]`. -/
def area (d : Det F) : F :=
  A.mul (A.sub d.x2 d.x1) (A.sub d.y2 d.y1)

/-- The overlap of two boxes, as a share of their union. -/
def iou (a b : Det F) : F :=
  let xx1 := A.max a.x1 b.x1
  let yy1 := A.max a.y1 b.y1
  let xx2 := A.min a.x2 b.x2
  let yy2 := A.min a.y2 b.y2
  let inter := A.mul (A.max A.zero (A.sub xx2 xx1)) (A.max A.zero (A.sub yy2 yy1))
  let uni := A.add (A.sub (A.add (area A a) (area A b)) inter) A.tiny
  A.div inter uni

/-- Whether a detection that is kept suppresses another. -/
def suppresses (cfg : YoloConfig F) (a b : Det F) : Bool :=
  !(cfg.classAwareNms && decide (b.cls ≠ a.cls)) && A.lt cfg.nmsIou (iou A a b)

/-- The suppression loop from some detection on; each detection has its {lit}`sup` flag,
and {lit}`fuel` counts the detections. -/
def suppress (cfg : YoloConfig F) : Nat → Int → List (Det F × Bool) → List (Det F)
  | 0, _, _ => []
  | _ + 1, _, [] => []
  | fuel + 1, kept, (d, sup) :: rest =>
      if kept < cfg.maxDet then
        if sup then suppress cfg fuel kept rest
        else
          d :: suppress cfg fuel (kept + 1)
            (rest.map fun x => (x.1, x.2 || suppresses A cfg d x.1))
      else []

/-! ## The result -/

/-- One row of the result. -/
def resultRow (cfg : YoloConfig F) (d : Det F) : List F :=
  let h := A.ofInt cfg.imageH
  let w := A.ofInt cfg.imageW
  [A.ofInt d.cls, d.score, A.clampFinite (A.div d.y1 h), A.clampFinite (A.div d.x1 w),
    A.clampFinite (A.div d.y2 h), A.clampFinite (A.div d.x2 w)]

/-- A row of zeros. -/
def zeroRow : List F :=
  List.replicate 6 A.zero

/-- The last loop: coordinates that are not finite become zero. -/
def finiteRow (row : List F) : List F :=
  row.mapIdx fun k v => if 2 ≤ k && !A.finite v then A.zero else v

/-- {lit}`postprocess_yolo_raw`: the twenty rows, or {lean}`none` when it reads outside
the buffer. -/
def postprocessYoloRaw (sort : Sorter F) (raw : List F) (cols : Nat) (cfg : YoloConfig F) :
    Option (List (List F)) :=
  (detections A raw cols cfg).map fun dets =>
    let sorted := sort (byScoreThenClass A) dets
    let kept := suppress A cfg sorted.length 0 (sorted.map fun d => (d, false))
    let kept := sort (byScore A) kept
    let rows := (kept.take 20).map (resultRow A cfg)
    (rows ++ List.replicate (20 - rows.length) (zeroRow A)).map (finiteRow A)

/-! ## Bounds -/

/-- A row and a column of the tensor lie in the buffer. -/
theorem readRaw_isSome {raw : List F} {cols rows r c : Nat} (hsize : raw.length = rows * cols)
    (hr : r < rows) (hc : c < cols) : (readRaw raw cols r c).isSome = true := by
  have hle : (r + 1) * cols ≤ rows * cols := Nat.mul_le_mul_right cols hr
  have hlt : r * cols + c < raw.length := by
    rw [hsize]
    rw [Nat.add_mul, Nat.one_mul] at hle
    omega
  simp [readRaw, hlt]

/-- A loop whose rounds all have a value has one. -/
theorem foldlM_isSome {β ι : Type} {f : β → ι → Option β} {items : List ι}
    (h : ∀ b, ∀ i ∈ items, (f b i).isSome = true) (b : β) :
    (items.foldlM f b).isSome = true := by
  induction items generalizing b with
  | nil => rfl
  | cons i rest ih =>
      rw [List.foldlM_cons]
      obtain ⟨b', hb'⟩ := Option.isSome_iff_exists.mp (h b i List.mem_cons_self)
      rw [hb']
      exact ih (fun b j hj => h b j (List.mem_cons_of_mem i hj)) b'

/-- So does a map. -/
theorem mapM_isSome {ι β : Type} {f : ι → Option β} {items : List ι}
    (h : ∀ i ∈ items, (f i).isSome = true) : (items.mapM f).isSome = true := by
  induction items with
  | nil => rfl
  | cons i rest ih =>
      rw [List.mapM_cons]
      obtain ⟨b, hb⟩ := Option.isSome_iff_exists.mp (h i List.mem_cons_self)
      obtain ⟨bs, hbs⟩ := Option.isSome_iff_exists.mp
        (ih fun j hj => h j (List.mem_cons_of_mem i hj))
      rw [hb, hbs]
      rfl

/-- The column of a buffer of the right size has a detection or none. -/
theorem detection_isSome {raw : List F} {cols c : Nat} {cfg : YoloConfig F}
    (hsize : raw.length = (4 + cfg.classCount.toNat) * cols) (hc : c < cols) :
    (detection A raw cols cfg c).isSome = true := by
  have hbest : (bestClass A raw cols cfg.classCount c).isSome = true := by
    refine foldlM_isSome (fun best k hk => ?_) _
    have hk : k < cfg.classCount.toNat := List.mem_range.mp hk
    simpa [betterClass] using
      readRaw_isSome hsize (Nat.add_lt_add_left hk 4) hc
  obtain ⟨best, hbest⟩ := Option.isSome_iff_exists.mp hbest
  have hread : ∀ r < 4, ∃ v, readRaw raw cols r c = some v := fun r hr =>
    Option.isSome_iff_exists.mp (readRaw_isSome hsize (by omega) hc)
  obtain ⟨cx, hcx⟩ := hread 0 (by omega)
  obtain ⟨cy, hcy⟩ := hread 1 (by omega)
  obtain ⟨w, hw⟩ := hread 2 (by omega)
  obtain ⟨h, hh⟩ := hread 3 (by omega)
  unfold detection
  simp only [hbest, hcx, hcy, hw, hh]
  dsimp only [Option.bind_eq_bind, Option.bind_some]
  split <;> rfl

/-- **A buffer of the right size is read within its bounds.** -/
theorem postprocessYoloRaw_isSome (sort : Sorter F) {raw : List F} {cols : Nat}
    {cfg : YoloConfig F} (hsize : raw.length = (4 + cfg.classCount.toNat) * cols) :
    (postprocessYoloRaw A sort raw cols cfg).isSome = true := by
  have hfound : (detections A raw cols cfg).isSome = true := by
    unfold detections
    rw [Option.isSome_map]
    exact mapM_isSome fun c hc => detection_isSome A hsize (List.mem_range.mp hc)
  unfold postprocessYoloRaw
  rw [Option.isSome_map]
  exact hfound

end Native
end FrigateXdna
