import FrigateXdna.ModelView
import FrigateXdna.Models.Inspect
import FrigateXdna.StabilityRunner

/-!
# What a stability run submits

{lit}`summarize_inspection` writes the summary that a ref row keeps; {lit}`_start_run` reads the
input shape of the model from it, and the run submits one tensor of that shape again and again.

Main results:

- Definition {lit}`Models.summarizeInspection`: the stored summary.
- Definition {lit}`startRunInput`: the shape and the tensor of a run.
- Theorem {lit}`submitted_shape_iff`: for which inspected shapes the runs submit that shape.
-/

namespace FrigateXdna

open Python

/-! ## The stored summary -/

namespace Models

/-- An entry of {lit}`outputs` as JSON. -/
def OutputInfo.json (o : OutputInfo) : Json :=
  .obj [(py "name", .str o.name), (py "shape", .arr (o.shape.map .int)),
    (py "dtype", .str o.dtype)]

/-- {lit}`"incompatible contract"`, unless the classification says more. -/
def Profile.error : Option Profile → PyStr
  | some (.refused error) => error
  | _ => py "incompatible contract"

/-- {lit}`summarize_inspection`; of an error it shows the message. -/
def summarizeInspection (contract : Option Contract) (cls : Option Profile)
    (error : Option PyStr) (sourceSha256 : Option PyStr) : List (PyStr × Json) :=
  let raw := cls.bind fun
    | .yoloRaw _ channels anchors => some (channels, anchors)
    | .refused _ => none
  let compatible := error.isNone && raw.isSome
  let shape := contract.map Contract.inputShape
  let shown := if contract.isSome then raw else none
  let text (s : Option PyStr) : Json := (s.map Json.str).getD .null
  [(py "compatible", .bool compatible),
    (py "source_sha256", text sourceSha256),
    (py "reason", if compatible then .null else .str (error.getD (Profile.error cls))),
    (py "input", text (shape.map fun dims => joinStr (py "x") (dims.map intRepr))),
    (py "input_dtype", text (contract.map Contract.inputDtype)),
    (py "layout", text (shape.map fun _ => py "NCHW")),
    (py "profile", text (raw.map fun _ => py "yolo-raw")),
    (py "output", text (shown.map fun s =>
      py "raw YOLO [1," ++ intRepr s.1 ++ py "," ++ intRepr s.2 ++ py "]")),
    (py "outputs", .arr ((contract.map Contract.outputs).getD [] |>.map OutputInfo.json)),
    (py "class_count", ((shown.filter fun s => decide (5 ≤ s.1)).map fun s =>
      Json.int (s.1 - 4)).getD .null),
    (py "opset", (contract.map fun c => Json.int c.opset).getD .null),
    (py "ir_version", (contract.map fun c => Json.int c.irVersion).getD .null)]

end Models

namespace Observability

open Library Models

/-! ## The input of a run -/

/-- {lit}`DEFAULT_SHAPE`. -/
def defaultShape : List Int :=
  [1, 3, 320, 320]

/-- The shape that {lit}`_start_run` takes from the view of the model. -/
def resolveShape (inspection : Option Json) : List Json :=
  match inspection with
  | some (.obj fields) =>
      match lookupField (py "input_shape") fields with
      | some (.arr dims) => if dims.length = 4 then dims else defaultShape.map .int
      | _ => defaultShape.map .int
  | _ => defaultShape.map .int

/-- The product of dimensions; a product of anything but integers is no size. -/
def shapeSize : List Json → Option Int
  | [] => some 1
  | .int d :: rest => (shapeSize rest).map (d * ·)
  | .bool b :: rest => (shapeSize rest).map ((if b then 1 else 0) * ·)
  | _ => none

/-- {lit}`_make_tensor`; {lit}`floatBytes` gives the four bytes that {lit}`array("f")` keeps of
a number divided by {lit}`5000015.0`. -/
def makeTensor (floatBytes : Nat → Vector UInt8 4) (shape : List Json) : Option Bytes :=
  (shapeSize shape).map fun n =>
    (List.range n.toNat).flatMap fun i => (floatBytes (i * 2654435761 % 1000003)).toList

/-- What {lit}`infer_once` hands to the worker. -/
structure Submission where
  tensor : Bytes
  shape : List Json

/-- The shape and the tensor of a run, unless its start raises. -/
def startRunInput (floatBytes : Nat → Vector UInt8 4) (s : StatusStore) (ref : PyStr)
    (liveKey : Option PyStr) : Option Submission :=
  let model := (s.getRef ref).map fun _ => projectRef s ref liveKey
  let shape := resolveShape (model.bind ModelView.inspection)
  (makeTensor floatBytes shape).map fun tensor => ⟨tensor, shape⟩

/-- The actions that a program performs. -/
def performed {β : Type} : RunProg β → Bench → List BenchAct
  | .ret _, _ => []
  | .raise _, _ => []
  | .act a k, b => a :: performed (k b) (a.exec b)

/-- What a run submits to the worker, from a registry and with a live worker. -/
def submitted (floatBytes : Nat → Vector UInt8 4) (s : StatusStore) (liveKey : Option PyStr)
    (args : Arguments) (env : Surroundings) (b : Bench) : List Submission :=
  match (resolveRef env.models args).bind fun ref => startRunInput floatBytes s ref liveKey with
  | none => []
  | some input => (performed (runStability args env) b).filterMap fun a =>
      if a = .infer then some input else none

/-! ## The shape that a run submits -/

/-- The tensor of a shape has four bytes for each of its elements. -/
theorem makeTensor_length {floatBytes : Nat → Vector UInt8 4} {shape : List Json}
    {tensor : Bytes} {n : Int} (h : makeTensor floatBytes shape = some tensor)
    (hn : shapeSize shape = some n) : tensor.length = 4 * n.toNat := by
  rw [makeTensor, hn, Option.map_some] at h
  obtain rfl := Option.some.inj h
  simp [List.length_flatMap, Nat.mul_comm]

theorem shapeSize_ints (dims : List Int) : shapeSize (dims.map .int) = some dims.prod := by
  induction dims with
  | nil => rfl
  | cons d rest ih => simp [shapeSize, ih]

/-- The summary has no field that the run looks for. -/
theorem resolveShape_summary (contract : Option Contract) (cls : Option Profile)
    (error sourceSha256 : Option PyStr) :
    resolveShape (some (.obj (summarizeInspection contract cls error sourceSha256))) =
      defaultShape.map .int :=
  rfl

/-- A run on an inspected model starts with the default shape, whatever was inspected. -/
theorem startRunInput_inspected (floatBytes : Nat → Vector UInt8 4) {s : StatusStore}
    {ref : PyStr} {row : StatusRef} (hrow : s.getRef ref = some row)
    {contract : Contract} {cls : Option Profile} {error sourceSha256 : Option PyStr}
    (hrecord : row.inspection =
      some (.obj (summarizeInspection (some contract) cls error sourceSha256)))
    (liveKey : Option PyStr) :
    ∃ tensor : Bytes, tensor.length = 4 * defaultShape.prod.toNat ∧
      startRunInput floatBytes s ref liveKey = some ⟨tensor, defaultShape.map .int⟩ := by
  have hshape : resolveShape (((s.getRef ref).map fun _ => projectRef s ref liveKey).bind
      ModelView.inspection) = defaultShape.map .int := by
    rw [hrow]
    show resolveShape ((s.getRef ref).bind StatusRef.inspection) = _
    rw [hrow, Option.bind_some, hrecord]
    exact resolveShape_summary (some contract) cls error sourceSha256
  have hsize := shapeSize_ints defaultShape
  obtain ⟨tensor, htensor⟩ : ∃ tensor, makeTensor floatBytes (defaultShape.map .int) =
      some tensor := ⟨_, by rw [makeTensor, hsize, Option.map_some]⟩
  refine ⟨tensor, makeTensor_length htensor hsize, ?_⟩
  unfold startRunInput
  dsimp only
  rw [hshape, htensor, Option.map_some]

theorem sampleWall_year : 1000 ≤ 2026 ∧ 2026 ≤ 9999 := by
  decide

theorem sampleWall_minute : 0 ≤ 59 := by
  decide

theorem sampleWall_second : 0 ≤ 61 := by
  decide

/-- A reading of the clock. -/
def sampleWall : WallTime where
  year := 2026
  month := 1
  day := 1
  hour := 0
  minute := 0
  second := 0
  hyear := sampleWall_year
  hmonth := by decide
  hday := by decide
  hhour := by decide
  hminute := sampleWall_minute
  hsecond := sampleWall_second

/-- A smoke run of the only configured model. -/
def smokeArgs : Arguments where
  configured := true
  profile := py "smoke"
  calWarmup := 0
  calMeasured := 0

theorem smokeEnv_pid : 1 < 2 ^ 31 := by
  decide

/-- What the smoke run reads. -/
def smokeEnv (ref : PyStr) : Surroundings where
  wall := sampleWall
  pid := ⟨1, smokeEnv_pid⟩
  models := [ref]

theorem smoke_infers (ref : PyStr) :
    BenchAct.infer ∈ performed (runStability smokeArgs (smokeEnv ref)) {} := by
  have hcontains :
      (performed (runStability smokeArgs (smokeEnv ref)) {}).contains .infer = true := rfl
  simpa using hcontains

/-- The smoke run on an inspected model submits the default shape. -/
theorem smoke_submits (floatBytes : Nat → Vector UInt8 4) {s : StatusStore} {ref : PyStr}
    {row : StatusRef} (hrow : s.getRef ref = some row) {contract : Contract}
    {cls : Option Profile} {error sourceSha256 : Option PyStr}
    (hrecord : row.inspection =
      some (.obj (summarizeInspection (some contract) cls error sourceSha256)))
    (liveKey : Option PyStr) :
    ∃ q ∈ submitted floatBytes s liveKey smokeArgs (smokeEnv ref) {},
      q.shape = defaultShape.map .int := by
  obtain ⟨tensor, -, hinput⟩ :=
    startRunInput_inspected floatBytes hrow hrecord liveKey
  have href : resolveRef (smokeEnv ref).models smokeArgs = some ref := rfl
  refine ⟨⟨tensor, defaultShape.map .int⟩, ?_, rfl⟩
  rw [submitted, href, Option.bind_some, hinput]
  exact List.mem_filterMap.mpr ⟨.infer, smoke_infers ref, rfl⟩

/-- **The runs on an inspected model submit the inspected shape** exactly when that shape is the
default one: the shape that the inspection found never reaches the run. -/
theorem submitted_shape_iff (floatBytes : Nat → Vector UInt8 4) (s : StatusStore) (ref : PyStr)
    (row : StatusRef) (hrow : s.getRef ref = some row) (contract : Contract)
    (cls : Option Profile) (error sourceSha256 : Option PyStr)
    (hrecord : row.inspection =
      some (.obj (summarizeInspection (some contract) cls error sourceSha256)))
    (liveKey : Option PyStr) :
    (∀ args env b, resolveRef env.models args = some ref →
        ∀ q ∈ submitted floatBytes s liveKey args env b,
          q.shape = contract.inputShape.map .int ∧
            q.tensor.length = 4 * contract.inputShape.prod.toNat) ↔
      contract.inputShape = defaultShape := by
  constructor
  · intro h
    obtain ⟨q, hq, hshape⟩ := smoke_submits floatBytes hrow hrecord liveKey
    have hinspected := (h smokeArgs (smokeEnv ref) {} rfl q hq).1
    exact List.map_injective_iff.mpr (fun _ _ => Json.int.inj) (hinspected.symm.trans hshape)
  · rintro hdefault args env b href q hq
    obtain ⟨tensor, hlength, hinput⟩ :=
      startRunInput_inspected floatBytes hrow hrecord liveKey
    rw [submitted, href, Option.bind_some, hinput] at hq
    obtain ⟨a, -, ha⟩ := List.mem_filterMap.mp hq
    split at ha
    · obtain rfl := Option.some.inj ha
      rw [hdefault]
      exact ⟨rfl, hlength⟩
    · contradiction

/-- The contract of a square input. -/
def squareContract (side : Int) : Contract where
  inputName := py "images"
  inputShape := [1, 3, side, side]
  outputs := [{ name := py "output0", shape := [1, 84, 8400], dtype := py "float" }]
  opset := 17
  irVersion := 8
  nodeCount := 200

/-- The row of a prepared model with that input. -/
def squareRow (side : Int) : StatusRef where
  ref := py "yolo.onnx"
  state := py "PREPARED"
  sourceSha256 := some (py "digest")
  inspection := some (.obj (summarizeInspection (some (squareContract side))
    (some (.yoloRaw (py "output0") 84 8400)) none (some (py "digest"))))

/-- A registry of that model. -/
def squareStore (side : Int) : StatusStore where
  refs := [squareRow side]

/-- Runs on a model of the default side submit its shape. -/
theorem submitted_shape_iff_default :
    (squareContract 320).inputShape = defaultShape ∧
      ∀ args env b, resolveRef env.models args = some (py "yolo.onnx") →
        ∀ q ∈ submitted (fun _ => Vector.replicate 4 0) (squareStore 320) none args env b,
          q.shape = (squareContract 320).inputShape.map .int ∧
            q.tensor.length = 4 * (squareContract 320).inputShape.prod.toNat :=
  ⟨rfl, (submitted_shape_iff (fun _ => Vector.replicate 4 0) (squareStore 320)
    (py "yolo.onnx") (squareRow 320) rfl (squareContract 320) _ none _ rfl none).mpr rfl⟩

/-- **A model of side 640** is exercised with inputs of side 320. -/
theorem submitted_other_shape :
    ¬ ∀ args env b, resolveRef env.models args = some (py "yolo.onnx") →
      ∀ q ∈ submitted (fun _ => Vector.replicate 4 0) (squareStore 640) none args env b,
        q.shape = (squareContract 640).inputShape.map .int ∧
          q.tensor.length = 4 * (squareContract 640).inputShape.prod.toNat := by
  intro h
  have hrow : (squareStore 640).getRef (py "yolo.onnx") = some (squareRow 640) := rfl
  obtain ⟨q, hq, hshape⟩ :=
    smoke_submits (fun _ => Vector.replicate 4 0) hrow rfl none
  have hinspected := (h smokeArgs (smokeEnv (py "yolo.onnx")) {} rfl q hq).1
  exact absurd (hinspected.symm.trans hshape) (by decide)

end Observability
end FrigateXdna
