import FrigateXdna.Models.Inspect
import FrigateXdna.Native.Bounds
import FrigateXdna.Native.Requests
import FrigateXdna.Python.Scan

/-!
# Whether an admitted model can be served

A graph is admitted when {lit}`inspect_model` and {lit}`classify_output` accept it.  It is
served by LOAD requests with its class count and INFER requests with tensors of its input
shape, which have bounds of their own.

Main results:

- Theorem {lit}`validateTensorSpec_image`: the images that the worker takes.
- Theorem {lit}`loadCalled_iff`: the class counts that the worker takes.
- Theorem {lit}`admitted_servable_iff`: exactly which admitted models can be served.
- Theorem {lit}`largeImage_unservable`: one that cannot.
-/

namespace FrigateXdna
namespace Models

open Python

/-! ## Sizes -/

/-- The bytes of a float32 tensor. -/
def tensorBytes (shape : List Int) : Nat :=
  4 * (shape.map Int.toNat).prod

theorem tensorBytes_image (height width : Int) :
    tensorBytes [1, 3, height, width] = 12 * (height.toNat * width.toNat) := by
  simp only [tensorBytes, List.map_cons, List.map_nil, List.prod_cons, List.prod_nil, Nat.mul_one]
  have hone : (1 : Int).toNat = 1 := rfl
  have hthree : (3 : Int).toNat = 3 := rfl
  rw [hone, hthree]
  omega

/-! ## What the worker takes -/

/-- The product of the dimensions of an image. -/
theorem elementCount_image {height width : Int} (hheight : 0 < height ∧ height ≤ 4096) :
    Native.elementCount [1, 3, height, width] 1 = some (3 * (height.toNat * width.toNat)) := by
  have hone : (1 : Int).toNat = 1 := rfl
  have hthree : (3 : Int).toNat = 3 := rfl
  have hmax : Native.maxTensorBytes / 4 = 4194304 := rfl
  have hrows : ¬ 1 * 1 * 3 * height.toNat > 4194304 := by omega
  simp only [Native.elementCount, hone, hthree, hmax]
  rw [if_neg (by decide), if_neg (by decide), if_neg (by decide), if_neg hrows, Nat.mul_one,
    Nat.one_mul, Nat.mul_assoc]

/-- **The images that the worker takes.** -/
theorem validateTensorSpec_image {height width : Int} (hheight : 0 < height ∧ height ≤ 4096)
    (hwidth : 0 < width ∧ width ≤ 4096) :
    Native.validateTensorSpec { shape := [1, 3, height, width], dtype := Native.cstr "float32" }
        (tensorBytes [1, 3, height, width]) = none ↔
      tensorBytes [1, 3, height, width] ≤ Native.maxTensorBytes := by
  have hsides : [1, 3, height, width].any (fun d => decide (d ≤ 0 ∨ 4096 < d)) = false := by
    simp
    omega
  have hrank : ¬ [1, 3, height, width].length ≠ 4 := by simp
  have hlead : ¬ ([1, 3, height, width][0]? ≠ some 1 ∨ [1, 3, height, width][1]? ≠ some 3) := by
    simp
  have hbytes : tensorBytes [1, 3, height, width] = 3 * (height.toNat * width.toNat) * 4 := by
    rw [tensorBytes_image]
    omega
  unfold Native.validateTensorSpec
  dsimp only
  rw [if_neg (not_not.mpr rfl), if_neg hrank, if_neg hlead, hsides, if_neg Bool.false_ne_true,
    elementCount_image hheight]
  dsimp only
  rw [hbytes, if_neg (not_not.mpr rfl)]
  split
  · rename_i hlarge
    exact iff_of_false (by simp) (Nat.not_le.mpr hlarge)
  · rename_i hsmall
    exact iff_of_true rfl (Nat.not_lt.mp hsmall)

/-- **The class counts that the worker takes.** -/
theorem loadCalled_iff {F : Type} (A : Native.Arith F) (env : Native.Env F) (w : Native.Worker F)
    {hdr : Native.Header} (hpath : hdr.artifactPath ≠ [])
    (hsafe : Native.traverses hdr.artifactPath = false) :
    Native.Event.loadCalled ∈ (Native.handleLoad A env w hdr).events ↔
      0 < hdr.classCount ∧ hdr.classCount ≤ 4096 := by
  have hgood : ¬ (hdr.artifactPath.isEmpty || Native.traverses hdr.artifactPath) = true := by
    simp [hpath, hsafe]
  unfold Native.handleLoad
  dsimp only
  rw [if_neg hgood]
  split
  · rename_i hcount
    refine iff_of_false ?_ (by omega)
    simp [Native.statusReply]
  · rename_i hcount
    refine iff_of_true ?_ (by omega)
    split
    · exact List.mem_cons_self
    · split
      · exact List.mem_cons_self
      · exact List.mem_cons_self

/-! ## What the supervisor sends -/

/-- A machine word takes at most twenty characters. -/
theorem decimal_length {n : Nat} (h : n < 2 ^ 64) : (Native.decimal n).length ≤ 20 := by
  have hpos : ¬ (n : Int) < 0 := by omega
  rw [Native.decimal, List.length_map, intRepr, if_neg hpos, Int.natAbs_natCast]
  exact natDigits_length h

/-- The header of an INFER request for an image is short. -/
theorem inferHeader_length {r g : Nat} (hr : r < 2 ^ 63) (hg : g < 2 ^ 63) {height width : Int}
    (hheight : 0 < height ∧ height ≤ 4096) (hwidth : 0 < width ∧ width ≤ 4096)
    {payload : Bytes} (hpayload : payload.length < 2 ^ 64) :
    (Runtime.encodeHeader (Runtime.wireHeader
      (Runtime.NativeWorker.inferHeader r ([1, 3, height, width].map .int) g) payload)).length ≤
        Runtime.maxHeaderBytes := by
  have hfields : Runtime.NativeWorker.inferHeader r ([1, 3, height, width].map .int) g =
      (Native.Request.infer [1, 3, height, width] (py "float32")).fields r g := rfl
  have hrequest := decimal_length (show r < 2 ^ 64 by omega)
  have hgeneration := decimal_length (show g < 2 ^ 64 by omega)
  have hlength := decimal_length hpayload
  have hrows := decimal_length (show height.toNat < 2 ^ 64 by omega)
  have hcolumns := decimal_length (show width.toNat < 2 ^ 64 by omega)
  rw [Int.toNat_of_nonneg (by omega)] at hrows hcolumns
  have hkey : ∀ k : Native.Key, k.bytes.length ≤ 20 := by
    intro k
    cases k <;> decide
  have hcomma : Native.comma.length = 2 := rfl
  have hbrace : Native.brace.length = 1 := rfl
  have hopen : (Native.cstr "\x7b").length = 1 := rfl
  have hkind : (Native.escaped (py "INFER")).length = 5 := rfl
  have hdtype : (Native.escaped (py "float32")).length = 7 := rfl
  have hversion : (Native.decimal Runtime.protocolVersion).length = 1 := rfl
  have hone : (Native.decimal 1).length = 1 := rfl
  have hthree : (Native.decimal 3).length = 1 := rfl
  have hmax : Runtime.maxHeaderBytes = 16384 := rfl
  have hkeys := And.intro (hkey .messageType) <| And.intro (hkey .payloadLength) <|
    And.intro (hkey .protocolVersion) <| And.intro (hkey .requestId) <|
    And.intro (hkey .tensorSpec) <| And.intro (hkey .dtype) <|
    And.intro (hkey .shape) (hkey .workerGeneration)
  rw [hfields, Native.encodeHeader_request, hmax]
  simp only [Native.itemsText, Native.Request.items, Native.Item.bytes, Native.Item.key,
    Native.Item.value, Native.printedShape, List.flatMap_cons, List.flatMap_nil,
    List.length_cons, List.length_append, List.length_nil, hcomma, hbrace, hopen, hkind, hdtype,
    hversion, hone, hthree]
  omega

/-- **The tensors that the supervisor sends.** -/
theorem sendMessage_image {r g : Nat} (hr : r < 2 ^ 63) (hg : g < 2 ^ 63) {height width : Int}
    (hheight : 0 < height ∧ height ≤ 4096) (hwidth : 0 < width ∧ width ≤ 4096)
    {payload : Bytes} (hpayload : payload.length ≤ Runtime.maxTensorBytes) :
    ∃ wire, Runtime.sendMessage
      (Runtime.NativeWorker.inferHeader r ([1, 3, height, width].map .int) g) payload =
        .ok wire := by
  have hmax : Runtime.maxTensorBytes = 16777216 := rfl
  have hheader := inferHeader_length hr hg hheight hwidth
    (show payload.length < 2 ^ 64 by omega)
  have hknown : Runtime.knownType (Runtime.withVersion
      (Runtime.NativeWorker.inferHeader r ([1, 3, height, width].map .int) g)) = true := rfl
  have hversion : (Runtime.Fields.get (Runtime.withVersion
      (Runtime.NativeWorker.inferHeader r ([1, 3, height, width].map .int) g))
        (py "protocol_version")).eqInt Runtime.protocolVersion = true := rfl
  have hload : Runtime.isType (Runtime.withVersion
      (Runtime.NativeWorker.inferHeader r ([1, 3, height, width].map .int) g))
        (py "LOAD") = false := rfl
  have hsmall : ¬ payload.length > Runtime.maxTensorBytes := Nat.not_lt.mpr hpayload
  refine ⟨Native.frame (Runtime.encodeHeader (Runtime.wireHeader
    (Runtime.NativeWorker.inferHeader r ([1, 3, height, width].map .int) g) payload)) payload, ?_⟩
  rw [Runtime.sendMessage, hknown, hversion, hload, Bool.and_false,
    if_neg (by decide), if_neg (by decide), if_neg (by simp [hsmall]), if_neg (by decide),
    if_neg (Nat.not_lt.mpr hheader)]
  rfl

/-! ## Admitted models -/

/-- A model can be served: its tensors are sent and taken, and so is its class count. -/
structure Servable {F : Type} (A : Native.Arith F) (env : Native.Env F) (w : Native.Worker F)
    (shape : List Int) (classCount : Int) : Prop where
  sent : ∀ r g : Nat, ∀ payload : Bytes, r < 2 ^ 63 → g < 2 ^ 63 →
    payload.length = tensorBytes shape →
    ∃ wire, Runtime.sendMessage (Runtime.NativeWorker.inferHeader r (shape.map .int) g) payload =
      .ok wire
  taken : Native.validateTensorSpec { shape, dtype := Native.cstr "float32" }
    (tensorBytes shape) = none
  loaded : ∀ hdr : Native.Header, hdr.artifactPath ≠ [] →
    Native.traverses hdr.artifactPath = false → hdr.classCount = classCount →
    Native.Event.loadCalled ∈ (Native.handleLoad A env w hdr).events

/-- **The admitted models that can be served**: the image has at most 1398101 pixels and the
output at most 4100 channels. -/
theorem admitted_servable_iff {F : Type} (A : Native.Arith F) (env : Native.Env F)
    (w : Native.Worker F) {onnx : OnnxEnv} {graph : Graph} {contract : Contract}
    {tensor : PyStr} {channels anchors : Int}
    (hinspect : inspectModel onnx graph = .ok contract)
    (hclassify : classifyOutput contract.outputs = .yoloRaw tensor channels anchors) :
    Servable A env w contract.inputShape (channels - 4) ↔
      contract.inputShape.getD 2 0 * contract.inputShape.getD 3 0 ≤ 1398101 ∧
        channels ≤ 4100 := by
  obtain ⟨height, width, hshape, hheight, hwidth⟩ := inspectModel_shape hinspect
  obtain ⟨hchannels, -, -⟩ := classifyOutput_yoloRaw hclassify
  have hpixels : (height.toNat * width.toNat : Nat) = (height * width).toNat := by
    rw [Int.toNat_mul (by omega) (by omega)]
  have hbytes : tensorBytes [1, 3, height, width] ≤ 16777216 ↔ height * width ≤ 1398101 := by
    rw [tensorBytes_image, hpixels]
    omega
  have hmax : Native.maxTensorBytes = 16777216 := rfl
  have htaken := validateTensorSpec_image hheight hwidth
  rw [hmax, hbytes] at htaken
  have hgetD : [1, 3, height, width].getD 2 0 * [1, 3, height, width].getD 3 0 =
      height * width := rfl
  rw [hshape, hgetD]
  constructor
  · intro h
    refine ⟨htaken.mp h.taken, ?_⟩
    have hpath : ([47] : Bytes) ≠ [] := by decide
    have hsafe : Native.traverses [47] = false := by decide
    have hload := h.loaded { artifactPath := [47], classCount := channels - 4 } hpath hsafe rfl
    have hcount := ((loadCalled_iff A env w hpath hsafe).mp hload).2
    dsimp only at hcount
    omega
  · rintro ⟨hsmall, hfew⟩
    refine ⟨?_, htaken.mpr hsmall, ?_⟩
    · intro r g payload hr hg hpayload
      exact sendMessage_image hr hg hheight hwidth (hpayload ▸ hbytes.mpr hsmall)
    · intro hdr hpath hsafe hcount
      exact (loadCalled_iff A env w hpath hsafe).mpr (by omega)

/-! ## Examples -/

/-- A graph of one input and one output. -/
def imageGraph (side channels : Int) : Graph where
  inputs := [{ name := py "images", elemType := 1
               shape := some [some 1, some 3, some side, some side] }]
  outputs := [{ name := py "output0", elemType := 1
                shape := some [some 1, some channels, some 8400] }]
  initializers := []
  opsets := [17]
  irVersion := 8
  nodeCount := 1

/-- The type names that the graphs use. -/
def plainOnnx : OnnxEnv where
  typeName := fun n => if n = 1 then some (py "float") else none
  repr := fun s => s

/-- What the inspection makes of such a graph. -/
def imageContract (side channels : Int) : Contract where
  inputName := py "images"
  inputShape := [1, 3, side, side]
  outputs := [{ name := py "output0", shape := [1, channels, 8400], dtype := py "float" }]
  opset := 17
  irVersion := 8
  nodeCount := 1

/-- Square images of a static size are admitted. -/
theorem inspectModel_imageGraph {side channels : Int} (h : badShape [1, 3, side, side] = false) :
    inspectModel plainOnnx (imageGraph side channels) = .ok (imageContract side channels) := by
  have hstatic : staticDims [some 1, some 3, some side, some side] = some [1, 3, side, side] := rfl
  simp only [inspectModel, imageGraph, ValueInfo.dims, Option.getD_some, hstatic, h]
  rfl

/-- A model for images of 640 by 640 pixels and 80 classes can be served. -/
theorem admitted_servable_iff_image :
    Servable Native.sampleArith Native.sampleLabel.env (Native.Worker.start (1 / 4) (9 / 20))
      [1, 3, 640, 640] (84 - 4) := by
  have hinspect : inspectModel plainOnnx (imageGraph 640 84) = .ok (imageContract 640 84) :=
    inspectModel_imageGraph (by decide)
  have hclassify : classifyOutput (imageContract 640 84).outputs =
      .yoloRaw (py "output0") 84 8400 := by
    decide
  exact (admitted_servable_iff Native.sampleArith Native.sampleLabel.env
    (Native.Worker.start (1 / 4) (9 / 20)) hinspect hclassify).mpr (by decide)

/-- **A model for images of 4096 by 4096 pixels is admitted and cannot be served.** -/
theorem largeImage_unservable :
    inspectModel plainOnnx (imageGraph 4096 84) = .ok (imageContract 4096 84) ∧
      classifyOutput (imageContract 4096 84).outputs = .yoloRaw (py "output0") 84 8400 ∧
      Native.validateTensorSpec { shape := [1, 3, 4096, 4096], dtype := Native.cstr "float32" }
        (tensorBytes [1, 3, 4096, 4096]) ≠ none := by
  refine ⟨inspectModel_imageGraph (by decide), by decide, ?_⟩
  intro htaken
  have hsmall := (validateTensorSpec_image (by decide) (by decide)).mp htaken
  rw [tensorBytes_image] at hsmall
  exact absurd hsmall (by decide)

end Models
end FrigateXdna
