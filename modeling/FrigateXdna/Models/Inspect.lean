import FrigateXdna.Errors

/-!
# Inspecting an ONNX graph

{lit}`models/inspect.py`: the contract of a graph and the profile of its outputs.  A graph is
what the code reads of a checked {lit}`ModelProto`; a dimension without a value is symbolic
or unknown.  {lit}`TensorProto.DataType.Name` and {lit}`repr` are parameters.

Main results:

- Theorem {lit}`inspectModel_ok`: what is known of an inspected graph.
- Theorem {lit}`inspectModel_shape`: an inspected input is one image of three channels.
- Theorem {lit}`classifyOutput_yoloRaw`: what is known of a raw YOLO output.
-/

namespace FrigateXdna
namespace Models

open Python

/-! ## Graphs -/

/-- A graph input or output; {lean}`none` is a tensor type without a shape. -/
structure ValueInfo where
  name : PyStr
  elemType : Nat
  shape : Option (List (Option Int))
deriving DecidableEq, Repr

/-- The dimensions; a type without a shape has none. -/
def ValueInfo.dims (v : ValueInfo) : List (Option Int) :=
  v.shape.getD []

/-- A weight, with whether its data is external. -/
structure Initializer where
  name : PyStr
  external : Bool
deriving DecidableEq, Repr

/-- What the inspection reads of a model. -/
structure Graph where
  inputs : List ValueInfo
  outputs : List ValueInfo
  initializers : List Initializer
  opsets : List Int
  irVersion : Int
  nodeCount : Nat
deriving DecidableEq, Repr

/-- {lit}`TensorProto.FLOAT`. -/
def tensorFloat : Nat := 1

/-- What the inspection takes from Python and from the {lit}`onnx` package: the lower-case
name of an element type, unless it has none, and the printed form of a text. -/
structure OnnxEnv where
  typeName : Nat → Option PyStr
  repr : PyStr → PyStr

/-! ## inspect_model -/

/-- One entry of {lit}`outputs`. -/
structure OutputInfo where
  name : PyStr
  shape : List Int
  dtype : PyStr
deriving DecidableEq, Repr

/-- What {lit}`inspect_model` returns. -/
structure Contract where
  inputName : PyStr
  inputShape : List Int
  inputDtype : PyStr := py "float32"
  outputs : List OutputInfo
  opset : Int
  irVersion : Int
  nodeCount : Nat
deriving DecidableEq, Repr

/-- {lit}`_fail(UNSUPPORTED_CONTRACT, "UNSUPPORTED_CONTRACT", message)`. -/
def unsupported {α : Type} (message : PyStr) : Except Raised α :=
  .error (.fxdna ⟨exitUnsupportedContract, py "UNSUPPORTED_CONTRACT", message⟩)

/-- The values of all dimensions, unless one has none. -/
def staticDims : List (Option Int) → Option (List Int)
  | [] => some []
  | none :: _ => none
  | some d :: rest => (staticDims rest).map (d :: ·)

/-- {lit}`repr` of a list of integers. -/
def reprInts (dims : List Int) : PyStr :=
  py "[" ++ joinStr (py ", ") (dims.map intRepr) ++ py "]"

/-- The refused input shapes. -/
def badShape (shape : List Int) : Bool :=
  decide (shape[0]? ≠ some 1 ∨ shape[1]? ≠ some 3) ||
    shape.any fun v => decide (v ≤ 0 ∨ 4096 < v)

/-- The loop over the outputs. -/
def inspectOutputs (env : OnnxEnv) : List ValueInfo → Except Raised (List OutputInfo)
  | [] => .ok []
  | out :: rest =>
      match out.shape with
      | none => unsupported (py "output " ++ env.repr out.name ++ py " has no static shape")
      | some dims =>
          match staticDims dims with
          | none => unsupported (py "output " ++ env.repr out.name ++ py " has dynamic dims")
          | some shape =>
              match env.typeName out.elemType with
              | none => .error (.builtin .valueError)
              | some dtype =>
                  match inspectOutputs env rest with
                  | .error e => .error e
                  | .ok outputs => .ok ({ name := out.name, shape, dtype } :: outputs)

/-- {lit}`inspect_model`. -/
def inspectModel (env : OnnxEnv) (graph : Graph) : Except Raised Contract :=
  match graph.inputs with
  | [inp] =>
      if inp.elemType ≠ tensorFloat then
        unsupported (py "only float32 graph inputs are supported")
      else if inp.dims.length ≠ 4 then
        unsupported (py "input rank " ++ natDigits inp.dims.length ++
          py " is not supported; export a static batch-one NCHW model")
      else
        match staticDims inp.dims with
        | none =>
            unsupported (py "dynamic input dimensions are not supported;" ++
              py " export a static batch-one NCHW model")
        | some shape =>
            if badShape shape then
              unsupported (py "unsupported static input shape: " ++ reprInts shape)
            else
              match inspectOutputs env graph.outputs with
              | .error e => .error e
              | .ok [] => unsupported (py "graph has no outputs")
              | .ok outputs =>
                  match graph.initializers.filter fun i => i.external with
                  | [] =>
                      .ok
                        { inputName := inp.name, inputShape := shape, outputs
                          opset := graph.opsets.max?.getD 0
                          irVersion := graph.irVersion, nodeCount := graph.nodeCount }
                  | first :: more =>
                      unsupported (py "external-data weights require an explicit bundle (" ++
                        natDigits (more.length + 1) ++ py " tensors, e.g. " ++
                        env.repr first.name ++ py ")")
  | inputs =>
      unsupported (py "expected 1 graph input, found " ++ natDigits inputs.length)

/-! ## classify_output -/

/-- What {lit}`classify_output` returns. -/
inductive Profile
  | yoloRaw (tensor : PyStr) (channels anchors : Int)
  | refused (error : PyStr)
deriving DecidableEq, Repr

/-- {lit}`classify_output`. -/
def classifyOutput : List OutputInfo → Profile
  | [o] =>
      match o.shape with
      | [1, channels, anchors] =>
          if 6 ≤ channels ∧ 100 ≤ anchors ∧ o.dtype = py "float" then
            .yoloRaw o.name channels anchors
          else .refused (refusal o)
      | _ => .refused (refusal o)
  | outputs =>
      .refused (natDigits outputs.length ++ py " outputs: only a single raw-YOLO" ++
        py " output tensor is supported in this release" ++
        py " (embedded-NMS exports are not supported;" ++
        py " export raw predictions instead)")
where
  refusal (o : OutputInfo) : PyStr :=
    py "output " ++ o.name ++ py " shape " ++ reprInts o.shape ++ py " dtype " ++ o.dtype ++
      py ": not a supported raw-YOLO contract" ++ py " ([1,4+C,N] float32 required)"

/-! ## What an inspected graph is like -/

theorem staticDims_length {dims : List (Option Int)} {shape : List Int}
    (h : staticDims dims = some shape) : shape.length = dims.length := by
  induction dims generalizing shape with
  | nil =>
      obtain rfl := Option.some.inj h
      rfl
  | cons d rest ih =>
      cases d with
      | none => contradiction
      | some d =>
          obtain ⟨more, hmore, rfl⟩ := Option.map_eq_some_iff.mp h
          rw [List.length_cons, List.length_cons, ih hmore]

/-- What the checks of {lit}`inspect_model` establish of the input and of the outputs. -/
theorem inspectModel_ok {env : OnnxEnv} {graph : Graph} {contract : Contract}
    (h : inspectModel env graph = .ok contract) :
    contract.inputShape.length = 4 ∧ badShape contract.inputShape = false ∧
      inspectOutputs env graph.outputs = .ok contract.outputs := by
  unfold inspectModel at h
  split at h
  · rename_i inp hinputs
    split_ifs at h with htype hrank
    · contradiction
    · contradiction
    · split at h
      · contradiction
      · rename_i shape hshape
        split_ifs at h with hbad
        · contradiction
        · split at h
          · contradiction
          · contradiction
          · rename_i outputs hne houtputs
            split at h
            · obtain rfl := Except.ok.inj h
              refine ⟨(staticDims_length hshape).trans (not_not.mp hrank), ?_, houtputs⟩
              exact Bool.eq_false_iff.mpr hbad
            · contradiction
  · contradiction

/-- **An inspected input** is one image of three channels, each side between 1 and 4096. -/
theorem inspectModel_shape {env : OnnxEnv} {graph : Graph} {contract : Contract}
    (h : inspectModel env graph = .ok contract) :
    ∃ height width : Int, contract.inputShape = [1, 3, height, width] ∧
      (0 < height ∧ height ≤ 4096) ∧ 0 < width ∧ width ≤ 4096 := by
  obtain ⟨hlen, hgood, -⟩ := inspectModel_ok h
  match hshape : contract.inputShape, hlen with
  | [batch, channels, height, width], _ =>
      rw [hshape] at hgood
      simp only [badShape, List.any_cons, List.any_nil, Bool.or_eq_false_iff,
        decide_eq_false_iff_not, List.getElem?_cons_zero, List.getElem?_cons_succ, ne_eq, not_or,
        not_not, Option.some.injEq] at hgood
      obtain ⟨⟨rfl, rfl⟩, -, -, hheight, hwidth, -⟩ := hgood
      exact ⟨height, width, rfl, by omega, by omega⟩

/-- **A raw YOLO output** has at least two classes. -/
theorem classifyOutput_yoloRaw {outputs : List OutputInfo} {tensor : PyStr}
    {channels anchors : Int} (h : classifyOutput outputs = .yoloRaw tensor channels anchors) :
    6 ≤ channels ∧ 100 ≤ anchors ∧
      outputs = [{ name := tensor, shape := [1, channels, anchors], dtype := py "float" }] := by
  unfold classifyOutput at h
  split at h
  · rename_i o
    split at h
    · rename_i c n hshape
      split_ifs at h with hcond
      obtain ⟨hname, hc, hn⟩ := Profile.yoloRaw.inj h
      obtain ⟨name, shape, dtype⟩ := o
      obtain ⟨hchannels, hanchors, hdtype⟩ := hcond
      subst hname hc hn
      simp only at hshape hdtype
      subst hshape hdtype
      exact ⟨hchannels, hanchors, rfl⟩
    · contradiction
  · contradiction

end Models
end FrigateXdna
