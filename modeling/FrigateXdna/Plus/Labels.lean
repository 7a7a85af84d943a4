import FrigateXdna.Library.Outcomes
import FrigateXdna.Models.Inspect
import FrigateXdna.Process

/-!
# Labels and the serving digest

The preparation of a Plus model with the metadata that was downloaded for it.  The metadata
are compared with the geometry of the graph; label map and attributes are in them too.  The
{lit}`onnx` package, {lit}`repr` and what was fetched are parameters.

Main results:

- Definition {lit}`comparePlusMetadata`: when metadata contradict a graph.
- Definition {lit}`preparePlus`: the preparation of fetched bytes.
- Theorem {lit}`servingDigest_blind`: the serving digest never depends on the metadata.
-/

namespace FrigateXdna
namespace Plus

open Python Library Models

/-! ## The inspected contract -/

/-- An entry of {lit}`outputs` as a dictionary. -/
def outputJson (o : OutputInfo) : Json :=
  .obj
    [(py "name", .str o.name), (py "shape", .arr (o.shape.map .int)), (py "dtype", .str o.dtype)]

/-- What {lit}`inspect_model` returns, as a dictionary. -/
def contractJson (c : Contract) : Json :=
  .obj
    [(py "input_name", .str c.inputName),
      (py "input_shape", .arr (c.inputShape.map .int)),
      (py "input_dtype", .str c.inputDtype),
      (py "outputs", .arr (c.outputs.map outputJson)),
      (py "opset", .int c.opset),
      (py "ir_version", .int c.irVersion),
      (py "node_count", .int c.nodeCount)]

/-! ## Metadata -/

/-- The dictionary that the API returned for a model. -/
abbrev Metadata := List (PyStr × Json)

/-- What the preparation takes from Python and from the {lit}`onnx` package: the parsed and
checked graph of some bytes, and {lit}`repr` of a JSON value. -/
structure PlusEnv where
  onnx : OnnxEnv
  loadGraph : Bytes → Except Raised Graph
  repr : Json → PyStr

variable (env : PlusEnv)

/-- An integer that is not a boolean. -/
def strictInt : Json → Option Int
  | .int z => some z
  | _ => none

/-- The loop of {lit}`_strict_int_list`. -/
def strictInts (what : PyStr) : List Json → Except Raised (List Int)
  | [] => .ok []
  | v :: rest =>
      match strictInt v with
      | none =>
          unsupported (py "invalid " ++ what ++ py " geometry value " ++ env.repr v ++
            py ": integers only")
      | some z =>
          match strictInts what rest with
          | .error e => .error e
          | .ok zs => .ok (z :: zs)

/-- {lit}`_strict_int_list`. -/
def strictIntList (values : Json) (what : PyStr) : Except Raised (List Int) :=
  match values with
  | .arr items =>
      if items.length ≠ 4 then
        unsupported (py "invalid " ++ what ++ py " geometry: " ++ env.repr values)
      else strictInts env what items
  | _ => unsupported (py "invalid " ++ what ++ py " geometry: " ++ env.repr values)

/-- {lit}`_check_layout_tag`. -/
def checkLayoutTag (key claimed : PyStr) : Except Raised Unit :=
  if lower claimed = py "nchw" then .ok ()
  else
    unsupported (py "unsupported metadata " ++ key ++ py " layout " ++ env.repr (.str claimed) ++
      py ": only NCHW is served")

/-- The loop of {lit}`_want_from_lists` over the keys. -/
def wantFromKeys (info : Metadata) :
    List PyStr → Option (List Int) → Except Raised (Option (List Int))
  | [], want => .ok want
  | key :: rest, want =>
      match lookupField key info with
      | none => wantFromKeys info rest want
      | some (.str claimed) =>
          match checkLayoutTag env key claimed with
          | .error e => .error e
          | .ok () => wantFromKeys info rest want
      | some claimed =>
          match want with
          | some _ => wantFromKeys info rest want
          | none =>
              match strictIntList env claimed (py "metadata " ++ key) with
              | .error e => .error e
              | .ok found => wantFromKeys info rest (some found)

/-- {lit}`_want_from_lists`. -/
def wantFromLists (info : Metadata) : Except Raised (Option (List Int)) :=
  wantFromKeys env info
    [py "input_shape", py "inputShape", py "dimensions", py "input_dims"] none

/-- One side of the geometry. -/
def strictSide (v : Json) : Except Raised Int :=
  match strictInt v with
  | some z => .ok z
  | none =>
      unsupported (py "invalid metadata geometry value " ++ env.repr v ++ py ": integers only")

/-- {lit}`_want_from_wh`. -/
def wantFromWh (info : Metadata) : Except Raised (Option (List Int)) :=
  match lookupField (py "width") info, lookupField (py "height") info with
  | none, none => .ok none
  | w, h =>
      match strictSide env (w.getD .null) with
      | .error e => .error e
      | .ok width =>
          match strictSide env (h.getD .null) with
          | .error e => .error e
          | .ok height => .ok (some [1, 3, height, width])

/-- The geometry that the metadata claim, if they claim one. -/
def wantedGeometry (info : Metadata) : Except Raised (Option (List Int)) :=
  match wantFromLists env info with
  | .error e => .error e
  | .ok (some want) => .ok (some want)
  | .ok none => wantFromWh env info

/-- {lit}`compare_plus_metadata`. -/
def comparePlusMetadata (info : Metadata) (inspected : Contract) : Except Raised Unit :=
  match wantedGeometry env info with
  | .error e => .error e
  | .ok none => .ok ()
  | .ok (some want) =>
      if want = inspected.inputShape then .ok ()
      else
        unsupported (py "Plus metadata geometry " ++ reprInts want ++
          py " conflicts with ONNX " ++ py "graph input " ++ reprInts inspected.inputShape)

/-- {lit}`_inspect_checked` on downloaded bytes and their metadata. -/
def inspectChecked (data : Bytes) (info : Metadata) : Except Raised Contract :=
  match env.loadGraph data with
  | .error e => .error e
  | .ok graph =>
      match inspectModel env.onnx graph with
      | .error e => .error e
      | .ok contract =>
          match comparePlusMetadata env info contract with
          | .error e => .error e
          | .ok () =>
              match classifyOutput contract.outputs with
              | .refused error => unsupported error
              | .yoloRaw _ _ _ => .ok contract

/-- The contract of accepted bytes does not depend on the metadata. -/
theorem inspectChecked_contract {data : Bytes} {info info' : Metadata} {c c' : Contract}
    (h : inspectChecked env data info = .ok c) (h' : inspectChecked env data info' = .ok c') :
    c = c' := by
  unfold inspectChecked at h h'
  cases hload : env.loadGraph data with
  | error e =>
      rw [hload] at h
      contradiction
  | ok graph =>
      rw [hload] at h h'
      dsimp only at h h'
      cases hinspect : inspectModel env.onnx graph with
      | error e =>
          rw [hinspect] at h
          contradiction
      | ok contract =>
          rw [hinspect] at h h'
          dsimp only at h h'
          have hfirst : c = contract := by
            repeat' split at h
            all_goals first | contradiction | exact (Except.ok.inj h).symm
          have hsecond : c' = contract := by
            repeat' split at h'
            all_goals first | contradiction | exact (Except.ok.inj h').symm
          rw [hfirst, hsecond]

/-! ## Preparing fetched bytes -/

/-- {lit}`prepare` of a Plus ref, once its bytes and metadata were fetched. -/
def preparePlus (setup : Setup) (ref : PyStr) (data : Bytes) (info : Metadata)
    (refresh : Bool) : ThreadProg IngestReply := do
  spread (exec (.upsertRef ref (py "plus")))
  spread (whenever (setup.models.contains ref)
    (exec (.addPin ⟨py "ref:" ++ ref, py "configured", ref⟩)))
  match inspectChecked env data info with
  | .error e => .raise e
  | .ok contract => ingestSource setup ref data .plus (contractJson contract) refresh

/-! ## What the preparation returns -/

section Outcomes

variable {setup : Setup} {ref digest key serving : PyStr} {reply : IngestReply}

/-- A submission returns the digest it was given. -/
theorem submitCompile_serving {origin : Origin}
    (h : (submitCompile setup ref digest key serving origin).Returns reply) :
    reply.servingDigest = some serving := by
  obtain ⟨room, -, h⟩ := Program.returns_bind.mp h
  split at h
  · obtain ⟨job, -, h⟩ := Program.returns_bind.mp h
    obtain ⟨_, -, h⟩ := Program.returns_bind.mp h
    exact Program.returns_pure.mp h ▸ rfl
  · exact absurd h (by simp)

/-- A cache hit returns the digest it was given, and so does a submission. -/
theorem hitOrSubmit_serving {origin : Origin}
    (h : (hitOrSubmit setup ref digest key serving origin).Returns reply) :
    reply.servingDigest = some serving := by
  obtain ⟨known, -, h⟩ := Program.returns_bind.mp h
  split at h
  · obtain ⟨trusted, -, h⟩ := Program.returns_bind.mp h
    split at h
    · obtain ⟨uuid, -, h⟩ := Program.returns_bind.mp h
      obtain ⟨_, -, h⟩ := Program.returns_bind.mp h
      obtain ⟨_, -, h⟩ := Program.returns_bind.mp h
      exact Program.returns_pure.mp h ▸ rfl
    · obtain ⟨_, -, h⟩ := Program.returns_bind.mp h
      exact submitCompile_serving h
  · exact submitCompile_serving h

/-- **The serving digest of an ingested source** is that of its bytes and its contract. -/
theorem ingestSource_serving {data : Bytes} {inspected : Json} {refresh : Bool}
    (h : (ingestSource setup ref data .plus inspected refresh).Returns reply) :
    ∃ key serving, keysOf setup (setup.sha256 data) inspected = .ok (key, serving) ∧
      reply.servingDigest = some serving := by
  obtain ⟨moved, -, h⟩ := Program.returns_bind.mp h
  split at h
  · obtain ⟨_, -, h⟩ := Program.returns_bind.mp h
    exact absurd h (by simp)
  · obtain ⟨_, -, h⟩ := Program.returns_bind.mp h
    obtain ⟨_, -, h⟩ := Program.returns_bind.mp h
    obtain ⟨_, -, h⟩ := Program.returns_bind.mp h
    rw [if_neg (by decide)] at h
    split at h
    · exact absurd h (by simp)
    next key serving hkeys => exact ⟨key, serving, hkeys, hitOrSubmit_serving h⟩

/-- What a preparation that returns went through. -/
theorem preparePlus_serving {data : Bytes} {info : Metadata} {refresh : Bool}
    (h : (preparePlus env setup ref data info refresh).Returns reply) :
    ∃ contract key serving, inspectChecked env data info = .ok contract ∧
      keysOf setup (setup.sha256 data) (contractJson contract) = .ok (key, serving) ∧
      reply.servingDigest = some serving := by
  obtain ⟨_, -, h⟩ := Program.returns_bind.mp h
  obtain ⟨_, -, h⟩ := Program.returns_bind.mp h
  split at h
  · exact absurd h (by simp)
  next contract hcontract =>
    obtain ⟨key, serving, hkeys, hreply⟩ := ingestSource_serving h
    exact ⟨contract, key, serving, hcontract, hkeys, hreply⟩

/-- **The serving digest never depends on the metadata**: two preparations of the same bytes
record the same digest, whatever label map and attributes were downloaded, for whatever refs
and whatever happens meanwhile. -/
theorem servingDigest_blind {ref' : PyStr} {data : Bytes} {info info' : Metadata}
    {refresh refresh' : Bool} {reply' : IngestReply}
    (h : (preparePlus env setup ref data info refresh).Returns reply)
    (h' : (preparePlus env setup ref' data info' refresh').Returns reply') :
    ∃ serving, reply.servingDigest = some serving ∧ reply'.servingDigest = some serving := by
  obtain ⟨contract, key, serving, hcontract, hkeys, hreply⟩ := preparePlus_serving env h
  obtain ⟨contract', key', serving', hcontract', hkeys', hreply'⟩ := preparePlus_serving env h'
  obtain rfl := inspectChecked_contract env hcontract hcontract'
  rw [hkeys] at hkeys'
  obtain ⟨-, rfl⟩ := Prod.mk.inj (Except.ok.inj hkeys')
  exact ⟨serving, hreply, hreply'⟩

end Outcomes

/-! ## Two label maps -/

/-- A detector with eighty classes. -/
def sampleGraph : Graph where
  inputs := [⟨py "images", 1, some [some 1, some 3, some 320, some 320]⟩]
  outputs := [⟨py "output0", 1, some [some 1, some 84, some 2100]⟩]
  initializers := []
  opsets := [17]
  irVersion := 8
  nodeCount := 233

/-- The contract of the detector. -/
def detectorContract : Contract where
  inputName := py "images"
  inputShape := [1, 3, 320, 320]
  outputs := [⟨py "output0", [1, 84, 2100], py "float"⟩]
  opset := 17
  irVersion := 8
  nodeCount := 233

/-- A package that reads every file as the detector. -/
def sampleEnv : PlusEnv where
  onnx := { typeName := fun t => if t = 1 then some (py "float") else none, repr := id }
  loadGraph _ := .ok sampleGraph
  repr _ := []

/-- The text whose digest is the serving digest of the detector. -/
def servingText : PyStr :=
  canonicalText (.obj
    [(py "schema", .int 1), (py "compile_key", .str sampleKey),
      (py "contract", contractJson detectorContract)])

/-- The serving digest of the detector. -/
def detectorServing : PyStr :=
  py "e2ebc7a8a91e2fb09f83acffc0ba4bf46b341d96373f1bfa19069b136ac72c8b"

/-- A host whose digest function also has the serving digest of the detector. -/
def labelSetup : Setup :=
  { sampleSetup with
    sha256 := fun data =>
      if data.map UInt8.toNat = servingText then detectorServing else sampleSha256 data
    sha256_ne_nil := fun data => by
      split
      · decide
      · exact sampleSetup.sha256_ne_nil data }

/-- Metadata with one label. -/
def labelled (label : PyStr) : Metadata :=
  [(py "width", .int 320), (py "height", .int 320),
    (py "labelMap", .obj [(py "0", .str label)])]

/-- A data dir with room for a compile. -/
def roomy : Manager where
  freeBytes := 100 * 1024 ^ 3
  totalBytes := 100 * 1024 ^ 3

/-- The serving digest that a run returned. -/
def servingOf (r : Except Raised IngestReply) : Option PyStr :=
  match r with
  | .ok reply => reply.servingDigest
  | .error _ => none

/-- The detector is prepared with one label. -/
def prepareLabelled (label : PyStr) : ThreadProg IngestReply :=
  preparePlus sampleEnv labelSetup (py "plus://m") sampleModel (labelled label) false

/-- The run of that preparation records the serving digest of the detector. -/
theorem servingOf_prepareLabelled (label : PyStr) (h : label = py "cat" ∨ label = py "dog") :
    servingOf ((prepareLabelled label).run (Act.exec labelSetup) roomy).2 =
      some detectorServing := by
  rcases h with rfl | rfl <;> decide +kernel

/-- A preparation with either label returns the serving digest of the detector. -/
theorem prepareLabelled_returns (label : PyStr) (h : label = py "cat" ∨ label = py "dog") :
    ∃ reply, (prepareLabelled label).Returns reply ∧
      reply.servingDigest = some detectorServing := by
  have hrun := servingOf_prepareLabelled label h
  cases hresult : ((prepareLabelled label).run (Act.exec labelSetup) roomy).2 with
  | error e =>
      rw [hresult] at hrun
      contradiction
  | ok reply =>
      rw [hresult] at hrun
      exact ⟨reply, Program.returns_of_run hresult, hrun⟩

/-- The same bytes under two labels. -/
theorem servingDigest_blind_labels :
    ∃ reply reply', (prepareLabelled (py "cat")).Returns reply ∧
      (prepareLabelled (py "dog")).Returns reply' ∧
        ∃ serving, reply.servingDigest = some serving ∧
          reply'.servingDigest = some serving := by
  obtain ⟨reply, hreply, -⟩ := prepareLabelled_returns (py "cat") (Or.inl rfl)
  obtain ⟨reply', hreply', -⟩ := prepareLabelled_returns (py "dog") (Or.inr rfl)
  exact ⟨reply, reply', hreply, hreply', servingDigest_blind sampleEnv hreply hreply'⟩

/-- **Two label maps, one serving digest.** -/
theorem relabelled_same_serving :
    lookupField (py "labelMap") (labelled (py "cat")) ≠
        lookupField (py "labelMap") (labelled (py "dog")) ∧
      ∃ reply reply', (prepareLabelled (py "cat")).Returns reply ∧
        (prepareLabelled (py "dog")).Returns reply' ∧
          reply.servingDigest = some detectorServing ∧
          reply'.servingDigest = some detectorServing := by
  obtain ⟨reply, hreply, hserving⟩ := prepareLabelled_returns (py "cat") (Or.inl rfl)
  obtain ⟨reply', hreply', hserving'⟩ := prepareLabelled_returns (py "dog") (Or.inr rfl)
  exact ⟨by decide, reply, reply', hreply, hreply', hserving, hserving'⟩

end Plus
end FrigateXdna
