import FrigateXdna.Native.Main

/-!
# Memory bounds and the generation gate of the native worker

A class count is checked against the vendor's shapes when a model is loaded, and the
postprocessor relies on it at any later inference.  {lit}`Ready` is what the check
establishes; {lit}`Handling` lists what one message can do to it, and {lit}`Watched` is
what holds of the worker and of everything that it has done so far.

Main results:

- Theorem {lit}`handle_cases`: everything that handling a message can do.
- Theorem {lit}`watched_step`: a round keeps the invariant.
- Theorem {lit}`inference_guarded`: every postprocessing stays within the buffer, and
  every frame is answered under the generation of the model that is loaded.
-/

namespace FrigateXdna
namespace Native

open Python Library

variable {F : Type} {A : Arith F} {sort : Sorter F}

/-! ## The invariant of the worker -/

/-- The output buffer fits the class count and the columns of the session. -/
structure Fits (w : Worker F) : Prop where
  classes : 0 < w.yoloCfg.classCount
  cols : w.model.outputCols ≠ 0
  size : w.outbuf.length = (4 + w.yoloCfg.classCount.toNat) * w.model.outputCols

/-- A loaded model has its buffer. -/
def Ready (w : Worker F) : Prop :=
  w.model.loaded = true → Fits w

/-- A buffer that fits is not empty. -/
theorem Fits.outbuf_ne_nil {w : Worker F} (h : Fits w) : w.outbuf ≠ [] := by
  intro hnil
  have hsize := h.size
  rw [hnil, List.length_nil] at hsize
  have hcols := h.cols
  rcases Nat.mul_eq_zero.mp hsize.symm with hzero | hzero
  · omega
  · exact hcols hzero

/-- Neither the contents of the buffer nor the image size matter. -/
theorem Fits.congr {w w' : Worker F} (h : Fits w) (hmodel : w'.model = w.model)
    (hclasses : w'.yoloCfg.classCount = w.yoloCfg.classCount)
    (hsize : w'.outbuf.length = w.outbuf.length) : Fits w' := by
  refine ⟨?_, ?_, ?_⟩
  · rw [hclasses]
    exact h.classes
  · rw [hmodel]
    exact h.cols
  · rw [hsize, hclasses, hmodel]
    exact h.size

@[simp]
theorem deriveGeometry_classCount (cfg : YoloConfig F) (cols : Nat) :
    (deriveGeometry cfg cols).classCount = cfg.classCount := by
  unfold deriveGeometry
  split_ifs <;> rfl

@[simp]
theorem inferConfig_classCount (cfg : YoloConfig F) (shape : List Int) :
    (inferConfig cfg shape).classCount = cfg.classCount := by
  unfold inferConfig
  dsimp only
  split_ifs <;> rfl

/-- A load that passes the shape guard leaves a buffer that fits. -/
theorem fits_of_load {model : Model} {classCount : Int} (hpos : 0 < classCount)
    (hmax : classCount ≤ 4096) (h : misfits model classCount = false) (generation : Int)
    (digest : Bytes) (cfg : YoloConfig F) :
    Fits
      { workerGeneration := generation, servingDigest := digest, model
        yoloCfg := { cfg with classCount }
        outbuf := List.replicate model.outputElements A.zero } := by
  have hguard : model.outputCols ≠ 0 ∧
      model.outputChannels = sizeT (classCount.toNat + 4) ∧
        model.outputElements = sizeT (model.outputChannels * model.outputCols) := by
    simpa [misfits, not_or] using h
  obtain ⟨hcols, hchannels, -⟩ := hguard
  refine ⟨hpos, hcols, ?_⟩
  have hrows : sizeT (classCount.toNat + 4) = 4 + classCount.toNat := by
    unfold sizeT
    omega
  rw [List.length_replicate, Model.outputElements_of_cols hcols, hchannels, hrows]

/-! ## What one message can do -/

/-- A reply that is no frame of an inference. -/
def NoFrame (reply : Header) : Prop :=
  reply.messageType = .result → reply.errorCode ≠ []

/-- Everything that handling a message can do to the worker, with the events. -/
inductive Handling (w : Worker F) (hdr : Header) : Worker F → List Event → Prop
  | answered (w' : Worker F) (reply : Header) (p : Bytes) (hmodel : w'.model = w.model)
      (hgeneration : w'.workerGeneration = w.workerGeneration) (hready : Ready w')
      (hreply : NoFrame reply) : Handling w hdr w' [.send hdr reply p]
  | unloaded (w' : Worker F) (reply : Header) (p : Bytes)
      (hgone : w'.model.loaded = false)
      (hgeneration : w'.workerGeneration = w.workerGeneration) (hreply : NoFrame reply) :
      Handling w hdr w' [.loadCalled, .send hdr reply p]
  | loaded (w' : Worker F) (reply : Header) (p : Bytes) (classCount : Int)
      (hready : Ready w') (hgeneration : w'.workerGeneration = hdr.workerGeneration)
      (hclean : reply.errorCode = []) (hreply : NoFrame reply) :
      Handling w hdr w'
        [.loadCalled, .loaded hdr.workerGeneration classCount, .send hdr reply p]
  | served (w' : Worker F) (reply : Header) (p : Bytes) (size cols : Nat) (classCount : Int)
      (hloaded : w.model.loaded = true)
      (hrequest : hdr.workerGeneration = w.workerGeneration)
      (hmodel : w'.model = w.model)
      (hgeneration : w'.workerGeneration = w.workerGeneration) (hready : Ready w')
      (hsize : (4 + classCount) * cols = size) (hclasses : 0 < classCount)
      (htype : hdr.messageType = .infer) :
      Handling w hdr w' [.postprocess size cols classCount, .send hdr reply p]

/-- What a {lit}`LOAD` can do. -/
theorem handleLoad_cases (env : Env F) {w : Worker F} (hw : Ready w) (hdr : Header) :
    Handling w hdr (handleLoad A env w hdr).worker (handleLoad A env w hdr).events := by
  have hstatus : ∀ code message : Bytes, NoFrame
      { messageType := .status, requestId := hdr.requestId
        workerGeneration := hdr.workerGeneration, errorCode := code
        errorMessage := message } := by
    intro code message htype
    contradiction
  unfold handleLoad
  dsimp only
  split
  · exact .answered w _ _ rfl rfl hw (hstatus _ _)
  · split
    · exact .answered w _ _ rfl rfl hw (hstatus _ _)
    · rename_i hclasses
      rw [not_or] at hclasses
      have hspec := w.model.load_spec env.load hdr.artifactPath
      split
      · rename_i model err hload
        rw [hload] at hspec
        have hgone : model.loaded = false := by simpa using hspec
        exact .unloaded _ _ _ hgone rfl (hstatus _ _)
      · rename_i model hload
        split
        · exact .unloaded _ _ _ rfl rfl (hstatus _ _)
        · rename_i hmisfits
          have hfits : misfits model hdr.classCount = false := by simpa using hmisfits
          refine .loaded _ _ _ hdr.classCount (fun _ => ?_) rfl rfl (hstatus _ _)
          exact fits_of_load (by omega) (by omega) hfits _ _ _

/-- What the end of an {lit}`INFER` can do, with a buffer that fits. -/
theorem finishInfer_cases {w : Worker F} {hdr : Header} {outbuf : List F}
    (hloaded : w.model.loaded = true) (hfits : Fits w)
    (hlength : outbuf.length = w.outbuf.length)
    (hrequest : hdr.workerGeneration = w.workerGeneration)
    (htype : hdr.messageType = .infer) :
    Handling w hdr (finishInfer A sort w hdr outbuf).worker
      (finishInfer A sort w hdr outbuf).events := by
  have hbuffer : Fits { w with outbuf } := hfits.congr rfl rfl hlength
  unfold finishInfer
  dsimp only
  split
  · refine .answered _ _ _ rfl rfl (fun _ => hbuffer) ?_
    exact fun _ => by simp [cstr, py]
  · have hcols : inferCols { w with outbuf } outbuf = w.model.outputCols := by
      unfold inferCols
      exact if_neg fun h => hfits.cols h.1
    have hsize : outbuf.length =
        (4 + (inferConfig w.yoloCfg hdr.tensorSpec.shape).classCount.toNat) *
          inferCols { w with outbuf } outbuf := by
      rw [hcols, inferConfig_classCount]
      exact hbuffer.size
    have hrows := postprocessYoloRaw_isSome A sort hsize
    split
    · rename_i hnone
      rw [hnone] at hrows
      contradiction
    · have hpos : 0 < (inferConfig w.yoloCfg hdr.tensorSpec.shape).classCount := by
        simpa using hfits.classes
      refine .served _ _ _ _ _ _ hloaded hrequest rfl rfl (fun _ => ?_) ?_ hpos htype
      · exact hbuffer.congr rfl (inferConfig_classCount _ _) rfl
      · rw [hsize, Int.natCast_mul, Int.natCast_add, Int.toNat_of_nonneg hpos.le]
        rfl

/-- What an {lit}`INFER` can do. -/
theorem handleInfer_cases (env : Env F) {w : Worker F} (hw : Ready w) {hdr : Header}
    (payload : Bytes) (htype : hdr.messageType = .infer) :
    Handling w hdr (handleInfer A sort env w hdr payload).worker
      (handleInfer A sort env w hdr payload).events := by
  have hrefuse : ∀ code message : Bytes, code ≠ [] →
      Handling w hdr w [resultError hdr w.workerGeneration code message] :=
    fun code message hcode => .answered w _ _ rfl rfl hw fun _ => hcode
  have hargs : cstr "INVALID_ARGS" ≠ [] := by simp [cstr, py]
  unfold handleInfer
  dsimp only
  split
  · exact hrefuse _ _ hargs
  · rename_i hgeneration
    have hrequest : hdr.workerGeneration = w.workerGeneration := by simpa using hgeneration
    split
    · exact hrefuse _ _ (by simp [cstr, py])
    · rename_i hunloaded
      have hloaded : w.model.loaded = true := by simpa using hunloaded
      have hfits := hw hloaded
      split
      · exact hrefuse _ _ hargs
      · split
        · exact hrefuse _ _ hargs
        · split
          · exact hrefuse _ _ hargs
          · split
            · exact hrefuse _ _ hargs
            · have hlength : ((List.range (if w.outbuf.isEmpty = true then
                  w.model.outputElements else w.outbuf.length)).map env.output).length =
                    w.outbuf.length := by
                simp [hfits.outbuf_ne_nil]
              split
              · refine .answered _ _ _ rfl rfl (fun _ => hfits.congr rfl rfl hlength) ?_
                exact fun _ => by simp [cstr, py]
              · exact finishInfer_cases hloaded hfits hlength hrequest htype

/-- **Everything that handling a message can do.** -/
theorem handle_cases (env : Env F) {w : Worker F} (hw : Ready w) (hdr : Header)
    (payload : Bytes) :
    Handling w hdr (handle A sort env w hdr payload).worker
      (handle A sort env w hdr payload).events := by
  unfold handle
  split
  · exact .answered w _ _ rfl rfl hw fun _ => by simp [cstr, py]
  · split
    · exact .answered w _ _ rfl rfl hw (by intro h; contradiction)
    · exact handleLoad_cases env hw hdr
    · exact .answered w _ _ rfl rfl hw (by intro h; contradiction)
    · rename_i htype
      exact handleInfer_cases env hw payload htype
    · exact .answered w _ _ rfl rfl hw (by intro h; contradiction)

/-- So does a message that is refused before it is handled. -/
theorem handling_refused {w : Worker F} (hw : Ready w) {hdr : Header} (err : Bytes) :
    Handling w hdr w [statusReply hdr w.workerGeneration (cstr "INVALID_ARGS") err] := by
  refine .answered w _ _ rfl rfl hw fun htype => ?_
  contradiction

/-- Handling a message keeps the worker ready. -/
theorem Handling.ready {w w' : Worker F} {hdr : Header} {es : List Event}
    (h : Handling w hdr w' es) : Ready w' := by
  cases h with
  | answered _ _ _ _ hready => exact hready
  | unloaded _ _ hgone =>
      intro hloaded
      rw [hgone] at hloaded
      contradiction
  | loaded _ _ _ hready => exact hready
  | served _ _ _ _ _ _ _ _ _ hready => exact hready

/-! ## The trace -/

/-- The last successful {lit}`LOAD` of a trace had this generation, and nothing has
called {lit}`Model::load` since. -/
def ServedUnder (past : List Event) (generation : Int) : Prop :=
  ∃ before after classCount,
    past = before ++ .loaded generation classCount :: after ∧ Event.loadCalled ∉ after

/-- What holds of an event after everything that came before it. -/
def Allowed (past : List Event) : Event → Prop
  | .postprocess size cols classCount => (4 + classCount) * cols = size ∧ 0 < classCount
  | .fault => False
  | .send request reply _ =>
      reply.messageType = .result → reply.errorCode = [] →
        ServedUnder past request.workerGeneration
  | _ => True

/-- Every event of a trace is allowed. -/
def AllAllowed (trace : List Event) : Prop :=
  ∀ before event after, trace = before ++ event :: after → Allowed before event

/-- What holds of the worker and of its trace. -/
structure Watched (w : Worker F) (past : List Event) : Prop where
  ready : Ready w
  gate : w.model.loaded = true → ServedUnder past w.workerGeneration
  allowed : AllAllowed past

/-- One more event. -/
theorem AllAllowed.snoc {past : List Event} {event : Event} (h : AllAllowed past)
    (hevent : Allowed past event) : AllAllowed (past ++ [event]) := by
  intro before e after heq
  rcases List.append_eq_append_iff.mp heq with ⟨mid, hbefore, hmid⟩ | ⟨mid, hpast, hmid⟩
  · cases mid with
    | nil =>
        simp only [List.nil_append, List.cons.injEq] at hmid
        rw [hbefore, List.append_nil, ← hmid.1]
        exact hevent
    | cons x xs => simp at hmid
  · cases mid with
    | nil =>
        simp only [List.nil_append, List.cons.injEq] at hmid
        rw [List.append_nil] at hpast
        rw [← hpast, hmid.1]
        exact hevent
    | cons x xs =>
        simp only [List.cons_append, List.cons.injEq] at hmid
        exact h before e xs (by rw [hpast, hmid.1])

/-- Events that are no calls of {lit}`Model::load` leave the last load as it is. -/
theorem ServedUnder.append {past more : List Event} {generation : Int}
    (h : ServedUnder past generation) (hmore : Event.loadCalled ∉ more) :
    ServedUnder (past ++ more) generation := by
  obtain ⟨before, after, classCount, rfl, hafter⟩ := h
  refine ⟨before, after ++ more, classCount, by simp, ?_⟩
  rw [List.mem_append, not_or]
  exact ⟨hafter, hmore⟩

/-- Handling a message keeps the invariant. -/
theorem Handling.watched {w w' : Worker F} {hdr : Header} {past es : List Event}
    (h : Handling w hdr w' es) (hw : Watched w past) : Watched w' (past ++ es) := by
  have hready' := h.ready
  cases h with
  | answered reply p hmodel hgeneration hready hreply =>
      refine ⟨hready, fun hloaded => ?_, hw.allowed.snoc fun htype hcode => ?_⟩
      · rw [hgeneration]
        exact (hw.gate (hmodel ▸ hloaded)).append (by simp)
      · exact absurd hcode (hreply htype)
  | unloaded reply p hgone hgeneration hreply =>
      refine ⟨hready', fun hloaded => ?_, ?_⟩
      · rw [hgone] at hloaded
        contradiction
      · have hcalled : AllAllowed (past ++ [.loadCalled]) := hw.allowed.snoc trivial
        have hall : AllAllowed (past ++ [.loadCalled] ++ [.send hdr reply p]) :=
          hcalled.snoc fun htype hcode => absurd hcode (hreply htype)
        simpa using hall
  | loaded reply p classCount hready hgeneration hclean hreply =>
      refine ⟨hready, fun _ => ?_, ?_⟩
      · refine ⟨past ++ [.loadCalled], [.send hdr reply p], classCount, ?_, by simp⟩
        rw [hgeneration]
        simp
      · have hcalled : AllAllowed (past ++ [.loadCalled]) := hw.allowed.snoc trivial
        have hloaded : AllAllowed
            (past ++ [.loadCalled] ++ [.loaded hdr.workerGeneration classCount]) :=
          hcalled.snoc trivial
        have hall : AllAllowed (past ++ [.loadCalled] ++
            [.loaded hdr.workerGeneration classCount] ++ [.send hdr reply p]) :=
          hloaded.snoc fun htype hcode => absurd hcode (hreply htype)
        simpa using hall
  | served reply p size cols classCount hloaded hrequest hmodel hgeneration hready hsize
      hclasses htype =>
      refine ⟨hready, fun hstill => ?_, ?_⟩
      · rw [hgeneration]
        exact (hw.gate hloaded).append (by simp)
      · have hcall : AllAllowed (past ++ [.postprocess size cols classCount]) :=
          hw.allowed.snoc ⟨hsize, hclasses⟩
        have hserved : ServedUnder (past ++ [.postprocess size cols classCount])
            hdr.workerGeneration := by
          rw [hrequest]
          exact (hw.gate hloaded).append (by simp)
        have hall : AllAllowed
            (past ++ [.postprocess size cols classCount] ++ [.send hdr reply p]) :=
          hcall.snoc fun _ _ => hserved
        simpa using hall

/-- **Everything that a round can do**: nothing, or the handling of what it received. -/
theorem round_cases (A : Arith F) (sort : Sorter F) {l : Loop F} (h : Ready l.worker)
    (label : Label F) :
    (round A sort l label).1.worker = l.worker ∧ (round A sort l label).2 = [] ∨
      Handling l.worker (recvMessage l.stream).header (round A sort l label).1.worker
        (round A sort l label).2 := by
  unfold round
  split
  · exact Or.inl ⟨rfl, rfl⟩
  · dsimp only
    split
    · rename_i err _
      split
      · exact Or.inl ⟨rfl, rfl⟩
      · exact Or.inr (handling_refused h err)
    · exact Or.inr (handle_cases label.env h _ _)

/-- **A round keeps the invariant.** -/
theorem watched_step {l l' : Loop F} {past es : List Event} {label : Label F}
    (h : Watched l.worker past) (hstep : (machine A sort).step l label = some (l', es)) :
    Watched l'.worker (past ++ es) := by
  simp only [machine, Option.ite_none_right_eq_some, Option.some.injEq] at hstep
  obtain ⟨-, hround⟩ := hstep
  have hcases := round_cases A sort h.ready label
  rw [hround] at hcases
  rcases hcases with ⟨hworker, hnone⟩ | hhandling
  · dsimp only at hworker hnone
    rw [hworker, hnone, List.append_nil]
    exact h
  · exact hhandling.watched h

/-! ## Runs -/

/-- A {lit}`LOAD` that is answered with an error leaves the generation, and the model or
none. -/
def RefusedLoadKeeps (A : Arith F) (sort : Sorter F) (l : Loop F) (label : Label F) : Prop :=
  ∀ request reply p, Event.send request reply p ∈ (round A sort l label).2 →
    request.messageType = .load → reply.errorCode ≠ [] →
      (round A sort l label).1.worker.workerGeneration = l.worker.workerGeneration ∧
        ((round A sort l label).1.worker.model = l.worker.model ∨
          (round A sort l label).1.worker.model.loaded = false)

/-- Handling a message refuses a load that way. -/
theorem Handling.refused_load {w w' : Worker F} {hdr request reply : Header} {p : Bytes}
    {es : List Event} (h : Handling w hdr w' es) (hsend : Event.send request reply p ∈ es)
    (hcode : reply.errorCode ≠ []) :
    w'.workerGeneration = w.workerGeneration ∧
      (w'.model = w.model ∨ w'.model.loaded = false) := by
  cases h with
  | answered _ _ hmodel hgeneration => exact ⟨hgeneration, Or.inl hmodel⟩
  | unloaded _ _ hgone hgeneration => exact ⟨hgeneration, Or.inr hgone⟩
  | loaded _ _ _ _ _ hclean =>
      obtain ⟨rfl, rfl, rfl⟩ : request = hdr ∧ reply = _ ∧ p = _ := by simpa using hsend
      exact absurd hclean hcode
  | served _ _ _ _ _ _ _ hmodel hgeneration => exact ⟨hgeneration, Or.inl hmodel⟩

/-- A round refuses a load that way. -/
theorem refusedLoadKeeps {l : Loop F} (h : Ready l.worker) (label : Label F) :
    RefusedLoadKeeps A sort l label := by
  intro request reply p hsend htype hcode
  rcases round_cases A sort h label with ⟨-, hnone⟩ | hhandling
  · rw [hnone] at hsend
    contradiction
  · exact hhandling.refused_load hsend hcode

/-- Every round of a run refuses a load that way. -/
theorem along_refusedLoadKeeps {l : Loop F} {past : List Event} (h : Watched l.worker past)
    (labels : List (Label F)) :
    (machine A sort).Along (RefusedLoadKeeps A sort) labels l := by
  induction labels generalizing l past with
  | nil => trivial
  | cons label rest ih =>
      exact ⟨refusedLoadKeeps h.ready label, fun l' es hstep => ih (watched_step h hstep)⟩

/-- The worker is watched from the start. -/
theorem watched_start (scoreThreshold nmsIou : F) :
    Watched (Worker.start scoreThreshold nmsIou) [] := by
  refine ⟨fun h => ?_, fun h => ?_, fun before event after heq => ?_⟩
  · contradiction
  · contradiction
  · simp at heq

/-- **Inference is guarded.**  Whatever the socket delivers, every postprocessing gets a
class count and a column count that make up the output buffer and reads nothing outside
it; every frame answers a request of the generation of the last successful {lit}`LOAD`,
whose model is still there; and a refused {lit}`LOAD` neither advances the generation nor
leaves a new model. -/
theorem inference_guarded (A : Arith F) (sort : Sorter F) (scoreThreshold nmsIou : F)
    (stream : Bytes) {labels : List (Label F)} {l : Loop F} {es : List Event}
    (hrun : (machine A sort).exec labels
      { worker := Worker.start scoreThreshold nmsIou, stream } = some (l, es)) :
    (∀ size cols classCount, Event.postprocess size cols classCount ∈ es →
        (4 + classCount) * cols = size) ∧
      Event.fault ∉ es ∧
      (∀ before request reply p after, es = before ++ .send request reply p :: after →
        reply.messageType = .result → reply.errorCode = [] →
          ServedUnder before request.workerGeneration) ∧
      (machine A sort).Along (RefusedLoadKeeps A sort) labels
        { worker := Worker.start scoreThreshold nmsIou, stream } := by
  have hstart : Watched (Worker.start scoreThreshold nmsIou) [] :=
    watched_start scoreThreshold nmsIou
  have hend : Watched l.worker ([] ++ es) :=
    (machine A sort).exec_history (fun _ _ _ _ _ h hstep => watched_step h hstep) hstart hrun
  rw [List.nil_append] at hend
  refine ⟨fun size cols classCount hmem => ?_, fun hmem => ?_, ?_, ?_⟩
  · obtain ⟨before, after, heq⟩ := List.append_of_mem hmem
    exact (hend.allowed _ _ _ heq).1
  · obtain ⟨before, after, heq⟩ := List.append_of_mem hmem
    exact hend.allowed _ _ _ heq
  · exact fun before request reply p after heq => hend.allowed _ _ _ heq
  · exact along_refusedLoadKeeps hstart labels

/-! ## A load and an inference -/

/-- Numbers that are all zero on the wire. -/
def sampleArith : Arith ℚ :=
  exactArith (fun _ => 0) (fun _ => [0, 0, 0, 0])

/-- A stable sort. -/
def sampleSort : Sorter ℚ :=
  fun before dets => dets.insertionSort fun a b => before b a = false

/-- A {lit}`LOAD` with two classes, and an {lit}`INFER` of the same generation. -/
def sampleStream : Bytes :=
  frame
      (cstr "\x7b\"artifact_path\": \"/a.rai\", \"class_count\": 2, \"message_type\": " ++
        cstr "\"LOAD\", \"protocol_version\": 1, \"worker_generation\": 7\x7d") [] ++
    frame
      (cstr "\x7b\"message_type\": \"INFER\", \"payload_length\": 12, " ++
        cstr "\"protocol_version\": 1, \"tensor_spec\": \x7b\"dtype\": \"float32\", " ++
        cstr "\"shape\": [1, 3, 1, 1]\x7d, \"worker_generation\": 7\x7d")
      (List.replicate 12 0)

/-- A vendor library with a model of two classes and one column. -/
def sampleLabel : Label ℚ where
  termBefore := false
  termAfter := false
  env :=
    { load :=
        { mapped := true, good := true
          inputs := [{ shape := [1, 3, 1, 1], size := 12 }]
          outputs := [{ shape := [1, 6, 1], size := 24 }] }
      output := fun _ => 0
      forwardError := none }

/-- The sample inference is served within its bounds. -/
theorem inference_guarded_sample :
    ∃ l es, (machine sampleArith sampleSort).exec [sampleLabel, sampleLabel]
        { worker := Worker.start (1 / 4) (9 / 20), stream := sampleStream } = some (l, es) ∧
      Event.postprocess 6 1 2 ∈ es ∧
      (∀ size cols classCount, Event.postprocess size cols classCount ∈ es →
        (4 + classCount) * cols = size) ∧ Event.fault ∉ es := by
  have hemits : (machine sampleArith sampleSort).emits [sampleLabel, sampleLabel]
      { worker := Worker.start (1 / 4) (9 / 20), stream := sampleStream }
      (fun e => e == .postprocess 6 1 2) = true := by
    decide +kernel
  obtain ⟨l, es, e, hrun, hmem, he⟩ :=
    (machine sampleArith sampleSort).exists_exec_of_emits hemits
  have hguarded :=
    inference_guarded sampleArith sampleSort (1 / 4) (9 / 20) sampleStream hrun
  refine ⟨l, es, hrun, ?_, hguarded.1, hguarded.2.1⟩
  rwa [eq_of_beq he] at hmem

end Native
end FrigateXdna
