import Mathlib.Data.List.Find
import Mathlib.Data.List.Nodup
import FrigateXdna.ModelView

/-!
# Status without Plus identifiers

{lit}`fxdna status` shows a pseudonym for each Plus ref and the rest of a view as it is.
Two registries that differ only in a Plus model ID of the same pseudonym then look the same
as long as the ID stands nowhere else in what is read: the inhibition record, the error
codes, failure records and inspections of the refs, and the order in which SQLite returns
the refs.

Main results:

- Theorem {lit}`projectRef_rename`: the view of a ref after its ID was replaced.
- Theorem {lit}`readStatus_rename_iff`: when the replacement does not show.
- Theorem {lit}`inhibited_ref_shown`: the ref of an inhibition record shows it.
-/

namespace FrigateXdna

open Python

/-! ## Redaction -/

/-- The scheme of a Plus ref. -/
def plusScheme : PyStr :=
  py "plus://"

/-- {lit}`plus_alias`; {lit}`hmacHex` is the hexadecimal HMAC-SHA256 under the redaction
key. -/
def plusAlias (hmacHex : PyStr → PyStr) (modelId : PyStr) : PyStr :=
  py "plus:" ++ (hmacHex modelId).take 12

/-- {lit}`sanitize_ref`. -/
def sanitizeRef (hmacHex : PyStr → PyStr) (ref : PyStr) : PyStr :=
  if startsWith plusScheme ref then plusAlias hmacHex (ref.drop plusScheme.length) else ref

/-- {lit}`abbreviate_digest`. -/
def abbreviateDigest (digest : PyStr) : PyStr :=
  if digest.length ≤ 16 then digest else digest.take 16 ++ [0x2026]

/-- {lit}`_StatusView.project` without raw identifiers: the ref and the source digest are
redacted, the rest passes through. -/
def redactView (hmacHex : PyStr → PyStr) (v : ModelView) : ModelView :=
  { v with ref := sanitizeRef hmacHex v.ref, sourceSha256 := abbreviateDigest v.sourceSha256 }

/-! ## The status document -/

/-- What {lit}`_read_status` returns besides the build. -/
structure StatusDoc where
  state : PyStr
  ready : Bool
  reason : PyStr
  models : List ModelView
  inhibition : Option Json
deriving DecidableEq

/-- The refs a status lists: the one it was asked for, or all in the order of the scan. -/
def listedRefs (scan : List PyStr → List PyStr) (s : StatusStore) : Option PyStr → List PyStr
  | some ref => if (s.getRef ref).isSome then [ref] else []
  | none => scan (s.refs.map StatusRef.ref)

/-- {lit}`_read_status` without raw identifiers, for a registry that exists and an argument
that {lit}`parse_ref` has read.  {lit}`scan` is the order in which SQLite returns the refs,
and {lit}`daemon` whether a manager answers. -/
def readStatus (scan : List PyStr → List PyStr) (hmacHex : PyStr → PyStr) (daemon : Bool)
    (s : StatusStore) (ref : Option PyStr) : StatusDoc :=
  { state :=
      if daemon then py "SERVING"
      else if s.inhibition.any Json.truthy then py "INHIBITED"
      else py "STARTING"
    ready := false
    reason := if daemon then py "no live worker projection offline" else py "daemon not running"
    models := (listedRefs scan s ref).map fun r => redactView hmacHex (projectRef s r none)
    inhibition := s.inhibition }

/-! ## Replacing an ID -/

mutual

/-- A JSON value with every text replaced. -/
def mapText (f : PyStr → PyStr) : Json → Json
  | .null => .null
  | .bool b => .bool b
  | .int z => .int z
  | .float x => .float x
  | .str s => .str (f s)
  | .arr items => .arr (mapTextItems f items)
  | .obj fields => .obj (mapTextFields f fields)

/-- The items of an array with every text replaced. -/
def mapTextItems (f : PyStr → PyStr) : List Json → List Json
  | [] => []
  | j :: rest => mapText f j :: mapTextItems f rest

/-- The values of a dictionary with every text replaced. -/
def mapTextFields (f : PyStr → PyStr) : List (PyStr × Json) → List (PyStr × Json)
  | [] => []
  | (k, v) :: rest => (k, mapText f v) :: mapTextFields f rest

end

/-- The replacement of one Plus model ID by another: {lit}`text` replaces it within a text,
of which nothing is left to replace afterwards. -/
structure Replacement where
  old : PyStr
  new : PyStr
  text : PyStr → PyStr
  text_text : ∀ s, text (text s) = text s
  text_eq_nil : ∀ s, text s = [] ↔ s = []

namespace Replacement

/-- A ref after the replacement. -/
def ref (R : Replacement) (r : PyStr) : PyStr :=
  if r = plusScheme ++ R.old then plusScheme ++ R.new else r

/-- A JSON value after the replacement. -/
def json (R : Replacement) : Json → Json :=
  mapText R.text

/-- The registry after the replacement: in the refs, and in the texts of inspections, error
codes, failure records and the inhibition record. -/
def store (R : Replacement) (s : StatusStore) : StatusStore :=
  { s with
    refs := s.refs.map fun m => { m with ref := R.ref m.ref, inspection := m.inspection.map R.json }
    jobs := s.jobs.map fun j =>
      { j with
        ref := R.ref j.ref, errorCode := j.errorCode.map R.text
        failure := j.failure.map (mapTextFields R.text) }
    aliases := s.aliases.map fun a => (a.1, R.ref a.2)
    inhibition := s.inhibition.map R.json }

/-- A view after the replacement. -/
def view (R : Replacement) (v : ModelView) : ModelView :=
  { v with
    errorCode := v.errorCode.map R.text
    failure := v.failure.map R.json
    inspection := v.inspection.map R.json }

/-- The new ID is not in use, and the status is not asked for it. -/
structure Fresh (R : Replacement) (s : StatusStore) (ref : Option PyStr) : Prop where
  refs : ∀ m ∈ s.refs, m.ref ≠ plusScheme ++ R.new
  jobs : ∀ j ∈ s.jobs, j.ref ≠ plusScheme ++ R.new
  aliases : ∀ a ∈ s.aliases, a.2 ≠ plusScheme ++ R.new
  arg : ∀ r ∈ ref, r ≠ plusScheme ++ R.new

end Replacement

/-! ## Texts of JSON values -/

section MapText

variable {f : PyStr → PyStr}

mutual

/-- Replacing twice is replacing once. -/
theorem mapText_mapText (hf : ∀ s, f (f s) = f s) : ∀ j, mapText f (mapText f j) = mapText f j
  | .null | .bool _ | .int _ | .float _ => rfl
  | .str s => by simp [mapText, hf s]
  | .arr items => by simp [mapText, mapTextItems_mapTextItems hf items]
  | .obj fields => by simp [mapText, mapTextFields_mapTextFields hf fields]

theorem mapTextItems_mapTextItems (hf : ∀ s, f (f s) = f s) :
    ∀ items, mapTextItems f (mapTextItems f items) = mapTextItems f items
  | [] => rfl
  | j :: rest => by
      simp [mapTextItems, mapText_mapText hf j, mapTextItems_mapTextItems hf rest]

theorem mapTextFields_mapTextFields (hf : ∀ s, f (f s) = f s) :
    ∀ fields, mapTextFields f (mapTextFields f fields) = mapTextFields f fields
  | [] => rfl
  | (k, v) :: rest => by
      simp [mapTextFields, mapText_mapText hf v, mapTextFields_mapTextFields hf rest]

end

/-- The value of a key after a replacement. -/
theorem lookupField_mapTextFields (key : PyStr) (fields : List (PyStr × Json)) :
    lookupField key (mapTextFields f fields) = (lookupField key fields).map (mapText f) := by
  induction fields with
  | nil => rfl
  | cons field rest ih =>
      rcases field with ⟨k, v⟩
      simp only [mapTextFields, lookupField]
      split
      · rfl
      · exact ih

/-- A replacement that empties no text leaves the truth value of a JSON value. -/
theorem truthy_mapText (hf : ∀ s, f s = [] ↔ s = []) (j : Json) :
    (mapText f j).truthy = j.truthy := by
  cases j with
  | str s =>
      cases s with
      | nil => simp [mapText, Json.truthy, (hf []).mpr rfl]
      | cons c rest =>
          have hne : f (c :: rest) ≠ [] := fun h => by simpa using (hf (c :: rest)).mp h
          simp [mapText, Json.truthy, hne]
  | arr items => cases items <;> rfl
  | obj fields => cases fields <;> rfl
  | _ => rfl

end MapText

/-! ## The registry after a replacement -/

namespace Replacement

variable {R : Replacement}

/-- The replacement tells refs apart that are not the new one. -/
theorem ref_eq_iff {r r' : PyStr} (hr : r ≠ plusScheme ++ R.new)
    (hr' : r' ≠ plusScheme ++ R.new) : R.ref r = R.ref r' ↔ r = r' := by
  unfold Replacement.ref
  by_cases h : r = plusScheme ++ R.old
  · by_cases h' : r' = plusScheme ++ R.old
    · simp [h, h']
    · simp only [h, h', if_true, if_false]
      exact ⟨fun e => absurd e.symm hr', fun e => absurd e.symm h'⟩
  · by_cases h' : r' = plusScheme ++ R.old
    · simp only [h, h', if_true, if_false]
      exact ⟨fun e => absurd e hr, fun e => e.elim⟩
    · simp [h, h']

/-- A row of {lit}`jobs` after the replacement. -/
def job (R : Replacement) (j : StatusJob) : StatusJob :=
  { j with
    ref := R.ref j.ref, errorCode := j.errorCode.map R.text
    failure := j.failure.map (mapTextFields R.text) }

variable {s : StatusStore} {ref : Option PyStr} (h : R.Fresh s ref)

include h

theorem getRef_store {r : PyStr} (hr : r ≠ plusScheme ++ R.new) :
    (R.store s).getRef (R.ref r) = (s.getRef r).map fun m =>
      { m with ref := R.ref m.ref, inspection := m.inspection.map R.json } := by
  simp only [StatusStore.getRef, store, List.find?_map]
  congr 1
  refine List.find?_congr fun m hm => ?_
  rw [Bool.eq_iff_iff]
  simpa using ref_eq_iff (h.refs m hm) hr

/-- The rows of a ref after the replacement. -/
theorem jobsOf_store {r : PyStr} (hr : r ≠ plusScheme ++ R.new) :
    (R.store s).jobsOf (R.ref r) = (s.jobsOf r).map R.job := by
  have halias : ∀ uuid, (s.aliases.map fun a => (a.1, R.ref a.2)).any
      (fun a => a.1 == uuid && a.2 == R.ref r) =
      s.aliases.any fun a => a.1 == uuid && a.2 == r := by
    intro uuid
    rw [List.any_map, Bool.eq_iff_iff]
    simp only [List.any_eq_true, Function.comp_apply, Bool.and_eq_true, beq_iff_eq]
    constructor
    · rintro ⟨a, ha, huuid, href⟩
      exact ⟨a, ha, huuid, (ref_eq_iff (h.aliases a ha) hr).mp href⟩
    · rintro ⟨a, ha, huuid, href⟩
      exact ⟨a, ha, huuid, (ref_eq_iff (h.aliases a ha) hr).mpr href⟩
  simp only [StatusStore.jobsOf, store, List.filter_map, halias]
  congr 1
  refine List.filter_congr fun j hj => ?_
  have hown : (R.ref j.ref == R.ref r) = (j.ref == r) := by
    rw [Bool.eq_iff_iff]
    simpa using ref_eq_iff (h.jobs j hj) hr
  simp [hown]

theorem latestJob_store {r : PyStr} (hr : r ≠ plusScheme ++ R.new) :
    (R.store s).latestJob (R.ref r) = (s.latestJob r).map R.job := by
  have hnewest : ∀ rows : List StatusJob, newestBy StatusJob.updatedAt (rows.map R.job) =
      (newestBy StatusJob.updatedAt rows).map R.job := newestBy_map fun _ => rfl
  simp only [StatusStore.latestJob, jobsOf_store h hr, List.filter_map, Option.map_or, ← hnewest]
  rfl

theorem preparedKeyForRef_store {r : PyStr} (hr : r ≠ plusScheme ++ R.new) :
    (R.store s).preparedKeyForRef (R.ref r) = s.preparedKeyForRef r := by
  have hnewest : ∀ rows : List StatusJob, newestBy StatusJob.updatedAt (rows.map R.job) =
      (newestBy StatusJob.updatedAt rows).map R.job := newestBy_map fun _ => rfl
  simp only [StatusStore.preparedKeyForRef, jobsOf_store h hr, List.filter_map, hnewest,
    Option.bind_map]
  rfl

end Replacement

/-- What is shown of a failure after a replacement. -/
theorem failureView_map (R : Replacement) (failure : Option (List (PyStr × Json)))
    (stage : Option Stage) :
    failureView (failure.map (mapTextFields R.text)) stage =
      ((failureView failure stage).1.map R.json, (failureView failure stage).2) := by
  cases failure with
  | none => rfl
  | some fields =>
      simp only [failureView, Option.map_some, lookupField_mapTextFields, Option.isNone_map]
      split
      · rfl
      · have hnull : ∀ o : Option Json,
            (o.map (mapText R.text)).getD .null = mapText R.text (o.getD .null) := by
          rintro (_ | v) <;> rfl
        have hzero : ∀ o : Option Json,
            (o.map (mapText R.text)).getD (.int 0) = mapText R.text (o.getD (.int 0)) := by
          rintro (_ | v) <;> rfl
        have htruthy := truthy_mapText R.text_eq_nil
        simp [shownKeys, hnull, hzero, htruthy, Replacement.json, mapText, mapTextFields]

/-- **The view of a ref after its ID was replaced.** -/
theorem projectRef_rename {R : Replacement} {s : StatusStore} {ref : Option PyStr}
    (h : R.Fresh s ref) {r : PyStr} (hr : r ≠ plusScheme ++ R.new) (liveKey : Option PyStr) :
    projectRef (R.store s) (R.ref r) liveKey =
      { R.view (projectRef s r liveKey) with ref := R.ref r } := by
  simp only [projectRef, Replacement.getRef_store h hr, Replacement.latestJob_store h hr,
    Replacement.preparedKeyForRef_store h hr, Replacement.view]
  have hartifact : (R.store s).getArtifact = s.getArtifact := rfl
  have hverified : (R.store s).verified = s.verified := rfl
  have hfailure : ((s.latestJob r).map R.job).bind StatusJob.failure =
      ((s.latestJob r).bind StatusJob.failure).map (mapTextFields R.text) := by
    cases s.latestJob r <;> rfl
  have hstage : ((s.latestJob r).map R.job).map StatusJob.stage =
      (s.latestJob r).map StatusJob.stage := by
    cases s.latestJob r <;> rfl
  rw [hartifact, hverified, hfailure, hstage, failureView_map]
  cases s.latestJob r <;> cases s.getRef r <;> rfl

/-! ## The status after a replacement -/

/-- A list that a mapping without second effect permutes is left by it. -/
theorem map_eq_self_of_perm {α : Type*} {f : α → α} (hf : ∀ a, f (f a) = f a) {l : List α}
    (h : (l.map f).Perm l) : ∀ a ∈ l, f a = a := by
  intro a ha
  obtain ⟨b, -, rfl⟩ := List.mem_map.mp (h.mem_iff.mpr ha)
  exact hf b

/-- Permuted lists that a mapping without repetitions makes equal are equal. -/
theorem eq_of_map_eq {α β : Type*} {f : α → β} {l l' : List α} (hperm : l.Perm l')
    (hnodup : (l'.map f).Nodup) (heq : l.map f = l'.map f) : l = l' := by
  have hinj := List.inj_on_of_nodup_map hnodup
  refine List.ext_getElem hperm.length_eq fun i hi hi' => ?_
  refine hinj (hperm.mem_iff.mp (List.getElem_mem hi)) (List.getElem_mem hi') ?_
  have hat := congrArg (·[i]?) heq
  simpa [List.getElem?_map, hi, hi'] using hat

namespace Replacement

variable {R : Replacement}

/-- The ID stands neither in the inspection of the row of a ref, nor in the error code of its
newest job, nor in the shown fields of a failure record of that job that has a phase. -/
def Free (R : Replacement) (s : StatusStore) (r : PyStr) : Prop :=
  (∀ m ∈ s.getRef r, m.inspection.map R.json = m.inspection) ∧
    ∀ j ∈ s.latestJob r, j.errorCode.map R.text = j.errorCode ∧
      ∀ fields ∈ j.failure, (lookupField (py "phase") fields).isSome = true →
        ∀ k ∈ shownKeys ++ [py "attempts"], ∀ v ∈ lookupField k fields, R.json v = v

/-- The ID stands in no record that is shown, and SQLite returns the refs under their new
names in the old order. -/
structure Hidden (R : Replacement) (scan : List PyStr → List PyStr) (s : StatusStore)
    (ref : Option PyStr) : Prop where
  inhibition : s.inhibition.map R.json = s.inhibition
  rows : ∀ r ∈ listedRefs scan s ref, R.Free s r
  inPlace : listedRefs scan (R.store s) (ref.map R.ref) = (listedRefs scan s ref).map R.ref

/-- A replacement leaves what is shown of a failure exactly when it leaves the fields that
are shown. -/
theorem failureView_eq_self_iff {failure : Option (List (PyStr × Json))} (stage : Option Stage) :
    (failureView failure stage).1.map R.json = (failureView failure stage).1 ↔
      ∀ fields ∈ failure, (lookupField (py "phase") fields).isSome = true →
        ∀ k ∈ shownKeys ++ [py "attempts"], ∀ v ∈ lookupField k fields, R.json v = v := by
  cases failure with
  | none => simp [failureView]
  | some fields =>
      have hdefault : ∀ (o : Option Json) (d : Json), R.json d = d →
          (R.json (o.getD d) = o.getD d ↔ ∀ v ∈ o, R.json v = v) := by
        rintro (_ | v) d hd
        · simp [hd]
        · simp
      have hnull := fun o => hdefault o .null rfl
      have hzero := fun o => hdefault o (.int 0) rfl
      simp only [json] at hnull hzero
      cases hphase : lookupField (py "phase") fields with
      | none => simp [failureView, hphase]
      | some phase =>
          simp [failureView, hphase, shownKeys, json, mapText, mapTextFields, hnull, hzero]

/-- The view of a ref shows the ID exactly where its rows do. -/
theorem view_eq_self_iff {hmacHex : PyStr → PyStr} {s : StatusStore} {r : PyStr} :
    R.view (redactView hmacHex (projectRef s r none)) = redactView hmacHex (projectRef s r none) ↔
      R.Free s r := by
  have hjobless : (failureView none none).1 = none := rfl
  simp only [view, Free, redactView, projectRef, ModelView.mk.injEq, true_and]
  cases s.latestJob r with
  | none => cases s.getRef r <;> simp [hjobless]
  | some j =>
      simp only [← failureView_eq_self_iff (some j.stage)]
      cases s.getRef r with
      | none => simp
      | some m =>
          simp only [Option.bind_some, Option.map_some, Option.mem_def, Option.some.injEq,
            forall_eq']
          tauto

theorem view_view (v : ModelView) : R.view (R.view v) = R.view v := by
  have htext : ∀ o : Option PyStr, (o.map R.text).map R.text = o.map R.text := by
    rintro (_ | s)
    · rfl
    · simp [R.text_text s]
  have hjson : ∀ o : Option Json, (o.map R.json).map R.json = o.map R.json := by
    rintro (_ | j)
    · rfl
    · simp [json, mapText_mapText R.text_text j]
  simp only [view, htext, hjson]

/-- Two IDs of one pseudonym are shown alike. -/
theorem sanitizeRef_ref {hmacHex : PyStr → PyStr}
    (hsame : plusAlias hmacHex R.old = plusAlias hmacHex R.new) (r : PyStr) :
    sanitizeRef hmacHex (R.ref r) = sanitizeRef hmacHex r := by
  have hplus : ∀ id, sanitizeRef hmacHex (plusScheme ++ id) = plusAlias hmacHex id := by
    intro id
    have hhead : startsWith plusScheme (plusScheme ++ id) = true :=
      List.isPrefixOf_iff_prefix.mpr (List.prefix_append _ _)
    rw [sanitizeRef, if_pos hhead, List.drop_left]
  unfold Replacement.ref
  split
  · rename_i hold
    rw [hold, hplus, hplus, hsame]
  · rfl

/-- The shown view of a ref after its ID was replaced. -/
theorem redactView_store {hmacHex : PyStr → PyStr}
    (hsame : plusAlias hmacHex R.old = plusAlias hmacHex R.new) {s : StatusStore}
    {ref : Option PyStr} (h : R.Fresh s ref) {r : PyStr} (hr : r ≠ plusScheme ++ R.new) :
    redactView hmacHex (projectRef (R.store s) (R.ref r) none) =
      R.view (redactView hmacHex (projectRef s r none)) := by
  rw [projectRef_rename h hr]
  simp only [redactView, view, sanitizeRef_ref hsame]
  rfl

variable {scan : List PyStr → List PyStr} (hscan : ∀ refs, (scan refs).Perm refs)

include hscan

/-- The refs that a status lists are refs of the registry, or the one it was asked for. -/
theorem ne_new_of_listed {s : StatusStore} {ref : Option PyStr} (h : R.Fresh s ref) {r : PyStr}
    (hr : r ∈ listedRefs scan s ref) : r ≠ plusScheme ++ R.new := by
  cases ref with
  | some arg =>
      simp only [listedRefs] at hr
      by_cases hfound : (s.getRef arg).isSome = true
      · rw [if_pos hfound] at hr
        rw [List.mem_singleton.mp hr]
        exact h.arg arg rfl
      · rw [if_neg hfound] at hr
        exact absurd hr List.not_mem_nil
  | none =>
      obtain ⟨m, hm, rfl⟩ := List.mem_map.mp ((hscan _).mem_iff.mp hr)
      exact h.refs m hm

/-- The same refs are listed after a replacement, in some order. -/
theorem listedRefs_store {s : StatusStore} {ref : Option PyStr} (h : R.Fresh s ref) :
    (listedRefs scan (R.store s) (ref.map R.ref)).Perm
      ((listedRefs scan s ref).map R.ref) := by
  cases ref with
  | some arg =>
      have hfound : ((R.store s).getRef (R.ref arg)).isSome = (s.getRef arg).isSome := by
        rw [getRef_store h (h.arg arg rfl), Option.isSome_map]
      simp only [Option.map_some, listedRefs, hfound]
      split <;> exact List.Perm.refl _
  | none =>
      have hrefs : (R.store s).refs.map StatusRef.ref = (s.refs.map StatusRef.ref).map R.ref := by
        simp [store, Function.comp_def]
      simp only [Option.map_none, listedRefs, hrefs]
      exact (hscan _).trans ((hscan _).map R.ref).symm

/-- **When the replacement of an ID by one of the same pseudonym does not show**: the ID
stands in no record that is shown, and the refs are listed in the old order.  That is enough;
and it is necessary unless two listed refs have one pseudonym. -/
theorem readStatus_rename_iff {hmacHex : PyStr → PyStr}
    (hsame : plusAlias hmacHex R.old = plusAlias hmacHex R.new) (daemon : Bool)
    {s : StatusStore} {ref : Option PyStr} (h : R.Fresh s ref) :
    (R.Hidden scan s ref → readStatus scan hmacHex daemon (R.store s) (ref.map R.ref) =
        readStatus scan hmacHex daemon s ref) ∧
      (((listedRefs scan s ref).map (sanitizeRef hmacHex)).Nodup →
        (readStatus scan hmacHex daemon (R.store s) (ref.map R.ref) =
            readStatus scan hmacHex daemon s ref ↔ R.Hidden scan s ref)) := by
  set listed := listedRefs scan s ref with hlisted
  set shown := fun r => redactView hmacHex (projectRef s r none) with hshown
  have hinhibition : (R.store s).inhibition = s.inhibition.map R.json := rfl
  have hrenamed : (listed.map fun r => redactView hmacHex (projectRef (R.store s) (R.ref r) none)) =
      (listed.map shown).map R.view := by
    rw [List.map_map]
    refine List.map_congr_left fun r hr => ?_
    exact redactView_store hsame h (ne_new_of_listed hscan h (hlisted ▸ hr))
  have henough : R.Hidden scan s ref → readStatus scan hmacHex daemon (R.store s) (ref.map R.ref) =
      readStatus scan hmacHex daemon s ref := by
    rintro ⟨hkept, hfree, horder⟩
    have hmodels : (listedRefs scan (R.store s) (ref.map R.ref)).map
        (fun r => redactView hmacHex (projectRef (R.store s) r none)) = listed.map shown := by
      rw [horder, List.map_map]
      refine hrenamed.trans ?_
      rw [List.map_map]
      exact List.map_congr_left fun r hr => view_eq_self_iff.mpr (hfree r hr)
    simp only [readStatus, hinhibition, hkept, hmodels]
    rfl
  refine ⟨henough, fun hnodup => ⟨fun heq => ?_, henough⟩⟩
  have hkept : s.inhibition.map R.json = s.inhibition :=
    hinhibition.symm.trans (congrArg StatusDoc.inhibition heq)
  have hmodels := congrArg StatusDoc.models heq
  simp only [readStatus] at hmodels
  have hlist := listedRefs_store hscan h
  have hperm : ((listed.map shown).map R.view).Perm (listed.map shown) := by
    have hviews := hlist.map fun r => redactView hmacHex (projectRef (R.store s) r none)
    rw [List.map_map, ← hlisted, hmodels] at hviews
    rw [← hrenamed]
    exact hviews.symm
  refine ⟨hkept, fun r hr => ?_, ?_⟩
  · have hfixed := map_eq_self_of_perm view_view hperm (shown r) (List.mem_map_of_mem hr)
    exact view_eq_self_iff.mp hfixed
  · -- the names that are shown tell the listed refs apart
    have hnames : (listed.map R.ref).map (sanitizeRef hmacHex) =
        listed.map (sanitizeRef hmacHex) := by
      rw [List.map_map]
      exact List.map_congr_left fun r _ => sanitizeRef_ref hsame r
    refine eq_of_map_eq hlist (by rwa [← hlisted, hnames]) ?_
    have hrefs := congrArg (List.map ModelView.ref) hmodels
    simp only [List.map_map] at hrefs
    rw [← hlisted, hnames]
    exact hrefs

end Replacement

/-! ## An inhibition record with its ref -/

/-- The ID {lit}`front-door` replaced by {lit}`back-yard`, where it stands alone. -/
def sampleReplacement : Replacement where
  old := py "front-door"
  new := py "back-yard"
  text s := if s = py "plus://front-door" then py "plus://back-yard" else s
  text_text s := by
    have hne : py "plus://back-yard" ≠ py "plus://front-door" := by decide
    by_cases h : s = py "plus://front-door" <;> simp [h, hne]
  text_eq_nil s := by
    have hnew : py "plus://back-yard" ≠ [] := by decide
    have hold : py "plus://front-door" ≠ [] := by decide
    by_cases h : s = py "plus://front-door" <;> simp [h, hnew, hold]

/-- A key under which every ID has one pseudonym. -/
def sampleHmac (_ : PyStr) : PyStr :=
  py "0123456789ab"

/-- A registry with one prepared Plus ref and another ref. -/
def quietStore : StatusStore where
  refs :=
    [⟨py "plus://front-door", py "PREPARED", some (py "5f2a"), none⟩,
      ⟨py "local://driveway", py "NEW", none, none⟩]

/-- The same registry after the worker that served the Plus ref was lost. -/
def inhibitedStore : StatusStore :=
  { quietStore with
    inhibition := some (.obj [(py "reason", .str (py "WORKER_LOST")),
      (py "ref", .str (py "plus://front-door"))]) }

theorem fresh_quietStore : sampleReplacement.Fresh quietStore none :=
  ⟨by decide, by simp [quietStore], by simp [quietStore], by simp⟩

theorem readStatus_rename_iff_quietStore :
    readStatus id sampleHmac false (sampleReplacement.store quietStore) none =
      readStatus id sampleHmac false quietStore none :=
  (Replacement.readStatus_rename_iff (fun _ => List.Perm.refl _) rfl false
    fresh_quietStore).1 ⟨rfl, by unfold Replacement.Free; decide +kernel, by decide +kernel⟩

/-- **The ref of an inhibition record is shown as it is.** -/
theorem inhibited_ref_shown :
    ¬ ∀ (scan : List PyStr → List PyStr) (hmacHex : PyStr → PyStr) (daemon : Bool)
      (R : Replacement) (s : StatusStore) (ref : Option PyStr),
      (∀ refs, (scan refs).Perm refs) → plusAlias hmacHex R.old = plusAlias hmacHex R.new →
        R.Fresh s ref →
          readStatus scan hmacHex daemon (R.store s) (ref.map R.ref) =
            readStatus scan hmacHex daemon s ref := by
  intro hall
  have hfresh : sampleReplacement.Fresh inhibitedStore none :=
    ⟨fresh_quietStore.refs, fresh_quietStore.jobs, fresh_quietStore.aliases,
      fresh_quietStore.arg⟩
  have heq := hall id sampleHmac false sampleReplacement inhibitedStore none
    (fun _ => List.Perm.refl _) rfl hfresh
  exact absurd (congrArg StatusDoc.inhibition heq) (by decide +kernel)

end FrigateXdna
