import FrigateXdna.System.Progress

/-!
# The inhibition record over whole runs

A record says why the device must not be driven.  Activations, transfers and the
artifact probe do not look at it before they spawn a child or send a LOAD, every
failure handler overwrites the one slot, and a recovery has to name the stored
ref.

Main results:

- Theorem {lit}`System.device_gated_iff`: a run never drives the device under a
  record exactly when no request that gets a device user to a child meets one.
- Theorem {lit}`System.safety_sticky_iff`: a safety-class record stays for a whole
  run exactly when every record written meanwhile is safety-class.
- Theorem {lit}`System.recoverable`: a run whose records outside the safety class carry
  refs that {lit}`parse_ref` accepts never gets stuck with such a record.
-/

namespace FrigateXdna
namespace System

open Python Library FrigateXdna.Runtime FrigateXdna.Transport

/-! ## Driving the device -/

/-- An activation that gets to a child: the registry knows the artifact, its source can
be read and is raw YOLO output with at least one class, its file is there, and the
spawn succeeds. -/
structure Activatable (env : StartEnv) (compileKey : PyStr) (r : Registry) : Prop where
  row : ∃ a ∈ r.artifacts, a.compileKey = compileKey
  reads : env.inspect.artifactFault = none ∧ env.inspect.sourceFault = none
  contract : ∃ cls, env.inspect.inspection = .ok cls ∧
    cls.profile = some (py "yolo-raw") ∧ 4 < cls.channels
  file : env.inspect.artifactFile = true
  child : env.spawn = .ok ()

/-- A LOAD that gets to a child: it names at least one class, the child is alive, the
header is not longer than {lit}`MAX_HEADER_BYTES`, and the child takes a byte of the
message. -/
structure Loadable (env : ExchangeEnv) (raiPath : PyStr) (generation : Int)
    (servingDigest : PyStr) (classCount : Int) (w : NativeWorker) : Prop where
  classes : 0 < classCount
  alive : env.alive = true
  fits : (encodeHeader (wireHeader (NativeWorker.loadHeader w.requests raiPath generation
    servingDigest classCount) [])).length ≤ maxHeaderBytes
  taken : env.send.Reaches w.sockTimeout

/-- The requests, registry rows and outcomes outside the process with which a device
user gets to a child: the transfer of a model that can be activated, an explicit
activation of one when no compile is in flight or under maintenance, a LOAD that is due
and can be sent, and a probe that finds the lease free and spawns. -/
def Drives (cfg : Config) (s : System) : Label → Prop
  | .start env => ∃ m t, s.frontend.phase = .activating m t ∧
      Activatable env t.compileKey s.sup.registry
  | .admin maintenance busy refEnv arg env =>
      ∃ key, ((maintenance = true ∨ busy = false) ∧
          ∃ parsed, parseRef refEnv cfg.modelDir arg = .ok parsed ∧
            s.sup.registry.preparedKey parsed.ref = some key) ∧
        Activatable env key s.sup.registry
  | .finish env => ∃ p, s.pending = some p ∧
      Loadable env.load p.spec.raiPath p.generation p.spec.servingDigest p.spec.classCount
        p.child.native
  | .probeStart lease spawn =>
      lease = true ∧ spawn = .ok () ∧
        ∀ m t, s.frontend.phase ≠ .checking m t ∧ s.frontend.phase ≠ .activating m t
  | .probeLoad env raiPath classCount _ => ∃ child, s.probe = some ⟨child, false⟩ ∧
      Loadable env raiPath 1 (py "probe") classCount child.native
  | _ => False

/-- An inspection succeeds exactly for an artifact that is known, readable, of the
right contract and there. -/
theorem inspectActivation_toBool_iff (cfg : Config) (env : InspectEnv) (r : Registry)
    (compileKey : PyStr) :
    (inspectActivation cfg env r compileKey).toBool = true ↔
      (r.getArtifact compileKey).isSome = true ∧
        (env.artifactFault = none ∧ env.sourceFault = none) ∧
        (∃ cls, env.inspection = .ok cls ∧ cls.profile = some (py "yolo-raw") ∧
          4 < cls.channels) ∧
        env.artifactFile = true := by
  unfold inspectActivation
  cases env.artifactFault with
  | some e => simp [Except.toBool]
  | none =>
      cases r.getArtifact compileKey with
      | none => simp [raiseFxdna, Except.toBool]
      | some row =>
          cases env.sourceFault with
          | some e =>
              dsimp only
              split <;> simp [raiseFxdna, Except.toBool]
          | none =>
              cases env.inspection with
              | error e => cases e <;> simp [raiseFxdna, Except.toBool]
              | ok cls =>
                  by_cases hprofile : cls.profile = some (py "yolo-raw")
                  · by_cases hclasses : 4 < cls.channels
                    · have hpos : ¬cls.channels - 4 ≤ 0 := by omega
                      cases env.artifactFile <;>
                        simp [hprofile, hclasses, hpos, raiseFxdna, Except.toBool]
                    · have hnone : cls.channels - 4 ≤ 0 := by omega
                      simp [hprofile, hclasses, hnone, raiseFxdna, Except.toBool]
                  · simp [hprofile, raiseFxdna, Except.toBool]

/-- An activation spawns a child exactly for an artifact that can be activated. -/
theorem spawns_iff (cfg : Config) (env : StartEnv) (compileKey : PyStr) (r : Registry) :
    spawns cfg env compileKey r = true ↔ Activatable env compileKey r := by
  have hrow : (r.getArtifact compileKey).isSome = true ↔
      ∃ a ∈ r.artifacts, a.compileKey = compileKey := by
    simp [Registry.getArtifact, List.find?_isSome]
  have hspawn : env.spawn.toBool = true ↔ env.spawn = .ok () := by
    cases env.spawn <;> simp [Except.toBool]
  unfold spawns
  rw [Bool.and_eq_true, inspectActivation_toBool_iff, hspawn, hrow]
  constructor
  · rintro ⟨⟨hrow, hreads, hcontract, hfile⟩, hchild⟩
    exact ⟨hrow, hreads, hcontract, hfile, hchild⟩
  · intro h
    exact ⟨⟨h.row, h.reads, h.contract, h.file⟩, h.child⟩

/-- A load writes to the socket exactly when it can be sent. -/
theorem load_written_iff (env : ExchangeEnv) (raiPath : PyStr) (generation : Int)
    (servingDigest : PyStr) (classCount timeout : Int) (w : NativeWorker) :
    (w.tracedLoad env raiPath generation servingDigest classCount timeout).2 ≠ [] ↔
      Loadable env raiPath generation servingDigest classCount w := by
  rw [NativeWorker.tracedLoad_written_iff]
  exact ⟨fun ⟨hclasses, halive, hfits, htaken⟩ => ⟨hclasses, halive, hfits, htaken⟩,
    fun h => ⟨h.classes, h.alive, h.fits, h.taken⟩⟩

/-- The key an explicit activation is about. -/
theorem activateKey_eq_ok_iff {cfg : Config} {maintenance busy : Bool} {refEnv : RefEnv}
    {arg key : PyStr} {r : Registry} :
    activateKey cfg maintenance busy refEnv arg r = .ok key ↔
      (maintenance = true ∨ busy = false) ∧
        ∃ parsed, parseRef refEnv cfg.modelDir arg = .ok parsed ∧
          r.preparedKey parsed.ref = some key := by
  unfold activateKey
  cases parseRef refEnv cfg.modelDir arg with
  | error e => cases maintenance <;> cases busy <;> simp
  | ok parsed =>
      cases hkey : r.preparedKey parsed.ref <;> cases maintenance <;> cases busy <;>
        simp [hkey]

/-- A probe gets a child exactly when nobody else has the lease and the spawn
succeeds. -/
theorem probe_spawns_iff (s : System) (lease : Bool) (spawn : Except Raised Unit) :
    (lease && !s.frontendHoldsLease && spawn.toBool) = true ↔
      lease = true ∧ spawn = .ok () ∧
        ∀ m t, s.frontend.phase ≠ .checking m t ∧ s.frontend.phase ≠ .activating m t := by
  have hspawn : spawn.toBool = true ↔ spawn = .ok () := by
    cases spawn <;> simp [Except.toBool]
  have hlease : s.frontendHoldsLease = false ↔
      ∀ m t, s.frontend.phase ≠ .checking m t ∧ s.frontend.phase ≠ .activating m t := by
    unfold frontendHoldsLease
    cases s.frontend.phase <;> simp
  rw [Bool.and_eq_true, Bool.and_eq_true, Bool.not_eq_true', hspawn, hlease]
  tauto

/-- The device is not driven under a record. -/
def gated : Event → Prop
  | .spawned inhibited => inhibited = false
  | .loadSent inhibited => inhibited = false
  | _ => True

theorem gated_replies (resident : Option PyStr) (r : Frontend × List Sent) :
    ∀ e ∈ replies resident r, gated e := by
  intro e he
  obtain ⟨x, -, rfl⟩ := List.mem_map.mp he
  trivial

theorem gated_loadEvents_iff (written : Bytes) (s : System) :
    (∀ e ∈ s.loadEvents written, gated e) ↔ (written ≠ [] → s.inhibited = false) := by
  cases written <;> simp [loadEvents, gated]

theorem gated_spawned (b : Bool) : (∀ e ∈ [Event.spawned b], gated e) ↔ b = false := by
  simp [gated]

/-- The two halves of an activation are gated like what they do. -/
theorem startActivation_gated_iff (cfg : Config) (caller : Caller) (key : PyStr)
    (env : StartEnv) (s : System) :
    (∀ e ∈ (s.startActivation cfg caller key env).2, gated e) ↔
      (Activatable env key s.sup.registry → s.inhibited = false) := by
  rw [← spawns_iff cfg]
  rcases s.startActivation_spec cfg caller key env with
    ⟨hspawn, -, p, -, -, hs⟩ | ⟨hspawn, result, -, hs⟩
  · rw [hs, hspawn]
    simp [gated]
  · rw [hs, hspawn]
    simp

theorem finishActivation_gated_iff (env : FinishEnv) (p : Pending) (s : System) :
    (∀ e ∈ (s.finishActivation env p).2, gated e) ↔
      (Loadable env.load p.spec.raiPath p.generation p.spec.servingDigest
        p.spec.classCount p.child.native → s.inhibited = false) := by
  rw [← load_written_iff env.load p.spec.raiPath p.generation p.spec.servingDigest
    p.spec.classCount loadTimeout p.child.native, ← gated_loadEvents_iff]
  unfold finishActivation
  dsimp only
  split
  · refine ⟨fun hall e he => hall e (List.mem_append_left _ he), fun hall e he => ?_⟩
    rcases List.mem_append.mp he with hload | hswitch
    · exact hall e hload
    · obtain rfl := List.mem_singleton.mp hswitch
      trivial
  · rw [List.append_nil]

/-- One step is gated exactly when it does not drive the device under a record. -/
theorem step_gated_iff {cfg : Config} {s s' : System} {l : Label} {es : List Event}
    (h : step cfg s l = some (s', es)) :
    (∀ e ∈ es, gated e) ↔ (Drives cfg s l → s.inhibited = false) := by
  have hreplies : ∀ r : Frontend × List Sent, es = replies s.sup.resident r →
      (Drives cfg s l → False) →
      ((∀ e ∈ es, gated e) ↔ (Drives cfg s l → s.inhibited = false)) := by
    rintro r rfl hnot
    exact iff_of_true (gated_replies _ r) fun h => absurd h hnot
  cases l with
  | receive limit now parts =>
      simp only [step] at h
      split at h
      · obtain ⟨-, rfl⟩ := Prod.mk.inj (Option.some.inj h)
        exact hreplies _ rfl id
      · contradiction
  | take env after =>
      simp only [step] at h
      split at h
      · contradiction
      · obtain ⟨-, rfl⟩ := Prod.mk.inj (Option.some.inj h)
        exact hreplies _ rfl id
  | usable files =>
      obtain ⟨r, -, hr⟩ := Option.map_eq_some_iff.mp h
      obtain ⟨-, rfl⟩ := Prod.mk.inj hr
      exact hreplies _ rfl id
  | start env =>
      simp only [step] at h
      split at h
      · rename_i m t hphase hpending hactivated
        have hes := congrArg Prod.snd (Option.some.inj h)
        dsimp only at hes
        rw [← hes, startActivation_gated_iff]
        refine ⟨?_, fun hall hspawn => hall ⟨m, t, hphase, hspawn⟩⟩
        rintro hone ⟨m', t', hphase', hspawn⟩
        rw [hphase] at hphase'
        cases hphase'
        exact hone hspawn
      · contradiction
  | admin maintenance busy refEnv arg env =>
      simp only [step] at h
      split at h
      · contradiction
      · cases hkey : activateKey cfg maintenance busy refEnv arg s.sup.registry with
        | error e =>
            rw [hkey] at h
            dsimp only at h
            obtain ⟨-, rfl⟩ := Prod.mk.inj (Option.some.inj h)
            refine iff_of_true (by simp) ?_
            rintro ⟨key, hkey', -⟩
            rw [activateKey_eq_ok_iff.mpr hkey'] at hkey
            contradiction
        | ok key =>
            rw [hkey] at h
            have hes := congrArg Prod.snd (Option.some.inj h)
            dsimp only at hes
            rw [← hes, startActivation_gated_iff]
            refine ⟨?_, fun hall hspawn => hall ⟨key, activateKey_eq_ok_iff.mp hkey, hspawn⟩⟩
            rintro hone ⟨key', hkey', hspawn⟩
            rw [activateKey_eq_ok_iff.mpr hkey'] at hkey
            cases hkey
            exact hone hspawn
  | finish env =>
      obtain ⟨p, hp, hr⟩ := Option.map_eq_some_iff.mp h
      have hes := congrArg Prod.snd hr
      dsimp only at hes
      rw [← hes, finishActivation_gated_iff]
      refine ⟨?_, fun hall hload => hall ⟨p, hp, hload⟩⟩
      rintro hone ⟨q, hq, hload⟩
      rw [hp] at hq
      cases hq
      exact hone hload
  | resumeActivate now emitFault =>
      simp only [step] at h
      split at h
      · contradiction
      · obtain ⟨r, -, hr⟩ := Option.map_eq_some_iff.mp h
        obtain ⟨-, rfl⟩ := Prod.mk.inj hr
        exact hreplies _ rfl id
  | infer env =>
      simp only [step] at h
      split at h
      · obtain ⟨-, rfl⟩ := Prod.mk.inj (Option.some.inj h)
        refine iff_of_true ?_ fun hd => absurd hd id
        split <;> simp [gated]
      · contradiction
  | resumeInfer now =>
      simp only [step] at h
      split at h
      · contradiction
      · obtain ⟨r, -, hr⟩ := Option.map_eq_some_iff.mp h
        obtain ⟨-, rfl⟩ := Prod.mk.inj hr
        exact hreplies _ rfl id
  | recover refEnv fault now after arg =>
      obtain ⟨-, rfl⟩ := Prod.mk.inj (Option.some.inj h)
      exact iff_of_true (by simp) fun hd => absurd hd id
  | probeStart lease spawn =>
      simp only [step] at h
      split at h
      · contradiction
      · split at h
        · rename_i hprobe
          obtain ⟨-, rfl⟩ := Prod.mk.inj (Option.some.inj h)
          rw [gated_spawned]
          exact ⟨fun hone _ => hone, fun hall => hall ((probe_spawns_iff s _ _).mp hprobe)⟩
        · rename_i hprobe
          obtain ⟨-, rfl⟩ := Prod.mk.inj (Option.some.inj h)
          exact iff_of_true (by simp)
            fun hd => absurd ((probe_spawns_iff s _ _).mpr hd) hprobe
  | probeLoad env raiPath classCount timeout =>
      simp only [step] at h
      split at h
      · rename_i child hprobe
        obtain ⟨-, rfl⟩ := Prod.mk.inj (Option.some.inj h)
        rw [gated_loadEvents_iff, load_written_iff]
        refine ⟨?_, fun hall hload => hall ⟨child, hprobe, hload⟩⟩
        rintro hone ⟨child', hprobe', hload⟩
        rw [hprobe] at hprobe'
        cases hprobe'
        exact hone hload
      · contradiction
  | probeEnd =>
      obtain ⟨r, -, hr⟩ := Option.map_eq_some_iff.mp h
      obtain ⟨-, rfl⟩ := Prod.mk.inj hr
      exact iff_of_true (by simp) fun hd => absurd hd id
  | registry after =>
      obtain ⟨-, rfl⟩ := Prod.mk.inj (Option.some.inj h)
      exact iff_of_true (by simp) fun hd => absurd hd id
  | restart after =>
      obtain ⟨-, rfl⟩ := Prod.mk.inj (Option.some.inj h)
      exact iff_of_true (by simp) fun hd => absurd hd id

/-- **When the inhibition gates the device.**  A run spawns no child and puts no byte
of a LOAD on a child's socket under a record exactly when, while a record exists, no
device user is asked with requests, registry rows and outcomes that get it to a
child. -/
theorem device_gated_iff {cfg : Config} {s t : System} {as : List Label}
    {es : List Event} (hrun : (machine cfg).exec as s = some (t, es)) :
    (∀ e ∈ es, gated e) ↔
      (machine cfg).Along (fun s l => Drives cfg s l → s.inhibited = false) as s :=
  (machine cfg).exec_events_iff_along (I := fun _ => True) (fun _ _ _ _ _ _ => trivial)
    (fun _ _ _ _ _ hstep => step_gated_iff hstep) trivial hrun

/-- A registry with a record. -/
def inhibitedModels (reason : PyStr) : Registry :=
  twoModels.setInhibition ⟨reason, some (py "plus://a"), 0, []⟩

theorem resting_inhibited (reason : PyStr) :
    (fresh (inhibitedModels reason)).Resting twoModels :=
  ⟨rfl, rfl, rfl, rfl, rfl, rfl, rfl, (inhibitedModels reason).state, rfl⟩

theorem secondActivation_known : (twoModels.getArtifact (py "b")).isSome := by
  decide

theorem secondActivation_sends : (sendMessage (NativeWorker.loadHeader 1
    (artifactPath uploadConfig (py "b")) 1 (py "srv") 80) []).toBool = true := by
  decide +kernel

/-- A clean activation of the second model in a fresh process. -/
def secondActivation : CleanActivation uploadConfig twoModels (py "b") 1 :=
  cleanActivation (py "b") 1 secondActivation_known secondActivation_sends

/-- An explicit activation drives the device although a record exists. -/
theorem inhibited_spawn :
    ∃ as t es, (machine uploadConfig).exec as
        (fresh (inhibitedModels (py "WORKER_DEVICE_FAULT"))) = some (t, es) ∧
      .spawned true ∈ es ∧ .loadSent true ∈ es := by
  obtain ⟨t, hrun, -⟩ := admin_run (resting_inhibited (py "WORKER_DEVICE_FAULT"))
    secondActivation (activateKey_second (inhibitedModels (py "WORKER_DEVICE_FAULT")).state)
    (G := fun _ _ => True) trivial trivial
  exact ⟨_, t, _, hrun.exec, List.mem_cons_self,
    List.mem_cons_of_mem _ List.mem_cons_self⟩

/-- Without a record, the same activation is gated. -/
theorem uninhibited_spawn :
    ∃ as t es, (machine uploadConfig).exec as (fresh twoModels) = some (t, es) ∧
      .spawned false ∈ es ∧ .loadSent false ∈ es ∧ ∀ e ∈ es, gated e := by
  obtain ⟨t, hrun, -⟩ := admin_run (resting_fresh twoModels) secondActivation
    (activateKey_second twoModels.state)
    (G := fun s l => Drives uploadConfig s l → s.inhibited = false) (fun _ => rfl)
    fun _ => rfl
  exact ⟨_, t, _, hrun.exec, List.mem_cons_self,
    List.mem_cons_of_mem _ List.mem_cons_self,
    (device_gated_iff hrun.exec).mpr hrun.along⟩

/-! ## Safety-class records -/

/-- Whatever the step records is safety-class. -/
def RecordsSafety (cfg : Config) (s : System) (l : Label) : Prop :=
  ∀ inh, newInhibition cfg s l = some inh → isSafetyInhibition inh.reason = true

/-- One step keeps a safety-class record exactly when whatever it records is
safety-class. -/
theorem step_safety_iff {cfg : Config} {s s' : System} {l : Label} {es : List Event}
    (hs : safetyInhibited s.sup.registry = true) (h : step cfg s l = some (s', es)) :
    safetyInhibited s'.sup.registry = true ↔ RecordsSafety cfg s l := by
  rcases step_inhibition h with hslot | ⟨-, -, hnot⟩
  · unfold RecordsSafety
    cases hnew : newInhibition cfg s l with
    | none =>
        rw [hnew, Option.none_or] at hslot
        refine iff_of_true ?_ (by simp)
        unfold safetyInhibited at hs ⊢
        rwa [hslot]
    | some inh =>
        rw [hnew, Option.some_or] at hslot
        unfold safetyInhibited
        rw [hslot]
        simp
  · rw [hnot] at hs
    contradiction

/-- **Safety-class records are sticky** for a whole run exactly when every record
written during the run is safety-class. -/
theorem safety_sticky_iff {cfg : Config} {s t : System} {as : List Label}
    {es : List Event} (hs : safetyInhibited s.sup.registry = true)
    (hrun : (machine cfg).exec as s = some (t, es)) :
    (machine cfg).Throughout (fun s => safetyInhibited s.sup.registry = true) as s ↔
      (machine cfg).Along (RecordsSafety cfg) as s :=
  Machine.throughout_iff_along (fun _ _ _ _ hs hstep => step_safety_iff hs hstep) hs hrun

/-- An explicit activation whose spawn fails. -/
def failedSpawn : Label :=
  .admin true false plainFiles (py "plus://b")
    { secondActivation.start with
      spawn := .error (.worker ⟨.str (py "WORKER_SPAWN"), .str []⟩) }

/-- A device fault, then a failed spawn, which replaces the record, then a recovery,
which clears it. -/
theorem safety_record_lost :
    ∃ as t es, safetyInhibited
        (fresh (inhibitedModels (py "WORKER_DEVICE_FAULT"))).sup.registry = true ∧
      (machine uploadConfig).exec as
        (fresh (inhibitedModels (py "WORKER_DEVICE_FAULT"))) = some (t, es) ∧
      t.sup.registry.state.inhibition = none := by
  have hends : (machine uploadConfig).endsIn
      [failedSpawn, .recover plainFiles none 0 twoModels (py "plus://b")]
      (fresh (inhibitedModels (py "WORKER_DEVICE_FAULT")))
      (fun t => t.sup.registry.state.inhibition.isNone) = true := by
    decide +kernel
  obtain ⟨t, es, hrun, hnone⟩ := (machine uploadConfig).exists_exec_of_endsIn hends
  exact ⟨_, t, es, by decide +kernel, hrun, Option.isNone_iff_eq_none.mp hnone⟩

/-- A recovery alone does not touch the record of a device fault. -/
theorem recover_keeps_fault :
    ∃ as t es, (machine uploadConfig).exec as
        (fresh (inhibitedModels (py "WORKER_DEVICE_FAULT"))) = some (t, es) ∧
      as ≠ [] ∧
      (machine uploadConfig).Throughout (fun s => safetyInhibited s.sup.registry = true) as
        (fresh (inhibitedModels (py "WORKER_DEVICE_FAULT"))) := by
  have hrun : (machine uploadConfig).Run (RecordsSafety uploadConfig)
      (fresh (inhibitedModels (py "WORKER_DEVICE_FAULT"))) _ _ _ :=
    .cons (fun inh h => by simp [newInhibition] at h)
      (show (machine uploadConfig).step _
        (.recover plainFiles none 0 twoModels (py "plus://a")) = some (_, _) from rfl)
      (.nil _)
  exact ⟨_, _, _, hrun.exec, by simp,
    (safety_sticky_iff (by decide +kernel) hrun.exec).mpr hrun.along⟩

/-! ## Recovery -/

/-- A stored record can be named to {lit}`recover_ref`. -/
def Nameable (env : RefEnv) (modelDir : Option PyStr) (inh : Inhibition) : Prop :=
  ∃ p, parseRef env modelDir (inh.ref.getD []) = .ok p ∧ inh.ref = some p.ref

/-- Whatever the step records is safety-class or can be named. -/
def RecordsNameable (env : RefEnv) (cfg : Config) (s : System) (l : Label) : Prop :=
  ∀ inh, newInhibition cfg s l = some inh → isSafetyInhibition inh.reason = false →
    Nameable env cfg.modelDir inh

/-- A record, if there is one, is safety-class or can be named. -/
def NameableRecord (env : RefEnv) (cfg : Config) (s : System) : Prop :=
  ∀ inh, s.sup.registry.state.inhibition = some inh →
    isSafetyInhibition inh.reason = false → Nameable env cfg.modelDir inh

theorem step_nameable {env : RefEnv} {cfg : Config} {s s' : System} {l : Label}
    {es : List Event} (hs : s.NameableRecord env cfg) (hG : RecordsNameable env cfg s l)
    (h : step cfg s l = some (s', es)) : s'.NameableRecord env cfg := by
  intro inh hinh
  rcases step_inhibition h with hslot | ⟨-, hnone, -⟩
  · rw [hslot] at hinh
    cases hnew : newInhibition cfg s l with
    | none =>
        rw [hnew, Option.none_or] at hinh
        exact hs inh hinh
    | some new =>
        rw [hnew, Option.some_or] at hinh
        exact hG inh (hnew.trans hinh)
  · rw [hnone] at hinh
    contradiction

/-- **Operator recovery.**  In every run whose records that are not safety-class all
carry refs that {lit}`parse_ref` accepts unchanged, every such record can be cleared by
some argument; and in every state at all, such a record can be cleared by some
argument exactly when its stored ref is accepted unchanged. -/
theorem recoverable {env : RefEnv} {cfg : Config} {s t : System} {as : List Label}
    {es : List Event} (hrun : (machine cfg).exec as s = some (t, es)) {requeue : Requeue}
    (hk : requeue.KeepsState) (now : Int) {inh : Inhibition}
    (hinh : t.sup.registry.state.inhibition = some inh)
    (hsafe : isSafetyInhibition inh.reason = false) :
    (s.NameableRecord env cfg → (machine cfg).Along (RecordsNameable env cfg) as s →
      ∃ arg, (recoverRef env cfg.modelDir none now requeue arg
        t.sup.registry).2.state.inhibition = none) ∧
    ((∃ arg, (recoverRef env cfg.modelDir none now requeue arg
        t.sup.registry).2.state.inhibition = none) ↔ Nameable env cfg.modelDir inh) := by
  have hexact := exists_recoverRef_iff hk env cfg.modelDir now hinh hsafe
  refine ⟨fun hs hG => hexact.mpr ?_, hexact⟩
  have hkept := (machine cfg).exec_events_of_along
    (I := fun s => s.NameableRecord env cfg) (P := fun _ => True)
    (fun s a s' es hs hG hstep => ⟨step_nameable hs hG hstep, fun _ _ => trivial⟩) hs hG
    hrun
  exact hkept.1 inh hinh hsafe

/-- A registry with one model that was uploaded over ZMQ. -/
def uploadedModel : Registry where
  jobs := [preparedRow (py "zmq-upload:a") (py "a")]
  artifacts := [⟨py "a", py "a", [], []⟩]

/-- The ref of an upload is no ref that {lit}`parse_ref` accepts. -/
theorem parseRef_upload (env : RefEnv) (modelDir : Option PyStr) (p : ParsedRef) :
    parseRef env modelDir (py "zmq-upload:a") ≠ .ok p := by
  have hstrip : strip (py "zmq-upload:a") = py "zmq-upload:a" := by decide +kernel
  have hempty : (py "zmq-upload:a").isEmpty = false := by decide +kernel
  have hsingle : (contains (py ",") (py "zmq-upload:a") ||
      contains (py "\n") (py "zmq-upload:a")) = false := by decide +kernel
  have hplus : startsWith (py "plus://") (py "zmq-upload:a") = false := by decide +kernel
  have hlocal : startsWith (py "local://") (py "zmq-upload:a") = false := by
    decide +kernel
  have hscheme : contains (py "://") (py "zmq-upload:a") = false := by decide +kernel
  have honnx : endsWith (py ".onnx") (lower (py "zmq-upload:a")) = false := by
    decide +kernel
  have hrai : endsWith (py ".rai") (lower (py "zmq-upload:a")) = false := by
    decide +kernel
  unfold parseRef parseStripped
  simp only [hstrip, hempty, hsingle, hplus, hlocal, hscheme, Bool.false_eq_true, if_false,
    invalidRef]
  split
  · simp
  · rename_i hpath
    simp only [Bool.or_eq_true, bne_iff_ne, not_or, not_not] at hpath
    rw [hpath.2]
    simp only [honnx, hrai, Bool.false_eq_true, if_false]
    split <;> simp

/-- A model uploaded over ZMQ whose activation fails: no argument clears the
record. -/
theorem upload_record_stuck :
    ∃ as t es inh, (machine uploadConfig).exec as (fresh uploadedModel) = some (t, es) ∧
      t.sup.registry.state.inhibition = some inh ∧
      isSafetyInhibition inh.reason = false ∧
      ∀ (env : RefEnv) (requeue : Requeue) (_ : requeue.KeepsState) (now : Int)
        (arg : PyStr), (recoverRef env uploadConfig.modelDir none now requeue arg
          t.sup.registry).2.state.inhibition ≠ none := by
  have hends : (machine uploadConfig).endsIn
      [.receive 1000 0 (cleanTransfer [1] (py "a") 0).message.parts,
        .take (cleanTransfer [1] (py "a") 0).env uploadedModel, .usable readyArtifact,
        .start { secondActivation.start with
          spawn := .error (.worker ⟨.str (py "WORKER_SPAWN"), .str []⟩) }]
      (fresh uploadedModel)
      (fun t => t.sup.registry.state.inhibition ==
        some ⟨py "WORKER_SPAWN", some (py "zmq-upload:a"), 0, []⟩) = true := by
    decide +kernel
  obtain ⟨t, es, hrun, hslot⟩ := (machine uploadConfig).exists_exec_of_endsIn hends
  rw [beq_iff_eq] at hslot
  have hsafe : isSafetyInhibition (py "WORKER_SPAWN") = false := by decide +kernel
  refine ⟨_, t, es, _, hrun, hslot, hsafe, ?_⟩
  intro env requeue hk now arg hcleared
  obtain ⟨p, hparse, -⟩ :=
    (exists_recoverRef_iff hk env uploadConfig.modelDir now hslot hsafe).mp ⟨arg, hcleared⟩
  exact parseRef_upload env _ p hparse

/-- A failed spawn of a model with a {lit}`plus://` ref can be recovered. -/
theorem failed_spawn_recovered :
    ∃ as t es, (machine uploadConfig).exec as (fresh twoModels) = some (t, es) ∧
      t.inhibited = true ∧
      ∃ arg, (recoverRef plainFiles uploadConfig.modelDir none 0
        (fun _ _ r => (.ok (false, []), r)) arg t.sup.registry).2.state.inhibition =
          none := by
  have hends : (machine uploadConfig).endsIn [failedSpawn] (fresh twoModels)
      (fun t => t.sup.registry.state.inhibition ==
        some ⟨py "WORKER_SPAWN", some (py "plus://b"), 0, []⟩) = true := by
    decide +kernel
  obtain ⟨t, es, hrun, hslot⟩ := (machine uploadConfig).exists_exec_of_endsIn hends
  rw [beq_iff_eq] at hslot
  have hnew : newInhibition uploadConfig (fresh twoModels) failedSpawn =
      some ⟨py "WORKER_SPAWN", some (py "plus://b"), 0, []⟩ := by
    decide +kernel
  have hnameable : Nameable plainFiles uploadConfig.modelDir
      ⟨py "WORKER_SPAWN", some (py "plus://b"), 0, []⟩ :=
    ⟨⟨.plus, some (py "b"), none, py "plus://b"⟩, by decide +kernel, rfl⟩
  have hG : (machine uploadConfig).Along (RecordsNameable plainFiles uploadConfig)
      [failedSpawn] (fresh twoModels) := by
    refine ⟨fun inh h _ => ?_, fun _ _ _ => trivial⟩
    rw [hnew] at h
    exact Option.some.inj h ▸ hnameable
  refine ⟨_, t, es, hrun, by simp [inhibited, hslot], ?_⟩
  exact (recoverable hrun (fun _ _ _ => rfl) 0 hslot (by decide +kernel)).1
    (fun inh h => by simp [fresh, twoModels] at h) hG

end System
end FrigateXdna
