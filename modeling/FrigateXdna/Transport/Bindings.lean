import FrigateXdna.Transport.Frontend

/-!
# How a handler ends, and the binding invariant

The worker loop runs a message to a reply, to its first wait or out of the loop.
The cases below say so once for all handlers; the invariant of the session table
follows from them.

Main results:

- Theorem {lit}`Frontend.process_spec`: how handling a message ends.
- Theorem {lit}`Frontend.handled_take`, {lit}`Frontend.handled_receive`,
  {lit}`Frontend.handled_usableDone`, {lit}`Frontend.handled_inferDone`: these
  steps keep the generation and the active artifact, and only tell a client that
  its model is loaded when the client is bound in the current generation.
- Theorem {lit}`Frontend.activateDone_spec`: everything the resumption after an
  activation can do.
-/

namespace FrigateXdna
namespace Transport
namespace Frontend

open Python FrigateXdna.Runtime

/-! ## The exception that leaves a handler -/

/-- Whether an identity is bound in the current generation. -/
def Bound (f : Frontend) (identity : Bytes) : Prop :=
  ∃ b, f.sessions.get identity = some b ∧ b.generation = f.generation

/-- What an expired header raises. -/
def expiredFault (header : Json) : Option PyExc :=
  match header.hasKey (py "shape") with
  | .error e => some e
  | .ok true => none
  | .ok false =>
      match header.get (py "model_request") with
      | .error e => some e
      | .ok _ => none

/-- What a transfer raises before its first wait. -/
def transferFault (cfg : Config) (f : Frontend) (m : Message) (env : TakeEnv) :
    Option Raised :=
  match checkTransfer cfg.allowUploads m.data.length, env.inspection with
  | .ok (), .ok (some _, _) =>
      match env.ingest with
      | .error (.fxdna _) => none
      | .error e => some e
      | .ok result =>
          if result.cacheHit && result.state == py "PREPARED" &&
              f.activeArtifact == some result.compileKey then
            env.emitFault.map Raised.builtin
          else none
  | _, _ => none

/-- What handling a message raises before its first wait. -/
def handlerFault (cfg : Config) (env : TakeEnv) (m : Message) (f : Frontend) :
    Option Raised :=
  if env.now ≥ m.deadline then (expiredFault m.header).map Raised.builtin
  else
    match m.header.get (py "model_request"), m.header.get (py "model_data") with
    | .error e, _ => some (.builtin e)
    | .ok request, .ok data =>
        if !request.truthy && data.truthy then transferFault cfg f m env else none
    | .ok _, .error _ => none

/-! ## How a handler ends -/

/-- A handler that does not leave the loop. -/
inductive Ends (f : Frontend) (m : Message) : Frontend × List Sent → Prop
  | refused (counters : Counters) (r : Reply) (h : r.claimsLoaded = false) :
      Ends f m ({ f with counters }.reply m r)
  | available (now : Int) (h : f.Bound m.identity) :
      Ends f m ({ f with sessions := f.sessions.touch m.identity now }.reply m
        (availableReply true))
  | bound (t : Transfer) (now : Int) (h : f.activeArtifact = some t.compileKey) :
      Ends f m ((f.bindTransfer m t now).reply m savedReply)
  | checking (t : Transfer) (h : f.activeArtifact ≠ some t.compileKey) :
      Ends f m ({ f with phase := .checking m t }, [])
  | forwarding (counters : Counters) (shape : List Json) (remain : Int)
      (h : f.Bound m.identity) :
      Ends f m ({ f with counters, phase := .forwarding m shape remain }, [])

/-- A handler that leaves the loop with an exception, before or after its reply. -/
inductive Fails (f : Frontend) (m : Message) (e : Raised) :
    Frontend × List Sent → Prop
  | before (counters : Counters) : Fails f m e ({ f with counters }.die e [])
  | after (t : Transfer) (now : Int) (h : f.activeArtifact = some t.compileKey) :
      Fails f m e ((f.bindTransfer m t now).die e [⟨m.id, m.identity, savedReply⟩])

/-- A handler's end, given the exception it raises. -/
def EndsWith (f : Frontend) (m : Message) (r : Frontend × List Sent) :
    Option Raised → Prop
  | none => Ends f m r
  | some e => Fails f m e r

@[simp]
theorem errorReply_claimsLoaded (code : PyStr) :
    (errorReply code).claimsLoaded = false := by
  unfold Reply.claimsLoaded errorReply
  rfl

@[simp]
theorem notSavedReply_claimsLoaded (code : PyStr) :
    (notSavedReply code).claimsLoaded = false := by
  unfold Reply.claimsLoaded notSavedReply
  rfl

@[simp]
theorem preparingReply_claimsLoaded (code : PyStr) :
    (preparingReply code).claimsLoaded = false := by
  unfold Reply.claimsLoaded preparingReply
  rfl

@[simp]
theorem unavailableReply_claimsLoaded :
    (availableReply false).claimsLoaded = false := by
  decide

@[simp]
theorem expiredRequestReply_claimsLoaded :
    expiredRequestReply.claimsLoaded = false := by
  decide

theorem expired_spec (f : Frontend) (m : Message) :
    EndsWith f m (f.expired m) ((expiredFault m.header).map Raised.builtin) := by
  unfold expired expiredFault
  cases m.header.hasKey (py "shape") with
  | error e => exact .before _
  | ok found =>
      cases found with
      | true => exact .refused _ _ rfl
      | false =>
          dsimp only
          cases hrequest : m.header.get (py "model_request") with
          | error e => exact .before _
          | ok request =>
              obtain ⟨fields, hobj⟩ := Json.exists_obj_of_get hrequest
              simp only [hobj, Json.get, Option.map_none]
              split
              · exact .refused _ _ expiredRequestReply_claimsLoaded
              · split
                · exact .refused _ _ (notSavedReply_claimsLoaded _)
                · exact .refused _ _ (errorReply_claimsLoaded _)

theorem handleModelRequest_spec (f : Frontend) (m : Message) (now : Int) :
    Ends f m (f.handleModelRequest m now) := by
  unfold handleModelRequest
  split
  · rename_i binding hget
    split
    · rename_i hcurrent
      simp only [Bool.and_eq_true, beq_iff_eq] at hcurrent
      exact .available now ⟨binding, hget, hcurrent.1⟩
    · exact .refused _ _ unavailableReply_claimsLoaded
  · exact .refused _ _ unavailableReply_claimsLoaded

theorem tryActivate_spec (f : Frontend) (m : Message) (t : Transfer) (lease : Bool)
    (h : f.activeArtifact ≠ some t.compileKey) :
    Ends f m (f.tryActivate m t lease) := by
  unfold tryActivate
  split
  · exact .checking t h
  · exact .refused _ _ (preparingReply_claimsLoaded _)

theorem handlePrepared_spec (f : Frontend) (m : Message) (t : Transfer)
    (env : TakeEnv) :
    EndsWith f m (f.handlePrepared m t env)
      (if f.activeArtifact == some t.compileKey then env.emitFault.map Raised.builtin
      else none) := by
  unfold handlePrepared
  split
  · rename_i hnone
    simp only [hnone, Option.none_beq_some, Bool.false_eq_true, if_false]
    exact tryActivate_spec f m t env.lease (by simp [hnone])
  · rename_i active hactive
    by_cases hkey : t.compileKey = active
    · subst hkey
      simp only [hactive, beq_self_eq_true, if_true, bindAndReply]
      cases env.emitFault with
      | none => exact .bound t _ hactive
      | some e => exact .after t _ hactive
    · have hne : f.activeArtifact ≠ some t.compileKey := by
        rw [hactive]
        exact fun h => hkey (Option.some.inj h).symm
      simp only [hkey, if_false, beq_eq_false_iff_ne.mpr hne, Bool.false_eq_true]
      split
      · exact .refused _ _ (preparingReply_claimsLoaded _)
      · exact tryActivate_spec f m t env.lease hne

theorem handleModelData_spec (cfg : Config) (f : Frontend) (m : Message)
    (env : TakeEnv) :
    EndsWith f m (handleModelData cfg f m env) (transferFault cfg f m env) := by
  unfold handleModelData transferFault
  cases checkTransfer cfg.allowUploads m.data.length with
  | error e => exact .refused _ _ (notSavedReply_claimsLoaded _)
  | ok u =>
      cases env.inspection with
      | error e =>
          cases e <;> exact .refused _ _ (notSavedReply_claimsLoaded _)
      | ok inspected =>
          obtain ⟨profile, text⟩ := inspected
          cases profile with
          | none => exact .refused _ _ (notSavedReply_claimsLoaded _)
          | some profile =>
              dsimp only
              cases env.ingest with
              | error e =>
                  cases e with
                  | fxdna e => exact .refused _ _ (notSavedReply_claimsLoaded _)
                  | worker e => exact .before _
                  | builtin e => exact .before _
              | ok result =>
                  dsimp only
                  by_cases hready :
                      (result.cacheHit && result.state == py "PREPARED") = true
                  · simp only [hready, if_true, Bool.true_and]
                    exact handlePrepared_spec f m _ env
                  · have hready' := Bool.eq_false_iff.mpr hready
                    simp only [hready', Bool.false_and, Bool.false_eq_true, if_false]
                    exact .refused _ _ (preparingReply_claimsLoaded _)

theorem handleInfer_spec (f : Frontend) (m : Message) (env : TakeEnv) :
    Ends f m (f.handleInfer m env) := by
  unfold handleInfer
  dsimp only
  split
  · exact .refused _ _ rfl
  · rename_i binding hget
    split
    · exact .refused _ _ rfl
    · rename_i hcurrent
      split
      · exact .refused _ _ rfl
      · split
        · exact .refused _ _ rfl
        · rename_i shape _
          exact .forwarding _ shape _ ⟨binding, hget, by simpa using hcurrent⟩

/-- **How handling a message ends**, up to its first wait. -/
theorem process_spec (cfg : Config) (env : TakeEnv) (m : Message) (f : Frontend) :
    EndsWith f m (process cfg env m f) (handlerFault cfg env m f) := by
  unfold process handlerFault
  by_cases hlate : env.now ≥ m.deadline
  · simp only [hlate, if_true]
    exact expired_spec f m
  · simp only [hlate, if_false]
    cases hrequest : m.header.get (py "model_request") with
    | error e => exact .before _
    | ok request =>
        obtain ⟨fields, hobj⟩ := Json.exists_obj_of_get hrequest
        simp only [hobj, Json.get, Json.hasKey]
        cases hr : request.truthy with
        | true => exact handleModelRequest_spec f m env.now
        | false =>
            simp only [Bool.not_false, Bool.true_and, Bool.false_eq_true, if_false]
            split
            · exact handleModelData_spec cfg f m env
            · split
              · contradiction
              · exact handleInfer_spec f m env
              · exact .refused _ _ (errorReply_claimsLoaded _)

/-! ## The binding invariant -/

/-- The rows are of generations reached so far, and those of the current
generation name the active artifact. -/
def RowsCurrent (f : Frontend) : Prop :=
  ∀ b ∈ f.sessions.byIdentity, b.generation ≤ f.generation ∧
    (b.generation = f.generation → f.activeArtifact = some b.compileKey)

/-- The rows are current, and a forwarded request belongs to an identity bound in
the current generation. -/
structure Bindings (f : Frontend) : Prop where
  current : f.RowsCurrent
  forwarding : ∀ m shape remain, f.phase = .forwarding m shape remain →
    f.Bound m.identity

/-- A bound identity is bound to the active artifact. -/
theorem Bindings.active {f : Frontend} {identity : Bytes} (h : f.Bindings)
    (hbound : f.Bound identity) :
    ∃ b, f.sessions.get identity = some b ∧ f.activeArtifact = some b.compileKey := by
  obtain ⟨b, hget, hgen⟩ := hbound
  exact ⟨b, hget, (h.current b (SessionTable.get_mem hget)).2 hgen⟩

theorem bindings_fresh : Bindings {} where
  current b h := absurd h (List.not_mem_nil)
  forwarding m shape remain h := by simp at h

/-- Touching a bound identity keeps it bound. -/
theorem Bound.touch {f : Frontend} {who identity : Bytes} (h : f.Bound who)
    (now : Int) :
    Bound { f with sessions := f.sessions.touch identity now } who := by
  obtain ⟨b, hget, hgen⟩ := h
  obtain ⟨new, hnew, -, hg⟩ : ∃ new, (f.sessions.touch identity now).get who = some new ∧
      new.compileKey = b.compileKey ∧ new.generation = b.generation :=
    SessionTable.exists_get_touch hget
  exact ⟨new, hnew, hg.trans hgen⟩

/-- A transfer binds its identity. -/
theorem bound_bindTransfer (f : Frontend) (m : Message) (t : Transfer) (now : Int) :
    (f.bindTransfer m t now).Bound m.identity := by
  unfold Bound bindTransfer
  dsimp only
  rw [SessionTable.get_bind, if_pos rfl]
  exact ⟨_, rfl, rfl⟩

theorem RowsCurrent.touch {f : Frontend} (h : f.RowsCurrent) (identity : Bytes)
    (now : Int) :
    RowsCurrent { f with sessions := f.sessions.touch identity now } := by
  intro b hb
  obtain ⟨old, hold, hkey, hgen⟩ := SessionTable.mem_touch hb
  rw [hkey, hgen]
  exact h old hold

theorem RowsCurrent.bind {f : Frontend} {m : Message} {t : Transfer} {now : Int}
    (h : f.RowsCurrent) (hactive : f.activeArtifact = some t.compileKey) :
    (f.bindTransfer m t now).RowsCurrent := by
  intro b hb
  rcases SessionTable.mem_bind hb with rfl | hb
  · exact ⟨Int.le_refl _, fun _ => hactive⟩
  · exact h b hb

/-! ## Steps that keep the generation -/

/-- What every step of the frontend but the resumption after an activation does. -/
structure Handled (f : Frontend) (r : Frontend × List Sent) : Prop where
  generation : r.1.generation = f.generation
  active : r.1.activeArtifact = f.activeArtifact
  superseded : r.1.sessions.superseded = f.sessions.superseded
  activating : ∀ m t, f.phase = .activating m t → r.1.phase = f.phase
  bindings : f.Bindings → r.1.Bindings
  loaded : f.Bindings → ∀ x ∈ r.2, x.reply.claimsLoaded = true →
    (∀ m t, f.phase ≠ .activating m t) ∧ r.1.Bound x.identity

theorem handled_ends {f : Frontend} {m : Message} {r : Frontend × List Sent}
    (hphase : ∀ m t, f.phase ≠ .activating m t) (h : Ends f m r) : Handled f r := by
  cases h with
  | refused counters reply hreply =>
      refine ⟨rfl, rfl, rfl, fun m t h => absurd h (hphase m t), ?_, ?_⟩
      · exact fun hb => ⟨hb.current, fun _ _ _ h => by simp [Frontend.reply] at h⟩
      · intro _ x hx hclaims
        obtain rfl := List.mem_singleton.mp hx
        simp [hreply] at hclaims
  | available now hbound =>
      refine ⟨rfl, rfl, rfl, fun m t h => absurd h (hphase m t), ?_, ?_⟩
      · exact fun hb => ⟨hb.current.touch _ _, fun _ _ _ h => by simp [Frontend.reply] at h⟩
      · intro _ x hx _
        obtain rfl := List.mem_singleton.mp hx
        exact ⟨hphase, hbound.touch now⟩
  | bound t now hactive =>
      refine ⟨rfl, rfl, rfl, fun m t h => absurd h (hphase m t), ?_, ?_⟩
      · exact fun hb =>
          ⟨hb.current.bind hactive, fun _ _ _ h => by simp [Frontend.reply] at h⟩
      · intro _ x hx _
        obtain rfl := List.mem_singleton.mp hx
        exact ⟨hphase, bound_bindTransfer f m t now⟩
  | checking t hactive =>
      refine ⟨rfl, rfl, rfl, fun m t h => absurd h (hphase m t), ?_, ?_⟩
      · exact fun hb => ⟨hb.current, fun _ _ _ h => by simp at h⟩
      · exact fun _ x hx => absurd hx (List.not_mem_nil)
  | forwarding counters shape remain hbound =>
      refine ⟨rfl, rfl, rfl, fun m t h => absurd h (hphase m t), ?_, ?_⟩
      · refine fun hb => ⟨hb.current, fun _ _ _ h => ?_⟩
        cases h
        exact hbound
      · exact fun _ x hx => absurd hx (List.not_mem_nil)

theorem handled_fails {f : Frontend} {m : Message} {e : Raised}
    {r : Frontend × List Sent} (hphase : ∀ m t, f.phase ≠ .activating m t)
    (h : Fails f m e r) : Handled f r := by
  cases h with
  | before counters =>
      refine ⟨rfl, rfl, rfl, fun m t h => absurd h (hphase m t), ?_, ?_⟩
      · exact fun hb => ⟨hb.current, fun _ _ _ h => by simp [die] at h⟩
      · exact fun _ x hx => absurd hx (List.not_mem_nil)
  | after t now hactive =>
      refine ⟨rfl, rfl, rfl, fun m t h => absurd h (hphase m t), ?_, ?_⟩
      · exact fun hb =>
          ⟨hb.current.bind hactive, fun _ _ _ h => by simp [die] at h⟩
      · intro _ x hx _
        obtain rfl := List.mem_singleton.mp hx
        exact ⟨hphase, bound_bindTransfer f m t now⟩

/-- Taking a message keeps the generation. -/
theorem handled_take {cfg : Config} {env : TakeEnv} {f : Frontend}
    {r : Frontend × List Sent} (h : f.take cfg env = some r) : Handled f r := by
  unfold take at h
  split at h
  · rename_i m rest hidle hqueue
    obtain rfl := Option.some.inj h
    have hphase : ∀ m t, f.phase ≠ .activating m t := by simp [hidle]
    have hends := process_spec cfg env m { f with queue := rest }
    have hhandled : Handled { f with queue := rest }
        (process cfg env m { f with queue := rest }) := by
      cases hfault : handlerFault cfg env m { f with queue := rest } with
      | none =>
          rw [hfault] at hends
          exact handled_ends hphase hends
      | some e =>
          rw [hfault] at hends
          exact handled_fails hphase hends
    exact ⟨hhandled.generation, hhandled.active, hhandled.superseded,
      hhandled.activating,
      fun hb => hhandled.bindings ⟨hb.current, hb.forwarding⟩,
      fun hb => hhandled.loaded ⟨hb.current, hb.forwarding⟩⟩
  · contradiction

/-- What the serve loop does to a message touches neither the sessions nor the
phase, and its replies refuse. -/
theorem receive_spec (limit : Nat) (now : Int) (parts : List Bytes) (f : Frontend) :
    (f.receive limit now parts).1.sessions = f.sessions ∧
      (f.receive limit now parts).1.phase = f.phase ∧
      (f.receive limit now parts).1.generation = f.generation ∧
      (f.receive limit now parts).1.activeArtifact = f.activeArtifact ∧
      ∀ x ∈ (f.receive limit now parts).2, x.reply.claimsLoaded = false := by
  unfold receive
  split
  · exact ⟨rfl, rfl, rfl, rfl, by simp⟩
  · exact ⟨rfl, rfl, rfl, rfl, by simp⟩
  · dsimp only
    split
    · exact ⟨rfl, rfl, rfl, rfl, by simp [refuse]⟩
    · split
      · exact ⟨rfl, rfl, rfl, rfl, by simp [refuse]⟩
      · exact ⟨rfl, rfl, rfl, rfl, by simp⟩
      · split
        · exact ⟨rfl, rfl, rfl, rfl, by simp [refuse]⟩
        · exact ⟨rfl, rfl, rfl, rfl, by simp⟩

/-- Receiving a message keeps the generation. -/
theorem handled_receive (limit : Nat) (now : Int) (parts : List Bytes) (f : Frontend) :
    Handled f (f.receive limit now parts) := by
  obtain ⟨hsessions, hphase, hgen, hactive, hreplies⟩ := receive_spec limit now parts f
  refine ⟨hgen, hactive, by rw [hsessions], fun _ _ _ => hphase, ?_, ?_⟩
  · intro hb
    refine ⟨by rw [RowsCurrent, hsessions, hgen, hactive]; exact hb.current, ?_⟩
    intro m shape remain h
    rw [hphase] at h
    obtain ⟨b, hget, hcurrent⟩ := hb.forwarding m shape remain h
    exact ⟨b, by rw [hsessions]; exact hget, by rw [hgen]; exact hcurrent⟩
  · intro _ x hx hclaims
    rw [hreplies x hx] at hclaims
    contradiction

/-- The resumption after the artifact pre-check keeps the generation. -/
theorem handled_usableDone {outcome : Except PyExc Bool} {f : Frontend}
    {r : Frontend × List Sent} (h : f.usableDone outcome = some r) : Handled f r := by
  unfold usableDone at h
  split at h
  · rename_i m t hchecking
    have hphase : ∀ m t, f.phase ≠ .activating m t := by simp [hchecking]
    cases outcome with
    | error e =>
        obtain rfl := Option.some.inj h
        exact handled_fails hphase (m := m) (.before f.counters)
    | ok usable =>
        cases usable with
        | false =>
            obtain rfl := Option.some.inj h
            exact handled_ends hphase (.refused f.counters _ (preparingReply_claimsLoaded _))
        | true =>
            obtain rfl := Option.some.inj h
            refine ⟨rfl, rfl, rfl, fun m t h => absurd h (hphase m t), ?_, ?_⟩
            · exact fun hb => ⟨hb.current, fun _ _ _ h => by simp at h⟩
            · exact fun _ x hx => absurd hx (List.not_mem_nil)
  · contradiction

/-- The resumption after an inference keeps the generation. -/
theorem handled_inferDone {now : Int} {outcome : Except Raised (InferStatus × Bytes)}
    {f : Frontend} {r : Frontend × List Sent} (h : f.inferDone now outcome = some r) :
    Handled f r := by
  unfold inferDone at h
  split at h
  · rename_i m shape remain hforwarding
    have hphase : ∀ m t, f.phase ≠ .activating m t := by simp [hforwarding]
    have htouched : ∀ (counters : Counters) (data : Bytes), Handled f
        ({ f with sessions := f.sessions.touch m.identity now, counters }.reply m
          (.raw data)) := by
      intro counters data
      refine ⟨rfl, rfl, rfl, fun m t h => absurd h (hphase m t), ?_, ?_⟩
      · exact fun hb => ⟨hb.current.touch _ _, fun _ _ _ h => by simp [Frontend.reply] at h⟩
      · intro _ x hx hclaims
        obtain rfl := List.mem_singleton.mp hx
        simp [Reply.claimsLoaded] at hclaims
    split at h <;>
    · obtain rfl := Option.some.inj h
      exact htouched _ _
  · contradiction

/-! ## The resumption after an activation -/

/-- The frontend that an activation resumes with, before the transfer is bound. -/
def activated (f : Frontend) (t : Transfer) : Frontend :=
  match f.activeArtifact with
  | none => { f with activeArtifact := some t.compileKey }
  | some old =>
      { f with
        activeArtifact := some t.compileKey
        generation := f.generation + 1
        sessions := (f.sessions.invalidateGeneration f.generation).markSuperseded old }

@[simp]
theorem activated_active (f : Frontend) (t : Transfer) :
    (f.activated t).activeArtifact = some t.compileKey := by
  unfold activated
  split <;> rfl

/-- Right after a switch no binding is of the current generation. -/
theorem activated_rows {f : Frontend} (h : f.Bindings) (t : Transfer) :
    (f.activated t).RowsCurrent := by
  unfold activated RowsCurrent
  split
  · rename_i hnone
    intro b hb
    obtain ⟨hle, hcurrent⟩ := h.current b hb
    refine ⟨hle, fun hgen => ?_⟩
    rw [hcurrent hgen] at hnone
    contradiction
  · rename_i old hold
    intro b hb
    dsimp only at hb ⊢
    rw [SessionTable.markSuperseded_byIdentity] at hb
    have hle := (h.current b (SessionTable.mem_invalidate hb).1).1
    exact ⟨by omega, fun hgen => by omega⟩

/-- Binding a transfer to the active artifact and replying. -/
theorem bindAndReply_spec (f : Frontend) (m : Message) (t : Transfer) (now : Int)
    (emitFault : Option PyExc) :
    (f.bindAndReply m t now emitFault).1.activeArtifact = f.activeArtifact ∧
      (f.bindAndReply m t now emitFault).1.sessions.superseded = f.sessions.superseded ∧
      (∀ m' t', (f.bindAndReply m t now emitFault).1.phase ≠ .activating m' t') ∧
      (∀ x ∈ (f.bindAndReply m t now emitFault).2,
        (f.bindAndReply m t now emitFault).1.Bound x.identity) ∧
      (f.RowsCurrent → f.activeArtifact = some t.compileKey →
        (f.bindAndReply m t now emitFault).1.Bindings) := by
  unfold bindAndReply
  cases emitFault with
  | none =>
      refine ⟨rfl, rfl, by simp [Frontend.reply], ?_, ?_⟩
      · intro x hx
        obtain rfl := List.mem_singleton.mp hx
        exact bound_bindTransfer f m t now
      · exact fun hrows hactive =>
          ⟨hrows.bind hactive, fun _ _ _ h => by simp [Frontend.reply] at h⟩
  | some e =>
      refine ⟨rfl, rfl, by simp [die], ?_, ?_⟩
      · intro x hx
        obtain rfl := List.mem_singleton.mp hx
        exact bound_bindTransfer f m t now
      · exact fun hrows hactive =>
          ⟨hrows.bind hactive, fun _ _ _ h => by simp [die] at h⟩

/-- **Everything the resumption after an activation can do**: refuse the transfer,
or make its model the active one and bind the identity to it. -/
theorem activateDone_spec {now : Int} {emitFault : Option PyExc}
    {outcome : Except Raised Bool} {f : Frontend} {r : Frontend × List Sent}
    (h : f.activateDone now emitFault outcome = some r) :
    ∃ m t, f.phase = .activating m t ∧
      ((outcome ≠ .ok true ∧
          r = f.reply m (preparingReply (py "MODEL_NOT_PREPARED"))) ∨
        (outcome = .ok true ∧ r = (f.activated t).bindAndReply m t now emitFault)) := by
  unfold activateDone at h
  split at h
  · rename_i m t hphase
    refine ⟨m, t, hphase, ?_⟩
    split at h
    · right
      refine ⟨rfl, ?_⟩
      dsimp only at h
      unfold activated
      cases hactive : f.activeArtifact with
      | none =>
          rw [hactive] at h
          exact (Option.some.inj h).symm
      | some old =>
          rw [hactive] at h
          exact (Option.some.inj h).symm
    · rename_i hne
      exact Or.inl ⟨hne, (Option.some.inj h).symm⟩
  · contradiction

/-- The resumption after an activation keeps the binding invariant. -/
theorem activateDone_bindings {now : Int} {emitFault : Option PyExc}
    {outcome : Except Raised Bool} {f : Frontend} {r : Frontend × List Sent}
    (h : f.activateDone now emitFault outcome = some r) (hb : f.Bindings) :
    r.1.Bindings := by
  obtain ⟨m, t, -, ⟨-, rfl⟩ | ⟨-, rfl⟩⟩ := activateDone_spec h
  · exact ⟨hb.current, fun _ _ _ h => by simp [Frontend.reply] at h⟩
  · exact (bindAndReply_spec _ m t now emitFault).2.2.2.2 (activated_rows hb t)
      (activated_active f t)

/-- The replies of the resumption after an activation that report a loaded model go
to a bound identity. -/
theorem activateDone_loaded {now : Int} {emitFault : Option PyExc}
    {outcome : Except Raised Bool} {f : Frontend} {r : Frontend × List Sent}
    (h : f.activateDone now emitFault outcome = some r) :
    ∀ x ∈ r.2, x.reply.claimsLoaded = true → outcome = .ok true ∧ r.1.Bound x.identity := by
  obtain ⟨m, t, -, ⟨-, rfl⟩ | ⟨hok, rfl⟩⟩ := activateDone_spec h
  · intro x hx hclaims
    obtain rfl := List.mem_singleton.mp hx
    simp at hclaims
  · exact fun x hx _ => ⟨hok, (bindAndReply_spec _ m t now emitFault).2.2.2.1 x hx⟩

end Frontend
end Transport
end FrigateXdna
