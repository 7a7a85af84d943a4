import FrigateXdna.Library.Transition
import FrigateXdna.Transport.Bindings

/-!
# Every message is answered once

The frontend on its own, under arbitrary messages and with arbitrary outcomes of
everything its two loops call.  Every message with an identity and a header frame is
logged when it is received; it is then answered at once, or it waits in the queue or
in the handler.  The account stays exact as long as no exception leaves a loop, and
the condition below says exactly when none does.

Main results:

- Theorem {lit}`step_live_iff`: one step keeps the account and both loops exactly
  when its input can be answered.
- Theorem {lit}`worker_step`: a step of the worker loop shortens the work.
- Theorem {lit}`answered_once_iff`: the runs in which every message is answered once
  and both loops stay alive.
- Theorem {lit}`list_header_unanswered`: a header that is not an object ends the
  worker loop.
-/

namespace FrigateXdna
namespace Transport

open Python Library FrigateXdna.Runtime

/-! ## The exception that leaves the serve loop -/

/-- What the parser of a received header raises that the serve loop does not
catch. -/
def Frontend.receiveFault (limit : Nat) : List Bytes → Option PyExc
  | _ :: first :: rest =>
      let raw := (frames (first :: rest)).1
      if raw.length > maxHeaderBytes then none
      else
        match parseHeader limit raw with
        | .error .valueError => none
        | .error e => some e
        | .ok _ => none
  | _ => none

/-! ## The frontend as a machine -/

/-- What happens to the frontend: a message is received, or the worker loop goes on
to its next wait with the outcome of what it waited for. -/
inductive Input
  | receive (limit : Nat) (now : Int) (parts : List Bytes)
  | take (env : Frontend.TakeEnv)
  | usable (files : ArtifactFiles)
  | activated (now : Int) (emitFault : Option PyExc) (outcome : Except Raised Bool)
  | inferred (now : Int) (outcome : Except Raised (InferStatus × Bytes))

/-- Whether a step is one of the worker loop. -/
def Input.isWorker : Input → Bool
  | .receive _ _ _ => false
  | _ => true

/-- A message with an identity and a header frame that is about to be received, with
its number. -/
def Input.arrival (f : Frontend) : Input → Option (Nat × Bytes)
  | .receive _ _ (identity :: _ :: _) => some (f.received, identity)
  | _ => none

/-- One step of the frontend.  A loop that an exception left makes no more steps. -/
def Frontend.next (cfg : Config) (f : Frontend) : Input → Option (Frontend × List Sent)
  | .receive limit now parts =>
      if f.serving then some (f.receive limit now parts) else none
  | .take env => f.take cfg env
  | .usable files => f.usableDone (artifactUsable files)
  | .activated now emitFault outcome => f.activateDone now emitFault outcome
  | .inferred now outcome => f.inferDone now outcome

/-- The frontend with, as ghost data, the messages received and the messages
answered, each with the identity it came from or went to. -/
structure Service where
  frontend : Frontend := {}
  log : List (Nat × Bytes) := []
  answered : List (Nat × Bytes) := []

/-- One step, with its messages and replies noted. -/
def Service.step (cfg : Config) (s : Service) (i : Input) :
    Option (Service × List Sent) :=
  match s.frontend.next cfg i with
  | none => none
  | some (f, sent) =>
      some
        ({ frontend := f
           log := s.log ++ (i.arrival s.frontend).toList
           answered := s.answered ++ sent.map fun x => (x.msg, x.identity) }, sent)

/-- Runs of the frontend. -/
def service (cfg : Config) : Machine Service Input Sent where
  step := Service.step cfg

/-! ## The account -/

/-- The message the worker loop is busy with. -/
def Phase.message : Phase → Option Message
  | .idle => none
  | .checking m _ => some m
  | .activating m _ => some m
  | .forwarding m _ _ => some m
  | .dead _ => none

/-- Whether an exception left the worker loop. -/
def Phase.isDead : Phase → Bool
  | .dead _ => true
  | _ => false

/-- A message's number and identity. -/
def Message.tag (m : Message) : Nat × Bytes :=
  (m.id, m.identity)

/-- The messages received but not answered. -/
def Frontend.outstanding (f : Frontend) : List (Nat × Bytes) :=
  (f.phase.message.toList ++ f.queue).map Message.tag

/-- Both loops are alive, the messages are numbered as they come, and each of them is
answered once or still outstanding. -/
structure Live (s : Service) : Prop where
  serving : s.frontend.serving = true
  working : s.frontend.phase.isDead = false
  numbered : s.log.map Prod.fst = List.range s.frontend.received
  account : (s.answered ++ s.frontend.outstanding).Perm s.log

theorem live_fresh : Live {} where
  serving := rfl
  working := rfl
  numbered := rfl
  account := .nil

/-- The inputs that both loops survive: the parser of a header raises nothing but
{lit}`ValueError`, the handler meets none of the exceptions it does not catch, the
artifact check returns, and the console takes the handshake event. -/
def Answerable (cfg : Config) (s : Service) : Input → Prop
  | .receive limit _ parts => Frontend.receiveFault limit parts = none
  | .take env =>
      ∀ m rest, s.frontend.queue = m :: rest →
        Frontend.handlerFault cfg env m { s.frontend with queue := rest } = none
  | .usable files => (artifactUsable files).toBool = true
  | .activated _ emitFault outcome => outcome = .ok true → emitFault = none
  | .inferred _ _ => True

/-- Whether a state and an input can be answered. -/
instance (cfg : Config) (s : Service) : (i : Input) → Decidable (Answerable cfg s i)
  | .receive limit _ parts => inferInstanceAs (Decidable (_ = none))
  | .take env =>
      match h : s.frontend.queue with
      | [] => isTrue fun _ _ hqueue => by simp [h] at hqueue
      | m :: rest =>
          decidable_of_iff
            (Frontend.handlerFault cfg env m { s.frontend with queue := rest } = none)
            ⟨fun hnone m' rest' hqueue => by
              rw [h] at hqueue
              obtain ⟨rfl, rfl⟩ := List.cons.inj hqueue
              exact hnone, fun hall => hall m rest h⟩
  | .usable files => inferInstanceAs (Decidable (_ = true))
  | .activated _ emitFault outcome =>
      match outcome with
      | .ok true => decidable_of_iff (emitFault = none) ⟨fun h _ => h, fun h => h rfl⟩
      | .ok false => isTrue fun h => by simp at h
      | .error _ => isTrue fun h => by simp at h
  | .inferred _ _ => isTrue trivial

/-! ## The serve loop -/

/-- How the serve loop deals with a message that it survives. -/
inductive Receives (f : Frontend) (identity : Bytes) : Frontend × List Sent → Prop
  | refused (code : PyStr) : Receives f identity (f.refuse identity code)
  | queued (m : Message) (h : m.tag = (f.received, identity)) :
      Receives f identity
        ({ f with received := f.received + 1, queue := f.queue ++ [m] }, [])

/-- **The serve loop** answers or queues a message, unless the header's parser raises
something it does not catch. -/
theorem receive_cases (limit : Nat) (now : Int) (identity first : Bytes)
    (rest : List Bytes) (f : Frontend) :
    match Frontend.receiveFault limit (identity :: first :: rest) with
    | none => Receives f identity (f.receive limit now (identity :: first :: rest))
    | some _ => (f.receive limit now (identity :: first :: rest)).1.serving = false := by
  unfold Frontend.receive Frontend.receiveFault
  dsimp only
  by_cases hlong : (Frontend.frames (first :: rest)).1.length > maxHeaderBytes
  · simp only [hlong, if_true]
    exact .refused _
  · simp only [hlong, if_false]
    cases Frontend.parseHeader limit (Frontend.frames (first :: rest)).1 with
    | error e =>
        cases e with
        | valueError => exact .refused _
        | _ => rfl
    | ok header =>
        dsimp only
        split
        · exact .refused _
        · exact .queued _ rfl

/-! ## The worker loop -/

/-- How many steps the worker loop still makes for its message, at most. -/
def Phase.steps : Phase → Nat
  | .idle => 0
  | .checking _ _ => 2
  | .activating _ _ => 1
  | .forwarding _ _ _ => 1
  | .dead _ => 0

/-- How many steps the worker loop still makes, at most. -/
def Frontend.work (f : Frontend) : Nat :=
  3 * f.queue.length + f.phase.steps

/-- How the worker loop goes on with a message that it survives: it answers it, or
waits again with fewer than {lit}`n` steps to go. -/
inductive Goes (f : Frontend) (m : Message) (n : Nat) : Frontend × List Sent → Prop
  | answers (f' : Frontend) (r : Reply) (hn : 0 < n) (hphase : f'.phase = .idle)
      (hqueue : f'.queue = f.queue) (hserving : f'.serving = f.serving)
      (hreceived : f'.received = f.received) : Goes f m n (f', [⟨m.id, m.identity, r⟩])
  | waits (f' : Frontend) (hphase : f'.phase.message = some m)
      (hsteps : f'.phase.steps < n) (hqueue : f'.queue = f.queue)
      (hserving : f'.serving = f.serving) (hreceived : f'.received = f.received) :
      Goes f m n (f', [])

/-- A handler that does not leave the loop answers or waits. -/
theorem goes_ends {f : Frontend} {m : Message} {r : Frontend × List Sent}
    (h : Frontend.Ends f m r) : Goes f m 3 r := by
  cases h with
  | refused counters reply hreply => exact .answers _ _ (by decide) rfl rfl rfl rfl
  | available now hbound => exact .answers _ _ (by decide) rfl rfl rfl rfl
  | bound t now hactive => exact .answers _ _ (by decide) rfl rfl rfl rfl
  | checking t hactive => exact .waits _ rfl (by simp [Phase.steps]) rfl rfl rfl
  | forwarding counters shape remain hbound =>
      exact .waits _ rfl (by simp [Phase.steps]) rfl rfl rfl

/-- A handler that leaves the loop leaves it dead. -/
theorem dead_fails {f : Frontend} {m : Message} {e : Raised} {r : Frontend × List Sent}
    (h : Frontend.Fails f m e r) : r.1.phase.isDead = true := by
  cases h <;> rfl

/-- The next frontend is idle with the message answered, or waits, or is dead. -/
def GoesUnless (dies : Prop) (f : Frontend) (m : Message) (n : Nat)
    (r : Frontend × List Sent) : Prop :=
  (¬dies ∧ Goes f m n r) ∨ (dies ∧ r.1.phase.isDead = true)

/-- Taking a message. -/
theorem take_cases {cfg : Config} {env : Frontend.TakeEnv} {f : Frontend}
    {r : Frontend × List Sent} (h : f.take cfg env = some r) :
    ∃ m rest, f.phase = .idle ∧ f.queue = m :: rest ∧
      GoesUnless (Frontend.handlerFault cfg env m { f with queue := rest } ≠ none)
        { f with queue := rest } m 3 r := by
  unfold Frontend.take at h
  split at h
  · rename_i m rest hidle hqueue
    obtain rfl := Option.some.inj h
    refine ⟨m, rest, hidle, hqueue, ?_⟩
    have hends := Frontend.process_spec cfg env m { f with queue := rest }
    cases hfault : Frontend.handlerFault cfg env m { f with queue := rest } with
    | none =>
        rw [hfault] at hends
        exact Or.inl ⟨fun hne => hne rfl, goes_ends hends⟩
    | some e =>
        rw [hfault] at hends
        exact Or.inr ⟨by simp, dead_fails hends⟩
  · contradiction

/-- Resuming after the artifact check. -/
theorem usable_cases {outcome : Except PyExc Bool} {f : Frontend}
    {r : Frontend × List Sent} (h : f.usableDone outcome = some r) :
    ∃ m, f.phase.message = some m ∧
      GoesUnless (outcome.toBool ≠ true) f m f.phase.steps r := by
  unfold Frontend.usableDone at h
  split at h
  · rename_i m t hphase
    refine ⟨m, by rw [hphase]; rfl, ?_⟩
    cases outcome with
    | error e =>
        obtain rfl := Option.some.inj h
        exact Or.inr ⟨by simp [Except.toBool], rfl⟩
    | ok usable =>
        refine Or.inl ⟨by simp [Except.toBool], ?_⟩
        cases usable with
        | false =>
            obtain rfl := Option.some.inj h
            exact .answers _ _ (by simp [hphase, Phase.steps]) rfl rfl rfl rfl
        | true =>
            obtain rfl := Option.some.inj h
            exact .waits _ rfl (by simp [hphase, Phase.steps]) rfl rfl rfl
  · contradiction

/-- Resuming after an activation. -/
theorem activated_cases {now : Int} {emitFault : Option PyExc}
    {outcome : Except Raised Bool} {f : Frontend} {r : Frontend × List Sent}
    (h : f.activateDone now emitFault outcome = some r) :
    ∃ m, f.phase.message = some m ∧
      GoesUnless (¬(outcome = .ok true → emitFault = none)) f m f.phase.steps r := by
  obtain ⟨m, t, hphase, ⟨hout, rfl⟩ | ⟨hout, rfl⟩⟩ := Frontend.activateDone_spec h
  · exact ⟨m, by rw [hphase]; rfl,
      Or.inl ⟨not_not.mpr fun hok => absurd hok hout,
        .answers _ _ (by simp [hphase, Phase.steps]) rfl rfl rfl rfl⟩⟩
  · refine ⟨m, by rw [hphase]; rfl, ?_⟩
    have hkept : (f.activated t).queue = f.queue ∧
        (f.activated t).serving = f.serving ∧ (f.activated t).received = f.received := by
      unfold Frontend.activated
      split <;> exact ⟨rfl, rfl, rfl⟩
    cases emitFault with
    | none =>
        exact Or.inl ⟨by simp, .answers _ _ (by simp [hphase, Phase.steps]) rfl hkept.1
          hkept.2.1 hkept.2.2⟩
    | some e => exact Or.inr ⟨by simp [hout], rfl⟩

/-- Resuming after an inference. -/
theorem inferred_cases {now : Int} {outcome : Except Raised (InferStatus × Bytes)}
    {f : Frontend} {r : Frontend × List Sent} (h : f.inferDone now outcome = some r) :
    ∃ m, f.phase.message = some m ∧ Goes f m f.phase.steps r := by
  unfold Frontend.inferDone at h
  split at h
  · rename_i m shape remain hphase
    refine ⟨m, by rw [hphase]; rfl, ?_⟩
    split at h <;>
    · obtain rfl := Option.some.inj h
      exact .answers _ _ (by simp [hphase, Phase.steps]) rfl rfl rfl rfl
  · contradiction

/-- **A step of the worker loop** goes on with the first outstanding message: it
answers it or waits again, unless its input cannot be answered. -/
theorem worker_cases {cfg : Config} {s : Service} {i : Input}
    {r : Frontend × List Sent} (hi : i.isWorker = true)
    (h : s.frontend.next cfg i = some r) :
    ∃ m rest, s.frontend.phase.message.toList ++ s.frontend.queue = m :: rest ∧
      ∃ n, 3 * rest.length + n = s.frontend.work ∧
        GoesUnless (¬Answerable cfg s i) { s.frontend with queue := rest } m n r := by
  have hwaiting : ∀ m, s.frontend.phase.message = some m →
      s.frontend.phase.message.toList ++ s.frontend.queue = m :: s.frontend.queue := by
    intro m hm
    rw [hm]
    rfl
  cases i with
  | receive limit now parts => contradiction
  | take env =>
      obtain ⟨m, rest, hidle, hqueue, hgoes⟩ := take_cases h
      refine ⟨m, rest, by rw [hidle, hqueue]; rfl, 3, ?_, ?_⟩
      · simp only [Frontend.work, hqueue, hidle, Phase.steps, List.length_cons]
        omega
      · have hiff : (¬Answerable cfg s (.take env)) ↔
            Frontend.handlerFault cfg env m { s.frontend with queue := rest } ≠ none := by
          refine not_congr ⟨fun h => h m rest hqueue, fun h m' rest' hqueue' => ?_⟩
          rw [hqueue] at hqueue'
          obtain ⟨rfl, rfl⟩ := List.cons.inj hqueue'
          exact h
        simpa only [GoesUnless, hiff] using hgoes
  | usable files =>
      obtain ⟨m, hm, hgoes⟩ := usable_cases h
      exact ⟨m, _, hwaiting m hm, _, rfl, hgoes⟩
  | activated now emitFault outcome =>
      obtain ⟨m, hm, hgoes⟩ := activated_cases h
      exact ⟨m, _, hwaiting m hm, _, rfl, hgoes⟩
  | inferred now outcome =>
      obtain ⟨m, hm, hgoes⟩ := inferred_cases h
      exact ⟨m, _, hwaiting m hm, _, rfl, Or.inl ⟨not_not.mpr trivial, hgoes⟩⟩

/-! ## The account is exact -/

/-- A step in terms of the frontend's step. -/
theorem step_eq_some {cfg : Config} {s s' : Service} {i : Input} {sent : List Sent}
    (h : s.step cfg i = some (s', sent)) :
    ∃ f, s.frontend.next cfg i = some (f, sent) ∧
      s' = ⟨f, s.log ++ (i.arrival s.frontend).toList,
        s.answered ++ sent.map fun x => (x.msg, x.identity)⟩ := by
  unfold Service.step at h
  split at h
  · contradiction
  · rename_i f out hnext
    obtain ⟨rfl, rfl⟩ := Prod.mk.inj (Option.some.inj h)
    exact ⟨f, hnext, rfl⟩

/-- A message that is answered moves to the end of the answered ones. -/
theorem perm_answered {answered rest log : List (Nat × Bytes)} {x : Nat × Bytes}
    (h : (answered ++ x :: rest).Perm log) : (answered ++ [x] ++ rest).Perm log := by
  rwa [List.append_assoc, List.singleton_append]

/-- A message that the worker loop goes on with keeps the account. -/
theorem live_goes {s : Service} (hs : Live s) {m : Message} {rest : List Message}
    {n : Nat} {r : Frontend × List Sent}
    (hfirst : s.frontend.phase.message.toList ++ s.frontend.queue = m :: rest)
    (h : Goes { s.frontend with queue := rest } m n r) :
    Live ⟨r.1, s.log, s.answered ++ r.2.map fun x => (x.msg, x.identity)⟩ := by
  have haccount : (s.answered ++ m.tag :: rest.map Message.tag).Perm s.log := by
    have := hs.account
    rwa [Frontend.outstanding, hfirst, List.map_cons] at this
  cases h with
  | answers f' reply hn hphase hqueue hserving hreceived =>
      refine ⟨hserving.trans hs.serving, by simp [hphase, Phase.isDead], ?_, ?_⟩
      · rw [hs.numbered]
        exact congrArg List.range hreceived.symm
      · simp only [Frontend.outstanding, hphase, hqueue]
        exact perm_answered haccount
  | waits f' hphase hsteps hqueue hserving hreceived =>
      refine ⟨hserving.trans hs.serving, ?_, ?_, ?_⟩
      · cases hp : f'.phase with
        | dead e => simp [hp, Phase.message] at hphase
        | _ => rfl
      · rw [hs.numbered]
        exact congrArg List.range hreceived.symm
      · simpa [Frontend.outstanding, hphase, hqueue] using haccount

/-- A message that the serve loop deals with keeps the account. -/
theorem live_receives {s : Service} (hs : Live s) {identity : Bytes}
    {r : Frontend × List Sent} (h : Receives s.frontend identity r) :
    Live ⟨r.1, s.log ++ [(s.frontend.received, identity)],
      s.answered ++ r.2.map fun x => (x.msg, x.identity)⟩ := by
  have hnumbered : (s.log ++ [(s.frontend.received, identity)]).map Prod.fst =
      List.range (s.frontend.received + 1) := by
    rw [List.map_append, hs.numbered, List.range_succ]
    rfl
  cases h with
  | refused code =>
      refine ⟨hs.serving, hs.working, hnumbered, ?_⟩
      change (s.answered ++ [(s.frontend.received, identity)] ++
        s.frontend.outstanding).Perm _
      rw [List.append_assoc]
      refine (List.perm_middle.trans ?_).trans (List.perm_append_singleton _ _).symm
      exact hs.account.cons _
  | queued m htag =>
      refine ⟨hs.serving, hs.working, hnumbered, ?_⟩
      have hout : Frontend.outstanding { s.frontend with
          received := s.frontend.received + 1, queue := s.frontend.queue ++ [m] } =
          s.frontend.outstanding ++ [(s.frontend.received, identity)] := by
        simp [Frontend.outstanding, htag]
      simp only [hout, List.map_nil, List.append_nil, ← List.append_assoc]
      exact hs.account.append_right _

/-- **One step** keeps the account and both loops exactly when its input can be
answered. -/
theorem step_live_iff {cfg : Config} {s s' : Service} {i : Input} {sent : List Sent}
    (hs : Live s) (h : s.step cfg i = some (s', sent)) :
    Live s' ↔ Answerable cfg s i := by
  obtain ⟨f, hnext, rfl⟩ := step_eq_some h
  by_cases hi : i.isWorker = true
  · have harrival : i.arrival s.frontend = none := by
      cases i with
      | receive limit now parts => contradiction
      | _ => rfl
    obtain ⟨m, rest, hfirst, n, -, ⟨hok, hgoes⟩ | ⟨hbad, hdead⟩⟩ := worker_cases hi hnext
    · refine iff_of_true ?_ (not_not.mp hok)
      rw [harrival, Option.toList_none, List.append_nil]
      exact live_goes hs hfirst hgoes
    · refine iff_of_false (fun hlive => ?_) hbad
      have hworking := hlive.working
      rw [hdead] at hworking
      contradiction
  · cases i with
    | receive limit now parts =>
        simp only [Frontend.next, hs.serving, if_true, Option.some.injEq] at hnext
        match parts, hnext with
        | [], hnext =>
            obtain ⟨rfl, rfl⟩ := Prod.mk.inj hnext
            exact iff_of_true (by simpa [Input.arrival] using hs) rfl
        | [identity], hnext =>
            obtain ⟨rfl, rfl⟩ := Prod.mk.inj hnext
            exact iff_of_true (by simpa [Input.arrival] using hs) rfl
        | identity :: first :: rest, hnext =>
            have hcases := receive_cases limit now identity first rest s.frontend
            rw [hnext] at hcases
            simp only [Answerable]
            cases hfault : Frontend.receiveFault limit (identity :: first :: rest) with
            | none =>
                rw [hfault] at hcases
                exact iff_of_true (live_receives hs hcases) rfl
            | some e =>
                rw [hfault] at hcases
                refine iff_of_false (fun hlive => ?_) (by simp)
                have hserving := hlive.serving
                rw [hcases] at hserving
                contradiction
    | _ => simp [Input.isWorker] at hi

/-! ## Runs -/

/-- **A step of the worker loop shortens the work.** -/
theorem worker_step {cfg : Config} {s s' : Service} {i : Input} {sent : List Sent}
    (hi : i.isWorker = true) (hok : Answerable cfg s i)
    (h : s.step cfg i = some (s', sent)) : s'.frontend.work < s.frontend.work := by
  obtain ⟨f, hnext, rfl⟩ := step_eq_some h
  obtain ⟨m, rest, -, n, hwork, ⟨-, hgoes⟩ | ⟨hbad, -⟩⟩ := worker_cases hi hnext
  · cases hgoes with
    | answers f' reply hn hphase hqueue hserving hreceived =>
        simp only [Frontend.work, hphase, hqueue, Phase.steps] at hwork ⊢
        omega
    | waits f' hphase hsteps hqueue hserving hreceived =>
        simp only [Frontend.work, hqueue] at hwork ⊢
        omega
  · exact absurd hok hbad

/-- Steps of the worker loop come to an end. -/
theorem worker_run_length {cfg : Config} {is : List Input} {s t : Service}
    {sent : List Sent} (his : ∀ i ∈ is, i.isWorker = true)
    (hok : (service cfg).Along (Answerable cfg) is s)
    (hrun : (service cfg).exec is s = some (t, sent)) :
    is.length ≤ s.frontend.work := by
  induction is generalizing s sent with
  | nil => exact Nat.zero_le _
  | cons i is ih =>
      obtain ⟨s', first, rest, hone, hrest, -⟩ :=
        ((service cfg).exec_cons_eq_some).mp hrun
      have hstep : s'.frontend.work < s.frontend.work :=
        worker_step (his i List.mem_cons_self) hok.1 hone
      have htail : is.length ≤ s'.frontend.work :=
        ih (fun j hj => his j (List.mem_cons_of_mem _ hj)) (hok.2 s' first hone) hrest
      rw [List.length_cons]
      omega

/-- The worker loop stops only when nothing is outstanding. -/
theorem outstanding_of_stuck {cfg : Config} {s : Service} (hs : Live s)
    (hstuck : ∀ i : Input, i.isWorker = true → s.step cfg i = none) :
    s.frontend.outstanding = [] := by
  have hnext : ∀ i : Input, i.isWorker = true → s.frontend.next cfg i = none := by
    intro i hi
    have h := hstuck i hi
    unfold Service.step at h
    split at h
    · assumption
    · contradiction
  cases hphase : s.frontend.phase with
  | idle =>
      cases hqueue : s.frontend.queue with
      | nil => simp [Frontend.outstanding, hphase, hqueue, Phase.message]
      | cons m rest =>
          have h := hnext (.take ⟨0, 0, 0, [], .ok (none, []), .error (.builtin .osError),
            true, none⟩) rfl
          simp [Frontend.next, Frontend.take, hphase, hqueue] at h
  | checking m t =>
      have h := hnext (.usable readyArtifact) rfl
      simp [Frontend.next, Frontend.usableDone, hphase, artifactUsable_ready] at h
  | activating m t =>
      have h := hnext (.activated 0 none (.ok false)) rfl
      simp [Frontend.next, Frontend.activateDone, hphase] at h
  | forwarding m shape remain =>
      have h := hnext (.inferred 0 (.ok (.failed, []))) rfl
      simp [Frontend.next, Frontend.inferDone, hphase] at h
  | dead e =>
      have h := hs.working
      simp [hphase, Phase.isDead] at h

/-- **Every message is answered once.**  A run of the frontend keeps both loops alive
and every message answered once or under way exactly when all its inputs can be
answered; and from any state it reaches alive, the worker loop needs a bounded number
of such steps, after which every message received was answered once, to the identity
it came from. -/
theorem answered_once_iff {cfg : Config} {is : List Input} {t : Service}
    {sent : List Sent} (hrun : (service cfg).exec is {} = some (t, sent)) :
    ((service cfg).Throughout Live is {} ↔ (service cfg).Along (Answerable cfg) is {}) ∧
      (Live t → ∀ js u more, (∀ j ∈ js, j.isWorker = true) →
        (service cfg).exec js t = some (u, more) →
        (service cfg).Along (Answerable cfg) js t →
        js.length ≤ t.frontend.work ∧
          ((∀ j : Input, j.isWorker = true → u.step cfg j = none) →
            u.answered.Perm u.log)) := by
  have hexact : ∀ s i s' sent, Live s → (service cfg).step s i = some (s', sent) →
      (Live s' ↔ Answerable cfg s i) :=
    fun s i s' sent hs h => step_live_iff hs h
  refine ⟨Machine.throughout_iff_along hexact live_fresh hrun, ?_⟩
  intro ht js u more hjs hrest hok
  refine ⟨worker_run_length hjs hok hrest, fun hstuck => ?_⟩
  have hu : Live u :=
    ((Machine.throughout_iff_along hexact ht hrest).mpr hok).last hrest
  have haccount := hu.account
  rwa [outstanding_of_stuck hu hstuck, List.append_nil] at haccount

/-! ## A header that is not an object -/

/-- A dead worker loop makes no step. -/
theorem next_of_dead {cfg : Config} {f : Frontend} {i : Input}
    (hdead : f.phase.isDead = true) (hi : i.isWorker = true) : f.next cfg i = none := by
  cases hphase : f.phase with
  | dead e =>
      cases i with
      | receive limit now parts => contradiction
      | take env => simp [Frontend.next, Frontend.take, hphase]
      | usable files => simp [Frontend.next, Frontend.usableDone, hphase]
      | activated now emitFault outcome =>
          simp [Frontend.next, Frontend.activateDone, hphase]
      | inferred now outcome => simp [Frontend.next, Frontend.inferDone, hphase]
  | _ => simp [hphase, Phase.isDead] at hdead

/-- A configuration. -/
def plainConfig : Config :=
  ⟨py "/data", none, true⟩

/-- A handler at the start of the clock, to which everything fails. -/
def plainTake : Frontend.TakeEnv where
  now := 0
  checked := 0
  forwarded := 0
  sha256 := []
  inspection := .ok (none, [])
  ingest := .error (.builtin .osError)
  lease := true
  emitFault := none

/-- Whether a service has answered nothing and its worker loop is gone. -/
def Service.abandoned (s : Service) : Bool :=
  s.frontend.phase.isDead && s.answered.isEmpty && s.log == [(0, [1])]

/-- The header {lit}`[]` passes the parser, but the worker loop asks it for
{lit}`model_request`: the exception leaves the loop and the message is never
answered. -/
theorem list_header_unanswered :
    ∃ is t sent, (service plainConfig).exec is {} = some (t, sent) ∧
      t.log = [(0, [1])] ∧ t.answered = [] ∧ ¬Live t ∧
      ∀ js u more, (∀ j ∈ js, j.isWorker = true) →
        (service plainConfig).exec js t = some (u, more) → u.answered = [] := by
  have hends : (service plainConfig).endsIn
      [.receive 1000 0 [[1], [91, 93]], .take plainTake] {} Service.abandoned = true := by
    decide +kernel
  obtain ⟨t, sent, hrun, hp⟩ := (service plainConfig).exists_exec_of_endsIn hends
  simp only [Service.abandoned, Bool.and_eq_true, List.isEmpty_iff, beq_iff_eq] at hp
  obtain ⟨⟨hdead, hanswered⟩, hlog⟩ := hp
  refine ⟨_, t, sent, hrun, hlog, hanswered, ?_, ?_⟩
  · intro hlive
    have hworking := hlive.working
    rw [hdead] at hworking
    contradiction
  · intro js u more hjs hrest
    cases js with
    | nil =>
        obtain ⟨rfl, -⟩ := Prod.mk.inj (Option.some.inj hrest)
        exact hanswered
    | cons j js =>
        obtain ⟨s', first, rest, hone, -, -⟩ :=
          ((service plainConfig).exec_cons_eq_some).mp hrest
        obtain ⟨f, hnext, -⟩ := step_eq_some hone
        rw [next_of_dead hdead (hjs j List.mem_cons_self)] at hnext
        contradiction

/-- Messages of three identities: one whose header is not text, one that asks for a
model and one that sends it.  The first is answered by the serve loop, the others by the
worker loop, the last with the refusal of its contract. -/
def mixedMessages : List Input :=
  [.receive 1000 0 [[1], [255]],
    .receive 1000 0 [[2], (py "\x7b\"model_request\":1\x7d").map UInt8.ofNat],
    .receive 1000 0 [[3], (py "\x7b\"model_data\":1\x7d").map UInt8.ofNat, [0]],
    .take plainTake,
    .take plainTake]

/-- Each of the messages is answered once. -/
theorem mixed_messages_answered :
    ∃ t sent, (service plainConfig).exec mixedMessages {} = some (t, sent) ∧
      t.answered = [(0, [1]), (1, [2]), (2, [3])] ∧
      (service plainConfig).Throughout Live mixedMessages {} := by
  have hends : (service plainConfig).endsIn mixedMessages {}
      (fun t => t.answered == [(0, [1]), (1, [2]), (2, [3])]) = true := by
    decide +kernel
  obtain ⟨t, sent, hrun, hp⟩ := (service plainConfig).exists_exec_of_endsIn hends
  have hanswerable : (service plainConfig).Along (Answerable plainConfig) mixedMessages {} := by
    decide +kernel
  exact ⟨t, sent, hrun, eq_of_beq hp, (answered_once_iff hrun).1.mpr hanswerable⟩

end Transport
end FrigateXdna
