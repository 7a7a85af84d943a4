import FrigateXdna.System.Serving

/-!
# Automatic switches and replaced models

When the frontend's own activation replaces the active model, it marks the old one
as superseded.  Nothing reads the mark: a later transfer of a replaced model is
activated like any other.

Main results:

- Theorem {lit}`System.replaced_superseded`: every replaced model is marked.
- Theorem {lit}`System.no_switch_back`: as long as the frontend starts no
  activation of a replaced model, none becomes active again by itself.
- Theorem {lit}`System.switched_back`: a run in which a replaced model does.
-/

namespace FrigateXdna
namespace System

open Python Library FrigateXdna.Runtime FrigateXdna.Transport

/-! ## Every replaced model is marked -/

/-- Every replaced model is marked as superseded. -/
def Marked (s : System) : Prop :=
  ∀ key ∈ s.replaced, s.frontend.sessions.isSuperseded key = true

theorem marked_fresh (r : Registry) : (fresh r).Marked := by
  intro key h
  simp [fresh] at h

theorem isSuperseded_congr {t u : SessionTable} (h : t.superseded = u.superseded)
    (key : PyStr) : t.isSuperseded key = u.isSuperseded key := by
  unfold SessionTable.isSuperseded
  rw [h]

/-- Resuming on a switch marks the model it replaces. -/
theorem resumed_marked {s : System} {now : Int} {emitFault : Option PyExc}
    {outcome : Except Raised Bool} {r : Frontend × List Sent} (hs : s.Marked)
    (houtcome : s.activated = some outcome)
    (h : s.frontend.activateDone now emitFault outcome = some r) :
    ∀ key ∈ s.replacedBy, r.1.sessions.isSuperseded key = true := by
  intro key hkey
  obtain ⟨m, t, -, ⟨hne, rfl⟩ | ⟨rfl, rfl⟩⟩ := Frontend.activateDone_spec h
  · have hsame : s.replacedBy = s.replaced := by
      unfold replacedBy
      rw [houtcome]
      cases outcome with
      | error e => rfl
      | ok b =>
          cases b with
          | false => rfl
          | true => exact absurd rfl hne
    rw [hsame] at hkey
    exact hs key hkey
  · rw [isSuperseded_congr (Frontend.bindAndReply_spec _ m t now emitFault).2.1]
    unfold replacedBy at hkey
    rw [houtcome] at hkey
    unfold Frontend.activated
    cases hactive : s.frontend.activeArtifact with
    | none =>
        rw [hactive] at hkey
        exact hs key hkey
    | some old =>
        rw [hactive] at hkey
        dsimp only at hkey ⊢
        rw [SessionTable.isSuperseded_markSuperseded]
        rcases List.mem_cons.mp hkey with rfl | hkey
        · simp
        · have hold := hs key hkey
          rw [isSuperseded_congr
            (SessionTable.invalidateGeneration_superseded s.frontend.sessions
              s.frontend.generation), hold, Bool.or_true]

/-- Every step keeps replaced models marked. -/
theorem effect_marked {s s' : System} {l : Label} {es : List Event}
    (h : Effect s l s' es) (hs : s.Marked) : s'.Marked := by
  cases h with
  | handled sup inferred r hsup h =>
      intro key hkey
      rw [isSuperseded_congr h.superseded]
      exact hs key hkey
  | swapped env p sup result es hpending hswap hsup hresult hes =>
      intro key hkey
      refine hs key ?_
      dsimp only at hkey
      split at hkey
      · exact List.mem_of_mem_filter hkey
      · exact hkey
  | resumed now emitFault outcome r houtcome h => exact resumed_marked hs houtcome h
  | restarted after sup hsup =>
      intro key hkey
      simp at hkey
  | _ => exact hs

/-- **Every replaced model is marked as superseded**, in every state of every
run: the frontend could know it. -/
theorem replaced_superseded {cfg : Config} {r : Registry} {as : List Label}
    {t : System} {es : List Event}
    (hrun : (machine cfg).exec as (fresh r) = some (t, es)) : t.Marked :=
  (machine cfg).exec_invariant (fun _ _ _ _ hs hstep => effect_marked (step_effect hstep) hs)
    (marked_fresh r) hrun

/-! ## No switch back -/

/-- The frontend starts no activation of a replaced model. -/
def StartsOther (s : System) : Label → Prop
  | .start _ => ∀ m t, s.frontend.phase = .activating m t → t.compileKey ∉ s.replaced
  | _ => True

/-- The frontend's activation in flight is of a model that was not replaced. -/
structure Forward (s : System) : Prop where
  coupled : s.Coupled
  pending : ∀ p, s.pending = some p → p.caller = .frontend → p.compileKey ∉ s.replaced

theorem forward_fresh (r : Registry) : (fresh r).Forward where
  coupled := coupled_fresh r
  pending p h := by simp [fresh] at h

/-- No automatic switch makes a replaced model active again. -/
def switchedForward : Event → Prop
  | .switched .frontend _ again => again = false
  | _ => True

theorem switchedForward_of_device {e : Event} (h : deviceEvent e) :
    switchedForward e := by
  cases e <;> trivial

/-- One step that starts no activation of a replaced model. -/
theorem effect_forward {s s' : System} {l : Label} {es : List Event}
    (h : Effect s l s' es) (hs : s.Forward) (hG : StartsOther s l) :
    s'.Forward ∧ ∀ e ∈ es, switchedForward e := by
  have hcoupled := effect_coupled h hs.coupled
  cases h with
  | handled sup inferred r hsup h =>
      refine ⟨⟨hcoupled, hs.pending⟩, ?_⟩
      intro e he
      obtain ⟨x, -, rfl⟩ := List.mem_map.mp he
      trivial
  | device sup probe es hsup hes =>
      exact ⟨⟨hcoupled, hs.pending⟩, fun e he => switchedForward_of_device (hes e he)⟩
  | adminStarted sup p es hsup hcaller hes =>
      refine ⟨⟨hcoupled, ?_⟩, fun e he => switchedForward_of_device (hes e he)⟩
      intro q hq hfrontend
      obtain rfl := Option.some.inj hq
      rw [hcaller] at hfrontend
      contradiction
  | started env sup p m t es hsup hphase hactivated hkey hes =>
      refine ⟨⟨hcoupled, ?_⟩, fun e he => switchedForward_of_device (hes e he)⟩
      intro q hq _
      obtain rfl := Option.some.inj hq
      rw [hkey]
      exact hG m t hphase
  | returned env sup m t result hsup hphase hpending hactivated hresult =>
      exact ⟨⟨hcoupled, hs.pending⟩, by simp⟩
  | swapped env p sup result es hpending hswap hsup hresult hes =>
      refine ⟨⟨hcoupled, fun q hq => by simp at hq⟩, ?_⟩
      intro e he
      rcases List.mem_append.mp he with he | he
      · exact switchedForward_of_device (hes e he)
      · obtain rfl := List.mem_singleton.mp he
        cases hcaller : p.caller with
        | admin => trivial
        | frontend => simpa [switchedForward] using hs.pending p hpending hcaller
  | failed env p sup result es hpending hsup hresult hes =>
      exact ⟨⟨hcoupled, fun q hq => by simp at hq⟩,
        fun e he => switchedForward_of_device (hes e he)⟩
  | resumed now emitFault outcome r houtcome h =>
      refine ⟨⟨hcoupled, ?_⟩, ?_⟩
      · intro p hp hcaller
        rw [(hs.coupled.pending p hp hcaller).1] at houtcome
        contradiction
      · intro e he
        obtain ⟨x, -, rfl⟩ := List.mem_map.mp he
        trivial
  | served env m shape remain sup result hphase hsup hloaded =>
      refine ⟨⟨hcoupled, hs.pending⟩, ?_⟩
      intro e he
      obtain rfl := List.mem_singleton.mp he
      trivial
  | unserved env sup result hsup => exact ⟨⟨hcoupled, hs.pending⟩, by simp⟩
  | dropped env m shape remain sup result hphase hfail hsup =>
      exact ⟨⟨hcoupled, hs.pending⟩, by simp⟩
  | restarted after sup hsup => exact ⟨⟨hcoupled, fun p hp => by simp at hp⟩, by simp⟩

/-- Bindings that were not used for the quiescence period do not keep a model. -/
theorem isQuiescent_of_rows {t : SessionTable} {now : Int}
    (h : ∀ b ∈ t.byIdentity, b.lastUsedAt + quiescence ≤ now) (generation : Int) :
    t.isQuiescent generation now = true := by
  unfold SessionTable.isQuiescent
  rw [List.all_eq_true]
  intro b hb
  have := h b hb
  simp only [Bool.not_and, Bool.or_eq_true, Bool.not_eq_true', decide_eq_false_iff_not]
  right
  omega

section Transfers

variable {G : System → Label → Prop}
  (hreceive : ∀ s' limit now parts, G s' (.receive limit now parts))
  (htake : ∀ s' env after, G s' (.take env after))
  (husable : ∀ s' files, G s' (.usable files))
  (hresume : ∀ s' now fault, G s' (.resumeActivate now fault))
  (hfinish : ∀ s' env, G s' (.finish env))

include hreceive htake husable hresume hfinish

/-- Transfers of the two models: the second, which meets a quiescent table, replaces
the first. -/
theorem two_transfers (hstart : ∀ s' env, s'.replaced = [] → G s' (.start env)) :
    ∃ as t es, (machine uploadConfig).Run G (fresh twoModels) as t es ∧
      t.Resting twoModels ∧ t.sup.workerGeneration = 2 ∧
      t.frontend.activeArtifact = some (py "b") ∧
      (∀ b ∈ t.frontend.sessions.byIdentity, b.lastUsedAt ≤ 5000000000) ∧
      t.replaced = [py "a"] := by
  obtain ⟨as₁, t₁, es₁, hrun₁, ht₁, -, -⟩ := first_transfer hreceive htake husable hresume
    hstart (fun s env _ _ => hfinish s env)
  have hgeneration : t₁.sup.workerGeneration + 1 = 2 := by
    rw [ht₁.generation]
    rfl
  have hrows : ∀ b ∈ t₁.frontend.sessions.byIdentity, b.lastUsedAt = 0 := by
    intro b hb
    rcases ht₁.rows b hb with hold | hnew
    · simp [fresh] at hold
    · exact hnew
  have hreplaced : t₁.replaced = [] := ht₁.replaced
  have hsecond : ∃ t es, (machine uploadConfig).Run G t₁ _ t es ∧ _ :=
    transfer_run ht₁.resting (cleanTransfer [2] (py "b") 5000000000)
      (cleanActivation (py "b") (t₁.sup.workerGeneration + 1) (by decide)
        (by rw [hgeneration]; decide +kernel)) 5000000000 (by decide)
      (by rw [ht₁.active]; decide)
      (Or.inr (isQuiescent_of_rows (fun b hb => by rw [hrows b hb]; decide) _))
      hreceive htake husable hresume
      (fun s' _ _ _ _ h => hstart s' _ (h.trans hreplaced)) (fun s' _ _ => hfinish s' _)
  obtain ⟨t₂, es₂, hrun₂, ht₂, -, -⟩ := hsecond
  refine ⟨_, t₂, _, hrun₁.append hrun₂, ht₂.resting, ?_, ht₂.active, ?_, ?_⟩
  · rw [ht₂.generation, hgeneration]
  · intro b hb
    rcases ht₂.rows b hb with hold | hnew
    · rw [hrows b hold]
      decide
    · exact Int.le_of_eq hnew
  · rw [ht₂.replaced, ht₁.active, hreplaced]

/-- One more transfer of the first model, five seconds later. -/
theorem third_transfer {s : System} (hs : s.Resting twoModels)
    (hsend : (sendMessage (NativeWorker.loadHeader 1 (artifactPath uploadConfig (py "a"))
      (s.sup.workerGeneration + 1) (py "srv") 80) []).toBool = true)
    (hactive : s.frontend.activeArtifact = some (py "b"))
    (hrows : ∀ b ∈ s.frontend.sessions.byIdentity, b.lastUsedAt ≤ 5000000000)
    (hstart : ∀ s' env m t, s'.frontend.phase = .activating m t →
      t.compileKey = py "a" → s'.replaced = s.replaced → G s' (.start env)) :
    ∃ as t es, (machine uploadConfig).Run G s as t es ∧
      .switched .frontend (py "a") (s.replaced.contains (py "a")) ∈ es := by
  have hthird : ∃ t es, (machine uploadConfig).Run G s _ t es ∧ _ :=
    transfer_run hs (cleanTransfer [3] (py "a") 10000000000)
      (cleanActivation (py "a") (s.sup.workerGeneration + 1) (by decide) hsend)
      10000000000 (by decide) (by rw [hactive]; decide)
      (Or.inr (isQuiescent_of_rows
        (fun b hb => Int.add_le_add_right (hrows b hb) quiescence) _))
      hreceive htake husable hresume (fun s' m t => hstart s' _ m t)
      (fun s' _ _ => hfinish s' _)
  obtain ⟨t, es, hrun, -, hswitched, -⟩ := hthird
  exact ⟨_, t, es, hrun, hswitched⟩

end Transfers

end System
end FrigateXdna
