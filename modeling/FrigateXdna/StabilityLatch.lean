import FrigateXdna.StabilityRunner

/-!
# An interrupted stability run and the next one

The latch looks at the run whose id sorts last.  Ids start with the local time, so this is
the last run as long as ids grow.  While they do, a run that died in its device phase stays
the latest, without a result and with an open operation, until an operator acknowledges it,
and no later run gets past the latch.

Main results:

- Theorem {lit}`Bench.Sound.act`: what an allowed action keeps.
- Theorem {lit}`runStability_safe`: a run performs allowed actions only.
- Theorem {lit}`device_use_waits`: while ids grow, the law holds over every run.
- Theorem {lit}`interrupted_run_passed_over`: after the clock was set back it fails.
-/

namespace FrigateXdna
namespace Observability

open Python Library

/-! ## Run ids are flat names -/

theorem isIdChar_digit {c : Nat} (h : 48 ≤ c ∧ c ≤ 57) : isIdChar c = true := by
  simp [isIdChar, isAlphanumeric, h]

theorem isIdChar_natDigits (n : Nat) : ∀ c ∈ natDigits n, isIdChar c = true :=
  fun _ hc => isIdChar_digit (natDigits_bounds hc)

theorem isIdChar_twoDigits (n : Nat) : ∀ c ∈ twoDigits n, isIdChar c = true := by
  unfold twoDigits
  split
  · intro c hc
    rcases List.mem_cons.mp hc with rfl | hc
    · rfl
    · exact isIdChar_natDigits n c hc
  · exact isIdChar_natDigits n

/-- A number of at most four digits. -/
theorem natDigits_length_le {n : Nat} (h : n ≤ 9999) : (natDigits n).length ≤ 4 := by
  rw [natDigits, List.length_map, Nat.length_toDigits_le_iff (by decide) (by decide)]
  omega

theorem twoDigits_length_le {n : Nat} (h : n ≤ 9999) : (twoDigits n).length ≤ 5 := by
  have hlen := natDigits_length_le h
  unfold twoDigits
  split
  · rw [List.length_cons]
    omega
  · omega

theorem isIdChar_hex (n : Nat) : ∀ c ∈ (Nat.toDigits 16 n).map Char.toNat, isIdChar c = true := by
  have hdigit : ∀ d < 16, isIdChar d.digitChar.toNat = true := by decide
  induction n using Nat.strongRecOn with
  | _ n ih =>
      by_cases hlt : n < 16
      · rw [Nat.toDigits_of_lt_base hlt]
        intro c hc
        rw [List.mem_singleton.mp hc]
        exact hdigit n hlt
      · rw [Nat.toDigits_of_base_le (by decide) (Nat.not_lt.mp hlt), List.map_append]
        intro c hc
        rcases List.mem_append.mp hc with hc | hc
        · exact ih (n / 16) (by omega) c hc
        · rw [List.mem_singleton.mp hc]
          exact hdigit (n % 16) (Nat.mod_lt n (by decide))

theorem WallTime.text_chars (t : WallTime) : ∀ c ∈ t.text, isIdChar c = true := by
  have hdash : ∀ c ∈ py "-", isIdChar c = true := by decide
  have hsep : ∀ c ∈ py "T", isIdChar c = true := by decide
  simp only [WallTime.text, List.forall_mem_append]
  exact ⟨⟨⟨⟨⟨⟨⟨⟨⟨⟨isIdChar_natDigits _, hdash⟩, isIdChar_twoDigits _⟩, hdash⟩,
    isIdChar_twoDigits _⟩, hsep⟩, isIdChar_twoDigits _⟩, hdash⟩, isIdChar_twoDigits _⟩,
    hdash⟩, isIdChar_twoDigits _⟩

theorem WallTime.text_length (t : WallTime) : t.text.length ≤ 34 := by
  have hyear := natDigits_length_le t.hyear.2
  have hmonth := twoDigits_length_le (le_trans t.hmonth (by decide))
  have hday := twoDigits_length_le (le_trans t.hday (by decide))
  have hhour := twoDigits_length_le (le_trans t.hhour (by decide))
  have hminute := twoDigits_length_le (le_trans t.hminute (by decide))
  have hsecond := twoDigits_length_le (le_trans t.hsecond (by decide))
  have hone : (py "-").length = 1 ∧ (py "T").length = 1 := by decide
  simp only [WallTime.text, List.length_append, hone.1, hone.2]
  omega

/-- **Every run id is a flat name.** -/
theorem safeRunId_runId (t : WallTime) (pid : Pid) : safeRunId (runId t pid) = true := by
  have hchars : ∀ c ∈ runId t pid, isIdChar c = true := by
    have hdash : ∀ c ∈ py "-", isIdChar c = true := by decide
    simp only [runId, List.forall_mem_append]
    exact ⟨⟨t.text_chars, hdash⟩, isIdChar_hex pid⟩
  have hlength : (runId t pid).length ≤ 43 := by
    have htext := t.text_length
    have hhex : (Nat.toDigits 16 (pid : Nat)).length ≤ 8 := by
      rw [Nat.length_toDigits_le_iff (by decide) (by decide)]
      exact lt_of_lt_of_le pid.isLt (by decide)
    have hone : (py "-").length = 1 := by decide
    simp only [runId, List.length_append, List.length_map, hone]
    omega
  cases hyear : natDigits t.year with
  | nil => exact absurd hyear (natDigits_ne_nil t.year)
  | cons c rest =>
      have hid : ∃ more, runId t pid = c :: more := by
        simp [runId, WallTime.text, hyear]
      rcases hid with ⟨more, hid⟩
      have hc : 48 ≤ c ∧ c ≤ 57 := natDigits_bounds (hyear ▸ List.mem_cons_self)
      rw [hid] at hchars hlength ⊢
      have hrest : more.all isIdChar = true :=
        List.all_eq_true.mpr fun d hd => hchars d (List.mem_cons_of_mem c hd)
      have hle : more.length ≤ 127 := by
        rw [List.length_cons] at hlength
        omega
      simp [safeRunId, isAlphanumeric, hc, hrest, hle]

/-! ## The invariant -/

/-- The operation that a run opens first and closes last. -/
def runKey : PyStr × PyStr × Option Int :=
  (py "RUN", py "RUN", none)

/-- What the latch needs to see in the directory of a run. -/
structure RunDir.Interrupted (d : RunDir) : Prop where
  hasMetadata : d.hasMetadata = true
  result : d.result = none
  isOpen : IsOpen runKey d.readTimeline

namespace Bench

/-- The run is the latest one, was interrupted, and is not acknowledged. -/
structure Latched (b : Bench) (id : PyStr) : Prop where
  safe : safeRunId id = true
  greatest : ∀ other, isRecorded b.runs other = true → leStr other id = true
  dir : ∃ d, b.runs.lookup id = some d ∧ d.Interrupted ∧ d.acknowledge = none

/-- No run of the past had this id. -/
def Fresh (b : Bench) (id : PyStr) : Prop :=
  ∀ r ∈ b.past, r.id ≠ id

/-- The directory of a live run with an id of its own. -/
structure Owns (b : Bench) (j : RunRecord) (d : RunDir) : Prop where
  live : b.live = some j
  fresh : b.Fresh j.id
  dir : b.runs.lookup j.id = some d

/-- What such a directory holds. -/
structure Kept (j : RunRecord) (d : RunDir) : Prop where
  terminated : d.unterminated = false
  acknowledged : d.acknowledge.isSome = true → j.acknowledged = true
  unfinished : j.finished = false → d.result = none
  entered : j.entered = true → d.hasMetadata = true ∧ (j.finished = false →
    IsOpen runKey d.readTimeline)

/-- What holds of the bench at every moment. -/
structure Sound (b : Bench) : Prop where
  latched : ∀ r ∈ b.past, r.Open → b.Latched r.id
  known : ∀ id d, b.runs.lookup id = some d → (∃ r ∈ b.past, r.id = id) ∨
    ∃ j, b.live = some j ∧ j.id = id
  quiet : b.live ≠ none → b.Quiet
  safe : ∀ j, b.live = some j → safeRunId j.id = true
  hasDir : ∀ j, b.live = some j → (b.runs.lookup j.id).isSome
  kept : ∀ j d, b.Owns j d → Kept j d

/-- The live run has its metadata. -/
def Described (b : Bench) : Prop :=
  ∀ j d, b.Owns j d → d.hasMetadata = true

/-- The live run has its metadata and has not closed its first operation. -/
def Ready (b : Bench) : Prop :=
  b.live ≠ none ∧ ∀ j d, b.Owns j d → d.hasMetadata = true ∧ IsOpen runKey d.readTimeline

/-- The live run has its result. -/
def Finished (b : Bench) : Prop :=
  ∀ j, b.live = some j → j.finished = true

/-- What a run relies on while it is in progress: only acknowledgements happen. -/
def rely : Program.Rely Bench where
  holds := Sound
  le b c := (b.Quiet → c.Quiet) ∧ (b.live = none → c.live = none) ∧
    (b.live ≠ none → c.live ≠ none) ∧ (b.Described → c.Described) ∧ (b.Ready → c.Ready) ∧
    (b.Finished → c.Finished)
  refl _ := ⟨id, id, id, id, id, id⟩
  trans _ _ _ h h' := ⟨h'.1 ∘ h.1, h'.2.1 ∘ h.2.1, h'.2.2.1 ∘ h.2.2.1,
    h'.2.2.2.1 ∘ h.2.2.2.1, h'.2.2.2.2.1 ∘ h.2.2.2.2.1, h'.2.2.2.2.2 ∘ h.2.2.2.2.2⟩

/-- The actions that are allowed. -/
def Allowed (b : Bench) : BenchAct → Prop
  | .construct => b.Quiet
  | .activate => b.Quiet
  | .makeJournal id => b.Quiet ∧ b.live = none ∧ safeRunId id = true
  | .timeline phase step state =>
      (py "H1" = phase ∨ py "H2" = phase ∨ py "H3" = phase) ∧ step = py "PHASE" ∧ b.Ready ∨
        phase = py "RUN" ∧ step = py "RUN" ∧ state = py "STARTED" ∧ b.Described ∨
          phase = py "RUN" ∧ step = py "RUN" ∧ state = py "COMPLETED" ∧ b.Finished
  | _ => True

/-! ## The directory of the live run -/

/-- The live run and its directory change, and nothing else. -/
def replace (b : Bench) (j : RunRecord) (d : RunDir) : Bench :=
  { b with runs := b.runs.insert j.id d, live := some j }

theorem owns_replace {b : Bench} {j j' : RunRecord} {d d' : RunDir} :
    (b.replace j d).Owns j' d' ↔ j' = j ∧ d' = d ∧ b.Fresh j.id := by
  constructor
  · rintro ⟨hlive, hfresh, hdir⟩
    obtain rfl := Option.some.inj hlive
    rw [replace, AList.lookup_insert] at hdir
    exact ⟨rfl, (Option.some.inj hdir).symm, hfresh⟩
  · rintro ⟨rfl, rfl, hfresh⟩
    exact ⟨rfl, hfresh, AList.lookup_insert _⟩

theorem exec_metadata {b : Bench} {j : RunRecord} {d : RunDir} (hlive : b.live = some j)
    (hdir : b.runs.lookup j.id = some d) :
    BenchAct.metadata.exec b = b.replace j { d with hasMetadata := true } := by
  simp [BenchAct.exec, editDir, replace, hlive, hdir]

theorem exec_timeline {b : Bench} {j : RunRecord} {d : RunDir} (hlive : b.live = some j)
    (hdir : b.runs.lookup j.id = some d) (phase step state : PyStr) :
    (BenchAct.timeline phase step state).exec b =
      b.replace (noted phase state j) (d.append (crumb j phase step state)) := by
  simp [BenchAct.exec, editDir, editLive, replace, hlive, hdir, noted]

theorem exec_result {b : Bench} {j : RunRecord} {d : RunDir} (hlive : b.live = some j)
    (hdir : b.runs.lookup j.id = some d) (outcome : PyStr) :
    (BenchAct.result outcome).exec b =
      b.replace { j with finished := true } { d with result := some outcome } := by
  simp [BenchAct.exec, editDir, editLive, replace, hlive, hdir]

/-- Without a live run, nothing is written. -/
theorem exec_of_idle {b : Bench} (hlive : b.live = none) {a : BenchAct}
    (ha : ∀ id, a ≠ .makeJournal id) : a.exec b = b := by
  cases a with
  | makeJournal id => exact absurd rfl (ha id)
  | _ => cases b; simp_all [BenchAct.exec, editDir, editLive]

namespace Sound

variable {b : Bench}

/-- The live run has a directory. -/
theorem exists_dir (h : b.Sound) {j : RunRecord} (hlive : b.live = some j) :
    ∃ d, b.runs.lookup j.id = some d :=
  Option.isSome_iff_exists.mp (h.hasDir j hlive)

/-- Writing to the directory of the live run. -/
theorem replace (h : b.Sound) {j : RunRecord} (hlive : b.live = some j) {j' : RunRecord}
    (hid : j'.id = j.id) {d' : RunDir} (hkept : b.Fresh j.id → Kept j' d') :
    (b.replace j' d').Sound := by
  have hquiet : b.Quiet := h.quiet (by rw [hlive]; exact Option.some_ne_none j)
  constructor
  · exact fun r hr hopen => absurd hopen (hquiet r hr)
  · intro id d hd
    by_cases hsame : id = j'.id
    · exact Or.inr ⟨j', rfl, hsame.symm⟩
    · rw [Bench.replace, AList.lookup_insert_ne hsame] at hd
      rcases h.known id d hd with hpast | ⟨k, hk, rfl⟩
      · exact Or.inl hpast
      · rw [hlive] at hk
        obtain rfl := Option.some.inj hk
        exact absurd hid.symm hsame
  · exact fun _ => hquiet
  · intro k hk
    obtain rfl := Option.some.inj hk
    rw [hid]
    exact h.safe j hlive
  · intro k hk
    obtain rfl := Option.some.inj hk
    simp [Bench.replace]
  · intro k d hown
    obtain ⟨rfl, rfl, hfresh⟩ := owns_replace.mp hown
    exact hkept (hid ▸ hfresh)

/-- A new journal. -/
theorem makeJournal (h : b.Sound) (hquiet : b.Quiet) (hidle : b.live = none) {id : PyStr}
    (hsafe : safeRunId id = true) : ((BenchAct.makeJournal id).exec b).Sound := by
  constructor
  · exact fun r hr hopen => absurd hopen (hquiet r hr)
  · intro other d hd
    by_cases hsame : other = id
    · exact Or.inr ⟨_, rfl, hsame.symm⟩
    · rw [BenchAct.exec, AList.lookup_insert_ne hsame] at hd
      rcases h.known other d hd with hpast | ⟨k, hk, -⟩
      · exact Or.inl hpast
      · rw [hidle] at hk
        contradiction
  · exact fun _ => hquiet
  · intro k hk
    obtain rfl := Option.some.inj hk
    exact hsafe
  · intro k hk
    obtain rfl := Option.some.inj hk
    simp [BenchAct.exec]
  · rintro k d ⟨hk, hfresh, hd⟩
    obtain rfl := Option.some.inj hk
    have hnew : b.runs.lookup id = none := by
      by_contra hsome
      obtain ⟨old, hold⟩ := Option.ne_none_iff_exists'.mp hsome
      rcases h.known id old hold with ⟨r, hr, hid⟩ | ⟨k, hk, -⟩
      · exact hfresh r hr hid
      · rw [hidle] at hk
        contradiction
    rw [BenchAct.exec, AList.lookup_insert, hnew] at hd
    obtain rfl := Option.some.inj hd
    exact ⟨rfl, by simp, fun _ => rfl, by simp⟩

end Sound

/-- The operation of a phase is not that of the run. -/
theorem phaseKey_ne {phase : PyStr} (h : py "H1" = phase ∨ py "H2" = phase ∨ py "H3" = phase)
    (j : RunRecord) (step state : PyStr) : (crumb j phase step state).key ≠ runKey := by
  have hne : phase ≠ py "RUN" := by
    rcases h with rfl | rfl | rfl <;> decide
  exact fun heq => hne (congrArg Prod.fst heq)

/-- The records of the run itself do not count as its device phase. -/
@[simp]
theorem noted_run_entered (state : PyStr) (j : RunRecord) :
    (noted (py "RUN") state j).entered = j.entered := by
  have hnone : devicePhases.contains (py "RUN") = false := by decide
  simp only [noted, hnone, Bool.and_false, Bool.or_false]

/-- What an append to the timeline keeps. -/
theorem Kept.append {b : Bench} {j : RunRecord} {d : RunDir} (hown : b.Owns j d)
    (h : Kept j d) {phase step state : PyStr}
    (hallowed : b.Allowed (.timeline phase step state)) :
    Kept (noted phase state j) (d.append (crumb j phase step state)) := by
  have hread := RunDir.readTimeline_append h.terminated (crumb j phase step state)
  refine ⟨rfl, h.acknowledged, h.unfinished, fun hentered => ?_⟩
  rw [hread]
  rcases hallowed with ⟨hphase, -, hready⟩ | ⟨rfl, rfl, rfl, hdescribed⟩ |
    ⟨rfl, rfl, rfl, hfinished⟩
  · obtain ⟨hmeta, hopen⟩ := hready.2 j d hown
    exact ⟨hmeta, fun _ => hopen.append (phaseKey_ne hphase j step state)⟩
  · exact ⟨hdescribed j d hown, fun _ => IsOpen.started _ rfl⟩
  · rw [noted_run_entered] at hentered
    have hdone : (noted (py "RUN") (py "COMPLETED") j).finished = true := hfinished j hown.live
    exact ⟨(h.entered hentered).1, fun hunfinished => by simp [hdone] at hunfinished⟩

/-- **What an allowed action keeps.** -/
theorem Sound.act {b : Bench} (h : b.Sound) {a : BenchAct} (ha : b.Allowed a) :
    (a.exec b).Sound := by
  cases hlive : b.live with
  | none =>
      cases a with
      | makeJournal id => exact h.makeJournal ha.1 ha.2.1 ha.2.2
      | _ =>
          rw [exec_of_idle hlive (by simp)]
          exact h
  | some j =>
      obtain ⟨d, hdir⟩ := h.exists_dir hlive
      have hown : b.Fresh j.id → b.Owns j d := fun hfresh => ⟨hlive, hfresh, hdir⟩
      cases a with
      | makeJournal id =>
          rw [ha.2.1] at hlive
          contradiction
      | metadata =>
          rw [exec_metadata hlive hdir]
          refine h.replace hlive rfl fun hfresh => ?_
          have hkept := h.kept j d (hown hfresh)
          exact ⟨hkept.terminated, hkept.acknowledged, hkept.unfinished,
            fun hentered => ⟨rfl, (hkept.entered hentered).2⟩⟩
      | timeline phase step state =>
          have hid : (noted phase state j).id = j.id := rfl
          rw [exec_timeline hlive hdir]
          exact h.replace hlive hid fun hfresh =>
            Kept.append (hown hfresh) (h.kept j d (hown hfresh)) ha
      | result outcome =>
          have hid : { j with finished := true }.id = j.id := rfl
          rw [exec_result hlive hdir]
          refine h.replace hlive hid fun hfresh => ?_
          have hkept := h.kept j d (hown hfresh)
          exact ⟨hkept.terminated, hkept.acknowledged, fun hunfinished => by contradiction,
            fun hentered => ⟨(hkept.entered hentered).1, fun hunfinished => by contradiction⟩⟩
      | _ => exact h

/-! ## The latch -/

/-- **A bench that the latch lets pass is quiet.** -/
theorem Sound.quiet_of_latch {b : Bench} (h : b.Sound) (hlatch : startupLatch b.runs = none) :
    b.Quiet := by
  intro r hr hopen
  obtain ⟨hsafe, hgreatest, d, hdir, hinterrupted, hack⟩ := h.latched r hr hopen
  have hrecorded : isRecorded b.runs r.id = true := by
    simp [isRecorded, hsafe, hdir, hinterrupted.hasMetadata]
  have hlatest := latestRun_eq_of_greatest hrecorded hgreatest
  obtain ⟨crumb, hreport⟩ := loadReport_of_interrupted hlatest hdir hinterrupted.hasMetadata
    hinterrupted.result hinterrupted.isOpen
  simp [startupLatch, hreport, hack] at hlatch

/-! ## The program of a run -/

/-- The device may be used, and the journal of the run is open. -/
def Going (b : Bench) : Prop :=
  b.Quiet ∧ b.Ready

theorem Going.later {b c : Bench} (h : b.Going) (hle : rely.le b c) : c.Going :=
  ⟨hle.1 h.1, hle.2.2.2.2.1 h.2⟩

end Bench

open Bench

/-- From a going run the program performs allowed actions and leaves the run going. -/
def Keeps {β : Type} (p : RunProg β) : Prop :=
  ∀ b : Bench, b.Going → p.Safe BenchAct.exec rely Allowed (fun c _ => c.Going) b

namespace Keeps

variable {β γ : Type}

theorem pure (x : β) : Keeps (pure x : RunProg β) :=
  fun _ h _ hle _ => h.later hle

theorem raise : Keeps (.raise () : RunProg β) :=
  fun _ _ => trivial

theorem bind {p : RunProg β} {f : β → RunProg γ} (hp : Keeps p) (hf : ∀ x, Keeps (f x)) :
    Keeps (p >>= f) :=
  fun b h => (hp b h).bind fun x c _ hc => hf x c hc

/-- An action that is allowed and leaves the run going. -/
theorem perform {a : BenchAct}
    (h : ∀ b : Bench, b.Sound → b.Going → b.Allowed a ∧ (a.exec b).Going) :
    Keeps (Program.perform a : RunProg Bench) := by
  intro b hb
  refine Program.Safe.perform fun c hle hsound => ?_
  obtain ⟨hallowed, hgoing⟩ := h c hsound (hb.later hle)
  exact ⟨hallowed, fun t hle' _ => hgoing.later hle'⟩

theorem activate : Keeps (Program.perform .activate : RunProg Bench) :=
  perform fun _ _ h => ⟨h.1, h⟩

theorem inferOnce (answer : Answer) : Keeps (inferOnce answer) :=
  bind (perform fun _ _ h => ⟨trivial, h⟩) fun _ => pure _

/-- A record of a phase leaves the operation of the run open. -/
theorem note {phase : PyStr} (hphase : py "H1" = phase ∨ py "H2" = phase ∨ py "H3" = phase)
    (state : PyStr) : Keeps (note phase (py "PHASE") state) := by
  refine bind (perform fun b hsound hgoing => ?_) fun _ => pure ()
  refine ⟨Or.inl ⟨hphase, rfl, hgoing.2⟩, ?_⟩
  obtain ⟨j, hlive⟩ := Option.ne_none_iff_exists'.mp hgoing.2.1
  obtain ⟨d, hdir⟩ := hsound.exists_dir hlive
  rw [exec_timeline hlive hdir]
  refine ⟨hgoing.1, Option.some_ne_none _, ?_⟩
  intro j' d' hown'
  obtain ⟨rfl, rfl, hfresh⟩ := owns_replace.mp hown'
  have hown : b.Owns j d := ⟨hlive, hfresh, hdir⟩
  obtain ⟨hmeta, hopen⟩ := hgoing.2.2 j d hown
  refine ⟨hmeta, ?_⟩
  rw [RunDir.readTimeline_append (hsound.kept j d hown).terminated]
  exact hopen.append (phaseKey_ne hphase j _ state)

theorem phaseH1 (env : Surroundings) : Keeps (phaseH1 env) := by
  refine bind (note (Or.inl rfl) _) fun _ => bind activate fun _ => ?_
  split
  · exact bind (note (Or.inl rfl) _) fun _ => pure _
  · exact bind (inferOnce _) fun _ => bind (note (Or.inl rfl) _) fun _ => pure _

theorem calibrate (env : Surroundings) (left i : Nat) : Keeps (calibrate env left i) := by
  have hnote : ∀ state, Keeps (Observability.note (py "H2") (py "PHASE") state) :=
    note (Or.inr (Or.inl rfl))
  induction left generalizing i with
  | zero => exact bind (hnote _) fun _ => pure _
  | succ left ih =>
      unfold Observability.calibrate
      split
      · exact bind (hnote _) fun _ => pure _
      · refine bind (inferOnce _) fun err => ?_
        cases err with
        | some err => exact bind (hnote _) fun _ => pure _
        | none => exact ih (i + 1)

theorem phaseH2 (args : Arguments) (env : Surroundings) : Keeps (phaseH2 args env) :=
  bind (note (Or.inr (Or.inl rfl)) _) fun _ => calibrate env _ 0

theorem steadyLoop (ticks : List Tick) : Keeps (steadyLoop ticks) := by
  have hnote : ∀ state, Keeps (Observability.note (py "H3") (py "PHASE") state) :=
    note (Or.inr (Or.inr rfl))
  induction ticks with
  | nil => exact raise
  | cons tick rest ih =>
      unfold Observability.steadyLoop
      split
      · exact bind (hnote _) fun _ => pure _
      · split
        · exact bind (hnote _) fun _ => pure _
        · split
          · exact ih
          · refine bind (inferOnce _) fun err => ?_
            cases err with
            | some err => exact bind (hnote _) fun _ => pure _
            | none => exact ih

theorem phaseH3 (env : Surroundings) : Keeps (phaseH3 env) :=
  bind (note (Or.inr (Or.inr rfl)) _) fun _ => steadyLoop env.steady

theorem phaseFns (args : Arguments) (env : Surroundings) :
    ∀ phase ∈ phaseFns args env, Keeps phase.2 := by
  simp only [Observability.phaseFns, List.forall_mem_cons, List.not_mem_nil, false_implies,
    implies_true, and_true]
  exact ⟨phaseH1 env, phaseH2 args env, phaseH3 env⟩

theorem runPhases (env : Surroundings) (plan : List PyStr)
    {phases : List (PyStr × RunProg (Option PyStr))} (h : ∀ phase ∈ phases, Keeps phase.2)
    (err : Option PyStr) : Keeps (runPhases env plan phases err) := by
  induction phases generalizing err with
  | nil => exact pure err
  | cons phase rest ih =>
      have hrest := ih fun other hother => h other (List.mem_cons_of_mem phase hother)
      unfold Observability.runPhases
      split
      · refine bind (h phase List.mem_cons_self) fun err => ?_
        split
        · exact hrest _
        · exact hrest _
      · exact hrest _

end Keeps

/-- The first record of a run, once it has its metadata. -/
theorem startRun_safe (env : Surroundings) {b : Bench} (hquiet : b.Quiet)
    (hlive : b.live ≠ none) :
    (startRun env).Safe BenchAct.exec rely Allowed (fun c _ => c.Going) b := by
  refine Program.Safe.bind (Q := fun c _ => c.Quiet ∧ c.live ≠ none ∧ c.Described)
    (Program.Safe.perform fun c hle hsound => ?_) fun _ c _ hc => ?_
  · have hquiet' := hle.1 hquiet
    obtain ⟨j, hj⟩ := Option.ne_none_iff_exists'.mp (hle.2.2.1 hlive)
    obtain ⟨d, hdir⟩ := hsound.exists_dir hj
    rw [exec_metadata hj hdir]
    refine ⟨trivial, fun t hle' _ => ⟨hle'.1 hquiet', hle'.2.2.1 (Option.some_ne_none j),
      hle'.2.2.2.1 ?_⟩⟩
    intro j' d' hown
    obtain ⟨-, rfl, -⟩ := owns_replace.mp hown
    rfl
  · obtain ⟨hquiet', hlive', hdescribed⟩ := hc
    have hnote : (note (py "RUN") (py "RUN") (py "STARTED")).Safe BenchAct.exec rely Allowed
        (fun c _ => c.Going) c := by
      refine Program.Safe.bind (Q := fun c _ => c.Going)
        (Program.Safe.perform fun u hle hsound => ?_) fun _ u _ hu t hle _ => hu.later hle
      have hdescribed' := hle.2.2.2.1 hdescribed
      obtain ⟨j, hj⟩ := Option.ne_none_iff_exists'.mp (hle.2.2.1 hlive')
      obtain ⟨d, hdir⟩ := hsound.exists_dir hj
      refine ⟨Or.inr (Or.inl ⟨rfl, rfl, rfl, hdescribed'⟩), fun t hle' _ => ?_⟩
      refine Going.later ⟨?_, ?_⟩ hle'
      · rw [exec_timeline hj hdir]
        exact hle.1 hquiet'
      · rw [exec_timeline hj hdir]
        refine ⟨Option.some_ne_none _, fun j' d' hown' => ?_⟩
        obtain ⟨rfl, rfl, hfresh⟩ := owns_replace.mp hown'
        have hown : u.Owns j d := ⟨hj, hfresh, hdir⟩
        refine ⟨hdescribed' j d hown, ?_⟩
        rw [RunDir.readTimeline_append (hsound.kept j d hown).terminated]
        exact IsOpen.started _ rfl
    exact hnote.bind fun _ u _ hu => Keeps.pure _ u hu

/-- The result comes before the end of the run in the timeline. -/
theorem finishRun_safe (err : Option PyStr) (b : Bench) :
    (finishRun err).Safe BenchAct.exec rely Allowed (fun _ _ => True) b := by
  refine Program.Safe.bind (Q := fun c _ => c.Finished)
    (Program.Safe.perform fun c _ hsound => ?_) fun _ c _ hc => ?_
  · refine ⟨trivial, fun t hle _ => hle.2.2.2.2.2 ?_⟩
    cases hlive : c.live with
    | none =>
        rw [exec_of_idle hlive (by simp)]
        intro j hj
        rw [hlive] at hj
        contradiction
    | some j =>
        obtain ⟨d, hdir⟩ := hsound.exists_dir hlive
        rw [exec_result hlive hdir]
        intro k hk
        obtain rfl := Option.some.inj hk
        rfl
  · refine Program.Safe.bind (Q := fun _ _ => True) ?_ fun _ _ _ _ _ _ _ => trivial
    refine Program.Safe.bind (Q := fun _ _ => True)
      (Program.Safe.perform fun u hle _ => ?_) fun _ _ _ _ _ _ _ => trivial
    exact ⟨Or.inr (Or.inr ⟨rfl, rfl, rfl, hle.2.2.2.2.2 hc⟩), fun _ _ _ => trivial⟩

theorem journaledRun_safe (args : Arguments) (env : Surroundings) (plan : List PyStr)
    {b : Bench} (hquiet : b.Quiet) (hidle : b.live = none) :
    (journaledRun args env plan).Safe BenchAct.exec rely Allowed (fun _ _ => True) b := by
  refine Program.Safe.bind (Q := fun c _ => c.Quiet ∧ c.live ≠ none)
    (Program.Safe.perform fun c hle _ => ?_) fun _ c _ hc => ?_
  · refine ⟨⟨hle.1 hquiet, hle.2.1 hidle, safeRunId_runId env.wall env.pid⟩, ?_⟩
    exact fun t hle' _ => ⟨hle'.1 (hle.1 hquiet), hle'.2.2.1 (Option.some_ne_none _)⟩
  · refine (startRun_safe env hc.1 hc.2).bind fun err u _ hu => ?_
    refine (Keeps.runPhases env plan (Keeps.phaseFns args env) err u hu).bind ?_
    exact fun err v _ _ => finishRun_safe err v

/-- **A run performs allowed actions only.** -/
theorem runStability_safe (args : Arguments) (env : Surroundings) {b : Bench}
    (hidle : b.live = none) :
    (runStability args env).Safe BenchAct.exec rely Allowed (fun _ _ => True) b := by
  unfold runStability
  split
  · exact fun _ _ _ => trivial
  · split
    · exact fun _ _ _ => trivial
    · exact fun _ _ _ => trivial
    · refine Program.Safe.bind
        (Q := fun c code => code = none → c.Quiet ∧ c.live = none) ?_ fun code c _ hc => ?_
      · refine Program.Safe.bind (Q := fun c found => startupLatch found.runs = none →
          c.Quiet ∧ c.live = none) (Program.Safe.perform fun c hle hsound => ?_) ?_
        · refine ⟨trivial, fun t hle' _ hlatch => ?_⟩
          exact ⟨hle'.1 (hsound.quiet_of_latch hlatch), hle'.2.1 (hle.2.1 hidle)⟩
        · intro found c _ hc t hle _ hlatch
          exact ⟨hle.1 (hc hlatch).1, hle.2.1 (hc hlatch).2⟩
      · cases code with
        | some code => exact fun _ _ _ => trivial
        | none =>
            obtain ⟨hquiet, hidle'⟩ := hc rfl
            refine Program.Safe.bind (Q := fun c _ => c.Quiet ∧ c.live = none)
              (Program.Safe.perform fun u hle _ => ?_) fun _ u _ hu => ?_
            · refine ⟨hle.1 hquiet, fun t hle' _ => ?_⟩
              exact ⟨hle'.1 (hle.1 hquiet), hle'.2.1 (hle.2.1 hidle')⟩
            · cases env.construction with
              | ready => exact journaledRun_safe args env _ hu.1 hu.2
              | refused code => exact fun _ _ _ => trivial
              | raised => exact trivial

/-! ## The end of a run -/

namespace Bench

/-- A run that ends open has an id of its own, and it sorts after every recorded one. -/
def Ordered (b : Bench) : Prop :=
  ∀ j ∈ b.live, j.Open →
    b.Fresh j.id ∧ ∀ other ∈ listRuns b.runs, leStr other j.id = true

instance (b : Bench) : Decidable b.Ordered :=
  inferInstanceAs (Decidable (∀ j ∈ b.live, j.Open →
    (∀ r ∈ b.past, r.id ≠ j.id) ∧ ∀ other ∈ listRuns b.runs, leStr other j.id = true))

/-- The end of a run, whose directory may still change meanwhile. -/
theorem Sound.close {b : Bench} (h : b.Sound) (hordered : b.Ordered) {runs : Runs}
    (hidle : b.live = none → runs = b.runs)
    (hrecorded : ∀ id, isRecorded runs id = isRecorded b.runs id)
    (hknown : ∀ id d, runs.lookup id = some d → ∃ d', b.runs.lookup id = some d')
    (hdir : ∀ j d, b.Owns j d → j.Open →
      ∃ d', runs.lookup j.id = some d' ∧ d'.Interrupted ∧ d'.acknowledge = none) :
    (StabilityStation.close { b with runs }).Sound := by
  constructor
  · intro r hr hopen
    rcases List.mem_append.mp hr with hpast | hlive
    · cases hlive : b.live with
      | none =>
          obtain rfl := hidle hlive
          obtain ⟨hsafe, hgreatest, hinterrupted⟩ := h.latched r hpast hopen
          exact ⟨hsafe, hgreatest, hinterrupted⟩
      | some j => exact absurd hopen (h.quiet (by simp [hlive]) r hpast)
    · have hj : b.live = some r := Option.mem_toList.mp hlive
      obtain ⟨hfresh, hgreatest⟩ := hordered r hj hopen
      obtain ⟨d, hd⟩ := h.exists_dir hj
      refine ⟨h.safe r hj, fun other hother => hgreatest other ?_, hdir r d ⟨hj, hfresh, hd⟩ hopen⟩
      rw [mem_listRuns, ← hrecorded]
      exact hother
  · intro id d hd
    obtain ⟨d', hd'⟩ := hknown id d hd
    refine Or.inl ?_
    rcases h.known id d' hd' with ⟨r, hr, hid⟩ | ⟨j, hj, hid⟩
    · exact ⟨r, List.mem_append_left _ hr, hid⟩
    · exact ⟨j, List.mem_append_right _ (Option.mem_toList.mpr hj), hid⟩
  · exact fun hne => absurd rfl hne
  · exact fun j hj => by contradiction
  · exact fun j hj => by contradiction
  · exact fun j d hown => by cases hown.live

/-- The directory of a run that ends open. -/
theorem Kept.interrupted {j : RunRecord} {d : RunDir} (h : Kept j d) (hopen : j.Open) :
    d.Interrupted ∧ d.acknowledge = none := by
  obtain ⟨hentered, hunfinished, hack⟩ := hopen
  obtain ⟨hmeta, hrun⟩ := h.entered hentered
  refine ⟨⟨hmeta, h.unfinished hunfinished, hrun hunfinished⟩, ?_⟩
  by_contra hsome
  rw [h.acknowledged (Option.isSome_iff_ne_none.mpr hsome)] at hack
  contradiction

/-- An append that is cut short leaves the operation of the run open. -/
theorem Kept.torn {b : Bench} {j : RunRecord} {d : RunDir} (hown : b.Owns j d) (h : Kept j d)
    (hopen : j.Open) {phase step state : PyStr}
    (hallowed : b.Allowed (.timeline phase step state)) (whole : Bool) :
    (d.tear (crumb j phase step state) whole).Interrupted := by
  obtain ⟨hinterrupted, -⟩ := h.interrupted hopen
  refine ⟨hinterrupted.hasMetadata, hinterrupted.result, ?_⟩
  rw [RunDir.readTimeline_tear h.terminated]
  cases whole with
  | false =>
      rw [if_neg Bool.false_ne_true, List.append_nil]
      exact hinterrupted.isOpen
  | true =>
      rw [if_pos rfl]
      rcases hallowed with ⟨hphase, -, -⟩ | ⟨rfl, rfl, rfl, -⟩ | ⟨-, -, -, hfinished⟩
      · exact hinterrupted.isOpen.append (phaseKey_ne hphase j step state)
      · exact IsOpen.started _ rfl
      · have hdone := hfinished j hown.live
        rw [hopen.2.1] at hdone
        contradiction

/-- **A run ends in a sound bench,** also when its last append is cut short. -/
theorem Sound.close_torn {b : Bench} (h : b.Sound) (hordered : b.Ordered)
    {next : Option BenchAct} (hallowed : ∀ a, next = some a → b.Allowed a)
    (whole : Option Bool) :
    (StabilityStation.close (StabilityStation.torn next whole b)).Sound := by
  have hplain : (StabilityStation.close b).Sound :=
    h.close hordered (fun _ => rfl) (fun _ => rfl) (fun _ d hd => ⟨d, hd⟩)
      fun j d hown hopen => ⟨d, hown.dir, (h.kept j d hown).interrupted hopen⟩
  unfold StabilityStation.torn
  split
  · rename_i phase step state whole
    cases hlive : b.live with
    | none => simpa [editDir, hlive] using hplain
    | some j =>
        obtain ⟨d, hd⟩ := h.exists_dir hlive
        have hedit : (b.editDir fun j d => d.tear (crumb j phase step state) whole) =
            { b with runs := b.runs.insert j.id (d.tear (crumb j phase step state) whole) } := by
          simp [editDir, hlive, hd]
        rw [hedit]
        refine h.close hordered (fun hidle => ?_) (fun id => ?_) (fun id e he => ?_)
          fun k e hown hopen => ?_
        · rw [hlive] at hidle
          contradiction
        · by_cases hsame : id = j.id
          · subst hsame
            simp [isRecorded, hd, RunDir.tear]
          · simp [isRecorded, AList.lookup_insert_ne hsame]
        · by_cases hsame : id = j.id
          · exact ⟨d, hsame ▸ hd⟩
          · rw [AList.lookup_insert_ne hsame] at he
            exact ⟨e, he⟩
        · obtain rfl := Option.some.inj (hlive.symm.trans hown.live)
          obtain rfl := Option.some.inj (hd.symm.trans hown.dir)
          have hkept := h.kept j d hown
          exact ⟨_, AList.lookup_insert _, hkept.torn hown hopen (hallowed _ rfl) whole,
            (hkept.interrupted hopen).2⟩
  · exact hplain

/-! ## Acknowledgements -/

/-- A run after the acknowledgement of an id. -/
def marked (id : PyStr) (r : RunRecord) : RunRecord :=
  if r.id = id then { r with acknowledged := true } else r

@[simp]
theorem marked_id (id : PyStr) (r : RunRecord) : (marked id r).id = r.id := by
  unfold marked
  split <;> rfl

/-- What is open after an acknowledgement was open before, under another id. -/
theorem marked_open {id : PyStr} {r : RunRecord} (h : (marked id r).Open) :
    r.Open ∧ r.id ≠ id := by
  unfold marked at h
  split at h
  · exact absurd h.2.2 (by simp)
  · rename_i hne
    exact ⟨h, hne⟩

/-- The bench after the acknowledgement of an id whose directory is known. -/
def acknowledge (b : Bench) (id reason : PyStr) (d : RunDir) : Bench :=
  { runs := b.runs.insert id { d with acknowledge := some reason }
    live := b.live.map (marked id)
    past := b.past.map (marked id) }

theorem acknowledged_cases (b : Bench) (reason : PyStr) (runId : Option PyStr) :
    StabilityStation.acknowledged b reason runId = b ∨
      ∃ id d, b.runs.lookup id = some d ∧
        StabilityStation.acknowledged b reason runId = b.acknowledge id reason d := by
  unfold StabilityStation.acknowledged
  rcases acknowledgeRun_cases b.runs reason runId with ⟨code, h⟩ | ⟨id, d, hd, h⟩
  · rw [h]
    exact Or.inl rfl
  · rw [h]
    exact Or.inr ⟨id, d, hd, rfl⟩

section Acknowledge

variable {b : Bench} {id reason : PyStr} {d : RunDir} (hd : b.runs.lookup id = some d)

include hd

/-- A directory after an acknowledgement. -/
theorem lookup_acknowledge {other : PyStr} {e : RunDir}
    (he : (b.acknowledge id reason d).runs.lookup other = some e) :
    ∃ e', b.runs.lookup other = some e' ∧ e.hasMetadata = e'.hasMetadata ∧
      e.timeline = e'.timeline ∧ e.unterminated = e'.unterminated ∧ e.result = e'.result ∧
      (other ≠ id → e = e') := by
  by_cases hsame : other = id
  · subst hsame
    rw [acknowledge, AList.lookup_insert] at he
    obtain rfl := Option.some.inj he
    exact ⟨d, hd, rfl, rfl, rfl, rfl, fun hne => absurd rfl hne⟩
  · rw [acknowledge, AList.lookup_insert_ne hsame] at he
    exact ⟨e, he, rfl, rfl, rfl, rfl, fun _ => rfl⟩

theorem isRecorded_acknowledge (other : PyStr) :
    isRecorded (b.acknowledge id reason d).runs other = isRecorded b.runs other := by
  by_cases hsame : other = id
  · subst hsame
    simp [isRecorded, acknowledge, hd]
  · simp [isRecorded, acknowledge, AList.lookup_insert_ne hsame]

/-- The live run behind its directory after an acknowledgement. -/
theorem owns_acknowledge {j : RunRecord} {e : RunDir}
    (h : (b.acknowledge id reason d).Owns j e) :
    ∃ k e', b.Owns k e' ∧ j = marked id k ∧ e.hasMetadata = e'.hasMetadata ∧
      e.timeline = e'.timeline ∧ e.unterminated = e'.unterminated ∧ e.result = e'.result ∧
      (k.id ≠ id → e = e') := by
  obtain ⟨k, hk, rfl⟩ := Option.map_eq_some_iff.mp h.live
  obtain ⟨e', he', hrest⟩ := lookup_acknowledge hd h.dir
  rw [marked_id] at he' hrest
  refine ⟨k, e', ⟨hk, fun r hr => ?_, he'⟩, rfl, hrest⟩
  have hne := h.fresh (marked id r) (List.mem_map_of_mem hr)
  rwa [marked_id, marked_id] at hne

/-- What a run relies on when its operator acknowledges a run. -/
theorem le_acknowledge : rely.le b (b.acknowledge id reason d) := by
  refine ⟨?_, ?_, ?_, ?_, ?_, ?_⟩
  · intro hquiet r hr hopen
    obtain ⟨r', hr', rfl⟩ := List.mem_map.mp hr
    exact hquiet r' hr' (marked_open hopen).1
  · exact fun hidle => by simp [acknowledge, hidle]
  · exact fun hlive => by simpa [acknowledge] using hlive
  · intro hdescribed j e hown
    obtain ⟨k, e', hk, -, hmeta, -⟩ := owns_acknowledge hd hown
    rw [hmeta]
    exact hdescribed k e' hk
  · rintro ⟨hlive, hready⟩
    refine ⟨by simpa [acknowledge] using hlive, fun j e hown => ?_⟩
    obtain ⟨k, e', hk, -, hmeta, htimeline, -⟩ := owns_acknowledge hd hown
    rw [hmeta, RunDir.readTimeline, htimeline]
    exact hready k e' hk
  · intro hfinished j hj
    obtain ⟨k, hk, rfl⟩ := Option.map_eq_some_iff.mp hj
    have hdone := hfinished k hk
    unfold marked
    split <;> exact hdone

/-- An acknowledgement keeps the bench sound. -/
theorem Sound.acknowledge (h : b.Sound) : (b.acknowledge id reason d).Sound := by
  constructor
  · intro r hr hopen
    obtain ⟨r', hr', rfl⟩ := List.mem_map.mp hr
    obtain ⟨hopen', hne⟩ := marked_open hopen
    obtain ⟨hsafe, hgreatest, e, he, hrest⟩ := h.latched r' hr' hopen'
    rw [marked_id]
    refine ⟨hsafe, fun other hother => hgreatest other ?_, e, ?_, hrest⟩
    · rwa [isRecorded_acknowledge hd] at hother
    · rw [Bench.acknowledge, AList.lookup_insert_ne hne]
      exact he
  · intro other e he
    obtain ⟨e', he', -⟩ := lookup_acknowledge hd he
    rcases h.known other e' he' with ⟨r, hr, hid⟩ | ⟨j, hj, hid⟩
    · exact Or.inl ⟨marked id r, List.mem_map_of_mem hr, by rw [marked_id, hid]⟩
    · exact Or.inr ⟨marked id j, by simp [Bench.acknowledge, hj], by rw [marked_id, hid]⟩
  · intro hlive
    exact (le_acknowledge hd).1 (h.quiet (by simpa [Bench.acknowledge] using hlive))
  · intro j hj
    obtain ⟨k, hk, rfl⟩ := Option.map_eq_some_iff.mp hj
    rw [marked_id]
    exact h.safe k hk
  · intro j hj
    obtain ⟨k, hk, rfl⟩ := Option.map_eq_some_iff.mp hj
    rw [marked_id, Bench.acknowledge]
    by_cases hsame : k.id = id
    · rw [hsame, AList.lookup_insert]
      rfl
    · rw [AList.lookup_insert_ne hsame]
      exact h.hasDir k hk
  · intro j e hown
    obtain ⟨k, e', hk, rfl, hmeta, htimeline, hterminated, hresult, hsame⟩ :=
      owns_acknowledge hd hown
    have hkept := h.kept k e' hk
    have hread : e.readTimeline = e'.readTimeline := by
      rw [RunDir.readTimeline, htimeline]
      rfl
    unfold marked
    split
    · refine ⟨hterminated.trans hkept.terminated, fun _ => rfl, ?_, ?_⟩
      · exact fun hunfinished => hresult.trans (hkept.unfinished hunfinished)
      · rw [hmeta, hread]
        exact hkept.entered
    · rename_i hne
      obtain rfl := hsame hne
      exact hkept

end Acknowledge

end Bench

/-! ## Runs -/

namespace StabilityStation

/-- What holds of the station at every moment. -/
structure Sound (s : StabilityStation) : Prop where
  bench : s.bench.Sound
  idle : s.run = none → s.bench.live = none
  run : ∀ p, s.run = some p → p.Safe BenchAct.exec rely Allowed (fun _ _ => True) s.bench

/-- A device is used, or a supervisor built, while no earlier run is open. -/
def Event.Lawful : Event → Prop
  | .constructs b => b.Quiet
  | .activates b => b.Quiet

instance : DecidablePred Event.Lawful := fun e =>
  match e with
  | .constructs b => inferInstanceAs (Decidable b.Quiet)
  | .activates b => inferInstanceAs (Decidable b.Quiet)

/-- Whether the run in progress ends with the step. -/
def ends (s : StabilityStation) : Label → Bool
  | .turn => s.next.isNone
  | .die _ => true
  | _ => false

/-- **The condition:** a run that ends in its device phase, without a result and without an
acknowledgement, has an id of its own that sorts after every recorded one. -/
def Orderly (s : StabilityStation) (l : Label) : Prop :=
  s.ends l = true → s.bench.Ordered

instance (s : StabilityStation) (l : Label) : Decidable (Orderly s l) :=
  inferInstanceAs (Decidable (s.ends l = true → s.bench.Ordered))

/-- The actions of a sound station are allowed. -/
theorem Sound.next {s : StabilityStation} (h : s.Sound) {a : BenchAct}
    (ha : s.next = some a) : s.bench.Allowed a := by
  unfold StabilityStation.next at ha
  split at ha
  · rename_i a' k hrun
    obtain rfl := Option.some.inj ha
    exact (h.run _ hrun s.bench (rely.refl _) h.bench).1
  · contradiction

/-- What an allowed action shows is lawful. -/
theorem lawful_of_allowed {b : Bench} {a : BenchAct} (h : b.Allowed a) :
    ∀ e ∈ shown a b, e.Lawful := by
  cases a with
  | construct =>
      intro e he
      rw [List.mem_singleton.mp he]
      exact h
  | activate =>
      intro e he
      rw [List.mem_singleton.mp he]
      exact h
  | _ => simp [shown]

/-- **An orderly step keeps the station sound and shows lawful events only.** -/
theorem Sound.step {s s' : StabilityStation} {l : Label} {es : List Event} (h : s.Sound)
    (hl : Orderly s l) (hstep : machine.step s l = some (s', es)) :
    s'.Sound ∧ ∀ e ∈ es, e.Lawful := by
  cases l with
  | start args env =>
      simp only [machine, StabilityStation.step] at hstep
      split at hstep
      · contradiction
      · rename_i hrun
        cases hstep
        have hidle := h.idle (by simpa using hrun)
        refine ⟨⟨h.bench, fun hnone => by contradiction, fun p hp => ?_⟩, by simp⟩
        obtain rfl := Option.some.inj hp
        exact runStability_safe args env hidle
  | turn =>
      simp only [machine, StabilityStation.step] at hstep
      split at hstep
      · contradiction
      · rename_i a k hrun
        cases hstep
        obtain ⟨hallowed, hk⟩ := h.run _ hrun s.bench (rely.refl _) h.bench
        refine ⟨⟨h.bench.act hallowed, fun hnone => by contradiction, fun p hp => ?_⟩,
          lawful_of_allowed hallowed⟩
        obtain rfl := Option.some.inj hp
        exact hk
      · rename_i p hnot hrun
        cases hstep
        have hnext : s.next = none := by
          unfold StabilityStation.next
          split
          · rename_i a k hact
            exact absurd (Option.some.inj (hrun.symm.trans hact)) (hnot a k)
          · rfl
        have hclosed := h.bench.close_torn (hl (by simp [ends, hnext]))
          (fun a ha => h.next ha) none
        rw [hnext] at hclosed
        exact ⟨⟨hclosed, fun _ => rfl, fun p hp => by contradiction⟩, by simp⟩
  | die whole =>
      simp only [machine, StabilityStation.step] at hstep
      split at hstep
      · contradiction
      · cases hstep
        exact ⟨⟨h.bench.close_torn (hl rfl) (fun a ha => h.next ha) whole, fun _ => rfl,
          fun p hp => by contradiction⟩, by simp⟩
  | acknowledge reason runId =>
      simp only [machine, StabilityStation.step] at hstep
      cases hstep
      refine ⟨?_, by simp⟩
      rcases acknowledged_cases s.bench reason runId with hsame | ⟨id, d, hd, hack⟩
      · rw [hsame]
        exact h
      · rw [hack]
        refine ⟨h.bench.acknowledge hd, fun hrun => ?_, fun p hp => ?_⟩
        · simp [Bench.acknowledge, h.idle hrun]
        · exact (h.run p hp).mono (le_acknowledge hd)

/-- The first station has no runs. -/
theorem sound_first : ({} : StabilityStation).Sound where
  bench := ⟨by simp, by simp, by simp, by simp, by simp, fun _ _ hown => by cases hown.live⟩
  idle _ := rfl
  run _ hp := by contradiction

/-- **An interrupted run keeps the next one from the device,** in every sequence of runs,
deaths and acknowledgements in which the runs that end open have ids that grow. -/
theorem device_use_waits {labels : List Label} {s : StabilityStation} {es : List Event}
    (hordered : machine.Along Orderly labels {}) (hrun : machine.exec labels {} = some (s, es)) :
    ∀ e ∈ es, e.Lawful :=
  (machine.exec_events_of_along (fun _ _ _ _ h hl hstep => h.step hl hstep) sound_first
    hordered hrun).2

/-- Noon and the hour before. -/
def sampleTime (hour : Fin 24) : WallTime where
  year := 2026
  month := 3
  day := 2
  hour := hour
  minute := 0
  second := 0
  hyear := by decide
  hmonth := by decide
  hday := by decide
  hhour := by omega
  hminute := by decide
  hsecond := by decide

/-- A smoke run of a configured model that goes well. -/
def sampleStart (hour : Fin 24) (pid : Pid) : Label :=
  .start { ref := some (py "plus://a"), profile := py "smoke" } { wall := sampleTime hour, pid }

/-- A run at noon that dies in its device phase, is acknowledged, and a run an hour later. -/
def orderlyRuns : List Label :=
  sampleStart 12 7 :: List.replicate 7 .turn ++
    [.die none, .acknowledge (py "reviewed") none, sampleStart 13 8, .turn, .turn]

theorem device_use_waits_orderlyRuns :
    ∃ s es, machine.exec orderlyRuns {} = some (s, es) ∧ es.length = 3 ∧
      ∀ e ∈ es, e.Lawful := by
  have hordered : machine.Along Orderly orderlyRuns {} := by decide +kernel
  have hlength : (machine.exec orderlyRuns {}).map (fun r => r.2.length) = some 3 := by
    decide +kernel
  obtain ⟨⟨s, es⟩, hrun, hes⟩ := Option.map_eq_some_iff.mp hlength
  exact ⟨s, es, hrun, hes, device_use_waits hordered hrun⟩

/-- A run at noon that ends well, the clock set back, and a run that dies in its device
phase; then one more run starts. -/
def setBackRuns : List Label :=
  sampleStart 12 7 :: List.replicate 44 .turn ++ sampleStart 11 8 :: List.replicate 7 .turn ++
    [.die none, sampleStart 13 9, .turn, .turn]

/-- **After the clock was set back, an interrupted run is passed over.** -/
theorem interrupted_run_passed_over :
    ¬ ∀ labels s es, machine.exec labels {} = some (s, es) → ∀ e ∈ es, Event.Lawful e := by
  intro hall
  have hemits : machine.emits setBackRuns {} (fun e => decide (¬ e.Lawful)) = true := by
    decide +kernel
  obtain ⟨s, es, e, hrun, he, hbad⟩ := machine.exists_exec_of_emits hemits
  exact of_decide_eq_true hbad (hall _ s es hrun e he)

end StabilityStation

end Observability
end FrigateXdna
