import FrigateXdna.Library.Transition
import FrigateXdna.Python.Json

/-!
# The operation journal

{lit}`begin_operation` writes the operation into {lit}`current.json`, replacing whatever
stood there; {lit}`complete_operation` moves it to the history and removes it, after an
unclean end only once the registry holds an inhibition.  The files are given by the values
they hold: the journal is written beside its place and renamed, so it is never torn.

Beside the files, the ledger keeps what became of each operation that was begun, for the
law that an unclean one is not forgotten before {lit}`clear_inhibition`.

Main results:

- Theorem {lit}`checkInhibited_iff`: the evidence {lit}`check_inhibited` finds.
- Theorem {lit}`step_accountable_iff`: when one event keeps the law.
- Theorem {lit}`journal_accountable_iff`: the runs that keep it.
- Theorem {lit}`overwritten_operation_forgotten`,
  {lit}`unclean_without_registry_forgotten`: two runs that do not.
-/

namespace FrigateXdna
namespace Runtime

open Python Library

/-! ## Files and the registry slot -/

/-- The journal files and the slot {lit}`inhibition` of the registry. -/
structure JournalFiles where
  current : Option Json := none
  history : List Json := []
  inhibition : Option Json := none

/-- What {lit}`begin_operation` is called with and finds. -/
structure BeginEnv where
  operation : PyStr
  modelRef : PyStr
  artifact : PyStr
  generation : Int
  pid : Int
  bootToken : PyStr
  now : PyFloat

/-- The record of a begun operation. -/
def beginRecord (env : BeginEnv) : List (PyStr × Json) :=
  [(py "operation", .str env.operation), (py "model_ref", .str env.modelRef),
    (py "artifact", .str env.artifact), (py "generation", .int env.generation),
    (py "pid", .int env.pid), (py "boot_token", .str env.bootToken),
    (py "started_at", .float env.now), (py "completed", .bool false),
    (py "clean", .bool false)]

/-- {lit}`begin_operation`: the rename that puts the record in place. -/
def beginOperation (env : BeginEnv) (s : JournalFiles) : JournalFiles :=
  { s with current := some (.obj (beginRecord env)) }

/-- What {lit}`complete_operation` is called with and meets: the registry, if there is one,
by whether its write fails, and whether reading the journal, appending to the history and
removing the journal fail. -/
structure CompleteEnv where
  clean : Bool
  registry : Option Bool
  error : PyStr
  now : PyFloat
  bootToken : PyStr
  readFails : Bool := false
  historyFails : Bool := false
  unlinkFails : Bool := false

/-- What {lit}`complete_operation` does to the files and the registry, one step at a time. -/
inductive JournalAct
  | setInhibition (record : Json)
  | append (record : Json)
  | unlink

/-- What a step does. -/
def JournalAct.exec (s : JournalFiles) : JournalAct → JournalFiles
  | .setInhibition record => { s with inhibition := some record }
  | .append record => { s with history := s.history ++ [record] }
  | .unlink => { s with current := none }

/-- The inhibition of an unclean operation. -/
def uncleanInhibition (env : CompleteEnv) (fields : List (PyStr × Json)) : Json :=
  .obj [(py "reason", .str (py "unclean_operation")),
    (py "operation", (lookupField (py "operation") fields).getD .null),
    (py "artifact", (lookupField (py "artifact") fields).getD .null),
    (py "error", .str env.error), (py "at", .float env.now),
    (py "boot_token", .str env.bootToken)]

/-- The record of a completed operation. -/
def completedRecord (env : CompleteEnv) (fields : List (PyStr × Json)) : Json :=
  .obj (setField (py "completed_at") (.float env.now)
    (setField (py "error") (.str env.error)
      (setField (py "clean") (.bool env.clean)
        (setField (py "completed") (.bool true) fields))))

/-- The last steps of {lit}`complete_operation`; the I/O errors are swallowed.  Rotating a
long history touches nothing else and is left out. -/
def finishActs (env : CompleteEnv) (fields : List (PyStr × Json)) : List JournalAct :=
  (if env.historyFails then [] else [.append (completedRecord env fields)]) ++
    if env.unlinkFails then [] else [.unlink]

/-- The steps of {lit}`complete_operation`, or the exception that leaves it before any. -/
def completeActs (env : CompleteEnv) (s : JournalFiles) : Except PyExc (List JournalAct) :=
  match s.current with
  | none => .ok []
  | some record =>
      if env.readFails then .ok []
      else
        match record with
        | .obj fields =>
            match env.clean, env.registry with
            | false, some true => .ok []
            | false, some false =>
                .ok (.setInhibition (uncleanInhibition env fields) :: finishActs env fields)
            | _, _ => .ok (finishActs env fields)
        | _ =>
            -- The registry branch swallows the failing attribute lookup.
            if !env.clean && env.registry.isSome then .ok [] else .error .typeError

/-- Perform steps in order. -/
def performActs (s : JournalFiles) (acts : List JournalAct) : JournalFiles :=
  acts.foldl JournalAct.exec s

/-- {lit}`clear_inhibition`; a failing registry is swallowed. -/
def clearInhibition (fails : Bool) (s : JournalFiles) : JournalFiles :=
  if fails then s else { s with inhibition := none }

/-- What {lit}`check_inhibited` reports of a journal left behind. -/
def interruptedRecord (bootToken : PyStr) (fields : List (PyStr × Json)) : Json :=
  .obj [(py "reason", .str (py "interrupted_unsafe_operation")),
    (py "operation", (lookupField (py "operation") fields).getD .null),
    (py "artifact", (lookupField (py "artifact") fields).getD .null),
    (py "previous_boot", (lookupField (py "boot_token") fields).getD .null),
    (py "current_boot", .str bootToken)]

/-- {lit}`check_inhibited` on a registry and files that can be read. -/
def checkInhibited (bootToken : PyStr) (s : JournalFiles) : Except PyExc (Option Json) :=
  match s.inhibition with
  | some inh => if inh.truthy then .ok (some inh) else journaled
  | none => journaled
where
  /-- The journal of an operation that did not complete. -/
  journaled : Except PyExc (Option Json) :=
    match s.current with
    | none => .ok none
    | some (.obj fields) =>
        if ((lookupField (py "completed") fields).getD .null).truthy then .ok none
        else .ok (some (interruptedRecord bootToken fields))
    | some _ => .error .attributeError

/-! ## The ledger -/

/-- What became of an operation.  One that {lit}`clear_inhibition` found not completed
cleanly is excused. -/
inductive Fate
  | running
  | clean
  | unclean
  | excused
deriving DecidableEq

/-- The operation is neither completed cleanly nor excused. -/
def Fate.isOwed : Fate → Bool
  | .running => true
  | .unclean => true
  | _ => false

/-- An operation is completed; an unclean end stays one. -/
def Fate.complete (clean : Bool) : Fate → Fate
  | .unclean => .unclean
  | _ => if clean then .clean else .unclean

/-- {lit}`clear_inhibition` was called. -/
def Fate.clear : Fate → Fate
  | .clean => .clean
  | _ => .excused

/-- The files with, as ghost data, the operation that was begun last, those begun before
it, and whether there was a crash. -/
structure Ledger where
  files : JournalFiles := {}
  latest : Option Fate := none
  earlier : List Fate := []
  crashed : Bool := false

namespace Ledger

/-- The operations that were begun. -/
def operations (s : Ledger) : List Fate :=
  s.latest.toList ++ s.earlier

/-- Some operation begun since the last {lit}`clear_inhibition` has not completed
cleanly. -/
def Owed (s : Ledger) : Prop :=
  ∃ f ∈ s.operations, f.isOwed = true

/-- Every operation that was begun completed cleanly, and there was no crash. -/
def Spotless (s : Ledger) : Prop :=
  s.crashed = false ∧ ∀ f ∈ s.operations, f = .clean

/-- An operation was begun. -/
def start (s : Ledger) (files : JournalFiles) : Ledger :=
  { s with files, latest := some .running, earlier := s.operations }

end Ledger

/-- How {lit}`begin_operation` ends: it returns, an I/O error leaves it before the rename,
or it is killed before or after the rename. -/
inductive BeginEnd
  | returns
  | fails
  | killed (renamed : Bool)

/-- What happens: the journal's operations are called, a call is killed after some of its
steps, but not all, or the process dies between calls. -/
inductive JournalEvent
  | begins (env : BeginEnv) (ending : BeginEnd)
  | completes (env : CompleteEnv)
  | killed (env : CompleteEnv) (steps : Nat)
  | clears (fails : Bool)
  | dies

namespace Ledger

/-- An operation whose journal was there is completed. -/
def finish (s : Ledger) (clean : Bool) (files : JournalFiles) : Ledger :=
  { s with
    files
    latest := if s.files.current.isSome then s.latest.map (Fate.complete clean)
      else s.latest }

/-- One event. -/
def step (s : Ledger) : JournalEvent → Option (Ledger × List Unit)
  | .begins env .returns => some (s.start (beginOperation env s.files), [])
  | .begins _ .fails => some (s, [])
  | .begins _ (.killed false) => some ({ s with crashed := true }, [])
  | .begins env (.killed true) =>
      some ({ s.start (beginOperation env s.files) with crashed := true }, [])
  | .completes env =>
      match completeActs env s.files with
      | .error _ => none
      | .ok acts => some (s.finish env.clean (performActs s.files acts), [])
  | .killed env steps =>
      match completeActs env s.files with
      | .error _ => none
      | .ok acts =>
          if steps < acts.length then
            some ({ s with files := performActs s.files (acts.take steps), crashed := true },
              [])
          else none
  | .clears fails =>
      if fails then some (s, [])
      else
        some
          ({ s with
              files := clearInhibition false s.files
              latest := s.latest.map Fate.clear
              earlier := s.earlier.map Fate.clear }, [])
  | .dies => some ({ s with crashed := true }, [])

end Ledger

/-- Runs of the journal. -/
def journal : Machine Ledger JournalEvent Unit where
  step := Ledger.step

/-- **The law.**  As long as an operation is owed {lit}`check_inhibited` returns a record,
and when every operation was clean it returns none. -/
structure Accountable (s : Ledger) : Prop where
  remembered : s.Owed → ∀ boot, ∃ record, checkInhibited boot s.files = .ok (some record)
  quiet : s.Spotless → ∀ boot, checkInhibited boot s.files = .ok none

/-! ## The evidence -/

/-- What the journal and the slot hold in every run. -/
structure WellKept (s : Ledger) : Prop where
  current : ∀ record, s.files.current = some record →
    ∃ env, record = .obj (beginRecord env)
  slot : ∀ record, s.files.inhibition = some record → record.truthy = true
  begun : s.files.current.isSome = true → s.latest.isSome = true
  blamed : s.files.inhibition.isSome = true → s.crashed = true ∨ .unclean ∈ s.operations

/-- The journal or the slot holds something. -/
def JournalFiles.Evidence (f : JournalFiles) : Prop :=
  f.inhibition.isSome = true ∨ f.current.isSome = true

/-- **The evidence {lit}`check_inhibited` finds.** -/
theorem checkInhibited_iff {s : Ledger} (h : WellKept s) (boot : PyStr) :
    (s.files.Evidence → ∃ record, checkInhibited boot s.files = .ok (some record)) ∧
      (¬s.files.Evidence → checkInhibited boot s.files = .ok none) := by
  unfold JournalFiles.Evidence checkInhibited
  cases hslot : s.files.inhibition with
  | some inh =>
      have htruthy := h.slot inh hslot
      simp [htruthy]
  | none =>
      unfold checkInhibited.journaled
      cases hcurrent : s.files.current with
      | none => simp
      | some record =>
          obtain ⟨env, rfl⟩ := h.current record hcurrent
          have hopen : ((lookupField (py "completed") (beginRecord env)).getD .null).truthy =
              false := rfl
          simp [hopen]

/-- The law in terms of the evidence. -/
theorem accountable_iff {s : Ledger} (h : WellKept s) :
    Accountable s ↔ (s.Owed → s.files.Evidence) ∧ (s.Spotless → ¬s.files.Evidence) := by
  constructor
  · intro hs
    constructor
    · intro howed
      by_contra hno
      obtain ⟨record, hrecord⟩ := hs.remembered howed []
      rw [(checkInhibited_iff h []).2 hno] at hrecord
      cases hrecord
    · intro hspotless hevidence
      obtain ⟨record, hrecord⟩ := (checkInhibited_iff h []).1 hevidence
      rw [hs.quiet hspotless []] at hrecord
      cases hrecord
  · rintro ⟨howed, hspotless⟩
    exact ⟨fun h' boot => (checkInhibited_iff h boot).1 (howed h'),
      fun h' boot => (checkInhibited_iff h boot).2 (hspotless h')⟩

theorem wellKept_fresh : WellKept {} where
  current record h := by contradiction
  slot record h := by contradiction
  begun h := by contradiction
  blamed h := by contradiction

theorem accountable_fresh : Accountable {} := by
  refine (accountable_iff wellKept_fresh).mpr ⟨?_, ?_⟩
  · rintro ⟨f, hf, -⟩
    exact absurd hf List.not_mem_nil
  · rintro - (h | h) <;> contradiction

/-! ## One call of complete_operation -/

/-- The journal stays where it is. -/
def CompleteEnv.keeps (env : CompleteEnv) : Bool :=
  env.readFails || env.unlinkFails || (!env.clean && env.registry == some true)

/-- An inhibition is recorded. -/
def CompleteEnv.records (env : CompleteEnv) : Bool :=
  !env.readFails && !env.clean && env.registry == some false

/-- The last steps remove the journal unless that fails, and touch no slot. -/
theorem perform_finishActs (env : CompleteEnv) (fields : List (PyStr × Json))
    (s : JournalFiles) :
    (performActs s (finishActs env fields)).current =
        (if env.unlinkFails then s.current else none) ∧
      (performActs s (finishActs env fields)).inhibition = s.inhibition := by
  unfold finishActs performActs
  cases env.historyFails <;> cases env.unlinkFails <;> exact ⟨rfl, rfl⟩

/-- Before their end the last steps leave the journal and the slot alone. -/
theorem perform_finishActs_take (env : CompleteEnv) (fields : List (PyStr × Json))
    (s : JournalFiles) {n : Nat} (hn : n < (finishActs env fields).length) :
    (performActs s ((finishActs env fields).take n)).current = s.current ∧
      (performActs s ((finishActs env fields).take n)).inhibition = s.inhibition := by
  unfold finishActs performActs at *
  cases hh : env.historyFails <;> cases hu : env.unlinkFails <;>
    simp only [hh, hu, if_true, if_false, Bool.false_eq_true, List.append_nil, List.nil_append,
      List.singleton_append, List.length_cons, List.length_nil] at hn ⊢
  · rcases n with _ | _ | n
    · exact ⟨rfl, rfl⟩
    · exact ⟨rfl, rfl⟩
    · omega
  · obtain rfl : n = 0 := by omega
    exact ⟨rfl, rfl⟩
  · obtain rfl : n = 0 := by omega
    exact ⟨rfl, rfl⟩
  · omega

/-- **What one call does**: it removes the journal unless that fails or the inhibition of
an unclean operation cannot be recorded, and records that inhibition; cut short, it leaves
the journal. -/
theorem completeActs_spec (env : CompleteEnv) {s : JournalFiles}
    {fields : List (PyStr × Json)} (h : s.current = some (.obj fields)) :
    ∃ acts, completeActs env s = .ok acts ∧
      (performActs s acts).current = (if env.keeps then s.current else none) ∧
      (performActs s acts).inhibition =
        (if env.records then some (uncleanInhibition env fields) else s.inhibition) ∧
      ∀ n < acts.length, (performActs s (acts.take n)).current = s.current ∧
        ((performActs s (acts.take n)).inhibition = s.inhibition ∨
          (performActs s (acts.take n)).inhibition =
            some (uncleanInhibition env fields)) := by
  unfold completeActs CompleteEnv.keeps CompleteEnv.records
  rw [h]
  dsimp only
  cases hread : env.readFails with
  | true => exact ⟨[], rfl, by simp [performActs, h], by simp [performActs], by simp⟩
  | false =>
      have hplain : ∀ n < (finishActs env fields).length,
          (performActs s ((finishActs env fields).take n)).current = some (.obj fields) ∧
          ((performActs s ((finishActs env fields).take n)).inhibition = s.inhibition ∨
            (performActs s ((finishActs env fields).take n)).inhibition =
              some (uncleanInhibition env fields)) := by
        intro n hn
        obtain ⟨hjournal, hsame⟩ := perform_finishActs_take env fields s hn
        exact ⟨hjournal.trans h, Or.inl hsame⟩
      obtain ⟨hcurrent, hslot⟩ := perform_finishActs env fields s
      rw [h] at hcurrent
      cases hclean : env.clean with
      | true => exact ⟨_, rfl, by simpa using hcurrent, by simpa using hslot, hplain⟩
      | false =>
          cases hregistry : env.registry with
          | none => exact ⟨_, rfl, by simpa using hcurrent, by simpa using hslot, hplain⟩
          | some fails =>
              cases fails with
              | true =>
                  exact ⟨[], rfl, by simp [performActs, h], by simp [performActs], by simp⟩
              | false =>
                  obtain ⟨hcurrent', hslot'⟩ := perform_finishActs env fields
                    (JournalAct.exec s (.setInhibition (uncleanInhibition env fields)))
                  have hsame : (JournalAct.exec s
                      (.setInhibition (uncleanInhibition env fields))).current =
                        some (.obj fields) := h
                  rw [hsame] at hcurrent'
                  refine ⟨_, rfl, by simpa [performActs] using hcurrent',
                    by simpa [performActs, JournalAct.exec] using hslot', ?_⟩
                  intro n hn
                  cases n with
                  | zero => exact ⟨h, Or.inl rfl⟩
                  | succ n =>
                      have hlt : n < (finishActs env fields).length := by
                        simpa using hn
                      obtain ⟨hjournal, hkept⟩ := perform_finishActs_take env fields
                        (JournalAct.exec s (.setInhibition (uncleanInhibition env fields))) hlt
                      exact ⟨hjournal.trans hsame, Or.inr hkept⟩

/-- Without a journal a call does nothing. -/
theorem completeActs_of_none (env : CompleteEnv) {s : JournalFiles} (h : s.current = none) :
    completeActs env s = .ok [] := by
  unfold completeActs
  rw [h]

/-! ## The step lemmas -/

@[simp]
theorem Fate.complete_eq_clean (clean : Bool) (f : Fate) :
    f.complete clean = .clean ↔ clean = true ∧ f ≠ .unclean := by
  cases f <;> cases clean <;> decide

theorem Fate.complete_isOwed (clean : Bool) (f : Fate) :
    (f.complete clean).isOwed = true ↔ clean = false ∨ f = .unclean := by
  cases f <;> cases clean <;> decide

@[simp]
theorem Fate.clear_isOwed (f : Fate) : f.clear.isOwed = false := by
  cases f <;> rfl

@[simp]
theorem Fate.clear_eq_clean (f : Fate) : f.clear = .clean ↔ f = .clean := by
  cases f <;> decide

/-- When an event keeps the law: a completion that leaves the journal in place is not the
clean end of a run that was clean so far; one that removes it finds an inhibition or
records one, or is the clean end of the only operation that is owed. -/
def Justified (s : Ledger) : JournalEvent → Prop
  | .completes env =>
      s.files.current.isSome = true →
        if env.keeps then
          env.clean = true →
            ¬(s.crashed = false ∧ s.latest ≠ some .unclean ∧ ∀ f ∈ s.earlier, f = .clean)
        else
          s.files.inhibition.isSome = true ∨ env.records = true ∨
            env.clean = true ∧ s.latest ≠ some .unclean ∧
              ∀ f ∈ s.earlier, f.isOwed = false
  | _ => True

/-- Whether an event is justified. -/
instance (s : Ledger) : (e : JournalEvent) → Decidable (Justified s e)
  | .completes env => inferInstanceAs (Decidable (s.files.current.isSome = true →
      if env.keeps then
        env.clean = true →
          ¬(s.crashed = false ∧ s.latest ≠ some .unclean ∧ ∀ f ∈ s.earlier, f = .clean)
      else
        s.files.inhibition.isSome = true ∨ env.records = true ∨
          env.clean = true ∧ s.latest ≠ some .unclean ∧
            ∀ f ∈ s.earlier, f.isOwed = false))
  | .begins _ _ => isTrue trivial
  | .killed _ _ => isTrue trivial
  | .clears _ => isTrue trivial
  | .dies => isTrue trivial

/-- A begun operation keeps the files well kept. -/
theorem WellKept.start {s : Ledger} (h : WellKept s) (env : BeginEnv) :
    WellKept (s.start (beginOperation env s.files)) where
  current record hrecord := ⟨env, (Option.some.inj hrecord).symm⟩
  slot record hrecord := h.slot record hrecord
  begun _ := rfl
  blamed hslot := by
    rcases h.blamed hslot with hcrashed | hunclean
    · exact Or.inl hcrashed
    · exact Or.inr (List.mem_cons_of_mem _ hunclean)

theorem WellKept.crash {s : Ledger} (h : WellKept s) : WellKept { s with crashed := true } where
  current := h.current
  slot := h.slot
  begun := h.begun
  blamed _ := Or.inl rfl

/-- A completed operation keeps the files well kept. -/
theorem WellKept.finish {s : Ledger} (h : WellKept s) {env : CompleteEnv}
    {acts : List JournalAct} (hacts : completeActs env s.files = .ok acts) :
    WellKept (s.finish env.clean (performActs s.files acts)) := by
  cases hcurrent : s.files.current with
  | none =>
      rw [completeActs_of_none env hcurrent] at hacts
      obtain rfl := Except.ok.inj hacts
      have hsame : s.finish env.clean (performActs s.files []) = s := by
        unfold Ledger.finish
        simp [hcurrent, performActs]
      rw [hsame]
      exact h
  | some record =>
      obtain ⟨benv, rfl⟩ := h.current record hcurrent
      obtain ⟨acts', hacts', hjournal, hslot, -⟩ := completeActs_spec env hcurrent
      rw [hacts] at hacts'
      obtain rfl := Except.ok.inj hacts'
      obtain ⟨f, hf⟩ := Option.isSome_iff_exists.mp (h.begun (by rw [hcurrent]; rfl))
      refine ⟨?_, ?_, ?_, ?_⟩
      · intro record hrecord
        simp only [Ledger.finish, hjournal] at hrecord
        split at hrecord
        · exact h.current record hrecord
        · contradiction
      · intro record hrecord
        simp only [Ledger.finish, hslot] at hrecord
        split at hrecord
        · obtain rfl := Option.some.inj hrecord
          rfl
        · exact h.slot record hrecord
      · intro _
        simp [Ledger.finish, hcurrent, hf]
      · intro hsome
        simp only [Ledger.finish, hslot] at hsome
        have hops : (s.finish env.clean (performActs s.files acts)).operations =
            f.complete env.clean :: s.earlier := by
          simp [Ledger.operations, Ledger.finish, hcurrent, hf]
        rw [hops]
        split at hsome
        · rename_i hrecords
          have hunclean : env.clean = false := by
            simp only [CompleteEnv.records, Bool.and_eq_true, Bool.not_eq_true'] at hrecords
            exact hrecords.1.2
          refine Or.inr ?_
          rw [hunclean]
          cases f <;> exact List.mem_cons_self
        · rcases h.blamed hsome with hcrashed | hmem
          · exact Or.inl hcrashed
          · refine Or.inr ?_
            rw [Ledger.operations, hf] at hmem
            rcases List.mem_cons.mp hmem with rfl | hmem
            · exact List.mem_cons_self
            · exact List.mem_cons_of_mem _ hmem

/-- **An event keeps the files well kept.** -/
theorem wellKept_step {s s' : Ledger} {e : JournalEvent} {out : List Unit} (h : WellKept s)
    (hstep : s.step e = some (s', out)) : WellKept s' := by
  cases e with
  | begins env ending =>
      cases ending with
      | returns =>
          obtain ⟨rfl, -⟩ := Prod.mk.inj (Option.some.inj hstep)
          exact h.start env
      | fails =>
          obtain ⟨rfl, -⟩ := Prod.mk.inj (Option.some.inj hstep)
          exact h
      | killed renamed =>
          cases renamed with
          | false =>
              obtain ⟨rfl, -⟩ := Prod.mk.inj (Option.some.inj hstep)
              exact h.crash
          | true =>
              obtain ⟨rfl, -⟩ := Prod.mk.inj (Option.some.inj hstep)
              exact (h.start env).crash
  | completes env =>
      simp only [Ledger.step] at hstep
      split at hstep
      · contradiction
      · rename_i acts hacts
        obtain ⟨rfl, -⟩ := Prod.mk.inj (Option.some.inj hstep)
        exact h.finish hacts
  | killed env steps =>
      simp only [Ledger.step] at hstep
      split at hstep
      · contradiction
      · rename_i acts hacts
        split at hstep
        · rename_i hlt
          obtain ⟨rfl, -⟩ := Prod.mk.inj (Option.some.inj hstep)
          cases hcurrent : s.files.current with
          | none =>
              rw [completeActs_of_none env hcurrent] at hacts
              obtain rfl := Except.ok.inj hacts
              contradiction
          | some record =>
              obtain ⟨benv, rfl⟩ := h.current record hcurrent
              obtain ⟨acts', hacts', -, -, hcut⟩ := completeActs_spec env hcurrent
              rw [hacts] at hacts'
              obtain rfl := Except.ok.inj hacts'
              obtain ⟨hjournal, hslot⟩ := hcut steps hlt
              refine ⟨?_, ?_, ?_, fun _ => Or.inl rfl⟩
              · intro record hrecord
                dsimp only at hrecord
                rw [hjournal] at hrecord
                exact h.current record hrecord
              · intro record hrecord
                dsimp only at hrecord
                rcases hslot with hslot | hslot
                · rw [hslot] at hrecord
                  exact h.slot record hrecord
                · rw [hslot] at hrecord
                  obtain rfl := Option.some.inj hrecord
                  rfl
              · exact fun _ => h.begun (by rw [hcurrent]; rfl)
        · contradiction
  | clears fails =>
      cases fails with
      | true =>
          obtain ⟨rfl, -⟩ := Prod.mk.inj (Option.some.inj hstep)
          exact h
      | false =>
          obtain ⟨rfl, -⟩ := Prod.mk.inj (Option.some.inj hstep)
          refine ⟨h.current, fun _ hrecord => by contradiction, ?_, fun hslot => by
            contradiction⟩
          intro hsome
          simpa using h.begun hsome
  | dies =>
      obtain ⟨rfl, -⟩ := Prod.mk.inj (Option.some.inj hstep)
      exact h.crash

/-- Evidence is there whenever something is owed, when it is there, or nothing is owed. -/
theorem remembered_iff {slot records unclean owed : Prop} (clean : Bool) :
    ((clean = false ∨ unclean) ∨ owed → slot ∨ records) ↔
      slot ∨ records ∨ clean = true ∧ ¬unclean ∧ ¬owed := by
  by_cases hunclean : unclean <;> by_cases howed : owed <;> cases clean <;>
    simp [hunclean, howed]

/-- A completion that finds the journal keeps the law exactly when it is justified. -/
theorem finish_accountable_iff {s : Ledger} (h : WellKept s) {env : CompleteEnv}
    {fields : List (PyStr × Json)} (hcurrent : s.files.current = some (.obj fields))
    {acts : List JournalAct} (hacts : completeActs env s.files = .ok acts) :
    Accountable (s.finish env.clean (performActs s.files acts)) ↔
      Justified s (.completes env) := by
  obtain ⟨acts', hacts', hjournal, hslot, -⟩ := completeActs_spec env hcurrent
  rw [hacts] at hacts'
  obtain rfl := Except.ok.inj hacts'
  obtain ⟨f, hf⟩ := Option.isSome_iff_exists.mp (h.begun (by rw [hcurrent]; rfl))
  have hops : (s.finish env.clean (performActs s.files acts)).operations =
      f.complete env.clean :: s.earlier := by
    simp [Ledger.operations, Ledger.finish, hcurrent, hf]
  have howed : (s.finish env.clean (performActs s.files acts)).Owed ↔
      (env.clean = false ∨ f = .unclean) ∨ ∃ g ∈ s.earlier, g.isOwed = true := by
    unfold Ledger.Owed
    rw [hops, List.exists_mem_cons_iff, Fate.complete_isOwed]
  have hspotless : (s.finish env.clean (performActs s.files acts)).Spotless ↔
      s.crashed = false ∧ (env.clean = true ∧ f ≠ .unclean) ∧ ∀ g ∈ s.earlier, g = .clean := by
    unfold Ledger.Spotless
    rw [hops, List.forall_mem_cons, Fate.complete_eq_clean]
    rfl
  rw [accountable_iff (h.finish hacts), howed, hspotless]
  have hsome : s.files.current.isSome = true := by
    rw [hcurrent]
    rfl
  have hlatest : s.latest ≠ some .unclean ↔ f ≠ .unclean := by
    rw [hf]
    simp
  simp only [Justified, hsome, true_implies, hlatest]
  cases hkeeps : env.keeps with
  | true =>
      have hevidence : (s.finish env.clean (performActs s.files acts)).files.Evidence := by
        refine Or.inr ?_
        change (performActs s.files acts).current.isSome = true
        rw [hjournal, hkeeps, if_pos rfl]
        exact hsome
      simp only [hevidence, implies_true, true_and, not_true_eq_false, imp_false, if_true]
      tauto
  | false =>
      have hevidence : (s.finish env.clean (performActs s.files acts)).files.Evidence ↔
          s.files.inhibition.isSome = true ∨ env.records = true := by
        unfold JournalFiles.Evidence
        change (performActs s.files acts).inhibition.isSome = true ∨
          (performActs s.files acts).current.isSome = true ↔ _
        rw [hjournal, hslot, hkeeps]
        cases env.records <;> simp
      have hquiet : s.crashed = false ∧ (env.clean = true ∧ f ≠ .unclean) ∧
          (∀ g ∈ s.earlier, g = .clean) →
            ¬(s.files.inhibition.isSome = true ∨ env.records = true) := by
        rintro ⟨hcrashed, ⟨hclean, hne⟩, hall⟩ (hslot | hrecords)
        · rcases h.blamed hslot with hcrash | hmem
          · rw [hcrashed] at hcrash
            contradiction
          · rw [Ledger.operations, hf] at hmem
            rcases List.mem_cons.mp hmem with heq | hmem
            · exact hne heq.symm
            · exact absurd (hall _ hmem) (by decide)
        · simp [CompleteEnv.records, hclean] at hrecords
      rw [hevidence]
      simp only [Bool.false_eq_true, if_false]
      have hnone : (∀ g ∈ s.earlier, g.isOwed = false) ↔ ¬∃ g ∈ s.earlier, g.isOwed = true := by
        simp
      rw [hnone, and_iff_left hquiet]
      exact remembered_iff env.clean

/-- **When one event keeps the law.** -/
theorem step_accountable_iff {s s' : Ledger} {e : JournalEvent} {out : List Unit}
    (h : WellKept s) (hs : Accountable s) (hstep : s.step e = some (s', out)) :
    Accountable s' ↔ Justified s e := by
  have hs' := (accountable_iff h).mp hs
  have hkept := wellKept_step h hstep
  cases e with
  | begins env ending =>
      refine iff_of_true ?_ trivial
      cases ending with
      | returns =>
          obtain ⟨rfl, -⟩ := Prod.mk.inj (Option.some.inj hstep)
          refine (accountable_iff hkept).mpr ⟨fun _ => Or.inr rfl, fun hspotless => ?_⟩
          exact absurd (hspotless.2 .running List.mem_cons_self) (by decide)
      | fails =>
          obtain ⟨rfl, -⟩ := Prod.mk.inj (Option.some.inj hstep)
          exact hs
      | killed renamed =>
          cases renamed with
          | false =>
              obtain ⟨rfl, -⟩ := Prod.mk.inj (Option.some.inj hstep)
              exact (accountable_iff hkept).mpr ⟨hs'.1, fun hspotless => by cases hspotless.1⟩
          | true =>
              obtain ⟨rfl, -⟩ := Prod.mk.inj (Option.some.inj hstep)
              exact (accountable_iff hkept).mpr
                ⟨fun _ => Or.inr rfl, fun hspotless => by cases hspotless.1⟩
  | completes env =>
      simp only [Ledger.step] at hstep
      split at hstep
      · contradiction
      · rename_i acts hacts
        obtain ⟨rfl, -⟩ := Prod.mk.inj (Option.some.inj hstep)
        cases hcurrent : s.files.current with
        | none =>
            rw [completeActs_of_none env hcurrent] at hacts
            obtain rfl := Except.ok.inj hacts
            have hsame : s.finish env.clean (performActs s.files []) = s := by
              unfold Ledger.finish
              simp [hcurrent, performActs]
            rw [hsame]
            exact iff_of_true hs (by simp [Justified, hcurrent])
        | some record =>
            obtain ⟨benv, rfl⟩ := h.current record hcurrent
            exact finish_accountable_iff h hcurrent hacts
  | killed env steps =>
      simp only [Ledger.step] at hstep
      split at hstep
      · contradiction
      · rename_i acts hacts
        split at hstep
        · rename_i hlt
          obtain ⟨rfl, -⟩ := Prod.mk.inj (Option.some.inj hstep)
          refine iff_of_true ((accountable_iff hkept).mpr
            ⟨fun _ => Or.inr ?_, fun hspotless => by cases hspotless.1⟩) trivial
          cases hcurrent : s.files.current with
          | none =>
              rw [completeActs_of_none env hcurrent] at hacts
              obtain rfl := Except.ok.inj hacts
              contradiction
          | some record =>
              obtain ⟨benv, rfl⟩ := h.current record hcurrent
              obtain ⟨acts', hacts', -, -, hcut⟩ := completeActs_spec env hcurrent
              rw [hacts] at hacts'
              obtain rfl := Except.ok.inj hacts'
              dsimp only
              rw [(hcut steps hlt).1, hcurrent]
              rfl
        · contradiction
  | clears fails =>
      refine iff_of_true ?_ trivial
      cases fails with
      | true =>
          obtain ⟨rfl, -⟩ := Prod.mk.inj (Option.some.inj hstep)
          exact hs
      | false =>
          obtain ⟨rfl, -⟩ := Prod.mk.inj (Option.some.inj hstep)
          refine (accountable_iff hkept).mpr ⟨?_, ?_⟩
          · rintro ⟨f, hf, howed⟩
            have hcleared : ∃ g ∈ s.operations, Fate.clear g = f := by
              unfold Ledger.operations at hf ⊢
              cases hl : s.latest <;> simpa [hl, eq_comm] using hf
            obtain ⟨g, -, rfl⟩ := hcleared
            simp at howed
          · rintro ⟨hcrashed, hall⟩ (hslot | hjournal)
            · contradiction
            · have hspotless : s.Spotless := by
                refine ⟨hcrashed, fun g hg => ?_⟩
                have hmem : Fate.clear g ∈ (Ledger.operations
                    { s with
                      files := clearInhibition false s.files
                      latest := s.latest.map Fate.clear
                      earlier := s.earlier.map Fate.clear }) := by
                  unfold Ledger.operations at hg ⊢
                  cases hl : s.latest with
                  | none =>
                      simp only [hl, Option.toList_none, List.nil_append] at hg
                      simpa using ⟨g, hg, rfl⟩
                  | some f =>
                      simp only [hl, Option.toList_some, List.singleton_append,
                        List.mem_cons] at hg
                      rcases hg with rfl | hg
                      · simp
                      · simpa using Or.inr ⟨g, hg, rfl⟩
                exact (Fate.clear_eq_clean g).mp (hall _ hmem)
              exact hs'.2 hspotless (Or.inr hjournal)
  | dies =>
      obtain ⟨rfl, -⟩ := Prod.mk.inj (Option.some.inj hstep)
      exact iff_of_true
        ((accountable_iff hkept).mpr ⟨hs'.1, fun hspotless => by cases hspotless.1⟩) trivial

/-! ## Runs -/

/-- **The runs that keep the law.**  In every run of the journal, with registry writes and
file operations that fail and with crashes at every point, {lit}`check_inhibited` never
forgets an operation that has not completed cleanly, and reports nothing after a run that
was clean, exactly when every completion is justified. -/
theorem journal_accountable_iff {es : List JournalEvent} {t : Ledger} {out : List Unit}
    (hrun : journal.exec es {} = some (t, out)) :
    journal.Throughout Accountable es {} ↔ journal.Along Justified es {} :=
  Machine.throughout_iff_along_of_invariant (I := WellKept)
    (fun _ _ _ _ h hstep => wellKept_step h hstep)
    (fun _ _ _ _ h hs hstep => step_accountable_iff h hs hstep) wellKept_fresh
    accountable_fresh hrun

/-- The journal call of an activation. -/
def sampleBegin : BeginEnv where
  operation := py "activation"
  modelRef := py "r"
  artifact := py "a"
  generation := 1
  pid := 7
  bootToken := py "boot"
  now := .finite false 1 0

/-- A clean completion without a registry. -/
def sampleComplete : CompleteEnv where
  clean := true
  registry := none
  error := []
  now := .finite false 1 0
  bootToken := py "boot"

/-- A clean operation, an unclean one that is recorded, a restart, one more clean one
under the record, and an operation that the process does not survive. -/
def mixedOperations : List JournalEvent :=
  [.begins sampleBegin .returns, .completes sampleComplete,
    .begins sampleBegin .returns,
    .completes { sampleComplete with clean := false, registry := some false },
    .dies, .begins sampleBegin .returns, .completes sampleComplete, .clears false,
    .begins sampleBegin .returns, .dies]

/-- The law at a run of several operations, with the inhibition of the unclean one
cleared in between. -/
theorem journal_accountable_iff_mixed :
    ∃ t out, journal.exec mixedOperations {} = some (t, out) ∧
      t.operations.length = 4 ∧ journal.Throughout Accountable mixedOperations {} := by
  have hends : journal.endsIn mixedOperations {} (fun t => t.operations.length == 4) =
      true := by
    decide +kernel
  obtain ⟨t, out, hrun, hp⟩ := journal.exists_exec_of_endsIn hends
  have hjustified : journal.Along Justified mixedOperations {} := by
    decide +kernel
  exact ⟨t, out, hrun, eq_of_beq hp, (journal_accountable_iff hrun).mpr hjustified⟩

/-- **An operation begun while the journal holds another replaces its only evidence.**  When
the second one completes cleanly, the first is forgotten. -/
theorem overwritten_operation_forgotten :
    ∃ t out, journal.exec
        [.begins sampleBegin .returns, .begins sampleBegin .returns,
          .completes sampleComplete] {} = some (t, out) ∧
      t.Owed ∧ checkInhibited (py "boot") t.files = .ok none :=
  ⟨_, _, rfl, ⟨.running, List.mem_cons_of_mem _ List.mem_cons_self, rfl⟩, rfl⟩

/-- **An unclean completion without a registry leaves no evidence at all.** -/
theorem unclean_without_registry_forgotten :
    ∃ t out, journal.exec
        [.begins sampleBegin .returns,
          .completes { sampleComplete with clean := false }] {} = some (t, out) ∧
      t.Owed ∧ checkInhibited (py "boot") t.files = .ok none :=
  ⟨_, _, rfl, ⟨.unclean, List.mem_cons_self, rfl⟩, rfl⟩

end Runtime
end FrigateXdna
