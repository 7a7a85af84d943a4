import FrigateXdna.Library.Lexical
import FrigateXdna.Python.Json
import FrigateXdna.Python.Url

/-!
# Paths as posixpath reads them

{lit}`os.path` on a POSIX system: texts, and what they say about places.

Main results:

- Definition {lit}`joinPath`, {lit}`normPath`: {lit}`os.path.join` and {lit}`os.path.normpath`.
- Theorem {lit}`normPath_eq_render`: a normal path is the text of a place.
- Theorem {lit}`pathPlace_normPath`: a normal path leads where the path leads.
- Theorem {lit}`pathPlace_joinPath`: a joined path leads on from where the first part leads.
- Theorem {lit}`joinStr_prefix_iff`: a prefix of joined components, read on the components.
-/

namespace FrigateXdna
namespace Python

open Library

/-! ## Texts -/

/-- {lit}`os.path.isabs`. -/
def isAbs : PyStr → Bool
  | 47 :: _ => true
  | _ => false

/-- {lit}`os.path.join` of two paths. -/
def joinPath (a b : PyStr) : PyStr :=
  if isAbs b then b
  else if a.isEmpty || a.getLast? == some 47 then a ++ b
  else a ++ 47 :: b

/-- The slashes that a normal path keeps at its start: two stay two, more are one. -/
def initialSlashes : PyStr → Nat
  | 47 :: 47 :: 47 :: _ => 1
  | 47 :: 47 :: _ => 2
  | 47 :: _ => 1
  | _ => 0

/-- {lit}`"."`. -/
def dot : PyStr :=
  [46]

/-- {lit}`".."`. -/
def dotdot : PyStr :=
  [46, 46]

/-- One component in the loop of {lit}`os.path.normpath`. -/
def pushComponent (rooted : Bool) (comps : List PyStr) (comp : PyStr) : List PyStr :=
  if comp.isEmpty || comp == dot then comps
  else if comp != dotdot || (!rooted && comps.isEmpty) || comps.getLast? == some dotdot then
    comps ++ [comp]
  else comps.dropLast

/-- {lit}`os.path.normpath`. -/
def normPath (path : PyStr) : PyStr :=
  let slashes := initialSlashes path
  let comps := (splitAll 47 path).foldl (pushComponent (slashes != 0)) []
  let text := List.replicate slashes 47 ++ joinStr [47] comps
  if text.isEmpty then dot else text

/-! ## Splitting and joining -/

theorem splitAll_ne_nil (c : Nat) (s : PyStr) : splitAll c s ≠ [] := by
  induction s with
  | nil => simp [splitAll]
  | cons d rest ih =>
      unfold splitAll
      split
      · simp
      · split <;> simp

/-- A separator splits what stands before it from what stands behind it. -/
theorem splitAll_append (c : Nat) (a b : PyStr) :
    splitAll c (a ++ c :: b) = splitAll c a ++ splitAll c b := by
  induction a with
  | nil =>
      cases hb : splitAll c b with
      | nil => exact absurd hb (splitAll_ne_nil c b)
      | cons part parts => simp [splitAll, hb]
  | cons d rest ih =>
      rw [List.cons_append, splitAll, ih, splitAll]
      cases hrest : splitAll c rest with
      | nil => exact absurd hrest (splitAll_ne_nil c rest)
      | cons part parts =>
          simp only [List.cons_append]
          split <;> rfl

/-- Text without the separator is one part. -/
theorem splitAll_of_notMem {c : Nat} {s : PyStr} (h : c ∉ s) : splitAll c s = [s] := by
  induction s with
  | nil => rfl
  | cons d rest ih =>
      have hd : d ≠ c := fun e => h (e ▸ List.mem_cons_self)
      have hrest := ih fun hmem => h (List.mem_cons_of_mem d hmem)
      simp [splitAll, hrest, hd]

/-- No part contains the separator. -/
theorem notMem_of_mem_splitAll {c : Nat} {s part : PyStr} (h : part ∈ splitAll c s) :
    c ∉ part := by
  induction s generalizing part with
  | nil =>
      obtain rfl : part = [] := by simpa [splitAll] using h
      exact List.not_mem_nil
  | cons d rest ih =>
      unfold splitAll at h
      cases hrest : splitAll c rest with
      | nil => exact absurd hrest (splitAll_ne_nil c rest)
      | cons first parts =>
          rw [hrest] at h ih
          dsimp only at h
          split at h
          · rcases List.mem_cons.mp h with rfl | hmem
            · exact List.not_mem_nil
            · exact ih hmem
          · rename_i hd
            rcases List.mem_cons.mp h with rfl | hmem
            · intro hc
              rcases List.mem_cons.mp hc with rfl | hc
              · exact hd rfl
              · exact ih List.mem_cons_self hc
            · exact ih (List.mem_cons_of_mem _ hmem)

/-- Joined parts split again. -/
theorem splitAll_joinStr {c : Nat} {parts : List PyStr} (hne : parts ≠ [])
    (h : ∀ part ∈ parts, c ∉ part) : splitAll c (joinStr [c] parts) = parts := by
  induction parts with
  | nil => contradiction
  | cons part rest ih =>
      cases rest with
      | nil => exact splitAll_of_notMem (h part List.mem_cons_self)
      | cons next rest =>
          have hjoin : joinStr [c] (part :: next :: rest) =
              part ++ c :: joinStr [c] (next :: rest) := by
            simp [joinStr]
          rw [hjoin, splitAll_append, splitAll_of_notMem (h part List.mem_cons_self),
            ih (List.cons_ne_nil _ _) fun p hp => h p (List.mem_cons_of_mem _ hp)]
          rfl

/-! ## Steps and places -/

/-- The step of a component; empty ones and dots are none. -/
def componentStep (comp : PyStr) : Option (Step PyStr) :=
  if comp.isEmpty || comp == dot then none
  else if comp == dotdot then some .up
  else some (.name comp)

/-- The component of a step. -/
def stepText : Step PyStr → PyStr
  | .up => dotdot
  | .name n => n

/-- The steps of a path. -/
def pathSteps (path : PyStr) : List (Step PyStr) :=
  (splitAll 47 path).filterMap componentStep

/-- Where a path leads. -/
def pathPlace (path : PyStr) : Place PyStr :=
  Place.start.walk (initialSlashes path != 0) (pathSteps path)

/-- A name that a component can have. -/
def IsFileName (n : PyStr) : Prop :=
  n ≠ [] ∧ n ≠ dot ∧ n ≠ dotdot ∧ 47 ∉ n

/-- The normal text of a place. -/
def render (slashes : Nat) (p : Place PyStr) : PyStr :=
  let text := List.replicate slashes 47 ++ joinStr [47] (p.steps.map stepText)
  if text.isEmpty then dot else text

/-- A place that a path on a POSIX system can lead to. -/
structure IsPosix (slashes : Nat) (p : Place PyStr) : Prop where
  few : slashes ≤ 2
  rooted : slashes ≠ 0 → p.ups = 0
  names : ∀ n ∈ p.names, IsFileName n

theorem initialSlashes_le (path : PyStr) : initialSlashes path ≤ 2 := by
  unfold initialSlashes
  split <;> omega

/-- The names on a path are names that a component can have. -/
theorem isFileName_of_mem {path n : PyStr} (h : Step.name n ∈ pathSteps path) :
    IsFileName n := by
  obtain ⟨comp, hcomp, hstep⟩ := List.mem_filterMap.mp h
  have hslash := notMem_of_mem_splitAll hcomp
  unfold componentStep at hstep
  split at hstep
  · contradiction
  · rename_i hdot
    split at hstep
    · have hup := Option.some.inj hstep
      contradiction
    · rename_i hdotdot
      obtain rfl := Step.name.inj (Option.some.inj hstep)
      simp only [Bool.or_eq_true, List.isEmpty_iff, beq_iff_eq, not_or] at hdot
      exact ⟨hdot.1, hdot.2, by simpa using hdotdot, hslash⟩

theorem isPosix_pathPlace (path : PyStr) : IsPosix (initialSlashes path) (pathPlace path) where
  few := initialSlashes_le path
  rooted h := by
    have hrooted : (initialSlashes path != 0) = true := by simpa using h
    rw [pathPlace, hrooted, Place.walk_rooted_ups]
    rfl
  names n hn := by
    rcases Place.mem_names_walk hn with hmem | hmem
    · exact absurd hmem List.not_mem_nil
    · exact isFileName_of_mem hmem

/-! ## Normal paths -/

/-- The step that a component makes, if it makes one. -/
def stepBy (rooted : Bool) (p : Place PyStr) (comp : PyStr) : Place PyStr :=
  ((componentStep comp).map (p.step rooted)).getD p

/-- The components that the loop keeps are those of a place. -/
theorem pushComponent_eq {rooted : Bool} {p : Place PyStr} (hroot : rooted = true → p.ups = 0)
    (hnames : dotdot ∉ p.names) (comp : PyStr) :
    pushComponent rooted (p.steps.map stepText) comp =
      (stepBy rooted p comp).steps.map stepText := by
  unfold pushComponent stepBy componentStep
  by_cases hskip : (comp.isEmpty || comp == dot) = true
  · rw [if_pos hskip, if_pos hskip]
    rfl
  rw [if_neg hskip, if_neg hskip]
  by_cases hup : comp = dotdot
  · subst hup
    simp only [bne_self_eq_false, Bool.false_or, beq_self_eq_true, if_true, Option.map_some,
      Option.getD_some]
    show _ = (p.parent rooted).steps.map stepText
    unfold Place.parent
    by_cases hempty : p.names = []
    · simp only [hempty, List.isEmpty_nil, if_true]
      cases rooted with
      | true =>
          have hsteps : p.steps = [] := by simp [Place.steps, hempty, hroot rfl]
          simp [hsteps]
      | false =>
          have hsteps : p.steps.map stepText = List.replicate p.ups dotdot := by
            simp [Place.steps, hempty, stepText]
          have hlast : (List.replicate p.ups dotdot).isEmpty = true ∨
              (List.replicate p.ups dotdot).getLast? = some dotdot := by
            cases h : p.ups with
            | zero => exact Or.inl rfl
            | succ n => exact Or.inr (by simp [List.getLast?_replicate])
          have hkeep : ((!false && (p.steps.map stepText).isEmpty) ||
              (p.steps.map stepText).getLast? == some dotdot) = true := by
            rw [hsteps]
            rcases hlast with h | h
            · simp [h]
            · simp [h]
          rw [if_pos hkeep, hsteps]
          simp [Place.steps, stepText, List.replicate_succ']
    · have hisEmpty : p.names.isEmpty = false := by simpa using hempty
      obtain ⟨front, last, hfront⟩ := List.eq_nil_or_concat p.names |>.resolve_left hempty
      have hne : last ≠ dotdot := by
        rintro rfl
        exact hnames (by rw [hfront]; simp)
      have hsteps : p.steps.map stepText =
          (List.replicate p.ups dotdot ++ front) ++ [last] := by
        rw [Place.steps, hfront]
        simp [stepText, Function.comp_def]
      have hdrop : ¬ ((!rooted && (p.steps.map stepText).isEmpty) ||
          (p.steps.map stepText).getLast? == some dotdot) = true := by
        rw [hsteps]
        simp [hne]
      rw [if_neg hdrop, hsteps, hisEmpty, hfront]
      simp [Place.steps, stepText, Function.comp_def]
  · have hne : (comp != dotdot) = true := by simpa using hup
    have hnot : (comp == dotdot) = false := by simpa using hup
    simp only [hne, hnot, Bool.true_or, if_true, Bool.false_eq_true, if_false, Option.map_some,
      Option.getD_some]
    show _ = (⟨p.ups, p.names ++ [comp]⟩ : Place PyStr).steps.map stepText
    simp [Place.steps, stepText]

/-- The components that the loop keeps in the end. -/
theorem foldl_pushComponent {rooted : Bool} {p : Place PyStr}
    (hroot : rooted = true → p.ups = 0) (hnames : dotdot ∉ p.names) (comps : List PyStr) :
    comps.foldl (pushComponent rooted) (p.steps.map stepText) =
      (p.walk rooted (comps.filterMap componentStep)).steps.map stepText := by
  induction comps generalizing p with
  | nil => rfl
  | cons comp rest ih =>
      rw [List.foldl_cons, pushComponent_eq hroot hnames, List.filterMap_cons]
      cases hcomp : componentStep comp with
      | none =>
          rw [show stepBy rooted p comp = p by simp [stepBy, hcomp]]
          exact ih hroot hnames
      | some s =>
          rw [show stepBy rooted p comp = p.walk rooted [s] by simp [stepBy, hcomp]]
          refine (ih (fun h => ?_) fun hmem => ?_).trans rfl
          · subst h
            rw [Place.walk_rooted_ups, hroot rfl]
          · rcases Place.mem_names_walk hmem with hold | hnew
            · exact hnames hold
            · obtain rfl := List.mem_singleton.mp hnew
              unfold componentStep at hcomp
              split_ifs at hcomp with hskip hup
              · have hstep := Option.some.inj hcomp
                contradiction
              · exact hup (by simpa using Step.name.inj (Option.some.inj hcomp))

/-- **A normal path is the text of a place.** -/
theorem normPath_eq_render (path : PyStr) :
    normPath path = render (initialSlashes path) (pathPlace path) := by
  have hcomps := @foldl_pushComponent (initialSlashes path != 0) Place.start (fun _ => rfl)
    List.not_mem_nil (splitAll 47 path)
  unfold normPath render pathPlace pathSteps
  rw [← hcomps]
  rfl

/-! ## Reading a normal path -/

theorem pathSteps_slash (rest : PyStr) : pathSteps (47 :: rest) = pathSteps rest := by
  have hsplit := splitAll_append 47 [] rest
  rw [List.nil_append] at hsplit
  rw [pathSteps, hsplit]
  rfl

theorem pathSteps_replicate (n : Nat) (rest : PyStr) :
    pathSteps (List.replicate n 47 ++ rest) = pathSteps rest := by
  induction n with
  | zero => rfl
  | succ n ih => rw [List.replicate_succ, List.cons_append, pathSteps_slash, ih]

theorem componentStep_stepText {s : Step PyStr} (h : ∀ n, s = .name n → IsFileName n) :
    componentStep (stepText s) = some s := by
  cases s with
  | up => rfl
  | name n =>
      obtain ⟨hnil, hdot, hdotdot, -⟩ := h n rfl
      simp [componentStep, stepText, hnil, hdot, hdotdot]

namespace IsPosix

variable {slashes : Nat} {p : Place PyStr}

/-- The steps of the place are ups and names. -/
theorem step_name (h : IsPosix slashes p) {s : Step PyStr} (hs : s ∈ p.steps) :
    ∀ n, s = .name n → IsFileName n := by
  rintro n rfl
  rcases List.mem_append.mp hs with hup | hname
  · exact absurd (List.eq_of_mem_replicate hup) (by simp)
  · obtain ⟨m, hm, heq⟩ := List.mem_map.mp hname
    obtain rfl := Step.name.inj heq
    exact h.names m hm

/-- The components of the place are not empty and hold no slash. -/
theorem text_shape (h : IsPosix slashes p) {c : PyStr} (hc : c ∈ p.steps.map stepText) :
    c ≠ [] ∧ c ≠ dot ∧ 47 ∉ c := by
  obtain ⟨s, hs, rfl⟩ := List.mem_map.mp hc
  cases s with
  | up => simp [stepText, dotdot, dot]
  | name n =>
      obtain ⟨hnil, hdot, -, hslash⟩ := h.step_name hs n rfl
      exact ⟨hnil, hdot, hslash⟩

theorem splitAll_comps (h : IsPosix slashes p) (hne : p.steps ≠ []) :
    splitAll 47 (joinStr [47] (p.steps.map stepText)) = p.steps.map stepText :=
  splitAll_joinStr (by simpa using hne) fun _ hc => (h.text_shape hc).2.2

theorem filterMap_comps (h : IsPosix slashes p) :
    (p.steps.map stepText).filterMap componentStep = p.steps := by
  have hall : ∀ s ∈ p.steps, (componentStep ∘ stepText) s = some s := fun s hs =>
    componentStep_stepText (h.step_name hs)
  rw [List.filterMap_map, List.filterMap_congr hall]
  exact List.filterMap_some

/-- The components name the steps. -/
theorem pathSteps_comps (h : IsPosix slashes p) :
    pathSteps (joinStr [47] (p.steps.map stepText)) = p.steps := by
  by_cases hne : p.steps = []
  · rw [hne]
    rfl
  · rw [pathSteps, h.splitAll_comps hne, h.filterMap_comps]

/-- The joined components do not start with a slash. -/
theorem comps_head (h : IsPosix slashes p) :
    (joinStr [47] (p.steps.map stepText)).head? ≠ some 47 := by
  cases hcomps : p.steps.map stepText with
  | nil => simp [joinStr]
  | cons c rest =>
      obtain ⟨hnil, -, hslash⟩ := h.text_shape (c := c) (by rw [hcomps]; exact List.mem_cons_self)
      cases c with
      | nil => contradiction
      | cons x xs =>
          have hx : x ≠ 47 := fun e => hslash (e ▸ List.mem_cons_self)
          cases rest <;> simpa [joinStr] using hx

theorem initialSlashes_comps {t : PyStr} (ht : t.head? ≠ some 47) {n : Nat} (hn : n ≤ 2) :
    initialSlashes (List.replicate n 47 ++ t) = n := by
  have hcases : n = 0 ∨ n = 1 ∨ n = 2 := by omega
  cases t with
  | nil => rcases hcases with rfl | rfl | rfl <;> rfl
  | cons c rest =>
      have hc : c ≠ 47 := by simpa using ht
      rcases hcases with rfl | rfl | rfl
      · unfold initialSlashes
        split <;> simp_all
      · unfold initialSlashes
        split <;> simp_all
      · unfold initialSlashes
        split
        · simp_all
        · rfl
        · rename_i tail _ hno heq
          exact absurd (List.cons.inj heq).2.symm (hno (c :: rest))
        · simp_all

/-- The text of a place with a step. -/
theorem render_of_steps (h : IsPosix slashes p) (hne : p.steps ≠ []) :
    render slashes p = List.replicate slashes 47 ++ joinStr [47] (p.steps.map stepText) := by
  have hcomps : joinStr [47] (p.steps.map stepText) ≠ [] := by
    intro hnil
    have hsteps := h.pathSteps_comps
    rw [hnil] at hsteps
    exact hne hsteps.symm
  simp [render, hcomps]

/-- The text of a place keeps its slashes. -/
theorem initialSlashes_render (h : IsPosix slashes p) :
    initialSlashes (render slashes p) = slashes := by
  unfold render
  dsimp only
  split
  · rename_i hempty
    rw [List.isEmpty_iff, List.append_eq_nil_iff, List.replicate_eq_nil_iff] at hempty
    rw [hempty.1]
    rfl
  · exact initialSlashes_comps h.comps_head h.few

/-- The text of a place names its steps. -/
theorem pathSteps_render (h : IsPosix slashes p) : pathSteps (render slashes p) = p.steps := by
  unfold render
  dsimp only
  split
  · rename_i hempty
    rw [List.isEmpty_iff, List.append_eq_nil_iff] at hempty
    rw [← h.pathSteps_comps, hempty.2]
    rfl
  · rw [pathSteps_replicate, h.pathSteps_comps]

/-- **The text of a place leads to it.** -/
theorem pathPlace_render (h : IsPosix slashes p) : pathPlace (render slashes p) = p := by
  rw [pathPlace, h.initialSlashes_render, h.pathSteps_render]
  exact Place.walk_steps fun hrooted => h.rooted (by simpa using hrooted)

end IsPosix

/-- The steps of a normal path are those of its place. -/
theorem pathSteps_normPath (path : PyStr) : pathSteps (normPath path) = (pathPlace path).steps := by
  rw [normPath_eq_render, (isPosix_pathPlace path).pathSteps_render]

theorem initialSlashes_normPath (path : PyStr) :
    initialSlashes (normPath path) = initialSlashes path := by
  rw [normPath_eq_render, (isPosix_pathPlace path).initialSlashes_render]

/-- **A normal path leads where the path leads.** -/
theorem pathPlace_normPath (path : PyStr) : pathPlace (normPath path) = pathPlace path := by
  rw [normPath_eq_render, (isPosix_pathPlace path).pathPlace_render]

/-- A normal path is normal. -/
theorem normPath_normPath (path : PyStr) : normPath (normPath path) = normPath path := by
  rw [normPath_eq_render (normPath path), initialSlashes_normPath, pathPlace_normPath,
    ← normPath_eq_render]

/-! ## Joined paths -/

theorem isAbs_iff {path : PyStr} : isAbs path = true ↔ path.head? = some 47 := by
  cases path with
  | nil => simp [isAbs]
  | cons c rest =>
      unfold isAbs
      split <;> simp_all

theorem initialSlashes_of_relative {path : PyStr} (h : isAbs path = false) :
    initialSlashes path = 0 := by
  have hhead : path.head? ≠ some 47 := fun heq => by
    rw [isAbs_iff.mpr heq] at h
    contradiction
  exact IsPosix.initialSlashes_comps hhead (n := 0) (by omega)

/-- The slashes of a path, read on its first three characters. -/
theorem initialSlashes_cons (c : Nat) (rest : PyStr) :
    initialSlashes (c :: rest) =
      if c = 47 then if rest.head? = some 47 ∧ rest.tail.head? ≠ some 47 then 2 else 1 else 0 := by
  by_cases hc : c = 47
  · subst hc
    rw [if_pos rfl]
    rcases rest with _ | ⟨y, _ | ⟨z, rest⟩⟩
    · rfl
    · by_cases hy : y = 47
      · subst hy
        rfl
      · rw [if_neg (by simp [hy])]
        exact IsPosix.initialSlashes_comps (t := [y]) (by simp [hy]) (n := 1) (by omega)
    · by_cases hy : y = 47
      · subst hy
        by_cases hz : z = 47
        · subst hz
          rfl
        · rw [if_pos (by simp [hz])]
          exact IsPosix.initialSlashes_comps (t := z :: rest) (by simp [hz]) (n := 2) (by omega)
      · rw [if_neg (by simp [hy])]
        exact IsPosix.initialSlashes_comps (t := y :: z :: rest) (by simp [hy]) (n := 1) (by omega)
  · rw [if_neg hc]
    exact IsPosix.initialSlashes_comps (t := c :: rest) (by simp [hc]) (n := 0) (by omega)

/-- Text behind a path that brings no slash of its own changes no slash at its start. -/
theorem initialSlashes_append {a : PyStr} (ha : a ≠ []) {b : PyStr}
    (hb : b.head? ≠ some 47) : initialSlashes (a ++ b) = initialSlashes a := by
  rcases a with _ | ⟨x, _ | ⟨y, _ | ⟨z, rest⟩⟩⟩
  · contradiction
  · simp [initialSlashes_cons, hb]
  · simp [initialSlashes_cons, hb]
  · simp [initialSlashes_cons]

/-- A joined path has the slashes of its first part. -/
theorem initialSlashes_joinPath (a : PyStr) {b : PyStr} (hb : isAbs b = false) :
    initialSlashes (joinPath a b) = initialSlashes a := by
  have hhead : b.head? ≠ some 47 := by
    intro heq
    rw [isAbs_iff.mpr heq] at hb
    contradiction
  unfold joinPath
  rw [hb, if_neg Bool.false_ne_true]
  by_cases ha : a = []
  · subst ha
    exact initialSlashes_of_relative hb
  · split
    · exact initialSlashes_append ha hhead
    · rename_i hslash
      have hlast : a.getLast? ≠ some 47 := by simpa [ha] using hslash
      rcases a with _ | ⟨x, _ | ⟨y, _ | ⟨z, rest⟩⟩⟩
      · contradiction
      · have hx : x ≠ 47 := by simpa using hlast
        simp [initialSlashes_cons, hx]
      · have hy : y ≠ 47 := by simpa using hlast
        simp [initialSlashes_cons, hy]
      · simp [initialSlashes_cons]

/-- The steps of a joined path are those of its parts. -/
theorem pathSteps_joinPath (a : PyStr) {b : PyStr} (hb : isAbs b = false) :
    pathSteps (joinPath a b) = pathSteps a ++ pathSteps b := by
  unfold joinPath
  rw [hb, if_neg Bool.false_ne_true]
  split
  · rename_i hslash
    rcases List.eq_nil_or_concat a with rfl | ⟨front, last, rfl⟩
    · rfl
    · obtain rfl : last = 47 := by simpa using hslash
      have hfront : pathSteps (front ++ [47]) = pathSteps front := by
        rw [pathSteps, splitAll_append, List.filterMap_append]
        simp [splitAll, componentStep, pathSteps]
      rw [List.concat_eq_append, hfront, List.append_assoc, List.singleton_append, pathSteps,
        splitAll_append, List.filterMap_append]
      rfl
  · rw [pathSteps, splitAll_append, List.filterMap_append]
    rfl

/-- **A joined path leads on** from where its first part leads. -/
theorem pathPlace_joinPath (a : PyStr) {b : PyStr} (hb : isAbs b = false) :
    pathPlace (joinPath a b) =
      (pathPlace a).follow (initialSlashes a != 0) (pathPlace b) := by
  rw [pathPlace, initialSlashes_joinPath a hb, pathSteps_joinPath a hb, Place.walk_append,
    Place.walk_eq_follow, pathPlace, pathPlace, initialSlashes_of_relative hb]
  rfl

/-! ## Prefixes of normal paths -/

/-- Joined components before a slash are the first components. -/
theorem joinStr_prefix_iff {first all : List PyStr} (hne : first ≠ [])
    (hfirst : ∀ c ∈ first, 47 ∉ c) (hall : ∀ c ∈ all, 47 ∉ c) :
    joinStr [47] first ++ [47] <+: joinStr [47] all ↔ ∃ more, more ≠ [] ∧ all = first ++ more := by
  constructor
  · rintro ⟨tail, htail⟩
    have hallne : all ≠ [] := by
      rintro rfl
      simp [joinStr] at htail
    refine ⟨splitAll 47 tail, splitAll_ne_nil 47 tail, ?_⟩
    rw [← splitAll_joinStr hallne hall, ← htail, List.append_assoc, List.singleton_append,
      splitAll_append, splitAll_joinStr hne hfirst]
  · rintro ⟨more, hmore, rfl⟩
    refine ⟨joinStr [47] more, ?_⟩
    clear hall
    induction first with
    | nil => contradiction
    | cons c rest ih =>
        cases rest with
        | nil =>
            cases more with
            | nil => contradiction
            | cons m ms => simp [joinStr]
        | cons d rest =>
            have hrest := ih (List.cons_ne_nil _ _) fun e he => hfirst e (List.mem_cons_of_mem _ he)
            simp only [List.cons_append, joinStr, List.append_assoc] at hrest ⊢
            rw [hrest]

/-- A place whose steps lead on from another's has a text that leads on, behind a slash. -/
theorem IsPosix.render_prefix_iff {slashes : Nat} {p q : Place PyStr} (hp : IsPosix slashes p)
    (hq : IsPosix slashes q) (hne : p.steps ≠ []) :
    render slashes p ++ [47] <+: render slashes q ↔
      ∃ more, more ≠ [] ∧ q.steps = p.steps ++ more := by
  have hcomps : p.steps.map stepText ≠ [] := by simpa using hne
  have hslash : ∀ {r : Place PyStr}, IsPosix slashes r →
      ∀ c ∈ r.steps.map stepText, 47 ∉ c := fun hr c hc => (hr.text_shape hc).2.2
  by_cases hqne : q.steps = []
  · have hempty : ¬ ∃ more, more ≠ [] ∧ q.steps = p.steps ++ more := by
      rintro ⟨more, -, hmore⟩
      rw [hqne] at hmore
      exact hne (List.append_eq_nil_iff.mp hmore.symm).1
    refine iff_of_false ?_ hempty
    rintro ⟨tail, htail⟩
    have hsteps := congrArg pathSteps htail
    rw [hq.pathSteps_render, hqne, List.append_assoc, List.singleton_append, pathSteps,
      splitAll_append, List.filterMap_append] at hsteps
    have hnil := (List.append_eq_nil_iff.mp hsteps).1
    exact hne (hp.pathSteps_render.symm.trans hnil)
  · rw [hp.render_of_steps hne, hq.render_of_steps hqne, List.append_assoc,
      List.prefix_append_right_inj, joinStr_prefix_iff hcomps (hslash hp) (hslash hq)]
    constructor
    · rintro ⟨more, hmore, heq⟩
      have hsteps := congrArg (List.filterMap componentStep) heq
      rw [List.filterMap_append, hp.filterMap_comps, hq.filterMap_comps] at hsteps
      refine ⟨more.filterMap componentStep, fun hnil => hmore ?_, hsteps⟩
      rw [hnil, List.append_nil] at hsteps
      rw [hsteps] at heq
      simpa using heq
    · rintro ⟨more, hmore, heq⟩
      exact ⟨more.map stepText, by simpa using hmore, by rw [heq, List.map_append]⟩

/-- No text leads on behind the text of a start and a slash. -/
theorem IsPosix.not_prefix_render {slashes : Nat} {p q : Place PyStr} (hq : IsPosix slashes q)
    (hempty : p.steps = []) : ¬ render slashes p ++ [47] <+: render slashes q := by
  rintro ⟨tail, htail⟩
  by_cases hslashes : slashes = 0
  · subst hslashes
    have hp : render 0 p = dot := by simp [render, hempty, joinStr]
    rw [hp] at htail
    by_cases hqne : q.steps = []
    · have hdot : render 0 q = dot := by simp [render, hqne, joinStr]
      rw [hdot] at htail
      exact absurd (congrArg List.length htail) (by simp [dot])
    · rw [hq.render_of_steps hqne, List.replicate_zero, List.nil_append] at htail
      have hsplit := hq.splitAll_comps hqne
      rw [← htail, List.append_assoc, List.singleton_append, splitAll_append] at hsplit
      have hmem : dot ∈ q.steps.map stepText := by
        rw [← hsplit]
        exact List.mem_append_left _ (by decide)
      exact (hq.text_shape hmem).2.1 rfl
  · have hp : render slashes p = List.replicate slashes 47 := by
      simp [render, hempty, joinStr, hslashes]
    have hq' : render slashes q =
        List.replicate slashes 47 ++ joinStr [47] (q.steps.map stepText) := by
      simp [render, hslashes]
    rw [hp, hq', List.append_assoc, List.append_right_inj] at htail
    exact hq.comps_head (by rw [← htail]; rfl)

end Python
end FrigateXdna
