import FrigateXdna.Python.Text

/-!
# Model bindings per routing identity and generation

The session table maps a ROUTER identity to the content it was bound to.  The
table is the dictionary {lit}`_by_identity` as a list with one binding for each
identity, in insertion order.  Times are whole nanoseconds.

Main results:

- Theorem {lit}`SessionTable.get_bind`, {lit}`SessionTable.get_touch`: what an
  update does to every identity.
- Theorem {lit}`SessionTable.mem_bind`, {lit}`SessionTable.mem_touch`,
  {lit}`SessionTable.mem_invalidate`: what an update does to the rows.
-/

namespace FrigateXdna
namespace Transport

open Python

/-- {lit}`QUIESCENCE_S`. -/
def quiescence : Int := 5000000000

/-- {lit}`Binding`. -/
structure Binding where
  identity : Bytes
  sourceSha256 : PyStr
  servingDigest : PyStr
  compileKey : PyStr
  generation : Int
  createdAt : Int
  lastUsedAt : Int
deriving DecidableEq, Repr

/-- {lit}`SessionTable`. -/
structure SessionTable where
  byIdentity : List Binding := []
  superseded : List PyStr := []
deriving DecidableEq, Repr

namespace SessionTable

/-- {lit}`get`. -/
def get (t : SessionTable) (identity : Bytes) : Option Binding :=
  t.byIdentity.find? fun b => b.identity == identity

/-- {lit}`self._by_identity[identity] = b`. -/
def put (b : Binding) : List Binding → List Binding
  | [] => [b]
  | c :: rest => if c.identity = b.identity then b :: rest else c :: put b rest

/-- {lit}`bind`. -/
def bind (t : SessionTable) (b : Binding) : SessionTable :=
  { t with byIdentity := put b t.byIdentity }

/-- {lit}`count`. -/
def count (t : SessionTable) : Nat :=
  t.byIdentity.length

/-- {lit}`touch`. -/
def touch (t : SessionTable) (identity : Bytes) (now : Int) : SessionTable :=
  { t with
    byIdentity := t.byIdentity.map fun b =>
      if b.identity = identity then { b with lastUsedAt := now } else b }

/-- {lit}`invalidate_generation`. -/
def invalidateGeneration (t : SessionTable) (generation : Int) : SessionTable :=
  { t with byIdentity := t.byIdentity.filter fun b => !(b.generation == generation) }

/-- {lit}`is_quiescent`. -/
def isQuiescent (t : SessionTable) (generation now : Int) : Bool :=
  t.byIdentity.all fun b =>
    !(b.generation == generation && decide (now - b.lastUsedAt < quiescence))

/-- {lit}`has_active_traffic`. -/
def hasActiveTraffic (t : SessionTable) (generation now : Int) : Bool :=
  !t.isQuiescent generation now

/-- {lit}`mark_superseded`. -/
def markSuperseded (t : SessionTable) (compileKey : PyStr) : SessionTable :=
  if t.superseded.contains compileKey then t
  else { t with superseded := compileKey :: t.superseded }

/-- {lit}`is_superseded`. -/
def isSuperseded (t : SessionTable) (compileKey : PyStr) : Bool :=
  t.superseded.contains compileKey

/-! ## What the updates do to every identity -/

theorem find?_put (b : Binding) (rows : List Binding) (identity : Bytes) :
    (put b rows).find? (fun c => c.identity == identity) =
      if b.identity = identity then some b
      else rows.find? fun c => c.identity == identity := by
  induction rows with
  | nil => by_cases h : b.identity = identity <;> simp [put, h]
  | cons c rest ih =>
      by_cases hc : c.identity = b.identity
      · by_cases h : b.identity = identity
        · simp [put, hc, h]
        · have : ¬c.identity = identity := fun e => h (hc.symm.trans e)
          simp [put, hc, h]
      · by_cases h : b.identity = identity
        · have : ¬c.identity = identity := fun e => hc (e.trans h.symm)
          simp [put, h, ih, this]
        · simp only [put, hc, if_false, List.find?_cons, ih, h]

/-- Binding one identity leaves the others alone. -/
theorem get_bind (t : SessionTable) (b : Binding) (identity : Bytes) :
    (t.bind b).get identity =
      if b.identity = identity then some b else t.get identity :=
  find?_put b t.byIdentity identity

/-- Touching an identity moves its time of last use. -/
theorem get_touch (t : SessionTable) (identity who : Bytes) (now : Int) :
    (t.touch identity now).get who =
      (t.get who).map fun b =>
        if b.identity = identity then { b with lastUsedAt := now } else b := by
  simp only [get, touch, List.find?_map]
  have hsame : (fun c : Binding => c.identity == who) ∘
      (fun c => if c.identity = identity then { c with lastUsedAt := now } else c) =
      fun c => c.identity == who := by
    funext c
    simp only [Function.comp_apply]
    split <;> rfl
  rw [hsame]

/-- Touching keeps every binding, up to its time of last use. -/
theorem exists_get_touch {t : SessionTable} {identity who : Bytes} {now : Int}
    {b : Binding} (h : t.get who = some b) :
    ∃ new, (t.touch identity now).get who = some new ∧
      new.compileKey = b.compileKey ∧ new.generation = b.generation := by
  rw [get_touch, h]
  refine ⟨_, rfl, ?_, ?_⟩ <;> dsimp only <;> split <;> rfl

/-! ## What the updates do to the rows -/

/-- The binding of an identity is one of the rows. -/
theorem get_mem {t : SessionTable} {identity : Bytes} {b : Binding}
    (h : t.get identity = some b) : b ∈ t.byIdentity :=
  List.mem_of_find?_eq_some h

theorem mem_put {b c : Binding} {rows : List Binding} (h : c ∈ put b rows) :
    c = b ∨ c ∈ rows := by
  induction rows with
  | nil => simpa [put] using h
  | cons d rest ih =>
      simp only [put] at h
      split at h
      · rcases List.mem_cons.mp h with h | h
        · exact Or.inl h
        · exact Or.inr (List.mem_cons_of_mem d h)
      · rcases List.mem_cons.mp h with h | h
        · exact Or.inr (h ▸ List.mem_cons_self)
        · exact (ih h).imp_right (List.mem_cons_of_mem d)

/-- A row of a table with a new binding. -/
theorem mem_bind {t : SessionTable} {b c : Binding} (h : c ∈ (t.bind b).byIdentity) :
    c = b ∨ c ∈ t.byIdentity :=
  mem_put h

/-- A row of a touched table was there before, up to its time of last use. -/
theorem mem_touch {t : SessionTable} {identity : Bytes} {now : Int} {b : Binding}
    (h : b ∈ (t.touch identity now).byIdentity) :
    ∃ old ∈ t.byIdentity, b.compileKey = old.compileKey ∧
      b.generation = old.generation := by
  obtain ⟨old, hold, rfl⟩ := List.mem_map.mp h
  refine ⟨old, hold, ?_, ?_⟩ <;> split <;> rfl

/-- What survives an invalidation is of another generation. -/
theorem mem_invalidate {t : SessionTable} {generation : Int} {b : Binding}
    (h : b ∈ (t.invalidateGeneration generation).byIdentity) :
    b ∈ t.byIdentity ∧ b.generation ≠ generation := by
  simpa [invalidateGeneration] using h

@[simp]
theorem bind_superseded (t : SessionTable) (b : Binding) :
    (t.bind b).superseded = t.superseded :=
  rfl

@[simp]
theorem touch_superseded (t : SessionTable) (identity : Bytes) (now : Int) :
    (t.touch identity now).superseded = t.superseded :=
  rfl

@[simp]
theorem invalidateGeneration_superseded (t : SessionTable) (generation : Int) :
    (t.invalidateGeneration generation).superseded = t.superseded :=
  rfl

@[simp]
theorem markSuperseded_byIdentity (t : SessionTable) (key : PyStr) :
    (t.markSuperseded key).byIdentity = t.byIdentity := by
  unfold markSuperseded
  split <;> rfl

/-- A superseded model stays superseded. -/
theorem isSuperseded_markSuperseded (t : SessionTable) (key other : PyStr) :
    (t.markSuperseded key).isSuperseded other =
      (other == key || t.isSuperseded other) := by
  unfold markSuperseded isSuperseded
  split
  · rename_i h
    by_cases ho : other = key
    · subst ho
      simpa using h
    · simp [ho]
  · by_cases ho : other = key <;> simp [ho]

end SessionTable
end Transport
end FrigateXdna
