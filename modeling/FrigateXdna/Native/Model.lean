import FrigateXdna.Native.Protocol

/-!
# The model of the native worker

{lit}`model.cpp`: the owner of one mapped artifact and its vendor session.  A session is
what it reports of its tensors, which does not change after the load; what the vendor
library answers during one call is part of the environment of that call.

Main results:

- Theorem {lit}`Model.load_spec`: what a load leaves behind.
- Theorem {lit}`Model.outputElements_of_cols`: a session whose layout is known reports
  one buffer size.
-/

namespace FrigateXdna
namespace Native

open Python

/-- A {lit}`size_t`, which wraps. -/
def sizeT (n : Nat) : Nat :=
  n % 2 ^ 64

/-- The metadata of a vendor tensor: its shape, and its size in bytes. -/
structure TensorInfo where
  shape : List UInt32
  size : Nat
deriving DecidableEq, Repr

/-- What the operating system and the vendor library do during one {lit}`Model::load`:
whether the file is mapped, whether the session is good, and its tensors. -/
structure LoadEnv where
  mapped : Bool
  good : Bool
  inputs : List TensorInfo
  outputs : List TensorInfo
deriving DecidableEq, Repr

/-- {lit}`Model`: whether there is a session, and its tensors.  The tensors of a session
that is gone stay in place until {lit}`unload`. -/
structure Model where
  session : Bool := false
  inputs : List TensorInfo := []
  outputs : List TensorInfo := []
  modelPath : Bytes := []
deriving DecidableEq, Repr

/-- The number of elements of a shape. -/
def TensorInfo.elements (t : TensorInfo) : Nat :=
  t.shape.foldl (fun n d => sizeT (n * d.toNat)) 1

namespace Model

/-- {lit}`loaded`. -/
def loaded (m : Model) : Bool :=
  m.session

/-- {lit}`unload`. -/
def unload (_ : Model) : Model :=
  {}

/-- {lit}`load`: the model it leaves, with the error, if there is one. -/
def load (m : Model) (env : LoadEnv) (raiPath : Bytes) : Model × Option Bytes :=
  let gone := { m with session := false }
  if !env.mapped then (gone, some (cstr "mmap failed for " ++ raiPath))
  else if !env.good then (gone, some (cstr "Model creation failed for " ++ raiPath))
  else if env.inputs.isEmpty || env.outputs.isEmpty then
    (gone, some (cstr "no io tensors for " ++ raiPath))
  else
    ({ session := true, inputs := env.inputs, outputs := env.outputs,
       modelPath := raiPath }, none)

/-- {lit}`input_elements`. -/
def inputElements (m : Model) : Nat :=
  match m.inputs with
  | [] => 0
  | t :: _ => t.elements

/-- {lit}`input_shape`. -/
def inputShape (m : Model) : List UInt32 :=
  match m.inputs with
  | [] => []
  | t :: _ => t.shape

/-- {lit}`output_elements`. -/
def outputElements (m : Model) : Nat :=
  match m.outputs with
  | [] => 0
  | t :: _ => t.elements

/-- The rows and columns of a {lit}`[C,N]` or {lit}`[1,C,N]` shape. -/
def layout : List UInt32 → Option (Nat × Nat)
  | [c, n] => some (c.toNat, n.toNat)
  | [b, c, n] => if b = 1 then some (c.toNat, n.toNat) else none
  | _ => none

/-- {lit}`output_channels`. -/
def outputChannels (m : Model) : Nat :=
  match m.outputs with
  | [] => 0
  | t :: _ => ((layout t.shape).map Prod.fst).getD 0

/-- {lit}`output_cols`. -/
def outputCols (m : Model) : Nat :=
  match m.outputs with
  | [] => 0
  | t :: _ =>
      match layout t.shape with
      | none => 0
      | some (_, cols) =>
          let channels := m.outputChannels
          if cols = 0 ∨ channels = 0 ∨ t.size / 4 ≠ sizeT (channels * cols) then 0
          else cols

/-- **A load leaves** the new session, or none at all. -/
theorem load_spec (m : Model) (env : LoadEnv) (raiPath : Bytes) :
    (∃ err, (m.load env raiPath).2 = some err ∧ (m.load env raiPath).1.loaded = false) ∨
      (m.load env raiPath).2 = none ∧ (m.load env raiPath).1.loaded = true := by
  unfold load
  split_ifs
  · exact Or.inl ⟨_, rfl, rfl⟩
  · exact Or.inl ⟨_, rfl, rfl⟩
  · exact Or.inl ⟨_, rfl, rfl⟩
  · exact Or.inr ⟨rfl, rfl⟩

@[simp]
theorem unload_loaded (m : Model) : m.unload.loaded = false :=
  rfl

/-- Two 32-bit factors do not wrap. -/
theorem sizeT_mul (c n : UInt32) : sizeT (c.toNat * n.toNat) = c.toNat * n.toNat := by
  have hc : c.toNat ≤ 2 ^ 32 - 1 := Nat.le_sub_one_of_lt c.toNat_lt
  have hn : n.toNat ≤ 2 ^ 32 - 1 := Nat.le_sub_one_of_lt n.toNat_lt
  have hle : c.toNat * n.toNat ≤ (2 ^ 32 - 1) * (2 ^ 32 - 1) := Nat.mul_le_mul hc hn
  exact Nat.mod_eq_of_lt (by omega)

/-- A known layout gives the number of elements. -/
theorem elements_of_layout {t : TensorInfo} {channels cols : Nat}
    (h : layout t.shape = some (channels, cols)) : t.elements = channels * cols := by
  unfold layout at h
  unfold TensorInfo.elements
  split at h
  · rename_i c n hshape
    cases h
    rw [hshape]
    simpa [sizeT] using sizeT_mul c n
  · rename_i b c n hshape
    split at h
    · rename_i hb
      cases h
      rw [hshape, hb]
      simpa [sizeT] using sizeT_mul c n
    · contradiction
  · contradiction

/-- **A session whose layout is known** has as many elements as rows times columns. -/
theorem outputElements_of_cols {m : Model} (h : m.outputCols ≠ 0) :
    m.outputElements = m.outputChannels * m.outputCols := by
  unfold outputCols outputElements outputChannels at *
  cases houtputs : m.outputs with
  | nil => simp [houtputs] at h
  | cons t rest =>
      rcases Option.eq_none_or_eq_some (layout t.shape) with hlayout | ⟨⟨channels, cols⟩, hlayout⟩
      · simp [houtputs, hlayout] at h
      · simp only [houtputs, hlayout, Option.map_some, Option.getD_some] at h ⊢
        by_cases hbad : cols = 0 ∨ channels = 0 ∨ t.size / 4 ≠ sizeT (channels * cols)
        · exact absurd (if_pos hbad) h
        · rw [if_neg hbad]
          exact elements_of_layout hlayout

end Model
end Native
end FrigateXdna
