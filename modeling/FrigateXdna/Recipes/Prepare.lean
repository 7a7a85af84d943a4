import Mathlib.Data.List.Lex
import Mathlib.Data.List.Sort
import FrigateXdna.Python.Text
import FrigateXdna.Library.Dataflow

/-!
# Collapsing input quantization chains

The recipe {lit}`bf16-vaiml-v1` rewires the first real consumer of each graph input
past the quantize, dequantize and cast nodes in front of it, and drops the nodes that
nothing reads any more.  This file models {lit}`prepare.py` from {lit}`_consumers` to
{lit}`restore_float_inputs`, and gives a graph its meaning: the values of its names as a
function of its inputs and initializers, under any reading of the other operators.

The loops of the source take a bound on their rounds here; {lit}`none` means that the
bound was too small.

Main results:

- Definition {lit}`restoreFloatInputs`: the rewriting of one model.
- Definition {lit}`Graph.denote`: what the names of a graph stand for.
-/

namespace FrigateXdna
namespace Recipes

open Python Library.Dataflow

variable {A I T E : Type}

/-- What ONNX lists by name: a graph input or output, an initializer, a value info. -/
structure Named (α : Type) where
  name : PyStr
  info : α

/-- A node without subgraphs.  An omitted operand or result has the empty name. -/
structure Node (A : Type) where
  opType : PyStr
  input : List PyStr
  output : List PyStr
  attributes : A

/-- {lit}`model.graph`. -/
structure Graph (A I T : Type) where
  node : List (Node A)
  input : List (Named I)
  output : List (Named I)
  initializer : List (Named T)
  valueInfo : List (Named I)

/-- {lit}`EDGE_OPS`. -/
def edgeOps : List PyStr :=
  [py "QuantizeLinear", py "DequantizeLinear", py "Cast"]

/-- {lit}`n.op_type in EDGE_OPS`. -/
def Node.isEdge (n : Node A) : Bool :=
  edgeOps.contains n.opType

/-! ## The input chain -/

/-- {lit}`_consumers(nodes).get(x, [])`: a node stands once for each operand. -/
def consumers (nodes : List (Node A)) (x : PyStr) : List (Node A) :=
  nodes.flatMap fun n => (n.input.filter (· = x)).map fun _ => n

/-- The loop of {lit}`_input_chain`. -/
def followChain (nodes : List (Node A)) :
    Nat → List (Node A) → PyStr → Option (List (Node A) × PyStr)
  | 0, _, _ => none
  | fuel + 1, chain, cur =>
      match consumers nodes cur with
      | [nxt] =>
          match nxt.isEdge, nxt.output with
          | true, [out] => followChain nodes fuel (chain ++ [nxt]) out
          | _, _ => some (chain, cur)
      | _ => some (chain, cur)

/-- {lit}`_input_chain`. -/
def inputChain (fuel : Nat) (nodes : List (Node A)) (graphInput : PyStr) :
    Option (Option PyStr) :=
  (followChain nodes fuel [] graphInput).map fun (chain, cur) =>
    if chain.isEmpty || (consumers nodes cur).isEmpty then none else some cur

/-! ## Dropping dead edge nodes -/

/-- {lit}`live_inputs`. -/
def liveInputs (keep : List (Node A)) : List PyStr :=
  keep.flatMap (·.input)

/-- Whether the node is among {lit}`doomed`. -/
def Node.isDoomed (graphOutputs : List PyStr) (keep : List (Node A)) (n : Node A) : Bool :=
  n.isEdge && !n.output.any fun o => (liveInputs keep).contains o || graphOutputs.contains o

/-- The loop of {lit}`_prune_dead_edge_nodes`.  A node is doomed for what it says, so the
indices of {lit}`keep` are modelled by the nodes in order. -/
def pruneLoop (graphOutputs : List PyStr) : Nat → List (Node A) → Option (List (Node A))
  | 0, _ => none
  | fuel + 1, keep =>
      if (keep.filter (Node.isDoomed graphOutputs keep)).isEmpty then some keep
      else pruneLoop graphOutputs fuel (keep.filter fun n => !n.isDoomed graphOutputs keep)

/-- {lit}`_prune_dead_edge_nodes`. -/
def pruneDeadEdgeNodes (fuel : Nat) (g : Graph A I T) : Option (Graph A I T) :=
  (pruneLoop (g.output.map (·.name)) fuel g.node).map fun kept =>
    let refd := g.output.map (·.name) ++ liveInputs kept
    { g with
      node := kept
      initializer := g.initializer.filter fun t => refd.contains t.name
      valueInfo := g.valueInfo.filter fun v => refd.contains v.name }

/-! ## The rewriting -/

/-- {lit}`n.input[idx] = gi` for every operand that is the tail. -/
def replaceInput (tail gi inp : PyStr) : PyStr :=
  if inp = tail then gi else inp

/-- A node with its operands renamed. -/
def Node.rename (ρ : PyStr → PyStr) (n : Node A) : Node A :=
  { n with input := n.input.map ρ }

/-- One round of the loop over the graph inputs: the nodes and {lit}`collapsed`. -/
def collapse (fuel : Nat) (state : List (Node A) × Nat) (gi : PyStr) :
    Option (List (Node A) × Nat) :=
  (inputChain fuel state.1 gi).map fun
    | none => state
    | some tail => (state.1.map (Node.rename (replaceInput tail gi)), state.2 + 1)

/-- {lit}`restore_float_inputs`: the graph that is written and the number of collapsed
chains, or what {lit}`onnx.checker.check_model` raises. -/
def restoreFloatInputs (checkModel : Graph A I T → Except E Unit) (fuel : Nat)
    (g : Graph A I T) : Option (Except E (Graph A I T × Nat)) := do
  let (nodes, collapsed) ←
    ((g.input.map (·.name)).insertionSort (· ≤ ·)).foldlM (collapse fuel) (g.node, 0)
  let pruned ← pruneDeadEdgeNodes fuel { g with node := nodes }
  return (checkModel pruned).map fun _ => (pruned, collapsed)

/-! ## What a graph means -/

/-- A reading of the operators and tensors: what each result of a node that is no edge
operator is, as a function of its operands. -/
structure Reading (A T V : Type) where
  interpret : PyStr → A → List V → Nat → V
  tensor : T → V
  omitted : V

/-- The operands that matter: edge operators are read as the identity on the first. -/
def Node.operands (n : Node A) : List PyStr :=
  if n.isEdge then n.input.take 1 else n.input

/-- The names a node gives. -/
def Node.results (n : Node A) : List PyStr :=
  n.output.filter (· ≠ [])

/-- The node as an instruction that reads what matters. -/
def Node.instr (n : Node A) : Instr PyStr (Node A) :=
  ⟨{ n with input := [] }, n.operands, n.results⟩

/-- The results of a node. -/
def Reading.sem {V : Type} (r : Reading A T V) (n : Node A) (args : List V) (x : PyStr) : V :=
  if n.isEdge then args.headD r.omitted
  else r.interpret n.opType n.attributes args (n.output.idxOf x)

/-- The values before the first node. -/
def Graph.initial {V : Type} (g : Graph A I T) (r : Reading A T V) (inputs : PyStr → V)
    (x : PyStr) : V :=
  if x ∈ g.input.map (·.name) then inputs x
  else
    match g.initializer.find? fun t => t.name = x with
    | some t => r.tensor t.info
    | none => r.omitted

/-- What every name of the graph stands for. -/
def Graph.denote {V : Type} (g : Graph A I T) (r : Reading A T V) (inputs : PyStr → V) :
    PyStr → V :=
  run r.sem (g.initial r inputs) (g.node.map Node.instr)

end Recipes
end FrigateXdna
