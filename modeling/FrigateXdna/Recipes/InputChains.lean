import Mathlib.Order.RelClasses
import Mathlib.Data.List.Flatten
import Mathlib.Data.List.Nodup
import FrigateXdna.Recipes.Prepare

/-!
# Collapsing input chains keeps the meaning of a graph

The rewriting follows the only consumer of a value without asking which operand the
value is.  Where the edge nodes of a chain all take it first, the chain is the identity
and its tail is the graph input.  Where one takes it later, for instance as a scale, the
tail is another value, and the nodes behind it are rewired to the wrong one.

Main results:

- Theorem {lit}`rounds`: the rewriting renames each tail to its first graph input.
- Theorem {lit}`denote_renamed`: the renaming is harmless when tails are their inputs.
- Theorem {lit}`tails_reach`: an observed tail of another kind changes a meaning.
- Theorem {lit}`restoreFloatInputs_faithful_iff`: the rewriting is faithful exactly when
  every observed tail belongs to a chain of first operands.
- Theorem {lit}`checkGraph_checksWiring`: a checker of schemas and wiring is as the
  rewriting assumes of its checker.
-/

namespace FrigateXdna
namespace Recipes

open Python Library.Dataflow Relation

variable {A I T E : Type}

/-! ## Well-formed graphs -/

/-- The names of a list. -/
def names {α : Type} (l : List (Named α)) : List PyStr :=
  l.map (·.name)

/-- Every operand is omitted, a graph input, an initializer or the result of an earlier
node. -/
def Graph.Wired (g : Graph A I T) : Prop :=
  ∀ before n after, g.node = before ++ n :: after → ∀ x ∈ n.input,
    x = [] ∨ x ∈ names g.input ∨ x ∈ names g.initializer ∨ ∃ m ∈ before, x ∈ m.output

/-- A topologically ordered graph with distinct value names.  ONNX gives the edge
operators no optional result. -/
structure Graph.WellFormed (g : Graph A I T) : Prop where
  wired : g.Wired
  inputs : (names g.input).Nodup
  results : (g.node.flatMap Node.results).Nodup
  apart : ∀ n ∈ g.node, ∀ x ∈ n.results, x ∉ names g.input ∧ x ∉ names g.initializer
  edges : ∀ n ∈ g.node, n.isEdge = true → [] ∉ n.output
  named : [] ∉ names g.input

/-- A node as an instruction that reads all its operands. -/
def Node.full (n : Node A) : Instr PyStr (Node A) :=
  ⟨{ n with input := [] }, n.input, n.results⟩

theorem mem_results {n : Node A} {x : PyStr} : x ∈ n.results ↔ x ∈ n.output ∧ x ≠ [] := by
  simp [Node.results]

theorem operands_subset (n : Node A) : n.operands ⊆ n.input := by
  unfold Node.operands
  split
  · exact List.take_subset 1 n.input
  · exact List.Subset.refl _

theorem defined_full {nodes : List (Node A)} {x : PyStr} :
    Defined (nodes.map Node.full) x ↔ ∃ n ∈ nodes, x ∈ n.results := by
  simp [Defined, Node.full]

theorem defined_instr {nodes : List (Node A)} {x : PyStr} :
    Defined (nodes.map Node.instr) x ↔ ∃ n ∈ nodes, x ∈ n.results := by
  simp [Defined, Node.instr]

@[simp]
theorem Node.rename_full (ρ : PyStr → PyStr) (n : Node A) :
    (n.rename ρ).full = n.full.rename ρ :=
  rfl

@[simp]
theorem Node.rename_instr (ρ : PyStr → PyStr) (n : Node A) :
    (n.rename ρ).instr = n.instr.rename ρ := by
  unfold Node.instr Node.operands Instr.rename Node.rename Node.isEdge
  dsimp only
  split
  · rw [List.map_take]
    rfl
  · rfl

/-- Nodes whose operands come from before them, with results of distinct names, are an
ordered program. -/
theorem ordered_of_wired {nodes : List (Node A)} (hdistinct : (nodes.flatMap Node.results).Nodup)
    (hwired : ∀ before n after, nodes = before ++ n :: after → ∀ x ∈ n.input,
      ∀ m ∈ n :: after, x ∉ m.results) : Ordered (nodes.map Node.full) := by
  induction nodes with
  | nil => exact .nil
  | cons n nodes ih =>
      rw [List.flatMap_cons, List.nodup_append] at hdistinct
      obtain ⟨-, hrest, hapart⟩ := hdistinct
      refine .cons (fun x hx hdef => ?_) (fun x hx hdef => ?_) (ih hrest fun before m after h => ?_)
      · obtain ⟨m, hm, hxm⟩ :=
          defined_full.mp (show Defined ((n :: nodes).map Node.full) x from hdef)
        exact hwired [] n nodes rfl x hx m hm hxm
      · obtain ⟨m, hm, hxm⟩ := defined_full.mp hdef
        exact hapart x hx x (List.mem_flatMap.mpr ⟨m, hm, hxm⟩) rfl
      · exact hwired (n :: before) m after (by rw [h, List.cons_append])

/-- The nodes of a well-formed graph are an ordered program. -/
theorem Graph.WellFormed.ordered {g : Graph A I T} (h : g.WellFormed) :
    Ordered (g.node.map Node.full) := by
  refine ordered_of_wired h.results fun before n after hsplit x hx m hm hxm => ?_
  have hmem : m ∈ g.node := hsplit ▸ List.mem_append_right before hm
  rcases h.wired before n after hsplit x hx with rfl | hin | hinit | ⟨early, hearly, hxe⟩
  · exact (mem_results.mp hxm).2 rfl
  · exact (h.apart m hmem x hxm).1 hin
  · exact (h.apart m hmem x hxm).2 hinit
  · have hnodup := h.results
    rw [hsplit, List.flatMap_append, List.nodup_append] at hnodup
    exact hnodup.2.2 x
      (List.mem_flatMap.mpr ⟨early, hearly, mem_results.mpr ⟨hxe, (mem_results.mp hxm).2⟩⟩) x
      (List.mem_flatMap.mpr ⟨m, hm, hxm⟩) rfl

/-- Reading only what matters keeps the order. -/
theorem ordered_instr {nodes : List (Node A)} (h : Ordered (nodes.map Node.full)) :
    Ordered (nodes.map Node.instr) :=
  h.reads_less (fun _ _ => rfl) fun n _ => operands_subset n

/-! ## Consumers and links -/

theorem mem_consumers {nodes : List (Node A)} {x : PyStr} {n : Node A} :
    n ∈ consumers nodes x ↔ n ∈ nodes ∧ x ∈ n.input := by
  simp only [consumers, List.mem_flatMap, List.mem_map, List.mem_filter, decide_eq_true_eq]
  constructor
  · rintro ⟨m, hm, y, ⟨hy, rfl⟩, rfl⟩
    exact ⟨hm, hy⟩
  · rintro ⟨hn, hx⟩
    exact ⟨n, hn, x, ⟨hx, rfl⟩, rfl⟩

theorem consumers_eq_nil {nodes : List (Node A)} {x : PyStr} :
    consumers nodes x = [] ↔ ∀ n ∈ nodes, x ∉ n.input := by
  rw [List.eq_nil_iff_forall_not_mem]
  constructor
  · intro h n hn hx
    exact h n (mem_consumers.mpr ⟨hn, hx⟩)
  · intro h n hn
    exact h n (mem_consumers.mp hn).1 (mem_consumers.mp hn).2

/-- Where only the name itself becomes the name, its consumers are the renamed ones. -/
theorem consumers_rename {nodes : List (Node A)} {ρ : PyStr → PyStr} {x : PyStr}
    (h : ∀ y, ρ y = x ↔ y = x) :
    consumers (nodes.map (Node.rename ρ)) x = (consumers nodes x).map (Node.rename ρ) := by
  have hfilter : ∀ l : List PyStr,
      (l.map ρ).filter (· = x) = (l.filter (· = x)).map ρ := by
    intro l
    rw [List.filter_map]
    congr 1
    refine List.filter_congr fun y _ => ?_
    simp [h y]
  simp only [consumers, List.flatMap_map, List.map_flatMap, List.map_map]
  refine List.flatMap_congr fun n _ => ?_
  change ((n.input.map ρ).filter (· = x)).map _ = _
  rw [hfilter, List.map_map]
  rfl

/-- The name is the only operand of one edge node, whose only result is the second. -/
def Link (nodes : List (Node A)) (x y : PyStr) : Prop :=
  ∃ n, consumers nodes x = [n] ∧ n.isEdge = true ∧ n.output = [y]

/-- A link whose edge node takes the name as its first operand. -/
def FirstLink (nodes : List (Node A)) (x y : PyStr) : Prop :=
  ∃ n, consumers nodes x = [n] ∧ n.isEdge = true ∧ n.output = [y] ∧ n.input.head? = some x

/-- The chain of the graph input ends in the name, and something reads it. -/
def Tail (nodes : List (Node A)) (gi t : PyStr) : Prop :=
  TransGen (Link nodes) gi t ∧ consumers nodes t ≠ [] ∧ ∀ y, ¬ Link nodes t y

theorem FirstLink.link {nodes : List (Node A)} {x y : PyStr} (h : FirstLink nodes x y) :
    Link nodes x y := by
  obtain ⟨n, hn, hedge, hout, -⟩ := h
  exact ⟨n, hn, hedge, hout⟩

theorem link_unique (nodes : List (Node A)) : Relator.RightUnique (Link nodes) := by
  rintro x y z ⟨n, hn, -, hy⟩ ⟨m, hm, -, hz⟩
  have hnm : n = m := List.singleton_inj.mp (hn.symm.trans hm)
  rw [hnm, hz] at hy
  exact (List.singleton_inj.mp hy).symm

/-- Two ends of one chain are the same. -/
theorem end_unique {nodes : List (Node A)} {x t u : PyStr} (ht : ReflTransGen (Link nodes) x t)
    (hu : ReflTransGen (Link nodes) x u) (htend : ∀ y, ¬ Link nodes t y)
    (huend : ∀ y, ¬ Link nodes u y) : t = u := by
  rcases ReflTransGen.total_of_right_unique (link_unique nodes) ht hu with h | h
  · rcases h.cases_head with rfl | ⟨y, hy, -⟩
    · rfl
    · exact absurd hy (htend y)
  · rcases h.cases_head with rfl | ⟨y, hy, -⟩
    · rfl
    · exact absurd hy (huend y)

theorem Tail.unique {nodes : List (Node A)} {gi t u : PyStr} (ht : Tail nodes gi t)
    (hu : Tail nodes gi u) : t = u :=
  end_unique ht.1.to_reflTransGen hu.1.to_reflTransGen ht.2.2 hu.2.2

/-- A linked name is the result of a node. -/
theorem Link.result {nodes : List (Node A)} {x y : PyStr} (h : Link nodes x y)
    (hedges : ∀ n ∈ nodes, n.isEdge = true → [] ∉ n.output) : ∃ n ∈ nodes, y ∈ n.results := by
  obtain ⟨n, hn, hedge, hout⟩ := h
  have hmem : n ∈ nodes := (mem_consumers.mp (hn ▸ List.mem_singleton_self n)).1
  have hy : y ∈ n.output := hout ▸ List.mem_singleton_self y
  exact ⟨n, hmem, mem_results.mpr ⟨hy, fun h0 => hedges n hmem hedge (h0 ▸ hy)⟩⟩

/-! ## Following a chain -/

/-- Where the loop stops. -/
theorem followChain_spec {nodes : List (Node A)} {fuel : Nat} {chain chain' : List (Node A)}
    {cur cur' : PyStr} (h : followChain nodes fuel chain cur = some (chain', cur')) :
    ReflTransGen (Link nodes) cur cur' ∧ (∀ y, ¬ Link nodes cur' y) ∧
      (chain' ≠ [] ↔ chain ≠ [] ∨ TransGen (Link nodes) cur cur') := by
  induction fuel generalizing chain cur with
  | zero => contradiction
  | succ fuel ih =>
      -- the loop goes on exactly along a link
      have hstop : (∀ y, ¬ Link nodes cur y) → some (chain, cur) = some (chain', cur') →
          ReflTransGen (Link nodes) cur cur' ∧ (∀ y, ¬ Link nodes cur' y) ∧
            (chain' ≠ [] ↔ chain ≠ [] ∨ TransGen (Link nodes) cur cur') := by
        rintro hend heq
        obtain ⟨rfl, rfl⟩ := Prod.mk.inj (Option.some.inj heq)
        refine ⟨.refl, hend, (or_iff_left fun hloop => ?_).symm⟩
        obtain ⟨y, hy, -⟩ := TransGen.head'_iff.mp hloop
        exact hend y hy
      rw [followChain] at h
      split at h
      · rename_i nxt hone
        split at h
        · rename_i out hedge hout
          obtain ⟨hpath, hend, hne⟩ := ih h
          have hlink : Link nodes cur out := ⟨nxt, hone, hedge, hout⟩
          refine ⟨hpath.head hlink, hend, ?_⟩
          have hne' : chain' ≠ [] := hne.mpr (.inl (by simp))
          exact iff_of_true hne' (.inr (TransGen.head' hlink hpath))
        · rename_i hno
          refine hstop ?_ h
          rintro y ⟨n, hn, hedge, hout⟩
          obtain rfl := List.singleton_inj.mp (hone.symm.trans hn)
          exact hno y hedge hout
      · rename_i hno
        refine hstop ?_ h
        rintro y ⟨n, hn, -⟩
        exact hno n hn

/-- The chain of a graph input ends in its tail, if it has one. -/
theorem inputChain_spec {nodes : List (Node A)} {fuel : Nat} {gi : PyStr} {r : Option PyStr}
    (h : inputChain fuel nodes gi = some r) (t : PyStr) : r = some t ↔ Tail nodes gi t := by
  obtain ⟨⟨chain, cur⟩, hfollow, hr⟩ := Option.map_eq_some_iff.mp h
  obtain ⟨hpath, hend, hne⟩ := followChain_spec hfollow
  have hchain : chain ≠ [] ↔ TransGen (Link nodes) gi cur := by simpa using hne
  dsimp only at hr
  subst hr
  constructor
  · intro heq
    split at heq
    · contradiction
    · rename_i hcond
      obtain rfl := Option.some.inj heq
      rw [Bool.or_eq_true, not_or, List.isEmpty_iff, List.isEmpty_iff] at hcond
      exact ⟨hchain.mp hcond.1, hcond.2, hend⟩
  · intro ht
    obtain rfl : cur = t := end_unique hpath ht.1.to_reflTransGen hend ht.2.2
    rw [if_neg]
    rw [Bool.or_eq_true, not_or, List.isEmpty_iff, List.isEmpty_iff]
    exact ⟨hchain.mpr ht.1, ht.2.1⟩

/-- In an ordered program the loop ends: each link leads to a later node. -/
theorem followChain_ends {nodes before after : List (Node A)} {fuel : Nat}
    (hordered : Ordered (nodes.map Node.full))
    (hedges : ∀ n ∈ nodes, n.isEdge = true → [] ∉ n.output)
    (hsplit : nodes = before ++ after) {cur : PyStr} (hcur : ∀ n ∈ before, cur ∉ n.input)
    (hfuel : after.length < fuel) (chain : List (Node A)) :
    ∃ r, followChain nodes fuel chain cur = some r := by
  induction fuel generalizing before after cur chain with
  | zero => exact absurd hfuel (Nat.not_lt_zero _)
  | succ fuel ih =>
      rw [followChain]
      split
      · rename_i nxt hone
        split
        · rename_i out hedge hout
          obtain ⟨hmem, hx⟩ := mem_consumers.mp (hone ▸ List.mem_singleton_self nxt)
          have hafter : nxt ∈ after := by
            rw [hsplit] at hmem
            exact (List.mem_append.mp hmem).resolve_left fun hb => hcur nxt hb hx
          obtain ⟨early, late, rfl⟩ := List.append_of_mem hafter
          have hres : out ∈ nxt.results := by
            have hout' : out ∈ nxt.output := hout ▸ List.mem_singleton_self out
            exact mem_results.mpr ⟨hout', fun h0 => hedges nxt hmem hedge (h0 ▸ hout')⟩
          have hnext : nodes = (before ++ early ++ [nxt]) ++ late := by simp [hsplit]
          refine ih hnext ?_ (by simp at hfuel; omega) _
          -- a node that reads the result comes after the node that gives it
          intro n hn hout'
          obtain ⟨b, a, hba⟩ := List.append_of_mem hn
          have hwhole : nodes.map Node.full =
              b.map Node.full ++ n.full :: (a ++ late).map Node.full := by
            rw [hsplit, show before ++ (early ++ nxt :: late) =
              (before ++ early ++ [nxt]) ++ late by simp, hba]
            simp
          rw [hwhole] at hordered
          refine hordered.of_append.1 out hout' ?_
          have hlast : nxt ∈ n :: (a ++ late) := by
            rcases List.eq_nil_or_concat a with rfl | ⟨a', z, rfl⟩
            · rw [List.singleton_inj.mp (List.append_inj' hba rfl).2]
              exact List.mem_cons_self
            · rw [List.concat_eq_append, ← List.cons_append, ← List.append_assoc] at hba
              rw [List.singleton_inj.mp (List.append_inj' hba rfl).2]
              simp
          exact ⟨nxt.full, List.mem_map_of_mem (f := Node.full) hlast, hres⟩
        · exact ⟨_, rfl⟩
      · exact ⟨_, rfl⟩

/-- The chain of a graph input is found, whatever the bound. -/
theorem inputChain_ends {nodes : List (Node A)} (hordered : Ordered (nodes.map Node.full))
    (hedges : ∀ n ∈ nodes, n.isEdge = true → [] ∉ n.output) (gi : PyStr) :
    ∃ r, (∀ fuel, nodes.length < fuel → inputChain fuel nodes gi = some r) ∧
      ∀ t, r = some t ↔ Tail nodes gi t := by
  have hends : ∀ fuel, nodes.length < fuel → ∃ r, inputChain fuel nodes gi = some r := by
    intro fuel hfuel
    have hstart : ∀ n ∈ ([] : List (Node A)), gi ∉ n.input := fun n hn => absurd hn List.not_mem_nil
    obtain ⟨r, hr⟩ := followChain_ends hordered hedges (List.nil_append nodes).symm hstart hfuel []
    exact ⟨_, congrArg (Option.map _) hr⟩
  obtain ⟨r, hr⟩ := hends (nodes.length + 1) (Nat.lt_succ_self _)
  refine ⟨r, fun fuel hfuel => ?_, inputChain_spec hr⟩
  obtain ⟨r', hr'⟩ := hends fuel hfuel
  rw [hr']
  refine congrArg some (Option.ext fun t => ?_)
  rw [inputChain_spec hr', inputChain_spec hr]

/-! ## All rounds -/

section Rounds

open Classical

/-- What a name becomes once the chains of the graph inputs are collapsed in turn. -/
noncomputable def rewire (nodes : List (Node A)) (done : List PyStr) (x : PyStr) : PyStr :=
  (done.find? fun gi => Tail nodes gi x).getD x

variable {nodes : List (Node A)} {done : List PyStr}

/-- A name stays, or it is a tail and becomes a graph input whose chain it ends. -/
theorem rewire_cases (nodes : List (Node A)) (done : List PyStr) (x : PyStr) :
    rewire nodes done x = x ∧ (∀ gi ∈ done, ¬ Tail nodes gi x) ∨
      rewire nodes done x ∈ done ∧ Tail nodes (rewire nodes done x) x := by
  unfold rewire
  cases hfind : done.find? fun gi => decide (Tail nodes gi x) with
  | none =>
      refine .inl ⟨rfl, fun gi hgi htail => ?_⟩
      have := List.find?_eq_none.mp hfind gi hgi
      exact this (decide_eq_true htail)
  | some gi =>
      have htail : Tail nodes gi x := by simpa using List.find?_some hfind
      exact .inr ⟨List.mem_of_find?_eq_some hfind, htail⟩

theorem rewire_of_no_tail {x : PyStr} (h : ∀ gi ∈ done, ¬ Tail nodes gi x) :
    rewire nodes done x = x := by
  rcases rewire_cases nodes done x with ⟨hkeep, -⟩ | ⟨hin, htail⟩
  · exact hkeep
  · exact absurd htail (h _ hin)

/-- A tail of an earlier round keeps its graph input. -/
theorem rewire_concat (nodes : List (Node A)) (done : List PyStr) (gi x : PyStr) :
    rewire nodes (done ++ [gi]) x =
      if ∃ gi' ∈ done, Tail nodes gi' x then rewire nodes done x
      else if Tail nodes gi x then gi else x := by
  unfold rewire
  rw [List.find?_append]
  cases hfind : done.find? fun gi => decide (Tail nodes gi x) with
  | none =>
      rw [if_neg]
      · by_cases htail : Tail nodes gi x <;> simp [htail]
      · rintro ⟨gi', hgi', htail⟩
        exact List.find?_eq_none.mp hfind gi' hgi' (decide_eq_true htail)
  | some gi' =>
      have htail : Tail nodes gi' x := by simpa using List.find?_some hfind
      rw [if_pos ⟨gi', List.mem_of_find?_eq_some hfind, htail⟩]
      rfl

/-- Apart from the collapsed graph inputs, only a name that stays becomes itself. -/
theorem rewire_eq_iff {x : PyStr} (hx : x ∉ done) (y : PyStr) :
    rewire nodes done y = x ↔ y = x ∧ ∀ gi ∈ done, ¬ Tail nodes gi x := by
  constructor
  · rintro rfl
    rcases rewire_cases nodes done y with ⟨hkeep, hno⟩ | ⟨hin, -⟩
    · rw [hkeep]
      exact ⟨rfl, hno⟩
    · exact absurd hin hx
  · rintro ⟨rfl, hno⟩
    exact rewire_of_no_tail hno

/-- What reads a name that is no tail of an earlier round. -/
theorem consumers_rewire {x : PyStr} (hx : x ∉ done) (hno : ∀ gi ∈ done, ¬ Tail nodes gi x) :
    consumers (nodes.map (Node.rename (rewire nodes done))) x =
      (consumers nodes x).map (Node.rename (rewire nodes done)) :=
  consumers_rename fun y => (rewire_eq_iff hx y).trans (and_iff_left hno)

/-- Nothing reads a tail of an earlier round. -/
theorem consumers_rewire_tail {x gi : PyStr} (hx : x ∉ done) (hgi : gi ∈ done)
    (htail : Tail nodes gi x) :
    consumers (nodes.map (Node.rename (rewire nodes done))) x = [] := by
  rw [consumers_eq_nil]
  intro n hn hread
  obtain ⟨m, -, rfl⟩ := List.mem_map.mp hn
  obtain ⟨y, -, hy⟩ := List.mem_map.mp hread
  exact ((rewire_eq_iff hx y).mp hy).2 gi hgi htail

/-- Earlier rounds change no link of a name that is no collapsed graph input. -/
theorem link_rewire {x y : PyStr} (hx : x ∉ done) :
    Link (nodes.map (Node.rename (rewire nodes done))) x y ↔ Link nodes x y := by
  by_cases hno : ∀ gi ∈ done, ¬ Tail nodes gi x
  · unfold Link
    rw [consumers_rewire hx hno]
    constructor
    · rintro ⟨n', hn', hedge, hout⟩
      obtain ⟨n, hn, rfl⟩ := List.map_eq_singleton_iff.mp hn'
      exact ⟨n, hn, hedge, hout⟩
    · rintro ⟨n, hn, hedge, hout⟩
      exact ⟨n.rename (rewire nodes done), by rw [hn, List.map_singleton], hedge, hout⟩
  · push Not at hno
    obtain ⟨gi, hgi, htail⟩ := hno
    refine iff_of_false ?_ (htail.2.2 y)
    rintro ⟨n, hn, -⟩
    rw [consumers_rewire_tail hx hgi htail] at hn
    exact List.cons_ne_nil _ _ hn.symm

/-- Earlier rounds change no chain of a later graph input. -/
theorem chain_rewire {gi t : PyStr} (hgi : gi ∉ done)
    (hedges : ∀ n ∈ nodes, n.isEdge = true → [] ∉ n.output)
    (hinputs : ∀ x ∈ done, ∀ n ∈ nodes, x ∉ n.results) :
    TransGen (Link (nodes.map (Node.rename (rewire nodes done)))) gi t ↔
      TransGen (Link nodes) gi t := by
  have hout : ∀ {x y}, Link nodes x y → y ∉ done := by
    intro x y hlink hy
    obtain ⟨n, hn, hres⟩ := hlink.result hedges
    exact hinputs y hy n hn hres
  constructor
  · intro h
    have hboth : TransGen (Link nodes) gi t ∧ t ∉ done := by
      induction h with
      | single hlink =>
          have hlink' := (link_rewire hgi).mp hlink
          exact ⟨.single hlink', hout hlink'⟩
      | tail _ hlink ih =>
          have hlink' := (link_rewire ih.2).mp hlink
          exact ⟨ih.1.tail hlink', hout hlink'⟩
    exact hboth.1
  · intro h
    have hboth : TransGen (Link (nodes.map (Node.rename (rewire nodes done)))) gi t ∧
        t ∉ done := by
      induction h with
      | single hlink => exact ⟨.single ((link_rewire hgi).mpr hlink), hout hlink⟩
      | tail _ hlink ih => exact ⟨ih.1.tail ((link_rewire ih.2).mpr hlink), hout hlink⟩
    exact hboth.1

/-- A tail is the result of a node. -/
theorem Tail.result {gi t : PyStr} (h : Tail nodes gi t)
    (hedges : ∀ n ∈ nodes, n.isEdge = true → [] ∉ n.output) : ∃ n ∈ nodes, t ∈ n.results := by
  obtain ⟨x, -, hlink⟩ := TransGen.tail'_iff.mp h.1
  exact hlink.result hedges

/-- The tail of a later graph input is as before, unless an earlier round took it. -/
theorem tail_rewire {gi t : PyStr} (hgi : gi ∉ done)
    (hedges : ∀ n ∈ nodes, n.isEdge = true → [] ∉ n.output)
    (hinputs : ∀ x ∈ done, ∀ n ∈ nodes, x ∉ n.results) :
    Tail (nodes.map (Node.rename (rewire nodes done))) gi t ↔
      Tail nodes gi t ∧ ∀ gi' ∈ done, ¬ Tail nodes gi' t := by
  have hres : TransGen (Link nodes) gi t → t ∉ done := by
    intro h ht
    obtain ⟨x, -, hlink⟩ := TransGen.tail'_iff.mp h
    obtain ⟨n, hn, hres⟩ := hlink.result hedges
    exact hinputs t ht n hn hres
  unfold Tail
  rw [chain_rewire hgi hedges hinputs]
  constructor
  · rintro ⟨hchain, hread, hend⟩
    have ht := hres hchain
    have hno : ∀ gi' ∈ done, ¬ Tail nodes gi' t := fun gi' hgi' htail =>
      hread (consumers_rewire_tail ht hgi' htail)
    rw [consumers_rewire ht hno] at hread
    exact ⟨⟨hchain, fun h0 => hread (by rw [h0, List.map_nil]),
      fun y => mt (link_rewire ht).mpr (hend y)⟩, hno⟩
  · rintro ⟨⟨hchain, hread, hend⟩, hno⟩
    have ht := hres hchain
    rw [consumers_rewire ht hno]
    exact ⟨hchain, fun h0 => hread (List.map_eq_nil_iff.mp h0),
      fun y => mt (link_rewire ht).mp (hend y)⟩

/-- One more round. -/
theorem collapse_rewire (hordered : Ordered (nodes.map Node.full))
    (hedges : ∀ n ∈ nodes, n.isEdge = true → [] ∉ n.output) {gi : PyStr} (hgi : gi ∉ done)
    (hinputs : ∀ x ∈ done, ∀ n ∈ nodes, x ∉ n.results) (count : Nat) :
    ∃ count', ∀ fuel, nodes.length < fuel →
      collapse fuel (nodes.map (Node.rename (rewire nodes done)), count) gi =
        some (nodes.map (Node.rename (rewire nodes (done ++ [gi]))), count') := by
  have hordered' : Ordered ((nodes.map (Node.rename (rewire nodes done))).map Node.full) := by
    rw [List.map_map]
    have := hordered.rename (ρ := rewire nodes done) fun x =>
      (rewire_cases nodes done x).imp (·.1) fun h hdef => by
        obtain ⟨n, hn, hres⟩ := defined_full.mp hdef
        exact hinputs _ h.1 n hn hres
    rwa [List.map_map] at this
  have hedges' : ∀ n ∈ nodes.map (Node.rename (rewire nodes done)),
      n.isEdge = true → [] ∉ n.output := by
    intro n hn
    obtain ⟨m, hm, rfl⟩ := List.mem_map.mp hn
    exact hedges m hm
  obtain ⟨tail, hchain, hspec⟩ := inputChain_ends hordered' hedges' gi
  rw [List.length_map] at hchain
  have htail : ∀ t, tail = some t ↔ Tail nodes gi t ∧ ∀ gi' ∈ done, ¬ Tail nodes gi' t :=
    fun t => (hspec t).trans (tail_rewire hgi hedges hinputs)
  have hrename : ∀ ρ : PyStr → PyStr, (∀ x, ρ x = rewire nodes (done ++ [gi]) x) →
      nodes.map (Node.rename ρ) = nodes.map (Node.rename (rewire nodes (done ++ [gi]))) := by
    intro ρ hρ
    rw [funext hρ]
  unfold collapse
  cases tail with
  | none =>
      refine ⟨count, fun fuel hfuel => ?_⟩
      rw [hchain fuel hfuel]
      refine congrArg some (Prod.ext (hrename _ fun x => ?_) rfl)
      rw [rewire_concat]
      split
      · rfl
      · rename_i hno
        rw [if_neg]
        · exact rewire_of_no_tail fun gi' hgi' h => hno ⟨gi', hgi', h⟩
        · intro hx
          have := (htail x).mpr ⟨hx, fun gi' hgi' h => hno ⟨gi', hgi', h⟩⟩
          contradiction
  | some t =>
      refine ⟨count + 1, fun fuel hfuel => ?_⟩
      rw [hchain fuel hfuel]
      refine congrArg some (Prod.ext ?_ rfl)
      obtain ⟨ht, hfree⟩ := (htail t).mp rfl
      change (nodes.map _).map _ = _
      rw [List.map_map]
      have hcomp : Node.rename (replaceInput t gi) ∘ Node.rename (A := A) (rewire nodes done) =
          Node.rename (replaceInput t gi ∘ rewire nodes done) := by
        funext n
        simp [Node.rename]
      rw [hcomp]
      refine hrename _ fun x => ?_
      rw [rewire_concat, Function.comp_apply, replaceInput]
      split_ifs with heq hearly hx hearly hx
      -- a tail is no graph input, so what an earlier round renamed stays
      · rcases rewire_cases nodes done x with ⟨-, hno⟩ | ⟨hin, -⟩
        · obtain ⟨gi', hgi', h⟩ := hearly
          exact absurd h (hno gi' hgi')
        · obtain ⟨n, hn, hres⟩ := ht.result hedges
          exact absurd hres (hinputs t (heq ▸ hin) n hn)
      · rfl
      · rw [rewire_of_no_tail fun gi' hgi' h => hearly ⟨gi', hgi', h⟩] at heq
        exact absurd (heq ▸ ht) hx
      · rfl
      · rw [rewire_of_no_tail fun gi' hgi' h => hearly ⟨gi', hgi', h⟩] at heq
        exact absurd (hx.unique ht) heq
      · exact rewire_of_no_tail fun gi' hgi' h => hearly ⟨gi', hgi', h⟩

/-- All rounds: every tail becomes the first graph input whose chain it ends. -/
theorem rounds (hordered : Ordered (nodes.map Node.full))
    (hedges : ∀ n ∈ nodes, n.isEdge = true → [] ∉ n.output) {rest : List PyStr}
    (hnodup : (done ++ rest).Nodup)
    (hinputs : ∀ x ∈ done ++ rest, ∀ n ∈ nodes, x ∉ n.results) (count : Nat) :
    ∃ count', ∀ fuel, nodes.length < fuel →
      rest.foldlM (collapse fuel) (nodes.map (Node.rename (rewire nodes done)), count) =
        some (nodes.map (Node.rename (rewire nodes (done ++ rest))), count') := by
  induction rest generalizing done count with
  | nil => exact ⟨count, fun _ _ => by rw [List.append_nil]; rfl⟩
  | cons gi rest ih =>
      have hgi : gi ∉ done := fun h =>
        (List.nodup_append.mp hnodup).2.2 gi h gi List.mem_cons_self rfl
      obtain ⟨count', hround⟩ := collapse_rewire hordered hedges hgi
        (fun x hx => hinputs x (List.mem_append_left _ hx)) count
      rw [List.append_cons] at hnodup hinputs
      obtain ⟨last, hlast⟩ := ih hnodup hinputs count'
      refine ⟨last, fun fuel hfuel => ?_⟩
      rw [List.foldlM_cons, hround fuel hfuel]
      change rest.foldlM _ _ = _
      rw [hlast fuel hfuel, List.append_cons done gi rest]

end Rounds

/-! ## What a tail stands for -/

section Meaning

variable {nodes : List (Node A)} {V : Type}

/-- Reading a name through the nodes that give it. -/
abbrev NodeReads (nodes : List (Node A)) : PyStr → PyStr → Prop :=
  Reads (nodes.map Node.instr)

/-- A node reads its operands for its results. -/
theorem nodeReads_iff {y x : PyStr} :
    NodeReads nodes y x ↔ ∃ n ∈ nodes, y ∈ n.results ∧ x ∈ n.operands := by
  simp [Reads, Node.instr]

/-- The node of a first link reads only the linked name. -/
theorem FirstLink.node {x y : PyStr} (h : FirstLink nodes x y)
    (hedges : ∀ n ∈ nodes, n.isEdge = true → [] ∉ n.output) :
    ∃ n ∈ nodes, n.isEdge = true ∧ y ∈ n.results ∧ n.operands = [x] := by
  obtain ⟨n, hn, hedge, hout, hhead⟩ := h
  have hmem : n ∈ nodes := (mem_consumers.mp (hn ▸ List.mem_singleton_self n)).1
  have hy : y ∈ n.output := hout ▸ List.mem_singleton_self y
  refine ⟨n, hmem, hedge, mem_results.mpr ⟨hy, fun h0 => hedges n hmem hedge (h0 ▸ hy)⟩, ?_⟩
  obtain ⟨rest, hrest⟩ := List.head?_eq_some_iff.mp hhead
  rw [Node.operands, if_pos hedge, hrest]
  rfl

/-- Along a chain of first operands every value is the graph input. -/
theorem run_firstChain {r : Reading A T V} {env : PyStr → V}
    (hordered : Ordered (nodes.map Node.instr))
    (hedges : ∀ n ∈ nodes, n.isEdge = true → [] ∉ n.output) {gi t : PyStr}
    (hgi : ∀ n ∈ nodes, gi ∉ n.results) (h : TransGen (FirstLink nodes) gi t) :
    run r.sem env (nodes.map Node.instr) t = env gi := by
  have hstep : ∀ {x y}, FirstLink nodes x y →
      run r.sem env (nodes.map Node.instr) y = run r.sem env (nodes.map Node.instr) x := by
    intro x y hlink
    obtain ⟨n, hn, hedge, hres, hops⟩ := hlink.node hedges
    rw [run_of_mem hordered (List.mem_map_of_mem hn) hres]
    have hsem : r.sem n.instr.op = r.sem n := rfl
    change r.sem n.instr.op (n.operands.map _) y = _
    rw [hops, Reading.sem, if_pos (show n.instr.op.isEdge = true from hedge)]
    rfl
  have hinput : run r.sem env (nodes.map Node.instr) gi = env gi := by
    refine run_of_not_defined fun hdef => ?_
    obtain ⟨n, hn, hres⟩ := defined_instr.mp hdef
    exact hgi n hn hres
  induction h with
  | single hlink => rw [hstep hlink, hinput]
  | tail _ hlink ih => rw [hstep hlink, ih]

/-- What a name on a chain of first operands reads has a link itself. -/
theorem reads_firstChain (hordered : Ordered (nodes.map Node.instr))
    (hedges : ∀ n ∈ nodes, n.isEdge = true → [] ∉ n.output) {gi t z : PyStr}
    (hgi : ∀ n ∈ nodes, gi ∉ n.results) (h : TransGen (FirstLink nodes) gi t)
    (hreads : TransGen (NodeReads nodes) t z) : ∃ y, Link nodes z y := by
  have hone : ∀ {x y w}, FirstLink nodes x y → NodeReads nodes y w → w = x := by
    intro x y w hlink hread
    obtain ⟨n, hn, -, hres, hops⟩ := hlink.node hedges
    obtain ⟨i, hi, hyi, hwi⟩ := hread
    obtain rfl := hordered.unique hi (List.mem_map_of_mem (f := Node.instr) hn) hyi hres
    change w ∈ n.operands at hwi
    rw [hops] at hwi
    exact List.mem_singleton.mp hwi
  induction h with
  | single hlink =>
      obtain ⟨w, hw, hrest⟩ := TransGen.head'_iff.mp hreads
      obtain rfl := hone hlink hw
      rcases hrest.cases_head with rfl | ⟨v, hv, -⟩
      · exact ⟨_, hlink.link⟩
      · obtain ⟨n, hn, hres, -⟩ := nodeReads_iff.mp hv
        exact absurd hres (hgi n hn)
  | tail _ hlink ih =>
      obtain ⟨w, hw, hrest⟩ := TransGen.head'_iff.mp hreads
      obtain rfl := hone hlink hw
      rcases hrest.cases_head with rfl | ⟨v, hv, hvz⟩
      · exact ⟨_, hlink.link⟩
      · exact ih (TransGen.head' hv hvz)

/-- A chain whose tail takes some value later keeps its graph input from every name
that is not on its first part. -/
theorem reads_input (hedges : ∀ n ∈ nodes, n.isEdge = true → [] ∉ n.output) {gi t w : PyStr}
    (htail : Tail nodes gi t) (hnot : ¬ TransGen (FirstLink nodes) gi t)
    (hgi : ∀ n ∈ nodes, gi ∉ n.results) (h : ReflTransGen (NodeReads nodes) w gi) :
    ReflTransGen (FirstLink nodes) gi w := by
  induction h using ReflTransGen.head_induction_on with
  | refl => exact .refl
  | @head w x hwx _ hx =>
      obtain ⟨n, hn, hres, hop⟩ := nodeReads_iff.mp hwx
      -- the name read is not the tail, so it has a link, and the link is this node
      have hnottail : x ≠ t := by
        rintro rfl
        rcases reflTransGen_iff_eq_or_transGen.mp hx with rfl | hfirst
        · obtain ⟨m, hm, hmres⟩ := htail.result hedges
          exact hgi m hm hmres
        · exact hnot hfirst
      have hlinked : ∃ y, Link nodes x y := by
        have hpath : ReflTransGen (Link nodes) gi x :=
          ReflTransGen.mono (fun _ _ hlink => FirstLink.link hlink) gi x hx
        rcases ReflTransGen.total_of_right_unique (link_unique nodes) hpath
          htail.1.to_reflTransGen with hxt | htx
        · rcases hxt.cases_head with heq | ⟨y, hy, -⟩
          · exact absurd heq hnottail
          · exact ⟨y, hy⟩
        · rcases htx.cases_head with heq | ⟨y, hy, -⟩
          · exact absurd heq.symm hnottail
          · exact absurd hy (htail.2.2 y)
      obtain ⟨y, m, hm, hedge, hout⟩ := hlinked
      have hnm : n ∈ consumers nodes x := mem_consumers.mpr ⟨hn, operands_subset n hop⟩
      rw [hm] at hnm
      obtain rfl := List.mem_singleton.mp hnm
      have hwy : w ∈ n.output := (mem_results.mp hres).1
      rw [hout] at hwy
      obtain rfl := List.mem_singleton.mp hwy
      refine hx.tail ⟨n, hm, hedge, hout, ?_⟩
      rw [Node.operands, if_pos hedge, List.take_one, Option.mem_toList] at hop
      exact hop

end Meaning

/-! ## The renamed graph -/

/-- {lit}`sorted(i.name for i in model.graph.input)`. -/
def Graph.sortedInputs (g : Graph A I T) : List PyStr :=
  (names g.input).insertionSort (· ≤ ·)

theorem mem_sortedInputs {g : Graph A I T} {x : PyStr} :
    x ∈ g.sortedInputs ↔ x ∈ names g.input :=
  (List.perm_insertionSort _ _).mem_iff

/-- The nodes after all rounds. -/
noncomputable def Graph.renamed (g : Graph A I T) : List (Node A) :=
  g.node.map (Node.rename (rewire g.node g.sortedInputs))

/-- A graph output depends on the name, through operands that matter. -/
def Graph.Observed (g : Graph A I T) (t : PyStr) : Prop :=
  ∃ o ∈ names g.output, TransGen (NodeReads g.node) o t

/-- Every observed tail belongs to a chain of first operands, from the first graph input
whose chain it ends. -/
def Graph.ChainsFirst (g : Graph A I T) : Prop :=
  ∀ gi ∈ names g.input, ∀ t, Tail g.node gi t →
    (∀ gi' ∈ names g.input, Tail g.node gi' t → gi ≤ gi') → g.Observed t →
    TransGen (FirstLink g.node) gi t

/-- A tail becomes the first of the graph inputs whose chain it ends. -/
theorem rewire_least {g : Graph A I T} {t gi : PyStr} (hgi : gi ∈ names g.input)
    (htail : Tail g.node gi t) :
    rewire g.node g.sortedInputs t ∈ names g.input ∧
      Tail g.node (rewire g.node g.sortedInputs t) t ∧
      rewire g.node g.sortedInputs t ≤ gi := by
  have hsorted : g.sortedInputs.Pairwise (· ≤ ·) := List.pairwise_insertionSort _ _
  have hmem : gi ∈ g.sortedInputs := mem_sortedInputs.mpr hgi
  rcases rewire_cases g.node g.sortedInputs t with ⟨-, hno⟩ | ⟨hin, htail'⟩
  · exact absurd htail (hno gi hmem)
  · refine ⟨mem_sortedInputs.mp hin, htail', ?_⟩
    classical
    cases hfind : g.sortedInputs.find? fun gi => decide (Tail g.node gi t) with
    | none => exact absurd (decide_eq_true htail) (List.find?_eq_none.mp hfind gi hmem)
    | some first =>
        have hrewire : rewire g.node g.sortedInputs t = first := by
          unfold rewire
          rw [show (g.sortedInputs.find? fun gi => decide (Tail g.node gi t)) = some first from
            hfind ▸ (by congr)]
          rfl
        obtain ⟨-, before, after, hsplit, hbefore⟩ := List.find?_eq_some_iff_append.mp hfind
        rw [hsplit] at hmem hsorted
        rw [hrewire]
        rcases List.mem_append.mp hmem with hb | ha
        · have := hbefore gi hb
          simp [htail] at this
        · rcases List.mem_cons.mp ha with rfl | hafter
          · exact le_refl _
          · exact List.rel_of_pairwise_cons (List.pairwise_append.mp hsorted).2.1 hafter

variable {g : Graph A I T}

/-- Graph inputs are no results. -/
theorem Graph.WellFormed.input_not_result (hg : g.WellFormed) {x : PyStr}
    (hx : x ∈ names g.input) : ∀ n ∈ g.node, x ∉ n.results :=
  fun n hn hres => (hg.apart n hn x hres).1 hx

/-- A renamed operand is the operand or a graph input. -/
theorem rewire_operand (g : Graph A I T) (x : PyStr) :
    rewire g.node g.sortedInputs x = x ∨ rewire g.node g.sortedInputs x ∈ names g.input :=
  (rewire_cases g.node g.sortedInputs x).imp (·.1) fun h => mem_sortedInputs.mp h.1

/-- The renamed nodes are an ordered program. -/
theorem Graph.WellFormed.renamed_ordered (hg : g.WellFormed) :
    Ordered (g.renamed.map Node.full) := by
  rw [Graph.renamed, List.map_map]
  have := hg.ordered.rename (ρ := rewire g.node g.sortedInputs) fun x =>
    (rewire_operand g x).imp_right fun hin hdef => by
      obtain ⟨n, hn, hres⟩ := defined_full.mp hdef
      exact hg.input_not_result hin n hn hres
  rwa [List.map_map] at this

/-- The instructions of the renamed nodes. -/
theorem renamed_instr (g : Graph A I T) :
    g.renamed.map Node.instr =
      (g.node.map Node.instr).map (Instr.rename (rewire g.node g.sortedInputs)) := by
  rw [Graph.renamed, List.map_map, List.map_map]
  exact List.map_congr_left fun n _ => Node.rename_instr _ n

/-- When every observed tail belongs to a chain of first operands, the renamed nodes give
every graph output the same meaning. -/
theorem denote_renamed (hg : g.WellFormed) (hfirst : g.ChainsFirst) {V : Type}
    (r : Reading A T V) (inputs : PyStr → V) {o : PyStr} (ho : o ∈ names g.output) :
    run r.sem (g.initial r inputs) (g.renamed.map Node.instr) o = g.denote r inputs o := by
  have hordered := ordered_instr hg.ordered
  rw [renamed_instr]
  refine run_rename hordered ?_ (K := fun y => ∃ o ∈ names g.output,
    ReflTransGen (NodeReads g.node) o y) ?_ ?_ ⟨o, ho, .refl⟩
  · rw [← renamed_instr]
    exact ordered_instr hg.renamed_ordered
  · rintro i hi y hy ⟨o, ho, hreach⟩ u hu
    exact ⟨o, ho, hreach.tail ⟨i, hi, hy, hu⟩⟩
  · rintro i hi y hy ⟨o, ho, hreach⟩ u hu
    rcases rewire_cases g.node g.sortedInputs u with ⟨hkeep, -⟩ | ⟨hin, htail⟩
    · exact .inl hkeep
    · have hgi := mem_sortedInputs.mp hin
      have hobserved : g.Observed u := ⟨o, ho, TransGen.tail' hreach ⟨i, hi, hy, hu⟩⟩
      have hchain := hfirst _ hgi u htail
        (fun gi' hgi' htail' => (rewire_least hgi' htail').2.2) hobserved
      refine .inr ⟨fun hdef => ?_, ?_⟩
      · obtain ⟨n, hn, hres⟩ := defined_instr.mp hdef
        exact hg.input_not_result hgi n hn hres
      · exact run_firstChain hordered hg.edges (hg.input_not_result hgi) hchain

/-! ## Tails of other chains -/

/-- The reading in which a value is true when it depends on a true input. -/
def reach : Reading A T Bool :=
  ⟨fun _ _ args _ => args.any id, fun _ => false, false⟩

theorem reach_sem {nodes : List (Node A)} :
    ∀ i ∈ nodes.map Node.instr, ∀ args : List Bool, args.length = i.uses.length →
      ∀ x, (reach (A := A) (T := T)).sem i.op args x = args.any id := by
  intro i hi args hlen x
  obtain ⟨n, -, rfl⟩ := List.mem_map.mp hi
  have hisEdge : n.instr.op.isEdge = n.isEdge := rfl
  rw [Reading.sem, hisEdge]
  split
  · rename_i hedge
    -- an edge node has at most one operand that matters
    have hshort : args.length ≤ 1 := by
      rw [hlen]
      change n.operands.length ≤ 1
      rw [Node.operands, if_pos hedge]
      exact List.length_take_le 1 _
    match args, hshort with
    | [], _ => rfl
    | [b], _ => simp [reach]
  · rfl

/-- The values in which one graph input is true. -/
theorem initial_reach {gi x : PyStr} (hgi : gi ∈ names g.input) :
    g.initial (reach (A := A)) (fun y => decide (y = gi)) x = true ↔ x = gi := by
  unfold Graph.initial
  split
  · simp
  · rename_i hx
    have hne : x ≠ gi := fun heq => hx (heq ▸ hgi)
    split <;> simp [reach, hne]

/-- An observed tail of a chain with a later operand changes the meaning of an output:
behind it, the output depends on the graph input, which it did not before. -/
theorem tails_reach (hg : g.WellFormed) (h : ¬ g.ChainsFirst) :
    ∃ o ∈ names g.output, ∃ gi : PyStr,
      run (reach (A := A) (T := T)).sem (g.initial reach fun y => decide (y = gi))
          (g.renamed.map Node.instr) o = true ∧
        g.denote reach (fun y => decide (y = gi)) o ≠ true := by
  unfold Graph.ChainsFirst at h
  push Not at h
  obtain ⟨gi, hgi, t, htail, hleast, ⟨o, ho, hobs⟩, hnot⟩ := h
  have hordered := ordered_instr hg.ordered
  have hordered' := ordered_instr hg.renamed_ordered
  -- a bad tail is a tail that a later operand leads to
  let Bad : PyStr → Prop := fun t => rewire g.node g.sortedInputs t ∈ names g.input ∧
    Tail g.node (rewire g.node g.sortedInputs t) t ∧
      ¬ TransGen (FirstLink g.node) (rewire g.node g.sortedInputs t) t
  have hrewire : rewire g.node g.sortedInputs t = gi := by
    obtain ⟨hin, htail', hle⟩ := rewire_least hgi htail
    exact le_antisymm hle (hleast _ hin htail')
  have hbad : Bad t := ⟨hrewire ▸ hgi, hrewire.symm ▸ htail, hrewire.symm ▸ hnot⟩
  -- one step of reading in the graph is one in the renamed graph, or it meets a tail
  have hstep : ∀ {y z}, NodeReads g.node y z →
      NodeReads g.renamed y (rewire g.node g.sortedInputs z) := by
    rintro y z hread
    obtain ⟨n, hn, hres, hop⟩ := nodeReads_iff.mp hread
    refine ⟨(n.rename (rewire g.node g.sortedInputs)).instr,
      List.mem_map_of_mem (List.mem_map_of_mem hn), hres, ?_⟩
    rw [Node.rename_instr]
    exact List.mem_map_of_mem hop
  have hpath : ∀ {y}, ReflTransGen (NodeReads g.node) o y →
      ReflTransGen (NodeReads g.renamed) o y ∨
        (∃ b, Bad b ∧ TransGen (NodeReads g.node) o b ∧
          TransGen (NodeReads g.renamed) o (rewire g.node g.sortedInputs b)) ∨
        ∃ gi' ∈ names g.input, ∃ t', TransGen (FirstLink g.node) gi' t' ∧
          ReflTransGen (NodeReads g.node) t' y := by
    intro y hy
    induction hy with
    | refl => exact .inl .refl
    | @tail y z hoy hyz ih =>
        rcases ih with hkeep | hfound | ⟨gi', hgi', t', hchain, hrest⟩
        · rcases rewire_cases g.node g.sortedInputs z with ⟨hsame, -⟩ | ⟨hin, hz⟩
          · exact .inl (hkeep.tail (hsame ▸ hstep hyz))
          · by_cases hchain : TransGen (FirstLink g.node) (rewire g.node g.sortedInputs z) z
            · exact .inr (.inr ⟨_, mem_sortedInputs.mp hin, z, hchain, .refl⟩)
            · exact .inr (.inl ⟨z, ⟨mem_sortedInputs.mp hin, hz, hchain⟩,
                TransGen.tail' hoy hyz, TransGen.tail' hkeep (hstep hyz)⟩)
        · exact .inr (.inl hfound)
        · exact .inr (.inr ⟨gi', hgi', t', hchain, hrest.tail hyz⟩)
  obtain ⟨b, ⟨hbin, hbtail, hbnot⟩, hob, hob'⟩ : ∃ b, Bad b ∧ TransGen (NodeReads g.node) o b ∧
      TransGen (NodeReads g.renamed) o (rewire g.node g.sortedInputs b) := by
    obtain ⟨y, hoy, hyt⟩ := TransGen.tail'_iff.mp hobs
    rcases hpath hoy with hkeep | hfound | ⟨gi', hgi', t', hchain, hrest⟩
    · exact ⟨t, hbad, hobs, TransGen.tail' hkeep (hstep hyt)⟩
    · exact hfound
    · obtain ⟨y, hy⟩ := reads_firstChain hordered hg.edges (hg.input_not_result hgi') hchain
        (TransGen.tail' hrest hyt)
      exact absurd hy (htail.2.2 y)
  have hinput := hg.input_not_result hbin
  refine ⟨o, ho, rewire g.node g.sortedInputs b, ?_, ?_⟩
  · rw [run_any reach_sem hordered']
    refine ⟨_, hob'.to_reflTransGen, fun hdef => ?_, (initial_reach hbin).mpr rfl⟩
    obtain ⟨n, hn, hres⟩ := defined_instr.mp hdef
    obtain ⟨m, hm, rfl⟩ := List.mem_map.mp hn
    exact hinput m hm hres
  · rw [Graph.denote, ne_eq, run_any reach_sem hordered]
    rintro ⟨z, hoz, -, henv⟩
    obtain rfl := (initial_reach hbin).mp henv
    -- the output would be on the first part of the chain, which reads no tail
    have hon := reads_input hg.edges hbtail hbnot hinput hoz
    rcases reflTransGen_iff_eq_or_transGen.mp hon with heq | hchain
    · obtain ⟨w, hw, -⟩ := TransGen.head'_iff.mp hob
      obtain ⟨n, hn, hres, -⟩ := nodeReads_iff.mp hw
      exact hinput n hn (heq ▸ hres)
    · obtain ⟨y, hy⟩ := reads_firstChain hordered hg.edges hinput hchain hob
      exact hbtail.2.2 y hy

/-! ## Dropping dead edge nodes -/

/-- The loop ends with the nodes of some kind: every node that is no edge node, and no
other node gives anything that a kept node or a graph output reads. -/
theorem pruneLoop_ends (graphOutputs : List PyStr) (keep : List (Node A)) :
    ∃ P : Node A → Bool,
      (∀ fuel, keep.length < fuel →
        pruneLoop graphOutputs fuel keep = some (keep.filter P)) ∧
      (∀ n ∈ keep, n.isEdge = false → P n = true) ∧
      ∀ n ∈ keep, P n = false → ∀ o ∈ n.output, o ∉ graphOutputs ∧
        ∀ m ∈ keep, P m = true → o ∉ m.input := by
  induction hlen : keep.length using Nat.strong_induction_on generalizing keep with
  | _ len ih =>
    by_cases hdone : (keep.filter (Node.isDoomed graphOutputs keep)).isEmpty = true
    · refine ⟨fun _ => true, fun fuel hfuel => ?_, fun _ _ _ => rfl, fun _ _ h => ?_⟩
      · obtain ⟨fuel, rfl⟩ :=
          Nat.exists_eq_add_one_of_ne_zero (Nat.ne_of_gt (Nat.zero_lt_of_lt hfuel))
        rw [pruneLoop, if_pos hdone, List.filter_eq_self.mpr fun _ _ => rfl]
      · contradiction
    · -- the round drops the doomed nodes, at least one
      have hshort : (keep.filter fun n => !n.isDoomed graphOutputs keep).length < len := by
        rw [← hlen]
        refine List.length_filter_lt_length_iff_exists.mpr ?_
        rw [List.isEmpty_iff] at hdone
        obtain ⟨n, hn⟩ := List.exists_mem_of_ne_nil _ hdone
        obtain ⟨hn, hdoomed⟩ := List.mem_filter.mp hn
        exact ⟨n, hn, by simp [hdoomed]⟩
      obtain ⟨P, hloop, hplain, hdead⟩ := ih _ hshort _ rfl
      refine ⟨fun n => !n.isDoomed graphOutputs keep && P n, fun fuel hfuel => ?_,
        fun n hn hno => ?_, fun n hn hgone o ho => ?_⟩
      · obtain ⟨fuel, rfl⟩ :=
          Nat.exists_eq_add_one_of_ne_zero (Nat.ne_of_gt (Nat.zero_lt_of_lt hfuel))
        rw [pruneLoop, if_neg hdone, hloop fuel (by omega), List.filter_filter]
        congr 2
        funext n
        exact Bool.and_comm _ _
      · have hkeep : n.isDoomed graphOutputs keep = false := by simp [Node.isDoomed, hno]
        dsimp only
        rw [hkeep]
        exact hplain n (List.mem_filter.mpr ⟨hn, by rw [hkeep]; rfl⟩) hno
      · by_cases hdoomed : n.isDoomed graphOutputs keep = true
        · rw [Node.isDoomed, Bool.and_eq_true, Bool.not_eq_true', List.any_eq_false] at hdoomed
          have hunread := hdoomed.2 o ho
          rw [Bool.or_eq_true, not_or, List.contains_iff_mem, List.contains_iff_mem] at hunread
          refine ⟨hunread.2, fun m hm _ hread => hunread.1 ?_⟩
          exact List.mem_flatMap.mpr ⟨m, hm, hread⟩
        · rw [Bool.not_eq_true] at hdoomed
          dsimp only at hgone
          rw [hdoomed] at hgone
          have hn' : n ∈ keep.filter fun n => !n.isDoomed graphOutputs keep :=
            List.mem_filter.mpr ⟨hn, by rw [hdoomed]; rfl⟩
          obtain ⟨hout, hread⟩ := hdead n hn' hgone o ho
          refine ⟨hout, fun m hm hPm => ?_⟩
          rw [Bool.and_eq_true] at hPm
          exact hread m (List.mem_filter.mpr ⟨hm, hPm.1⟩) hPm.2

/-! ## The rewriting as a whole -/

/-- The node with other operands; omitted operands stay omitted. -/
def SameNode (n n' : Node A) : Prop :=
  n'.opType = n.opType ∧ n'.output = n.output ∧ n'.attributes = n.attributes ∧
    List.Forall₂ (fun x x' => x = [] ↔ x' = []) n.input n'.input

/-- The graph with fewer nodes, initializers and value infos, and other operands. -/
def Rewired (g g' : Graph A I T) : Prop :=
  g'.input = g.input ∧ g'.output = g.output ∧ g'.initializer.Sublist g.initializer ∧
    g'.valueInfo.Sublist g.valueInfo ∧
    ∃ kept, kept.Sublist g.node ∧ List.Forall₂ SameNode kept g'.node

/-- The checker judges each node by itself and the wiring of the whole graph, so a
well-formed rewiring of a graph that it accepts is accepted. -/
def ChecksWiring (checkModel : Graph A I T → Except E Unit) : Prop :=
  ∀ g g', checkModel g = .ok () → Rewired g g' → g'.WellFormed → checkModel g' = .ok ()

/-- The rewriting ends with a wired graph that keeps every node that is no edge node and
every graph output, in order, and the meaning of the outputs. -/
def Faithful (checkModel : Graph A I T → Except E Unit) (g : Graph A I T) : Prop :=
  ∃ g' collapsed,
    (∀ fuel, g.node.length < fuel →
      restoreFloatInputs checkModel fuel g = some (.ok (g', collapsed))) ∧
    g'.Wired ∧ g'.input = g.input ∧ g'.output = g.output ∧
    List.Forall₂ SameNode (g.node.filter (!·.isEdge)) (g'.node.filter (!·.isEdge)) ∧
    ∀ (V : Type) (r : Reading A T V) (inputs : PyStr → V), ∀ o ∈ names g.output,
      g'.denote r inputs o = g.denote r inputs o

/-- The renamed graph with the nodes of one kind, and what they refer to. -/
noncomputable def Graph.pruned (g : Graph A I T) (P : Node A → Bool) : Graph A I T :=
  let kept := g.renamed.filter P
  let refd := names g.output ++ liveInputs kept
  { g with
    node := kept
    initializer := g.initializer.filter fun t => refd.contains t.name
    valueInfo := g.valueInfo.filter fun v => refd.contains v.name }

/-- The nodes that may stay: all that are no edge nodes, and what the others or the graph
outputs read. -/
structure Graph.Keeps (g : Graph A I T) (P : Node A → Bool) : Prop where
  plain : ∀ n ∈ g.renamed, n.isEdge = false → P n = true
  dead : ∀ n ∈ g.renamed, P n = false → ∀ o ∈ n.output, o ∉ names g.output ∧
    ∀ m ∈ g.renamed, P m = true → o ∉ m.input

/-- The rewriting ends, whatever the bound, with such nodes of the renamed graph. -/
theorem restoreFloatInputs_ends (checkModel : Graph A I T → Except E Unit)
    (hg : g.WellFormed) :
    ∃ P collapsed, g.Keeps P ∧ ∀ fuel, g.node.length < fuel →
      restoreFloatInputs checkModel fuel g =
        some ((checkModel (g.pruned P)).map fun _ => (g.pruned P, collapsed)) := by
  have hstart : g.node.map (Node.rename (rewire g.node [])) = g.node := by
    have hid : Node.rename (A := A) (rewire g.node []) = id := by
      funext n
      simp [Node.rename, show rewire g.node [] = id from rfl]
    rw [hid, List.map_id]
  have hnodup : g.sortedInputs.Nodup := (List.perm_insertionSort _ _).nodup_iff.mpr hg.inputs
  have hinputs : ∀ x ∈ [] ++ g.sortedInputs, ∀ n ∈ g.node, x ∉ n.results :=
    fun x hx => hg.input_not_result (mem_sortedInputs.mp hx)
  have hnodup' : ([] ++ g.sortedInputs).Nodup := hnodup
  obtain ⟨collapsed, hrounds⟩ := rounds hg.ordered hg.edges hnodup' hinputs 0
  obtain ⟨P, hloop, hplain, hdead⟩ := pruneLoop_ends (names g.output) g.renamed
  refine ⟨P, collapsed, ⟨hplain, hdead⟩, fun fuel hfuel => ?_⟩
  have hfold := hrounds fuel hfuel
  rw [hstart, List.nil_append] at hfold
  have hprune : pruneDeadEdgeNodes fuel { g with node := g.renamed } = some (g.pruned P) := by
    have hfuel' : g.renamed.length < fuel := by rwa [Graph.renamed, List.length_map]
    exact congrArg (Option.map _) (hloop fuel hfuel')
  unfold restoreFloatInputs
  change (List.foldlM (collapse fuel) (g.node, 0) g.sortedInputs).bind _ = _
  rw [hfold]
  change (pruneDeadEdgeNodes fuel { g with node := g.renamed }).bind _ = _
  rw [hprune]
  rfl

/-- The operands of a renamed node. -/
theorem renamed_operand (hg : g.WellFormed) {before after : List (Node A)} {n : Node A}
    (hsplit : g.renamed = before ++ n :: after) {x : PyStr} (hx : x ∈ n.input) :
    x = [] ∨ x ∈ names g.input ∨ x ∈ names g.initializer ∨ ∃ m ∈ before, x ∈ m.output := by
  obtain ⟨b, rest, hnode, rfl, hrest⟩ := List.map_eq_append_iff.mp hsplit
  obtain ⟨m, a, rfl, rfl, rfl⟩ := List.map_eq_cons_iff.mp hrest
  obtain ⟨y, hy, rfl⟩ := List.mem_map.mp hx
  rcases rewire_operand g y with hkeep | hin
  · rw [hkeep]
    refine (hg.wired b m a hnode y hy).imp_right fun h => h.imp_right fun h => h.imp_right ?_
    rintro ⟨early, hearly, hout⟩
    exact ⟨_, List.mem_map_of_mem hearly, hout⟩
  · exact .inr (.inl hin)

/-- The pruned graph is wired: what a kept node reads is kept. -/
theorem pruned_wired (hg : g.WellFormed) {P : Node A → Bool} (hP : g.Keeps P) :
    (g.pruned P).Wired := by
  intro before n after hsplit x hx
  have hn : n ∈ g.renamed.filter P := by
    change n ∈ (g.pruned P).node
    rw [hsplit]
    exact List.mem_append_right _ List.mem_cons_self
  obtain ⟨l₁, l₂, hl, hl₁, hl₂⟩ := List.filter_eq_append_iff.mp hsplit
  obtain ⟨l₃, l₄, rfl, hl₃, hPn, -⟩ := List.filter_eq_cons_iff.mp hl₂
  rw [← List.append_assoc] at hl
  rcases renamed_operand hg hl hx with h0 | hin | hinit | ⟨m, hm, hout⟩
  · exact .inl h0
  · exact .inr (.inl hin)
  · refine .inr (.inr (.inl ?_))
    obtain ⟨t, ht, rfl⟩ := List.mem_map.mp hinit
    refine List.mem_map_of_mem (List.mem_filter.mpr ⟨ht, ?_⟩)
    rw [List.contains_iff_mem]
    exact List.mem_append_right _ (List.mem_flatMap.mpr ⟨n, hn, hx⟩)
  · refine .inr (.inr (.inr ⟨m, ?_, hout⟩))
    have hmem : m ∈ g.renamed := hl ▸ List.mem_append_left _ hm
    have hPm : P m = true := by
      by_contra hgone
      rw [Bool.not_eq_true] at hgone
      exact (hP.dead m hmem hgone x hout).2 n (List.mem_filter.mp hn).1 hPn hx
    rw [← hl₁]
    refine List.mem_filter.mpr ⟨(List.mem_append.mp hm).resolve_right fun h3 => ?_, hPm⟩
    exact hl₃ m h3 hPm

/-- Renamed nodes are the nodes with other operands. -/
theorem renamed_same (hg : g.WellFormed) (n : Node A) :
    SameNode n (n.rename (rewire g.node g.sortedInputs)) := by
  refine ⟨rfl, rfl, rfl, ?_⟩
  change List.Forall₂ _ n.input (n.input.map _)
  rw [List.forall₂_map_right_iff, List.forall₂_same]
  intro x _
  rcases rewire_cases g.node g.sortedInputs x with ⟨hkeep, -⟩ | ⟨hin, htail⟩
  · rw [hkeep]
  · refine iff_of_false ?_ fun h0 => hg.named (h0 ▸ mem_sortedInputs.mp hin)
    rintro rfl
    obtain ⟨m, -, hres⟩ := htail.result hg.edges
    exact (mem_results.mp hres).2 rfl

/-- A kind of renamed nodes stands for a kind of nodes. -/
theorem filter_same (hg : g.WellFormed) (P : Node A → Bool) :
    ∃ kept, kept.Sublist g.node ∧ List.Forall₂ SameNode kept (g.renamed.filter P) := by
  refine ⟨g.node.filter (P ∘ Node.rename (rewire g.node g.sortedInputs)),
    List.filter_sublist, ?_⟩
  rw [Graph.renamed, List.filter_map, List.forall₂_map_right_iff, List.forall₂_same]
  exact fun n _ => renamed_same hg n

theorem pruned_rewired (hg : g.WellFormed) (P : Node A → Bool) : Rewired g (g.pruned P) :=
  ⟨rfl, rfl, List.filter_sublist, List.filter_sublist, filter_same hg P⟩

/-- The pruned graph is well formed. -/
theorem pruned_wellFormed (hg : g.WellFormed) {P : Node A → Bool} (hP : g.Keeps P) :
    (g.pruned P).WellFormed := by
  have hnode : ∀ n ∈ (g.pruned P).node, ∃ m ∈ g.node, n.results = m.results ∧
      n.output = m.output ∧ n.isEdge = m.isEdge := by
    intro n hn
    obtain ⟨m, hm, rfl⟩ := List.mem_map.mp (List.mem_filter.mp hn).1
    exact ⟨m, hm, rfl, rfl, rfl⟩
  refine ⟨pruned_wired hg hP, hg.inputs, ?_, fun n hn x hx => ?_, fun n hn hedge => ?_, hg.named⟩
  · have hrenamed : g.renamed.flatMap Node.results = g.node.flatMap Node.results := by
      rw [Graph.renamed, List.flatMap_map]
      rfl
    exact ((List.filter_sublist (p := P)).flatMap Node.results).nodup (hrenamed ▸ hg.results)
  · obtain ⟨m, hm, hres, -⟩ := hnode n hn
    obtain ⟨hin, hinit⟩ := hg.apart m hm x (hres ▸ hx)
    refine ⟨hin, fun h => hinit ?_⟩
    exact (List.filter_sublist.map _).subset h
  · obtain ⟨m, hm, -, hout, hedge'⟩ := hnode n hn
    rw [hout]
    exact hg.edges m hm (hedge' ▸ hedge)

/-- Every node that is no edge node is kept, in order. -/
theorem pruned_plain (hg : g.WellFormed) {P : Node A → Bool} (hP : g.Keeps P) :
    List.Forall₂ SameNode (g.node.filter (!·.isEdge)) ((g.pruned P).node.filter (!·.isEdge)) := by
  have hkept : (g.pruned P).node.filter (!·.isEdge) = g.renamed.filter (!·.isEdge) := by
    change (g.renamed.filter P).filter _ = _
    rw [List.filter_filter]
    refine List.filter_congr fun n hn => ?_
    cases hedge : n.isEdge with
    | true => rfl
    | false => rw [hP.plain n hn hedge]; rfl
  rw [hkept, Graph.renamed, List.filter_map, List.forall₂_map_right_iff]
  exact List.forall₂_same.mpr fun n _ => renamed_same hg n

/-- Dropping the dead nodes and what nothing refers to changes no graph output. -/
theorem denote_pruned (hg : g.WellFormed) {P : Node A → Bool} (hP : g.Keeps P) {V : Type}
    (r : Reading A T V) (inputs : PyStr → V) {o : PyStr} (ho : o ∈ names g.output) :
    (g.pruned P).denote r inputs o =
      run r.sem (g.initial r inputs) (g.renamed.map Node.instr) o := by
  have hordered := ordered_instr hg.renamed_ordered
  have hfilter : run r.sem (g.initial r inputs) ((g.renamed.filter P).map Node.instr) o =
      run r.sem (g.initial r inputs) (g.renamed.map Node.instr) o := by
    refine run_filter hordered (fun a ha hgone y hy b hb hPb hread => ?_) fun a ha hgone hres => ?_
    · exact (hP.dead a ha hgone y (mem_results.mp hy).1).2 b hb hPb (operands_subset b hread)
    · exact (hP.dead a ha hgone o (mem_results.mp hres).1).1 ho
  rw [← hfilter]
  -- a dropped initializer is nothing that the kept nodes or the outputs refer to
  have hinitial : ∀ x, x ∈ names g.output ++ liveInputs (g.renamed.filter P) →
      (g.pruned P).initial r inputs x = g.initial r inputs x := by
    intro x hx
    have hfind : (g.pruned P).initializer.find? (fun t => t.name = x) =
        g.initializer.find? fun t => t.name = x := by
      change (g.initializer.filter _).find? _ = _
      rw [List.find?_filter]
      congr 1
      funext t
      by_cases heq : t.name = x
      · simp [hx, heq]
      · simp [heq]
    unfold Graph.initial
    rw [hfind]
    rfl
  refine run_congr (ordered_instr (pruned_wellFormed hg hP).ordered) (fun i hi u hu => ?_)
    (hinitial o (List.mem_append_left _ ho))
  obtain ⟨n, hn, rfl⟩ := List.mem_map.mp hi
  exact hinitial u (List.mem_append_right _ (List.mem_flatMap.mpr ⟨n, hn, operands_subset n hu⟩))

/-- The rewriting of a well-formed graph is faithful exactly when every observed tail
belongs to a chain of first operands. -/
theorem restoreFloatInputs_faithful_iff (checkModel : Graph A I T → Except E Unit)
    (hcheck : ChecksWiring checkModel) (hg : g.WellFormed) (haccepted : checkModel g = .ok ()) :
    Faithful checkModel g ↔ g.ChainsFirst := by
  obtain ⟨P, collapsed, hP, hrestore⟩ := restoreFloatInputs_ends checkModel hg
  have hpass := hcheck g (g.pruned P) haccepted (pruned_rewired hg P) (pruned_wellFormed hg hP)
  rw [hpass] at hrestore
  constructor
  · rintro ⟨g', collapsed', hends, -, -, -, -, hsame⟩
    by_contra hnot
    have heq : g' = g.pruned P := by
      have := (hends (g.node.length + 1) (Nat.lt_succ_self _)).symm.trans
        (hrestore (g.node.length + 1) (Nat.lt_succ_self _))
      exact (Prod.mk.inj (Except.ok.inj (Option.some.inj this))).1
    obtain ⟨o, ho, gi, htrue, hfalse⟩ := tails_reach hg hnot
    have hdenote := hsame Bool reach (fun y => decide (y = gi)) o ho
    rw [heq, denote_pruned hg hP _ _ ho, htrue] at hdenote
    exact hfalse hdenote.symm
  · intro hfirst
    refine ⟨g.pruned P, collapsed, hrestore, pruned_wired hg hP, rfl, rfl, pruned_plain hg hP, ?_⟩
    intro V r inputs o ho
    rw [denote_pruned hg hP r inputs ho, denote_renamed hg hfirst r inputs ho]

/-! ## A checker of schemas and wiring -/

/-- Why the checker refuses a graph. -/
inductive CheckError
  | schema
  | scope
  | singleAssignment
deriving DecidableEq, Repr

/-- What an operator asks of its nodes: the least and the greatest number of operands, of
which the least are required, and the number of results. -/
structure Schema where
  minInput : Nat
  maxInput : Nat
  output : Nat

/-- Some operators of ONNX. -/
def schemas : List (PyStr × Schema) :=
  [(py "QuantizeLinear", ⟨2, 3, 1⟩), (py "DequantizeLinear", ⟨2, 3, 1⟩), (py "Cast", ⟨1, 1, 1⟩),
    (py "Relu", ⟨1, 1, 1⟩), (py "Conv", ⟨2, 3, 1⟩)]

/-- Whether the node is as its operator asks. -/
def Node.hasSchema (n : Node A) : Bool :=
  (schemas.find? fun s => s.1 = n.opType).any fun s =>
    decide (s.2.minInput ≤ n.input.length) && decide (n.input.length ≤ s.2.maxInput) &&
      (n.input.take s.2.minInput).all (fun x => !x.isEmpty) &&
      decide (n.output.length = s.2.output) && n.output.all fun x => !x.isEmpty

/-- The nodes in order, with the names in scope: every operand is in scope, and every
result is new. -/
def checkNodes : List PyStr → List (Node A) → Except CheckError Unit
  | _, [] => .ok ()
  | scope, n :: rest =>
      if !n.input.all fun x => x.isEmpty || scope.contains x then .error .scope
      else if !n.hasSchema then .error .schema
      else if ¬ n.results.Nodup ∨ n.results.any scope.contains = true then
        .error .singleAssignment
      else checkNodes (scope ++ n.results) rest

/-- {lit}`onnx.checker.check_model(model, full_check=False)`, as far as nodes, operands and
results go: types, shapes and attributes are not looked at. -/
def checkGraph (g : Graph A I T) : Except CheckError Unit :=
  if (names g.input).Nodup then checkNodes (names g.input ++ names g.initializer) g.node
  else .error .singleAssignment

/-- An accepted node is as its operator asks. -/
theorem hasSchema_of_checkNodes {nodes : List (Node A)} {scope : List PyStr}
    (h : checkNodes scope nodes = .ok ()) : ∀ n ∈ nodes, n.hasSchema = true := by
  induction nodes generalizing scope with
  | nil => exact fun n hn => absurd hn List.not_mem_nil
  | cons n rest ih =>
      rw [checkNodes] at h
      split_ifs at h with hscope hschema hresults
      intro m hm
      rcases List.mem_cons.mp hm with rfl | hm'
      · simpa using hschema
      · exact ih h m hm'

/-- Ordered nodes with distinct results, each as its operator asks, are accepted. -/
theorem checkNodes_of_wired {nodes : List (Node A)} {scope : List PyStr}
    (hschema : ∀ n ∈ nodes, n.hasSchema = true)
    (hwired : ∀ before n after, nodes = before ++ n :: after → ∀ x ∈ n.input,
      x = [] ∨ x ∈ scope ∨ ∃ m ∈ before, x ∈ m.output)
    (hresults : (nodes.flatMap Node.results).Nodup)
    (hnew : ∀ n ∈ nodes, ∀ x ∈ n.results, x ∉ scope) : checkNodes scope nodes = .ok () := by
  induction nodes generalizing scope with
  | nil => rfl
  | cons n rest ih =>
      rw [List.flatMap_cons, List.nodup_append] at hresults
      obtain ⟨hown, hrest, hapart⟩ := hresults
      have hoperands : ∀ x ∈ n.input, x = [] ∨ x ∈ scope := by
        intro x hx
        rcases hwired [] n rest rfl x hx with h0 | hin | ⟨m, hm, -⟩
        · exact .inl h0
        · exact .inr hin
        · exact absurd hm List.not_mem_nil
      have hfresh := hnew n List.mem_cons_self
      rw [checkNodes, if_neg (by simpa [or_iff_not_imp_left] using hoperands),
        if_neg (by simp [hschema n List.mem_cons_self]), if_neg (by simpa [hown] using hfresh)]
      refine ih (fun m hm => hschema m (List.mem_cons_of_mem n hm)) ?_ hrest ?_
      · -- a result of the first node is in scope behind it
        intro before m after hsplit x hx
        rcases hwired (n :: before) m after (by rw [hsplit, List.cons_append]) x hx with
          h0 | hin | ⟨k, hk, hout⟩
        · exact .inl h0
        · exact .inr (.inl (List.mem_append_left _ hin))
        · by_cases h0 : x = []
          · exact .inl h0
          · rcases List.mem_cons.mp hk with rfl | hk'
            · exact .inr (.inl (List.mem_append_right _ (mem_results.mpr ⟨hout, h0⟩)))
            · exact .inr (.inr ⟨k, hk', hout⟩)
      · intro m hm x hx hscope
        rcases List.mem_append.mp hscope with hin | hfirst
        · exact hnew m (List.mem_cons_of_mem n hm) x hx hin
        · exact hapart x hfirst x (List.mem_flatMap.mpr ⟨m, hm, hx⟩) rfl

/-- Operands that are omitted in the same places. -/
theorem all_given {xs ys : List PyStr} (h : List.Forall₂ (fun x y => x = [] ↔ y = []) xs ys) :
    ys.all (fun y => !y.isEmpty) = xs.all fun x => !x.isEmpty := by
  induction h with
  | nil => rfl
  | @cons x y xs ys hxy _ ih =>
      have hempty : y.isEmpty = x.isEmpty := by
        rw [Bool.eq_iff_iff, List.isEmpty_iff, List.isEmpty_iff, hxy]
      rw [List.all_cons, List.all_cons, ih, hempty]

/-- A schema does not look at the names of the operands. -/
theorem SameNode.hasSchema {n n' : Node A} (h : SameNode n n') : n'.hasSchema = n.hasSchema := by
  obtain ⟨hop, hout, -, hinput⟩ := h
  have hsome : ∀ k, (n'.input.take k).all (fun x => !x.isEmpty) =
      (n.input.take k).all fun x => !x.isEmpty := fun k => all_given (List.forall₂_take k hinput)
  simp only [Node.hasSchema, hop, hout, hinput.length_eq, hsome]

/-- The checker judges schemas and wiring. -/
theorem checkGraph_checksWiring :
    ChecksWiring (checkGraph : Graph A I T → Except CheckError Unit) := by
  rintro g g' haccepted ⟨-, -, -, -, kept, hkept, hsame⟩ hg'
  have hschema : ∀ n' ∈ g'.node, n'.hasSchema = true := by
    intro n' hn'
    obtain ⟨i, hi, rfl⟩ := List.mem_iff_getElem.mp hn'
    have hpair := hsame.get (hsame.length_eq ▸ hi) hi
    rw [List.get_eq_getElem, List.get_eq_getElem] at hpair
    rw [checkGraph] at haccepted
    split_ifs at haccepted
    rw [hpair.hasSchema]
    exact hasSchema_of_checkNodes haccepted _ (hkept.subset (List.getElem_mem _))
  rw [checkGraph, if_pos hg'.inputs]
  refine checkNodes_of_wired hschema (fun before n after hsplit x hx => ?_) hg'.results
    fun n hn x hx hscope => ?_
  · rcases hg'.wired before n after hsplit x hx with h0 | hin | hinit | hout
    · exact .inl h0
    · exact .inr (.inl (List.mem_append_left _ hin))
    · exact .inr (.inl (List.mem_append_right _ hinit))
    · exact .inr (.inr hout)
  · obtain ⟨hin, hinit⟩ := hg'.apart n hn x hx
    exact (List.mem_append.mp hscope).elim hin hinit

/-- A graph of two nodes is wired when each of them is. -/
theorem wired_pair {g : Graph A I T} {n m : Node A} (hnode : g.node = [n, m])
    (hn : ∀ x ∈ n.input, x = [] ∨ x ∈ names g.input ∨ x ∈ names g.initializer)
    (hm : ∀ x ∈ m.input, x = [] ∨ x ∈ names g.input ∨ x ∈ names g.initializer ∨ x ∈ n.output) :
    g.Wired := by
  intro before k after hsplit x hx
  rw [hnode] at hsplit
  rcases before with - | ⟨b, before⟩
  · obtain ⟨rfl, -⟩ := List.cons.inj hsplit
    rcases hn x hx with h0 | hin | hinit
    · exact .inl h0
    · exact .inr (.inl hin)
    · exact .inr (.inr (.inl hinit))
  · rw [List.cons_append] at hsplit
    obtain ⟨rfl, hrest⟩ := List.cons.inj hsplit
    rcases before with - | ⟨c, before⟩
    · obtain ⟨rfl, -⟩ := List.cons.inj hrest
      rcases hm x hx with h0 | hin | hinit | hout
      · exact .inl h0
      · exact .inr (.inl hin)
      · exact .inr (.inr (.inl hinit))
      · exact .inr (.inr (.inr ⟨n, List.mem_singleton_self n, hout⟩))
    · have hlength := congrArg List.length hrest
      simp at hlength

/-! ## A chain through a scale -/

/-- A graph input is the scale of a quantized weight, which a node behind reads. -/
def scaleGraph : Graph Unit Unit Nat where
  node := [⟨py "QuantizeLinear", [py "weight", py "scale", py "zero"], [py "quantized"], ()⟩,
    ⟨py "Relu", [py "quantized"], [py "y"], ()⟩]
  input := [⟨py "scale", ()⟩]
  output := [⟨py "y", ()⟩]
  initializer := [⟨py "weight", 7⟩, ⟨py "zero", 0⟩]
  valueInfo := []

theorem scaleGraph_wellFormed : scaleGraph.WellFormed :=
  ⟨wired_pair rfl (by decide) (by decide), by decide, by decide, by decide, by decide, by decide⟩

/-- The node behind is rewired to the scale: its result no longer depends on the weight. -/
theorem scale_chain_changes :
    scaleGraph.WellFormed ∧ checkGraph scaleGraph = .ok () ∧
      ¬ Faithful checkGraph scaleGraph := by
  refine ⟨scaleGraph_wellFormed, by decide, ?_⟩
  rintro ⟨g', collapsed, hends, -, -, -, -, hsame⟩
  have hrun : ∃ out, restoreFloatInputs checkGraph 3 scaleGraph = some (.ok (out, 1)) ∧
      ∀ read : Nat, out.denote (⟨fun _ _ args _ => args.headD 0, id, 0⟩ : Reading Unit Nat Nat)
        (fun _ => read) (py "y") = read :=
    ⟨_, rfl, fun read => rfl⟩
  obtain ⟨out, hout, hread⟩ := hrun
  have heq : g' = out := by
    have := (hends 3 (by decide)).symm.trans hout
    exact (Prod.mk.inj (Except.ok.inj (Option.some.inj this))).1
  have hdenote := hsame Nat ⟨fun _ _ args _ => args.headD 0, id, 0⟩ (fun _ => 0) (py "y")
    List.mem_cons_self
  rw [heq, hread] at hdenote
  revert hdenote
  decide

/-- A camera image that is cast before the convolution reads it. -/
def imageGraph : Graph Unit Unit Nat where
  node := [⟨py "Cast", [py "images"], [py "cast"], ()⟩,
    ⟨py "Conv", [py "cast", py "weight"], [py "y"], ()⟩]
  input := [⟨py "images", ()⟩]
  output := [⟨py "y", ()⟩]
  initializer := [⟨py "weight", 7⟩]
  valueInfo := []

theorem imageGraph_wellFormed : imageGraph.WellFormed :=
  ⟨wired_pair rfl (by decide) (by decide), by decide, by decide, by decide, by decide, by decide⟩

/-- The image chain is collapsed faithfully. -/
theorem image_chain_faithful : Faithful checkGraph imageGraph := by
  refine (restoreFloatInputs_faithful_iff _ checkGraph_checksWiring imageGraph_wellFormed
    (by decide)).mpr ?_
  intro gi hgi t htail _ _
  obtain rfl : gi = py "images" := by simpa [names, imageGraph] using hgi
  have hfirst : FirstLink imageGraph.node (py "images") (py "cast") :=
    ⟨⟨py "Cast", [py "images"], [py "cast"], ()⟩, rfl, rfl, rfl, rfl⟩
  have hconv : consumers imageGraph.node (py "cast") =
      [⟨py "Conv", [py "cast", py "weight"], [py "y"], ()⟩] := rfl
  have hend : Tail imageGraph.node (py "images") (py "cast") := by
    refine ⟨.single hfirst.link, by simp [hconv], ?_⟩
    rintro y ⟨n, hn, hedge, -⟩
    obtain rfl := List.singleton_inj.mp (hconv.symm.trans hn)
    revert hedge
    decide
  rw [htail.unique hend]
  exact .single hfirst

end Recipes
end FrigateXdna
