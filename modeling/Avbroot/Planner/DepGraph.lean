/-
Module: Avbroot.Planner.DepGraph
Purpose: The vbmeta dependency graph that the planner of `main.py` receives from
  `vbmeta.get_vbmeta_deps`: a Python `dict[str, set[str]]` mapping each image to the images that
  its chain and hash descriptors name. The dict comprehensions of `get_vbmeta_patch_order` become
  `DepGraph.restrict` and `DepGraph.removeImages`. Acyclicity is stated literally (no image reaches
  itself) and turned once into a well-founded dependency relation, which every induction over the
  graph uses. `IsStaticOrder` is the documented contract of
  `graphlib.TopologicalSorter(graph).static_order()`.
Trusted boundary: `vbmeta.get_vbmeta_deps` and `graphlib` are not part of the source tree; their
  results are inputs, constrained only by the stated contracts.
Main exports: DepGraph, DepGraph.Edge, DepGraph.Acyclic, DepGraph.Acyclic.wellFounded,
  DepGraph.acyclic_of_rank, DepGraph.restrict, DepGraph.removeImages, IsStaticOrder
-/
import Mathlib.Data.Fintype.Card
import Mathlib.Data.Finset.Filter
import Mathlib.Logic.Relation

namespace Avbroot

/-- A dependency graph as `get_vbmeta_patch_order` manipulates it: the keys of the dict and, for
each key, its set of dependencies. Values of `deps` outside `nodes` are never read. -/
@[ext] structure DepGraph where
  nodes : Finset String
  deps : String → Finset String

namespace DepGraph

/-- `d` is a dependency of the image `n` (an edge `n → d` of the graph). -/
def Edge (g : DepGraph) (d n : String) : Prop :=
  n ∈ g.nodes ∧ d ∈ g.deps n

/-- No image depends on itself through a chain of dependencies. -/
def Acyclic (g : DepGraph) : Prop :=
  ∀ n, ¬ Relation.TransGen g.Edge n n

/-- A dependency of a key that is not a key has no dependencies of its own. -/
theorem acc_of_not_mem {g : DepGraph} {n : String} (absent : n ∉ g.nodes) : Acc g.Edge n :=
  Acc.intro n fun _ edge => absurd edge.1 absent

/-- In an acyclic graph the dependency relation is well-founded: the graph is finite, so a chain
of dependencies that never repeats an image ends. -/
theorem Acyclic.wellFounded {g : DepGraph} (acyclic : g.Acyclic) : WellFounded g.Edge := by
  let below : g.nodes → g.nodes → Prop := fun a b => Relation.TransGen g.Edge a.1 b.1
  haveI : IsTrans g.nodes below := ⟨fun _ _ _ one two => Relation.TransGen.trans one two⟩
  haveI : IsIrrefl g.nodes below := ⟨fun a => acyclic a.1⟩
  have finite : WellFounded below := Finite.wellFounded_of_trans_of_irrefl below
  have keys : ∀ top : g.nodes, Acc g.Edge top.1 := by
    intro top
    induction top using finite.induction with
    | _ top inductionHypothesis =>
      refine Acc.intro top.1 fun d edge => ?_
      by_cases present : d ∈ g.nodes
      · exact inductionHypothesis ⟨d, present⟩ (Relation.TransGen.single edge)
      · exact acc_of_not_mem present
  exact ⟨fun n => if member : n ∈ g.nodes then keys ⟨n, member⟩ else acc_of_not_mem member⟩

/-- A rank that strictly decreases along every dependency rules out cycles. -/
theorem acyclic_of_rank {g : DepGraph} (rank : String → Nat)
    (decreasing : ∀ d n, g.Edge d n → rank d < rank n) : g.Acyclic := by
  have chain : ∀ {a b}, Relation.TransGen g.Edge a b → rank a < rank b := by
    intro a b path
    induction path with
    | single edge => exact decreasing _ _ edge
    | tail _ edge inductionHypothesis => exact inductionHypothesis.trans (decreasing _ _ edge)
  exact fun n cycle => Nat.lt_irrefl _ (chain cycle)

/-- A graph whose edges are edges of an acyclic graph is acyclic. -/
theorem Acyclic.mono {g h : DepGraph} (acyclic : g.Acyclic)
    (sub : ∀ d n, h.Edge d n → g.Edge d n) : h.Acyclic :=
  fun n cycle => acyclic n (Relation.TransGen.mono sub cycle)

/-- `{n: {d for d in deps if d in keep} for n, deps in g.items() if n in keep}`: the first dict
comprehension of `get_vbmeta_patch_order`, with `keep` the keys of `image_paths`. -/
def restrict (g : DepGraph) (keep : String → Bool) : DepGraph where
  nodes := g.nodes.filter fun n => keep n
  deps n := (g.deps n).filter fun d => keep d

/-- `{n: {d for d in deps if d not in gone} for n, deps in g.items() if n not in gone}`: one
removal round of the pruning loop. -/
def removeImages (g : DepGraph) (gone : Finset String) : DepGraph where
  nodes := g.nodes.filter (· ∉ gone)
  deps n := (g.deps n).filter (· ∉ gone)

@[simp] theorem mem_restrict_nodes {g : DepGraph} {keep : String → Bool} {n : String} :
    n ∈ (g.restrict keep).nodes ↔ n ∈ g.nodes ∧ keep n = true := Finset.mem_filter

@[simp] theorem mem_restrict_deps {g : DepGraph} {keep : String → Bool} {n d : String} :
    d ∈ (g.restrict keep).deps n ↔ d ∈ g.deps n ∧ keep d = true := Finset.mem_filter

@[simp] theorem mem_removeImages_nodes {g : DepGraph} {gone : Finset String} {n : String} :
    n ∈ (g.removeImages gone).nodes ↔ n ∈ g.nodes ∧ n ∉ gone := Finset.mem_filter

@[simp] theorem mem_removeImages_deps {g : DepGraph} {gone : Finset String} {n d : String} :
    d ∈ (g.removeImages gone).deps n ↔ d ∈ g.deps n ∧ d ∉ gone := Finset.mem_filter

@[simp] theorem removeImages_empty (g : DepGraph) : g.removeImages ∅ = g := by
  ext <;> simp

/-- Two removal rounds remove the union of what each removed. -/
theorem removeImages_removeImages (g : DepGraph) (first second : Finset String) :
    (g.removeImages first).removeImages second = g.removeImages (first ∪ second) := by
  ext <;> simp [and_assoc]

end DepGraph

/-- The contract of `graphlib.TopologicalSorter(graph).static_order()` on an acyclic graph: every
key and every dependency of a key appears exactly once, and each dependency appears before the key
that names it. Which of these orders a run returns depends on Python's set iteration order. -/
structure IsStaticOrder (g : DepGraph) (order : List String) : Prop where
  nodup : order.Nodup
  mem : ∀ x, x ∈ order ↔ x ∈ g.nodes ∨ ∃ n ∈ g.nodes, x ∈ g.deps n
  deps_before : ∀ pre n post, order = pre ++ n :: post → ∀ d, g.Edge d n → d ∈ pre

end Avbroot
