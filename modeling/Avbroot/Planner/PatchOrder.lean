/-
Module: Avbroot.Planner.PatchOrder
Purpose: `get_vbmeta_patch_order` of `main.py`. The dependency graph of the vbmeta images is
  restricted to the images being worked with, then vbmeta images whose dependency set is empty are
  removed round after round until none is left, and the rest is ordered by `graphlib`. The pruning
  loop is a total function (each round removes at least one key). Its fixpoint is characterised by
  an invariant over the removal rounds: a vbmeta image survives iff a chain of dependencies leads
  from it to an image that is not a vbmeta image, that is, to a patched or replaced partition.
Trusted boundary: `vbmeta.get_vbmeta_deps` (the graph) and `static_order` (the order) are inputs.
Main exports: unneededVbmeta, pruneUnneeded, restrictedDeps, edge_restrictedDeps,
  getVbmetaPatchOrder, LeadsToModified, pruneUnneeded_spec, survives_iff_leadsToModified
-/
import Avbroot.Planner.DepGraph

namespace Avbroot

open DepGraph

/-- `set(n for n, d in dep_graph.items() if n in vbmeta_images and not d)`. -/
def unneededVbmeta (vbmetaImages : Finset String) (depGraph : DepGraph) : Finset String :=
  depGraph.nodes.filter fun n => n ∈ vbmetaImages ∧ depGraph.deps n = ∅

@[simp] theorem mem_unneededVbmeta {vbmetaImages : Finset String} {depGraph : DepGraph}
    {n : String} :
    n ∈ unneededVbmeta vbmetaImages depGraph ↔
      n ∈ depGraph.nodes ∧ n ∈ vbmetaImages ∧ depGraph.deps n = ∅ := Finset.mem_filter

/-- A round that removes something shrinks the set of keys. -/
theorem card_removeImages_unneeded_lt {vbmetaImages : Finset String} {depGraph : DepGraph}
    (nonempty : unneededVbmeta vbmetaImages depGraph ≠ ∅) :
    (depGraph.removeImages (unneededVbmeta vbmetaImages depGraph)).nodes.card <
      depGraph.nodes.card := by
  obtain ⟨n, member⟩ := Finset.nonempty_iff_ne_empty.mpr nonempty
  exact Finset.card_lt_card (Finset.filter_ssubset.mpr
    ⟨n, (mem_unneededVbmeta.mp member).1, fun kept => kept member⟩)

/-- The `while True` loop of `get_vbmeta_patch_order`: stop when no vbmeta image has an empty
dependency set, otherwise remove all such images, from the keys and from every dependency set. -/
def pruneUnneeded (vbmetaImages : Finset String) (depGraph : DepGraph) : DepGraph :=
  if _ : unneededVbmeta vbmetaImages depGraph = ∅ then depGraph
  else pruneUnneeded vbmetaImages
    (depGraph.removeImages (unneededVbmeta vbmetaImages depGraph))
termination_by depGraph.nodes.card
decreasing_by exact card_removeImages_unneeded_lt ‹_›

/-- `{n: image_paths[n] for n in vbmeta_images}`, the argument of `vbmeta.get_vbmeta_deps`. -/
def vbmetaPaths (imagePaths : String → Option String) (vbmetaImages : Finset String) :
    String → Option String :=
  fun n => if n ∈ vbmetaImages then imagePaths n else none

/-- The graph after the first comprehension: dependencies among the images of `image_paths`. -/
def restrictedDeps (getVbmetaDeps : (String → Option String) → DepGraph)
    (imagePaths : String → Option String) (vbmetaImages : Finset String) : DepGraph :=
  (getVbmetaDeps (vbmetaPaths imagePaths vbmetaImages)).restrict fun n => (imagePaths n).isSome

section Restricted

variable {getVbmetaDeps : (String → Option String) → DepGraph}
  {imagePaths : String → Option String} {vbmetaImages : Finset String}

/-- The keys of the restricted graph: the keys of `get_vbmeta_deps`'s graph in `image_paths`. -/
theorem mem_restrictedDeps_nodes {n : String} :
    n ∈ (restrictedDeps getVbmetaDeps imagePaths vbmetaImages).nodes ↔
      n ∈ (getVbmetaDeps (vbmetaPaths imagePaths vbmetaImages)).nodes ∧ (imagePaths n).isSome :=
  DepGraph.mem_restrict_nodes

/-- The edges of the restricted graph: the edges of `get_vbmeta_deps`'s graph from an image of
`image_paths` to another one. -/
theorem edge_restrictedDeps {d n : String} :
    (restrictedDeps getVbmetaDeps imagePaths vbmetaImages).Edge d n ↔
      (getVbmetaDeps (vbmetaPaths imagePaths vbmetaImages)).Edge d n ∧
        (imagePaths n).isSome ∧ (imagePaths d).isSome := by
  simp only [restrictedDeps, DepGraph.Edge, DepGraph.mem_restrict_nodes, DepGraph.mem_restrict_deps]
  tauto

end Restricted

/-- `get_vbmeta_patch_order(avb, image_paths, vbmeta_images)`: the reduced dependency graph and the
vbmeta images of `static_order`, in that order. -/
def getVbmetaPatchOrder (getVbmetaDeps : (String → Option String) → DepGraph)
    (imagePaths : String → Option String) (vbmetaImages : Finset String)
    (staticOrder : DepGraph → List String) : DepGraph × List String :=
  let depGraph := pruneUnneeded vbmetaImages (restrictedDeps getVbmetaDeps imagePaths vbmetaImages)
  (depGraph, (staticOrder depGraph).filter (· ∈ vbmetaImages))

/-- A chain of dependencies of `g` leads from an image to an image that is not a vbmeta image. -/
inductive LeadsToModified (g : DepGraph) (vbmetaImages : Finset String) : String → Prop
  | direct {n d : String} : g.Edge d n → d ∉ vbmetaImages → LeadsToModified g vbmetaImages n
  | chain {n d : String} : g.Edge d n → LeadsToModified g vbmetaImages d →
      LeadsToModified g vbmetaImages n

/-- The first step of a chain that leads to a modified image. -/
theorem LeadsToModified.first_step {g : DepGraph} {vbmetaImages : Finset String} {n : String}
    (leads : LeadsToModified g vbmetaImages n) :
    ∃ d, g.Edge d n ∧ (d ∉ vbmetaImages ∨ LeadsToModified g vbmetaImages d) := by
  cases leads with
  | direct edge modified => exact ⟨_, edge, .inl modified⟩
  | chain edge rest => exact ⟨_, edge, .inr rest⟩

/-!
### The removal rounds

Every graph the loop visits is the restricted graph `g` with some set `gone` of vbmeta images
removed. Nothing that leads to a modified image is ever removed: its first dependency towards the
modified image is still present, so its dependency set is not empty. At the fixpoint the converse
holds by well-founded induction over the dependencies, since the graph is acyclic.
-/

section Rounds

variable {g : DepGraph} {vbmetaImages : Finset String}

/-- One round removes only images that lead to no modified image. -/
theorem not_leadsToModified_of_unneeded {gone : Finset String}
    (goneVbmeta : gone ⊆ vbmetaImages)
    (goneUnneeded : ∀ r ∈ gone, ¬ LeadsToModified g vbmetaImages r) {u : String}
    (member : u ∈ unneededVbmeta vbmetaImages (g.removeImages gone)) :
    ¬ LeadsToModified g vbmetaImages u := by
  intro leads
  obtain ⟨d, edge, target⟩ := leads.first_step
  have present : d ∉ gone := by
    rcases target with modified | further
    · exact fun removed => modified (goneVbmeta removed)
    · exact fun removed => goneUnneeded d removed further
  have empty := (mem_unneededVbmeta.mp member).2.2
  have : d ∈ (g.removeImages gone).deps u := mem_removeImages_deps.mpr ⟨edge.2, present⟩
  simp [empty] at this

/-- The loop invariant, carried to the fixpoint: the final graph removes a set of vbmeta images
none of which leads to a modified image, and no vbmeta image of it has an empty dependency set. -/
theorem pruneUnneeded_spec (gone : Finset String) (goneVbmeta : gone ⊆ vbmetaImages)
    (goneUnneeded : ∀ r ∈ gone, ¬ LeadsToModified g vbmetaImages r) :
    ∃ final : Finset String,
      pruneUnneeded vbmetaImages (g.removeImages gone) = g.removeImages final ∧
      final ⊆ vbmetaImages ∧ (∀ r ∈ final, ¬ LeadsToModified g vbmetaImages r) ∧
      unneededVbmeta vbmetaImages (g.removeImages final) = ∅ := by
  generalize visited : g.removeImages gone = current
  induction current using pruneUnneeded.induct vbmetaImages generalizing gone with
  | case1 current fixpoint =>
    subst visited
    rw [pruneUnneeded, dif_pos fixpoint]
    exact ⟨gone, rfl, goneVbmeta, goneUnneeded, fixpoint⟩
  | case2 current progress inductionHypothesis =>
    subst visited
    rw [pruneUnneeded, dif_neg progress]
    refine inductionHypothesis (gone ∪ unneededVbmeta vbmetaImages (g.removeImages gone))
      (fun r member => ?_) (fun r member => ?_) (removeImages_removeImages _ _ _).symm
    · rcases Finset.mem_union.mp member with old | new
      · exact goneVbmeta old
      · exact (mem_unneededVbmeta.mp new).2.1
    · rcases Finset.mem_union.mp member with old | new
      · exact goneUnneeded r old
      · exact not_leadsToModified_of_unneeded goneVbmeta goneUnneeded new

/-- At a fixpoint of an acyclic graph, every vbmeta image that was not removed leads to a
modified image. -/
theorem leadsToModified_of_fixpoint (wellFounded : WellFounded g.Edge)
    (keys : vbmetaImages ⊆ g.nodes) {final : Finset String}
    (fixpoint : unneededVbmeta vbmetaImages (g.removeImages final) = ∅) :
    ∀ v, v ∈ vbmetaImages → v ∉ final → LeadsToModified g vbmetaImages v := by
  intro v
  induction v using wellFounded.induction with
  | _ v inductionHypothesis =>
    intro vbmeta kept
    have needed : v ∉ unneededVbmeta vbmetaImages (g.removeImages final) := by simp [fixpoint]
    have nonempty : (g.removeImages final).deps v ≠ ∅ := fun empty =>
      needed (mem_unneededVbmeta.mpr ⟨mem_removeImages_nodes.mpr ⟨keys vbmeta, kept⟩, vbmeta, empty⟩)
    obtain ⟨d, member⟩ := Finset.nonempty_iff_ne_empty.mpr nonempty
    obtain ⟨dependency, present⟩ := mem_removeImages_deps.mp member
    have edge : g.Edge d v := ⟨keys vbmeta, dependency⟩
    by_cases isVbmeta : d ∈ vbmetaImages
    · exact .chain edge (inductionHypothesis d edge isVbmeta present)
    · exact .direct edge isVbmeta

end Rounds

/-- The loop run from the restricted graph: it stops at a fixpoint that removed a set of vbmeta
images none of which leads to a modified image. -/
theorem pruneUnneeded_eq_removeImages (g : DepGraph) (vbmetaImages : Finset String) :
    ∃ final : Finset String,
      pruneUnneeded vbmetaImages g = g.removeImages final ∧
      final ⊆ vbmetaImages ∧ (∀ r ∈ final, ¬ LeadsToModified g vbmetaImages r) ∧
      unneededVbmeta vbmetaImages (g.removeImages final) = ∅ := by
  simpa using @pruneUnneeded_spec g vbmetaImages ∅ (Finset.empty_subset _)

/-- The pruning loop of `get_vbmeta_patch_order` on an acyclic graph: it reaches the fixpoint where
no vbmeta image has an empty dependency set, and a vbmeta image survives it iff a chain of
dependencies leads from it to an image that is not a vbmeta image. -/
theorem survives_iff_leadsToModified {g : DepGraph} {vbmetaImages : Finset String}
    (acyclic : g.Acyclic) (keys : vbmetaImages ⊆ g.nodes) :
    unneededVbmeta vbmetaImages (pruneUnneeded vbmetaImages g) = ∅ ∧
      ∀ v ∈ vbmetaImages,
        v ∈ (pruneUnneeded vbmetaImages g).nodes ↔ LeadsToModified g vbmetaImages v := by
  obtain ⟨final, result, -, finalUnneeded, fixpoint⟩ := pruneUnneeded_eq_removeImages g vbmetaImages
  rw [result]
  refine ⟨fixpoint, fun v vbmeta => ?_⟩
  rw [mem_removeImages_nodes]
  constructor
  · exact fun kept => leadsToModified_of_fixpoint acyclic.wellFounded keys fixpoint v vbmeta kept.2
  · exact fun leads => ⟨keys vbmeta, fun removed => finalUnneeded v removed leads⟩

/-- A vbmeta image that a surviving image still depends on survived too. -/
theorem mem_nodes_of_mem_deps_pruneUnneeded {g : DepGraph} {vbmetaImages : Finset String}
    (keys : vbmetaImages ⊆ g.nodes) {n v : String}
    (dependency : v ∈ (pruneUnneeded vbmetaImages g).deps n) (vbmeta : v ∈ vbmetaImages) :
    v ∈ (pruneUnneeded vbmetaImages g).nodes := by
  obtain ⟨final, result, -⟩ := pruneUnneeded_eq_removeImages g vbmetaImages
  rw [result] at dependency ⊢
  exact mem_removeImages_nodes.mpr ⟨keys vbmeta, (mem_removeImages_deps.mp dependency).2⟩

/-- The order `get_vbmeta_patch_order` returns lists exactly the vbmeta images of the reduced
graph, when every vbmeta image is a key of the restricted graph. -/
theorem mem_getVbmetaPatchOrder_order {getVbmetaDeps : (String → Option String) → DepGraph}
    {imagePaths : String → Option String} {vbmetaImages : Finset String}
    {staticOrder : DepGraph → List String}
    (keys : vbmetaImages ⊆ (restrictedDeps getVbmetaDeps imagePaths vbmetaImages).nodes)
    (sorted : IsStaticOrder (getVbmetaPatchOrder getVbmetaDeps imagePaths vbmetaImages staticOrder).1
      (staticOrder (getVbmetaPatchOrder getVbmetaDeps imagePaths vbmetaImages staticOrder).1))
    (v : String) :
    v ∈ (getVbmetaPatchOrder getVbmetaDeps imagePaths vbmetaImages staticOrder).2 ↔
      v ∈ vbmetaImages ∧
        v ∈ (getVbmetaPatchOrder getVbmetaDeps imagePaths vbmetaImages staticOrder).1.nodes := by
  show v ∈ (staticOrder (getVbmetaPatchOrder getVbmetaDeps imagePaths vbmetaImages
    staticOrder).1).filter (· ∈ vbmetaImages) ↔ _
  rw [List.mem_filter, sorted.mem, decide_eq_true_iff]
  refine ⟨fun ⟨listed, vbmeta⟩ => ⟨vbmeta, ?_⟩, fun ⟨vbmeta, node⟩ => ⟨.inl node, vbmeta⟩⟩
  rcases listed with node | ⟨n, -, dependency⟩
  · exact node
  · exact mem_nodes_of_mem_deps_pruneUnneeded keys dependency vbmeta

/-- `get_vbmeta_patch_order` keeps exactly the vbmeta images above a modified image. For a graph
from `get_vbmeta_deps` that is acyclic and has a key for every vbmeta image, with every vbmeta
image in `image_paths`: the pruning loop stops at its fixpoint; a vbmeta image stays in the reduced
graph, and so in the order, iff a dependency path of the restricted graph (the graph of
`get_vbmeta_deps` between images of `image_paths`, `edge_restrictedDeps`) leads from it to an image
that is not a vbmeta image; every vbmeta image that depends on a modified image or on a kept vbmeta
image is kept; and every kept vbmeta image still has a dependency. -/
theorem getVbmetaPatchOrder_keeps_needed_vbmeta
    (getVbmetaDeps : (String → Option String) → DepGraph) (imagePaths : String → Option String)
    (vbmetaImages : Finset String) (staticOrder : DepGraph → List String)
    (acyclic : (getVbmetaDeps (vbmetaPaths imagePaths vbmetaImages)).Acyclic)
    (entries : vbmetaImages ⊆ (getVbmetaDeps (vbmetaPaths imagePaths vbmetaImages)).nodes)
    (present : ∀ v ∈ vbmetaImages, (imagePaths v).isSome)
    (sorted : IsStaticOrder (getVbmetaPatchOrder getVbmetaDeps imagePaths vbmetaImages staticOrder).1
      (staticOrder (getVbmetaPatchOrder getVbmetaDeps imagePaths vbmetaImages staticOrder).1)) :
    let planned := getVbmetaPatchOrder getVbmetaDeps imagePaths vbmetaImages staticOrder
    let restricted := restrictedDeps getVbmetaDeps imagePaths vbmetaImages
    unneededVbmeta vbmetaImages planned.1 = ∅ ∧
    (∀ v ∈ vbmetaImages, v ∈ planned.1.nodes ↔ LeadsToModified restricted vbmetaImages v) ∧
    (∀ v ∈ vbmetaImages, v ∈ planned.2 ↔ v ∈ planned.1.nodes) ∧
    (∀ n ∈ vbmetaImages, ∀ d, restricted.Edge d n →
      d ∉ vbmetaImages ∨ d ∈ planned.1.nodes → n ∈ planned.1.nodes) ∧
    (∀ v ∈ planned.1.nodes, v ∈ vbmetaImages → (planned.1.deps v).Nonempty) := by
  intro planned restricted
  have keys : vbmetaImages ⊆ restricted.nodes := fun v vbmeta =>
    mem_restrictedDeps_nodes.mpr ⟨entries vbmeta, present v vbmeta⟩
  obtain ⟨fixpoint, survives⟩ :=
    survives_iff_leadsToModified (acyclic.mono fun _ _ edge => (edge_restrictedDeps.mp edge).1) keys
  refine ⟨fixpoint, survives, fun v vbmeta => ?_, fun n vbmeta d edge target => ?_,
    fun v node vbmeta => ?_⟩
  · exact (mem_getVbmetaPatchOrder_order keys sorted v).trans (and_iff_right vbmeta)
  · refine (survives n vbmeta).mpr ?_
    by_cases isVbmeta : d ∈ vbmetaImages
    · exact .chain edge ((survives d isVbmeta).mp (target.resolve_left (not_not.mpr isVbmeta)))
    · exact .direct edge isVbmeta
  · refine Finset.nonempty_iff_ne_empty.mpr fun empty => ?_
    have member : v ∈ unneededVbmeta vbmetaImages planned.1 :=
      mem_unneededVbmeta.mpr ⟨node, vbmeta, empty⟩
    rw [show unneededVbmeta vbmetaImages planned.1 = ∅ from fixpoint] at member
    exact Finset.not_mem_empty v member

/-- A two-level layout: `vbmeta` hashes `boot` and chains `vbmeta_system`, which names nothing. -/
def sampleVbmetaDeps : (String → Option String) → DepGraph := fun _ =>
  { nodes := {"vbmeta", "vbmeta_system"}
    deps := fun n => if n = "vbmeta" then {"boot", "vbmeta_system"} else ∅ }

/-- `image_paths` holding the patched `boot` and both extracted vbmeta images. -/
def sampleImagePaths : String → Option String := fun n =>
  if n ∈ ["boot", "vbmeta", "vbmeta_system"] then some (n ++ ".img") else none

theorem sample_pruned_nodes :
    (pruneUnneeded {"vbmeta", "vbmeta_system"}
      (restrictedDeps sampleVbmetaDeps sampleImagePaths {"vbmeta", "vbmeta_system"})).nodes =
      {"vbmeta"} := by
  rw [pruneUnneeded, dif_neg (by decide), pruneUnneeded, dif_pos (by decide)]
  decide

theorem sample_pruned_deps :
    (pruneUnneeded {"vbmeta", "vbmeta_system"}
      (restrictedDeps sampleVbmetaDeps sampleImagePaths {"vbmeta", "vbmeta_system"})).deps "vbmeta" =
      {"boot"} := by
  rw [pruneUnneeded, dif_neg (by decide), pruneUnneeded, dif_pos (by decide)]
  decide

/-- The planner on the sample layout, with `static_order` returning `boot, vbmeta`. -/
theorem getVbmetaPatchOrder_sample :
    (sampleVbmetaDeps (vbmetaPaths sampleImagePaths {"vbmeta", "vbmeta_system"})).Acyclic ∧
    {"vbmeta", "vbmeta_system"} ⊆
      (sampleVbmetaDeps (vbmetaPaths sampleImagePaths {"vbmeta", "vbmeta_system"})).nodes ∧
    (∀ v ∈ ({"vbmeta", "vbmeta_system"} : Finset String), (sampleImagePaths v).isSome) ∧
    IsStaticOrder (getVbmetaPatchOrder sampleVbmetaDeps sampleImagePaths {"vbmeta", "vbmeta_system"}
        (fun _ => ["boot", "vbmeta"])).1 ["boot", "vbmeta"] ∧
    let planned := getVbmetaPatchOrder sampleVbmetaDeps sampleImagePaths
      {"vbmeta", "vbmeta_system"} (fun _ => ["boot", "vbmeta"])
    let restricted := restrictedDeps sampleVbmetaDeps sampleImagePaths {"vbmeta", "vbmeta_system"}
    unneededVbmeta {"vbmeta", "vbmeta_system"} planned.1 = ∅ ∧
    (∀ v ∈ ({"vbmeta", "vbmeta_system"} : Finset String),
      v ∈ planned.1.nodes ↔ LeadsToModified restricted {"vbmeta", "vbmeta_system"} v) ∧
    (∀ v ∈ ({"vbmeta", "vbmeta_system"} : Finset String), v ∈ planned.2 ↔ v ∈ planned.1.nodes) ∧
    (∀ n ∈ ({"vbmeta", "vbmeta_system"} : Finset String), ∀ d, restricted.Edge d n →
      d ∉ ({"vbmeta", "vbmeta_system"} : Finset String) ∨ d ∈ planned.1.nodes →
        n ∈ planned.1.nodes) ∧
    (∀ v ∈ planned.1.nodes, v ∈ ({"vbmeta", "vbmeta_system"} : Finset String) →
      (planned.1.deps v).Nonempty) := by
  have acyclic : (sampleVbmetaDeps
      (vbmetaPaths sampleImagePaths {"vbmeta", "vbmeta_system"})).Acyclic := by
    refine acyclic_of_rank (fun n => if n = "vbmeta" then 1 else 0) fun d n edge => ?_
    simp only [DepGraph.Edge, sampleVbmetaDeps, Finset.mem_insert, Finset.mem_singleton] at edge
    obtain ⟨rfl | rfl, dependency⟩ := edge <;> simp at dependency
    rcases dependency with rfl | rfl <;> decide
  have sorted : IsStaticOrder (getVbmetaPatchOrder sampleVbmetaDeps sampleImagePaths
      {"vbmeta", "vbmeta_system"} (fun _ => ["boot", "vbmeta"])).1 ["boot", "vbmeta"] := by
    refine ⟨by decide, fun x => ?_, fun pre n post split d edge => ?_⟩
    · simp only [getVbmetaPatchOrder, sample_pruned_nodes, Finset.mem_singleton, exists_eq_left,
        sample_pruned_deps, List.mem_cons, List.not_mem_nil, or_false]
      tauto
    · simp only [getVbmetaPatchOrder, DepGraph.Edge, sample_pruned_nodes,
        Finset.mem_singleton] at edge
      obtain ⟨rfl, dependency⟩ := edge
      rw [sample_pruned_deps, Finset.mem_singleton] at dependency
      subst dependency
      rcases pre with _ | ⟨a, _ | ⟨b, rest⟩⟩ <;> simp_all
  exact ⟨acyclic, by decide, by decide, sorted,
    getVbmetaPatchOrder_keeps_needed_vbmeta _ _ _ _ acyclic (by decide) (by decide) sorted⟩

end Avbroot
