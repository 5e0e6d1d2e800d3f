import AgenticOS.Data.DepthFirst
import AgenticOS.Plugins.Registry

/-!
# The order of installation

`resolve_dependencies` builds the graph of the required dependencies below a plugin and sorts it,
both depth first. Recursion is taken to be as deep as it has to be.
-/

namespace AgenticOS.Plugins

open Dependencies DepthFirst Relation List

structure GraphBuild where
  graph : Dict String (List String)
  visited : Finset String

namespace GraphBuild

/-- `graph.get(name, [])`. -/
def edges (build : GraphBuild) (name : String) : List String :=
  (build.graph.get? name).getD []

def setEdges (build : GraphBuild) (name : String) (deps : List String) : GraphBuild :=
  { build with graph := build.graph.set name deps }

def require (build : GraphBuild) (name dep : String) : GraphBuild :=
  let added := build.setEdges name (build.edges name ++ [dep])
  added.setEdges dep (added.edges dep)

/-- Add the edges of a plugin, and visit the target of each. -/
def visitAll (visit : GraphBuild → String → Option GraphBuild) (name : String) :
    GraphBuild → List String → Option GraphBuild
  | build, [] => some build
  | build, dep :: rest =>
    match visit (build.require name dep) dep with
    | none => none
    | some build => visitAll visit name build rest

def visit (plugins : List PluginInstance) : Nat → GraphBuild → String → Option GraphBuild
  | 0, _, _ => none
  | depth + 1, build, name =>
    if name ∈ build.visited then some build
    else visitAll (visit plugins depth) name { build with visited := insert name build.visited }
      (requirements plugins name)

end GraphBuild

/-- Sort the keys of the graph that are not sorted yet. -/
def sortAll (edges : String → List String) (depth : Nat) :
    Marks String → List String → Option (Except String (List String))
  | marks, [] => some (.ok marks.finished)
  | marks, node :: rest =>
    if node ∈ marks.finished then sortAll edges depth marks rest
    else
      match DepthFirst.visit edges depth marks node with
      | none => none
      | some (some met, _) => some (.error ("Circular dependency detected involving " ++ met))
      | some (none, marks) => sortAll edges depth marks rest

/-- Get the installation order of a plugin and its dependencies, or the text of an error. Only
what is installed requires anything, so that no recursion is deeper than there are plugins, and
one more. -/
def resolveDependencies (plugins : List PluginInstance) (name : String) :
    Option (Except String (List String)) :=
  match getPlugin plugins name with
  | none => some (.ok [name])
  | some _ =>
    match GraphBuild.visit plugins (plugins.length + 1) ⟨.ofList [(name, [])], ∅⟩ name with
    | none => none
    | some build => sortAll build.edges (plugins.length + 1) {} build.graph.keys

variable {plugins : List PluginInstance} {build after : GraphBuild} {name dep : String}

namespace GraphBuild

theorem edges_setEdges (deps : List String) (other : String) :
    (build.setEdges name deps).edges other = if other = name then deps else build.edges other := by
  rw [edges, setEdges, Dict.get?_set]
  split
  · rfl
  · rfl

theorem edges_begin {other : String} : edges ⟨.ofList [(name, [])], ∅⟩ other = [] := by
  rw [edges, Dict.get?_ofList]
  by_cases here : name = other
  · simp [here]
  · simp [here]

theorem edges_require (other : String) : (build.require name dep).edges other =
    build.edges other ++ if other = name then [dep] else [] := by
  rw [require, edges_setEdges, edges_setEdges, edges_setEdges]
  split
  next target =>
    subst target
    split
    next here => rw [here]
    next => rw [append_nil]
  next =>
    split
    next here => rw [here]
    next => rw [append_nil]

theorem keys_setEdges (deps : List String) :
    build.graph.keys <+: (build.setEdges name deps).graph.keys := by
  rw [setEdges, Dict.keys, Dict.set, Dict.keys, Dict.keys_assign]
  split
  · exact prefix_rfl
  · exact prefix_append _ _

theorem keys_require : build.graph.keys <+: (build.require name dep).graph.keys :=
  (keys_setEdges _).trans (keys_setEdges _)

theorem mem_keys_require {other : String} : other ∈ (build.require name dep).graph.keys ↔
    other = dep ∨ other = name ∨ other ∈ build.graph.keys := by
  rw [require, setEdges, Dict.mem_keys_set, setEdges, Dict.mem_keys_set]

/-- What visiting adds to the graph: all requirements of what is newly visited, and some of the
plugin whose requirements are being gone through. -/
structure Built (plugins : List PluginInstance) (source : String) (added : List String)
    (build after : GraphBuild) : Prop where
  grown : build.visited ⊆ after.visited
  kept : ∀ other ∈ build.visited,
    after.edges other = build.edges other ++ if other = source then added else []
  filled : ∀ other ∈ after.visited, other ∉ build.visited →
    after.edges other = requirements plugins other ∧
      ∀ dep ∈ requirements plugins other, dep ∈ after.visited
  empty : ∀ other, other ∉ after.visited → after.edges other = []
  extended : build.graph.keys <+: after.graph.keys
  keys : ∀ other ∈ after.graph.keys, other ∈ build.graph.keys ∨
    ReflTransGen (DependsOn (requirements plugins)) source other

theorem Built.visitAll {visit : GraphBuild → String → Option GraphBuild} {deps : List String}
    (each : ∀ dep ∈ deps, ∀ step : GraphBuild, build.visited ⊆ step.visited →
      (∀ other, other ∉ step.visited → step.edges other = []) →
      ∃ after, visit step dep = some after ∧ dep ∈ after.visited ∧ Built plugins dep [] step after)
    (required : deps ⊆ requirements plugins name) (visited : name ∈ build.visited)
    (empty : ∀ other, other ∉ build.visited → build.edges other = []) :
    ∃ after, visitAll visit name build deps = some after ∧ (∀ dep ∈ deps, dep ∈ after.visited) ∧
      Built plugins name deps build after := by
  induction deps generalizing build with
  | nil =>
    exact ⟨build, rfl, nofun, subset_rfl, by simp, fun _ member fresh => absurd member fresh, empty,
      prefix_rfl, fun _ => .inl⟩
  | cons dep rest ih =>
    have unvisited :
        ∀ other, other ∉ build.visited → (build.require name dep).edges other = [] := by
      intro other fresh
      have notName : other ≠ name := fun same => fresh (same ▸ visited)
      rw [edges_require, empty other fresh, if_neg notName, append_nil]
    obtain ⟨step, stepped, here, first⟩ := each dep mem_cons_self (build.require name dep)
      subset_rfl unvisited
    obtain ⟨after, done, named, later⟩ := ih
      (fun other member further grown => each other (mem_cons_of_mem dep member) further
        (first.grown.trans grown))
      (subset_of_cons_subset required) (first.grown visited) first.empty
    refine ⟨after, by rw [GraphBuild.visitAll, stepped]; exact done,
      forall_mem_cons.mpr ⟨later.grown here, named⟩, first.grown.trans later.grown, ?_, ?_,
      later.empty, (keys_require.trans first.extended).trans later.extended, ?_⟩
    · intro other member
      rw [later.kept other (first.grown member), first.kept other member, edges_require]
      by_cases same : other = name
      · simp [same]
      · simp [same]
    · intro other member fresh
      by_cases early : other ∈ step.visited
      · obtain ⟨all, closed⟩ := first.filled other early fresh
        have notName : other ≠ name := fun same => fresh (same ▸ visited)
        rw [later.kept other early, if_neg notName, append_nil]
        exact ⟨all, fun dep edge => later.grown (closed dep edge)⟩
      · exact later.filled other member early
    · intro other member
      have edge : DependsOn (requirements plugins) name dep := required mem_cons_self
      rcases later.keys other member with old | below
      · rcases first.keys other old with older | below
        · rcases mem_keys_require.mp older with rfl | rfl | oldest
          · exact .inr (.single edge)
          · exact .inr .refl
          · exact .inl oldest
        · exact .inr (below.head edge)
      · exact .inr below

/-- The induction is on the depth: what requires something is installed, and a visit that goes
deeper marks a plugin that was not marked. -/
theorem Built.visit {known : Finset String}
    (complete : ∀ name, requirements plugins name ≠ [] → name ∈ known) (depth : Nat)
    (empty : ∀ other, other ∉ build.visited → build.edges other = [])
    (enough : (known \ build.visited).card < depth) :
    ∃ after, visit plugins depth build name = some after ∧ name ∈ after.visited ∧
      Built plugins name [] build after := by
  induction depth generalizing build name with
  | zero => exact absurd enough (Nat.not_lt_zero _)
  | succ depth ih =>
    rw [GraphBuild.visit]
    split
    next seen =>
      exact ⟨build, rfl, seen, subset_rfl, by simp, fun _ member fresh => absurd member fresh,
        empty, prefix_rfl, fun _ => .inl⟩
    next fresh =>
      obtain ⟨after, done, named, built⟩ := 
        @Built.visitAll plugins { build with visited := insert name build.visited } name
          (GraphBuild.visit plugins depth) (requirements plugins name)
        (fun dep edge step grown stepEmpty => ih stepEmpty (by
          have fewer : known \ step.visited ⊂ known \ build.visited := by
            refine (Finset.ssubset_iff_of_subset ?_).mpr ⟨name, ?_, ?_⟩
            · exact Finset.sdiff_subset_sdiff subset_rfl ((Finset.subset_insert _ _).trans grown)
            · simpa [fresh] using complete name (ne_nil_of_mem edge)
            · simp [grown (Finset.mem_insert_self _ _)]
          have less := Finset.card_lt_card fewer
          omega)) (List.Subset.refl _) (Finset.mem_insert_self _ _)
        (fun other absent => empty other (fun member => absent (Finset.mem_insert_of_mem member)))
      have here : name ∈ after.visited := built.grown (Finset.mem_insert_self _ _)
      refine ⟨after, done, here, (Finset.subset_insert _ _).trans built.grown, ?_, ?_, built.empty,
        built.extended, built.keys⟩
      · intro other member
        have notName : other ≠ name := fun same => fresh (same ▸ member)
        rw [built.kept other (Finset.mem_insert_of_mem member), if_neg notName, ite_self]
        rfl
      · intro other member new
        by_cases same : other = name
        · subst same
          rw [built.kept other (Finset.mem_insert_self _ _), if_pos rfl]
          exact ⟨congrArg (· ++ _) (empty other new), named⟩
        · exact built.filled other member (by simp [same, new])

end GraphBuild

/-! ## The order -/

theorem mem_names_of_requirements (requires : requirements plugins name ≠ []) :
    name ∈ (plugins.map fun plugin => plugin.manifest.name).toFinset := by
  rw [requirements] at requires
  cases found : getPlugin plugins name with
  | none => simp [found] at requires
  | some plugin =>
    have named : plugin.manifest.name = name := by simpa using find?_some found
    rw [mem_toFinset, ← named]
    exact mem_map_of_mem (mem_of_find?_eq_some found)

theorem sortAll_of_subset {edges : String → List String} {depth : Nat} {marks : Marks String}
    {keys : List String} (sorted : ∀ key ∈ keys, key ∈ marks.finished) :
    sortAll edges depth marks keys = some (.ok marks.finished) := by
  induction keys with
  | nil => rfl
  | cons node rest ih =>
    obtain ⟨here, later⟩ := forall_mem_cons.mp sorted
    rw [sortAll, if_pos here]
    exact ih later

structure InstallationOrder (plugins : List PluginInstance) (name : String)
    (order : List String) : Prop where
  nodup : order.Nodup
  mem_iff : ∀ other, other ∈ order ↔ ReflTransGen (DependsOn (requirements plugins)) name other
  topological : Topological (requirements plugins) order

theorem InstallationOrder.lone (none : requirements plugins name = []) :
    ¬ Doomed (requirements plugins) name ∧ InstallationOrder plugins name [name] := by
  have noEdge (dep : String) : ¬ DependsOn (requirements plugins) name dep := by
    rw [Dependencies.DependsOn, none]
    exact not_mem_nil
  have alone {other : String} (below : ReflTransGen (DependsOn (requirements plugins)) name other) :
      other = name := by
    rcases ReflTransGen.cases_head below with same | ⟨dep, edge, -⟩
    · exact same.symm
    · exact absurd edge (noEdge dep)
  refine ⟨?_, nodup_singleton name, fun other => ⟨?_, fun below => ?_⟩, ?_⟩
  · rintro ⟨other, below, circle⟩
    obtain ⟨dep, edge, -⟩ := TransGen.head'_iff.mp (alone below ▸ circle)
    exact noEdge dep edge
  · intro member
    exact mem_singleton.mp member ▸ .refl
  · exact mem_singleton.mpr (alone below)
  · exact Topological.nil.append fun id member dep edge =>
      absurd (mem_singleton.mp member ▸ edge) (noEdge dep)

/-- There is an order to install a plugin in, unless it leads to a circle of required
dependencies. -/
theorem resolveDependencies_spec (plugins : List PluginInstance) (name : String) :
    ∃ result, resolveDependencies plugins name = some result ∧
      ((∃ message, result = .error message) ↔ Doomed (requirements plugins) name) ∧
      ∀ order, result = .ok order → InstallationOrder plugins name order := by
  rw [resolveDependencies]
  cases found : getPlugin plugins name with
  | none =>
    obtain ⟨free, order⟩ := @InstallationOrder.lone plugins name
      (by rw [requirements, found])
    refine ⟨_, rfl, iff_of_false (by simp) free, ?_⟩
    rintro _ ⟨⟩
    exact order
  | some plugin =>
    let known := (plugins.map fun plugin => plugin.manifest.name).toFinset
    have few : known.card < plugins.length + 1 := by
      have bound := toFinset_card_le (plugins.map fun plugin => plugin.manifest.name)
      rw [length_map] at bound
      exact Nat.lt_succ_of_le bound
    obtain ⟨build, built, named, all⟩ := 
      @GraphBuild.Built.visit plugins ⟨.ofList [(name, [])], ∅⟩ name _
        (fun _ => mem_names_of_requirements)
      (plugins.length + 1) (fun _ _ => GraphBuild.edges_begin) (by simpa using few)
    have closed : ∀ id, id ∈ build.visited → build.edges id = requirements plugins id ∧
        ∀ dep ∈ build.edges id, dep ∈ build.visited := by
      intro id member
      obtain ⟨same, inside⟩ := all.filled id member (Finset.notMem_empty id)
      exact ⟨same, same ▸ inside⟩
    have closed' : ∀ id, id ∈ build.visited → requirements plugins id = build.edges id ∧
        ∀ dep ∈ requirements plugins id, dep ∈ build.visited := fun id member =>
      ⟨(closed id member).1.symm, (closed id member).1 ▸ (closed id member).2⟩
    obtain ⟨keys, ordered⟩ := all.extended
    have explored : Explored build.edges {} [name]
        (DepthFirst.visit build.edges (plugins.length + 1) {} name) := by
      refine @Explored.visit _ _ _ _ known (fun id requires => ?_) _ _ .nil .nil nofun
        (by simpa using few)
      by_cases member : id ∈ build.visited
      · exact mem_names_of_requirements ((closed id member).1 ▸ requires)
      · exact absurd (all.empty id member) requires
    rw [built]
    dsimp only
    rw [← ordered]
    change ∃ result, sortAll build.edges _ {} (name :: keys) = _ ∧ _
    rw [sortAll, if_neg not_mem_nil]
    rcases search : DepthFirst.visit build.edges (plugins.length + 1) {} name
      with _ | ⟨_ | met, after⟩
    · rw [search] at explored
      exact explored.elim
    · rw [search] at explored
      obtain ⟨nodup, topological, -, reached, -, -, sorted⟩ := explored
      have here : name ∈ after.finished := sorted mem_cons_self
      have below : ∀ other ∈ after.finished, ReflTransGen (DependsOn build.edges) name other := by
        intro other member
        rcases reached other member with impossible | ⟨source, listed, below⟩
        · cases impossible
        · exact mem_singleton.mp listed ▸ below
      have free : ¬ Doomed (requirements plugins) name := fun doomed =>
        not_doomed_of_mem topological here (doomed.congr closed' named)
      have mem_iff : ∀ other, other ∈ after.finished ↔
          ReflTransGen (DependsOn (requirements plugins)) name other := by
        intro other
        constructor
        · exact fun member => (below_congr closed named (below other member)).2
        · intro reach
          have resolved := topological.resolvable (fun _ => id) name here
          exact (resolved.of_reachable (below_congr closed' named reach).2).mem
      refine ⟨.ok after.finished, sortAll_of_subset fun key member => ?_,
        iff_of_false (by simp) free, ?_⟩
      · rcases all.keys key (ordered ▸ mem_append_right _ member) with begun | reach
        · obtain rfl := mem_singleton.mp begun
          exact here
        · exact (mem_iff key).mpr reach
      · rintro _ ⟨⟩
        refine ⟨nodup, mem_iff, topological.congr fun id member => ?_⟩
        exact ((closed id (below_congr closed named (below id member)).1).1).symm
    · rw [search] at explored
      obtain ⟨-, -, -, -, -, -, -, -, source, listed, -, doomed⟩ := explored
      obtain rfl := mem_singleton.mp listed
      refine ⟨_, rfl, iff_of_true ⟨_, rfl⟩ (doomed.congr closed named), ?_⟩
      rintro _ ⟨⟩

end AgenticOS.Plugins
