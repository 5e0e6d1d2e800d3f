import Mathlib.Data.Finset.Card

/-!
# Dependency graphs

Items name the items that they depend on; an item may name itself, and it may name what
is no item at all. An item is resolvable if all its dependencies are, transitively and
without a circle.

The second half is about resolving items in layers: the items whose dependencies are all
done form the next layer, in any order. Whatever the order, the layers stop at the
resolvable items.
-/

namespace AgenticOS.Dependencies

open List

universe u

variable {ι : Type u}

/-- `id` names `dep` as a dependency. -/
def DependsOn (deps : ι → List ι) (id dep : ι) : Prop :=
  dep ∈ deps id

/-- An item with all its transitive dependencies. -/
inductive Resolvable (known : List ι) (deps : ι → List ι) : ι → Prop
  | intro {id : ι} (member : id ∈ known)
      (resolved : ∀ dep ∈ deps id, Resolvable known deps dep) : Resolvable known deps id

section

variable {known : List ι} {deps : ι → List ι} {id dep : ι}

section

variable (resolvable : Resolvable known deps id)
include resolvable

theorem Resolvable.mem : id ∈ known := by
  cases resolvable with
  | intro member _ => exact member

theorem Resolvable.of_mem_deps (member : dep ∈ deps id) : Resolvable known deps dep := by
  cases resolvable with
  | intro _ resolved => exact resolved dep member

theorem Resolvable.of_reachable (reachable : Relation.ReflTransGen (DependsOn deps) id dep) :
    Resolvable known deps dep := by
  induction reachable with
  | refl => exact resolvable
  | tail _ last ih => exact ih.of_mem_deps last

/-- A resolvable item does not depend on itself. -/
theorem Resolvable.acyclic : ¬ Relation.TransGen (DependsOn deps) id id := by
  induction resolvable with
  | intro _ _ ih =>
    intro circle
    rcases Relation.TransGen.head'_iff.mp circle with ⟨next, first, rest⟩
    exact ih next first (.tail' rest first)

end

theorem of_transGen {done : ι → Prop} (closed : ∀ id, done id → ∀ dep ∈ deps id, done dep)
    (resolved : ∀ dep ∈ deps id, done dep)
    (below : Relation.TransGen (DependsOn deps) id dep) : done dep := by
  induction below with
  | single first => exact resolved _ first
  | tail _ last ih => exact closed _ ih _ last

variable [DecidableEq ι]

open scoped Classical in
/-- The items that an item leads to. -/
noncomputable def descendants (known : List ι) (deps : ι → List ι) (id : ι) : Finset ι :=
  known.toFinset.filter fun other => Relation.ReflTransGen (DependsOn deps) id other

theorem mem_descendants {other : ι} : other ∈ descendants known deps id ↔
      other ∈ known ∧ Relation.ReflTransGen (DependsOn deps) id other := by
  simp [descendants]

theorem card_descendants_lt (member : id ∈ known) (edge : dep ∈ deps id)
    (acyclic : ¬ Relation.TransGen (DependsOn deps) id id) :
    (descendants known deps dep).card < (descendants known deps id).card := by
  apply Finset.card_lt_card
  have subset : descendants known deps dep ⊆ descendants known deps id := by
    intro other below
    rw [mem_descendants] at below ⊢
    exact ⟨below.1, below.2.head edge⟩
  rw [Finset.ssubset_iff_of_subset subset]
  refine ⟨id, mem_descendants.mpr ⟨member, .refl⟩, ?_⟩
  intro above
  exact acyclic (.head' edge (mem_descendants.mp above).2)

theorem Resolvable.of_acyclic (good : ∀ other, Relation.ReflTransGen (DependsOn deps) id other →
      other ∈ known ∧ ¬ Relation.TransGen (DependsOn deps) other other) :
    Resolvable known deps id := by
  induction size : (descendants known deps id).card using Nat.strong_induction_on
    generalizing id with
  | _ size ih =>
    have here := good id .refl
    apply Resolvable.intro here.1
    intro dep edge
    have fewer := card_descendants_lt here.1 edge here.2
    apply ih _ (size ▸ fewer) _ rfl
    intro other reachable
    exact good other (reachable.head edge)

theorem resolvable_iff : Resolvable known deps id ↔
      ∀ other, Relation.ReflTransGen (DependsOn deps) id other →
        other ∈ known ∧ ¬ Relation.TransGen (DependsOn deps) other other := by
  constructor
  · intro resolvable other reachable
    have resolved := resolvable.of_reachable reachable
    exact ⟨resolved.mem, resolved.acyclic⟩
  · exact .of_acyclic

omit [DecidableEq ι] in
/-- Where only known items name items, and only known ones, all of them are resolvable if and
only if there is no circle. -/
theorem forall_resolvable_iff (closed : ∀ id, ∀ dep ∈ deps id, id ∈ known ∧ dep ∈ known) :
    (∀ id ∈ known, Resolvable known deps id) ↔
      ∀ id, ¬ Relation.TransGen (DependsOn deps) id id := by
  classical
  constructor
  · intro resolvable id circle
    obtain ⟨dep, first, -⟩ := Relation.TransGen.head'_iff.mp circle
    exact (resolvable id (closed id dep first).1).acyclic circle
  · intro acyclic id member
    apply Resolvable.of_acyclic
    intro other reachable
    rcases Relation.ReflTransGen.cases_tail reachable with rfl | ⟨_, _, last⟩
    · exact ⟨member, acyclic other⟩
    · exact ⟨(closed _ other last).2, acyclic other⟩

end

/-- Every item stands behind all its dependencies. -/
def Topological (deps : ι → List ι) (order : List ι) : Prop :=
  ∀ before id after, order = before ++ id :: after → ∀ dep ∈ deps id, dep ∈ before

section

variable {known : List ι} {deps : ι → List ι} {order : List ι}

theorem Topological.nil : Topological deps [] := by
  intro before id after split
  simp at split

variable (topological : Topological deps order)
include topological

theorem Topological.congr {other : ι → List ι} (same : ∀ id ∈ order, other id = deps id) :
    Topological other order := by
  intro before id after split dep edge
  have member : id ∈ order := by
    rw [split]
    exact mem_append_right before mem_cons_self
  rw [same id member] at edge
  exact topological before id after split dep edge

theorem Topological.append {batch : List ι} (ready : ∀ id ∈ batch, ∀ dep ∈ deps id, dep ∈ order) :
    Topological deps (order ++ batch) := by
  intro before id after split dep edge
  rcases append_eq_append_iff.mp split with ⟨front, rfl, behind⟩ | ⟨rest, whole, behind⟩
  · have member : id ∈ batch := by
      rw [behind]
      exact mem_append_right front mem_cons_self
    exact mem_append_left front (ready id member dep edge)
  · cases rest with
    | nil =>
      have member : id ∈ batch := by
        rw [← nil_append batch, ← behind]
        exact mem_cons_self
      rw [append_nil] at whole
      exact whole ▸ ready id member dep edge
    | cons first rest =>
      rcases behind with ⟨rfl, -⟩
      exact topological before id rest whole dep edge

theorem Topological.resolvable (listed : ∀ id ∈ order, id ∈ known) :
    ∀ id ∈ order, Resolvable known deps id := by
  induction order using List.reverseRecOn with
  | nil => simp
  | append_singleton order last ih =>
    have earlier : ∀ id ∈ order, Resolvable known deps id := by
      apply ih
      · intro before id after split
        apply topological before id (after ++ [last])
        rw [split, append_assoc, cons_append]
      · intro id member
        exact listed id (mem_append_left [last] member)
    intro id member
    rcases mem_append.mp member with old | new
    · exact earlier id old
    · obtain rfl := mem_singleton.mp new
      apply Resolvable.intro (listed id member)
      intro dep edge
      exact earlier dep (topological order id [] rfl dep edge)

end

/-! ## Layers -/

variable {ids : List ι} {deps : ι → List ι} {done remaining : List ι}

def Ready (deps : ι → List ι) (done : List ι) (id : ι) : Prop :=
  ∀ dep ∈ deps id, dep ∈ done

/-- The items split into those that are done, in an order that respects the dependencies,
and those that remain. -/
structure Layered (ids : List ι) (deps : ι → List ι) (done remaining : List ι) : Prop where
  nodup : ids.Nodup
  partition : (done ++ remaining).Perm ids
  topological : Topological deps done

theorem Layered.begin (nodup : ids.Nodup) (listed : remaining.Perm ids) :
    Layered ids deps [] remaining where
  nodup := nodup
  partition := listed
  topological := .nil

variable (layered : Layered ids deps done remaining)
include layered

/-- A layer is done: ready items move from the remaining ones to those that are done. -/
theorem Layered.advance {batch rest : List ι} (ready : ∀ id ∈ batch, Ready deps done id)
    (split : (batch ++ rest).Perm remaining) : Layered ids deps (done ++ batch) rest where
  nodup := layered.nodup
  partition := by
    rw [append_assoc]
    exact (split.append_left done).trans layered.partition
  topological := layered.topological.append ready

theorem Layered.mem_iff {id : ι} : id ∈ ids ↔ id ∈ done ∨ id ∈ remaining := by
  rw [← layered.partition.mem_iff, mem_append]

theorem Layered.nodup_done : done.Nodup :=
  (nodup_append.mp (layered.partition.nodup_iff.mpr layered.nodup)).1

theorem Layered.nodup_remaining : remaining.Nodup :=
  (nodup_append.mp (layered.partition.nodup_iff.mpr layered.nodup)).2.1

theorem Layered.not_mem_done {id : ι} (member : id ∈ remaining) : id ∉ done := by
  intro finished
  exact (nodup_append.mp (layered.partition.nodup_iff.mpr layered.nodup)).2.2
    id finished id member rfl

theorem Layered.resolvable : ∀ id ∈ done, Resolvable ids deps id :=
  layered.topological.resolvable fun _ member => layered.mem_iff.mpr (.inl member)

/-- Where no remaining item is ready, none is resolvable: a resolvable one would have a
remaining dependency that is resolvable too. -/
theorem Layered.not_resolvable (stuck : ∀ id ∈ remaining, ¬ Ready deps done id) {id : ι}
    (resolvable : Resolvable ids deps id) : id ∉ remaining := by
  induction resolvable with
  | intro member resolved ih =>
    intro waits
    apply stuck _ waits
    intro dep edge
    have known := (resolved dep edge).mem
    exact (layered.mem_iff.mp known).resolve_right (ih dep edge)

theorem Layered.mem_done_iff (stuck : ∀ id ∈ remaining, ¬ Ready deps done id) {id : ι} :
    id ∈ done ↔ Resolvable ids deps id := by
  constructor
  · exact layered.resolvable id
  · intro resolvable
    have member := layered.mem_iff.mp resolvable.mem
    exact member.resolve_right (layered.not_resolvable stuck resolvable)

/-- Everything is done in the end if and only if every item is resolvable. -/
theorem Layered.remaining_eq_nil_iff (stuck : ∀ id ∈ remaining, ¬ Ready deps done id) :
    remaining = [] ↔ ∀ id ∈ ids, Resolvable ids deps id := by
  constructor
  · rintro rfl id member
    have finished := (layered.mem_iff.mp member).resolve_right not_mem_nil
    exact layered.resolvable id finished
  · intro all
    rw [eq_nil_iff_forall_not_mem]
    intro id member
    have known := layered.mem_iff.mpr (.inr member)
    exact layered.not_resolvable stuck (all id known) member

end AgenticOS.Dependencies
