import AgenticOS.Data.Dependencies

/-!
# Depth-first search

The search visits what an item depends on before it finishes the item. It stops where it meets
an item that is begun but not finished, and leaves the items on the way to it begun. So a later
search that meets one of these stops as well: all of them lead to a circle.
-/

namespace AgenticOS.DepthFirst

open Dependencies Relation List

universe u

variable {ι : Type u}

/-- What is finished, the latest last; what is begun and not finished; and the items behind which
the search has stopped, the deepest first. -/
structure Marks (ι : Type u) where
  finished : List ι := []
  begun : Finset ι := ∅
  hits : List ι := []

/-- Visit one item after the other until one is met that is begun. -/
def visitAll (visit : Marks ι → ι → Option (Option ι × Marks ι)) :
    Marks ι → List ι → Option (Option ι × Marks ι)
  | marks, [] => some (none, marks)
  | marks, item :: rest =>
    match visit marks item with
    | none => none
    | some (some met, marks) => some (some met, marks)
    | some (none, marks) => visitAll visit marks rest

/-- Visit an item. The first argument bounds the depth of the search. -/
def visit [DecidableEq ι] (next : ι → List ι) : Nat → Marks ι → ι → Option (Option ι × Marks ι)
  | 0, _, _ => none
  | depth + 1, marks, item =>
    if item ∈ marks.begun then some (some item, marks)
    else if item ∈ marks.finished then some (none, marks)
    else
      match visitAll (visit next depth) { marks with begun := insert item marks.begun }
          (next item) with
      | none => none
      | some (some met, marks) => some (some met, { marks with hits := marks.hits ++ [item] })
      | some (none, marks) =>
        some (none,
          { marks with
            finished := marks.finished ++ [item]
            begun := marks.begun.erase item })

def searchAll [DecidableEq ι] (next : ι → List ι) (depth : Nat) :
    Marks ι → List ι → Option (Marks ι)
  | marks, [] => some marks
  | marks, item :: rest =>
    match visit next depth marks item with
    | none => none
    | some (_, marks) => searchAll next depth marks rest

/-- The item leads to a circle. -/
def Doomed (next : ι → List ι) (item : ι) : Prop :=
  ∃ other, ReflTransGen (DependsOn next) item other ∧ TransGen (DependsOn next) other other

/-- The result of visiting items. -/
def Explored [DecidableEq ι] (next : ι → List ι) (marks : Marks ι) (items : List ι) :
    Option (Option ι × Marks ι) → Prop
  | none => False
  | some (met, after) =>
    after.finished.Nodup ∧ Topological next after.finished ∧ marks.finished ⊆ after.finished ∧
      (∀ other ∈ after.finished, other ∈ marks.finished ∨
        ∃ item ∈ items, ReflTransGen (DependsOn next) item other) ∧
      match met with
      | none => after.begun = marks.begun ∧ after.hits = marks.hits ∧ items ⊆ after.finished
      | some _ =>
        ∃ more, after.hits = marks.hits ++ more ∧ after.begun = marks.begun ∪ more.toFinset ∧
          (∀ other ∈ more, Doomed next other) ∧
            ∃ item ∈ items, item ∈ after.begun ∧ Doomed next item

variable {next : ι → List ι} {marks : Marks ι} {items : List ι}

theorem Doomed.of_edge {item dep : ι} (edge : dep ∈ next item) (doomed : Doomed next dep) :
    Doomed next item := by
  obtain ⟨other, below, circle⟩ := doomed
  exact ⟨other, below.head edge, circle⟩

section

variable {other : ι → List ι} {region : ι → Prop}
  (closed : ∀ id, region id → next id = other id ∧ ∀ dep, DependsOn next id dep → region dep)
include closed

theorem below_congr {item dep : ι} (inside : region item)
    (below : ReflTransGen (DependsOn next) item dep) :
    region dep ∧ ReflTransGen (DependsOn other) item dep := by
  induction below with
  | refl => exact ⟨inside, .refl⟩
  | tail _ edge ih =>
    obtain ⟨same, inside⟩ := closed _ ih.1
    exact ⟨inside _ edge, ih.2.tail (by rwa [Dependencies.DependsOn, ← same])⟩

theorem Doomed.congr {item : ι} (inside : region item) (doomed : Doomed next item) :
    Doomed other item := by
  obtain ⟨met, below, circle⟩ := doomed
  obtain ⟨dep, edge, back⟩ := TransGen.head'_iff.mp circle
  obtain ⟨here, reached⟩ := below_congr closed inside below
  obtain ⟨same, inside⟩ := closed met here
  have around := (below_congr closed (inside dep edge) back).2
  exact ⟨met, reached, .head' (by rwa [Dependencies.DependsOn, ← same]) around⟩

end

theorem not_doomed_of_mem (topological : Topological next marks.finished) {item : ι}
    (member : item ∈ marks.finished) : ¬ Doomed next item := by
  rintro ⟨other, below, circle⟩
  have resolvable := topological.resolvable (fun _ => id) item member
  exact (resolvable.of_reachable below).acyclic circle

variable [DecidableEq ι]

theorem Explored.visitAll {visit : Marks ι → ι → Option (Option ι × Marks ι)}
    (each : ∀ item ∈ items, ∀ after : Marks ι, after.finished.Nodup →
      Topological next after.finished → after.begun = marks.begun →
      Explored next after [item] (visit after item))
    (nodup : marks.finished.Nodup) (topological : Topological next marks.finished) :
    Explored next marks items (visitAll visit marks items) := by
  induction items generalizing marks with
  | nil => exact ⟨nodup, topological, .refl _, fun _ => .inl, rfl, rfl, nofun⟩
  | cons item rest ih =>
    have first := each item mem_cons_self marks nodup topological rfl
    rw [DepthFirst.visitAll]
    rcases result : visit marks item with _ | ⟨_ | met, after⟩
    · rw [result] at first
      exact first
    · rw [result] at first
      obtain ⟨nodupAfter, topologicalAfter, grown, reached, begun, hits, seen⟩ := first
      have later := ih (fun other member step stepNodup stepTopological stepBegun =>
        each other (mem_cons_of_mem item member) step stepNodup stepTopological
          (stepBegun.trans begun)) nodupAfter topologicalAfter
      dsimp only
      rcases last : DepthFirst.visitAll visit after rest with _ | ⟨met, final⟩
      · rw [last] at later
        exact later
      · rw [last] at later
        obtain ⟨finalNodup, finalTopological, finalGrown, finalReached, rest⟩ := later
        refine ⟨finalNodup, finalTopological, List.Subset.trans grown finalGrown,
          fun other member => ?_, ?_⟩
        · rcases finalReached other member with old | ⟨source, listed, below⟩
          · refine (reached other old).imp_right ?_
            rintro ⟨source, listed, below⟩
            exact ⟨source, by simp_all, below⟩
          · exact .inr ⟨source, mem_cons_of_mem item listed, below⟩
        · rw [begun, hits] at rest
          cases met with
          | none =>
            refine ⟨rest.1, rest.2.1, cons_subset.mpr ⟨?_, rest.2.2⟩⟩
            exact finalGrown (seen mem_cons_self)
          | some met =>
            obtain ⟨more, hits, begun, doomed, source, listed, present⟩ := rest
            exact ⟨more, hits, begun, doomed, source, mem_cons_of_mem item listed, present⟩
    · rw [result] at first
      obtain ⟨nodupAfter, topologicalAfter, grown, reached, more, hits, begun, doomed, source,
        listed, present⟩ := first
      obtain rfl := mem_singleton.mp listed
      refine ⟨nodupAfter, topologicalAfter, grown, fun other member => ?_, more, hits, begun,
        doomed, source, mem_cons_self, present⟩
      refine (reached other member).imp_right ?_
      rintro ⟨_, here, below⟩
      exact ⟨source, mem_cons_self, mem_singleton.mp here ▸ below⟩

/-- The induction is on the depth. What is begun leads to the visited item, or it is left from a
search that has stopped; so meeting it closes a circle or leads to one. -/
theorem Explored.visit {known : Finset ι} (complete : ∀ item, next item ≠ [] → item ∈ known)
    (depth : Nat) {item : ι} (nodup : marks.finished.Nodup)
    (topological : Topological next marks.finished)
    (path : ∀ other ∈ marks.begun, TransGen (DependsOn next) other item ∨ Doomed next other)
    (enough : (known \ marks.begun).card < depth) :
    Explored next marks [item] (visit next depth marks item) := by
  induction depth generalizing marks item with
  | zero => exact absurd enough (Nat.not_lt_zero _)
  | succ depth ih =>
    rw [DepthFirst.visit]
    split
    next begun =>
      refine ⟨nodup, topological, .refl _, fun _ => .inl, [], by simp, by simp, nofun,
        item, mem_cons_self, begun, ?_⟩
      rcases path item begun with circle | doomed
      · exact ⟨item, .refl, circle⟩
      · exact doomed
    next fresh =>
      split
      next seen =>
        exact ⟨nodup, topological, .refl _, fun _ => .inl, rfl, rfl, by simpa⟩
      next unseen =>
        have below : ∀ dep ∈ next item, ∀ after : Marks ι, after.finished.Nodup →
            Topological next after.finished → after.begun = insert item marks.begun →
            Explored next after [dep] (DepthFirst.visit next depth after dep) := by
          intro dep edge after nodupAfter topologicalAfter begun
          apply ih nodupAfter topologicalAfter
          · intro other member
            rw [begun] at member
            rcases Finset.mem_insert.mp member with rfl | old
            · exact .inl (.single edge)
            · exact (path other old).imp_left fun above => above.tail edge
          · rw [begun]
            have fewer : (known \ insert item marks.begun).card < (known \ marks.begun).card := by
              refine Finset.card_lt_card ((Finset.ssubset_iff_of_subset ?_).mpr ⟨item, ?_, ?_⟩)
              · exact Finset.sdiff_subset_sdiff subset_rfl (Finset.subset_insert _ _)
              · simpa [fresh] using complete item (ne_nil_of_mem edge)
              · simp
            omega
        have all : Explored next { marks with begun := insert item marks.begun } (next item) _ :=
          Explored.visitAll below nodup topological
        rcases result : DepthFirst.visitAll (DepthFirst.visit next depth)
            { marks with begun := insert item marks.begun } (next item) with _ | ⟨_ | met, after⟩
        · rw [result] at all
          exact all
        · rw [result] at all
          obtain ⟨nodupAfter, topologicalAfter, grown, reached, begun, hits, seen⟩ := all
          have unfinished : item ∉ after.finished := by
            intro member
            rcases reached item member with old | ⟨dep, edge, back⟩
            · exact unseen old
            · exact not_doomed_of_mem topologicalAfter member ⟨item, .refl, .head' edge back⟩
          refine ⟨?_, topologicalAfter.append ?_, ?_, fun other member => ?_, ?_, hits, by simp⟩
          · exact nodup_append.mpr ⟨nodupAfter, nodup_singleton item, by grind⟩
          · rintro _ (_ | ⟨_, ⟨⟩⟩)
            exact seen
          · exact subset_append_of_subset_left _ grown
          · rcases mem_append.mp member with old | new
            · refine (reached other old).imp_right ?_
              rintro ⟨dep, edge, further⟩
              exact ⟨item, mem_cons_self, further.head edge⟩
            · exact .inr ⟨item, mem_cons_self, mem_singleton.mp new ▸ .refl⟩
          · exact begun ▸ Finset.erase_insert fresh
        · rw [result] at all
          obtain ⟨nodupAfter, topologicalAfter, grown, reached, more, hits, begun, doomed, dep,
            edge, -, doomedDep⟩ := all
          have doomedItem := doomedDep.of_edge edge
          refine ⟨nodupAfter, topologicalAfter, grown, fun other member => ?_, more ++ [item], ?_,
            ?_, ?_, item, mem_cons_self, ?_, doomedItem⟩
          · refine (reached other member).imp_right ?_
            rintro ⟨dep, edge, further⟩
            exact ⟨item, mem_cons_self, further.head edge⟩
          · rw [hits, append_assoc]
          · rw [begun]
            ext other
            simp only [Finset.mem_union, Finset.mem_insert, mem_toFinset, mem_append, mem_singleton]
            tauto
          · exact forall_mem_append.mpr ⟨doomed, forall_mem_singleton.mpr doomedItem⟩
          · rw [begun]
            simp

theorem searchAll_spec {known : Finset ι} (complete : ∀ item, next item ≠ [] → item ∈ known)
    {depth : Nat} (enough : known.card < depth) (nodup : marks.finished.Nodup)
    (topological : Topological next marks.finished) (begun : marks.begun = marks.hits.toFinset)
    (doomed : ∀ item ∈ marks.hits, Doomed next item) :
    ∃ after, searchAll next depth marks items = some after ∧ marks.hits ⊆ after.hits ∧
      (∀ item ∈ after.hits, Doomed next item) ∧
      ∀ item ∈ items, Doomed next item → item ∈ after.hits := by
  induction items generalizing marks with
  | nil => exact ⟨marks, rfl, .refl _, doomed, nofun⟩
  | cons item rest ih =>
    have explored : Explored next marks [item] (visit next depth marks item) :=
      .visit complete depth nodup topological
        (fun other member => .inr (doomed other (by simpa [begun] using member)))
        ((Finset.card_le_card Finset.sdiff_subset).trans_lt enough)
    rw [searchAll]
    rcases result : visit next depth marks item with _ | ⟨met, after⟩
    · rw [result] at explored
      exact explored.elim
    · rw [result] at explored
      obtain ⟨nodupAfter, topologicalAfter, -, -, found⟩ := explored
      obtain ⟨more, hits, begunAfter, doomedMore, here⟩ : ∃ more, after.hits = marks.hits ++ more ∧
          after.begun = after.hits.toFinset ∧ (∀ other ∈ more, Doomed next other) ∧
          (Doomed next item → item ∈ after.hits) := by
        cases met with
        | none =>
          obtain ⟨sameBegun, sameHits, seen⟩ := found
          refine ⟨[], by simpa, by rw [sameBegun, sameHits, begun], nofun, fun doomed => ?_⟩
          exact absurd doomed (not_doomed_of_mem topologicalAfter (seen mem_cons_self))
        | some met =>
          obtain ⟨more, hits, begunAfter, doomedMore, source, listed, present, -⟩ := found
          obtain rfl := mem_singleton.mp listed
          have all : after.begun = after.hits.toFinset := by
            rw [begunAfter, hits, begun, toFinset_append]
          exact ⟨more, hits, all, doomedMore, fun _ => mem_toFinset.mp (all ▸ present)⟩
      obtain ⟨final, found, grown, doomedFinal, every⟩ := ih nodupAfter topologicalAfter begunAfter
        (hits ▸ forall_mem_append.mpr ⟨doomed, doomedMore⟩)
      refine ⟨final, found, fun other member => grown ?_, doomedFinal, ?_⟩
      · exact hits ▸ mem_append_left more member
      · exact forall_mem_cons.mpr ⟨fun doomedItem => grown (here doomedItem), every⟩

end AgenticOS.DepthFirst
