import AgenticOS.Data.Dict
import Mathlib.Data.List.MinMax

/-!
# Tallies

A vote names a candidate and has a weight. A tally adds the weights up in a dictionary, so
the candidates stand in the order in which they are first named, and the front-runner is the
first of those with the highest total.

The totals do not depend on the order of the votes. The front-runner depends on it where two
candidates share the highest total, and only there: then each of the two is the front-runner
in some order.
-/

namespace AgenticOS.Tally

open List

universe u v w

variable {V : Type u} {κ : Type v} {M : Type w} [DecidableEq κ]
variable (value : V → κ) (weight : V → M)

section

variable [AddCommMonoid M]

/-- `totals[value] = totals.get(value, 0) + weight`. -/
def credit (totals : Dict κ M) (vote : V) : Dict κ M :=
  totals.set (value vote) ((totals.get? (value vote)).getD 0 + weight vote)

def tally (votes : List V) : Dict κ M :=
  votes.foldl (credit value weight) .empty

def total (votes : List V) (candidate : κ) : M :=
  ((votes.filter fun vote => value vote = candidate).map weight).sum

variable {value weight}

theorem total_of_not_mem {votes : List V} {candidate : κ}
    (unnamed : candidate ∉ votes.map value) : total value weight votes candidate = 0 := by
  unfold total
  rw [filter_eq_nil_iff.mpr, map_nil, sum_nil]
  intro vote member named
  exact unnamed (mem_map.mpr ⟨vote, member, of_decide_eq_true named⟩)

theorem total_perm {votes others : List V} (perm : votes.Perm others) (candidate : κ) :
    total value weight votes candidate = total value weight others candidate :=
  ((perm.filter _).map weight).sum_eq

variable (votes : List V)

theorem get?_tally (candidate : κ) :
    (tally value weight votes).get? candidate =
      if candidate ∈ votes.map value then some (total value weight votes candidate)
      else none := by
  induction votes using List.reverseRecOn with
  | nil => rfl
  | append_singleton votes vote ih =>
    have split : total value weight (votes ++ [vote]) candidate =
        total value weight votes candidate +
          if value vote = candidate then weight vote else 0 := by
      unfold total
      by_cases here : value vote = candidate
      · simp [here]
      · simp [here]
    unfold tally at ih ⊢
    rw [foldl_concat, credit, Dict.get?_set, split]
    by_cases here : candidate = value vote
    · subst here
      by_cases before : value vote ∈ votes.map value
      · rw [if_pos before] at ih
        simp [ih]
      · rw [if_neg before] at ih
        simp [ih, total_of_not_mem before]
    · rw [if_neg here, ih]
      simp [here, Ne.symm here]

theorem getD_tally (candidate : κ) :
    ((tally value weight votes).get? candidate).getD 0 = total value weight votes candidate := by
  rw [get?_tally]
  split
  · rfl
  · rename_i unnamed
    exact (total_of_not_mem unnamed).symm

theorem mem_keys_tally {votes : List V} {candidate : κ} :
    candidate ∈ (tally value weight votes).keys ↔ candidate ∈ votes.map value := by
  rw [Dict.mem_keys_iff, get?_tally]
  split
  · simp_all
  · simp_all

theorem keys_tally_eq_singleton_iff {votes : List V} {candidate : κ} :
    (tally value weight votes).keys = [candidate] ↔
      votes ≠ [] ∧ ∀ vote ∈ votes, value vote = candidate := by
  have named : ∀ other, other ∈ (tally value weight votes).keys ↔
      ∃ vote ∈ votes, value vote = other := fun other => mem_keys_tally.trans mem_map
  constructor
  · intro single
    rw [single] at named
    constructor
    · rintro rfl
      obtain ⟨vote, member, -⟩ := (named candidate).mp mem_cons_self
      cases member
    · intro vote member
      exact mem_singleton.mp ((named _).mpr ⟨vote, member, rfl⟩)
  · rintro ⟨some, same⟩
    obtain ⟨vote, member⟩ := exists_mem_of_ne_nil votes some
    have listed := (named (value vote)).mpr ⟨vote, member, rfl⟩
    have nodup : (tally value weight votes).keys.Nodup := (tally value weight votes).nodupKeys
    have all : ∀ other ∈ (tally value weight votes).keys, other = candidate := by
      intro other isListed
      obtain ⟨vote, member, rfl⟩ := (named other).mp isListed
      exact same vote member
    have atLeastOne := length_pos_of_mem listed
    have atMostOne := nodup
    rw [eq_replicate_of_mem all, nodup_replicate] at atMostOne
    rw [eq_replicate_of_mem all, Nat.le_antisymm atMostOne atLeastOne]
    rfl

variable (value weight) in
theorem keys_foldl_credit (totals : Dict κ M) (votes : List V) :
    totals.keys <+: (votes.foldl (credit value weight) totals).keys := by
  induction votes generalizing totals with
  | nil => exact prefix_rfl
  | cons vote votes ih =>
    refine List.IsPrefix.trans ?_ (ih _)
    unfold credit Dict.keys Dict.set
    rw [Dict.keys_assign]
    split
    · exact prefix_rfl
    · exact prefix_append _ _

theorem head_keys_tally (vote : V) (votes : List V) :
    (tally value weight (vote :: votes)).keys.head? = some (value vote) := by
  obtain ⟨later, keys⟩ :=
    keys_foldl_credit value weight (credit value weight .empty vote) votes
  unfold tally
  rw [foldl_cons, ← keys]
  rfl

theorem sum_values_tally [IsCancelAdd M] :
    (tally value weight votes).values.sum = (votes.map weight).sum := by
  induction votes using List.reverseRecOn with
  | nil => rfl
  | append_singleton votes vote ih =>
    unfold tally at ih ⊢
    rw [foldl_concat, map_append, sum_append, ← ih]
    generalize votes.foldl (credit value weight) .empty = totals
    have change : (credit value weight totals vote).values.sum +
          ((totals.get? (value vote)).map fun total => total).getD 0 =
        totals.values.sum + ((totals.get? (value vote)).getD 0 + weight vote) :=
      totals.sumBy_set_add (fun _ total => total) (value vote) _
    rw [Option.map_id', add_comm ((totals.get? (value vote)).getD 0), ← add_assoc] at change
    rw [map_singleton, sum_singleton]
    exact add_right_cancel change

theorem total_one (candidate : κ) : total value (fun _ => 1) votes candidate =
      votes.countP fun vote => value vote = candidate := by
  simp [total, countP_eq_length_filter]

variable (value) in
theorem countP_add_countP_le {first second : κ} (distinct : first ≠ second) :
    votes.countP (fun vote => value vote = first) +
      votes.countP (fun vote => value vote = second) ≤ votes.length := by
  induction votes with
  | nil => simp
  | cons vote votes ih =>
    by_cases isFirst : value vote = first
    · simp only [countP_cons, isFirst, distinct, decide_true, decide_false, if_true,
        length_cons, Bool.false_eq_true, if_false]
      omega
    · by_cases isSecond : value vote = second
      · simp only [countP_cons, isSecond, distinct.symm, decide_true, decide_false,
          if_true, length_cons, Bool.false_eq_true, if_false]
        omega
      · simp only [countP_cons, isFirst, isSecond, decide_false, length_cons,
          Bool.false_eq_true, if_false]
        omega

end

variable [AddCommMonoid M] [LinearOrder M]

/-- `max(totals, key=lambda candidate: totals[candidate])`, if there are candidates. -/
def frontRunner (totals : Dict κ M) : Option κ :=
  totals.keys.argmax fun candidate => (totals.get? candidate).getD 0

/-- A candidate than whom nobody has more. -/
def Leads (votes : List V) (candidate : κ) : Prop :=
  candidate ∈ votes.map value ∧
    ∀ other ∈ votes.map value, total value weight votes other ≤ total value weight votes candidate

variable {value weight} {votes others : List V} {candidate other : κ}

theorem frontRunner_tally (votes : List V) : frontRunner (tally value weight votes) =
      (tally value weight votes).keys.argmax (total value weight votes) := by
  unfold frontRunner
  congr 1
  funext candidate
  exact getD_tally votes candidate

theorem frontRunner_eq_argmax (votes : List V) : frontRunner (tally value weight votes) =
      (votes.map value).argmax (total value weight votes) := by
  rw [frontRunner_tally]
  generalize total value weight votes = score
  induction votes using List.reverseRecOn with
  | nil => rfl
  | append_singleton votes vote ih =>
    have keys : (tally value weight (votes ++ [vote])).keys =
        if value vote ∈ (tally value weight votes).keys then (tally value weight votes).keys
        else (tally value weight votes).keys ++ [value vote] := by
      unfold tally
      rw [foldl_concat]
      exact Dict.keys_assign _ _ _
    rw [keys, map_append, map_singleton, argmax_concat, ← ih]
    split
    case isTrue before =>
      cases isFirst : (tally value weight votes).keys.argmax score with
      | none =>
        rw [argmax_eq_none] at isFirst
        rw [isFirst] at before
        cases before
      | some first =>
        have most := le_of_mem_argmax before isFirst
        exact (if_neg most.not_gt).symm
    case isFalse => exact argmax_concat _ _ _

theorem leads_of_frontRunner (isFirst : frontRunner (tally value weight votes) = some candidate) :
    Leads value weight votes candidate := by
  rw [frontRunner_tally] at isFirst
  constructor
  · exact mem_keys_tally.mp (argmax_mem isFirst)
  · intro other named
    exact le_of_mem_argmax (mem_keys_tally.mpr named) isFirst

theorem exists_frontRunner (named : candidate ∈ votes.map value) :
    ∃ first, frontRunner (tally value weight votes) = some first := by
  apply Option.ne_none_iff_exists'.mp
  rw [frontRunner_tally, Ne, argmax_eq_none]
  intro empty
  have listed : candidate ∈ (tally value weight votes).keys := mem_keys_tally.mpr named
  rw [empty] at listed
  cases listed

section

variable (leads : Leads value weight votes candidate)
include leads

theorem Leads.perm (perm : votes.Perm others) : Leads value weight others candidate := by
  refine ⟨(perm.map value).mem_iff.mp leads.1, fun other named => ?_⟩
  rw [← total_perm perm, ← total_perm perm]
  exact leads.2 other ((perm.map value).mem_iff.mpr named)

theorem Leads.total_eq (otherLeads : Leads value weight votes other) :
    total value weight votes candidate = total value weight votes other :=
  le_antisymm (otherLeads.2 candidate leads.1) (leads.2 other otherLeads.1)

theorem Leads.exists_perm : ∃ others, others.Perm votes ∧
      frontRunner (tally value weight others) = some candidate := by
  let own := votes.filter fun vote => value vote = candidate
  let rest := votes.filter fun vote => !decide (value vote = candidate)
  have perm : (own ++ rest).Perm votes := filter_append_perm _ votes
  have leadsThere := leads.perm perm.symm
  refine ⟨own ++ rest, perm, ?_⟩
  rw [frontRunner_tally, argmax_eq_some_iff]
  refine ⟨mem_keys_tally.mpr leadsThere.1,
    fun other named => leadsThere.2 other (mem_keys_tally.mp named), fun other _ _ => ?_⟩
  have first : (tally value weight (own ++ rest)).keys.head? = some candidate := by
    obtain ⟨vote, member, isOwn⟩ := mem_map.mp leads.1
    have inOwn : vote ∈ own := mem_filter.mpr ⟨member, decide_eq_true isOwn⟩
    cases split : own with
    | nil => rw [split] at inOwn; cases inOwn
    | cons head tail =>
      have isCandidate : value head = candidate := by
        have headOwn : head ∈ own := split ▸ mem_cons_self
        exact of_decide_eq_true (mem_filter.mp headOwn).2
      rw [cons_append, head_keys_tally, isCandidate]
  rw [head?_eq_some_iff] at first
  obtain ⟨later, keys⟩ := first
  rw [keys, idxOf_cons_self]
  exact Nat.zero_le _

end

theorem frontRunner_perm (perm : votes.Perm others)
    (alone : ∀ other, Leads value weight votes other → other = candidate)
    (isFirst : frontRunner (tally value weight votes) = some candidate) :
    frontRunner (tally value weight others) = some candidate := by
  have leads := leads_of_frontRunner isFirst
  obtain ⟨first, found⟩ : ∃ first, frontRunner (tally value weight others) = some first :=
    exists_frontRunner ((perm.map value).mem_iff.mp leads.1)
  rw [found, alone first ((leads_of_frontRunner found).perm perm.symm)]

/-- A decision by the total of the front-runner does not depend on the order of the votes if
and only if no two candidates with this total can be elected. -/
theorem elected_in_every_order_iff (met : M → Prop) (votes : List V) :
    (∀ candidate, frontRunner (tally value weight votes) = some candidate →
      met (total value weight votes candidate) →
      ∀ others, others.Perm votes → frontRunner (tally value weight others) = some candidate) ↔
    ¬ ∃ first second, first ≠ second ∧ Leads value weight votes first ∧
      Leads value weight votes second ∧ met (total value weight votes first) := by
  constructor
  · rintro everywhere ⟨first, second, distinct, firstLeads, secondLeads, isMet⟩
    obtain ⟨candidate, isFirst⟩ :
        ∃ candidate, frontRunner (tally value weight votes) = some candidate :=
      exists_frontRunner firstLeads.1
    have same := firstLeads.total_eq (leads_of_frontRunner isFirst)
    have stays := everywhere candidate isFirst (same ▸ isMet)
    obtain ⟨others, perm, found⟩ := firstLeads.exists_perm
    obtain ⟨moreOthers, morePerm, alsoFound⟩ := secondLeads.exists_perm
    rw [stays others perm, Option.some.injEq] at found
    rw [stays moreOthers morePerm, Option.some.injEq] at alsoFound
    exact distinct (found.symm.trans alsoFound)
  · intro uncontested candidate isFirst isMet others perm
    apply frontRunner_perm perm.symm _ isFirst
    intro other otherLeads
    by_contra distinct
    exact uncontested ⟨candidate, other, .symm distinct, leads_of_frontRunner isFirst,
      otherLeads, isMet⟩

end AgenticOS.Tally
