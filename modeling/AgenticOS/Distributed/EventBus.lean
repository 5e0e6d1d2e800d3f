import AgenticOS.Data.SetOrder
import AgenticOS.Transition.Run
import Mathlib.Data.String.Basic

/-!
# The distributed event bus

The bus forwards local events to the peers and publishes the events of the peers locally. It
remembers the ids of the events it has seen in a set, and cuts the set down when it grows too
large, to the last ids in the order of an iteration. The language promises nothing about this
order; it may be another one each time.
-/

namespace AgenticOS.Distributed

open Transition List

universe u

/-- What is received of an event; a field may be missing. -/
structure EventData (ν : Type u) where
  eventId : Option String := none
  hopCount : Option Int := none
  maxHops : Option Int := none
  eventType : Option String := none
  sourceNodeId : Option String := none
  payload : Option ν := none
deriving DecidableEq

/-- What is published locally. -/
structure LocalEvent (ν : Type u) where
  topic : String
  source : String
  payload : ν

structure EventBusStats where
  eventsPropagatedOut : Nat := 0
  eventsReceivedIn : Nat := 0
  eventsDroppedLoop : Nat := 0
  eventsDroppedTtl : Nat := 0

structure DistributedEventBus (ν : Type u) where
  localNodeId : String := ""
  propagationTopics : List String := []
  seenEventIds : Finset String := ∅
  stats : EventBusStats := {}
  scheduled : List (LocalEvent ν) := []

namespace EventData

variable {ν : Type u} (data : EventData ν)

def id : String :=
  data.eventId.getD ""

/-- An event that has hops left. -/
def hasHops : Bool :=
  data.hopCount.getD 0 < data.maxHops.getD 3

end EventData

namespace DistributedEventBus

variable {ν : Type u} (bus : DistributedEventBus ν)

/-- How many ids are remembered. -/
def maxSeenCache : Nat :=
  10000

def lastOf (size : Nat) (ids : List String) : List String :=
  ids.drop (ids.length - size)

/-- Remember an id, and cut the set down if it has grown too large. -/
def track (order : SetOrder String) (id : String) (seen : Finset String) : Finset String :=
  let seen := insert id seen
  if maxSeenCache < seen.card then (lastOf maxSeenCache (order.list seen)).toFinset else seen

def shouldPropagate (topic : String) : Bool :=
  bus.propagationTopics.any fun start => start.toList.isPrefixOf topic.toList

/-- `propagate_outbound`, up to the answers of the peers: the event that is sent, if one is. -/
def propagateOutbound (order : SetOrder String) (peers : List String) (topic eventId : String)
    (payload : ν) : DistributedEventBus ν × Option (EventData ν) :=
  if !bus.shouldPropagate topic then (bus, none)
  else if peers = [] then (bus, none)
  else
    ({ bus with seenEventIds := track order eventId bus.seenEventIds },
      some
        { eventId := some eventId
          hopCount := some 0
          maxHops := some 3
          eventType := some topic
          sourceNodeId := some bus.localNodeId
          payload := some payload })

def receiveInbound [EmptyCollection ν] (order : SetOrder String) (data : EventData ν) :
    DistributedEventBus ν × Bool :=
  if data.id ≠ "" ∧ data.id ∈ bus.seenEventIds then
    ({ bus with
        stats := { bus.stats with eventsDroppedLoop := bus.stats.eventsDroppedLoop + 1 } },
      false)
  else if !data.hasHops then
    ({ bus with
        stats := { bus.stats with eventsDroppedTtl := bus.stats.eventsDroppedTtl + 1 } },
      false)
  else
    let event : LocalEvent ν :=
      { topic := data.eventType.getD ""
        source := "distributed.peer:" ++ data.sourceNodeId.getD ""
        payload := data.payload.getD ∅ }
    ({ bus with
        seenEventIds :=
          if data.id = "" then bus.seenEventIds else track order data.id bus.seenEventIds
        stats := { bus.stats with eventsReceivedIn := bus.stats.eventsReceivedIn + 1 }
        scheduled := bus.scheduled ++ [event] },
      true)

section

variable {order : SetOrder String} {id : String} {seen : Finset String}

theorem track_subset : track order id seen ⊆ insert id seen := by
  unfold track
  dsimp only
  split
  · intro other member
    rw [mem_toFinset] at member
    exact (order.mem _ other).mp (mem_of_mem_drop member)
  · exact Finset.Subset.refl _

theorem track_of_le (room : (insert id seen).card ≤ maxSeenCache) :
    track order id seen = insert id seen := by
  exact if_neg (Nat.not_lt.mpr room)

theorem track_of_full (full : seen.card = maxSeenCache) (new : id ∉ seen) :
    track order id seen = ((order.list (insert id seen)).drop 1).toFinset := by
  have grown : (insert id seen).card = maxSeenCache + 1 := by
    rw [Finset.card_insert_of_notMem new, full]
  unfold track lastOf
  rw [if_pos (by omega), order.length_list, grown, Nat.add_sub_cancel_left]

theorem card_track_of_full (full : seen.card = maxSeenCache) (new : id ∉ seen) :
    (track order id seen).card = maxSeenCache := by
  rw [track_of_full full new,
    toFinset_card_of_nodup ((order.nodup _).sublist (drop_sublist 1 _)),
    length_drop, order.length_list, Finset.card_insert_of_notMem new, full, Nat.add_sub_cancel]

end

end DistributedEventBus

/-!
## Events that are accepted twice

As long as no more ids have come than the bus remembers, the set holds all of them, and no
event is accepted twice. Then every new id pushes out whichever is iterated first, and that may
be any of them, the new one included.
-/

namespace DistributedEventBus

variable {ν : Type u} [EmptyCollection ν]

/-- The arrival of an event, and the order in which the set is iterated then. -/
abbrev Delivery (ν : Type u) := EventData ν × SetOrder String

def deliver (bus : DistributedEventBus ν) (delivery : Delivery ν) : DistributedEventBus ν :=
  (bus.receiveInbound delivery.2 delivery.1).1

def accepts (bus : DistributedEventBus ν) (delivery : Delivery ν) : Bool :=
  (bus.receiveInbound delivery.2 delivery.1).2

def acceptedIds (bus : DistributedEventBus ν) : List (Delivery ν) → List String
  | [] => []
  | delivery :: later =>
    (if bus.accepts delivery ∧ delivery.1.id ≠ "" then [delivery.1.id] else []) ++
      acceptedIds (bus.deliver delivery) later

/-- No event is accepted twice, and the first arrival of an event is accepted if it has hops
left. -/
def Deduplicates (bus : DistributedEventBus ν) (deliveries : List (Delivery ν)) : Prop :=
  (bus.acceptedIds deliveries).Nodup ∧
    ∀ before delivery after, deliveries = before ++ delivery :: after →
      (∀ earlier ∈ before, earlier.1.id ≠ delivery.1.id) → delivery.1.hasHops = true →
      (run deliver bus before).accepts delivery = true

/-- An event that is remembered if it is accepted: it has an id, and hops left. -/
def live (data : EventData ν) : Bool :=
  data.id ≠ "" && data.hasHops

/-- The ids that have come to be remembered. -/
def liveIds (arrived : List (EventData ν)) : Finset String :=
  ((arrived.filter live).map EventData.id).toFinset

/-! ## One delivery -/

omit [EmptyCollection ν] in
theorem liveIds_concat (arrived : List (EventData ν)) (data : EventData ν) :
    liveIds (arrived ++ [data]) =
      if live data then insert data.id (liveIds arrived) else liveIds arrived := by
  unfold liveIds
  rw [filter_append]
  by_cases isLive : live data
  · rw [if_pos isLive, filter_cons_of_pos isLive]
    ext id
    simp
  · rw [if_neg isLive, filter_cons_of_neg isLive]
    simp

section

variable (bus : DistributedEventBus ν) (delivery : Delivery ν)

theorem accepts_iff : bus.accepts delivery ↔
      delivery.1.hasHops ∧ (delivery.1.id = "" ∨ delivery.1.id ∉ bus.seenEventIds) := by
  unfold accepts receiveInbound
  by_cases known : delivery.1.id ≠ "" ∧ delivery.1.id ∈ bus.seenEventIds
  · simp [known.1, known.2]
  · have fresh : delivery.1.id = "" ∨ delivery.1.id ∉ bus.seenEventIds := by
      by_contra both
      exact known (not_or.mp both |>.imp id not_not.mp)
    rw [if_neg known]
    by_cases hops : delivery.1.hasHops
    · simp [hops, fresh]
    · simp [hops]

/-- An event that is live is remembered unless it is already. -/
theorem seen_deliver : (bus.deliver delivery).seenEventIds =
      if live delivery.1 ∧ delivery.1.id ∉ bus.seenEventIds then
        track delivery.2 delivery.1.id bus.seenEventIds
      else bus.seenEventIds := by
  unfold deliver receiveInbound live
  by_cases empty : delivery.1.id = ""
  · simp [empty]
    split <;> rfl
  · by_cases known : delivery.1.id ∈ bus.seenEventIds
    · simp [empty, known]
    · by_cases hops : delivery.1.hasHops
      · simp [empty, known, hops]
      · simp [empty, known, hops]

end

/-- The ids that a run could have remembered. -/
def arrivedIds (deliveries : List (Delivery ν)) : Finset String :=
  liveIds (deliveries.map Prod.fst)

omit [EmptyCollection ν] in
theorem arrivedIds_concat (deliveries : List (Delivery ν)) (delivery : Delivery ν) :
    arrivedIds (deliveries ++ [delivery]) =
      if live delivery.1 then insert delivery.1.id (arrivedIds deliveries)
      else arrivedIds deliveries := by
  unfold arrivedIds
  rw [map_append, map_singleton, liveIds_concat]

section

variable (bus : DistributedEventBus ν)

theorem run_deliver_concat (deliveries : List (Delivery ν)) (delivery : Delivery ν) :
    run deliver bus (deliveries ++ [delivery]) = (run deliver bus deliveries).deliver delivery := by
  rw [run_append]
  rfl

theorem acceptedIds_append (first second : List (Delivery ν)) : bus.acceptedIds (first ++ second) =
      bus.acceptedIds first ++ (run deliver bus first).acceptedIds second := by
  induction first generalizing bus with
  | nil => rfl
  | cons delivery first ih => rw [cons_append, acceptedIds, acceptedIds, ih, append_assoc, run_cons]

theorem acceptedIds_concat (deliveries : List (Delivery ν)) (delivery : Delivery ν) :
    bus.acceptedIds (deliveries ++ [delivery]) =
      bus.acceptedIds deliveries ++
        if live delivery.1 ∧ delivery.1.id ∉ (run deliver bus deliveries).seenEventIds then
          [delivery.1.id]
        else [] := by
  rw [acceptedIds_append, acceptedIds, acceptedIds, append_nil]
  congr 2
  rw [accepts_iff]
  unfold live
  simp only [Bool.and_eq_true, decide_eq_true_iff, eq_iff_iff]
  constructor
  · rintro ⟨⟨hops, missing | new⟩, named⟩
    · exact absurd missing named
    · exact ⟨⟨named, hops⟩, new⟩
  · rintro ⟨⟨named, hops⟩, new⟩
    exact ⟨⟨hops, .inr new⟩, named⟩

end

variable {bus : DistributedEventBus ν}

section

variable (fresh : bus.seenEventIds = ∅) (deliveries : List (Delivery ν))
include fresh

theorem seen_subset : (run deliver bus deliveries).seenEventIds ⊆ arrivedIds deliveries := by
  induction deliveries using reverseRecOn with
  | nil =>
    rw [run_nil, fresh]
    exact Finset.empty_subset _
  | append_singleton deliveries delivery ih =>
    rw [run_deliver_concat, seen_deliver, arrivedIds_concat]
    by_cases isLive : live delivery.1
    · split
      · exact track_subset.trans (Finset.insert_subset_insert _ ih)
      · exact ih.trans (Finset.subset_insert _ _)
    · rw [if_neg isLive, if_neg fun both => isLive both.1]
      exact ih

theorem seen_eq_of_room (room : (arrivedIds deliveries).card ≤ maxSeenCache) :
    (run deliver bus deliveries).seenEventIds = arrivedIds deliveries := by
  induction deliveries using reverseRecOn with
  | nil =>
    rw [run_nil, fresh]
    rfl
  | append_singleton deliveries delivery ih =>
    rw [arrivedIds_concat] at room ⊢
    rw [run_deliver_concat, seen_deliver]
    by_cases isLive : live delivery.1
    · rw [if_pos isLive] at room ⊢
      have before : (arrivedIds deliveries).card ≤ maxSeenCache :=
        (Finset.card_le_card (Finset.subset_insert _ _)).trans room
      rw [ih before]
      by_cases known : delivery.1.id ∈ arrivedIds deliveries
      · rw [if_neg fun both => both.2 known, Finset.insert_eq_of_mem known]
      · rw [if_pos ⟨isLive, known⟩, track_of_le room]
    · rw [if_neg isLive] at room ⊢
      rw [if_neg fun both => isLive both.1]
      exact ih room

theorem mem_acceptedIds_iff (id : String) :
    id ∈ bus.acceptedIds deliveries ↔ id ∈ arrivedIds deliveries := by
  induction deliveries using reverseRecOn with
  | nil => simp [acceptedIds, arrivedIds, liveIds]
  | append_singleton deliveries delivery ih =>
    rw [acceptedIds_concat, mem_append, ih, arrivedIds_concat]
    by_cases isLive : live delivery.1
    · rw [if_pos isLive, Finset.mem_insert]
      by_cases known : delivery.1.id ∈ (run deliver bus deliveries).seenEventIds
      · have arrived := seen_subset fresh deliveries known
        rw [if_neg fun both => both.2 known]
        constructor
        · rintro (earlier | now)
          · exact .inr earlier
          · cases now
        · rintro (rfl | earlier)
          · exact .inl arrived
          · exact .inl earlier
      · rw [if_pos ⟨isLive, known⟩, mem_singleton, or_comm]
    · rw [if_neg isLive, if_neg fun both => isLive both.1]
      simp

end

/-- No live event comes again once more ids have come than are remembered. -/
def Remembered (arrived : List (EventData ν)) : Prop :=
  ∀ before data after, arrived = before ++ data :: after → live data = true →
    data.id ∈ liveIds before → (liveIds before).card ≤ maxSeenCache

omit [EmptyCollection ν] in
theorem Remembered.of_append {first second : List (EventData ν)}
    (remembered : Remembered (first ++ second)) : Remembered first := by
  rintro before data after rfl
  apply remembered before data (after ++ second)
  rw [append_assoc, cons_append]

theorem nodup_acceptedIds (fresh : bus.seenEventIds = ∅) {deliveries : List (Delivery ν)}
    (remembered : Remembered (deliveries.map Prod.fst)) : (bus.acceptedIds deliveries).Nodup := by
  induction deliveries using reverseRecOn with
  | nil => exact nodup_nil
  | append_singleton deliveries delivery ih =>
    rw [map_append, map_singleton] at remembered
    have earlier := ih remembered.of_append
    rw [acceptedIds_concat]
    split
    · rename_i accepted
      have new : delivery.1.id ∉ bus.acceptedIds deliveries := by
        rw [mem_acceptedIds_iff fresh]
        intro arrived
        have room := remembered (deliveries.map Prod.fst) delivery.1 [] rfl accepted.1 arrived
        apply accepted.2
        rw [seen_eq_of_room fresh deliveries room]
        exact arrived
      rw [nodup_append_comm]
      exact nodup_cons.mpr ⟨new, earlier⟩
    · rw [append_nil]
      exact earlier

/-- The first arrival of an event is not yet remembered. -/
theorem first_accepted (fresh : bus.seenEventIds = ∅) {before : List (Delivery ν)}
    {delivery : Delivery ν} (first : ∀ earlier ∈ before, earlier.1.id ≠ delivery.1.id)
    (hops : delivery.1.hasHops = true) : (run deliver bus before).accepts delivery = true := by
  rw [accepts_iff]
  refine ⟨hops, .inr fun known => ?_⟩
  have arrived := seen_subset fresh before known
  unfold arrivedIds liveIds at arrived
  simp only [mem_toFinset, mem_map, mem_filter] at arrived
  obtain ⟨_, ⟨⟨earlier, member, rfl⟩, -⟩, same⟩ := arrived
  exact first earlier member same

/-! ## An order that forgets an id -/

theorem not_mem_track_first {id other : String} {seen : Finset String}
    (full : seen.card = maxSeenCache) (new : other ∉ seen) :
    id ∉ track (SetOrder.first id) other seen := by
  rw [track_of_full full new, mem_toFinset]
  exact SetOrder.not_mem_drop_first id _

theorem forgotten (fresh : bus.seenEventIds = ∅) (id : String) (arrived : List (EventData ν))
    (overflow : maxSeenCache < (liveIds arrived).card) :
    (run deliver bus (arrived.map fun data => (data, SetOrder.first id))).seenEventIds.card =
        maxSeenCache ∧
      id ∉ (run deliver bus (arrived.map fun data => (data, SetOrder.first id))).seenEventIds := by
  induction arrived using reverseRecOn with
  | nil => exact absurd overflow (Nat.not_lt_zero _)
  | append_singleton arrived data ih =>
    rw [liveIds_concat] at overflow
    rw [map_append, map_singleton, run_deliver_concat, seen_deliver]
    by_cases isLive : live data
    · rw [if_pos isLive] at overflow
      by_cases already : maxSeenCache < (liveIds arrived).card
      · obtain ⟨full, absent⟩ := ih already
        split
        · rename_i tracked
          exact ⟨card_track_of_full full tracked.2, not_mem_track_first full tracked.2⟩
        · exact ⟨full, absent⟩
      · have same :
            arrivedIds (arrived.map fun data => (data, .first id)) = liveIds arrived := by
          unfold arrivedIds
          rw [map_map]
          exact congrArg liveIds (map_id arrived)
        have room : (liveIds arrived).card ≤ maxSeenCache := Nat.not_lt.mp already
        have all := seen_eq_of_room fresh (arrived.map fun data => (data, .first id))
          (by rw [same]; exact room)
        rw [same] at all
        have new : data.id ∉ liveIds arrived := by
          intro known
          rw [Finset.insert_eq_of_mem known] at overflow
          exact already overflow
        have full : (liveIds arrived).card = maxSeenCache := by
          rw [Finset.card_insert_of_notMem new] at overflow
          omega
        rw [all, if_pos ⟨isLive, new⟩]
        exact ⟨card_track_of_full full new, not_mem_track_first full new⟩
    · rw [if_neg isLive] at overflow
      rw [if_neg fun both => isLive both.1]
      exact ih overflow

/-- So a live event that comes again behind an overflow may be accepted again. -/
theorem not_nodup_of_forgotten (fresh : bus.seenEventIds = ∅) {before after : List (EventData ν)}
    {data : EventData ν} (isLive : live data = true) (known : data.id ∈ liveIds before)
    (overflow : maxSeenCache < (liveIds before).card) : ¬ (bus.acceptedIds
      ((before ++ data :: after).map fun data' => (data', SetOrder.first data.id))).Nodup := by
  intro nodup
  have forgot := (forgotten fresh data.id before overflow).2
  have arrived :
      data.id ∈ arrivedIds (before.map fun data' => (data', .first data.id)) := by
    unfold arrivedIds
    rw [map_map]
    exact (congrArg (data.id ∈ liveIds ·) (map_id before)).mpr known
  have accepted := (mem_acceptedIds_iff fresh _ data.id).mpr arrived
  rw [map_append, map_cons, append_cons, acceptedIds_append, acceptedIds_concat,
    if_pos ⟨isLive, forgot⟩] at nodup
  have both := (nodup_append.mp nodup).1
  rw [nodup_append] at both
  exact both.2.2 data.id accepted data.id mem_cons_self rfl

/-- Whatever the orders of iteration, events are deduplicated, exactly if no live event comes
again once more ids have come than are remembered. -/
theorem deduplicates_iff_remembered (fresh : bus.seenEventIds = ∅) (arrived : List (EventData ν)) :
    (∀ deliveries : List (Delivery ν), deliveries.map Prod.fst = arrived →
        bus.Deduplicates deliveries) ↔
      Remembered arrived := by
  constructor
  · rintro always before data after rfl isLive known
    by_contra overflow
    have ordered := always
      ((before ++ data :: after).map fun data' => (data', .first data.id))
      (by rw [map_map]; exact map_id _)
    exact not_nodup_of_forgotten fresh isLive known (Nat.not_le.mp overflow) ordered.1
  · rintro remembered deliveries rfl
    refine ⟨nodup_acceptedIds fresh remembered, ?_⟩
    rintro before delivery after rfl first hops
    exact first_accepted fresh first hops

/-- An event that arrives twice. -/
theorem deduplicates_iff_remembered_twice :
    let arrived : List (EventData (List String)) :=
      [{ eventId := some "devt-1" }, { eventId := some "devt-1" }]
    (∀ deliveries : List (Delivery (List String)), deliveries.map Prod.fst = arrived →
        Deduplicates {} deliveries) ↔
      Remembered arrived :=
  deduplicates_iff_remembered rfl _

/-- Fewer ids than are remembered come between two arrivals of one event. -/
def Separated (arrived : List (EventData ν)) : Prop :=
  ∀ i j first second, i < j → arrived[i]? = some first → arrived[j]? = some second →
    first.id = second.id →
    (((arrived.drop (i + 1)).take (j - i - 1)).map EventData.id).toFinset.card < maxSeenCache

def nameOf (number : Nat) : String :=
  String.ofList (replicate (number + 1) 'e')

def eventOf (number : Nat) : EventData (List String) :=
  { eventId := some (nameOf number) }

/-- One event more than the bus remembers, and then the last one again. -/
def flood : List (EventData (List String)) :=
  (range (maxSeenCache + 2)).map fun number => eventOf (min number maxSeenCache)

theorem nameOf_injective {first second : Nat} (same : nameOf first = nameOf second) :
    first = second := by
  have lengths := congrArg (fun name => name.toList.length) same
  simpa [nameOf] using lengths

theorem live_eventOf (number : Nat) : live (eventOf number) = true := by
  have named : nameOf number ≠ "" := by
    intro empty
    have lengths := congrArg (fun name => name.toList.length) empty
    simp [nameOf] at lengths
  unfold live eventOf EventData.hasHops EventData.id
  simp [named]

theorem flood_separated : Separated flood := by
  intro i j first second before atFirst atSecond same
  unfold flood at atFirst atSecond
  rw [getElem?_map, Option.map_eq_some_iff] at atFirst atSecond
  obtain ⟨number, inRange, rfl⟩ := atFirst
  obtain ⟨other, otherInRange, rfl⟩ := atSecond
  obtain ⟨inside, rfl⟩ := List.getElem?_eq_some_iff.mp inRange
  obtain ⟨otherInside, rfl⟩ := List.getElem?_eq_some_iff.mp otherInRange
  rw [length_range] at inside otherInside
  rw [getElem_range, getElem_range] at same
  have numbers : min i maxSeenCache = min j maxSeenCache := nameOf_injective same
  have adjacent : j - i - 1 = 0 := by omega
  rw [adjacent, take_zero]
  decide

theorem liveIds_events (size : Nat) :
    liveIds ((range size).map eventOf) = ((range size).map nameOf).toFinset := by
  unfold liveIds
  rw [filter_eq_self.mpr, map_map]
  · rfl
  · intro data member
    obtain ⟨number, -, rfl⟩ := mem_map.mp member
    exact live_eventOf number

theorem events_capped (size : Nat) :
    ((range (size + 2)).map fun number => eventOf (min number size)) =
      (range (size + 1)).map eventOf ++ [eventOf size] := by
  rw [range_succ, map_append, map_singleton, Nat.min_eq_right (Nat.le_succ _)]
  congr 1
  apply map_congr_left
  intro number member
  rw [mem_range] at member
  rw [Nat.min_eq_left (by omega)]

theorem flood_eq : flood = (range (maxSeenCache + 1)).map eventOf ++ [eventOf maxSeenCache] :=
  events_capped maxSeenCache

/-- The last event comes twice in a row and is accepted twice, if it is iterated first. -/
theorem flood_accepts_twice : Separated flood ∧
      ∃ deliveries : List (Delivery (List String)), deliveries.map Prod.fst = flood ∧
        ¬ Deduplicates {} deliveries := by
  refine ⟨flood_separated,
    flood.map fun data => (data, .first (eventOf maxSeenCache).id), ?_, fun all => ?_⟩
  · rw [map_map]
    exact map_id flood
  · have nodup := all.1
    rw [flood_eq] at nodup
    have fresh : (({} : DistributedEventBus (List String))).seenEventIds = ∅ := rfl
    refine not_nodup_of_forgotten fresh (live_eventOf maxSeenCache) ?_ ?_ nodup
    · rw [liveIds_events, mem_toFinset]
      exact mem_map.mpr ⟨maxSeenCache, mem_range.mpr (Nat.lt_succ_self _), rfl⟩
    · rw [liveIds_events, toFinset_card_of_nodup, length_map, length_range]
      · exact Nat.lt_succ_self _
      · exact (nodup_range).map fun _ _ same => nameOf_injective same

end DistributedEventBus

/-! ## Several nodes -/

/-- The buses of the nodes, the events that were sent, and those that each node has accepted. -/
structure EventCluster (ν : Type u) where
  buses : String → DistributedEventBus ν
  sent : List (EventData ν) := []
  accepted : String → List (EventData ν) := fun _ => []

inductive BusAction (ν : Type u) where
  | propagate (node : String) (order : SetOrder String) (peers : List String)
      (topic eventId : String) (payload : ν)
  | deliver (node : String) (order : SetOrder String) (event : EventData ν)

namespace EventCluster

open DistributedEventBus Function

variable {ν : Type u}

def step [EmptyCollection ν] (cluster : EventCluster ν) : BusAction ν → EventCluster ν
  | .propagate node order peers topic eventId payload =>
    let (bus, event) := (cluster.buses node).propagateOutbound order peers topic eventId payload
    { cluster with
      buses := update cluster.buses node bus
      sent := cluster.sent ++ event.toList }
  | .deliver node order event =>
    let (bus, accepts) := (cluster.buses node).receiveInbound order event
    { cluster with
      buses := update cluster.buses node bus
      accepted := update cluster.accepted node
        (cluster.accepted node ++ if accepts then [event] else []) }

/-- The set of a node need not be cut down for an id. -/
abbrev Room (cluster : EventCluster ν) (node id : String) : Prop :=
  (insert id (cluster.buses node).seenEventIds).card ≤ maxSeenCache

/-- The network loses, repeats and reorders events, but makes none up. No id is drawn twice. -/
def Possible (cluster : EventCluster ν) : BusAction ν → Prop
  | .propagate node _ _ _ eventId _ =>
    cluster.Room node eventId ∧ eventId ≠ "" ∧ eventId ∉ cluster.sent.map EventData.id
  | .deliver node _ event => cluster.Room node event.id ∧ event ∈ cluster.sent

structure Remembers (cluster : EventCluster ν) : Prop where
  named : ∀ node, (cluster.buses node).localNodeId = node
  ids : (cluster.sent.map EventData.id).Nodup
  alive : ∀ event ∈ cluster.sent, live event = true
  known : ∀ node, ∀ id ∈ (cluster.buses node).seenEventIds, id ∈ cluster.sent.map EventData.id
  seen : ∀ node, ∀ event ∈ cluster.sent, event.id ∈ (cluster.buses node).seenEventIds ↔
    event.sourceNodeId = some node ∨ event ∈ cluster.accepted node
  others : ∀ node, ∀ event ∈ cluster.accepted node,
    event ∈ cluster.sent ∧ event.sourceNodeId ≠ some node
  once : ∀ node, (cluster.accepted node).Nodup

variable {cluster : EventCluster ν} {bus : DistributedEventBus ν}

theorem propagate_cases (bus : DistributedEventBus ν) (order : SetOrder String)
    (peers : List String) (topic : String) {eventId : String} (payload : ν)
    (room : (insert eventId bus.seenEventIds).card ≤ maxSeenCache) :
    bus.propagateOutbound order peers topic eventId payload = (bus, none) ∨
      ∃ event : EventData ν, event.id = eventId ∧ event.hasHops = true ∧
        event.sourceNodeId = some bus.localNodeId ∧
        bus.propagateOutbound order peers topic eventId payload =
          ({ bus with seenEventIds := insert eventId bus.seenEventIds }, some event) := by
  unfold propagateOutbound
  split
  · exact .inl rfl
  · split
    · exact .inl rfl
    · rw [track_of_le room]
      exact .inr ⟨_, rfl, rfl, rfl, rfl⟩

theorem Remembers.named_update (remembers : cluster.Remembers) {node : String}
    (same : bus.localNodeId = (cluster.buses node).localNodeId) (other : String) :
    (update cluster.buses node bus other).localNodeId = other := by
  rw [update_apply]
  split
  next here => rw [same, remembers.named, here]
  next => exact remembers.named other

theorem mem_seen_update {node id : String}
    (same : bus.seenEventIds = insert id (cluster.buses node).seenEventIds)
    (other member : String) :
    member ∈ (update cluster.buses node bus other).seenEventIds ↔
      other = node ∧ member = id ∨ member ∈ (cluster.buses other).seenEventIds := by
  rw [update_apply]
  split
  next here => simp [same, here]
  next elsewhere => simp [elsewhere]

variable [EmptyCollection ν]

theorem receive_eq (order : SetOrder String) {event : EventData ν}
    (room : (insert event.id bus.seenEventIds).card ≤ maxSeenCache) (isLive : live event = true) :
    (bus.receiveInbound order event).1.seenEventIds = insert event.id bus.seenEventIds ∧
      (bus.receiveInbound order event).1.localNodeId = bus.localNodeId ∧
      ((bus.receiveInbound order event).2 = true ↔ event.id ∉ bus.seenEventIds) := by
  have remembered := seen_deliver bus (event, order)
  have accepted := accepts_iff bus (event, order)
  have both : event.id ≠ "" ∧ event.hasHops = true := by simpa [live] using isLive
  rw [deliver] at remembered
  refine ⟨?_, ?_, accepted.trans (by simp [both])⟩
  · rw [remembered, track_of_le room]
    by_cases known : event.id ∈ bus.seenEventIds
    · simp [known]
    · simp [isLive, known]
  · unfold receiveInbound
    split
    · rfl
    · split
      · rfl
      · rfl

theorem Remembers.propagate (remembers : cluster.Remembers) {node : String}
    {order : SetOrder String} {peers : List String} {topic eventId : String} {payload : ν}
    (possible : cluster.Possible (.propagate node order peers topic eventId payload)) :
    (cluster.step (.propagate node order peers topic eventId payload)).Remembers := by
  obtain ⟨room, named, new⟩ := possible
  rw [step]
  rcases propagate_cases (cluster.buses node) order peers topic payload room with
    same | ⟨event, rfl, hops, source, sends⟩
  · rw [same]
    simpa using remembers
  · rw [sends]
    rw [remembers.named] at source
    have unseen (other : String) : event.id ∉ (cluster.buses other).seenEventIds :=
      fun member => new (remembers.known other _ member)
    have unsent (other : String) : event ∉ cluster.accepted other :=
      fun member => new (mem_map_of_mem (remembers.others other _ member).1)
    refine ⟨remembers.named_update rfl, ?_, ?_, fun other id member => ?_,
      fun other sent member => ?_, fun other sent member => ?_, remembers.once⟩
    · simpa [nodup_append] using
        ⟨remembers.ids, fun sent member same => new (same ▸ mem_map_of_mem member)⟩
    · simpa [or_imp, forall_and, live, named, hops] using remembers.alive
    · rw [mem_seen_update rfl] at member
      rcases member with ⟨-, rfl⟩ | old
      · simp
      · exact map_append ▸ mem_append_left _ (remembers.known other id old)
    · rw [mem_seen_update rfl]
      rcases mem_append.mp member with old | here
      · rw [remembers.seen other sent old]
        refine or_iff_right fun both => ?_
        exact absurd (both.2 ▸ mem_map_of_mem old) new
      · simp only [Option.toList_some, mem_singleton] at here
        rw [here, source]
        simp [unseen, unsent, eq_comm]
    · exact ⟨mem_append_left _ (remembers.others other sent member).1,
        (remembers.others other sent member).2⟩

theorem Remembers.deliver (remembers : cluster.Remembers) {node : String}
    {order : SetOrder String} {event : EventData ν}
    (possible : cluster.Possible (.deliver node order event)) :
    (cluster.step (.deliver node order event)).Remembers := by
  obtain ⟨room, sent⟩ := possible
  obtain ⟨seen, named, accepts⟩ := receive_eq order room (remembers.alive event sent)
  have accepted (other : String) : (cluster.step (.deliver node order event)).accepted other =
      cluster.accepted other ++
        if other = node ∧ event.id ∉ (cluster.buses node).seenEventIds then [event] else [] := by
    simp only [step, update_apply, accepts]
    split
    next here => simp [here]
    next elsewhere => simp [elsewhere]
  refine ⟨remembers.named_update named, remembers.ids, remembers.alive,
    fun other id member => ?_, fun other old member => ?_, fun other old member => ?_,
    fun other => ?_⟩
  · rw [step, mem_seen_update seen] at member
    rcases member with ⟨-, rfl⟩ | before
    · exact mem_map_of_mem sent
    · exact remembers.known other id before
  · have same : old.id = event.id ↔ old = event :=
      ⟨inj_on_of_nodup_map remembers.ids member sent, congrArg EventData.id⟩
    rw [accepted, step, mem_seen_update seen, same, remembers.seen other old member]
    by_cases known : event.id ∈ (cluster.buses node).seenEventIds
    · have own := (remembers.seen node event sent).mp known
      simp [known]
      rintro rfl rfl
      exact own
    · by_cases here : other = node
      · simp [here, known]
        grind
      · simp [here]
  · rw [accepted] at member
    rcases mem_append.mp member with before | now
    · exact remembers.others other old before
    · split at now
      next fresh =>
        rw [mem_singleton.mp now, fresh.1]
        exact ⟨sent, fun own => fresh.2 ((remembers.seen node event sent).mpr (.inl own))⟩
      next => cases now
  · rw [accepted]
    split
    next fresh =>
      have new : event ∉ cluster.accepted other := fun before =>
        fresh.2 ((remembers.seen node event sent).mpr (.inr (fresh.1 ▸ before)))
      rw [nodup_append_comm]
      exact nodup_cons.mpr ⟨new, remembers.once other⟩
    next => simpa using remembers.once other

/-- A node accepts no event twice, and only what another node has sent. What it is given next it
accepts exactly if another node has sent it and it has not accepted it before. -/
theorem delivers_exactly_once {buses : String → DistributedEventBus ν}
    (named : ∀ node, (buses node).localNodeId = node)
    (fresh : ∀ node, (buses node).seenEventIds = ∅) {actions : List (BusAction ν)}
    (possible : Along step Possible { buses } actions) (node : String) :
    let cluster := run step { buses } actions
    (cluster.accepted node).Nodup ∧
    (∀ event ∈ cluster.accepted node,
      event ∈ cluster.sent ∧ event.sourceNodeId ≠ some node) ∧
    ∀ event ∈ cluster.sent, ∀ order, (cluster.buses node).accepts (event, order) = true ↔
      event.sourceNodeId ≠ some node ∧ event ∉ cluster.accepted node := by
  intro cluster
  have remembers : cluster.Remembers := by
    refine possible.invariant (fun cluster action remembers possible => ?_) ?_
    · cases action with
      | propagate => exact remembers.propagate possible
      | deliver => exact remembers.deliver possible
    · exact ⟨named, .nil, by simp, by simp [fresh], by simp, by simp, by simp⟩
  refine ⟨remembers.once node, remembers.others node, fun event sent order => ?_⟩
  have both : event.id ≠ "" ∧ event.hasHops = true := by
    simpa [live] using remembers.alive event sent
  rw [accepts_iff, ← not_or, ← remembers.seen node event sent]
  simp [both]

/-- One node sends an event, and another one gets it twice and sends it back. -/
theorem delivers_exactly_once_pair :
    let event : EventData (List String) :=
      { eventId := some "devt-1", hopCount := some 0, maxHops := some 3,
        eventType := some "brain.ready", sourceNodeId := some "node-1", payload := some [] }
    let cluster := run step
      { buses := fun localNodeId => { localNodeId, propagationTopics := ["brain."] } }
      [.propagate "node-1" (.first "") ["node-2"] "brain.ready" "devt-1" [],
        .deliver "node-2" (.first "") event, .deliver "node-2" (.first "") event,
        .deliver "node-1" (.first "") event]
    (cluster.accepted "node-2").Nodup ∧ event ∈ cluster.accepted "node-2" ∧
      event ∉ cluster.accepted "node-1" := by
  intro event cluster
  have possible : Along step Possible
      { buses := fun localNodeId => { localNodeId, propagationTopics := ["brain."] } }
      [.propagate "node-1" (.first "") ["node-2"] "brain.ready" "devt-1" [],
        .deliver "node-2" (.first "") event, .deliver "node-2" (.first "") event,
        .deliver "node-1" (.first "") event] := by
    exact ⟨⟨by decide, by decide, by decide⟩, ⟨by decide, by decide⟩, ⟨by decide, by decide⟩,
      ⟨by decide, by decide⟩, trivial⟩
  obtain ⟨once, -, exactly⟩ :=
    delivers_exactly_once (fun _ => rfl) (fun _ => rfl) possible "node-2"
  have others := (delivers_exactly_once (fun _ => rfl) (fun _ => rfl) possible "node-1").2.1
  refine ⟨once, ?_, fun own => (others event own).2 rfl⟩
  have known : (cluster.buses "node-2").accepts (event, .first "") = false := by decide
  by_contra new
  exact Bool.false_ne_true (known.symm.trans ((exactly event (by decide) _).mpr ⟨by decide, new⟩))

end EventCluster

end AgenticOS.Distributed
