import NetworkLoading.Proofs.Calls

/-!
# Partitions do not matter

Two engines for the same network, divided in different ways, and two orders in which partitions are
processed: the same calls lead to the same agents in the same places. Agents who leave the network
are handed over in another order at most, and for every link the events of its upstream end and
those of its downstream end follow each other in the same way.
-/

namespace NetworkLoading

/-! ## Lists in another order -/

/-- If at most one element contributes something, the order does not matter. -/
theorem flatMap_eq_of_perm {α β : Type} {f : α → List β} {xs ys : List α} (h : xs.Perm ys)
    (hn : xs.Nodup) (hf : ∀ x ∈ xs, ∀ y ∈ xs, f x ≠ [] → f y ≠ [] → x = y) :
    xs.flatMap f = ys.flatMap f := by
  by_cases hall : ∀ x ∈ xs, f x = []
  · rw [List.flatMap_eq_nil_iff.2 hall,
      List.flatMap_eq_nil_iff.2 fun y hy => hall y (h.mem_iff.2 hy)]
  · push Not at hall
    obtain ⟨a, ha, hne⟩ := hall
    have hothers (x : α) (hx : x ∈ xs) (hxa : x ≠ a) : f x = [] := by
      by_contra hfx
      exact hxa (hf x hx a ha hfx hne)
    rw [flatMap_eq_single hn ha hothers, flatMap_eq_single (h.nodup_iff.1 hn) (h.mem_iff.1 ha)
      fun y hy => hothers y (h.mem_iff.2 hy)]

/-- Elements which differ in nothing that is searched for are found together. -/
theorem find?_cases {α : Type} {bare : α → α} {xs ys : List α} (h : xs.map bare = ys.map bare)
    {p : α → Bool} (hp : ∀ x, p (bare x) = p x) :
    (xs.find? p = none ∧ ys.find? p = none) ∨
      ∃ x y, xs.find? p = some x ∧ ys.find? p = some y ∧ bare x = bare y := by
  have hfind (zs : List α) : (zs.find? p).map bare = (zs.map bare).find? p := by
    rw [List.find?_map, show p ∘ bare = p from funext hp]
  have hbare : (xs.find? p).map bare = (ys.find? p).map bare := by
    rw [hfind, hfind, h]
  cases hx : xs.find? p <;> cases hy : ys.find? p <;> rw [hx, hy] at hbare
  · exact .inl ⟨rfl, rfl⟩
  · cases hbare
  · cases hbare
  · exact .inr ⟨_, _, rfl, rfl, Option.some.inj hbare⟩

/-! ## Travel times -/

/-- The travel time on a link does not depend on the partition of the link. -/
def TravelTimes.Unparted (t : TravelTimes) : Prop :=
  ∀ entry ∈ t.rules, ∀ link now agent, entry.2.seconds link now agent =
    entry.2.seconds link.bare now agent

theorem TravelTimes.Unparted.exitTime {t : TravelTimes} (h : t.Unparted) {link₁ link₂ : Link}
    (he : link₁.bare = link₂.bare) (now : UInt32) (agent : Agent) :
    t.exitTime link₁ now agent = t.exitTime link₂ now agent := by
  have hid : link₁.bare.id = link₂.bare.id := congrArg Link.id he
  change link₁.id = link₂.id at hid
  unfold TravelTimes.exitTime
  cases hrule : t.get? agent.mode with
  | none => rfl
  | some rule =>
    obtain ⟨entry, hentry, rfl⟩ := Option.map_eq_some_iff.1 hrule
    have hmem : entry ∈ t.rules := List.mem_of_find?_eq_some hentry
    have hseconds : entry.2.seconds link₁ now agent = entry.2.seconds link₂ now agent := by
      rw [h entry hmem, he, ← h entry hmem]
    simp only [hseconds, hid]

/-! ## Networks with the same wiring -/

namespace Layout.SameWiring

variable {l₁ l₂ : Layout}

theorem linkIds_eq (h : SameWiring l₁ l₂) : l₁.linkIds = l₂.linkIds := by
  have hids := congrArg (List.map Link.id) h.links
  rw [List.map_map, List.map_map] at hids
  exact hids

theorem nodeIds_eq (h : SameWiring l₁ l₂) : l₁.nodeIds = l₂.nodeIds := by
  have hids := congrArg (List.map Junction.id) h.junctions
  rw [List.map_map, List.map_map] at hids
  exact hids

theorem link?_cases (h : SameWiring l₁ l₂) (id : LinkId) :
    (l₁.link? id = none ∧ l₂.link? id = none) ∨
      ∃ link₁ link₂, l₁.link? id = some link₁ ∧ l₂.link? id = some link₂ ∧
        link₁.bare = link₂.bare :=
  find?_cases h.links fun _ => rfl

theorem junction?_cases (h : SameWiring l₁ l₂) (id : NodeId) :
    (l₁.junction? id = none ∧ l₂.junction? id = none) ∨
      ∃ node₁ node₂, l₁.junction? id = some node₁ ∧ l₂.junction? id = some node₂ ∧
        node₁.bare = node₂.bare :=
  find?_cases h.junctions fun _ => rfl

end Layout.SameWiring

/-- Two supplies which differ in the partitions of the network only. -/
structure Supply.SameUpToParts (supply₁ supply₂ : Supply) : Prop where
  layouts : supply₁.layout.SameWiring supply₂.layout
  travelTimes : supply₁.travelTimes = supply₂.travelTimes
  unparted : supply₁.travelTimes.Unparted

namespace Supply.SameUpToParts

variable {supply₁ supply₂ : Supply}

theorem exitTime_eq (h : SameUpToParts supply₁ supply₂) {link₁ link₂ : Link}
    (he : link₁.bare = link₂.bare) (now : UInt32) (agent : Agent) :
    supply₁.travelTimes.exitTime link₁ now agent =
      supply₂.travelTimes.exitTime link₂ now agent := by
  rw [← h.travelTimes]
  exact h.unparted.exitTime he now agent

/-- What becomes of an agent at a node is the same in both networks. -/
theorem turn_eq (h : SameUpToParts supply₁ supply₂) {node₁ node₂ : Junction}
    (hn : node₁.bare = node₂.bare) (inLink : LinkId) (now : UInt32) (agent : Agent) :
    supply₁.turn node₁ inLink now agent = supply₂.turn node₂ inLink now agent := by
  have hnode : node₁.id = node₂.id := (Junction.mk.inj hn).1
  unfold Supply.turn Loading.nextLink
  cases agent.next? with
  | none => rfl
  | some next =>
    obtain ⟨h₁, h₂⟩ | ⟨link₁, link₂, h₁, h₂, hlink⟩ := h.layouts.link?_cases next
    · simp only [h₁, h₂]
    · have hid : link₁.id = link₂.id := (Link.mk.inj hlink).1
      have hfrom : link₁.fromNode = link₂.fromNode := (Link.mk.inj hlink).2.1
      simp only [h₁, h₂, hid, hfrom, hnode]
      by_cases hconnected : link₂.fromNode = node₂.id
      · simp only [if_pos hconnected, h.exitTime_eq hlink, hid]
      · simp only [if_neg hconnected]

end Supply.SameUpToParts

namespace Loading

variable {s s₁ s₂ t₁ t₂ : Loading} {now : UInt32} {supply supply₁ supply₂ : Supply}

/-! ## Whom the nodes move -/

theorem moves_eq_moves (h : supply₁.SameUpToParts supply₂) (hc : supply₁.layout.Closed)
    (hq : ∀ id ∈ supply₁.layout.linkIds, (s₁.queue id).toLeave = (s₂.queue id).toLeave)
    (id : NodeId) : s₁.moves supply₁ now id = s₂.moves supply₂ now id := by
  unfold moves
  obtain ⟨h₁, h₂⟩ | ⟨node₁, node₂, h₁, h₂, hn⟩ := h.layouts.junction?_cases id
  · simp only [h₁, h₂]
  · have hin : node₁.inLinks = node₂.inLinks := (Junction.mk.inj hn).2.1
    simp only [h₁, h₂, crossings, crossingsFrom, ← hin]
    apply List.flatMap_congr
    intro link hlink
    have hmem := hc.mem_linkIds_of_mem_inLinks (List.mem_of_find?_eq_some h₁) hlink
    rw [hq link hmem]
    apply List.map_congr_left
    intro agent _
    simp only [Supply.crossing, h.turn_eq hn]

/-- The nodes of all partitions move the same agents, in another order at most. -/
theorem allMoves_perm (h : supply₁.SameUpToParts supply₂) (hc₁ : supply₁.layout.Closed)
    (hc₂ : supply₂.layout.Closed) {parts₁ parts₂ : List Nat}
    (hp₁ : parts₁.Perm (List.range supply₁.layout.numParts))
    (hp₂ : parts₂.Perm (List.range supply₂.layout.numParts))
    (hq : ∀ id ∈ supply₁.layout.linkIds, (s₁.queue id).toLeave = (s₂.queue id).toLeave)
    (now : UInt32) :
    (s₁.allMoves supply₁ now parts₁).Perm (s₂.allMoves supply₂ now parts₂) := by
  have htours : (parts₁.flatMap supply₁.layout.nodeTour).Perm
      (parts₂.flatMap supply₂.layout.nodeTour) :=
    (hc₁.nodeTours_perm hp₁).trans (h.layouts.nodeIds_eq ▸ (hc₂.nodeTours_perm hp₂).symm)
  unfold allMoves
  rw [funext (moves_eq_moves h hc₁ hq)]
  exact htours.flatMap_right _

/-- What is seen of a single node only, is seen in the same order. -/
theorem flatMap_allMoves {β : Type} {view : Crossing → List β} (h : supply₁.SameUpToParts supply₂)
    (hc₁ : supply₁.layout.Closed) (hc₂ : supply₂.layout.Closed) {parts₁ parts₂ : List Nat}
    (hp₁ : parts₁.Perm (List.range supply₁.layout.numParts))
    (hp₂ : parts₂.Perm (List.range supply₂.layout.numParts))
    (hq : ∀ id ∈ supply₁.layout.linkIds, (s₁.queue id).toLeave = (s₂.queue id).toLeave)
    (hview : ∀ id₁ id₂, ∀ x₁ ∈ s₁.moves supply₁ now id₁, ∀ x₂ ∈ s₁.moves supply₁ now id₂,
      x₁ ∈ s₁.allMoves supply₁ now parts₁ → x₂ ∈ s₁.allMoves supply₁ now parts₁ →
        view x₁ ≠ [] → view x₂ ≠ [] → id₁ = id₂) :
    (s₁.allMoves supply₁ now parts₁).flatMap view =
      (s₂.allMoves supply₂ now parts₂).flatMap view := by
  have htours : (parts₁.flatMap supply₁.layout.nodeTour).Perm
      (parts₂.flatMap supply₂.layout.nodeTour) :=
    (hc₁.nodeTours_perm hp₁).trans (h.layouts.nodeIds_eq ▸ (hc₂.nodeTours_perm hp₂).symm)
  have hnodup := (hc₁.nodeTours_perm hp₁).nodup_iff.2 hc₁.junctions_apart.nodup
  have hsplit (ids : List NodeId) : (ids.flatMap (s₁.moves supply₁ now)).flatMap view =
      ids.flatMap fun id => (s₁.moves supply₁ now id).flatMap view := List.flatMap_assoc
  unfold allMoves at hview ⊢
  rw [← funext (moves_eq_moves h hc₁ hq), hsplit, hsplit]
  -- Both sides go through the same nodes, and at most one of them is in view.
  apply flatMap_eq_of_perm htours hnodup
  intro id₁ hid₁ id₂ hid₂ hne₁ hne₂
  obtain ⟨y₁, hy₁⟩ := List.exists_mem_of_ne_nil _ hne₁
  obtain ⟨y₂, hy₂⟩ := List.exists_mem_of_ne_nil _ hne₂
  obtain ⟨x₁, hx₁, hy₁⟩ := List.mem_flatMap.1 hy₁
  obtain ⟨x₂, hx₂, hy₂⟩ := List.mem_flatMap.1 hy₂
  exact hview id₁ id₂ x₁ hx₁ x₂ hx₂ (List.mem_flatMap.2 ⟨id₁, hid₁, hx₁⟩)
    (List.mem_flatMap.2 ⟨id₂, hid₂, hx₂⟩) (List.ne_nil_of_mem hy₁) (List.ne_nil_of_mem hy₂)

/-- Agents enter a link from one node only. -/
theorem source_unique (hc : supply.layout.Closed) {id₁ id₂ : NodeId} {x₁ x₂ : Crossing}
    (hx₁ : x₁ ∈ s.moves supply now id₁) (hx₂ : x₂ ∈ s.moves supply now id₂) {link : LinkId}
    {e₁ e₂ : UInt32} (h₁ : x₁.turn = .onto link e₁) (h₂ : x₂.turn = .onto link e₂) : id₁ = id₂ := by
  have hsource {id : NodeId} {x : Crossing} (hx : x ∈ s.moves supply now id) {e : UInt32}
      (hturn : x.turn = .onto link e) : (supply.layout.link? link).map (·.fromNode) = some id := by
    obtain ⟨node, -, rfl, hcross⟩ := mem_moves hx
    obtain ⟨inLink, -, agent, -, rfl⟩ := mem_crossingsFrom.1 hcross
    obtain ⟨road, hl, rfl, hfrom, -⟩ := exists_road_of_onto hturn
    rw [hc.link?_eq hl, Option.map_some, hfrom]
  exact Option.some.inj ((hsource hx₁ h₁).symm.trans (hsource hx₂ h₂))

end Loading

/-! ## The events on a link -/

/-- Whether an event stands among those which tell who entered a link, or among all others on the
link. -/
def Event.isOn (link : LinkId) (entry : Bool) (e : Event) : Bool :=
  e.link = link && decide (e.kind = .entered) == entry

/-- The events which tell who entered a link, or all others on the link. -/
def Record.eventsOn (r : Record) (link : LinkId) (entry : Bool) : List Event :=
  r.events.toList.filter (·.isOn link entry)

theorem Record.eventsOn_append {r r' : Record} {es : List Event}
    (h : r'.events.toList = r.events.toList ++ es) (link : LinkId) (entry : Bool) :
    r'.eventsOn link entry = r.eventsOn link entry ++ es.filter (·.isOn link entry) := by
  rw [eventsOn, h, List.filter_append, eventsOn]

namespace Crossing

variable {now : UInt32} {x : Crossing} {link : LinkId}

/-- Who entered a link is told where the agent came from. -/
theorem turn_of_events (h : (x.events now).filter (·.isOn link true) ≠ []) :
    ∃ exitTime, x.turn = .onto link exitTime := by
  unfold events Event.isOn at h
  cases hturn : x.turn with
  | onto next exitTime =>
    by_cases he : next = link
    · exact ⟨exitTime, he ▸ rfl⟩
    · simp [hturn, Event.kind, Event.link, he] at h
  | lost error => simp [hturn, Event.kind] at h
  | refused next error => simp [hturn, Event.kind] at h

/-- All else on a link is told where the agent is taken from the link. -/
theorem inLink_of_events (hx : x.error? = none)
    (h : (x.events now).filter (·.isOn link false) ≠ []) : x.inLink = link := by
  unfold events Event.isOn at h
  by_contra hne
  cases hturn : x.turn with
  | onto next exitTime => simp [hturn, Event.kind, Event.link, hne] at h
  | lost error => simp [hturn, Event.kind, Event.link, hne] at h
  | refused next error =>
    unfold error? at hx
    rw [hturn] at hx
    cases hx

end Crossing

namespace Loading

variable {s₁ s₂ : Loading} {now : UInt32} {supply₁ supply₂ : Supply} {parts₁ parts₂ : List Nat}

/-- Agents enter a link in the same order. -/
theorem entries_allMoves (h : supply₁.SameUpToParts supply₂) (hc₁ : supply₁.layout.Closed)
    (hc₂ : supply₂.layout.Closed) (hp₁ : parts₁.Perm (List.range supply₁.layout.numParts))
    (hp₂ : parts₂.Perm (List.range supply₂.layout.numParts))
    (hq : ∀ id ∈ supply₁.layout.linkIds, (s₁.queue id).toLeave = (s₂.queue id).toLeave)
    (link : LinkId) :
    (s₁.allMoves supply₁ now parts₁).filterMap (Crossing.entrant? link) =
      (s₂.allMoves supply₂ now parts₂).filterMap (Crossing.entrant? link) := by
  -- Only a crossing onto the link has an entry, and all of those come over one node.
  have honto {x : Crossing} (hx : (x.entrant? link).toList ≠ []) :
      ∃ exitTime, x.turn = .onto link exitTime := by
    unfold Crossing.entrant? at hx
    cases hturn : x.turn with
    | onto next exitTime =>
      by_cases he : next = link
      · exact ⟨exitTime, he ▸ rfl⟩
      · simp [hturn, he] at hx
    | lost error => simp [hturn] at hx
    | refused next error => simp [hturn] at hx
  rw [List.filterMap_eq_flatMap_toList, List.filterMap_eq_flatMap_toList]
  apply flatMap_allMoves h hc₁ hc₂ hp₁ hp₂ hq
  intro id₁ id₂ x₁ hx₁ x₂ hx₂ _ _ hne₁ hne₂
  obtain ⟨e₁, he₁⟩ := honto hne₁
  obtain ⟨e₂, he₂⟩ := honto hne₂
  exact source_unique hc₁ hx₁ hx₂ he₁ he₂

/-- If nobody is refused, the same is told of a link in the same order. -/
theorem events_allMoves (h : supply₁.SameUpToParts supply₂) (hc₁ : supply₁.layout.Closed)
    (hc₂ : supply₂.layout.Closed) (hp₁ : parts₁.Perm (List.range supply₁.layout.numParts))
    (hp₂ : parts₂.Perm (List.range supply₂.layout.numParts))
    (hq : ∀ id ∈ supply₁.layout.linkIds, (s₁.queue id).toLeave = (s₂.queue id).toLeave)
    (hgranted : ∀ x ∈ s₁.allMoves supply₁ now parts₁, x.error? = none)
    (link : LinkId) (entry : Bool) :
    ((s₁.allMoves supply₁ now parts₁).flatMap (·.events now)).filter (·.isOn link entry) =
      ((s₂.allMoves supply₂ now parts₂).flatMap (·.events now)).filter (·.isOn link entry) := by
  rw [List.filter_flatMap, List.filter_flatMap]
  apply flatMap_allMoves h hc₁ hc₂ hp₁ hp₂ hq
  intro id₁ id₂ x₁ hx₁ x₂ hx₂ hm₁ hm₂ hne₁ hne₂
  -- Entries come from the node where the link starts, all other events from the one where it ends.
  cases entry with
  | true =>
    obtain ⟨e₁, he₁⟩ := Crossing.turn_of_events hne₁
    obtain ⟨e₂, he₂⟩ := Crossing.turn_of_events hne₂
    exact source_unique hc₁ hx₁ hx₂ he₁ he₂
  | false =>
    have hin₁ := Crossing.inLink_of_events (hgranted x₁ hm₁) hne₁
    have hin₂ := Crossing.inLink_of_events (hgranted x₂ hm₂) hne₂
    exact target_unique hc₁ hx₁ hx₂ (hin₁.trans hin₂.symm)

end Loading

/-! ## States which are alike -/

/-- The same has come of all agents, whoever was told first, and for every link the same is told in
the same order. -/
structure Record.Alike (r₁ r₂ : Record) : Prop where
  population : r₁.population = r₂.population
  handedOver : r₁.handedOver.toList.Perm r₂.handedOver.toList
  events : ∀ link entry, r₁.eventsOn link entry = r₂.eventsOn link entry

namespace Record.Alike

variable {r₁ r₂ : Record}

/-- The same is added to both records. -/
theorem extend (h : r₁.Alike r₂) (f : Population → Population) (es : List Event)
    (agents : List Agent) :
    Record.Alike
      { r₁ with
        population := f r₁.population
        events := r₁.events ++ es.toArray
        handedOver := r₁.handedOver ++ agents.toArray }
      { r₂ with
        population := f r₂.population
        events := r₂.events ++ es.toArray
        handedOver := r₂.handedOver ++ agents.toArray } := by
  refine ⟨congrArg f h.population, ?_, ?_⟩
  · simp only [Array.toList_append]
    exact h.handedOver.append_right _
  · intro link entry
    have hevents := h.events link entry
    simp only [eventsOn] at hevents
    simp only [eventsOn, Array.toList_append, List.filter_append, hevents]

theorem lose (h : r₁.Alike r₂) (now : UInt32) (xs : List (LinkId × Agent)) :
    (r₁.lose now xs).Alike (r₂.lose now xs) :=
  h.extend _ _ _

theorem silent_iff : r₁.silent.Alike r₂.silent ↔ r₁.Alike r₂ :=
  ⟨fun h => ⟨h.population, h.handedOver, h.events⟩, fun h => ⟨h.population, h.handedOver, h.events⟩⟩

end Record.Alike

namespace Loading

/-- Two states with the same agents in the same places, of networks which are divided in different
ways. -/
structure Alike (l : Layout) (s₁ s₂ : Loading) : Prop where
  queue : ∀ id ∈ l.linkIds, s₁.queue id = s₂.queue id
  nodeActive : ∀ id ∈ l.nodeIds, s₁.nodeActive id = s₂.nodeActive id
  onNetwork : s₁.traffic.onNetwork = s₂.traffic.onNetwork
  record : s₁.record.Alike s₂.record

end Loading

/-- Two engines which differ in the partitions of their networks only. -/
structure Engine.Twins (engine₁ engine₂ : Engine) : Prop where
  supplies : engine₁.supply.SameUpToParts engine₂.supply
  closed₁ : engine₁.supply.layout.Closed
  closed₂ : engine₂.supply.layout.Closed

namespace Loading

variable {s₁ s₂ t₁ t₂ : Loading} {now : UInt32} {engine₁ engine₂ : Engine} {o₁ o₂ : Orders}
  {stats₁ stats₂ : StepStats}

theorem mem_linkIds₂ (ht : engine₁.Twins engine₂) {id : LinkId}
    (hid : id ∈ engine₁.supply.layout.linkIds) : id ∈ engine₂.supply.layout.linkIds :=
  ht.supplies.layouts.linkIds_eq ▸ hid

/-! ## Steps -/

theorem Alike.queue_drive (ht : engine₁.Twins engine₂)
    (hs₁ : s₁.Settled engine₁.supply.layout) (hs₂ : s₂.Settled engine₂.supply.layout)
    (h : s₁.Alike engine₁.supply.layout s₂) (ho₁ : o₁.Whole engine₁.supply.layout)
    (ho₂ : o₂.Whole engine₂.supply.layout) {id : LinkId}
    (hid : id ∈ engine₁.supply.layout.linkIds) (now : UInt32) :
    (s₁.drive engine₁.supply.layout now o₁.forLinks).queue id =
      (s₂.drive engine₂.supply.layout now o₂.forLinks).queue id := by
  rw [Loading.queue_drive ht.closed₁ hs₁.fits ho₁.forLinks hid,
    Loading.queue_drive ht.closed₂ hs₂.fits ho₂.forLinks (mem_linkIds₂ ht hid), h.queue id hid]

theorem Alike.moves_perm (ht : engine₁.Twins engine₂)
    (hs₁ : s₁.Settled engine₁.supply.layout) (hs₂ : s₂.Settled engine₂.supply.layout)
    (h : s₁.Alike engine₁.supply.layout s₂) (ho₁ : o₁.Whole engine₁.supply.layout)
    (ho₂ : o₂.Whole engine₂.supply.layout) (now : UInt32) :
    ((s₁.drive engine₁.supply.layout now o₁.forLinks).allMoves engine₁.supply now
      o₁.forNodes).Perm ((s₂.drive engine₂.supply.layout now o₂.forLinks).allMoves engine₂.supply
        now o₂.forNodes) := by
  refine allMoves_perm ht.supplies ht.closed₁ ht.closed₂ ho₁.forNodes ho₂.forNodes ?_ now
  intro id hid
  rw [h.queue_drive ht hs₁ hs₂ ho₁ ho₂ hid now]

theorem Alike.arrivals_perm (ht : engine₁.Twins engine₂)
    (h : s₁.Alike engine₁.supply.layout s₂) (ho₁ : o₁.Whole engine₁.supply.layout)
    (ho₂ : o₂.Whole engine₂.supply.layout) (now : UInt32) :
    (s₁.arrivals now (o₁.forLinks.flatMap engine₁.supply.layout.linkTour)).Perm
      (s₂.arrivals now (o₂.forLinks.flatMap engine₂.supply.layout.linkTour)) := by
  have htours₁ := ht.closed₁.linkTours_perm ho₁.forLinks
  have htours₂ := ht.closed₂.linkTours_perm ho₂.forLinks
  have hsame : s₁.arrivals now (o₁.forLinks.flatMap engine₁.supply.layout.linkTour) =
      s₂.arrivals now (o₁.forLinks.flatMap engine₁.supply.layout.linkTour) :=
    List.flatMap_congr fun id hid => by rw [h.queue id (htours₁.subset hid)]
  rw [hsame]
  exact (htours₁.trans (ht.supplies.layouts.linkIds_eq ▸ htours₂.symm)).flatMap_right _

/-- Steps of states which are alike count the same. -/
theorem Alike.stats_eq (ht : engine₁.Twins engine₂)
    (hs₁ : s₁.Settled engine₁.supply.layout) (hs₂ : s₂.Settled engine₂.supply.layout)
    (h : s₁.Alike engine₁.supply.layout s₂) (ho₁ : o₁.Whole engine₁.supply.layout)
    (ho₂ : o₂.Whole engine₂.supply.layout)
    (h₁ : Stepped engine₁ now o₁.forLinks o₁.forNodes s₁ stats₁ t₁)
    (h₂ : Stepped engine₂ now o₂.forLinks o₂.forNodes s₂ stats₂ t₂) : stats₁ = stats₂ := by
  have hlayouts := ht.supplies.layouts
  have hqueue {id : LinkId} (hid : id ∈ engine₁.supply.layout.linkIds) :=
    h.queue_drive ht hs₁ hs₂ ho₁ ho₂ hid now
  have hlinks : stats₁.links = stats₂.links := by
    rw [h₁.links, h₂.links, ← hlayouts.linkIds_eq]
    exact congrArg _ (List.filter_congr fun id hid => by rw [h.queue id hid])
  have hnodes : stats₁.nodes = stats₂.nodes := by
    -- The nodes themselves differ in their partitions, which the count does not look at.
    have hbare (s m : Loading) (nodes : List Junction) :
        (nodes.filter fun node => s.nodeActive node.id || m.awaited node).length =
          ((nodes.map Junction.bare).filter fun node =>
            s.nodeActive node.id || m.awaited node).length := by
      rw [List.filter_map, List.length_map]
      rfl
    rw [h₁.nodes, h₂.nodes, hbare s₁, hbare s₂, ← hlayouts.junctions]
    refine congrArg _ (List.filter_congr fun node hnode => ?_)
    obtain ⟨node, hn, rfl⟩ := List.mem_map.1 hnode
    have hactive : s₁.nodeActive node.id = s₂.nodeActive node.id :=
      h.nodeActive node.id (List.mem_map_of_mem hn)
    have hawaited : (s₁.drive engine₁.supply.layout now o₁.forLinks).awaited node =
        (s₂.drive engine₂.supply.layout now o₂.forLinks).awaited node := by
      apply awaited_congr
      intro id hid
      rw [hqueue (ht.closed₁.mem_linkIds_of_mem_inLinks hn hid)]
    exact congrArg₂ _ hactive hawaited
  have hagents : stats₁.agents = stats₂.agents := by
    rw [h₁.agents, h₂.agents]
    exact (h.moves_perm ht hs₁ hs₂ ho₁ ho₂ now).length_eq
  have hnow : stats₁.now = stats₂.now := h₁.now_eq.trans h₂.now_eq.symm
  cases stats₁
  cases stats₂
  simp only [StepStats.mk.injEq]
  exact ⟨hnow, hlinks, hnodes, hagents⟩

/-- Steps of states which are alike lead to states which are alike. -/
theorem Alike.step (ht : engine₁.Twins engine₂)
    (hs₁ : s₁.Settled engine₁.supply.layout) (hs₂ : s₂.Settled engine₂.supply.layout)
    (h : s₁.Alike engine₁.supply.layout s₂) (ho₁ : o₁.Whole engine₁.supply.layout)
    (ho₂ : o₂.Whole engine₂.supply.layout)
    (h₁ : Stepped engine₁ now o₁.forLinks o₁.forNodes s₁ stats₁ t₁)
    (h₂ : Stepped engine₂ now o₂.forLinks o₂.forNodes s₂ stats₂ t₂) :
    t₁.Alike engine₁.supply.layout t₂ := by
  have hleave (id : LinkId) (hid : id ∈ engine₁.supply.layout.linkIds) :
      ((s₁.drive engine₁.supply.layout now o₁.forLinks).queue id).toLeave =
        ((s₂.drive engine₂.supply.layout now o₂.forLinks).queue id).toLeave := by
    rw [h.queue_drive ht hs₁ hs₂ ho₁ ho₂ hid now]
  have harrivals := h.arrivals_perm ht ho₁ ho₂ now
  have housted := (h.moves_perm ht hs₁ hs₂ ho₁ ho₂ now).filterMap (·.ousted? now)
  refine ⟨?_, ?_, ?_, ?_, ?_, ?_⟩
  · intro id hid
    -- After a step the marks follow from the agents, so it is enough to compare these.
    have hid₂ := mem_linkIds₂ ht hid
    refine (h₁.settled.live id hid).eq_of_unmarked_eq (h₂.settled.live id hid₂) ?_
    rw [h₁.queue ht.closed₁ hs₁ ho₁.forLinks hid, h₂.queue ht.closed₂ hs₂ ho₂.forLinks hid₂,
      entries_allMoves ht.supplies ht.closed₁ ht.closed₂ ho₁.forNodes ho₂.forNodes hleave,
      h.queue id hid]
  · intro id hid
    have hid₂ : id ∈ engine₂.supply.layout.nodeIds := ht.supplies.layouts.nodeIds_eq ▸ hid
    rw [h₁.marks id hid, h₂.marks id hid₂, moves_eq_moves ht.supplies ht.closed₁ hleave]
  · rw [h₁.onNetwork ht.closed₁ hs₁ ho₁.forLinks, h₂.onNetwork ht.closed₂ hs₂ ho₂.forLinks,
      h.onNetwork, harrivals.length_eq, housted.length_eq]
  · rw [h₁.population ht.closed₁ hs₁ ho₁.forLinks, h₂.population ht.closed₂ hs₂ ho₂.forLinks,
      h.record.population, housted.length_eq]
  · rw [h₁.handedOver ht.closed₁ hs₁ ho₁.forLinks, h₂.handedOver ht.closed₂ hs₂ ho₂.forLinks]
    exact (h.record.handedOver.append (harrivals.map _)).append housted
  · intro link entry
    rw [Record.eventsOn_append (h₁.events ht.closed₁ hs₁ ho₁.forLinks),
      Record.eventsOn_append (h₂.events ht.closed₂ hs₂ ho₂.forLinks), h.record.events link entry,
      events_allMoves ht.supplies ht.closed₁ ht.closed₂ ho₁.forNodes ho₂.forNodes hleave
        h₁.granted]

/-! ## Other calls -/

theorem departing_eq (ht : engine₁.Twins engine₂) (agent : Agent) (id : LinkId) :
    engine₁.departing agent id = engine₂.departing agent id := by
  unfold Engine.departing
  rw [ht.supplies.travelTimes]
  obtain ⟨h₁, h₂⟩ | ⟨link₁, link₂, h₁, h₂, hlink⟩ := ht.supplies.layouts.link?_cases id
  · simp only [h₁, h₂]
  · have hid : link₁.id = link₂.id := (Link.mk.inj hlink).1
    simp only [h₁, h₂, hid]

theorem entering_eq (ht : engine₁.Twins engine₂) (agent : Agent) (id : LinkId) (now : UInt32) :
    engine₁.entering agent id now = engine₂.entering agent id now := by
  unfold Engine.entering
  obtain ⟨h₁, h₂⟩ | ⟨link₁, link₂, h₁, h₂, hlink⟩ := ht.supplies.layouts.link?_cases id
  · simp only [h₁, h₂]
  · have hid : link₁.id = link₂.id := (Link.mk.inj hlink).1
    simp only [h₁, h₂, hid, ht.supplies.exitTime_eq hlink]

theorem Alike.land (ht : engine₁.Twins engine₂)
    (hs₁ : s₁.Settled engine₁.supply.layout) (hs₂ : s₂.Settled engine₂.supply.layout)
    (h : s₁.Alike engine₁.supply.layout s₂) (agent : Agent) {x : Landing}
    (hx₁ : x.Within engine₁.supply.layout) (hx₂ : x.Within engine₂.supply.layout) (now : UInt32) :
    (s₁.land engine₁.supply.layout now agent x).Alike engine₁.supply.layout
      (s₂.land engine₂.supply.layout now agent x) := by
  obtain ⟨hrecord₁, hcount₁, hactive₁⟩ := record_land ht.closed₁ s₁ agent hx₁ now
  obtain ⟨hrecord₂, hcount₂, hactive₂⟩ := record_land ht.closed₂ s₂ agent hx₂ now
  refine ⟨?_, ?_, ?_, ?_⟩
  · intro id hid
    have hid₂ := mem_linkIds₂ ht hid
    have hlive₁ := (hs₁.land ht.closed₁ agent hx₁ now).live id hid
    have hlive₂ := (hs₂.land ht.closed₂ agent hx₂ now).live id hid₂
    -- In a settled state the mark of a link follows from its content.
    refine hlive₁.eq_of_unmarked_eq hlive₂ ?_
    rw [queue_land ht.closed₁ hs₁.fits agent hx₁ hid, queue_land ht.closed₂ hs₂.fits agent hx₂ hid₂,
      h.queue id hid]
  · intro id hid
    rw [hactive₁, hactive₂, h.nodeActive id hid]
  · rw [hcount₁, hcount₂, h.onNetwork]
  · rw [hrecord₁, hrecord₂]
    exact h.record.extend id _ _

theorem Alike.stranded_eq (h : s₁.Alike engine₁.supply.layout s₂) {ids : List LinkId}
    (hids : ids ⊆ engine₁.supply.layout.linkIds) : s₁.stranded ids = s₂.stranded ids :=
  List.flatMap_congr fun id hid => by rw [h.queue id (hids hid)]

/-- Empty networks are alike if their records are. -/
theorem Vacant.alike (ht : engine₁.Twins engine₂) (h₁ : t₁.Vacant engine₁.supply.layout)
    (h₂ : t₂.Vacant engine₂.supply.layout) (hcount : t₁.traffic.onNetwork = t₂.traffic.onNetwork)
    (hrecord : t₁.record.Alike t₂.record) : t₁.Alike engine₁.supply.layout t₂ := by
  refine ⟨?_, ?_, hcount, hrecord⟩
  · intro id hid
    rw [h₁.queue id hid, h₂.queue id (mem_linkIds₂ ht hid)]
  · intro id hid
    rw [h₁.marks id hid, h₂.marks id (ht.supplies.layouts.nodeIds_eq ▸ hid)]

theorem Alike.finish (ht : engine₁.Twins engine₂)
    (hs₁ : s₁.Settled engine₁.supply.layout) (hs₂ : s₂.Settled engine₂.supply.layout)
    (h : s₁.Alike engine₁.supply.layout s₂) (now : UInt32) :
    (Engine.finish s₁ now).1 = (Engine.finish s₂ now).1 ∧
      (Engine.finish s₁ now).2.Alike engine₁.supply.layout (Engine.finish s₂ now).2 := by
  obtain ⟨t₁, ht₁, hvacant₁, hrecord₁, hcount₁⟩ := finish_eq ht.closed₁ hs₁.fits now
  obtain ⟨t₂, ht₂, hvacant₂, hrecord₂, hcount₂⟩ := finish_eq ht.closed₂ hs₂.fits now
  have hsame : s₁.everyone engine₁.supply.layout = s₂.everyone engine₂.supply.layout := by
    rw [everyone, everyone, ← ht.supplies.layouts.linkIds_eq]
    exact h.stranded_eq (sortBy_perm _ _).subset
  rw [ht₁, ht₂, hsame]
  refine ⟨rfl, hvacant₁.alike ht hvacant₂ ?_ (Record.Alike.silent_iff.1 ?_)⟩
  · rw [hcount₁, hcount₂, h.onNetwork, hsame]
  · rw [hrecord₁, hrecord₂, hsame]
    exact Record.Alike.silent_iff.2 (h.record.lose now _)

theorem Alike.reset (ht : engine₁.Twins engine₂)
    (hs₁ : s₁.Settled engine₁.supply.layout) (hs₂ : s₂.Settled engine₂.supply.layout)
    (h : s₁.Alike engine₁.supply.layout s₂) :
    (Engine.reset s₁).Alike engine₁.supply.layout (Engine.reset s₂) := by
  obtain ⟨hvacant₁, hrecord₁, hcount₁⟩ := reset_eq hs₁.fits
  obtain ⟨hvacant₂, hrecord₂, hcount₂⟩ := reset_eq hs₂.fits
  refine hvacant₁.alike ht hvacant₂ ?_ (Record.Alike.silent_iff.1 ?_)
  · rw [hcount₁, hcount₂, h.onNetwork, ← ht.supplies.layouts.linkIds_eq,
      h.stranded_eq (List.Subset.refl _)]
  · rw [hrecord₁, hrecord₂]
    exact Record.Alike.silent_iff.2 h.record

/-! ## Courses -/

/-- A step fails if and only if someone is refused. -/
theorem failed_iff {supply : Supply} {parts : List Nat} {stats : Except LoadingError StepStats}
    (h : stats.map (·.agents) = Crossing.tallyAll (parts.map (s₁.partMoves supply now))) :
    (Answer.stepped stats).failed = true ↔
      ∃ x ∈ s₁.allMoves supply now parts, x.error?.isSome := by
  rw [← flatten_partMoves, ← Crossing.tallyAll_eq_error, ← h]
  cases stats <;> simp [Answer.failed, Except.map]

/-- Steps of states which are alike fail alike, or count the same and lead to states which are
alike. -/
theorem Alike.stepInOrder (ht : engine₁.Twins engine₂)
    (hs₁ : s₁.Settled engine₁.supply.layout) (hs₂ : s₂.Settled engine₂.supply.layout)
    (h : s₁.Alike engine₁.supply.layout s₂) (ho₁ : o₁.Whole engine₁.supply.layout)
    (ho₂ : o₂.Whole engine₂.supply.layout) (now : UInt32) :
    ∃ stats₁ t₁ stats₂ t₂,
      engine₁.stepInOrder s₁ now o₁.forLinks o₁.forNodes = .ok (stats₁, t₁) ∧
      engine₂.stepInOrder s₂ now o₂.forLinks o₂.forNodes = .ok (stats₂, t₂) ∧
      (Answer.stepped stats₁).failed = (Answer.stepped stats₂).failed ∧
      ((Answer.stepped stats₁).failed = false →
        stats₁ = stats₂ ∧ t₁.Alike engine₁.supply.layout t₂) := by
  obtain ⟨stats₁, t₁, ht₁, htally₁, -, hok₁⟩ :=
    hs₁.stepInOrder ht.closed₁ ho₁.forLinks ho₁.forNodes now
  obtain ⟨stats₂, t₂, ht₂, htally₂, -, hok₂⟩ :=
    hs₂.stepInOrder ht.closed₂ ho₂.forLinks ho₂.forNodes now
  have hmoves := h.moves_perm ht hs₁ hs₂ ho₁ ho₂ now
  -- A step fails if some move of it is refused, and both have the same moves.
  have hfailed : (Answer.stepped stats₁).failed = (Answer.stepped stats₂).failed := by
    rw [Bool.eq_iff_iff, failed_iff htally₁, failed_iff htally₂]
    exact exists_congr fun x => and_congr_left fun _ => hmoves.mem_iff
  refine ⟨stats₁, t₁, stats₂, t₂, ht₁, ht₂, hfailed, ?_⟩
  intro hok
  rw [hok] at hfailed
  cases stats₁ with
  | error error => cases hok
  | ok counts₁ =>
    cases stats₂ with
    | error error => cases hfailed
    | ok counts₂ =>
      have hstep₁ := hok₁ counts₁ rfl
      have hstep₂ := hok₂ counts₂ rfl
      refine ⟨?_, h.step ht hs₁ hs₂ ho₁ ho₂ hstep₁ hstep₂⟩
      rw [h.stats_eq ht hs₁ hs₂ ho₁ ho₂ hstep₁ hstep₂]

/-- Calls to states which are alike are answered alike, and lead to states which are alike. -/
theorem Alike.perform (ht : engine₁.Twins engine₂)
    (hs₁ : s₁.Settled engine₁.supply.layout) (hs₂ : s₂.Settled engine₂.supply.layout)
    (h : s₁.Alike engine₁.supply.layout s₂) (ho₁ : o₁.Whole engine₁.supply.layout)
    (ho₂ : o₂.Whole engine₂.supply.layout) (call : Call) :
    ∃ answer₁ t₁ answer₂ t₂, engine₁.perform o₁ s₁ call = .ok (answer₁, t₁) ∧
      engine₂.perform o₂ s₂ call = .ok (answer₂, t₂) ∧ answer₁.failed = answer₂.failed ∧
        (answer₁.failed = false → answer₁ = answer₂ ∧ t₁.Alike engine₁.supply.layout t₂) := by
  cases call with
  | depart agent link now =>
    -- What becomes of the agent depends on the wiring and the rules only.
    have hsame := departing_eq ht agent link
    have hx₂ : (engine₂.departing agent link).Within engine₂.supply.layout :=
      within_departing agent link
    simp only [Engine.perform, depart_eq_ok ht.closed₁ hs₁.fits, depart_eq_ok ht.closed₂ hs₂.fits,
      Except.map, hsame]
    refine ⟨_, _, _, _, rfl, rfl, rfl, fun _ => ⟨rfl, ?_⟩⟩
    exact h.land ht hs₁ hs₂ agent (hsame ▸ within_departing agent link) hx₂ now
  | enter agent link now =>
    have hsame := entering_eq ht agent link now
    have hx₂ : (engine₂.entering agent link now).Within engine₂.supply.layout :=
      within_entering agent link now
    simp only [Engine.perform, enter_eq_ok ht.closed₁ hs₁.fits, enter_eq_ok ht.closed₂ hs₂.fits,
      Except.map, hsame]
    refine ⟨_, _, _, _, rfl, rfl, rfl, fun _ => ⟨rfl, ?_⟩⟩
    exact h.land ht hs₁ hs₂ agent (hsame ▸ within_entering agent link now) hx₂ now
  | step now =>
    obtain ⟨stats₁, t₁, stats₂, t₂, ht₁, ht₂, hfailed, hok⟩ :=
      h.stepInOrder ht hs₁ hs₂ ho₁ ho₂ now
    refine ⟨.stepped stats₁, t₁, .stepped stats₂, t₂, ?_, ?_, hfailed, ?_⟩
    · simp only [Engine.perform, ht₁, Except.map]
    · simp only [Engine.perform, ht₂, Except.map]
    · intro hf
      exact ⟨congrArg Answer.stepped (hok hf).1, (hok hf).2⟩
  | finish now =>
    obtain ⟨hcount, halike⟩ := h.finish ht hs₁ hs₂ now
    refine ⟨_, _, _, _, rfl, rfl, rfl, fun _ => ⟨congrArg Answer.finished hcount, halike⟩⟩
  | reset => exact ⟨_, _, _, _, rfl, rfl, rfl, fun _ => ⟨rfl, h.reset ht hs₁ hs₂⟩⟩

end Loading

/-- Two points of two courses of the same calls: either both steps failed, or both calls were
answered the same and led to states which are alike. -/
structure Point.Alike (l : Layout) (p₁ p₂ : Point) : Prop where
  call : p₁.call = p₂.call
  failed : p₁.answer.failed = p₂.answer.failed
  answer : p₁.answer.failed = false → p₁.answer = p₂.answer
  state : p₁.answer.failed = false → p₁.state.Alike l p₂.state

namespace Loading

variable {s₁ s₂ : Loading} {engine₁ engine₂ : Engine}

theorem Alike.course (ht : engine₁.Twins engine₂)
    (hs₁ : s₁.Settled engine₁.supply.layout) (hs₂ : s₂.Settled engine₂.supply.layout)
    (h : s₁.Alike engine₁.supply.layout s₂) {calls₁ calls₂ : List (Call × Orders)}
    (hcalls : calls₁.map (·.1) = calls₂.map (·.1))
    (ho₁ : ∀ entry ∈ calls₁, entry.2.Whole engine₁.supply.layout)
    (ho₂ : ∀ entry ∈ calls₂, entry.2.Whole engine₂.supply.layout) :
    ∃ points₁ points₂, engine₁.course s₁ calls₁ = .ok points₁ ∧
      engine₂.course s₂ calls₂ = .ok points₂ ∧
        List.Forall₂ (Point.Alike engine₁.supply.layout) points₁ points₂ := by
  -- Along the calls: both states stay settled and alike, until a step fails in both.
  induction calls₁ generalizing s₁ s₂ calls₂ with
  | nil =>
    obtain rfl : calls₂ = [] := List.map_eq_nil_iff.1 hcalls.symm
    exact ⟨[], [], rfl, rfl, .nil⟩
  | cons entry₁ rest₁ ih =>
    obtain ⟨entry₂, rest₂, rfl, hcall, hrest⟩ := List.map_eq_cons_iff.1 hcalls.symm
    obtain ⟨call₁, orders₁⟩ := entry₁
    obtain ⟨call, orders₂⟩ := entry₂
    obtain rfl : call = call₁ := hcall
    obtain ⟨hwhole₁, hrest₁⟩ := List.forall_mem_cons.1 ho₁
    obtain ⟨hwhole₂, hrest₂⟩ := List.forall_mem_cons.1 ho₂
    obtain ⟨answer₁, t₁, answer₂, t₂, ht₁, ht₂, hfailed, hok⟩ :=
      h.perform ht hs₁ hs₂ hwhole₁ hwhole₂ call
    obtain ⟨_, _, he₁, hsettled₁⟩ := hs₁.perform ht.closed₁ hwhole₁ call
    obtain ⟨_, _, he₂, hsettled₂⟩ := hs₂.perform ht.closed₂ hwhole₂ call
    cases ht₁.symm.trans he₁
    cases ht₂.symm.trans he₂
    have halike : Point.Alike engine₁.supply.layout ⟨call, answer₁, t₁⟩ ⟨call, answer₂, t₂⟩ :=
      ⟨rfl, hfailed, fun hf => (hok hf).1, fun hf => (hok hf).2⟩
    simp only [Engine.course, ht₁, ht₂, Except.bind, ← hfailed]
    cases hf : answer₁.failed with
    | true => exact ⟨_, _, rfl, rfl, .cons halike .nil⟩
    | false =>
      obtain ⟨points₁, points₂, hpoints₁, hpoints₂, hall⟩ :=
        ih (hsettled₁ hf) (hsettled₂ (hfailed ▸ hf)) (hok hf).2 hrest.symm hrest₁ hrest₂
      rw [hpoints₁, hpoints₂]
      exact ⟨_, _, rfl, rfl, .cons halike hall⟩

end Loading

namespace Engine

theorem twins_of_build {ids : IdStore} {net net₁ net₂ : Network}
    (hb : net.Built ids) (hr₁ : net.Repartitioned net₁) (hr₂ : net.Repartitioned net₂)
    {config₁ config₂ : Config} {modes : List ModeId} {travelTimes : TravelTimes}
    (hu : travelTimes.Unparted) {b₁ b₂ : Built}
    (h₁ : build net₁ config₁ modes travelTimes = .ok (.ok b₁))
    (h₂ : build net₂ config₂ modes travelTimes = .ok (.ok b₂)) : b₁.engine.Twins b₂.engine := by
  obtain ⟨parted₁, hp₁, hl₁, htimes₁⟩ := build_eq_ok h₁
  obtain ⟨parted₂, hp₂, hl₂, htimes₂⟩ := build_eq_ok h₂
  have hbare : parted₁.bare = parted₂.bare := by
    rw [hp₁.bare_eq, hr₁.bare_eq, hp₂.bare_eq, hr₂.bare_eq]
  refine ⟨⟨Layout.sameWiring_ofNetwork hbare hl₁ hl₂, htimes₁.trans htimes₂.symm, htimes₁ ▸ hu⟩,
    ?_, ?_⟩
  · exact Layout.closed_ofNetwork ((hb.repartitioned hr₁).repartitioned hp₁) hl₁
  · exact Layout.closed_ofNetwork ((hb.repartitioned hr₂).repartitioned hp₂) hl₂

/-- However a network is divided, and in whatever orders its partitions are processed in each step,
the same calls fail at the same step, and until then they lead to states which are alike. -/
theorem course_repartitioned {ids : IdStore} {net net₁ net₂ : Network}
    (hb : net.Built ids) (hr₁ : net.Repartitioned net₁) (hr₂ : net.Repartitioned net₂)
    {config₁ config₂ : Config} {modes : List ModeId} {travelTimes : TravelTimes}
    (hu : travelTimes.Unparted) {b₁ b₂ : Built}
    (h₁ : build net₁ config₁ modes travelTimes = .ok (.ok b₁))
    (h₂ : build net₂ config₂ modes travelTimes = .ok (.ok b₂)) (population : Population)
    {calls₁ calls₂ : List (Call × Orders)} (hcalls : calls₁.map (·.1) = calls₂.map (·.1))
    (ho₁ : ∀ entry ∈ calls₁, entry.2.Whole b₁.engine.supply.layout)
    (ho₂ : ∀ entry ∈ calls₂, entry.2.Whole b₂.engine.supply.layout) :
    ∃ points₁ points₂,
      b₁.engine.course (.empty b₁.engine.supply.layout population) calls₁ = .ok points₁ ∧
      b₂.engine.course (.empty b₂.engine.supply.layout population) calls₂ = .ok points₂ ∧
      List.Forall₂ (Point.Alike b₁.engine.supply.layout) points₁ points₂ := by
  have ht := twins_of_build hb hr₁ hr₂ hu h₁ h₂
  have hvacant₁ := Loading.vacant_empty b₁.engine.supply.layout { population }
  have hvacant₂ := Loading.vacant_empty b₂.engine.supply.layout { population }
  have halike := hvacant₁.alike ht hvacant₂ rfl ⟨rfl, .refl _, fun _ _ => rfl⟩
  exact halike.course ht hvacant₁.settled hvacant₂.settled hcalls ho₁ ho₂

end Engine

namespace Sample

/-- The network with its nodes in two partitions. -/
def halves : Network :=
  { network with
    nodes :=
      [{ place gate with outLinks := [lane] },
        { place yard with inLinks := [lane], partition := 1 }]
    links := [{ road with partition := 1 }]
    numParts := 2 }

def halvesEngine : Engine where
  supply :=
    { layout :=
        { links := halves.links, junctions := [⟨gate, [], 0⟩, ⟨yard, [lane], 1⟩], numParts := 2 }
      travelTimes }
  schedule := .ofSettings {}

theorem repartitioned_halves : network.Repartitioned halves := by
  have hpart : network.setPartition yard 1 = .ok () halves := rfl
  exact .setPartition .refl hpart

theorem unparted_travelTimes : travelTimes.Unparted := by
  intro entry hentry link now agent
  obtain rfl := List.mem_singleton.1 hentry
  rfl

theorem whole_backwards : Orders.Whole halvesEngine.supply.layout ⟨[1, 0], [0, 1]⟩ :=
  ⟨by decide, by decide⟩

end Sample

theorem Engine.course_repartitioned_halves : ∃ points₁ points₂,
    Sample.engine.course (.empty Sample.engine.supply.layout ⟨1, 0⟩)
      (Sample.strayCalls [Sample.ann] ⟨[0], [0]⟩) = .ok points₁ ∧
    Sample.halvesEngine.course (.empty Sample.halvesEngine.supply.layout ⟨1, 0⟩)
      (Sample.strayCalls [Sample.ann] ⟨[1, 0], [0, 1]⟩) = .ok points₂ ∧
    List.Forall₂ (Point.Alike Sample.engine.supply.layout) points₁ points₂ := by
  have hbuild₁ : build Sample.network {} [] Sample.travelTimes =
      .ok (.ok ⟨Sample.engine, _⟩) := rfl
  have hbuild₂ : build Sample.halves { partitioning := { numParts := 2 } } []
      Sample.travelTimes = .ok (.ok ⟨Sample.halvesEngine, _⟩) := rfl
  exact course_repartitioned Sample.built_network .refl
    Sample.repartitioned_halves Sample.unparted_travelTimes hbuild₁ hbuild₂ ⟨1, 0⟩ rfl
    (Sample.whole_strayCalls (Orders.whole_ascending Sample.engine.supply.layout))
    (Sample.whole_strayCalls Sample.whole_backwards)

end NetworkLoading
