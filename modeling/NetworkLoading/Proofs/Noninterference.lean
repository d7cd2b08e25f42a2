import NetworkLoading.Proofs.Calls

/-!
# Agents do not interact

What becomes of a person does not depend on who else is on the network. Others change the order in
which agents stand and which links and nodes are visited, but as long as no step fails nobody is
delayed, moved or handed over because of them.
-/

namespace NetworkLoading

/-! ## Lists in order -/

theorem takeWhile_eq_filter {α : Type} {p : α → Bool} {xs : List α}
    (h : xs.Pairwise fun a b => p b = true → p a = true) : xs.takeWhile p = xs.filter p := by
  induction xs with
  | nil => rfl
  | cons x rest ih =>
    obtain ⟨hx, hrest⟩ := List.pairwise_cons.1 h
    cases hp : p x with
    | true => rw [List.takeWhile_cons_of_pos hp, List.filter_cons_of_pos hp, ih hrest]
    | false =>
      have hnone : rest.filter p = [] := by
        apply List.filter_eq_nil_iff.2
        intro y hy hpy
        rw [hx y hy hpy] at hp
        cases hp
      simp [hp, hnone]

theorem dropWhile_eq_filter {α : Type} {p : α → Bool} {xs : List α}
    (h : xs.Pairwise fun a b => p b = true → p a = true) :
    xs.dropWhile p = xs.filter fun x => !p x := by
  induction xs with
  | nil => rfl
  | cons x rest ih =>
    obtain ⟨hx, hrest⟩ := List.pairwise_cons.1 h
    cases hp : p x with
    | true => simp [hp, ih hrest]
    | false =>
      -- Behind one that fails nobody passes.
      have hall : rest.filter (fun y => !p y) = rest := by
        apply List.filter_eq_self.2
        intro y hy
        cases hpy : p y with
        | true => rw [hx y hy hpy] at hp; cases hp
        | false => rfl
      simp [hp, hall]

/-! ## The queues of a link, as a person sees them -/

namespace LinkQueue

variable {q : LinkQueue} {p : PersonId} {link : LinkId} {now : UInt32}

/-- The queues of a link with no agents but those of one person. -/
def only (p : PersonId) (q : LinkQueue) : LinkQueue where
  inTransit := q.inTransit.filter (·.agent.id = p)
  afterActivity := q.afterActivity.filter (·.id = p)
  toLeave := q.toLeave.filter (·.id = p)

@[simp] theorem only_unmarked (p : PersonId) (q : LinkQueue) : q.unmarked.only p = q.only p := rfl

theorem Ordered.only (h : q.Ordered) (p : PersonId) : (q.only p).Ordered :=
  List.Pairwise.sublist List.filter_sublist h

/-- If someone is due, then so is everyone who stands before. -/
theorem Ordered.due_of_due (h : q.Ordered) (now : UInt32) :
    q.inTransit.Pairwise fun a b =>
      decide (b.exitTime ≤ now) = true → decide (a.exitTime ≤ now) = true :=
  h.imp fun hab hb => decide_eq_true (UInt32.le_trans hab (of_decide_eq_true hb))

theorem due_only (h : q.Ordered) (p : PersonId) (now : UInt32) :
    ((q.only p).due now).map (·.agent) = ((q.due now).map (·.agent)).filter (·.id = p) := by
  unfold due
  rw [takeWhile_eq_filter (h.due_of_due now), takeWhile_eq_filter ((h.only p).due_of_due now),
    only, List.filter_comm, List.filter_map]
  rfl

theorem arriving_only (h : q.Ordered) (p : PersonId) (link : LinkId) (now : UInt32) :
    (q.only p).arriving link now = (q.arriving link now).filter (·.id = p) := by
  rw [arriving, arriving, due_only h, List.filter_comm]

theorem continuing_only (h : q.Ordered) (p : PersonId) (link : LinkId) (now : UInt32) :
    (q.only p).continuing link now = (q.continuing link now).filter (·.id = p) := by
  rw [continuing, continuing, due_only h, List.filter_comm]

/-- An agent advances on a link as if nobody else were there. -/
theorem only_advance (h : q.Ordered) (p : PersonId) (link : LinkId) (now : UInt32) :
    (q.advance link now).only p = (q.only p).advance link now := by
  have htransit : (q.inTransit.dropWhile (·.exitTime ≤ now)).filter (·.agent.id = p) =
      (q.only p).inTransit.dropWhile (·.exitTime ≤ now) := by
    rw [dropWhile_eq_filter (h.due_of_due now), dropWhile_eq_filter ((h.only p).due_of_due now),
      only, List.filter_comm]
  simp only [only, advance, htransit, List.filter_append, ← continuing_only h]
  rfl

theorem insertTraveller_eq_cons {t : Traveller} {ts : List Traveller}
    (h : ∀ u ∈ ts, ¬ u.before t) : insertTraveller t ts = t :: ts := by
  cases ts with
  | nil => rfl
  | cons u rest => rw [insertTraveller, if_neg (h u List.mem_cons_self)]

/-- Among travellers of one person the exit times decide alone. -/
theorem not_before_of_le {t u : Traveller} (hid : u.agent.id = t.agent.id)
    (h : t.exitTime ≤ u.exitTime) : ¬ u.before t := by
  unfold Traveller.before
  split
  · simp [hid]
  · simpa using h

/-- A person finds its place in a queue as if nobody else were there. -/
theorem filter_insertTraveller {t : Traveller} {ts : List Traveller}
    (h : ts.Pairwise fun a b => a.exitTime ≤ b.exitTime) (ht : t.agent.id = p) :
    (insertTraveller t ts).filter (·.agent.id = p) =
      insertTraveller t (ts.filter (·.agent.id = p)) := by
  induction ts with
  | nil => simp [insertTraveller, ht]
  | cons u rest ih =>
    obtain ⟨hu, hrest⟩ := List.pairwise_cons.1 h
    rw [insertTraveller]
    split
    · -- The traveller goes behind the first one, whether that one is in view or not.
      rename_i hbefore
      by_cases hup : u.agent.id = p
      · simp only [List.filter_cons, hup, decide_true, ↓reduceIte, ih hrest, insertTraveller,
          hbefore]
      · simp only [List.filter_cons, hup, decide_false, Bool.false_eq_true, ↓reduceIte, ih hrest]
    · -- The traveller goes first, and so it does among those of the person, who leave no earlier.
      rename_i hbefore
      have htu : t.exitTime ≤ u.exitTime := le_of_not_before hbefore
      have hlast (v : Traveller) (hv : v ∈ (u :: rest).filter (·.agent.id = p)) :
          ¬ v.before t := by
        obtain ⟨hv, hvp⟩ := List.mem_filter.1 hv
        refine not_before_of_le ((of_decide_eq_true hvp).trans ht.symm) ?_
        rcases List.mem_cons.1 hv with rfl | hv
        · exact htu
        · exact UInt32.le_trans htu (hu v hv)
      rw [insertTraveller_eq_cons hlast]
      exact List.filter_cons_of_pos (decide_eq_true ht)

theorem filter_insertTraveller_of_ne {t : Traveller} {ts : List Traveller}
    (ht : t.agent.id ≠ p) :
    (insertTraveller t ts).filter (·.agent.id = p) = ts.filter (·.agent.id = p) := by
  induction ts with
  | nil => simp [insertTraveller, ht]
  | cons u rest ih =>
    rw [insertTraveller]
    split
    · rw [List.filter_cons, List.filter_cons, ih]
    · rw [List.filter_cons_of_neg (by simp [ht])]

/-- Several who enter a link one after the other are placed among those of a person as if only that
person entered. -/
theorem filter_foldl_insertTraveller {ts us : List Traveller}
    (h : us.Pairwise fun a b => a.exitTime ≤ b.exitTime) (p : PersonId) :
    (ts.foldl (fun us t => insertTraveller t us) us).filter (·.agent.id = p) =
      (ts.filter (·.agent.id = p)).foldl (fun us t => insertTraveller t us)
        (us.filter (·.agent.id = p)) := by
  induction ts generalizing us with
  | nil => rfl
  | cons t rest ih =>
    rw [List.foldl_cons, ih (pairwise_insertTraveller h)]
    by_cases ht : t.agent.id = p
    · rw [filter_insertTraveller h ht, List.filter_cons_of_pos (by simp [ht]), List.foldl_cons]
    · rw [filter_insertTraveller_of_ne ht, List.filter_cons_of_neg (by simp [ht])]

theorem only_enter (h : q.Ordered) (p : PersonId) (t : Traveller) :
    (q.enter t).only p = if t.agent.id = p then (q.only p).enter t else q.only p := by
  by_cases ht : t.agent.id = p
  · simp only [only, enter, filter_insertTraveller h ht, if_pos ht]
  · simp only [only, enter, filter_insertTraveller_of_ne ht, if_neg ht]

theorem only_depart (q : LinkQueue) (p : PersonId) (agent : Agent) :
    (q.depart agent).only p = if agent.id = p then (q.only p).depart agent else q.only p := by
  by_cases ha : agent.id = p <;> simp [only, depart, ha]

end LinkQueue

/-! ## Crossings, as a person sees them -/

namespace Crossing

variable {p : PersonId} {link : LinkId} {x : Crossing} {now : UInt32}

/-- If what a crossing yields belongs to the agent who crosses, then what belongs to a person comes
from the crossings of that person. -/
theorem filter_flatMap_agent {β : Type} {view : Crossing → List β} {person : β → PersonId}
    (h : ∀ x, ∀ b ∈ view x, person b = x.agent.id) (p : PersonId) (xs : List Crossing) :
    (xs.flatMap view).filter (person · = p) = (xs.filter (·.agent.id = p)).flatMap view := by
  induction xs with
  | nil => rfl
  | cons x rest ih =>
    rw [List.flatMap_cons, List.filter_append, ih]
    by_cases hx : x.agent.id = p
    · have hall : (view x).filter (person · = p) = view x :=
        List.filter_eq_self.2 fun b hb => decide_eq_true ((h x b hb).trans hx)
      rw [hall, List.filter_cons_of_pos (by simp [hx]), List.flatMap_cons]
    · have hnone : (view x).filter (person · = p) = [] :=
        List.filter_eq_nil_iff.2 fun b hb he => hx ((h x b hb).symm.trans (of_decide_eq_true he))
      rw [hnone, List.filter_cons_of_neg (by simp [hx])]
      rfl

theorem person_of_mem_events (now : UInt32) (x : Crossing) :
    ∀ e ∈ x.events now, e.person = x.agent.id := by
  unfold events
  cases x.turn <;> simp [Event.person]

theorem person_of_mem_entrant (link : LinkId) (x : Crossing) :
    ∀ t ∈ (x.entrant? link).toList, t.agent.id = x.agent.id := by
  unfold entrant?
  cases x.turn with
  | onto next exitTime =>
    dsimp only
    split <;> simp
  | lost error => simp
  | refused next error => simp

theorem person_of_mem_ousted (now : UInt32) (x : Crossing) :
    ∀ agent ∈ (x.ousted? now).toList, agent.id = x.agent.id := by
  unfold ousted?
  cases x.turn <;> simp

end Crossing

namespace Loading

variable {s₁ s₂ : Loading} {p : PersonId} {supply : Supply} {now : UInt32}

/-- Whom of a person's agents a node moves does not depend on others. -/
theorem filter_moves (hc : supply.layout.Closed)
    (hq : ∀ id ∈ supply.layout.linkIds, (s₁.queue id).only p = (s₂.queue id).only p)
    (id : NodeId) :
    (s₁.moves supply now id).filter (·.agent.id = p) =
      (s₂.moves supply now id).filter (·.agent.id = p) := by
  unfold moves
  split
  · rename_i node hnode
    unfold crossings crossingsFrom
    rw [List.filter_flatMap, List.filter_flatMap]
    apply List.flatMap_congr
    intro link hlink
    have hmem := hc.mem_linkIds_of_mem_inLinks (List.mem_of_find?_eq_some hnode) hlink
    -- A node takes from its links in order, so it is enough to compare one link.
    have hleave : (s₁.queue link).toLeave.filter (·.id = p) =
        (s₂.queue link).toLeave.filter (·.id = p) := congrArg LinkQueue.toLeave (hq link hmem)
    rw [List.filter_map, List.filter_map]
    exact congrArg (List.map _) hleave
  · rfl

theorem filter_allMoves (hc : supply.layout.Closed)
    (hq : ∀ id ∈ supply.layout.linkIds, (s₁.queue id).only p = (s₂.queue id).only p)
    (now : UInt32) (parts : List Nat) :
    (s₁.allMoves supply now parts).filter (·.agent.id = p) =
      (s₂.allMoves supply now parts).filter (·.agent.id = p) := by
  unfold allMoves
  rw [List.filter_flatMap, List.filter_flatMap]
  exact List.flatMap_congr fun id _ => filter_moves hc hq id

end Loading

/-! ## States which are alike for a person -/

/-- The same is told of a person, and the same has come of it. -/
structure Record.AlikeFor (p : PersonId) (r₁ r₂ : Record) : Prop where
  events : r₁.events.toList.filter (·.person = p) = r₂.events.toList.filter (·.person = p)
  handedOver : r₁.handedOver.toList.filter (·.id = p) = r₂.handedOver.toList.filter (·.id = p)

/-- A person is at the same place in two states, with the same left to do, and the same is told of
it. -/
structure Loading.AlikeFor (l : Layout) (p : PersonId) (s₁ s₂ : Loading) : Prop where
  queue : ∀ id ∈ l.linkIds, (s₁.queue id).only p = (s₂.queue id).only p
  record : s₁.record.AlikeFor p s₂.record

namespace Record.AlikeFor

variable {r r₁ r₂ r₃ : Record} {p : PersonId}

theorem symm (h : r₁.AlikeFor p r₂) : r₂.AlikeFor p r₁ :=
  ⟨h.events.symm, h.handedOver.symm⟩

theorem trans (h : r₁.AlikeFor p r₂) (h' : r₂.AlikeFor p r₃) : r₁.AlikeFor p r₃ :=
  ⟨h.events.trans h'.events, h.handedOver.trans h'.handedOver⟩

/-- What is added to the records is the same as far as it belongs to the person. -/
theorem extend (h : r₁.AlikeFor p r₂) {population₁ population₂ : Population}
    {es₁ es₂ : List Event}
    (he : es₁.filter (·.person = p) = es₂.filter (·.person = p)) {agents₁ agents₂ : List Agent}
    (ha : agents₁.filter (·.id = p) = agents₂.filter (·.id = p)) :
    AlikeFor p
      { r₁ with
        population := population₁
        events := r₁.events ++ es₁.toArray
        handedOver := r₁.handedOver ++ agents₁.toArray }
      { r₂ with
        population := population₂
        events := r₂.events ++ es₂.toArray
        handedOver := r₂.handedOver ++ agents₂.toArray } := by
  refine ⟨?_, ?_⟩
  · simp only [Array.toList_append, List.filter_append, h.events, he]
  · simp only [Array.toList_append, List.filter_append, h.handedOver, ha]

theorem lose (h : r₁.AlikeFor p r₂) (now : UInt32) {xs₁ xs₂ : List (LinkId × Agent)}
    (hxs : xs₁.filter (·.2.id = p) = xs₂.filter (·.2.id = p)) :
    (r₁.lose now xs₁).AlikeFor p (r₂.lose now xs₂) := by
  refine h.extend ?_ ?_
  · rw [List.filter_map, List.filter_map]
    exact congrArg (List.map _) hxs
  · rw [List.filter_map, List.filter_map]
    exact congrArg (List.map _) hxs

theorem silent_iff : r₁.silent.AlikeFor p r₂.silent ↔ r₁.AlikeFor p r₂ :=
  ⟨fun h => ⟨h.events, h.handedOver⟩, fun h => ⟨h.events, h.handedOver⟩⟩

end Record.AlikeFor

namespace Loading

variable {l : Layout} {s s₁ s₂ s₃ t₁ t₂ : Loading} {p : PersonId} {engine : Engine} {now : UInt32}

theorem AlikeFor.symm (h : s₁.AlikeFor l p s₂) : s₂.AlikeFor l p s₁ :=
  ⟨fun id hid => (h.queue id hid).symm, h.record.symm⟩

theorem AlikeFor.trans (h : s₁.AlikeFor l p s₂) (h' : s₂.AlikeFor l p s₃) : s₁.AlikeFor l p s₃ :=
  ⟨fun id hid => (h.queue id hid).trans (h'.queue id hid), h.record.trans h'.record⟩

/-! ## Steps -/

theorem AlikeFor.only_advance (hs₁ : s₁.Settled l) (hs₂ : s₂.Settled l)
    (h : s₁.AlikeFor l p s₂) {id : LinkId} (hid : id ∈ l.linkIds) (now : UInt32) :
    ((s₁.queue id).advance id now).only p = ((s₂.queue id).advance id now).only p := by
  rw [LinkQueue.only_advance (hs₁.ordered id hid), LinkQueue.only_advance (hs₂.ordered id hid),
    h.queue id hid]

theorem AlikeFor.queue_drive (hc : l.Closed) (hs₁ : s₁.Settled l) (hs₂ : s₂.Settled l)
    (h : s₁.AlikeFor l p s₂) {parts : List Nat} (hp : parts.Perm (List.range l.numParts))
    {id : LinkId} (hid : id ∈ l.linkIds) (now : UInt32) :
    ((s₁.drive l now parts).queue id).only p = ((s₂.drive l now parts).queue id).only p := by
  rw [Loading.queue_drive hc hs₁.fits hp hid, Loading.queue_drive hc hs₂.fits hp hid,
    ← LinkQueue.unmarked_advance, ← LinkQueue.unmarked_advance, LinkQueue.only_unmarked,
    LinkQueue.only_unmarked, h.only_advance hs₁ hs₂ hid]

theorem AlikeFor.filter_arrivals (hs₁ : s₁.Settled l) (hs₂ : s₂.Settled l)
    (h : s₁.AlikeFor l p s₂) {ids : List LinkId} (hids : ids ⊆ l.linkIds) (now : UInt32) :
    (s₁.arrivals now ids).filter (·.id = p) = (s₂.arrivals now ids).filter (·.id = p) := by
  unfold arrivals
  rw [List.filter_flatMap, List.filter_flatMap]
  apply List.flatMap_congr
  intro id hid
  rw [← LinkQueue.arriving_only (hs₁.ordered id (hids hid)),
    ← LinkQueue.arriving_only (hs₂.ordered id (hids hid)), h.queue id (hids hid)]

/-- Steps which do not fail lead a person to the same places, whoever else is there. -/
theorem AlikeFor.step (hc : engine.supply.layout.Closed)
    (hs₁ : s₁.Settled engine.supply.layout) (hs₂ : s₂.Settled engine.supply.layout)
    (h : s₁.AlikeFor engine.supply.layout p s₂) {orders : Orders}
    (ho : orders.Whole engine.supply.layout) {stats₁ stats₂ : StepStats}
    (h₁ : Stepped engine now orders.forLinks orders.forNodes s₁ stats₁ t₁)
    (h₂ : Stepped engine now orders.forLinks orders.forNodes s₂ stats₂ t₂) :
    t₁.AlikeFor engine.supply.layout p t₂ := by
  -- The same agents of the person cross nodes, in the same order; all else follows from this.
  have hmoves := filter_allMoves hc
    (fun id hid => h.queue_drive hc hs₁ hs₂ ho.forLinks hid now) now orders.forNodes
  have htours := (hc.linkTours_perm ho.forLinks).subset
  refine ⟨?_, ?_, ?_⟩
  · intro id hid
    have htransit : ((s₁.queue id).advance id now).inTransit.filter (·.agent.id = p) =
        ((s₂.queue id).advance id now).inTransit.filter (·.agent.id = p) :=
      congrArg LinkQueue.inTransit (h.only_advance hs₁ hs₂ hid now)
    have hordered₁ := (hs₁.ordered id hid).advance id now
    have hordered₂ := (hs₂.ordered id hid).advance id now
    rw [← LinkQueue.only_unmarked, h₁.queue hc hs₁ ho.forLinks hid,
      ← LinkQueue.only_unmarked p (t₂.queue id), h₂.queue hc hs₂ ho.forLinks hid]
    simp only [LinkQueue.only, LinkQueue.filter_foldl_insertTraveller hordered₁,
      LinkQueue.filter_foldl_insertTraveller hordered₂, List.filterMap_eq_flatMap_toList,
      Crossing.filter_flatMap_agent (Crossing.person_of_mem_entrant id) p, hmoves, htransit]
  · rw [h₁.events hc hs₁ ho.forLinks, h₂.events hc hs₂ ho.forLinks, List.filter_append,
      List.filter_append, h.record.events,
      Crossing.filter_flatMap_agent (Crossing.person_of_mem_events now) p,
      Crossing.filter_flatMap_agent (Crossing.person_of_mem_events now) p, hmoves]
  · rw [h₁.handedOver hc hs₁ ho.forLinks, h₂.handedOver hc hs₂ ho.forLinks]
    simp only [List.filter_append, List.filterMap_eq_flatMap_toList]
    rw [h.record.handedOver,
      Crossing.filter_flatMap_agent (Crossing.person_of_mem_ousted now) p,
      Crossing.filter_flatMap_agent (Crossing.person_of_mem_ousted now) p, hmoves,
      List.filter_map, List.filter_map]
    have harrivals :
        (s₁.arrivals now _).filter (·.id = p) = (s₂.arrivals now _).filter (·.id = p) :=
      h.filter_arrivals hs₁ hs₂ htours now
    exact congrArg (fun agents => _ ++ List.map _ agents ++ _) harrivals

/-! ## Other calls -/

theorem only_fill {q : LinkQueue} (h : q.Ordered) (p : PersonId) (agent : Agent) (x : Landing)
    (id : LinkId) : (x.fill agent id q).only p =
      if agent.id = p then x.fill agent id (q.only p) else q.only p := by
  cases x with
  | refused error => exact (ite_self _).symm
  | arrives => exact (ite_self _).symm
  | waits link =>
    simp only [Landing.fill]
    split
    · exact LinkQueue.only_depart q p agent
    · exact (ite_self _).symm
  | enters link exitTime =>
    simp only [Landing.fill]
    split
    · exact LinkQueue.only_enter h p _
    · exact (ite_self _).symm

/-- The same landing happens to whoever is seen at the same place. -/
theorem AlikeFor.land (hc : l.Closed) (hs₁ : s₁.Settled l) (hs₂ : s₂.Settled l)
    (h : s₁.AlikeFor l p s₂) (agent : Agent) {x : Landing} (hx : x.Within l) (now : UInt32) :
    (s₁.land l now agent x).AlikeFor l p (s₂.land l now agent x) := by
  refine ⟨?_, ?_⟩
  · intro id hid
    rw [← LinkQueue.only_unmarked, queue_land hc hs₁.fits agent hx hid, LinkQueue.only_unmarked,
      ← LinkQueue.only_unmarked p ((s₂.land l now agent x).queue id),
      queue_land hc hs₂.fits agent hx hid, LinkQueue.only_unmarked]
    rw [only_fill (hs₁.ordered id hid), only_fill (hs₂.ordered id hid), h.queue id hid]
  · rw [(record_land hc s₁ agent hx now).1, (record_land hc s₂ agent hx now).1]
    exact h.record.extend rfl rfl

/-- Nobody sees others land. -/
theorem alikeFor_land (hc : l.Closed) (hs : s.Settled l) {agent : Agent} (ha : agent.id ≠ p)
    {x : Landing} (hx : x.Within l) (now : UInt32) : s.AlikeFor l p (s.land l now agent x) := by
  refine ⟨?_, ?_, ?_⟩
  · intro id hid
    rw [← LinkQueue.only_unmarked p ((s.land l now agent x).queue id),
      queue_land hc hs.fits agent hx hid, LinkQueue.only_unmarked,
      only_fill (hs.ordered id hid), if_neg ha]
  · rw [(record_land hc s agent hx now).1]
    cases x <;> simp [Landing.events, Event.person, ha]
  · rw [(record_land hc s agent hx now).1]
    cases x <;> simp [Landing.arrived?, ha]

theorem AlikeFor.filter_stranded (h : s₁.AlikeFor l p s₂) {ids : List LinkId}
    (hids : ids ⊆ l.linkIds) :
    (s₁.stranded ids).filter (·.2.id = p) = (s₂.stranded ids).filter (·.2.id = p) := by
  have honly (q : LinkQueue) : q.agents.filter (·.id = p) = (q.only p).agents := by
    simp only [LinkQueue.agents, LinkQueue.only, List.filter_append, List.filter_map]
    rfl
  unfold stranded
  rw [List.filter_flatMap, List.filter_flatMap]
  apply List.flatMap_congr
  intro id hid
  have hsame : (s₁.queue id).agents.filter (·.id = p) = (s₂.queue id).agents.filter (·.id = p) := by
    rw [honly, honly, h.queue id (hids hid)]
  rw [List.filter_map, List.filter_map]
  exact congrArg (List.map _) hsame

theorem Vacant.alikeFor (h₁ : t₁.Vacant l) (h₂ : t₂.Vacant l)
    (hrecord : t₁.record.AlikeFor p t₂.record) : t₁.AlikeFor l p t₂ :=
  ⟨fun id hid => by rw [h₁.queue id hid, h₂.queue id hid], hrecord⟩

theorem AlikeFor.finish (hc : l.Closed) (hs₁ : s₁.Settled l) (hs₂ : s₂.Settled l)
    (h : s₁.AlikeFor l p s₂) (now : UInt32) :
    (Engine.finish s₁ now).2.AlikeFor l p (Engine.finish s₂ now).2 := by
  obtain ⟨t₁, ht₁, hvacant₁, hrecord₁, -⟩ := finish_eq hc hs₁.fits now
  obtain ⟨t₂, ht₂, hvacant₂, hrecord₂, -⟩ := finish_eq hc hs₂.fits now
  rw [ht₁, ht₂]
  refine hvacant₁.alikeFor hvacant₂ (Record.AlikeFor.silent_iff.1 ?_)
  rw [hrecord₁, hrecord₂, Record.AlikeFor.silent_iff]
  exact h.record.lose now (h.filter_stranded (sortBy_perm _ _).subset)

theorem AlikeFor.reset (hs₁ : s₁.Settled l) (hs₂ : s₂.Settled l) (h : s₁.AlikeFor l p s₂) :
    (Engine.reset s₁).AlikeFor l p (Engine.reset s₂) := by
  obtain ⟨hvacant₁, hrecord₁, -⟩ := reset_eq hs₁.fits
  obtain ⟨hvacant₂, hrecord₂, -⟩ := reset_eq hs₂.fits
  refine hvacant₁.alikeFor hvacant₂ (Record.AlikeFor.silent_iff.1 ?_)
  rw [hrecord₁, hrecord₂, Record.AlikeFor.silent_iff]
  exact h.record

end Loading

/-! ## Courses -/

/-- Whether a call concerns a person: all do, except those which put others onto the network. -/
def Call.concerns (p : PersonId) : Call → Bool
  | .depart agent _ _ | .enter agent _ _ => agent.id = p
  | .step _ | .finish _ | .reset => true

/-- At two points of two courses a person is at the same place, after the same call. -/
structure Point.AlikeFor (l : Layout) (p : PersonId) (p₁ p₂ : Point) : Prop where
  call : p₁.call = p₂.call
  state : p₁.state.AlikeFor l p p₂.state

namespace Loading

variable {s s₁ s₂ t t₁ t₂ : Loading} {p : PersonId} {engine : Engine} {orders : Orders}
  {call : Call}
  {answer answer₁ answer₂ : Answer}

/-- Calls which do not concern a person change nothing for it. -/
theorem alikeFor_perform (hc : engine.supply.layout.Closed) (hs : s.Settled engine.supply.layout)
    (h : engine.perform orders s call = .ok (answer, t)) (hcall : call.concerns p = false) :
    s.AlikeFor engine.supply.layout p t := by
  cases call with
  | depart agent link now =>
    simp only [Engine.perform, depart_eq_ok hc hs.fits, Except.map] at h
    cases h
    exact alikeFor_land hc hs (of_decide_eq_false hcall) (within_departing agent link) now
  | enter agent link now =>
    simp only [Engine.perform, enter_eq_ok hc hs.fits, Except.map] at h
    cases h
    exact alikeFor_land hc hs (of_decide_eq_false hcall) (within_entering agent link now) now
  | step now => cases hcall
  | finish now => cases hcall
  | reset => cases hcall

/-- The same call leads a person to the same place, unless a step fails. -/
theorem AlikeFor.perform (hc : engine.supply.layout.Closed)
    (hs₁ : s₁.Settled engine.supply.layout) (hs₂ : s₂.Settled engine.supply.layout)
    (h : s₁.AlikeFor engine.supply.layout p s₂) (ho : orders.Whole engine.supply.layout)
    (h₁ : engine.perform orders s₁ call = .ok (answer₁, t₁)) (hok₁ : answer₁.failed = false)
    (h₂ : engine.perform orders s₂ call = .ok (answer₂, t₂)) (hok₂ : answer₂.failed = false) :
    t₁.AlikeFor engine.supply.layout p t₂ := by
  cases call with
  | depart agent link now =>
    simp only [Engine.perform, depart_eq_ok hc hs₁.fits, depart_eq_ok hc hs₂.fits,
      Except.map] at h₁ h₂
    cases h₁
    cases h₂
    exact h.land hc hs₁ hs₂ agent (within_departing agent link) now
  | enter agent link now =>
    simp only [Engine.perform, enter_eq_ok hc hs₁.fits, enter_eq_ok hc hs₂.fits,
      Except.map] at h₁ h₂
    cases h₁
    cases h₂
    exact h.land hc hs₁ hs₂ agent (within_entering agent link now) now
  | step now =>
    obtain ⟨stats₁, u₁, hu₁, -, -, hstep₁⟩ := hs₁.stepInOrder hc ho.forLinks ho.forNodes now
    obtain ⟨stats₂, u₂, hu₂, -, -, hstep₂⟩ := hs₂.stepInOrder hc ho.forLinks ho.forNodes now
    simp only [Engine.perform, hu₁, hu₂, Except.map] at h₁ h₂
    cases h₁
    cases h₂
    -- Neither side failed, so both steps count.
    cases stats₁ with
    | error error => cases hok₁
    | ok counts₁ =>
      cases stats₂ with
      | error error => cases hok₂
      | ok counts₂ => exact h.step hc hs₁ hs₂ ho (hstep₁ counts₁ rfl) (hstep₂ counts₂ rfl)
  | finish now =>
    cases h₁
    cases h₂
    exact h.finish hc hs₁ hs₂ now
  | reset =>
    cases h₁
    cases h₂
    exact h.reset hs₁ hs₂

/-- Calls which do not concern a person can be left out of a course. -/
theorem course_skip (hc : engine.supply.layout.Closed) (hs : s.Settled engine.supply.layout)
    {skip rest : List (Call × Orders)} (hskip : ∀ entry ∈ skip, entry.1.concerns p = false)
    (ho : ∀ entry ∈ skip, entry.2.Whole engine.supply.layout) {points : List Point}
    (h : engine.course s (skip ++ rest) = .ok points)
    (hok : ∀ point ∈ points, point.answer.failed = false) :
    ∃ t later, t.Settled engine.supply.layout ∧ s.AlikeFor engine.supply.layout p t ∧
      engine.course t rest = .ok later ∧ (∀ point ∈ later, point.answer.failed = false) ∧
        points.filter (·.call.concerns p) = later.filter (·.call.concerns p) := by
  induction skip generalizing s points with
  | nil => exact ⟨s, points, hs, ⟨fun _ _ => rfl, rfl, rfl⟩, h, hok, rfl⟩
  | cons entry skip ih =>
    obtain ⟨call, orders⟩ := entry
    obtain ⟨hcall, hskip⟩ := List.forall_mem_cons.1 hskip
    obtain ⟨hwhole, ho⟩ := List.forall_mem_cons.1 ho
    obtain ⟨answer, t, later, ht, hanswer, hlater, rfl⟩ := Engine.course_cons h hok
    obtain ⟨_, _, he, hsettled⟩ := hs.perform hc hwhole call
    cases ht.symm.trans he
    obtain ⟨u, last, hu, halike, hlast, hok, hfilter⟩ :=
      ih (hsettled hanswer) hskip ho hlater (List.forall_mem_cons.1 hok).2
    refine ⟨u, last, hu, (alikeFor_perform hc hs ht hcall).trans halike, hlast, hok, ?_⟩
    rw [← hfilter]
    exact List.filter_cons_of_neg (by simp [hcall])

theorem filter_course_of_none (hc : engine.supply.layout.Closed)
    (hs : s.Settled engine.supply.layout) {calls : List (Call × Orders)}
    (hnone : ∀ entry ∈ calls, entry.1.concerns p = false)
    (ho : ∀ entry ∈ calls, entry.2.Whole engine.supply.layout) {points : List Point}
    (h : engine.course s calls = .ok points)
    (hok : ∀ point ∈ points, point.answer.failed = false) :
    points.filter (·.call.concerns p) = [] := by
  rw [← List.append_nil calls] at h
  obtain ⟨t, later, -, -, hlater, -, hfilter⟩ := course_skip hc hs hnone ho h hok
  cases hlater
  exact hfilter

theorem AlikeFor.course (hc : engine.supply.layout.Closed)
    (hs₁ : s₁.Settled engine.supply.layout) (hs₂ : s₂.Settled engine.supply.layout)
    (h : s₁.AlikeFor engine.supply.layout p s₂) {calls₁ calls₂ : List (Call × Orders)}
    (hcalls : calls₁.filter (·.1.concerns p) = calls₂.filter (·.1.concerns p))
    (ho₁ : ∀ entry ∈ calls₁, entry.2.Whole engine.supply.layout)
    (ho₂ : ∀ entry ∈ calls₂, entry.2.Whole engine.supply.layout) {points₁ points₂ : List Point}
    (h₁ : engine.course s₁ calls₁ = .ok points₁) (h₂ : engine.course s₂ calls₂ = .ok points₂)
    (hok₁ : ∀ point ∈ points₁, point.answer.failed = false)
    (hok₂ : ∀ point ∈ points₂, point.answer.failed = false) :
    List.Forall₂ (Point.AlikeFor engine.supply.layout p)
      (points₁.filter (·.call.concerns p)) (points₂.filter (·.call.concerns p)) := by
  -- The calls which both courses share lead from one pair of states to the next.
  generalize hshared : calls₁.filter (·.1.concerns p) = shared at hcalls
  induction shared generalizing s₁ s₂ calls₁ calls₂ points₁ points₂ with
  | nil =>
    have hnone₁ (entry : Call × Orders) (he : entry ∈ calls₁) : entry.1.concerns p = false :=
      eq_false_of_ne_true (List.filter_eq_nil_iff.1 hshared entry he)
    have hnone₂ (entry : Call × Orders) (he : entry ∈ calls₂) : entry.1.concerns p = false :=
      eq_false_of_ne_true (List.filter_eq_nil_iff.1 hcalls.symm entry he)
    rw [filter_course_of_none hc hs₁ hnone₁ ho₁ h₁ hok₁,
      filter_course_of_none hc hs₂ hnone₂ ho₂ h₂ hok₂]
    exact .nil
  | cons entry shared ih =>
    obtain ⟨call, orders⟩ := entry
    -- Both courses skip calls until they come to the next one they share.
    obtain ⟨skip₁, rest₁, rfl, hskip₁, hcall, hrest₁⟩ := List.filter_eq_cons_iff.1 hshared
    obtain ⟨skip₂, rest₂, rfl, hskip₂, -, hrest₂⟩ := List.filter_eq_cons_iff.1 hcalls.symm
    obtain ⟨t₁, last₁, ht₁, halike₁, h₁, hok₁, hfilter₁⟩ :=
      course_skip hc hs₁ (fun entry he => eq_false_of_ne_true (hskip₁ entry he))
        (fun entry he => ho₁ entry (List.mem_append_left _ he)) h₁ hok₁
    obtain ⟨t₂, last₂, ht₂, halike₂, h₂, hok₂, hfilter₂⟩ :=
      course_skip hc hs₂ (fun entry he => eq_false_of_ne_true (hskip₂ entry he))
        (fun entry he => ho₂ entry (List.mem_append_left _ he)) h₂ hok₂
    obtain ⟨answer₁, u₁, later₁, hu₁, hanswer₁, hlater₁, rfl⟩ := Engine.course_cons h₁ hok₁
    obtain ⟨answer₂, u₂, later₂, hu₂, hanswer₂, hlater₂, rfl⟩ := Engine.course_cons h₂ hok₂
    have hwhole : orders.Whole engine.supply.layout :=
      ho₁ (call, orders) (List.mem_append_right _ List.mem_cons_self)
    obtain ⟨_, _, he₁, hsettled₁⟩ := ht₁.perform hc hwhole call
    obtain ⟨_, _, he₂, hsettled₂⟩ := ht₂.perform hc hwhole call
    cases hu₁.symm.trans he₁
    cases hu₂.symm.trans he₂
    have hpoint : u₁.AlikeFor engine.supply.layout p u₂ :=
      ((halike₁.symm.trans h).trans halike₂).perform hc ht₁ ht₂ hwhole hu₁ hanswer₁ hu₂ hanswer₂
    have hall := ih (hsettled₁ hanswer₁) (hsettled₂ hanswer₂) hpoint
      (fun entry he => ho₁ entry (List.mem_append_right _ (List.mem_cons_of_mem _ he)))
      (fun entry he => ho₂ entry (List.mem_append_right _ (List.mem_cons_of_mem _ he)))
      hlater₁ hlater₂ (List.forall_mem_cons.1 hok₁).2 (List.forall_mem_cons.1 hok₂).2 hrest₁
      hrest₂.symm
    have hconcerns : call.concerns p = true := hcall
    rw [hfilter₁, hfilter₂]
    simp only [List.filter_cons, hconcerns, ↓reduceIte]
    exact .cons ⟨rfl, hpoint⟩ hall

end Loading

namespace Engine

/-- Two courses in which the same calls concern a person, and in which no step fails, lead this
person to the same places at the same calls, and the same is told of it. -/
theorem course_others {engine : Engine} (hb : engine.Constructed) (p : PersonId)
    (population₁ population₂ : Population) {calls₁ calls₂ : List (Call × Orders)}
    (hcalls : calls₁.filter (·.1.concerns p) = calls₂.filter (·.1.concerns p))
    (ho₁ : ∀ entry ∈ calls₁, entry.2.Whole engine.supply.layout)
    (ho₂ : ∀ entry ∈ calls₂, entry.2.Whole engine.supply.layout) :
    ∃ points₁ points₂,
      engine.course (.empty engine.supply.layout population₁) calls₁ = .ok points₁ ∧
      engine.course (.empty engine.supply.layout population₂) calls₂ = .ok points₂ ∧
      ((∀ point ∈ points₁, point.answer.failed = false) →
        (∀ point ∈ points₂, point.answer.failed = false) →
          List.Forall₂ (Point.AlikeFor engine.supply.layout p)
            (points₁.filter (·.call.concerns p)) (points₂.filter (·.call.concerns p))) := by
  have hc := hb.closed
  have hvacant₁ := Loading.vacant_empty engine.supply.layout { population := population₁ }
  have hvacant₂ := Loading.vacant_empty engine.supply.layout { population := population₂ }
  obtain ⟨points₁, h₁⟩ := hvacant₁.settled.course hc ho₁
  obtain ⟨points₂, h₂⟩ := hvacant₂.settled.course hc ho₂
  refine ⟨points₁, points₂, h₁, h₂, fun hok₁ hok₂ => ?_⟩
  have halike := hvacant₁.alikeFor hvacant₂ (p := p) ⟨rfl, rfl⟩
  exact halike.course hc hvacant₁.settled hvacant₂.settled hcalls ho₁ ho₂ h₁ h₂ hok₁ hok₂

theorem course_others_sample : ∃ points₁ points₂,
    Sample.engine.course (.empty Sample.engine.supply.layout ⟨1, 0⟩)
      (Sample.strayCalls [Sample.ann] ⟨[0], [0]⟩) = .ok points₁ ∧
    Sample.engine.course (.empty Sample.engine.supply.layout ⟨2, 0⟩)
      (Sample.strayCalls [Sample.ben, Sample.ann] ⟨[0], [0]⟩) = .ok points₂ ∧
    List.Forall₂ (Point.AlikeFor Sample.engine.supply.layout Sample.ann)
      (points₁.filter (·.call.concerns Sample.ann))
      (points₂.filter (·.call.concerns Sample.ann)) := by
  have hwhole := Orders.whole_ascending Sample.engine.supply.layout
  have hcalls : (Sample.strayCalls [Sample.ann] ⟨[0], [0]⟩).filter (·.1.concerns Sample.ann) =
      (Sample.strayCalls [Sample.ben, Sample.ann] ⟨[0], [0]⟩).filter (·.1.concerns Sample.ann) :=
    rfl
  obtain ⟨points₁, points₂, h₁, h₂, hall⟩ := course_others Sample.constructed_engine Sample.ann
    ⟨1, 0⟩ ⟨2, 0⟩ hcalls (Sample.whole_strayCalls hwhole) (Sample.whole_strayCalls hwhole)
  have hanswered {population : Population} {calls : List (Call × Orders)} {points : List Point}
      (h : Sample.engine.course (.empty Sample.engine.supply.layout population) calls = .ok points)
      (hnone : (Sample.engine.course (.empty Sample.engine.supply.layout population) calls).map
        (·.all fun point => !point.answer.failed) = .ok true) :
      ∀ point ∈ points, point.answer.failed = false := by
    rw [h] at hnone
    simpa [Except.map] using hnone
  exact ⟨points₁, points₂, h₁, h₂, hall (hanswered h₁ rfl) (hanswered h₂ rfl)⟩

end Engine

end NetworkLoading
