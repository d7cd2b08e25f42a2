import Mathlib.Logic.Function.Iterate
import NetworkLoading.Proofs.Links
import NetworkLoading.Proofs.Results

/-!
# Agents who cross a node

Which agents a node takes from its links, and what becomes of each of them, is settled before the
first one moves: it depends on who waits and not on who else crosses. A node moves these agents one
after the other until one is refused.
-/

namespace NetworkLoading

/-- What becomes of an agent who is taken from a link by the node at its end. -/
inductive Turn where
  /-- The agent enters a link. -/
  | onto (link : LinkId) (exitTime : UInt32)
  /-- The route of the agent is broken. -/
  | lost (error : LoadingError)
  /-- The agent has no valid travel time on the next link. -/
  | refused (link : LinkId) (error : LoadingError)

/-- An agent who is taken from a link. -/
structure Crossing where
  inLink : LinkId
  agent : Agent
  turn : Turn

/-- What becomes of an agent whom a node takes from a link. -/
def Supply.turn (supply : Supply) (node : Junction) (inLink : LinkId) (now : UInt32)
    (agent : Agent) : Turn :=
  match Loading.nextLink supply.layout node inLink agent with
  | .error error => .lost error
  | .ok link =>
    match supply.travelTimes.exitTime link now agent.proceed with
    | .error error => .refused link.id error
    | .ok exitTime => .onto link.id exitTime

/-- The crossing of an agent whom a node takes from a link. -/
def Supply.crossing (supply : Supply) (node : Junction) (now : UInt32)
    (inLink : LinkId) (agent : Agent) : Crossing :=
  { inLink, agent, turn := supply.turn node inLink now agent }

namespace Crossing

/-! ## Crossings which are refused -/

/-- The error which ends the phase of a partition. -/
def error? (x : Crossing) : Option LoadingError :=
  match x.turn with
  | .refused _ error => some error
  | .onto .. | .lost _ => none

/-- The crossings which take place: no one follows an agent who is refused. -/
def cut : List Crossing → List Crossing
  | [] => []
  | x :: rest => if x.error?.isSome then [x] else x :: cut rest

/-- The number of crossings, or the first error. -/
def tally : List Crossing → Except LoadingError Nat
  | [] => .ok 0
  | x :: rest =>
    match x.error? with
    | some error => .error error
    | none => (tally rest).map (· + 1)

theorem cut_subset (xs : List Crossing) : cut xs ⊆ xs := by
  induction xs with
  | nil => exact List.Subset.refl []
  | cons x rest ih =>
    rw [cut]
    split
    · exact List.cons_subset_cons x (List.nil_subset rest)
    · exact List.cons_subset_cons x ih

theorem tally_eq_ok {xs : List Crossing} {n : Nat} (h : tally xs = .ok n) :
    cut xs = xs ∧ n = xs.length := by
  induction xs generalizing n with
  | nil =>
    cases h
    exact ⟨rfl, rfl⟩
  | cons x rest ih =>
    rw [tally] at h
    cases he : x.error? with
    | some error =>
      rw [he] at h
      cases h
    | none =>
      rw [he] at h
      obtain ⟨m, ht, rfl⟩ := exists_of_map_eq_ok h
      obtain ⟨hcut, rfl⟩ := ih ht
      refine ⟨?_, rfl⟩
      simp [cut, he, hcut]

theorem tally_eq_error {xs : List Crossing} :
    (∃ error, tally xs = .error error) ↔ ∃ x ∈ xs, x.error?.isSome := by
  induction xs with
  | nil => simp [tally]
  | cons x rest ih =>
    rw [tally, List.exists_mem_cons_iff]
    cases x.error? with
    | some error => simp
    | none =>
      rw [← ih]
      cases tally rest <;> simp [Except.map]

theorem isOk_tally (xs : List Crossing) : (tally xs).isOk = xs.all (·.error?.isNone) := by
  induction xs with
  | nil => rfl
  | cons x rest ih =>
    rw [tally, List.all_cons, ← ih]
    cases x.error? with
    | some error => rfl
    | none => cases tally rest <;> rfl

theorem tally_append (xs ys : List Crossing) :
    tally (xs ++ ys) = (tally xs).bind fun n => (tally ys).map (n + ·) := by
  induction xs with
  | nil =>
    cases hy : tally ys <;> simp [tally, Except.bind, Except.map, hy]
  | cons x rest ih =>
    rw [List.cons_append, tally, tally, ih]
    cases x.error? with
    | some error => rfl
    | none =>
      cases tally rest with
      | error error => rfl
      | ok n =>
        cases tally ys with
        | error error => rfl
        | ok m =>
          simp only [Except.bind, Except.map]
          congr 1
          omega

theorem cut_append (xs ys : List Crossing) :
    cut (xs ++ ys) = match tally xs with
      | .error _ => cut xs
      | .ok _ => xs ++ cut ys := by
  induction xs with
  | nil => rfl
  | cons x rest ih =>
    rw [List.cons_append, cut, cut, tally, ih]
    cases x.error? with
    | some error => rfl
    | none => cases tally rest <;> rfl

/-- The number of crossings in several partitions, or the first error of the first partition which
has one. -/
def tallyAll : List (List Crossing) → Except LoadingError Nat
  | [] => .ok 0
  | xs :: rest => (tally xs).bind fun n => (tallyAll rest).map (n + ·)

theorem tallyAll_eq_ok {xss : List (List Crossing)} {n : Nat} (h : tallyAll xss = .ok n) :
    (∀ xs ∈ xss, cut xs = xs) ∧ n = xss.flatten.length := by
  induction xss generalizing n with
  | nil =>
    cases h
    exact ⟨by simp, rfl⟩
  | cons xs rest ih =>
    obtain ⟨m, hx, h⟩ := exists_of_bind_eq_ok h
    obtain ⟨k, hr, rfl⟩ := exists_of_map_eq_ok h
    obtain ⟨hcut, rfl⟩ := tally_eq_ok hx
    obtain ⟨hcuts, rfl⟩ := ih hr
    refine ⟨List.forall_mem_cons.2 ⟨hcut, hcuts⟩, ?_⟩
    rw [List.flatten_cons, List.length_append]

/-- A step fails if and only if someone is refused. -/
theorem tallyAll_eq_error {xss : List (List Crossing)} :
    (∃ error, tallyAll xss = .error error) ↔ ∃ x ∈ xss.flatten, x.error?.isSome := by
  induction xss with
  | nil => simp [tallyAll]
  | cons xs rest ih =>
    simp only [List.flatten_cons, List.mem_append, or_and_right, exists_or]
    rw [← ih, ← tally_eq_error, tallyAll]
    cases tally xs with
    | error error => simp [Except.bind]
    | ok n => cases tallyAll rest <;> simp [Except.bind, Except.map]

/-! ## Links that take part -/

/-- What is put onto a link. -/
def entrant? (link : LinkId) (x : Crossing) : Option Traveller :=
  match x.turn with
  | .onto next exitTime =>
    if next = link then some { exitTime, agent := x.agent.proceed } else none
  | .lost _ | .refused .. => none

/-- The queues of a link after a crossing. -/
def carry (link : LinkId) (q : LinkQueue) (x : Crossing) : LinkQueue :=
  let q := if x.inLink = link then { q with toLeave := q.toLeave.erase x.agent } else q
  match x.entrant? link with
  | some traveller => q.enter traveller
  | none => q

theorem busy_carry {link : LinkId} {x : Crossing} {t : Traveller} (h : x.entrant? link = some t)
    (q : LinkQueue) : (x.carry link q).busy = true := by
  unfold carry
  rw [h]
  exact LinkQueue.busy_enter _ t

theorem live_carry {link : LinkId} {x : Crossing} (h : x.entrant? link = none) {q : LinkQueue}
    (hq : q.Live) : (x.carry link q).Live := by
  unfold carry
  rw [h]
  dsimp only
  split
  · exact hq
  · exact hq

@[simp] theorem active_carry (link : LinkId) (q : LinkQueue) (x : Crossing) :
    (x.carry link q).active = q.active := by
  unfold carry
  by_cases he : x.inLink = link <;> cases x.entrant? link <;> simp [he, LinkQueue.enter]

@[simp] theorem afterActivity_carry (link : LinkId) (q : LinkQueue) (x : Crossing) :
    (x.carry link q).afterActivity = q.afterActivity := by
  unfold carry
  by_cases he : x.inLink = link <;> cases x.entrant? link <;> simp [he, LinkQueue.enter]

theorem toLeave_carry (x : Crossing) (id : LinkId) (q : LinkQueue) :
    (x.carry id q).toLeave = if x.inLink = id then q.toLeave.erase x.agent else q.toLeave := by
  unfold carry
  by_cases he : x.inLink = id <;> cases x.entrant? id <;> simp [he, LinkQueue.enter]

theorem ordered_foldl_carry (link : LinkId) (xs : List Crossing) {q : LinkQueue} (hq : q.Ordered) :
    (xs.foldl (carry link) q).Ordered := by
  induction xs generalizing q with
  | nil => exact hq
  | cons x rest ih =>
    refine ih ?_
    unfold carry
    by_cases he : x.inLink = link <;> cases x.entrant? link <;> simp only [he, ↓reduceIte]
    · exact hq
    · exact LinkQueue.Ordered.enter hq _
    · exact hq
    · exact LinkQueue.Ordered.enter hq _

/-- The queues of a link after some crossings. -/
theorem foldl_carry (link : LinkId) (xs : List Crossing) (q : LinkQueue) :
    xs.foldl (carry link) q =
      { q with
        inTransit := (xs.filterMap (entrant? link)).foldl
          (fun ts t => LinkQueue.insertTraveller t ts) q.inTransit
        toLeave := ((xs.filter (·.inLink = link)).map (·.agent)).foldl List.erase q.toLeave } := by
  induction xs generalizing q with
  | nil => rfl
  | cons x rest ih =>
    rw [List.foldl_cons, ih]
    unfold carry
    by_cases he : x.inLink = link <;> cases hentry : x.entrant? link <;>
      simp [he, hentry, LinkQueue.enter]

/-! ## What crossings leave in the record -/

/-- The events of a crossing. -/
def events (now : UInt32) (x : Crossing) : List Event :=
  match x.turn with
  | .onto link _ => [.left now x.inLink x.agent.id, .entered now link x.agent.id]
  | .lost _ =>
    [.left now x.inLink x.agent.id, .stuck now x.inLink x.agent.id (some x.agent.mode)]
  | .refused link _ =>
    [.left now x.inLink x.agent.id, .stuck now link x.agent.id (some x.agent.mode)]

/-- The agent, if it leaves the network. -/
def ousted? (now : UInt32) (x : Crossing) : Option Agent :=
  match x.turn with
  | .onto .. => none
  | .lost _ => some (x.agent.abort now)
  | .refused .. => some (x.agent.proceed.abort now)

/-- The links that take part in a crossing are loaded. -/
structure Within (l : Layout) (x : Crossing) : Prop where
  inLink : x.inLink ∈ l.linkIds
  onto : ∀ link exitTime, x.turn = .onto link exitTime → link ∈ l.linkIds

end Crossing

namespace Loading

variable {l : Layout} {s t : Loading} {now : UInt32}

/-! ## One crossing -/

/-- Takes an agent from the end of a link. -/
def release (now : UInt32) (s : Loading) (link : LinkId) (agent : Agent) : Loading :=
  ((s.updateQueue link fun q => { q with toLeave := q.toLeave.erase agent }).countOut 1).publish
    (.left now link agent.id)

/-- What a crossing does to agents. -/
def pass (now : UInt32) (s : Loading) (x : Crossing) : Loading :=
  let s := s.release now x.inLink x.agent
  match x.turn with
  | .onto link exitTime =>
    ((s.publish (.entered now link x.agent.id)).countIn 1).updateQueue link
      (·.enter { exitTime, agent := x.agent.proceed })
  | .lost error =>
    (s.say (.warn s!"Removing agent {x.agent.id.name} at time {now}: {error.message}")).abort
      x.agent x.inLink now
  | .refused link _ => s.abort x.agent.proceed link now

/-- The link an agent enters is activated. -/
def follow (l : Layout) (s : Loading) (turn : Turn) : Loading :=
  match turn with
  | .onto id _ =>
    match l.link? id with
    | some link => s.wakeLink link
    | none => s
  | .lost _ | .refused .. => s

/-- A crossing. -/
def cross (l : Layout) (now : UInt32) (s : Loading) (x : Crossing) : Loading :=
  (s.pass now x).follow l x.turn

theorem pull_eq_some {link : LinkId} {agent : Agent} {rest : List Agent}
    (h : (s.queue link).toLeave = agent :: rest) :
    s.pull link now = (some agent, s.release now link agent) := by
  -- As a change of the queue which names the agent, it does not depend on who else waits.
  have hq : s.updateQueue link (fun q => { q with toLeave := rest }) =
      s.updateQueue link fun q => { q with toLeave := q.toLeave.erase agent } := by
    apply updateQueue_congr
    rw [h, List.erase_cons_head]
  simp only [pull, h, hq]
  rfl

theorem shape_release (now : UInt32) (s : Loading) (link : LinkId) (agent : Agent) :
    (s.release now link agent).traffic.shape = s.traffic.shape := by
  simp only [release, traffic_publish, shape_countOut, shape_updateQueue]

@[simp] theorem shape_pass (now : UInt32) (s : Loading) (x : Crossing) :
    (s.pass now x).traffic.shape = s.traffic.shape := by
  unfold pass
  dsimp only
  cases x.turn with
  | onto link exitTime => rw [shape_updateQueue, shape_countIn, traffic_publish, shape_release]
  | lost error => rw [traffic_abort, traffic_say, shape_release]
  | refused link error => rw [traffic_abort, shape_release]

theorem Fits.pass (hs : s.Fits l) (now : UInt32) (x : Crossing) : (s.pass now x).Fits l :=
  hs.of_shape_eq (shape_pass now s x)

theorem queue_pass (hc : l.Closed) (hs : s.Fits l) {x : Crossing} (hx : x.Within l)
    {id : LinkId} (hid : id ∈ l.linkIds) :
    (s.pass now x).queue id = x.carry id (s.queue id) := by
  have hrelease : (s.release now x.inLink x.agent).queue id =
      if x.inLink = id then
        { s.queue id with toLeave := (s.queue id).toLeave.erase x.agent }
      else s.queue id := by
    refine (queue_updateQueue hc hs hx.inLink hid _).trans ?_
    simp only [eq_comm]
  have hfits : (s.release now x.inLink x.agent).Fits l :=
    hs.of_shape_eq (shape_release now s x.inLink x.agent)
  unfold pass Crossing.carry Crossing.entrant?
  dsimp only
  rw [← hrelease]
  cases hturn : x.turn with
  | lost error => rfl
  | refused link error => rfl
  | onto link exitTime =>
    -- The link an agent enters may be the one it left, if that link is a loop.
    have hentered : (((s.release now x.inLink x.agent).publish
        (.entered now link x.agent.id)).countIn 1).Fits l := hfits.of_shape_eq rfl
    dsimp only
    rw [queue_updateQueue hc hentered (hx.onto link exitTime hturn) hid]
    by_cases he : id = link
    · subst he
      simp only [↓reduceIte]
      rfl
    · rw [if_neg he, if_neg (Ne.symm he)]
      rfl

/-- What single steps append to a list, a run of them appends one after the other. -/
theorem foldl_append {σ ι α : Type} (told : σ → List α) {step : σ → ι → σ} {adds : ι → List α}
    (h : ∀ s x, told (step s x) = told s ++ adds x) (s : σ) (xs : List ι) :
    told (xs.foldl step s) = told s ++ xs.flatMap adds := by
  induction xs generalizing s with
  | nil => simp
  | cons x rest ih => rw [List.foldl_cons, ih, h, List.flatMap_cons, List.append_assoc]

theorem events_foldl_pass (now : UInt32) (s : Loading) (xs : List Crossing) :
    (xs.foldl (pass now) s).record.events.toList =
      s.record.events.toList ++ xs.flatMap (·.events now) := by
  refine foldl_append (·.record.events.toList) (fun s x => ?_) s xs
  unfold pass Crossing.events
  dsimp only
  cases x.turn <;>
    simp [release, publish, countIn, countOut, updateQueue, say, abort, updatePopulation, handOver]

theorem handedOver_foldl_pass (now : UInt32) (s : Loading) (xs : List Crossing) :
    (xs.foldl (pass now) s).record.handedOver.toList =
      s.record.handedOver.toList ++ xs.filterMap (·.ousted? now) := by
  rw [List.filterMap_eq_flatMap_toList]
  refine foldl_append (·.record.handedOver.toList) (fun s x => ?_) s xs
  unfold pass Crossing.ousted?
  dsimp only
  cases x.turn <;>
    simp [release, publish, countIn, countOut, updateQueue, say, abort, updatePopulation, handOver]

/-- Everyone who leaves the network at a node is lost. -/
theorem population_foldl_pass (now : UInt32) (s : Loading) (xs : List Crossing) :
    (xs.foldl (pass now) s).record.population =
      Population.lose^[(xs.filterMap (·.ousted? now)).length] s.record.population := by
  induction xs generalizing s with
  | nil => rfl
  | cons x rest ih =>
    rw [List.foldl_cons, ih, List.filterMap_cons]
    unfold pass Crossing.ousted?
    dsimp only
    cases x.turn <;> rfl

theorem onNetwork_foldl_pass (now : UInt32) (s : Loading) (xs : List Crossing) :
    (xs.foldl (pass now) s).traffic.onNetwork =
      s.traffic.onNetwork - UInt64.ofNat (xs.filterMap (·.ousted? now)).length := by
  induction xs generalizing s with
  | nil => simp
  | cons x rest ih =>
    rw [List.foldl_cons, ih, List.filterMap_cons]
    unfold pass Crossing.ousted?
    dsimp only
    cases x.turn <;>
      simp [release, publish, countIn, countOut, updateQueue, say, abort, updatePopulation,
        handOver, UInt64.ofNat_add] <;> grind

theorem nextLink_eq_ok {node : Junction} {inLink : LinkId} {agent : Agent} {link : Link}
    (h : nextLink l node inLink agent = .ok link) :
    link ∈ l.links ∧ agent.next? = some link.id ∧ link.fromNode = node.id := by
  unfold nextLink at h
  split at h
  · cases h
  · rename_i next hnext
    split at h
    · cases h
    · rename_i found hfound
      split at h
      · rename_i hfrom
        cases h
        have hid : link.id = next := by simpa using List.find?_some hfound
        exact ⟨List.mem_of_find?_eq_some hfound, hid ▸ hnext, hfrom⟩
      · cases h

/-- Whoever goes onto a link has it as the next one of the route. It starts at the node, and tells
when it may be left again. -/
theorem exists_road_of_onto {supply : Supply} {node : Junction} {inLink link : LinkId}
    {agent : Agent} {exitTime : UInt32}
    (h : supply.turn node inLink now agent = .onto link exitTime) :
    ∃ road ∈ supply.layout.links, road.id = link ∧ road.fromNode = node.id ∧
      supply.travelTimes.exitTime road now agent.proceed = .ok exitTime := by
  unfold Supply.turn at h
  split at h
  · cases h
  · rename_i road hroad
    split at h
    · cases h
    · rename_i time hexit
      obtain ⟨hid, rfl⟩ := Turn.onto.inj h
      obtain ⟨hl, -, hfrom⟩ := nextLink_eq_ok hroad
      exact ⟨road, hl, hid, hfrom, hexit⟩

theorem follow_eq (l : Layout) (s : Loading) (turn : Turn) :
    s.follow l turn = s ∨ ∃ link ∈ l.links, s.follow l turn = s.wakeLink link := by
  unfold follow
  cases turn with
  | lost error => exact .inl rfl
  | refused link error => exact .inl rfl
  | onto id exitTime =>
    dsimp only
    split
    · rename_i link h
      exact .inr ⟨link, List.mem_of_find?_eq_some h, rfl⟩
    · exact .inl rfl

@[simp] theorem shape_cross (l : Layout) (now : UInt32) (s : Loading) (x : Crossing) :
    (s.cross l now x).traffic.shape = s.traffic.shape := by
  unfold cross
  obtain h | ⟨link, -, h⟩ := follow_eq l (s.pass now x) x.turn
  · rw [h, shape_pass]
  · rw [h, shape_wakeLink, shape_pass]

theorem Fits.cross (hs : s.Fits l) (now : UInt32) (x : Crossing) : (s.cross l now x).Fits l :=
  hs.of_shape_eq (shape_cross l now s x)

theorem fits_foldl_cross (hs : s.Fits l) (now : UInt32) (xs : List Crossing) :
    (xs.foldl (cross l now) s).Fits l := by
  induction xs generalizing s with
  | nil => exact hs
  | cons x rest ih => exact ih (hs.cross now x)

theorem moveOver_eq_ok {supply : Supply} (hc : supply.layout.Closed) (hs : s.Fits supply.layout)
    (node : Junction) (inLink : LinkId) (agent : Agent) :
    (s.release now inLink agent).moveOver supply node inLink agent now =
      .ok (match (supply.crossing node now inLink agent).error? with
          | some error => .error error
          | none => .ok (),
        s.cross supply.layout now (supply.crossing node now inLink agent)) := by
  unfold moveOver cross pass
  simp only [Supply.crossing, Supply.turn]
  cases hnext : nextLink supply.layout node inLink agent with
  | error error => rfl
  | ok link =>
    obtain ⟨hl, hnext?, -⟩ := nextLink_eq_ok hnext
    simp only [Agent.moveTo_next? hnext?, enterLink]
    cases supply.travelTimes.exitTime link now agent.proceed with
    | error error => rfl
    | ok exitTime =>
      -- The link is activated when the agent is on it already.
      have hfits : (((((s.release now inLink agent).publish (.entered now link.id
          agent.proceed.id)).countIn 1).updateQueue link.id
            (·.enter { exitTime, agent := agent.proceed }))).Fits supply.layout := by
        refine hs.of_shape_eq ?_
        rw [shape_updateQueue, shape_countIn, traffic_publish, shape_release]
      simp only [activateLink_eq_ok hc hfits hl, Except.map, follow, hc.link?_eq hl]
      rfl

theorem clearActive_release (now : UInt32) (s : Loading) (link : LinkId) (agent : Agent) :
    (s.release now link agent).clearActive = s.clearActive.release now link agent := by
  have h := clearActive_updateQueue (fun q => { q with toLeave := q.toLeave.erase agent })
    (fun q => { q with toLeave := q.toLeave.erase agent }) (fun _ => rfl) s link
  simp only [release, ← h]
  rfl

@[simp] theorem clearActive_pass (now : UInt32) (s : Loading) (x : Crossing) :
    (s.pass now x).clearActive = s.clearActive.pass now x := by
  unfold pass
  dsimp only
  rw [← clearActive_release]
  cases x.turn with
  | onto link exitTime =>
    exact clearActive_updateQueue (·.enter { exitTime, agent := x.agent.proceed })
      (·.enter { exitTime, agent := x.agent.proceed }) (fun _ => rfl) _ link
  | lost error => rfl
  | refused link error => rfl

@[simp] theorem clearActive_cross (l : Layout) (now : UInt32) (s : Loading) (x : Crossing) :
    (s.cross l now x).clearActive = s.clearActive.pass now x := by
  unfold cross
  obtain h | ⟨link, -, h⟩ := follow_eq l (s.pass now x) x.turn
  · rw [h, clearActive_pass]
  · rw [h, clearActive_wakeLink, clearActive_pass]

theorem toLeave_cross (hc : l.Closed) (hs : s.Fits l) {x : Crossing} (hx : x.Within l)
    {id : LinkId} (hid : id ∈ l.linkIds) :
    ((s.cross l now x).queue id).toLeave =
      if x.inLink = id then (s.queue id).toLeave.erase x.agent else (s.queue id).toLeave := by
  have h : ((s.cross l now x).queue id).unmarked = ((s.pass now x).queue id).unmarked := by
    rw [← queue_clearActive, ← queue_clearActive, clearActive_cross, clearActive_pass]
  have htoLeave := congrArg LinkQueue.toLeave h
  rw [LinkQueue.toLeave_unmarked, LinkQueue.toLeave_unmarked, queue_pass hc hs hx hid,
    Crossing.toLeave_carry] at htoLeave
  exact htoLeave

theorem clearActive_foldl_cross (l : Layout) (now : UInt32) (s : Loading) (xs : List Crossing) :
    (xs.foldl (cross l now) s).clearActive = xs.foldl (pass now) s.clearActive := by
  induction xs generalizing s with
  | nil => rfl
  | cons x rest ih => rw [List.foldl_cons, ih, clearActive_cross, List.foldl_cons]

theorem fits_foldl_pass (hs : s.Fits l) (now : UInt32) (xs : List Crossing) :
    (xs.foldl (pass now) s).Fits l := by
  induction xs generalizing s with
  | nil => exact hs
  | cons x rest ih => exact ih (hs.pass now x)

theorem queue_foldl_pass (hc : l.Closed) (hs : s.Fits l) {xs : List Crossing}
    (hxs : ∀ x ∈ xs, x.Within l) {id : LinkId} (hid : id ∈ l.linkIds) :
    (xs.foldl (pass now) s).queue id = xs.foldl (Crossing.carry id) (s.queue id) := by
  induction xs generalizing s with
  | nil => rfl
  | cons x rest ih =>
    obtain ⟨hx, hrest⟩ := List.forall_mem_cons.1 hxs
    rw [List.foldl_cons, ih (hs.pass now x) hrest, queue_pass hc hs hx hid,
      List.foldl_cons]

theorem toLeave_foldl_carry {xs : List Crossing} {id : LinkId} (h : ∀ x ∈ xs, x.inLink ≠ id)
    (q : LinkQueue) : (xs.foldl (Crossing.carry id) q).toLeave = q.toLeave := by
  induction xs generalizing q with
  | nil => rfl
  | cons x rest ih =>
    obtain ⟨hx, hrest⟩ := List.forall_mem_cons.1 h
    rw [List.foldl_cons, ih hrest, Crossing.toLeave_carry, if_neg hx]

theorem within_crossing {supply : Supply} (node : Junction) {inLink : LinkId}
    (h : inLink ∈ supply.layout.linkIds) (now : UInt32) (agent : Agent) :
    (supply.crossing node now inLink agent).Within supply.layout := by
  refine ⟨h, fun link exitTime hturn => ?_⟩
  obtain ⟨road, hl, rfl, -⟩ := exists_road_of_onto hturn
  exact List.mem_map_of_mem hl

/-! ## All crossings of a node -/

theorem drain_eq_ok {supply : Supply} (hc : supply.layout.Closed) (hs : s.Fits supply.layout)
    (node : Junction) {inLink : LinkId} (hin : inLink ∈ supply.layout.linkIds)
    {agents : List Agent} (hq : (s.queue inLink).toLeave = agents) :
    s.drain supply node inLink now agents.length =
      .ok (Crossing.tally (agents.map (supply.crossing node now inLink)),
        (Crossing.cut (agents.map (supply.crossing node now inLink))).foldl
          (cross supply.layout now) s) := by
  induction agents generalizing s with
  | nil => rfl
  | cons agent rest ih =>
    -- Nobody is put into the queue that is drained, so it gets shorter with every agent.
    have hrest : ((s.cross supply.layout now (supply.crossing node now inLink agent)).queue
        inLink).toLeave = rest := by
      rw [toLeave_cross hc hs (within_crossing node hin now agent) hin, hq]
      simp [Supply.crossing]
    have hih := ih (hs.cross now _) hrest
    rw [List.length_cons, drain, pull_eq_some hq]
    simp only [moveOver_eq_ok hc hs, Except.bind, List.map_cons, Crossing.tally, Crossing.cut]
    cases (supply.crossing node now inLink agent).error? with
    | some error => rfl
    | none =>
      simp only [hih, Except.map]
      rfl

/-- The agents whom a node takes from some links, link by link. -/
def crossingsFrom (supply : Supply) (now : UInt32) (s : Loading) (node : Junction)
    (links : List LinkId) : List Crossing :=
  links.flatMap fun id => (s.queue id).toLeave.map (supply.crossing node now id)

/-- The agents whom a node takes from its links. -/
def crossings (supply : Supply) (now : UInt32) (s : Loading) (node : Junction) : List Crossing :=
  s.crossingsFrom supply now node node.inLinks

theorem mem_crossingsFrom {supply : Supply} {node : Junction} {links : List LinkId}
    {x : Crossing} : x ∈ s.crossingsFrom supply now node links ↔
      ∃ id ∈ links, ∃ agent ∈ (s.queue id).toLeave, supply.crossing node now id agent = x := by
  simp only [crossingsFrom, List.mem_flatMap, List.mem_map]

theorem inLink_mem_of_mem_crossingsFrom {supply : Supply} {node : Junction} {links : List LinkId}
    {x : Crossing} (h : x ∈ s.crossingsFrom supply now node links) : x.inLink ∈ links := by
  obtain ⟨id, hid, agent, -, rfl⟩ := mem_crossingsFrom.1 h
  exact hid

theorem within_of_mem_crossingsFrom {supply : Supply} {node : Junction} {links : List LinkId}
    (hsub : links ⊆ supply.layout.linkIds) {x : Crossing}
    (h : x ∈ s.crossingsFrom supply now node links) : x.Within supply.layout := by
  obtain ⟨id, hid, agent, -, rfl⟩ := mem_crossingsFrom.1 h
  exact within_crossing node (hsub hid) now agent

theorem crossingsFrom_congr {supply : Supply} {node : Junction} {links : List LinkId}
    (h : ∀ id ∈ links, (t.queue id).toLeave = (s.queue id).toLeave) :
    t.crossingsFrom supply now node links = s.crossingsFrom supply now node links :=
  List.flatMap_congr fun id hid => by rw [h id hid]

@[simp] theorem crossingsFrom_clearActive (supply : Supply) (now : UInt32) (s : Loading)
    (node : Junction) (links : List LinkId) :
    s.clearActive.crossingsFrom supply now node links =
      s.crossingsFrom supply now node links :=
  crossingsFrom_congr fun id _ => by rw [queue_clearActive, LinkQueue.toLeave_unmarked]

/-- Whom a node takes from its links does not depend on the agents who cross other nodes. -/
theorem crossingsFrom_foldl_pass {supply : Supply} (hc : supply.layout.Closed)
    (hs : s.Fits supply.layout) (node : Junction) {links : List LinkId}
    (hsub : links ⊆ supply.layout.linkIds) {xs : List Crossing}
    (hxs : ∀ x ∈ xs, x.Within supply.layout ∧ x.inLink ∉ links) :
    (xs.foldl (pass now) s).crossingsFrom supply now node links =
      s.crossingsFrom supply now node links := by
  apply crossingsFrom_congr
  intro id hid
  rw [queue_foldl_pass hc hs (fun x hx => (hxs x hx).1) (hsub hid)]
  exact toLeave_foldl_carry (fun x hx he => (hxs x hx).2 (he ▸ hid)) _

theorem drainAll_eq_ok {supply : Supply} (hc : supply.layout.Closed) (hs : s.Fits supply.layout)
    (node : Junction) {links : List LinkId} (hn : links.Nodup)
    (hsub : links ⊆ supply.layout.linkIds) :
    s.drainAll supply node now links =
      .ok (Crossing.tally (s.crossingsFrom supply now node links),
        (Crossing.cut (s.crossingsFrom supply now node links)).foldl
          (cross supply.layout now) s) := by
  induction links generalizing s with
  | nil => rfl
  | cons inLink rest ih =>
    obtain ⟨hin, hrest⟩ := List.cons_subset.1 hsub
    obtain ⟨hnew, hnodup⟩ := List.nodup_cons.1 hn
    obtain ⟨link, hl, rfl⟩ := List.mem_map.1 hin
    have happend : s.crossingsFrom supply now node (link.id :: rest) =
        (s.queue link.id).toLeave.map (supply.crossing node now link.id) ++
          s.crossingsFrom supply now node rest := rfl
    -- Draining one link leaves those waiting at the ends of the others where they are.
    have hsame : (((s.queue link.id).toLeave.map (supply.crossing node now link.id)).foldl
        (cross supply.layout now) s).crossingsFrom supply now node rest =
          s.crossingsFrom supply now node rest := by
      rw [← crossingsFrom_clearActive, clearActive_foldl_cross,
        crossingsFrom_foldl_pass hc (fits_clearActive.2 hs) node hrest,
        crossingsFrom_clearActive]
      intro x hx
      obtain ⟨agent, -, rfl⟩ := List.mem_map.1 hx
      exact ⟨within_crossing node hin now agent, hnew⟩
    rw [happend, Crossing.tally_append, Crossing.cut_append]
    simp only [drainAll, hc.link_eq hl, Except.bind, drain_eq_ok hc hs node hin rfl]
    cases htally : Crossing.tally ((s.queue link.id).toLeave.map
        (supply.crossing node now link.id)) with
    | error error => rfl
    | ok n =>
      -- The link was drained without an error: nothing was cut off.
      obtain ⟨hcut, -⟩ := Crossing.tally_eq_ok htally
      have hfits := fits_foldl_cross hs now ((s.queue link.id).toLeave.map
        (supply.crossing node now link.id))
      have hih := ih hfits hnodup hrest
      rw [hsame] at hih
      simp only [hcut, hih, Except.map, List.foldl_append]

theorem advanceNode_eq_ok {supply : Supply} (hc : supply.layout.Closed)
    (hs : s.Fits supply.layout) {node : Junction} (hn : node ∈ supply.layout.junctions) :
    s.advanceNode supply node now =
      .ok (Crossing.tally (s.crossings supply now node),
        (Crossing.cut (s.crossings supply now node)).foldl (cross supply.layout now) s) :=
  drainAll_eq_ok hc hs node (hc.nodup_inLinks hn) fun _ => hc.mem_linkIds_of_mem_inLinks hn

end Loading

end NetworkLoading
