import NetworkLoading.Proofs.Injection
import NetworkLoading.Proofs.Results

/-!
# Calls to an engine

An engine is driven by a sequence of calls: agents are put onto the network, time steps are made,
the network is emptied. On a network which was built, no call ever faults, and all of them but a
failed step lead from states in which nobody waits to leave a link to such states.
-/

namespace NetworkLoading

/-- What can be asked of an engine. -/
inductive Call where
  | depart (agent : Agent) (link : LinkId) (now : UInt32)
  | enter (agent : Agent) (link : LinkId) (now : UInt32)
  | step (now : UInt32)
  | finish (now : UInt32)
  | reset

/-- What an engine answers. -/
inductive Answer where
  | departed (result : Except Rejected Bool)
  | entered (result : Except Rejected Unit)
  | stepped (result : Except LoadingError StepStats)
  | finished (stuck : Nat)
  | reset

/-- Whether a step failed. -/
def Answer.failed : Answer → Bool
  | stepped (.error _) => true
  | stepped (.ok _) | departed _ | entered _ | finished _ | reset => false

/-- In which orders the partitions are processed in the two phases of a step. -/
structure Orders where
  forLinks : List Nat
  forNodes : List Nat

/-- The orders in which partitions follow their numbers. -/
def Orders.ascending (l : Layout) : Orders where
  forLinks := List.range l.numParts
  forNodes := List.range l.numParts

/-- Every partition is processed once in each phase. -/
structure Orders.Whole (l : Layout) (orders : Orders) : Prop where
  forLinks : orders.forLinks.Perm (List.range l.numParts)
  forNodes : orders.forNodes.Perm (List.range l.numParts)

theorem Orders.whole_ascending (l : Layout) : Whole l (ascending l) :=
  ⟨.refl _, .refl _⟩

/-- What a call was answered, and the state it led to. -/
structure Point where
  call : Call
  answer : Answer
  state : Loading

namespace Engine

/-- Calls an engine. -/
def perform (engine : Engine) (orders : Orders) (s : Loading) :
    Call → Except Fault (Answer × Loading)
  | .depart agent link now =>
    (engine.depart s agent link now).map fun (result, s) => (.departed result, s)
  | .enter agent link now =>
    (engine.enter s agent link now).map fun (result, s) => (.entered result, s)
  | .step now =>
    (engine.stepInOrder s now orders.forLinks orders.forNodes).map fun (result, s) =>
      (.stepped result, s)
  | .finish now =>
    let (stuck, s) := finish s now
    .ok (.finished stuck, s)
  | .reset => .ok (.reset, Engine.reset s)

/-- Makes calls one after the other, until a step fails. -/
def course (engine : Engine) (s : Loading) : List (Call × Orders) → Except Fault (List Point)
  | [] => .ok []
  | (call, orders) :: rest =>
    (engine.perform orders s call).bind fun (answer, t) =>
      if answer.failed then .ok [⟨call, answer, t⟩]
      else (engine.course t rest).map (⟨call, answer, t⟩ :: ·)

/-- The engine was made for a network which was built with ids of one store. -/
def Constructed (engine : Engine) : Prop :=
  ∃ (ids : IdStore) (net : Network) (config : Config) (modes : List ModeId)
    (travelTimes : TravelTimes) (log : List LogLine),
    net.Built ids ∧ build net config modes travelTimes = .ok (.ok { engine, log })

/-- The states to which calls lead from an empty network, each with the calls that led there, the
last one first, and with the events which every call published. The partitions may take turns in any
order, which may differ from call to call. No step failed. -/
inductive Reaches (engine : Engine) : List (Call × List Event) → Loading → Prop
  | start (record : Record) : Reaches engine [] ⟨.empty engine.supply.layout, record⟩
  | call {history : List (Call × List Event)} {s t : Loading} {answer : Answer} {orders : Orders}
      (call : Call) :
      Reaches engine history s → orders.Whole engine.supply.layout →
      engine.perform orders s call = .ok (answer, t) → answer.failed = false →
      Reaches engine ((call, t.record.events.toList.drop s.record.events.size) :: history) t

/-! ## Construction -/

/-- A course in which no step fails goes on after each call. -/
theorem course_cons {engine : Engine} {s : Loading} {call : Call} {orders : Orders}
    {rest : List (Call × Orders)} {points : List Point}
    (h : engine.course s ((call, orders) :: rest) = .ok points)
    (hok : ∀ point ∈ points, point.answer.failed = false) :
    ∃ answer t later, engine.perform orders s call = .ok (answer, t) ∧ answer.failed = false ∧
      engine.course t rest = .ok later ∧ points = ⟨call, answer, t⟩ :: later := by
  obtain ⟨⟨answer, t⟩, hcall, h⟩ := exists_of_bind_eq_ok h
  dsimp only at h
  split at h
  · rename_i hfailed
    cases h
    rw [hok _ List.mem_cons_self] at hfailed
    cases hfailed
  · rename_i hfailed
    obtain ⟨later, hlater, rfl⟩ := exists_of_map_eq_ok h
    exact ⟨answer, t, later, hcall, eq_false_of_ne_true hfailed, hlater, rfl⟩

theorem repartitioned_of_divided {net net' : Network} {c : Config.Partitioning}
    {log : List LogLine} (h : divided net c = .ok (net', log)) : net.Repartitioned net' := by
  unfold divided at h
  dsimp only at h
  split at h
  · cases h
    exact .refl
  · obtain ⟨parted, hparted, he⟩ := exists_of_map_eq_ok h
    cases he
    exact .divide .refl hparted

theorem build_eq_ok {net : Network} {config : Config} {modes : List ModeId}
    {travelTimes : TravelTimes} {b : Built}
    (h : build net config modes travelTimes = .ok (.ok b)) :
    ∃ parted, net.Repartitioned parted ∧
      Layout.ofNetwork parted modes = .ok b.engine.supply.layout ∧
      b.engine.supply.travelTimes = travelTimes := by
  unfold build at h
  split at h
  · cases h
  · obtain ⟨⟨parted, log⟩, hparted, h⟩ := exists_of_bind_eq_ok h
    obtain ⟨l, hl, h⟩ := exists_of_map_eq_ok h
    cases h
    exact ⟨parted, repartitioned_of_divided hparted, hl, rfl⟩

theorem Constructed.closed {engine : Engine} (h : engine.Constructed) :
    engine.supply.layout.Closed := by
  obtain ⟨ids, net, config, modes, travelTimes, log, hb, hbuild⟩ := h
  obtain ⟨divided, hr, hl, -⟩ := build_eq_ok hbuild
  exact Layout.closed_ofNetwork (hb.repartitioned hr) hl

end Engine

/-! ## Single calls -/

/-- A record without its messages. -/
def Record.silent (r : Record) : Record :=
  { r with log := #[] }

namespace Loading

variable {l : Layout} {s t : Loading} {now : UInt32} {engine : Engine}

theorem Vacant.of_traffic_eq (h : s.Vacant l) (ht : t.traffic = s.traffic) : t.Vacant l := by
  refine ⟨h.settled.of_traffic_eq ht, ?_, ?_⟩
  · intro id hid
    rw [queue_eq_of_links_eq (congrArg Traffic.links ht), h.queue id hid]
  · intro id hid
    rw [nodeActive, ht]
    exact h.marks id hid

@[simp] theorem silent_say (s : Loading) (line : LogLine) :
    (s.say line).record.silent = s.record.silent := rfl

/-- Only messages tell the second state from the first one. -/
structure Resembles (s t : Loading) : Prop where
  traffic : t.traffic = s.traffic
  record : t.record.silent = s.record.silent

theorem Resembles.refl (s : Loading) : s.Resembles s :=
  ⟨rfl, rfl⟩

theorem resembles_say (s : Loading) (line : LogLine) : s.Resembles (s.say line) :=
  ⟨rfl, rfl⟩

theorem Resembles.trans {u : Loading} (h : s.Resembles t) (h' : t.Resembles u) : s.Resembles u :=
  ⟨h'.traffic.trans h.traffic, h'.record.trans h.record⟩

theorem finish_eq (hc : l.Closed) (hs : s.Fits l) (now : UInt32) :
    ∃ t, Engine.finish s now = ((s.everyone l).length, t) ∧ t.Vacant l ∧
      t.record.silent = (s.record.lose now (s.everyone l)).silent ∧
      t.traffic.onNetwork = s.traffic.onNetwork - UInt64.ofNat (s.everyone l).length := by
  obtain ⟨t, ht, hvacant, hrecord, hcount⟩ := clear_eq hc hs now
  unfold Engine.finish
  rw [ht]
  dsimp only
  split
  · refine ⟨_, rfl, hvacant.of_traffic_eq rfl, ?_, hcount⟩
    rw [silent_say, silent_say, hrecord]
  · refine ⟨_, rfl, hvacant.of_traffic_eq rfl, ?_, hcount⟩
    rw [silent_say, hrecord]

theorem reset_eq (hs : s.Fits l) :
    (Engine.reset s).Vacant l ∧ (Engine.reset s).record.silent = s.record.silent ∧
      (Engine.reset s).traffic.onNetwork =
        s.traffic.onNetwork - UInt64.ofNat (s.stranded l.linkIds).length := by
  obtain ⟨t, ht, hvacant, hrecord, hcount⟩ := drop_eq hs
  unfold Engine.reset
  rw [ht]
  dsimp only
  split
  · refine ⟨hvacant.of_traffic_eq rfl, ?_, hcount⟩
    rw [silent_say, hrecord]
  · exact ⟨hvacant, congrArg Record.silent hrecord, hcount⟩

/-- No call faults, and nobody waits to leave a link after it, unless a step failed. -/
theorem Settled.perform (hc : engine.supply.layout.Closed) (h : s.Settled engine.supply.layout)
    {orders : Orders} (ho : orders.Whole engine.supply.layout) (call : Call) :
    ∃ answer t, engine.perform orders s call = .ok (answer, t) ∧
      (answer.failed = false → t.Settled engine.supply.layout) := by
  cases call with
  | depart agent link now =>
    refine ⟨.departed ((engine.departing agent link).departed agent), _, ?_,
      fun _ => h.land hc agent (within_departing agent link) now⟩
    simp only [Engine.perform, depart_eq_ok hc h.fits, Except.map]
  | enter agent link now =>
    refine ⟨.entered ((engine.entering agent link now).entered agent), _, ?_,
      fun _ => h.land hc agent (within_entering agent link now) now⟩
    simp only [Engine.perform, enter_eq_ok hc h.fits, Except.map]
  | step now =>
    -- A failed step may leave agents at the ends of links and marked nodes which are in no set.
    obtain ⟨stats, t, ht, -, -, hok⟩ := h.stepInOrder hc ho.forLinks ho.forNodes now
    refine ⟨.stepped stats, t, ?_, ?_⟩
    · simp only [Engine.perform, ht, Except.map]
    · intro hfailed
      cases stats with
      | error error => cases hfailed
      | ok counts => exact (hok counts rfl).settled
  | finish now =>
    obtain ⟨t, ht, hvacant, -⟩ := finish_eq hc h.fits now
    refine ⟨.finished (s.everyone engine.supply.layout).length, t, ?_, fun _ => hvacant.settled⟩
    simp only [Engine.perform, ht]
  | reset => exact ⟨.reset, _, rfl, fun _ => (reset_eq h.fits).1.settled⟩

/-- No sequence of calls faults. -/
theorem Settled.course (hc : engine.supply.layout.Closed) (h : s.Settled engine.supply.layout)
    {calls : List (Call × Orders)}
    (ho : ∀ entry ∈ calls, entry.2.Whole engine.supply.layout) :
    ∃ points, engine.course s calls = .ok points := by
  induction calls generalizing s with
  | nil => exact ⟨[], rfl⟩
  | cons entry rest ih =>
    obtain ⟨call, orders⟩ := entry
    obtain ⟨hfirst, hrest⟩ := List.forall_mem_cons.1 ho
    obtain ⟨answer, t, ht, hsettled⟩ := h.perform hc hfirst call
    simp only [Engine.course, ht, Except.bind]
    cases hfailed : answer.failed with
    | true => exact ⟨_, rfl⟩
    | false =>
      obtain ⟨points, hpoints⟩ := ih (hsettled hfailed) hrest
      rw [hpoints]
      exact ⟨_, rfl⟩

end Loading

theorem Engine.Reaches.settled {engine : Engine} (hc : engine.supply.layout.Closed)
    {history : List (Call × List Event)} {s : Loading} (h : engine.Reaches history s) :
    s.Settled engine.supply.layout := by
  induction h with
  | start record => exact (Loading.vacant_empty _ record).settled
  | call call _ hwhole hcall hok ih =>
    obtain ⟨answer, t, ht, hsettled⟩ := ih.perform hc hwhole call
    rw [hcall] at ht
    cases ht
    exact hsettled hok

/-! ## A small network -/

namespace Sample

def ids : IdStore :=
  .ofNames [(.mode, ["car"]), (.person, ["ann", "ben"]), (.link, ["lane", "track"]),
    (.node, ["gate", "yard"])]

def car : ModeId := ⟨0, "car"⟩
def ann : PersonId := ⟨0, "ann"⟩
def ben : PersonId := ⟨1, "ben"⟩
def lane : LinkId := ⟨0, "lane"⟩
def track : LinkId := ⟨1, "track"⟩
def gate : NodeId := ⟨0, "gate"⟩
def yard : NodeId := ⟨1, "yard"⟩

/-- A node at which no link starts or ends. -/
def place (id : NodeId) : Node := { id, x := 0, y := 0 }

def road : Link := { id := lane, fromNode := gate, toNode := yard, length := 100, freespeed := 10 }

/-- A single link between two nodes. -/
def network : Network where
  nodes := [{ place gate with outLinks := [lane] }, { place yard with inLinks := [lane] }]
  links := [road]
  nodeIndex := ⟨[(yard, 1), (gate, 0)]⟩
  linkIndex := ⟨[(lane, 0)]⟩
  numParts := 1

def travelTimes : TravelTimes := { rules := [(car, .constant 10)] }

def engine : Engine where
  supply :=
    { layout :=
        { links := [road], junctions := [⟨gate, [], 0⟩, ⟨yard, [lane], 0⟩], numParts := 1 }
      travelTimes }
  schedule := .ofSettings {}

/-- An agent whose route leads off the network behind the link. -/
def stray (person : PersonId) : Agent :=
  { id := person, mode := car, route := [lane, track], route_ne_nil := nofun }

/-- Some agents depart and are lost in a step, before the network is emptied. -/
def strayCalls (persons : List PersonId) (orders : Orders) : List (Call × Orders) :=
  let calls : List Call :=
    persons.map (fun person => .depart (stray person) lane 5) ++ [.step 5, .finish 6]
  calls.map (·, orders)

theorem whole_strayCalls {l : Layout} {orders : Orders} (h : orders.Whole l)
    {persons : List PersonId} : ∀ entry ∈ strayCalls persons orders, entry.2.Whole l := by
  intro entry hentry
  obtain ⟨_, -, rfl⟩ := List.mem_map.1 hentry
  exact h

theorem built_network : network.Built ids := by
  have hgate : Network.Built ids
      { Network.empty with nodes := [place gate], nodeIndex := ⟨[(gate, 0)]⟩ } :=
    .addNode .empty (show ids.Issued gate from rfl) rfl
  have hyard : Network.Built ids
      { network with nodes := [place gate, place yard], links := [], linkIndex := {} } :=
    .addNode hgate (show ids.Issued yard from rfl) rfl
  exact .addLink hyard (show ids.Issued road.id from rfl) rfl

theorem constructed_engine : engine.Constructed :=
  ⟨ids, network, {}, [], travelTimes, _, built_network, rfl⟩

/-- One agent is lost behind the link, and another one departs. -/
theorem reaches_engine : ∃ history s, engine.Reaches history s ∧ s.nodeActive yard = true ∧
    (s.queue lane).active = true := by
  have hwhole := Orders.whole_ascending engine.supply.layout
  have hdepart : engine.Reaches _ _ :=
    .call (.depart (stray ann) lane 5) (.start ⟨⟨2, 0⟩, #[], #[], #[]⟩) hwhole rfl rfl
  have hstep : engine.Reaches _ _ := .call (.step 5) hdepart hwhole rfl rfl
  exact ⟨_, _, .call (.depart (stray ben) lane 6) hstep hwhole rfl rfl, rfl, rfl⟩

end Sample

end NetworkLoading
