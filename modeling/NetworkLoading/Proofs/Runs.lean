import NetworkLoading.Proofs.Motions

/-!
# Runs of an engine

A run is any sequence of calls, whatever is answered: it goes on after a step which failed. A call
does one of four things. An agent lands, agents move, all agents are removed as stuck, or all are
dropped; none of these faults.
-/

namespace NetworkLoading

/-! ## What a call can do -/

namespace Loading

variable {l : Layout} {s t : Loading} {engine : Engine}

theorem everyone_perm (l : Layout) (s : Loading) : (s.everyone l).Perm (s.stranded l.linkIds) :=
  (sortBy_perm _ l.linkIds).flatMap_right _

/-- All agents have left the network, and the record tells no more of it than `record`. -/
structure Emptied (l : Layout) (s : Loading) (record : Record) (t : Loading) : Prop where
  vacant : t.Vacant l
  record : t.record.silent = record.silent
  onNetwork : t.traffic.onNetwork = s.traffic.onNetwork - UInt64.ofNat (s.everyone l).length

theorem emptied_finish (hc : l.Closed) (hs : s.Fits l) (now : UInt32) :
    ∃ t, Engine.finish s now = ((s.everyone l).length, t) ∧
      s.Emptied l (s.record.lose now (s.everyone l)) t := by
  obtain ⟨t, ht, hvacant, hrecord, hcount⟩ := finish_eq hc hs now
  exact ⟨t, ht, hvacant, hrecord, hcount⟩

theorem emptied_reset (hs : s.Fits l) : s.Emptied l s.record (Engine.reset s) := by
  obtain ⟨hvacant, hrecord, hcount⟩ := reset_eq hs
  exact ⟨hvacant, hrecord, (everyone_perm l s).length_eq ▸ hcount⟩

end Loading

/-- What comes of an agent whom a call puts onto the network, and what is answered. -/
inductive Engine.Lands (engine : Engine) (agent : Agent) (now : UInt32) :
    Landing → Call → Answer → Prop
  | depart (link : LinkId) : Lands engine agent now (engine.departing agent link)
      (.depart agent link now) (.departed ((engine.departing agent link).departed agent))
  | enter (link : LinkId) : Lands engine agent now (engine.entering agent link now)
      (.enter agent link now) (.entered ((engine.entering agent link now).entered agent))

theorem Engine.Lands.within {engine : Engine} {agent : Agent} {now : UInt32} {x : Landing}
    {call : Call} {answer : Answer} (h : engine.Lands agent now x call answer) :
    x.Within engine.supply.layout := by
  cases h with
  | depart link => exact Loading.within_departing agent link
  | enter link => exact Loading.within_entering agent link now

/-- What a call does, and what is answered. -/
inductive Engine.Performs (engine : Engine) (s : Loading) : Call → Answer → Loading → Prop
  | land {agent : Agent} {now : UInt32} {x : Landing} {call : Call} {answer : Answer}
      (h : engine.Lands agent now x call answer) :
      Performs engine s call answer (s.land engine.supply.layout now agent x)
  | step {now : UInt32} {stats : Except LoadingError StepStats} {t : Loading}
      (h : s.Moved engine.supply now t) : Performs engine s (.step now) (.stepped stats) t
  | finish {now : UInt32} {t : Loading}
      (h : s.Emptied engine.supply.layout (s.record.lose now (s.everyone engine.supply.layout)) t) :
      Performs engine s (.finish now) (.finished (s.everyone engine.supply.layout).length) t
  | reset {t : Loading} (h : s.Emptied engine.supply.layout s.record t) :
      Performs engine s .reset .reset t

namespace Loading

variable {s t : Loading} {engine : Engine} {orders : Orders} {call : Call} {answer : Answer}

/-- Calls other than steps, which have nothing to do with partitions. -/
theorem Fits.perform (hc : engine.supply.layout.Closed) (hs : s.Fits engine.supply.layout)
    (orders : Orders) {call : Call} (hcall : ∀ now, call ≠ .step now) :
    ∃ answer t, engine.perform orders s call = .ok (answer, t) ∧
      engine.Performs s call answer t := by
  cases call with
  | depart agent link now =>
    refine ⟨_, _, ?_, .land (.depart link)⟩
    simp only [Engine.perform, depart_eq_ok hc hs, Except.map]
  | enter agent link now =>
    refine ⟨_, _, ?_, .land (.enter link)⟩
    simp only [Engine.perform, enter_eq_ok hc hs, Except.map]
  | step now => exact absurd rfl (hcall now)
  | finish now =>
    obtain ⟨t, ht, hemptied⟩ := emptied_finish hc hs now
    refine ⟨_, t, ?_, .finish hemptied⟩
    simp only [Engine.perform, ht]
  | reset => exact ⟨.reset, _, rfl, .reset (emptied_reset hs)⟩

/-- No call faults, whatever happened before. -/
theorem Sound.perform (hc : engine.supply.layout.Closed) (hs : s.Sound engine.supply.layout)
    (ho : orders.Whole engine.supply.layout) (call : Call) :
    ∃ answer t, engine.perform orders s call = .ok (answer, t) ∧
      engine.Performs s call answer t := by
  cases call with
  | step now =>
    obtain ⟨stats, t, ht, hproceeds⟩ := hs.stepInOrder hc ho now
    refine ⟨.stepped stats, t, ?_, .step hproceeds.moved⟩
    simp only [Engine.perform, ht, Except.map]
  | depart | enter | finish | reset => exact hs.fits.perform hc orders (by simp)

theorem Sound.performs (hc : engine.supply.layout.Closed) (hs : s.Sound engine.supply.layout)
    (ho : orders.Whole engine.supply.layout)
    (h : engine.perform orders s call = .ok (answer, t)) : engine.Performs s call answer t := by
  obtain ⟨_, _, he, hperforms⟩ := hs.perform hc ho call
  cases h.symm.trans he
  exact hperforms

end Loading

theorem Engine.Performs.sound {engine : Engine} {s t : Loading} {call : Call} {answer : Answer}
    (hc : engine.supply.layout.Closed) (hs : s.Sound engine.supply.layout)
    (h : engine.Performs s call answer t) : t.Sound engine.supply.layout := by
  cases h with
  | land h => exact hs.land hc _ _ _
  | step h => exact h.sound
  | finish h => exact h.vacant.settled.sound
  | reset h => exact h.vacant.settled.sound

/-! ## Runs -/

/-- A call in a run, with the states before and after. -/
structure Stage where
  before : Loading
  call : Call
  answer : Answer
  after : Loading

/-- The persons whom the engine took over in a call. -/
def Stage.accepted (x : Stage) : List PersonId :=
  match x.call, x.answer with
  | .depart agent _ _, .departed (.ok _) => [agent.id]
  | .enter agent _ _, .entered (.ok _) => [agent.id]
  | _, _ => []

/-- The persons whom a call dropped without a trace. -/
def Stage.dropped (l : Layout) (x : Stage) : List PersonId :=
  match x.call with
  | .reset => (x.before.everyone l).map (·.2.id)
  | .depart .. | .enter .. | .step _ | .finish _ => []

/-- The events which a call published. -/
def Stage.events (x : Stage) : List Event :=
  x.after.record.events.toList.drop x.before.record.events.size

/-- The agents whom a call handed over. -/
def Stage.handedOver (x : Stage) : List Agent :=
  x.after.record.handedOver.toList.drop x.before.record.handedOver.size

theorem Stage.events_eq {x : Stage} {events : List Event}
    (h : x.after.record.events.toList = x.before.record.events.toList ++ events) :
    x.events = events := by
  rw [Stage.events, h, List.drop_left' (by simp)]

theorem Stage.handedOver_eq {x : Stage} {agents : List Agent}
    (h : x.after.record.handedOver.toList = x.before.record.handedOver.toList ++ agents) :
    x.handedOver = agents := by
  rw [Stage.handedOver, h, List.drop_left' (by simp)]

/-- The calls of a run which starts in a state, and the state in which it ends. The partitions may
be processed in other orders in every step. -/
inductive Engine.Runs (engine : Engine) (s : Loading) : List Stage → Loading → Prop
  | start : Runs engine s [] s
  | call {stages : List Stage} {t u : Loading} {orders : Orders} {call : Call} {answer : Answer} :
      Runs engine s stages t → orders.Whole engine.supply.layout →
      engine.perform orders t call = .ok (answer, u) →
      Runs engine s (stages ++ [⟨t, call, answer, u⟩]) u

namespace Engine.Runs

variable {engine : Engine} {s t u : Loading} {stages later : List Stage}

theorem trans (h : engine.Runs s stages t) (h' : engine.Runs t later u) :
    engine.Runs s (stages ++ later) u := by
  induction h' with
  | start => rwa [List.append_nil]
  | call _ ho hcall ih =>
    rw [← List.append_assoc]
    exact .call ih ho hcall

/-- A run is a run of its first calls, and then one of those which follow. -/
theorem split {early late : List Stage} (h : engine.Runs s (early ++ late) u) :
    ∃ t, engine.Runs s early t ∧ engine.Runs t late u := by
  generalize hall : early ++ late = all at h
  induction h generalizing late with
  | start =>
    obtain ⟨rfl, rfl⟩ := List.append_eq_nil_iff.1 hall
    exact ⟨s, .start, .start⟩
  | @call stages t u orders call answer hrun ho hcall ih =>
    obtain rfl | ⟨middle, last, rfl⟩ := late.eq_nil_or_concat'
    · rw [List.append_nil] at hall
      subst hall
      exact ⟨u, .call hrun ho hcall, .start⟩
    · rw [← List.append_assoc] at hall
      obtain ⟨hstages, hlast⟩ := List.append_inj' hall rfl
      cases hlast
      obtain ⟨t, hearly, hmiddle⟩ := ih hstages
      exact ⟨t, hearly, .call hmiddle ho hcall⟩

theorem eq_of_nil (h : engine.Runs s [] t) : t = s := by
  generalize hnil : [] = stages at h
  cases h with
  | start => rfl
  | call => simp at hnil

/-- The first call of a run starts where the run starts. -/
theorem head {x : Stage} (h : engine.Runs s (x :: stages) u) :
    x.before = s ∧ (∃ orders : Orders, orders.Whole engine.supply.layout ∧
      engine.perform orders s x.call = .ok (x.answer, x.after)) ∧ engine.Runs x.after stages u := by
  have hsplit : engine.Runs s ([x] ++ stages) u := h
  obtain ⟨t, hfirst, hrest⟩ := hsplit.split
  generalize hone : [x] = first at hfirst
  cases hfirst with
  | start => cases hone
  | call hrun ho hcall =>
    rw [← List.nil_append [x]] at hone
    obtain ⟨rfl, hx⟩ := List.append_inj' hone rfl
    cases hx
    obtain rfl := eq_of_nil hrun
    exact ⟨rfl, ⟨_, ho, hcall⟩, hrest⟩

theorem sound (hc : engine.supply.layout.Closed) (hs : s.Sound engine.supply.layout)
    (h : engine.Runs s stages t) : t.Sound engine.supply.layout := by
  induction h with
  | start => exact hs
  | call _ ho hcall ih => exact (ih.performs hc ho hcall).sound hc ih

/-- What every call preserves holds at the end of a run. -/
theorem induct (hc : engine.supply.layout.Closed) (hs : s.Sound engine.supply.layout)
    {P : List Stage → Loading → Prop} (hstart : P [] s)
    (hcall : ∀ stages t call answer u, engine.Runs s stages t → t.Sound engine.supply.layout →
      engine.Performs t call answer u → P stages t → P (stages ++ [⟨t, call, answer, u⟩]) u)
    (h : engine.Runs s stages t) : P stages t := by
  induction h with
  | start => exact hstart
  | call hrun ho hperform ih =>
    have hsound := hrun.sound hc hs
    exact hcall _ _ _ _ _ hrun hsound (hsound.performs hc ho hperform) ih

end Engine.Runs

theorem Loading.sound_empty (l : Layout) (population : Population) :
    (Loading.empty l population).Sound l :=
  (vacant_empty l { population }).settled.sound

/-! ## A network on which steps fail -/

namespace Sample

def returning : Link :=
  { id := track, fromNode := yard, toNode := gate, length := 100, freespeed := 10 }

/-- Two links, each of which leads to where the other one starts. -/
def ring : Network :=
  { network with
    nodes := [{ place gate with inLinks := [track], outLinks := [lane] },
      { place yard with inLinks := [lane], outLinks := [track] }]
    links := [road, returning]
    linkIndex := ⟨[(track, 1), (lane, 0)]⟩ }

/-- No agent has a valid travel time on any link. -/
def ringEngine : Engine where
  supply :=
    { layout :=
        { links := [road, returning], junctions := [⟨gate, [track], 0⟩, ⟨yard, [lane], 0⟩]
          numParts := 1 }
      travelTimes := { rules := [(car, .constant (0 / 0))] } }
  schedule := .ofSettings {}

theorem built_ring : ring.Built ids := by
  have hreturning : Network.addLink network returning = .ok () ring := rfl
  exact .addLink built_network (show ids.Issued returning.id from rfl) hreturning

theorem constructed_ringEngine : ringEngine.Constructed :=
  ⟨ids, ring, {}, [], ringEngine.supply.travelTimes, _, built_ring, rfl⟩

/-- One agent is refused by the second link, which fails the step, and another one departs. -/
theorem runs_ringEngine : ∃ stages t, ringEngine.Runs (.empty ringEngine.supply.layout ⟨2, 0⟩)
    stages t ∧ stages.map (·.answer.failed) = [false, true, false] ∧
    stages.flatMap (·.accepted) = [ann, ben] ∧ (∀ stage ∈ stages, stage.call ≠ .reset) := by
  have hwhole := Orders.whole_ascending ringEngine.supply.layout
  have h : ringEngine.Runs (.empty ringEngine.supply.layout ⟨2, 0⟩)
      [⟨_, .depart (stray ann) lane 5, _, _⟩, ⟨_, .step 6, _, _⟩,
        ⟨_, .depart (stray ben) lane 7, _, _⟩] _ :=
    .call (.call (.call .start hwhole rfl) hwhole rfl) hwhole rfl
  refine ⟨_, _, h, rfl, rfl, ?_⟩
  simp

def bike : ModeId := ⟨1, "bike"⟩
def cleo : PersonId := ⟨2, "cleo"⟩
def dora : PersonId := ⟨3, "dora"⟩

/-- Bikes have a valid travel time on every link, and cars on none. -/
def mixedEngine : Engine :=
  { ringEngine with
    supply := { ringEngine.supply with
      travelTimes := { rules := [(car, .constant (0 / 0)), (bike, .constant 10)] } } }

theorem constructed_mixedEngine : mixedEngine.Constructed :=
  ⟨ids, ring, {}, [], mixedEngine.supply.travelTimes, _, built_ring, rfl⟩

/-- A cyclist who starts on the first link. -/
def cyclist (person : PersonId) : Agent :=
  { id := person, mode := bike, route := [lane, track], route_ne_nil := List.cons_ne_nil _ _ }

/-- A driver who starts on the second link. -/
def driver (person : PersonId) : Agent :=
  { id := person, mode := car, route := [track, lane], route_ne_nil := List.cons_ne_nil _ _ }

/-- The first node fails in a step, so that a cyclist waits for the other one. Two agents depart
afterwards. -/
theorem runs_mixedEngine : ∃ stages s,
    mixedEngine.Runs (.empty mixedEngine.supply.layout ⟨4, 0⟩) stages s ∧
    stages.map (·.answer.failed) = [false, false, true, false, false] ∧
    stages.flatMap (·.accepted) = [ann, ben, cleo, dora] ∧
    (s.everyone mixedEngine.supply.layout).map (fun x => (x.1, x.2.id)) =
      [(lane, dora), (lane, ben), (track, cleo)] := by
  have hwhole := Orders.whole_ascending mixedEngine.supply.layout
  have h : mixedEngine.Runs (.empty mixedEngine.supply.layout ⟨4, 0⟩)
      [⟨_, .depart (driver ann) track 5, _, _⟩, ⟨_, .depart (cyclist ben) lane 5, _, _⟩,
        ⟨_, .step 6, _, _⟩, ⟨_, .depart (driver cleo) track 7, _, _⟩,
        ⟨_, .depart (cyclist dora) lane 8, _, _⟩] _ :=
    .call (.call (.call (.call (.call .start hwhole rfl) hwhole rfl) hwhole rfl) hwhole rfl) hwhole
      rfl
  exact ⟨_, _, h, rfl, rfl, rfl⟩

end Sample

end NetworkLoading
