import NetworkLoading.Proofs.Transfers

/-!
# Why a step fails

Nobody comes onto the network whose mode has no rule for travel times, and no agent changes its mode
there. So a step can fail for one reason only: an agent has no valid travel time on the link that it
is about to enter. This holds after steps which failed, too.
-/

namespace NetworkLoading

/-- An agent whose mode has a rule is refused only for the value of its travel time. -/
theorem TravelTimes.exitTime_eq_error {travelTimes : TravelTimes} {link : Link} {now : UInt32}
    {agent : Agent} {error : LoadingError} (hrule : (travelTimes.get? agent.mode).isSome)
    (h : travelTimes.exitTime link now agent = .error error) :
    ∃ value, error = .invalidTravelTime agent.id agent.mode link.id value := by
  obtain ⟨rule, hrule⟩ := Option.isSome_iff_exists.1 hrule
  simp only [exitTime, hrule] at h
  split at h
  · cases h
  · cases h
    exact ⟨_, rfl⟩

/-- Whoever is refused at a node has no exit time on the next link. -/
theorem Supply.exitTime_of_refused {supply : Supply} {node : Junction} {now : UInt32}
    {inLink : LinkId} {agent : Agent} {error : LoadingError}
    (h : (supply.crossing node now inLink agent).error? = some error) :
    ∃ link ∈ supply.layout.links,
      supply.travelTimes.exitTime link now agent.proceed = .error error := by
  simp only [crossing, turn, Crossing.error?] at h
  cases hnext : Loading.nextLink supply.layout node inLink agent with
  -- A broken route costs the agent and refuses nothing.
  | error broken =>
    rw [hnext] at h
    cases h
  | ok link =>
    rw [hnext] at h
    dsimp only at h
    cases hexit : supply.travelTimes.exitTime link now agent.proceed with
    | error refused =>
      rw [hexit] at h
      cases h
      exact ⟨link, (Loading.nextLink_eq_ok hnext).1, hexit⟩
    | ok exitTime =>
      rw [hexit] at h
      cases h

/-- Whoever comes onto the network has a mode with a rule. -/
theorem Engine.Lands.isSome_rule {engine : Engine} {agent : Agent} {now : UInt32} {x : Landing}
    {call : Call} {answer : Answer} (h : engine.Lands agent now x call answer)
    (hin : x.isIn = true) : (engine.supply.travelTimes.get? agent.mode).isSome := by
  cases h with
  | depart id =>
    unfold departing at hin
    split at hin
    · cases hin
    · split at hin
      · cases hin
      · rename_i hmissing
        exact Option.isSome_iff_ne_none.2 fun hnone => hmissing (hnone ▸ rfl)
  | enter id =>
    unfold entering TravelTimes.exitTime at hin
    split at hin
    · cases hin
    · cases hrule : engine.supply.travelTimes.get? agent.mode with
      | some rule => rfl
      | none =>
        rw [hrule] at hin
        cases hin

namespace Loading

variable {l : Layout} {s t : Loading} {now : UInt32} {supply : Supply} {P : Agent → Prop}

/-! ## What all agents on the network have in common -/

/-- Every agent on the network has a property. -/
def Each (l : Layout) (P : Agent → Prop) (s : Loading) : Prop :=
  ∀ seat ∈ s.everyone l, P seat.2

theorem each_clearActive : s.clearActive.Each l P ↔ s.Each l P := by
  rw [Each, everyone_clearActive, Each]

theorem Vacant.each (h : s.Vacant l) : s.Each l P := by
  rw [Each, h.everyone]
  nofun

theorem Each.undergo (h : s.Each l P) {x : Transfer} (hx : s.Undergoes l x t)
    (hon : ∀ seat ∈ x.on, P seat.2) : t.Each l P := by
  obtain ⟨others, hbefore, hafter⟩ := hx.agents
  intro seat hseat
  rcases List.mem_append.1 (hafter.mem_iff.1 hseat) with hseat | hseat
  · exact hon seat hseat
  · exact h seat (hbefore.mem_iff.2 (List.mem_append_right _ hseat))

/-- A property which does not depend on how far agents have come is kept by all that a step does. -/
theorem Each.moved (hc : supply.layout.Closed) (hs : s.Fits supply.layout)
    (hP : ∀ agent, P agent → P agent.proceed) (h : s.Each supply.layout P)
    (hmoved : s.Moved supply now t) : t.Each supply.layout P := by
  refine hmoved.keeps hs (fun _ => each_clearActive) h ?_
  intro s t hs h hmotion
  cases hmotion with
  | flow hid => exact h.undergo (undergoes_flow hc hs hid now) nofun
  | @pass node inLink agent hn hin hwaits =>
    have hloaded := hc.mem_linkIds_of_mem_inLinks hn hin
    have hx := within_crossing node hloaded now agent
    refine h.undergo (undergoes_pass hc hs hx hwaits now) fun seat hseat => ?_
    simp only [Crossing.transfer, Option.mem_toList, Crossing.seat?] at hseat
    split at hseat
    · cases hseat
      exact hP agent (h (inLink, agent) (mem_everyone.2 ⟨hloaded, List.mem_append_right _ hwaits⟩))
    · cases hseat
    · cases hseat

theorem Each.performs {engine : Engine} {call : Call} {answer : Answer}
    (hc : engine.supply.layout.Closed) (hs : s.Sound engine.supply.layout)
    (hP : ∀ agent, P agent → P agent.proceed)
    (hlands : ∀ agent now x, engine.Lands agent now x call answer → x.isIn = true → P agent)
    (h : s.Each engine.supply.layout P) (hperforms : engine.Performs s call answer t) :
    t.Each engine.supply.layout P := by
  cases hperforms with
  | @land agent now x _ _ hx =>
    refine h.undergo (undergoes_land hc hs.fits agent hx.within now) fun seat hseat => ?_
    have hagent : x.isIn = true → P agent := hlands agent now x hx
    simp only [Landing.transfer, Option.mem_toList] at hseat
    -- Only an agent which comes in needs the property; the others are on no link.
    cases x with
    | refused error => cases hseat
    | arrives => cases hseat
    | waits link =>
      cases hseat
      exact hagent rfl
    | enters link exitTime =>
      cases hseat
      exact hagent rfl
  | step hmoved => exact h.moved hc hs.fits hP hmoved
  | finish hemptied => exact hemptied.vacant.each
  | reset hemptied => exact hemptied.vacant.each

/-- Someone with the property has no exit time on a loaded link if a step fails. -/
theorem Each.refused (hc : supply.layout.Closed) (hs : s.Fits supply.layout)
    (hP : ∀ agent, P agent → P agent.proceed) (h : s.Each supply.layout P) {error : LoadingError}
    (hrefuses : s.Refuses supply now error) :
    ∃ agent, P agent ∧ ∃ link ∈ supply.layout.links,
      supply.travelTimes.exitTime link now agent = .error error := by
  obtain ⟨t, hmoved, node, hn, inLink, hin, agent, hwaits, herror⟩ := hrefuses
  have hseat : (inLink, agent) ∈ t.everyone supply.layout :=
    mem_everyone.2 ⟨hc.mem_linkIds_of_mem_inLinks hn hin, List.mem_append_right _ hwaits⟩
  exact ⟨agent.proceed, hP agent (h.moved hc hs hP hmoved _ hseat),
    Supply.exitTime_of_refused herror⟩

end Loading

namespace Engine.Runs

variable {engine : Engine} {population : Population} {stages : List Stage} {t : Loading}

/-- Everyone on the network has a mode with a rule, whatever happened before. -/
theorem each_rule (hc : engine.supply.layout.Closed)
    (h : engine.Runs (.empty engine.supply.layout population) stages t) :
    t.Each engine.supply.layout
      fun agent => (engine.supply.travelTimes.get? agent.mode).isSome := by
  refine induct hc (Loading.sound_empty _ _) (P := fun _ t => t.Each engine.supply.layout
    fun agent => (engine.supply.travelTimes.get? agent.mode).isSome)
    (Loading.vacant_empty _ _).each ?_ h
  intro stages t call answer u _ hsound hperforms ih
  exact ih.performs hc hsound (fun _ h => h) (fun _ _ _ hlands => hlands.isSome_rule) hperforms

/-- After any calls, everyone on the network has a mode with a rule. A step which is made then
succeeds, or it fails because someone on the network has no valid travel time on a loaded link; it
never fails for another reason. -/
theorem invalid_of_failed (hb : engine.Constructed)
    (h : engine.Runs (.empty engine.supply.layout population) stages t) {orders : Orders}
    (ho : orders.Whole engine.supply.layout) (now : UInt32) :
    (∀ seat ∈ t.everyone engine.supply.layout,
      (engine.supply.travelTimes.get? seat.2.mode).isSome) ∧
    ∃ result u, engine.stepInOrder t now orders.forLinks orders.forNodes = .ok (result, u) ∧
      ∀ error, result = .error error →
        ∃ seat ∈ t.everyone engine.supply.layout, ∃ link ∈ engine.supply.layout.links,
          ∃ value, error = .invalidTravelTime seat.2.id seat.2.mode link.id value := by
  have hc := hb.closed
  have hsound := h.sound hc (Loading.sound_empty _ _)
  have hrule := h.each_rule hc
  refine ⟨hrule, ?_⟩
  obtain ⟨result, u, hu, hproceeds⟩ := hsound.stepInOrder hc ho now
  refine ⟨result, u, hu, fun error herror => ?_⟩
  -- Whoever is refused may have moved on in this very step, but has kept its id and its mode.
  have hthere : t.Each engine.supply.layout fun agent =>
      ∃ seat ∈ t.everyone engine.supply.layout, seat.2.id = agent.id ∧ seat.2.mode = agent.mode :=
    fun seat hseat => ⟨seat, hseat, rfl, rfl⟩
  obtain ⟨agent, ⟨seat, hseat, hid, hmode⟩, link, hl, hexit⟩ :=
    hthere.refused hc hsound.fits (fun _ h => h) (hproceeds.refuses error herror)
  obtain ⟨value, rfl⟩ := TravelTimes.exitTime_eq_error (hmode ▸ hrule seat hseat) hexit
  exact ⟨seat, hseat, link, hl, value, by rw [hid, hmode]⟩

/-- A step fails, an agent departs, and the next step fails because of this agent. -/
theorem invalid_of_failed_ring : ∃ stages t error u,
    Sample.ringEngine.Runs (.empty Sample.ringEngine.supply.layout ⟨2, 0⟩) stages t ∧
    stages.map (·.answer.failed) = [false, true, false] ∧
    Sample.ringEngine.step t 8 = .ok (.error error, u) ∧
    ∃ seat ∈ t.everyone Sample.ringEngine.supply.layout,
      ∃ link ∈ Sample.ringEngine.supply.layout.links,
        ∃ value, error = .invalidTravelTime seat.2.id seat.2.mode link.id value := by
  have hwhole := Orders.whole_ascending Sample.ringEngine.supply.layout
  have h : Sample.ringEngine.Runs (.empty Sample.ringEngine.supply.layout ⟨2, 0⟩)
      [⟨_, .depart (Sample.stray Sample.ann) Sample.lane 5, _, _⟩, ⟨_, .step 6, _, _⟩,
        ⟨_, .depart (Sample.stray Sample.ben) Sample.lane 7, _, _⟩] _ :=
    .call (.call (.call .start hwhole rfl) hwhole rfl) hwhole rfl
  obtain ⟨-, result, u, hu, hinvalid⟩ :=
    invalid_of_failed Sample.constructed_ringEngine h hwhole 8
  obtain ⟨error, rfl⟩ : ∃ error, result = .error error := by
    cases hu
    exact ⟨_, rfl⟩
  exact ⟨_, _, error, u, h, rfl, hu, hinvalid error rfl⟩

end Engine.Runs

end NetworkLoading
