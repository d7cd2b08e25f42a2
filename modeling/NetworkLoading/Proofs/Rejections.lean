import NetworkLoading.Proofs.Runs

/-!
# Agents who are turned down

Both ways onto the network check all that can be wrong before they change anything. So whoever is
turned down comes back as before, nothing has happened, and the reason is in the agent, the link and
the time, never in what is on the network.
-/

namespace NetworkLoading

variable {engine : Engine}

namespace Engine

/-- Why an agent cannot depart on a link: the link is not loaded or, if it is, there is no rule for
the mode of the agent. -/
inductive BarsDeparture (engine : Engine) (agent : Agent) (id : LinkId) : LoadingError → Prop
  | unknownLink : id ∉ engine.supply.layout.linkIds →
      BarsDeparture engine agent id (.unknownLink id)
  | missingTravelTime : id ∈ engine.supply.layout.linkIds →
      engine.supply.travelTimes.get? agent.mode = none →
      BarsDeparture engine agent id (.missingTravelTime agent.mode)

/-- Why an agent cannot be moved onto a link: the link is not loaded or, if it is, no exit time can
be told. -/
inductive BarsEntry (engine : Engine) (agent : Agent) (id : LinkId) (now : UInt32) :
    LoadingError → Prop
  | unknownLink : id ∉ engine.supply.layout.linkIds →
      BarsEntry engine agent id now (.unknownLink id)
  | noExitTime {link : Link} {error : LoadingError} : link ∈ engine.supply.layout.links →
      link.id = id → engine.supply.travelTimes.exitTime link now agent = .error error →
      BarsEntry engine agent id now error

end Engine

namespace Landing

variable {agent : Agent} {x : Landing} {rejected : Rejected}

theorem departed_eq_error :
    x.departed agent = .error rejected ↔
      x = .refused rejected.error ∧ rejected.agent = agent := by
  obtain ⟨given, error⟩ := rejected
  cases x <;> simp [departed, eq_comm, and_comm]

theorem entered_eq_error :
    x.entered agent = .error rejected ↔
      x = .refused rejected.error ∧ rejected.agent = agent := by
  obtain ⟨given, error⟩ := rejected
  cases x <;> simp [entered, eq_comm, and_comm]

theorem exists_departed_eq_error {error : LoadingError} :
    (∃ rejected, x.departed agent = .error rejected ∧ rejected.error = error) ↔
      x = .refused error := by
  constructor
  · rintro ⟨rejected, hrejected, rfl⟩
    exact (departed_eq_error.1 hrejected).1
  · intro hrefused
    exact ⟨⟨agent, error⟩, departed_eq_error.2 ⟨hrefused, rfl⟩, rfl⟩

theorem exists_entered_eq_error {error : LoadingError} :
    (∃ rejected, x.entered agent = .error rejected ∧ rejected.error = error) ↔
      x = .refused error := by
  constructor
  · rintro ⟨rejected, hrejected, rfl⟩
    exact (entered_eq_error.1 hrejected).1
  · intro hrefused
    exact ⟨⟨agent, error⟩, entered_eq_error.2 ⟨hrefused, rfl⟩, rfl⟩

end Landing

namespace Engine

theorem departing_eq_refused {agent : Agent} {id : LinkId} {error : LoadingError} :
    engine.departing agent id = .refused error ↔ engine.BarsDeparture agent id error := by
  unfold departing
  cases hlink : engine.supply.layout.link? id with
  | none =>
    have hid : id ∉ engine.supply.layout.linkIds := Layout.link?_eq_none_iff.1 hlink
    constructor
    · rintro ⟨⟩
      exact .unknownLink hid
    · rintro (_ | ⟨hloaded, _⟩)
      · rfl
      · exact absurd hloaded hid
  | some link =>
    obtain ⟨hmem, rfl⟩ := Loading.mem_links_of_link? hlink
    have hid : link.id ∈ engine.supply.layout.linkIds := List.mem_map_of_mem hmem
    dsimp only
    split
    · rename_i hmissing
      constructor
      · rintro ⟨⟩
        exact .missingTravelTime hid (Option.isNone_iff_eq_none.1 hmissing)
      · rintro (hunknown | _)
        · exact absurd hid hunknown
        · rfl
    · rename_i hrule
      -- With the link and a rule at hand neither reason to refuse is left.
      have hnone : ¬ engine.BarsDeparture agent link.id error := by
        rintro (hunknown | ⟨_, hmissing⟩)
        · exact hunknown hid
        · exact hrule (Option.isNone_iff_eq_none.2 hmissing)
      split <;> exact ⟨nofun, fun hbars => absurd hbars hnone⟩

theorem entering_eq_refused (hc : engine.supply.layout.Closed) {agent : Agent} {id : LinkId}
    {now : UInt32} {error : LoadingError} :
    engine.entering agent id now = .refused error ↔ engine.BarsEntry agent id now error := by
  unfold entering
  cases hlink : engine.supply.layout.link? id with
  | none =>
    have hid : id ∉ engine.supply.layout.linkIds := Layout.link?_eq_none_iff.1 hlink
    constructor
    · rintro ⟨⟩
      exact .unknownLink hid
    · rintro (_ | ⟨hmem, rfl, _⟩)
      · rfl
      · exact absurd (List.mem_map_of_mem hmem) hid
  | some link =>
    obtain ⟨hmem, rfl⟩ := Loading.mem_links_of_link? hlink
    dsimp only
    constructor
    · intro hrefused
      split at hrefused
      · rename_i refusal hexit
        cases hrefused
        exact .noExitTime hmem rfl hexit
      · cases hrefused
    · rintro (hunknown | ⟨hother, hid, hexit⟩)
      · exact absurd (List.mem_map_of_mem hmem) hunknown
      · rw [hc.link_inj hother hmem hid] at hexit
        rw [hexit]

/-- After any calls, who is turned down at departing on a link or at being moved onto one is given
back as the same agent, and the state is the one before. An agent is turned down for the reasons
that there are, and for no others. -/
theorem Runs.turns_down (hb : engine.Constructed) {population : Population} {stages : List Stage}
    {t : Loading} (h : engine.Runs (.empty engine.supply.layout population) stages t)
    (agent : Agent) (id : LinkId) (now : UInt32) :
    (∃ result u, engine.depart t agent id now = .ok (result, u) ∧
      (∀ rejected, result = .error rejected → rejected.agent = agent ∧ u = t) ∧
      ∀ error, (∃ rejected, result = .error rejected ∧ rejected.error = error) ↔
        engine.BarsDeparture agent id error) ∧
    ∃ result u, engine.enter t agent id now = .ok (result, u) ∧
      (∀ rejected, result = .error rejected → rejected.agent = agent ∧ u = t) ∧
      ∀ error, (∃ rejected, result = .error rejected ∧ rejected.error = error) ↔
        engine.BarsEntry agent id now error := by
  have hc := hb.closed
  have hfits := (h.sound hc (Loading.sound_empty _ _)).fits
  refine ⟨⟨_, _, Loading.depart_eq_ok hc hfits agent id now, fun rejected hrejected => ?_,
    fun error => ?_⟩, _, _, Loading.enter_eq_ok hc hfits agent id now, fun rejected hrejected => ?_,
    fun error => ?_⟩
  · obtain ⟨hrefused, hagent⟩ := Landing.departed_eq_error.1 hrejected
    rw [hrefused]
    exact ⟨hagent, rfl⟩
  · exact Landing.exists_departed_eq_error.trans departing_eq_refused
  · obtain ⟨hrefused, hagent⟩ := Landing.entered_eq_error.1 hrejected
    rw [hrefused]
    exact ⟨hagent, rfl⟩
  · exact Landing.exists_entered_eq_error.trans (entering_eq_refused hc)

/-- A step failed and an agent is on the network when another one, who has no valid travel time, is
to be moved onto a link. -/
theorem Runs.turns_down_ring : ∃ stages t rejected,
    Sample.ringEngine.Runs (.empty Sample.ringEngine.supply.layout ⟨2, 0⟩) stages t ∧
    stages.map (·.answer.failed) = [false, true, false] ∧
    Sample.ringEngine.enter t (Sample.stray Sample.cleo) Sample.lane 8 = .ok (.error rejected, t) ∧
    rejected.agent = Sample.stray Sample.cleo ∧
    Sample.ringEngine.BarsEntry (Sample.stray Sample.cleo) Sample.lane 8 rejected.error := by
  have hwhole := Orders.whole_ascending Sample.ringEngine.supply.layout
  have h : Sample.ringEngine.Runs (.empty Sample.ringEngine.supply.layout ⟨2, 0⟩)
      [⟨_, .depart (Sample.stray Sample.ann) Sample.lane 5, _, _⟩, ⟨_, .step 6, _, _⟩,
        ⟨_, .depart (Sample.stray Sample.ben) Sample.lane 7, _, _⟩] _ :=
    .call (.call (.call .start hwhole rfl) hwhole rfl) hwhole rfl
  obtain ⟨-, result, u, hu, hback, hreason⟩ :=
    turns_down Sample.constructed_ringEngine h (Sample.stray Sample.cleo) Sample.lane 8
  obtain ⟨rejected, rfl⟩ : ∃ rejected, result = .error rejected := by
    cases hu
    exact ⟨_, rfl⟩
  obtain ⟨hagent, rfl⟩ := hback rejected rfl
  exact ⟨_, _, rejected, h, rfl, hu, hagent, (hreason _).1 ⟨rejected, rfl, rfl⟩⟩

end Engine

end NetworkLoading
