import NetworkLoading.Proofs.GridNetworks
import NetworkLoading.Proofs.Scenario

/-!
# Scenarios which cannot be built

A scenario is built unless an agent departs too late for a time of 32 bits. Nothing else goes wrong,
whatever the settings are and whatever the dice show: the places of the grid and the ways between
them are computed in words of 32 bits, every die has a side, all names are new when they are added
and known when they are looked up, and every route has a link. Hence the settings alone tell whether
the dice can prevent a scenario.
-/

namespace NetworkLoading

open NetworkLoading.Random

/-! ## Ways in words -/

namespace Grid

/-- The words on the way to a goal, by additions and subtractions of one. No addition leaves the 32
bits, and nothing is taken away from zero. -/
inductive Strides (goal : UInt32) : UInt32 → List UInt32 → Prop
  | arrived : Strides goal goal []
  | up {word : UInt32} {rest : List UInt32} (below : word < goal)
      (fits : word.toNat + 1 < UInt32.size) (onward : Strides goal (word + 1) rest) :
      Strides goal word ((word + 1) :: rest)
  | down {word : UInt32} {rest : List UInt32} (above : goal < word) (fits : 1 ≤ word.toNat)
      (onward : Strides goal (word - 1) rest) : Strides goal word ((word - 1) :: rest)

theorem steps_self (n : Nat) : steps n n = [] := by
  rw [steps, if_pos (Nat.le_refl n), Nat.sub_self]
  rfl

theorem steps_of_lt {m n : Nat} (h : m < n) : steps m n = (m + 1) :: steps (m + 1) n := by
  obtain ⟨k, hk⟩ : ∃ k, n - m = k + 1 := ⟨n - m - 1, by omega⟩
  have hrest : n - (m + 1) = k := by omega
  rw [steps, if_pos (Nat.le_of_lt h), steps, if_pos (by omega), hk, hrest, List.range'_succ]

theorem steps_of_gt {m n : Nat} (h : n < m) : steps m n = (m - 1) :: steps (m - 1) n := by
  obtain ⟨k, rfl⟩ : ∃ k, m = n + k + 1 := ⟨m - n - 1, by omega⟩
  have hall : n + k + 1 - n = k + 1 := by omega
  rw [steps, if_neg (by omega), hall, List.range'_1_concat, List.reverse_append]
  cases k with
  | zero => exact congrArg (n :: ·) (steps_self n).symm
  | succ k =>
    have hrest : n + (k + 1) - n = k + 1 := by omega
    rw [Nat.add_sub_cancel, steps, if_neg (by omega), hrest]
    rfl

/-- In words the numbers on the way are the same as without bounds. -/
theorem exists_strides (word goal : UInt32) :
    ∃ words, Strides goal word words ∧ words.map (·.toNat) = steps word.toNat goal.toNat := by
  -- The distance to the goal falls by one with every word, upwards as well as downwards.
  induction hdist : Nat.dist word.toNat goal.toNat generalizing word with
  | zero =>
    obtain rfl : word = goal := UInt32.toNat_inj.1 (Nat.eq_of_dist_eq_zero hdist)
    exact ⟨[], .arrived, (steps_self _).symm⟩
  | succ count ih =>
    unfold Nat.dist at hdist
    rcases Nat.lt_or_gt_of_ne (show word.toNat ≠ goal.toNat by omega) with hlt | hgt
    · -- The goal is a word above this one, so that the next number is a word as well.
      have hfits : word.toNat + 1 < UInt32.size := Nat.lt_of_le_of_lt hlt goal.toNat_lt_size
      have hnext : (word + 1).toNat = word.toNat + 1 := by
        rw [UInt32.toNat_add]
        exact Nat.mod_eq_of_lt hfits
      obtain ⟨rest, honward, hrest⟩ := ih (word + 1) (by unfold Nat.dist; omega)
      refine ⟨(word + 1) :: rest, .up (UInt32.lt_iff_toNat_lt.2 hlt) hfits honward, ?_⟩
      rw [List.map_cons, hrest, hnext, steps_of_lt hlt]
    · have hfits : 1 ≤ word.toNat := Nat.one_le_of_lt hgt
      have hnext : (word - 1).toNat = word.toNat - 1 :=
        UInt32.toNat_sub_of_le _ _ (UInt32.le_iff_toNat_le.2 hfits)
      obtain ⟨rest, honward, hrest⟩ := ih (word - 1) (by unfold Nat.dist; omega)
      refine ⟨(word - 1) :: rest, .down (UInt32.lt_iff_toNat_lt.2 hgt) hfits honward, ?_⟩
      rw [List.map_cons, hrest, hnext, steps_of_gt hgt]

end Grid

/-- The places of a trip are computed in words: that next to the origin, and those on the way first
along the row and then along the column. -/
structure Trip.InWords (t : Trip) : Prop where
  next : t.origin.x + 1 < UInt32.size
  row : ∃ words, Grid.Strides (.ofNat t.destination.x) (.ofNat t.origin.x) words ∧
    words.map (·.toNat) = Grid.steps t.origin.x t.destination.x
  column : ∃ words, Grid.Strides (.ofNat t.destination.y) (.ofNat t.origin.y) words ∧
    words.map (·.toNat) = Grid.steps t.origin.y t.destination.y

theorem Trip.Possible.inWords {size window : Nat} {modes : List String} {t : Trip}
    (ht : t.Possible size window modes) (hsize : size < UInt32.size) : t.InWords := by
  have hword {n : Nat} (hn : n < size) : (UInt32.ofNat n).toNat = n :=
    UInt32.toNat_ofNat_of_lt' (hn.trans hsize)
  have hrow := Grid.exists_strides (.ofNat t.origin.x) (.ofNat t.destination.x)
  have hcolumn := Grid.exists_strides (.ofNat t.origin.y) (.ofNat t.destination.y)
  rw [hword ht.origin.x_lt, hword ht.destination.x_lt] at hrow
  rw [hword ht.origin.y_lt, hword ht.destination.y_lt] at hcolumn
  exact ⟨Nat.lt_of_le_of_lt ht.origin.x_lt hsize, hrow, hcolumn⟩

/-! ## Dice without sides -/

section Sides

variable {σ : Type} {dice other : Dice σ} (h : ∀ s n, 0 < n → other.roll s n = dice.roll s n)
include h

theorem Trip.roll_congr (s : σ) {size window : Nat} (hsize : 0 < size) (hwindow : 0 < window)
    {modes : List String} (hmodes : modes ≠ []) :
    roll other s size window modes hmodes = roll dice s size window modes hmodes := by
  have hpos : 0 < modes.length := List.length_pos_iff.2 hmodes
  simp only [roll, rollPoint, h _ _ hsize, h _ _ hwindow, h _ _ hpos]

namespace Departure

variable {c : Config}

theorem rollAll_congr (hmodes : c.multimodal.speeds.modes ≠ []) (s : σ) (ids : IdStore)
    (number count : Nat) :
    rollAll other c c.multimodal.speeds.modes hmodes s ids number count =
      rollAll dice c c.multimodal.speeds.modes hmodes s ids number count := by
  induction count generalizing s ids number with
  | zero => rfl
  | succ count ih =>
    have hside : 0 < Grid.side c.scenario := Nat.lt_of_lt_of_le Nat.two_pos (Nat.le_max_right _ _)
    have hwindow : 0 < max c.scenario.departureWindow.toNat 1 := Nat.le_max_right _ _
    simp only [rollAll, Trip.roll_congr h s hside hwindow hmodes, ih]

theorem generate_congr (s : σ) (ids : IdStore) :
    generate other s c ids = generate dice s c ids := by
  unfold generate
  dsimp only
  split
  · rfl
  · rename_i hmodes
    rw [rollAll_congr h hmodes]

end Departure

end Sides

/-! ## Trips which are not in time -/

/-- A time of more than 32 bits cannot be computed. -/
theorem Trip.departure_eq_error {t : Trip} {start : UInt32} (h : ¬ t.InTime start) (ids : IdStore)
    (number : Nat) : t.departure ids start number = .error .additionOverflow := by
  unfold departure
  exact if_pos (Nat.not_lt.1 h)

namespace Departure

variable {σ : Type} {ids : IdStore} {c : Config}

/-- The first trip which is not in time ends the drawing, since the agents before depart. -/
theorem rollAll_eq_error (dice : Dice σ) (hmodes : c.multimodal.speeds.modes ≠ []) (s : σ)
    (ids : IdStore) (number count : Nat)
    (hlate : ∃ t ∈ rollTrips dice c hmodes s count, ¬ t.InTime c.simulation.startTime) :
    rollAll dice c c.multimodal.speeds.modes hmodes s ids number count =
      .error .additionOverflow := by
  induction count generalizing s ids number with
  | zero =>
    obtain ⟨t, ht, -⟩ := hlate
    cases ht
  | succ count ih =>
    -- Either this trip is the one which is too late, or it is among the rest.
    by_cases htime : (Trip.roll dice s (Grid.side c.scenario) (window c) _ hmodes).1.InTime
      c.simulation.startTime
    · obtain ⟨first, middle, hfirst, -⟩ :=
        (possible_roll dice hmodes s).departure htime ids number
      obtain ⟨t, ht, hlate⟩ := hlate
      rcases List.mem_cons.1 ht with rfl | ht
      · exact absurd htime hlate
      · have hrest := ih _ middle (number + 1) ⟨t, ht, hlate⟩
        unfold window at hfirst hrest
        simp only [rollAll, hfirst, Except.bind, hrest, Except.map]
    · have hfirst := Trip.departure_eq_error htime ids number
      unfold window at hfirst
      simp only [rollAll, hfirst, Except.bind]

theorem generate_eq_error (dice : Dice σ) (s : σ) (ids : IdStore)
    (hlate : ∃ t ∈ trips dice s c, ¬ t.InTime c.simulation.startTime) :
    generate dice s c ids = .error .additionOverflow := by
  unfold trips at hlate
  split at hlate
  · obtain ⟨t, ht, -⟩ := hlate
    cases ht
  · rename_i hmodes
    rw [generate, dif_neg hmodes, rollAll_eq_error dice hmodes s ids 0 _ hlate]
    rfl

/-- All agents make a trip, unless there is no mode for it. -/
theorem length_trips (dice : Dice σ) (s : σ) (c : Config) : (trips dice s c).length =
    if c.multimodal.speeds.modes = [] then 0 else c.scenario.numAgents.toNat := by
  unfold trips
  split
  · rfl
  · rw [length_rollTrips]

end Departure

/-! ## Scenarios -/

namespace Scenario

variable {σ : Type} {ids : IdStore} {c : Config}

theorem build_congr {dice other : Dice σ} (h : ∀ s n, 0 < n → other.roll s n = dice.roll s n)
    (s : σ) (c : Config) (ids : IdStore) : build other s c ids = build dice s c ids := by
  simp only [build, Departure.generate_congr h]

theorem build_eq_error (dice : Dice σ) (s : σ) (ids : IdStore)
    (hlate : ∃ t ∈ Departure.trips dice s c, ¬ t.InTime c.simulation.startTime) :
    build dice s c ids = .error .additionOverflow := by
  obtain ⟨grid, hgrid, -⟩ := Grid.exists_network ids c.scenario
  rw [build, hgrid]
  simp only [Except.bind, Departure.generate_eq_error dice s grid.ids hlate, Except.map]

/-- What comes of building a scenario with some dice. -/
structure Attempt (dice : Dice σ) (s : σ) (c : Config) (ids : IdStore) : Prop where
  /-- The grid can be built, and the neighbours of its places are computed in words. -/
  side : 2 ≤ Grid.side c.scenario
  places : ∀ p ∈ Grid.points (Grid.side c.scenario), p.x + 1 < UInt32.size ∧ p.y + 1 < UInt32.size
  grid : ∃ grid, Grid.network ids c.scenario = .ok grid
  /-- What a die without sides would show does not matter. -/
  sides : ∀ other : Dice σ, (∀ s n, 0 < n → other.roll s n = dice.roll s n) →
    build other s c ids = build dice s c ids
  /-- Every agent has somewhere to go, unless there is no mode for it. -/
  count : (Departure.trips dice s c).length =
    if c.multimodal.speeds.modes = [] then 0 else c.scenario.numAgents.toNat
  trips : ∀ t ∈ Departure.trips dice s c,
    t.Possible (Grid.side c.scenario) (Departure.window c) c.multimodal.speeds.modes ∧ t.InWords
  /-- If all depart in time, there is a scenario. -/
  built : (∀ t ∈ Departure.trips dice s c, t.InTime c.simulation.startTime) →
    ∃ scenario later, build dice s c ids = .ok (scenario, later) ∧
      scenario.departures.length = (Departure.trips dice s c).length ∧
      scenario.Planned c.multimodal.speeds.modes later
  /-- If one departs too late, the only thing that goes wrong is the sum which is its time. -/
  late : (∃ t ∈ Departure.trips dice s c, ¬ t.InTime c.simulation.startTime) →
    build dice s c ids = .error .additionOverflow

theorem attempt (dice : Dice σ) (s : σ) (c : Config) (ids : IdStore) : Attempt dice s c ids where
  side := Nat.le_max_right _ _
  places := by
    intro p hp
    obtain ⟨hx, hy⟩ := Grid.mem_points.1 hp
    have hside := Grid.side_lt c.scenario
    exact ⟨Nat.lt_of_le_of_lt hx hside, Nat.lt_of_le_of_lt hy hside⟩
  grid := by
    obtain ⟨grid, hgrid, -⟩ := Grid.exists_network ids c.scenario
    exact ⟨grid, hgrid⟩
  sides := fun _ h => build_congr h s c ids
  count := Departure.length_trips dice s c
  trips := fun _ ht =>
    have hpossible := Departure.possible_of_mem_trips ht
    ⟨hpossible, hpossible.inWords (Grid.side_lt c.scenario)⟩
  built := fun htime => exists_build_of_inTime dice s htime ids
  late := build_eq_error dice s ids

/-- Dice which always show the greatest number. -/
def greatest : Dice Unit where
  roll _ n := (n - 1, ())
  roll_lt _ _ h := Nat.sub_one_lt_of_lt h

/-- If departures could be drawn too late, the greatest numbers draw one. -/
theorem late_greatest (hmodes : c.multimodal.speeds.modes ≠ []) (hagents : c.scenario.numAgents ≠ 0)
    (hlate : UInt32.size < c.simulation.startTime.toNat + Departure.window c) :
    ∃ t ∈ Departure.trips greatest () c, ¬ t.InTime c.simulation.startTime := by
  obtain ⟨count, hcount⟩ : ∃ count, c.scenario.numAgents.toNat = count + 1 :=
    Nat.exists_eq_succ_of_ne_zero fun hzero => hagents (UInt32.toNat_inj.1 hzero)
  let first := (Trip.roll greatest () (Grid.side c.scenario) (Departure.window c) _ hmodes).1
  have hdelay : first.delay = Departure.window c - 1 := rfl
  have hmem : first ∈ Departure.trips greatest () c := by
    rw [Departure.trips, dif_neg hmodes, hcount]
    exact List.mem_cons_self
  refine ⟨first, hmem, ?_⟩
  rw [Trip.InTime, hdelay]
  omega

/-- A scenario is built unless one of its agents departs too late for a time of 32 bits; then this
sum is what goes wrong. Hence the settings for which every stream of numbers gives a scenario are
those without agents and those whose window of departures ends in time. -/
theorem build_unless_late (ids : IdStore) (c : Config) :
    (∀ {σ : Type} (dice : Dice σ) (s : σ), Attempt dice s c ids) ∧
    ((∀ (σ : Type) (dice : Dice σ) (s : σ), ∃ built, build dice s c ids = .ok built) ↔
      c.multimodal.speeds.modes = [] ∨ c.scenario.numAgents = 0 ∨
        c.simulation.startTime.toNat + Departure.window c ≤ UInt32.size) := by
  refine ⟨fun dice s => attempt dice s c ids, fun hall => ?_, fun hsafe σ dice s => ?_⟩
  · -- With agents and a window which ends too late, the greatest numbers give no scenario.
    by_contra hnever
    simp only [not_or, not_le] at hnever
    obtain ⟨hmodes, hagents, hlate⟩ := hnever
    obtain ⟨built, hbuilt⟩ := hall Unit greatest ()
    rw [build_eq_error greatest () ids (late_greatest hmodes hagents hlate)] at hbuilt
    cases hbuilt
  · have hattempt := attempt dice s c ids
    have htime : ∀ t ∈ Departure.trips dice s c, t.InTime c.simulation.startTime := by
      intro t ht
      have hsome := List.length_pos_of_mem ht
      rw [hattempt.count] at hsome
      rcases hsafe with hmodes | hagents | hwindow
      · rw [if_pos hmodes] at hsome
        cases hsome
      · rw [hagents, UInt32.toNat_zero, ite_self] at hsome
        cases hsome
      · exact (hattempt.trips t ht).1.inTime hwindow
    obtain ⟨scenario, later, hbuild, -⟩ := hattempt.built htime
    exact ⟨(scenario, later), hbuild⟩

end Scenario

namespace Sample

/-- One agent, who may depart in the last second of 32 bits or in the one after it. -/
def lastSecond : Config where
  simulation := { startTime := 4294967295 }
  multimodal := { speeds := Speeds.empty.insert "walk" 1 }
  scenario := { gridSize := 2, numAgents := 1, departureWindow := 2, seed := 42 }

/-- The same agent a second earlier. -/
def secondLast : Config :=
  { lastSecond with simulation.startTime := 4294967294 }

/-- The dice of the seed draw the later one of the two seconds. -/
theorem exists_late_trip :
    ∃ t ∈ Departure.trips seeded (.ofSeed lastSecond.scenario.seed) lastSecond,
      ¬ t.InTime lastSecond.simulation.startTime := by
  decide +kernel

end Sample

theorem Scenario.build_unless_late_walk :
    build seeded (.ofSeed Sample.lastSecond.scenario.seed) Sample.lastSecond .empty =
      .error .additionOverflow ∧
    ∃ scenario later,
      build seeded (.ofSeed Sample.secondLast.scenario.seed) Sample.secondLast .empty =
        .ok (scenario, later) ∧ scenario.departures.length = 1 := by
  obtain ⟨hlate, -⟩ := build_unless_late .empty Sample.lastSecond
  obtain ⟨hearlier, -⟩ := build_unless_late .empty Sample.secondLast
  obtain ⟨scenario, later, hbuild, hlength, -⟩ :=
    (hearlier seeded (.ofSeed Sample.secondLast.scenario.seed)).built (by decide +kernel)
  exact ⟨(hlate seeded _).late Sample.exists_late_trip, scenario, later, hbuild,
    hlength.trans (Departure.length_trips _ _ _)⟩

/-- There are settings and a seed which give no scenario. -/
theorem Sample.build_lastSecond :
    Scenario.build seeded (.ofSeed lastSecond.scenario.seed) lastSecond .empty =
      .error .additionOverflow :=
  Scenario.build_eq_error _ _ .empty exists_late_trip

end NetworkLoading
