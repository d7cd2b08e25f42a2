import NetworkLoading.Proofs.RenumberedStates

/-!
# Listings

A collection whose elements are told apart by ids lists them in an order which may depend on the
numbers of the ids. Listing the collections of a state in another way does not change what the state
is.
-/

namespace NetworkLoading

/-- How collections list their elements, each of which has an id. -/
structure Listing where
  list {kind : IdKind} {α : Type} (key : α → Id kind) : List α → List α
  perm {kind : IdKind} {α : Type} (key : α → Id kind) (xs : List α) : (list key xs).Perm xs

/-- Elements are listed as they come. -/
def Listing.asGiven : Listing where
  list _ xs := xs
  perm _ _ := .refl _

/-- Elements are listed in the order of their numbers. -/
def Listing.byNumber : Listing where
  list key xs := sortBy (fun a b => (key a).index < (key b).index) xs
  perm _ xs := sortBy_perm _ xs

variable {f : Renumbering} {kind : IdKind}

namespace ActiveSets

/-- The same sets, listed in another way. -/
def relisted (listing : Listing) (a : ActiveSets kind) : ActiveSets kind :=
  ⟨a.parts.map (listing.list id)⟩

theorem ids_relisted_perm (listing : Listing) (a : ActiveSets kind) (part : Nat) :
    ((a.relisted listing).ids part).Perm (a.ids part) := by
  simp only [ids, relisted, List.getElem?_map]
  cases a.parts[part]? with
  | none => exact .refl _
  | some ids => exact listing.perm id ids

theorem Renumbered.relisted {all : List (Id kind)} {a b : ActiveSets kind}
    (h : Renumbered f all a b) (first second : Listing) :
    Renumbered f all (a.relisted first) (b.relisted second) := by
  refine ⟨?_, fun part => ?_, fun part => ?_, fun part => ?_⟩
  · simp only [ActiveSets.relisted, List.length_map, h.length_eq]
  · exact (ids_relisted_perm second b part).trans
      ((h.ids part).trans ((ids_relisted_perm first a part).symm.map _))
  · intro id hid
    exact h.subset part ((ids_relisted_perm first a part).mem_iff.1 hid)
  · exact (ids_relisted_perm first a part).nodup_iff.2 (h.nodup part)

end ActiveSets

/-- The same table, listed in another way. -/
def Table.relisted {α : Type} (listing : Listing) (table : Table kind α) : Table kind α :=
  { table with keys := listing.list id table.keys }

/-- The same traffic with all its collections listed in another way. -/
def Traffic.relisted (listing : Listing) (t : Traffic) : Traffic where
  links := t.links.relisted listing
  nodes := t.nodes.relisted listing
  activeLinks := t.activeLinks.relisted listing
  activeNodes := t.activeNodes.relisted listing
  onNetwork := t.onNetwork

/-- The same state with all its collections listed in another way. -/
def Loading.relisted (listing : Listing) (s : Loading) : Loading :=
  { s with traffic := s.traffic.relisted listing }

/-- How the collections are listed makes no difference to which states are the same. -/
theorem Loading.Renumbered.relisted {l : Layout} {s t : Loading} (h : s.Renumbered f l t)
    (first second : Listing) : (s.relisted first).Renumbered f l (t.relisted second) := by
  have hfirst := first.perm id s.traffic.links.keys
  have hsecond := second.perm id t.traffic.links.keys
  refine ⟨⟨h.traffic.links, h.traffic.nodes, hfirst.trans h.traffic.keys, ?_,
    h.traffic.activeLinks.relisted first second, h.traffic.activeNodes.relisted first second,
    h.traffic.onNetwork⟩, h.record⟩
  exact hsecond.trans (h.traffic.keys_map.trans (hfirst.symm.map _))

namespace TravelTimes

/-- The same rules, listed in another way. -/
def relisted (listing : Listing) (t : TravelTimes) : TravelTimes :=
  { rules := listing.list (·.1) t.rules }

theorem modes_relisted_perm (listing : Listing) (t : TravelTimes) :
    ((t.relisted listing).rules.map (·.1)).Perm (t.rules.map (·.1)) :=
  (listing.perm (fun rule : ModeId × TravelTime => rule.1) t.rules).map _

theorem Renumbered.relisted {a b : TravelTimes} (h : a.Renumbered f b) (first second : Listing) :
    (a.relisted first).Renumbered f (b.relisted second) := by
  have hfirst : (a.relisted first).rules.Perm a.rules :=
    first.perm (fun rule : ModeId × TravelTime => rule.1) a.rules
  have hsecond : (b.relisted second).rules.Perm b.rules :=
    second.perm (fun rule : ModeId × TravelTime => rule.1) b.rules
  have hget (mode : ModeId) : (a.relisted first).get? mode = a.get? mode :=
    get?_eq_of_perm h.nodup hfirst mode
  have hnodup : (b.rules.map (·.1)).Nodup :=
    h.modes.nodup_iff.2 (h.nodup.map (Id.renumber_injective f))
  have hmodes := modes_relisted_perm first a
  refine ⟨fun mode => ?_, fun mode rule => ?_, ?_, hmodes.nodup_iff.2 h.nodup⟩
  · rw [get?_eq_of_perm hnodup hsecond, hget, h.get?]
  · rw [hget]
    exact h.blind mode rule
  · exact (modes_relisted_perm second b).trans (h.modes.trans (hmodes.symm.map _))

end TravelTimes

end NetworkLoading
