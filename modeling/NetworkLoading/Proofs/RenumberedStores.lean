import NetworkLoading.Proofs.RenumberedNetworks
import NetworkLoading.Proofs.Stores
import NetworkLoading.TravelTime.FreeSpeed

/-!
# Stores with other numbers

Two stores in which the same names were created, each in an order of its own, give these names
different numbers. They remain stores of the same names when the same names are created in both,
and new names get the same number in both.
-/

namespace NetworkLoading

variable {f : Renumbering} {kind : IdKind}

namespace IdStore

variable {s t : IdStore}

/-- The same names under other numbers. Names which are created later have the same number. -/
structure Renumbered (f : Renumbering) (s t : IdStore) : Prop where
  perm : ∀ kind, (t.names kind).Perm (s.names kind)
  names : ∀ kind i, (t.names kind)[f.numbers kind i]? = (s.names kind)[i]?
  fresh : ∀ kind i, (s.names kind).length ≤ i → f.numbers kind i = i

/-- The number in one store of the name which has a number in another one. -/
def numbersIn (s t : IdStore) : Numbers :=
  fun kind i => ((s.names kind)[i]?.map (t.names kind).idxOf).getD i

theorem numbersIn_of_lt {i : Nat} (hi : i < (s.names kind).length) :
    numbersIn s t kind i = (t.names kind).idxOf (s.names kind)[i] := by
  simp [numbersIn, List.getElem?_eq_getElem hi]

theorem numbersIn_of_le {i : Nat} (hi : (s.names kind).length ≤ i) : numbersIn s t kind i = i := by
  simp [numbersIn, List.getElem?_eq_none hi]

theorem numbersIn_lt (hp : (t.names kind).Perm (s.names kind)) {i : Nat}
    (hi : i < (s.names kind).length) : numbersIn s t kind i < (s.names kind).length := by
  rw [numbersIn_of_lt hi, ← hp.length_eq]
  exact List.idxOf_lt_length_iff.2 (hp.mem_iff.2 (List.getElem_mem hi))

theorem numbersIn_injective (hs : (s.names kind).Nodup) (hp : (t.names kind).Perm (s.names kind)) :
    Function.Injective (numbersIn s t kind) := by
  intro i j he
  -- numbers of names go to numbers of names, and all greater ones stay
  rcases Nat.lt_or_ge i (s.names kind).length with hi | hi <;>
    rcases Nat.lt_or_ge j (s.names kind).length with hj | hj
  · rw [numbersIn_of_lt hi, numbersIn_of_lt hj,
      List.idxOf_inj (hp.mem_iff.2 (List.getElem_mem hi))] at he
    exact (List.getElem_inj hs).1 he
  · have hlt := numbersIn_lt hp hi
    rw [he, numbersIn_of_le hj] at hlt
    omega
  · have hlt := numbersIn_lt hp hj
    rw [← he, numbersIn_of_le hi] at hlt
    omega
  · rwa [numbersIn_of_le hi, numbersIn_of_le hj] at he

/-- Stores of the same names are the same under other numbers. -/
theorem exists_renumbered (hp : ∀ kind, (t.names kind).Perm (s.names kind)) :
    ∃ f, s.Renumbered f t := by
  refine ⟨⟨numbersIn s t, fun kind => numbersIn_injective (s.nodup_names kind) (hp kind)⟩, hp,
    fun kind i => ?_, fun kind i => numbersIn_of_le⟩
  change (t.names kind)[numbersIn s t kind i]? = (s.names kind)[i]?
  rcases Nat.lt_or_ge i (s.names kind).length with hi | hi
  · have hidx : (t.names kind).idxOf (s.names kind)[i] < (t.names kind).length :=
      List.idxOf_lt_length_iff.2 ((hp kind).mem_iff.2 (List.getElem_mem hi))
    rw [numbersIn_of_lt hi, List.getElem?_eq_getElem hidx, List.getElem_idxOf hidx,
      List.getElem?_eq_getElem hi]
  · rw [numbersIn_of_le hi, List.getElem?_eq_none hi, List.getElem?_eq_none]
    rwa [(hp kind).length_eq]

namespace Renumbered

theorem issued (h : Renumbered f s t) {id : Id kind} (hid : s.Issued id) :
    t.Issued (id.renumber f) :=
  (h.names kind id.index).trans hid

theorem find? (h : Renumbered f s t) (kind : IdKind) (name : String) :
    t.find? kind name = (s.find? kind name).map (·.renumber f) := by
  cases hfound : s.find? kind name with
  | some id =>
    obtain ⟨rfl, hid⟩ := find?_eq_some_iff.1 hfound
    exact find?_eq_some_of_issued (h.issued hid)
  | none =>
    have hnew : name ∉ t.names kind := fun hmem =>
      find?_eq_none_iff.1 hfound ((h.perm kind).mem_iff.1 hmem)
    exact find?_eq_none_iff.2 hnew

theorem append (h : Renumbered f s t) {name : String}
    (hs : (s.typed kind).find? name = none) (ht : (t.typed kind).find? name = none) :
    Renumbered f (s.append name kind hs) (t.append name kind ht) := by
  refine ⟨fun other => ?_, fun other i => ?_, fun other i hi => ?_⟩
  · by_cases he : kind = other
    · subst he
      rw [names_append_self, names_append_self]
      exact (h.perm kind).append_right _
    · rw [names_append_of_ne _ _ he, names_append_of_ne _ _ he]
      exact h.perm other
  · by_cases he : kind = other
    · subst he
      have hlength := (h.perm kind).length_eq
      rw [names_append_self, names_append_self]
      -- Old indices are permuted as before; the new one is the length on both sides.
      rcases Nat.lt_or_ge i (s.names kind).length with hi | hi
      · have hname := h.names kind i
        rw [List.getElem?_eq_getElem hi] at hname
        have hlt := (List.getElem?_eq_some_iff.1 hname).1
        rw [List.getElem?_append_left hlt, List.getElem?_append_left hi, h.names kind i]
      · rw [h.fresh kind i hi, List.getElem?_append_right (hlength ▸ hi),
          List.getElem?_append_right hi, hlength]
    · rw [names_append_of_ne _ _ he, names_append_of_ne _ _ he]
      exact h.names other i
  · exact h.fresh other i (Nat.le_trans (extends_append hs other).length_le hi)

end Renumbered

/-! ## Creating ids -/

/-- What is made in two stores is the same under other numbers, and so are the stores, which have
all ids they had. -/
structure Yields {α β : Type} (f : Renumbering) (g : α → β) (s : IdStore) (x : α × IdStore)
    (y : β × IdStore) : Prop where
  value : y.1 = g x.1
  stores : x.2.Renumbered f y.2
  grown : x.2.Extends s

/-- What holds of the same thing made in stores that are the same holds of what is made. -/
@[elab_as_elim]
theorem Yields.elim {α β : Type} {g : α → β} {P : α × IdStore → β × IdStore → Prop}
    {x : α × IdStore} {y : β × IdStore} (h : Yields f g s x y)
    (hP : ∀ a s' t', s'.Renumbered f t' → s'.Extends s → P (a, s') (g a, t')) : P x y := by
  obtain ⟨a, s'⟩ := x
  obtain ⟨_, t'⟩ := y
  obtain ⟨rfl, hstores, hgrown⟩ := h
  exact hP a s' t' hstores hgrown

theorem Renumbered.create (h : Renumbered f s t) (kind : IdKind) (name : String) :
    Yields f (·.renumber f) s (s.create kind name) (t.create kind name) := by
  have hfound := h.find? kind name
  cases hs : s.find? kind name with
  | some id =>
    rw [hs] at hfound
    rw [create_of_find? s hs, create_of_find? t hfound]
    exact ⟨rfl, h, .refl s⟩
  | none =>
    rw [hs] at hfound
    obtain ⟨hnew, hcreate⟩ := create_of_new s hs
    obtain ⟨hnew', hcreate'⟩ := create_of_new t hfound
    rw [hcreate, hcreate']
    -- both stores have as many names, so the new one gets the same number in both
    refine ⟨?_, h.append hnew hnew', extends_append hnew⟩
    rw [Id.renumber, Id.mk.injEq]
    exact ⟨(h.perm kind).length_eq.trans (h.fresh kind _ (Nat.le_refl _)).symm, rfl⟩

theorem Renumbered.createAll (h : Renumbered f s t) (kind : IdKind) (names : List String) :
    Yields f (·.map (·.renumber f)) s (s.createAll kind names) (t.createAll kind names) := by
  induction names generalizing s t with
  | nil => exact ⟨rfl, h, .refl s⟩
  | cons name rest ih =>
    have hfirst := h.create kind name
    have hrest := ih hfirst.stores
    refine ⟨?_, hrest.stores, hfirst.grown.trans hrest.grown⟩
    exact congrArg₂ List.cons hfirst.value hrest.value

end IdStore

/-! ## Modes and their rules -/

/-- The modes on the network are the same under other numbers, and no two of them are called the
same. -/
theorem Config.networkModes_renumbered {s t : IdStore} (h : s.Renumbered f t) (config : Config) :
    IdStore.Yields f (·.map (·.renumber f)) s (config.networkModes s) (config.networkModes t) ∧
      Id.Apart (config.networkModes s).1 := by
  have hcreated := h.createAll .mode config.modeNames
  constructor
  · refine ⟨?_, hcreated.stores, hcreated.grown⟩
    exact (congrArg List.eraseDups hcreated.value).trans
      (eraseDups_map (Id.renumber_injective f) _)
  · have hissued := (s.createsAll .mode config.modeNames).issued
    exact Id.apart_of_issued (fun mode hmode => hissued mode (List.mem_eraseDups.1 hmode))
      (nodup_eraseDups _)

namespace TravelTimes

/-- Adding rules for modes which are given by name comes to the same under other numbers. -/
theorem Renumbered.insertNamed {s t : IdStore} (hids : s.Renumbered f t) {a b : TravelTimes}
    (h : a.Renumbered f b) (hmodes : ∀ mode ∈ a.rules.map (·.1), s.Issued mode)
    {entries : List (String × TravelTime)} (hblind : ∀ entry ∈ entries, entry.2.Blind) :
    (a.insertNamed s entries).1.Renumbered f (b.insertNamed t entries).1 ∧
      (a.insertNamed s entries).2.Renumbered f (b.insertNamed t entries).2 ∧
      (a.insertNamed s entries).2.Extends s ∧
      ∀ mode ∈ (a.insertNamed s entries).1.rules.map (·.1),
        (a.insertNamed s entries).2.Issued mode := by
  induction entries generalizing s t a b with
  | nil => exact ⟨h, hids, .refl s, hmodes⟩
  | cons entry rest ih =>
    obtain ⟨name, rule⟩ := entry
    obtain ⟨hrule, hrest⟩ := List.forall_mem_cons.1 hblind
    have hmode := hids.create .mode name
    have hcreates := s.creates .mode name
    have hinsert := h.insert (s.create .mode name).1 hrule
    rw [← hmode.value] at hinsert
    -- The next entry needs the modes so far issued, the new one among them.
    have hissued : ∀ mode ∈ (a.insert (s.create .mode name).1 rule).rules.map (·.1),
        (s.create .mode name).2.Issued mode := by
      intro mode hmem
      rw [keys_insert] at hmem
      split at hmem
      · exact (hmodes mode hmem).mono hcreates.grown
      · rcases List.mem_append.1 hmem with hold | hself
        · exact (hmodes mode hold).mono hcreates.grown
        · exact List.mem_singleton.1 hself ▸ hcreates.issued
    obtain ⟨hrules, hstores, hgrown, hall⟩ := ih hmode.stores hinsert hissued hrest
    exact ⟨hrules, hstores, hcreates.grown.trans hgrown, hall⟩

end TravelTimes

end NetworkLoading
