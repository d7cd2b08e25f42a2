import Mathlib.Data.List.Nodup
import NetworkLoading.Id.Store

/-!
# Ids of one store

Ids which one store gave out are apart: no two of them share their number or their name. Sorting
such ids yields the same list whatever their order was, so the ids of a part are sorted as they
stand in the sorted whole.
-/

namespace NetworkLoading

variable {kind : IdKind}

/-! ## Ids from a store -/

namespace IdStore

/-- The store in which names were created, those of one kind after those of another. -/
def ofNames (names : List (IdKind × List String)) : IdStore :=
  names.foldl (fun ids entry => (ids.createAll entry.1 entry.2).2) .empty

/-- The store gave out this id. -/
def Issued (s : IdStore) (id : Id kind) : Prop :=
  (s.names kind)[id.index]? = some id.name

/-- An id which was given out stands at the place which its number names. -/
theorem issued_iff {s : IdStore} {id : Id kind} :
    s.Issued id ↔ (s.typed kind).ids[id.index]? = some ⟨id.index, id.name⟩ := by
  rw [Issued, names, List.getElem?_map, Option.map_eq_some_iff]
  constructor
  · rintro ⟨stored, hstored, hname⟩
    rw [hstored, ← (s.typed kind).index_eq id.index stored hstored, ← hname]
  · intro hstored
    exact ⟨_, hstored, rfl⟩

theorem Issued.eq_of_index {s : IdStore} {a b : Id kind} (ha : s.Issued a) (hb : s.Issued b)
    (h : a.index = b.index) : a = b := by
  obtain ⟨i, x⟩ := a
  obtain ⟨j, y⟩ := b
  obtain rfl : i = j := h
  have hxy : some x = some y := ha.symm.trans hb
  cases hxy
  rfl

/-- A name has one number only, since the store keeps one for it. -/
theorem Issued.eq_of_name {s : IdStore} {a b : Id kind} (ha : s.Issued a) (hb : s.Issued b)
    (h : a.name = b.name) : a = b :=
  ha.eq_of_index hb ((s.typed kind).indexed.place_inj ha (h ▸ hb))

theorem nodup_names (s : IdStore) (kind : IdKind) : (s.names kind).Nodup :=
  (s.typed kind).indexed.nodup

theorem find?_eq_some_iff {s : IdStore} {name : String} {id : Id kind} :
    s.find? kind name = some id ↔ id.name = name ∧ s.Issued id := by
  have hfound (stored : StoredId) : (s.typed kind).find? name = some stored ↔
      stored ∈ (s.typed kind).ids ∧ stored.name = name := (s.typed kind).indexed.find?_eq_some
  rw [find?_eq_typed, Option.map_eq_some_iff, issued_iff]
  constructor
  · rintro ⟨stored, hstored, rfl⟩
    obtain ⟨hmem, hname⟩ := (hfound stored).1 hstored
    obtain ⟨i, hi⟩ := List.mem_iff_getElem?.1 hmem
    obtain rfl := (s.typed kind).index_eq i stored hi
    exact ⟨hname, hi⟩
  · rintro ⟨hname, hplace⟩
    exact ⟨⟨id.index, id.name⟩, (hfound _).2 ⟨List.mem_of_getElem? hplace, hname⟩, rfl⟩

theorem find?_eq_none_iff {s : IdStore} {name : String} :
    s.find? kind name = none ↔ name ∉ s.names kind := by
  rw [find?_eq_typed, Option.map_eq_none_iff]
  exact (s.typed kind).indexed.find?_eq_none

end IdStore

/-! ## Ids which are apart -/

namespace Id

/-- No two of the ids have the same number or the same name. -/
def Apart (ids : List (Id kind)) : Prop :=
  ids.Pairwise fun a b => a.index ≠ b.index ∧ a.name ≠ b.name

theorem apart_of_issued {s : IdStore} {ids : List (Id kind)}
    (hi : ∀ id ∈ ids, s.Issued id) (hn : ids.Nodup) : Apart ids := by
  refine hn.imp_of_mem fun {a b} ha hb hne => ⟨fun h => hne ?_, fun h => hne ?_⟩
  · exact (hi a ha).eq_of_index (hi b hb) h
  · exact (hi a ha).eq_of_name (hi b hb) h

namespace Apart

variable {ids : List (Id kind)}

theorem nodup (h : Apart ids) : ids.Nodup :=
  h.imp fun hab he => hab.1 (congrArg Id.index he)

theorem sublist (h : Apart ids) {some : List (Id kind)} (hs : some.Sublist ids) : Apart some :=
  List.Pairwise.sublist hs h

/-- Distinct ids differ in their numbers and in their names. -/
theorem ne (h : Apart ids) {a b : Id kind} (ha : a ∈ ids) (hb : b ∈ ids) (hab : a ≠ b) :
    a.index ≠ b.index ∧ a.name ≠ b.name := by
  have hto : ids.Pairwise fun a b => a ≠ b → a.index ≠ b.index ∧ a.name ≠ b.name := by
    refine List.Pairwise.imp ?_ h
    intro a b hab _
    exact hab
  have hfrom : ids.Pairwise (flip fun a b => a ≠ b → a.index ≠ b.index ∧ a.name ≠ b.name) := by
    refine List.Pairwise.imp ?_ h
    intro a b hab _
    exact ⟨hab.1.symm, hab.2.symm⟩
  exact hto.forall_of_forall_of_flip (fun _ _ he => absurd rfl he) hfrom ha hb hab

theorem of_subset (h : Apart ids) {part : List (Id kind)} (hn : part.Nodup) (hp : part ⊆ ids) :
    Apart part :=
  hn.imp_of_mem fun ha hb hne => h.ne (hp ha) (hp hb) hne

theorem perm (h : Apart ids) {listed : List (Id kind)} (hp : listed.Perm ids) : Apart listed :=
  h.of_subset (hp.nodup_iff.2 h.nodup) hp.subset

end Apart

/-- Among elements with distinct ids, the one with a given id is found. -/
theorem find?_eq_some {α : Type} {key : α → Id kind} {xs : List α} (hn : (xs.map key).Nodup)
    {x : α} (h : x ∈ xs) : xs.find? (key · = key x) = some x := by
  cases hf : xs.find? (key · = key x) with
  | none =>
    have hne := List.find?_eq_none.1 hf x h
    simp at hne
  | some y =>
    have hy : key y = key x := by simpa using List.find?_some hf
    rw [List.inj_on_of_nodup_map hn (List.mem_of_find?_eq_some hf) h hy]

/-! ## Order -/

/-- Names decide the order of ids whose numbers tell the same as their names. -/
theorem before_eq {a b : Id kind} (h : a.index = b.index → a.name = b.name) :
    a.before b = decide (a.name < b.name) := by
  unfold before cmp
  split
  · rename_i he
    have hn : ¬ a.name < b.name := by rw [h he]; exact String.lt_irrefl _
    simp [hn]
  · rw [Bool.eq_iff_iff, beq_iff_eq, decide_eq_true_iff]
    exact compareOfLessAndEq_eq_lt

theorem name_lt_of_not_lt {a b : Id kind} (hne : a.name ≠ b.name) (h : ¬ a.name < b.name) :
    b.name < a.name :=
  Decidable.not_not.1 fun hb => hne (String.le_antisymm hb h)

/-- Sorted ids stand in the order of their names. -/
theorem ascending_sort {ids : List (Id kind)} (h : Apart ids) :
    (sort ids).Pairwise fun a b => a.name < b.name := by
  refine pairwise_sortBy (R := fun a b : Id kind => a.name < b.name) (fun _ _ _ => String.lt_trans)
    (h.imp fun {a b} hab => ?_)
  rw [before_eq fun he => absurd he.symm hab.1]
  split
  · rename_i hlt
    exact of_decide_eq_true hlt
  · rename_i hle
    exact name_lt_of_not_lt hab.2.symm fun hlt => hle (decide_eq_true hlt)

/-- The ids of a part are sorted as they stand in the sorted whole. -/
theorem sort_eq_filter {ids part : List (Id kind)} (h : Apart ids) (hn : part.Nodup)
    (hp : ∀ a ∈ part, a ∈ ids) : sort part = (sort ids).filter (· ∈ part) := by
  have hpart : Apart part := h.of_subset hn hp
  refine List.Perm.eq_of_pairwise ?_ (ascending_sort hpart)
    ((ascending_sort h).sublist List.filter_sublist) ?_
  · intro a b _ _ hab hba
    exact absurd hba (String.lt_asymm hab)
  · have hnodup : ((sort ids).filter (· ∈ part)).Nodup :=
      ((sortBy_perm before ids).nodup_iff.2 h.nodup).sublist List.filter_sublist
    refine (sortBy_perm before part).trans ((List.perm_ext_iff_of_nodup hn hnodup).2 ?_)
    intro a
    simp only [List.mem_filter, decide_eq_true_eq, sort, mem_sortBy]
    exact ⟨fun ha => ⟨hp a ha, ha⟩, And.right⟩

theorem sort_filter {ids : List (Id kind)} (h : Apart ids) (keep : Id kind → Bool) :
    sort (ids.filter keep) = (sort ids).filter keep := by
  have hsub : (ids.filter keep).Sublist ids := List.filter_sublist
  rw [sort_eq_filter h (h.nodup.sublist hsub) hsub.subset]
  apply List.filter_congr
  intro id hid
  have hmem : id ∈ ids := mem_sortBy.1 hid
  rw [Bool.eq_iff_iff, decide_eq_true_eq, List.mem_filter, and_iff_right hmem]

/-- The order in which ids are listed does not show when they are sorted. -/
theorem sort_eq_of_perm {ids listed : List (Id kind)} (h : Apart ids) (hp : listed.Perm ids) :
    sort listed = sort ids := by
  rw [sort_eq_filter h (hp.nodup_iff.2 h.nodup) fun id hid => hp.mem_iff.1 hid]
  refine List.filter_eq_self.2 fun id hid => decide_eq_true ?_
  exact hp.mem_iff.2 (mem_sortBy.1 hid)

/-! ## Tours -/

/-- The ids which are at home in a part, sorted. -/
def tour (all : List (Id kind)) (home : Id kind → Nat) (part : Nat) : List (Id kind) :=
  (sort all).filter (home · = part)

variable {all : List (Id kind)} {home : Id kind → Nat}

theorem mem_tour {part : Nat} {id : Id kind} :
    id ∈ tour all home part ↔ id ∈ all ∧ home id = part := by
  rw [tour, List.mem_filter, decide_eq_true_eq, sort, mem_sortBy]

theorem nodup_tour (h : all.Nodup) (part : Nat) : (tour all home part).Nodup :=
  ((sortBy_perm before all).nodup_iff.2 h).filter _

/-- No id is in two parts. -/
theorem nodup_tours (h : all.Nodup) {parts : List Nat} (hn : parts.Nodup) :
    (parts.flatMap (tour all home)).Nodup := by
  refine List.nodup_flatMap.2 ⟨fun part _ => nodup_tour h part, hn.imp fun hne => ?_⟩
  intro id ha hb
  exact hne ((mem_tour.1 ha).2.symm.trans (mem_tour.1 hb).2)

theorem tours_subset (parts : List Nat) : parts.flatMap (tour all home) ⊆ all := by
  intro id hid
  obtain ⟨part, -, hid⟩ := List.mem_flatMap.1 hid
  exact (mem_tour.1 hid).1

/-- Tours through all parts come to all ids, in whatever order the parts stand. -/
theorem tours_perm (h : all.Nodup) {count : Nat} (hlt : ∀ id ∈ all, home id < count)
    {parts : List Nat} (hp : parts.Perm (List.range count)) :
    (parts.flatMap (tour all home)).Perm all := by
  have hn : (parts.flatMap (tour all home)).Nodup :=
    nodup_tours h (hp.nodup_iff.2 List.nodup_range)
  apply (List.perm_ext_iff_of_nodup hn h).2
  intro id
  refine ⟨fun hid => tours_subset parts hid, fun hid => ?_⟩
  have hpart : home id ∈ parts := hp.mem_iff.2 (List.mem_range.2 (hlt id hid))
  exact List.mem_flatMap.2 ⟨_, hpart, mem_tour.2 ⟨hid, rfl⟩⟩

end Id

end NetworkLoading
