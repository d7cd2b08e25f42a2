import Mathlib.Data.List.Induction
import NetworkLoading.Proofs.Bytes
import NetworkLoading.Proofs.Stores

/-!
# What a store of ids answers

Whatever was asked of a store since it was emptied, the names of each kind have the numbers 0, 1, 2
and so on in the order in which they were first created, and what was asked about other kinds does
not matter. The ids which the store keeps of a kind and the numbers which it keeps of their names
stay inverse to each other. So an id stays what it is, and ids which one store gave out are the same
if their names are. Their order is that of the bytes of their names.
-/

namespace NetworkLoading

variable {kind other : IdKind}

namespace IdStore

/-! ## Requests -/

/-- What can be asked of a store. -/
inductive Request where
  | create (kind : IdKind) (name : String)
  | get (kind : IdKind) (index : Nat)
  | require (kind : IdKind) (name : String)
  | find (kind : IdKind) (name : String)
  | reset
deriving DecidableEq

/-- An id of any kind. -/
abbrev AnyId := Σ kind : IdKind, Id kind

/-- Answers a request: with an id, with none, or with a fault, which leaves the store as it is. -/
def answer (s : IdStore) : Request → Except Fault (Option AnyId) × IdStore
  | .create kind name =>
    let (id, s) := s.create kind name
    (.ok (some ⟨kind, id⟩), s)
  | .get kind index => ((s.get kind index).map fun id => some ⟨kind, id⟩, s)
  | .require kind name => ((s.require kind name).map fun id => some ⟨kind, id⟩, s)
  | .find kind name => (.ok ((s.find? kind name).map (⟨kind, ·⟩)), s)
  | .reset => (.ok none, s.reset)

/-- What a store is after requests, which are answered one after the other. -/
def serve (s : IdStore) (requests : List Request) : IdStore :=
  requests.foldl (fun s request => (s.answer request).2) s

/-- The names of a kind for which ids were created, after one more request. -/
def Request.record (kind : IdKind) (created : List String) : Request → List String
  | create other name => if other = kind then created ++ [name] else created
  | get .. | require .. | find .. => created
  | reset => []

/-- The names of a kind for which requests create ids, in the order of the first such request for
each name. What was created before the store was emptied is not among them. -/
def firsts (kind : IdKind) (requests : List Request) : List String :=
  (requests.foldl (Request.record kind) []).eraseDups

/-- One of the requests to an empty store was answered with an id, and the store was not emptied
later. -/
def Gave (requests : List Request) (id : Id kind) : Prop :=
  ∃ before request after, requests = before ++ request :: after ∧ .reset ∉ after ∧
    ((empty.serve before).answer request).1 = .ok (some ⟨kind, id⟩)

/-- One of the requests created an id for a name, and the store was not emptied later. -/
def Created (requests : List Request) (name : String) (id : Id kind) : Prop :=
  ∃ before after, requests = before ++ .create kind name :: after ∧ .reset ∉ after ∧
    ((empty.serve before).create kind name).1 = id

variable {s : IdStore} {requests : List Request}

/-! ## Single answers -/

/-- What a store keeps under the number of a kind, and what it answers, if the names of this kind
are those of a list and have the numbers of their places in it. -/
structure Enumerates (s : IdStore) (kind : IdKind) (names : List String) : Prop where
  types : s.types.get? kind.number = none ↔ names = []
  ids : (s.typed kind).ids = names.mapIdx StoredId.mk
  numbers : (s.typed kind).numbers.Indexes names
  create_known : ∀ id : Id kind, names[id.index]? = some id.name →
    s.create kind id.name = (id, s)
  create_new : ∀ name ∉ names, (s.create kind name).1 = ⟨names.length, name⟩
  get_eq_ok : ∀ (index : Nat) (id : Id kind), s.get kind index = .ok id ↔
    id.index = index ∧ names[index]? = some id.name
  get_eq_error : ∀ (index : Nat) (fault : Fault), s.get kind index = .error fault ↔
    names.length ≤ index ∧ fault = if names = [] then .noIdsOf kind else .noIdAt index
  find?_eq_some : ∀ (name : String) (id : Id kind), s.find? kind name = some id ↔
    id.name = name ∧ names[id.index]? = some name
  require_eq_ok : ∀ (name : String) (id : Id kind), s.require kind name = .ok id ↔
    s.find? kind name = some id
  require_eq_error : ∀ (name : String) (fault : Fault), s.require kind name = .error fault ↔
    name ∉ names ∧ fault = .noIdFor name

/-- Something is kept under a number only if there are ids of this kind. -/
def Filled (s : IdStore) : Prop :=
  ∀ number ids, s.types.get? number = some ids → ids.ids ≠ []

theorem Filled.types (hs : s.Filled) (kind : IdKind) :
    s.types.get? kind.number = none ↔ s.names kind = [] := by
  rw [names, List.map_eq_nil_iff, typed]
  cases htypes : s.types.get? kind.number with
  | none => exact iff_of_true rfl rfl
  | some ids => exact iff_of_false (Option.some_ne_none ids) (hs _ ids htypes)

theorem ids_eq (s : IdStore) (kind : IdKind) :
    (s.typed kind).ids = (s.names kind).mapIdx StoredId.mk := by
  apply List.ext_getElem?
  intro i
  rw [List.getElem?_mapIdx, names, List.getElem?_map]
  cases hstored : (s.typed kind).ids[i]? with
  | none => rfl
  | some stored =>
    -- What stands at a place has the number of this place.
    have hindex : stored.index = i := (s.typed kind).index_eq i stored hstored
    rw [← hindex]
    rfl

theorem get_of_types (h : s.types.get? kind.number ≠ none) (index : Nat) :
    s.get kind index =
      match (s.names kind)[index]? with
      | none => .error (.noIdAt index)
      | some name => .ok ⟨index, name⟩ := by
  obtain ⟨ids, hids⟩ := Option.ne_none_iff_exists'.1 h
  have htyped : s.typed kind = ids := by
    rw [typed, hids]
    rfl
  rw [get, hids, names, htyped, List.getElem?_map]
  dsimp only
  cases hstored : ids.ids[index]? with
  | none => rfl
  | some stored =>
    obtain rfl := ids.index_eq index stored hstored
    rfl

theorem get_of_names_eq_nil (hs : s.Filled) (h : s.names kind = []) (index : Nat) :
    s.get kind index = .error (.noIdsOf kind) := by
  rw [get, (hs.types kind).2 h]

theorem get_eq_ok_iff (hs : s.Filled) {index : Nat} {id : Id kind} :
    s.get kind index = .ok id ↔ id.index = index ∧ (s.names kind)[index]? = some id.name := by
  by_cases hnil : s.names kind = []
  · rw [get_of_names_eq_nil hs hnil, hnil]
    exact iff_of_false nofun fun h => nomatch h.2
  · rw [get_of_types (mt (hs.types kind).1 hnil)]
    obtain ⟨number, name⟩ := id
    cases (s.names kind)[index]? with
    | none => exact iff_of_false nofun fun h => nomatch h.2
    | some found => simp [eq_comm]

theorem get_eq_error_iff (hs : s.Filled) {index : Nat} {fault : Fault} :
    s.get kind index = .error fault ↔ (s.names kind).length ≤ index ∧
      fault = if s.names kind = [] then .noIdsOf kind else .noIdAt index := by
  by_cases hnil : s.names kind = []
  · rw [get_of_names_eq_nil hs hnil, if_pos hnil, hnil]
    simp [eq_comm]
  · rw [get_of_types (mt (hs.types kind).1 hnil), if_neg hnil, ← List.getElem?_eq_none_iff]
    cases (s.names kind)[index]? with
    | none => simp [eq_comm]
    | some found => exact iff_of_false nofun fun h => nomatch h.1

theorem Filled.enumerates (hs : s.Filled) (kind : IdKind) :
    s.Enumerates kind (s.names kind) where
  types := hs.types kind
  ids := ids_eq s kind
  numbers := (s.typed kind).indexed
  create_known _ hid := create_eq_of_issued hid
  create_new name hnew := by
    obtain ⟨_, hcreate⟩ := create_of_new s (find?_eq_none_iff.2 hnew)
    rw [hcreate]
  get_eq_ok _ _ := get_eq_ok_iff hs
  get_eq_error _ _ := get_eq_error_iff hs
  find?_eq_some name id := by
    rw [find?_eq_some_iff]
    -- An id is issued if its name stands at the place of its number.
    exact and_congr_right fun hname => by rw [Issued, hname]
  require_eq_ok name id := by
    rw [require]
    cases s.find? kind name with
    | none => simp
    | some found => simp
  require_eq_error name fault := by
    rw [require, ← find?_eq_none_iff]
    cases s.find? kind name with
    | none => simp [eq_comm]
    | some found => simp

/-! ## Names in the order of creation -/

theorem eraseDups_concat (xs : List String) (x : String) :
    (xs ++ [x]).eraseDups = if x ∈ xs then xs.eraseDups else xs.eraseDups ++ [x] := by
  rw [List.eraseDups_append]
  by_cases h : x ∈ xs
  · simp [List.removeAll, h]
  · simp [List.removeAll, h, List.eraseDups_cons]

theorem names_create (s : IdStore) (kind : IdKind) (name : String) :
    (s.create kind name).2.names kind =
      if name ∈ s.names kind then s.names kind else s.names kind ++ [name] := by
  cases hfound : s.find? kind name with
  | none =>
    obtain ⟨hnew, hcreate⟩ := create_of_new s hfound
    rw [hcreate, names_append_self, if_neg (find?_eq_none_iff.1 hfound)]
  | some id =>
    have hmem : name ∈ s.names kind := by
      obtain ⟨rfl, hid⟩ := find?_eq_some_iff.1 hfound
      exact List.mem_of_getElem? hid
    rw [create_of_find? s hfound, if_pos hmem]

theorem names_create_of_ne (s : IdStore) (h : kind ≠ other) (name : String) :
    (s.create kind name).2.names other = s.names other := by
  cases hfound : s.find? kind name with
  | none =>
    obtain ⟨hnew, hcreate⟩ := create_of_new s hfound
    rw [hcreate, names_append_of_ne s hnew h]
  | some id => rw [create_of_find? s hfound]

/-- What a request does to the names of a kind. -/
theorem names_answer {created : List String} (h : s.names kind = created.eraseDups)
    (request : Request) :
    (s.answer request).2.names kind = (request.record kind created).eraseDups := by
  cases request with
  | create own name =>
    by_cases he : own = kind
    · subst he
      simp only [answer, Request.record, ↓reduceIte, names_create, eraseDups_concat, h,
        List.mem_eraseDups]
    · simp only [answer, Request.record, if_neg he, names_create_of_ne s he, h]
  | get | require | find => exact h
  | reset => rfl

/-- What requests do to the names of a kind. -/
theorem names_serve {created : List String} (h : s.names kind = created.eraseDups)
    (requests : List Request) :
    (s.serve requests).names kind =
      (requests.foldl (Request.record kind) created).eraseDups := by
  induction requests generalizing s created with
  | nil => exact h
  | cons request rest ih => exact ih (names_answer h request)

theorem names_serve_empty (kind : IdKind) (requests : List Request) :
    (empty.serve requests).names kind = firsts kind requests :=
  names_serve (names_empty kind) requests

theorem Filled.create (hs : s.Filled) (kind : IdKind) (name : String) :
    (s.create kind name).2.Filled := by
  cases hfound : s.find? kind name with
  | some id =>
    rw [create_of_find? s hfound]
    exact hs
  | none =>
    obtain ⟨hnew, hcreate⟩ := create_of_new s hfound
    rw [hcreate]
    intro number ids hids
    rw [append, Dictionary.get?_insert] at hids
    split at hids
    · cases hids
      simp [TypedIds.push]
    · exact hs number ids hids

theorem Filled.serve (hs : s.Filled) (requests : List Request) : (s.serve requests).Filled := by
  induction requests generalizing s with
  | nil => exact hs
  | cons request rest ih =>
    apply ih
    cases request with
    | create kind name => exact hs.create kind name
    | get | require | find => exact hs
    | reset => exact nofun

/-! ## Answers to many requests -/

/-- Until it is emptied, a store keeps the ids which it has. -/
theorem extends_answer {request : Request} (h : request ≠ .reset) :
    (s.answer request).2.Extends s := by
  cases request with
  | create kind name => exact (s.creates kind name).grown
  | get | require | find => exact .refl s
  | reset => exact absurd rfl h

theorem extends_serve (h : .reset ∉ requests) : (s.serve requests).Extends s := by
  induction requests generalizing s with
  | nil => exact .refl s
  | cons request rest ih =>
    obtain ⟨hfirst, hrest⟩ := not_or.1 (mt List.mem_cons.2 h)
    exact (extends_answer (Ne.symm hfirst)).trans (ih hrest)

/-- An id which is the answer to a request is an id of what the store has become. -/
theorem issued_answer (hs : s.Filled) {request : Request} {id : Id kind}
    (h : (s.answer request).1 = .ok (some ⟨kind, id⟩)) : (s.answer request).2.Issued id := by
  cases request with
  | create own name =>
    cases h
    exact (s.creates kind name).issued
  | get own index =>
    cases hget : s.get own index with
    | error fault => simp [answer, hget, Except.map] at h
    | ok found =>
      simp only [answer, hget, Except.map] at h
      cases h
      obtain ⟨rfl, hname⟩ := (get_eq_ok_iff hs).1 hget
      exact hname
  | require own name =>
    cases hrequire : s.require own name with
    | error fault => simp [answer, hrequire, Except.map] at h
    | ok found =>
      simp only [answer, hrequire, Except.map] at h
      cases h
      -- Requiring an id is finding one, or else there is no answer.
      have hfound := ((hs.enumerates kind).require_eq_ok name id).1 hrequire
      exact (find?_eq_some_iff.1 hfound).2
  | find own name =>
    cases hfind : s.find? own name with
    | none => simp [answer, hfind] at h
    | some found =>
      simp only [answer, hfind, Option.map_some] at h
      cases h
      exact (find?_eq_some_iff.1 hfind).2
  | reset => cases h

theorem serve_append (s : IdStore) (first second : List Request) :
    s.serve (first ++ second) = (s.serve first).serve second :=
  List.foldl_append

theorem filled_serve (requests : List Request) : (empty.serve requests).Filled :=
  Filled.serve (s := empty) nofun requests

/-- An id which was given out is an id of the store until this is emptied. -/
theorem Gave.issued {id : Id kind} (h : Gave requests id) {later : List Request}
    (hlater : .reset ∉ later) : (empty.serve (requests ++ later)).Issued id := by
  obtain ⟨before, request, after, rfl, hafter, hid⟩ := h
  have hgiven := issued_answer (filled_serve before) hid
  have hkept : .reset ∉ after ++ later := fun hmem => (List.mem_append.1 hmem).elim hafter hlater
  rw [List.append_assoc, List.cons_append, serve_append]
  exact hgiven.mono (extends_serve hkept)

theorem Created.issued {name : String} {id : Id kind} (h : Created requests name id) :
    id.name = name ∧ (empty.serve requests).Issued id := by
  obtain ⟨before, after, rfl, hafter, rfl⟩ := h
  have hcreates := (empty.serve before).creates kind name
  rw [serve_append]
  exact ⟨hcreates.name_eq, hcreates.issued.mono (extends_serve hafter)⟩

theorem Created.append {name : String} {id : Id kind} (h : Created requests name id)
    {request : Request} (hrequest : request ≠ .reset) :
    Created (requests ++ [request]) name id := by
  obtain ⟨before, after, rfl, hafter, hid⟩ := h
  refine ⟨before, after ++ [request], by simp, ?_, hid⟩
  intro hmem
  rcases List.mem_append.1 hmem with hmem | hmem
  · exact hafter hmem
  · exact hrequest (List.mem_singleton.1 hmem).symm

/-- For every name which is left of the requests, one of them created an id. -/
theorem exists_created {name : String} (h : name ∈ firsts kind requests) :
    ∃ id : Id kind, Created requests name id := by
  induction requests using List.reverseRecOn with
  | nil => cases h
  | append_singleton requests request ih =>
    rw [firsts, List.mem_eraseDups, List.foldl_append] at h
    -- Either the last request creates the name, or it was there and the last one leaves it.
    have hold (hmem : name ∈ requests.foldl (Request.record kind) []) (hne : request ≠ .reset) :
        ∃ id : Id kind, Created (requests ++ [request]) name id := by
      obtain ⟨id, hid⟩ := ih (List.mem_eraseDups.2 hmem)
      exact ⟨id, hid.append hne⟩
    cases request with
    | create own created =>
      simp only [List.foldl_cons, List.foldl_nil, Request.record] at h
      split at h
      · rename_i he
        subst he
        rcases List.mem_append.1 h with hmem | hmem
        · exact hold hmem nofun
        · obtain rfl := List.mem_singleton.1 hmem
          exact ⟨_, requests, [], rfl, nofun, rfl⟩
      · exact hold h nofun
    | get | require | find => exact hold h nofun
    | reset => cases h

/-- The id of a name is the one which was created for it. -/
theorem find?_eq_some_iff_created {name : String} {id : Id kind} :
    (empty.serve requests).find? kind name = some id ↔ Created requests name id := by
  constructor
  · intro hfound
    obtain ⟨rfl, hid⟩ := find?_eq_some_iff.1 hfound
    have hmem : id.name ∈ firsts kind requests :=
      names_serve_empty kind requests ▸ List.mem_of_getElem? hid
    obtain ⟨found, hcreated⟩ := exists_created hmem
    obtain ⟨hname, hissued⟩ := hcreated.issued
    rwa [← hid.eq_of_name hissued hname.symm] at hcreated
  · intro hcreated
    exact find?_eq_some_iff.2 hcreated.issued

end IdStore

/-! ## The order of ids of one store -/

namespace Id

variable {s : IdStore} {a b c : Id kind}

theorem same_iff_name_eq (ha : s.Issued a) (hb : s.Issued b) :
    a.same b = true ↔ a.name = b.name := by
  rw [same, beq_iff_eq]
  exact ⟨fun h => congrArg Id.name (ha.eq_of_index hb h),
    fun h => congrArg Id.index (ha.eq_of_name hb h)⟩

/-- Ids of one store are compared like their names. -/
theorem cmp_eq_compare (ha : s.Issued a) (hb : s.Issued b) :
    a.cmp b = compare a.name b.name := by
  rw [cmp]
  split
  · rename_i he
    obtain rfl := ha.eq_of_index hb he
    exact Std.ReflCmp.compare_self.symm
  · rfl

theorem cmp_eq_eq (ha : s.Issued a) (hb : s.Issued b) :
    a.cmp b = .eq ↔ a.same b = true := by
  rw [cmp_eq_compare ha hb, same_iff_name_eq ha hb]
  exact Std.LawfulEqCmp.compare_eq_iff_eq

theorem cmp_eq_lt (ha : s.Issued a) (hb : s.Issued b) :
    a.cmp b = .lt ↔ bytes a.name < bytes b.name := by
  rw [cmp_eq_compare ha hb, bytes_lt_bytes]
  exact compareOfLessAndEq_eq_lt

theorem cmp_swap (ha : s.Issued a) (hb : s.Issued b) :
    b.cmp a = (a.cmp b).swap := by
  rw [cmp_eq_compare ha hb, cmp_eq_compare hb ha]
  exact Std.OrientedCmp.eq_swap

theorem cmp_trans (ha : s.Issued a) (hb : s.Issued b) (hc : s.Issued c)
    (hab : (a.cmp b).isLE) (hbc : (b.cmp c).isLE) : (a.cmp c).isLE := by
  rw [cmp_eq_compare ha hb] at hab
  rw [cmp_eq_compare hb hc] at hbc
  rw [cmp_eq_compare ha hc]
  exact Std.TransCmp.isLE_trans hab hbc

end Id

namespace IdStore

/-- After any requests since the store was empty, the names of a kind have the numbers of their
places in the order of their first creation since the store was last emptied, whatever was asked
about other kinds. The ids which are kept and the numbers which are kept of their names agree, and
every look-up yields the id which was created. Until the store is emptied again, ids which were
given out keep their names and their numbers; they are the same if their names are, and are in the
order of the bytes of their names. -/
theorem serve_in_order (requests : List Request) (kind : IdKind) :
    (firsts kind requests).Nodup ∧
    (empty.serve requests).Enumerates kind (firsts kind requests) ∧
    (∀ (name : String) (id : Id kind), (empty.serve requests).find? kind name = some id ↔
      Created requests name id) ∧
    (∀ id : Id kind, Gave requests id → ∀ later : List Request, .reset ∉ later →
      (firsts kind (requests ++ later))[id.index]? = some id.name) ∧
    (∀ a b : Id kind, Gave requests a → Gave requests b →
      (a.same b = true ↔ a.name = b.name) ∧ (a.cmp b = .eq ↔ a.same b = true) ∧
      (a.cmp b = .lt ↔ bytes a.name < bytes b.name) ∧ b.cmp a = (a.cmp b).swap) ∧
    ∀ a b c : Id kind, Gave requests a → Gave requests b → Gave requests c →
      (a.cmp b).isLE → (b.cmp c).isLE → (a.cmp c).isLE := by
  have hnames := names_serve_empty kind requests
  -- What was given since the last reset is issued still.
  have hissued {id : Id kind} (h : Gave requests id) : (empty.serve requests).Issued id := by
    have hkept := h.issued List.not_mem_nil
    rwa [List.append_nil] at hkept
  refine ⟨hnames ▸ nodup_names _ kind, hnames ▸ (filled_serve requests).enumerates kind,
    fun name id => find?_eq_some_iff_created, fun id h later hlater => ?_, fun a b ha hb => ?_,
    fun a b c ha hb hc => Id.cmp_trans (hissued ha) (hissued hb) (hissued hc)⟩
  · rw [← names_serve_empty]
    exact h.issued hlater
  · exact ⟨Id.same_iff_name_eq (hissued ha) (hissued hb), Id.cmp_eq_eq (hissued ha) (hissued hb),
      Id.cmp_eq_lt (hissued ha) (hissued hb), Id.cmp_swap (hissued ha) (hissued hb)⟩

/-- Two links are created after the store was emptied, one of them twice, and a node has the name of
a link. The numbers of the links are in the order of creation, and the links in that of their
names. -/
theorem serve_in_order_links :
    let requests : List Request := [.create .link "a", .reset, .create .link "b", .create .node "a",
      .create .link "a", .create .link "b", .get .link 2, .require .link "a"]
    firsts .link requests = ["b", "a"] ∧
    ((empty.serve requests).typed .link).ids = [⟨0, "b"⟩, ⟨1, "a"⟩] ∧
    ((empty.serve requests).typed .link).numbers.get? "a" = some 1 ∧
    (empty.serve requests).get .link 2 = .error (.noIdAt 2) ∧
    (empty.serve requests).find? .link "a" = some ⟨1, "a"⟩ ∧
    (firsts .link (requests ++ [.create .link "c"]))[1]? = some "a" ∧
    (⟨1, "a"⟩ : LinkId).cmp ⟨0, "b"⟩ = .lt := by
  intro requests
  have hfirsts : firsts .link requests = ["b", "a"] := by decide
  obtain ⟨-, henumerates, hfind, hkept, horder, -⟩ := serve_in_order requests .link
  rw [hfirsts] at henumerates
  -- Both ids come from after the reset; the first request created another one under the same name.
  have hcreated_b : Created requests "b" (⟨0, "b"⟩ : LinkId) :=
    ⟨requests.take 2, requests.drop 3, rfl, by decide, rfl⟩
  have hcreated_a : Created requests "a" (⟨1, "a"⟩ : LinkId) :=
    ⟨requests.take 4, requests.drop 5, rfl, by decide, rfl⟩
  have hgave {name : String} {id : LinkId} (h : Created requests name id) : Gave requests id := by
    obtain ⟨before, after, hsplit, hafter, rfl⟩ := h
    exact ⟨before, _, after, hsplit, hafter, rfl⟩
  refine ⟨hfirsts, henumerates.ids, (henumerates.numbers "a" 1).2 rfl,
    (henumerates.get_eq_error 2 _).2 ⟨by decide, by simp⟩, (hfind "a" _).2 hcreated_a,
    hkept _ (hgave hcreated_a) [.create .link "c"] (by decide), ?_⟩
  exact (horder _ _ (hgave hcreated_a) (hgave hcreated_b)).2.2.1.2 (by decide)

end IdStore

end NetworkLoading
