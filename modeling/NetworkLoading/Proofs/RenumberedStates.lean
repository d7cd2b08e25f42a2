import NetworkLoading.Proofs.RenumberedNetworks
import NetworkLoading.Proofs.State

/-!
# States under other numbers

Two states of a loading are the same under other numbers if every link has the same queues and every
node the same mark, if the active sets have the same elements, and if the record tells the same. In
which order a set or a table lists its elements is left open, for it may depend on the numbers.
-/

namespace NetworkLoading

variable {f : Renumbering}

/-! ## Results which agree -/

/-- Two results agree if both are the same fault, or both are values that are related. -/
inductive Agree {α β : Type} (R : α → β → Prop) : Except Fault α → Except Fault β → Prop
  | ok {a : α} {b : β} : R a b → Agree R (.ok a) (.ok b)
  | fault (fault : Fault) : Agree R (.error fault) (.error fault)

namespace Agree

variable {α β α' β' : Type} {R : α → β → Prop} {S : α' → β' → Prop} {x : Except Fault α}
  {y : Except Fault β}

theorem bind (h : Agree R x y) {g : α → Except Fault α'} {g' : β → Except Fault β'}
    (hg : ∀ a b, R a b → Agree S (g a) (g' b)) : Agree S (x.bind g) (y.bind g') := by
  cases h with
  | ok hab => exact hg _ _ hab
  | fault fault => exact .fault fault

theorem map (h : Agree R x y) {g : α → α'} {g' : β → β'} (hg : ∀ a b, R a b → S (g a) (g' b)) :
    Agree S (x.map g) (y.map g') := by
  cases h with
  | ok hab => exact .ok (hg _ _ hab)
  | fault fault => exact .fault fault

/-- A result agrees with what becomes of it. -/
theorem of_eq_map {g : α → β} (h : y = x.map g) : Agree (fun a b => x = .ok a ∧ b = g a) x y := by
  subst h
  cases x with
  | error fault => exact .fault fault
  | ok a => exact .ok ⟨rfl, rfl⟩

/-- Folds over lists of related elements agree if their steps do. -/
theorem foldlM {γ δ : Type} {g : α → γ → Except Fault α} {g' : β → δ → Except Fault β}
    {k : γ → δ} {xs : List γ}
    (hg : ∀ x ∈ xs, ∀ a b, R a b → Agree R (g a x) (g' b (k x))) {a : α} {b : β} (h : R a b) :
    Agree R (xs.foldlM g a) ((xs.map k).foldlM g' b) := by
  induction xs generalizing a b with
  | nil => exact .ok h
  | cons x xs ih =>
    obtain ⟨hx, hxs⟩ := List.forall_mem_cons.1 hg
    exact (hx a b h).bind fun a b hab => ih hxs hab

end Agree

/-- Related values remain related when elements are worked in one after the other. -/
theorem foldl_related {α β γ δ : Type} {R : α → β → Prop} {g : α → γ → α} {d : β → δ → β}
    {k : γ → δ} (hg : ∀ a b x, R a b → R (g a x) (d b (k x))) (xs : List γ) {a : α} {b : β}
    (h : R a b) : R (xs.foldl g a) ((xs.map k).foldl d b) := by
  induction xs generalizing a b with
  | nil => exact h
  | cons x xs ih => exact ih (hg a b x h)

/-! ## Tables -/

namespace Table

variable {kind : IdKind} {α : Type}

/-- The same values for ids under other numbers, up to a change of the values. -/
def Renumbered (f : Renumbering) (g : α → α) (a b : Table kind α) : Prop :=
  ∀ id : Id kind, b.get? (id.renumber f) = (a.get? id).map g

variable {g : α → α} {a b : Table kind α}

theorem renumbered_ofKeys (keys : List (Id kind)) {value : α} (h : g value = value) :
    Renumbered f g (ofKeys keys value) (ofKeys (keys.map (·.renumber f)) value) := by
  intro id
  have hmem : (id.renumber f).index ∈ (keys.map (·.renumber f)).map (·.index) ↔
      id.index ∈ keys.map (·.index) := by
    simp only [List.map_map, Id.index_renumber, Function.comp_def, List.mem_map, Id.numbers_inj]
  simp only [get?_ofKeys, hmem]
  split
  · rw [Option.map_some, h]
  · rfl

theorem Renumbered.modify (h : Renumbered f g a b) {c d : α → α}
    (hc : ∀ value, d (g value) = g (c value)) (key : Id kind) :
    Renumbered f g (a.modify key c) (b.modify (key.renumber f) d) := by
  intro id
  -- tables are looked up by number alone, so an equal number counts, not an equal id
  by_cases he : id.index = key.index
  · have he' : (id.renumber f).index = (key.renumber f).index := by
      rw [Id.index_renumber, Id.index_renumber, he]
    rw [get?_modify_of_eq _ he', get?_modify_of_eq _ he, h id, Option.map_map, Option.map_map]
    exact congrArg (Option.map · (a.get? id)) (funext hc)
  · have he' : (id.renumber f).index ≠ (key.renumber f).index := by
      rwa [Id.index_renumber, Id.index_renumber, Ne, Id.numbers_inj]
    rw [get?_modify_of_ne _ he', get?_modify_of_ne _ he, h id]

theorem Renumbered.map (h : Renumbered f g a b) {c : α → α}
    (hc : ∀ value, c (g value) = g (c value)) :
    Renumbered f g (a.map c) (b.map c) := by
  intro id
  rw [get?_map, get?_map, h id, Option.map_map, Option.map_map]
  exact congrArg (Option.map · (a.get? id)) (funext hc)

end Table

/-! ## Active sets -/

namespace ActiveSets

variable {kind : IdKind}

/-- Sets of the same ids under other numbers. All of them are among the given ids. -/
structure Renumbered (f : Renumbering) (all : List (Id kind)) (a b : ActiveSets kind) : Prop where
  length_eq : b.parts.length = a.parts.length
  ids : ∀ part, (b.ids part).Perm ((a.ids part).map (·.renumber f))
  subset : ∀ part, a.ids part ⊆ all
  nodup : ∀ part, (a.ids part).Nodup

variable {all : List (Id kind)} {a b : ActiveSets kind}

theorem renumbered_empty (f : Renumbering) (all : List (Id kind)) (count : Nat) :
    Renumbered f all (empty count) (empty count) := by
  refine ⟨rfl, fun part => ?_, fun part => ?_, fun part => ?_⟩
  · simp
  · simp
  · simp

namespace Renumbered

theorem clear (h : Renumbered f all a b) : Renumbered f all a.clear b.clear := by
  rw [ActiveSets.clear, ActiveSets.clear, h.length_eq]
  exact renumbered_empty f all _

theorem insert (h : Renumbered f all a b) {part : Nat} (hlt : part < a.parts.length) {id : Id kind}
    (hid : id ∈ all) : Renumbered f all (a.insert part id) (b.insert part (id.renumber f)) := by
  have hlt' : part < b.parts.length := h.length_eq ▸ hlt
  refine ⟨by simp [h.length_eq], fun other => ?_, fun other => ?_, fun other =>
    nodup_ids_insert hlt id (h.nodup other)⟩
  · -- Renumbering is injective, so both sides agree on whether the id is there already.
    have hmem : id.renumber f ∈ b.ids part ↔ id ∈ a.ids part := by
      rw [(h.ids part).mem_iff, Id.mem_map_renumber]
    rw [ids_insert hlt', ids_insert hlt]
    simp only [hmem]
    split
    · split
      · exact h.ids part
      · rw [List.map_append]
        exact (h.ids part).append_right _
    · exact h.ids other
  · intro x hx
    rcases (mem_ids_insert hlt).1 hx with hold | ⟨-, rfl⟩
    · exact h.subset other hold
    · exact hid

theorem emptied (h : Renumbered f all a b) (part : Nat) :
    Renumbered f all (a.emptied part) (b.emptied part) := by
  refine ⟨by simp [h.length_eq], fun other => ?_, fun other => ?_, fun other => ?_⟩
  all_goals rw [ids_emptied]
  · rw [ids_emptied]
    split
    · rfl
    · exact h.ids other
  · split
    · exact List.nil_subset all
    · exact h.subset other
  · split
    · exact List.nodup_nil
    · exact h.nodup other

theorem enqueue (h : Renumbered f all a b) (part : Nat) {id : Id kind} (hid : id ∈ all) :
    Agree (Renumbered f all) (a.enqueue part id) (b.enqueue part (id.renumber f)) := by
  -- both have as many parts, and that is what the fault tells
  by_cases hlt : part < a.parts.length
  · rw [enqueue_eq_ok hlt, enqueue_eq_ok (h.length_eq ▸ hlt)]
    exact .ok (h.insert hlt hid)
  · have hle : a.parts.length ≤ part := Nat.not_lt.1 hlt
    rw [ActiveSets.enqueue, ActiveSets.enqueue, part_eq_error hle,
      part_eq_error (h.length_eq ▸ hle), h.length_eq]
    exact .fault _

/-- What is taken are the same ids in the same order, in whichever order the sets list them. -/
theorem take (h : Renumbered f all a b) (hall : Id.Apart all) (part : Nat) :
    Agree (fun x y => y.1 = x.1.map (·.renumber f) ∧ Renumbered f all x.2 y.2) (a.take part)
      (b.take part) := by
  by_cases hlt : part < a.parts.length
  · rw [take_eq_ok hlt, take_eq_ok (h.length_eq ▸ hlt)]
    have hapart : Id.Apart (a.ids part) := hall.of_subset (h.nodup part) (h.subset part)
    exact .ok ⟨Id.sort_of_perm hapart (h.ids part), h.emptied part⟩
  · have hle : a.parts.length ≤ part := Nat.not_lt.1 hlt
    rw [ActiveSets.take, ActiveSets.take, part_eq_error hle, part_eq_error (h.length_eq ▸ hle),
      h.length_eq]
    exact .fault _

theorem size_eq (h : Renumbered f all a b) : b.size = a.size := by
  have hlengths : b.parts.map List.length = a.parts.map List.length := by
    refine List.ext_getElem (by simp [h.length_eq]) fun part hb ha => ?_
    have hids := (h.ids part).length_eq
    rw [List.length_map] at ha hb
    simpa [ActiveSets.ids, List.getElem?_eq_getElem ha, List.getElem?_eq_getElem hb] using hids
  rw [size, size, List.length_flatten, List.length_flatten, hlengths]

end Renumbered

end ActiveSets

/-! ## States -/

/-- The same queues, marks and active sets under other numbers. -/
structure Traffic.Renumbered (f : Renumbering) (l : Layout) (s t : Traffic) : Prop where
  links : s.links.Renumbered f (·.renumber f) t.links
  nodes : s.nodes.Renumbered f id t.nodes
  keys : s.links.keys.Perm l.linkIds
  keys_map : t.links.keys.Perm (s.links.keys.map (·.renumber f))
  activeLinks : s.activeLinks.Renumbered f l.linkIds t.activeLinks
  activeNodes : s.activeNodes.Renumbered f l.nodeIds t.activeNodes
  onNetwork : t.onNetwork = s.onNetwork

/-- The same traffic and the same record under other numbers. -/
structure Loading.Renumbered (f : Renumbering) (l : Layout) (s t : Loading) : Prop where
  traffic : s.traffic.Renumbered f l t.traffic
  record : t.record = s.record.renumber f

/-- The same layout under other numbers, with ids of which no two are called the same, and travel
times which come to the same. -/
structure Supply.Renumbered (f : Renumbering) (a b : Supply) : Prop where
  layout : b.layout = a.layout.renumber f
  travelTimes : a.travelTimes.Renumbered f b.travelTimes
  links_apart : Id.Apart a.layout.linkIds
  junctions_apart : Id.Apart a.layout.nodeIds

theorem Traffic.renumbered_empty (f : Renumbering) (l : Layout) :
    (Traffic.empty l).Renumbered f l (.empty (l.renumber f)) := by
  have hlinks := Layout.linkIds_renumber f l
  have hnodes := Layout.nodeIds_renumber f l
  rw [Layout.linkIds] at hlinks
  rw [Layout.nodeIds] at hnodes
  refine ⟨?_, ?_, .refl _, ?_, ActiveSets.renumbered_empty f _ _,
    ActiveSets.renumbered_empty f _ _, rfl⟩
  · simp only [Traffic.empty, hlinks]
    exact Table.renumbered_ofKeys _ rfl
  · simp only [Traffic.empty, hnodes]
    exact Table.renumbered_ofKeys _ rfl
  · simp only [Traffic.empty, hlinks]
    exact .refl _

namespace Loading

variable {l : Layout} {s t : Loading}

/-- The same value and the same state under other numbers. -/
def Together {α β : Type} (f : Renumbering) (l : Layout) (g : α → β) (a : α × Loading)
    (b : β × Loading) : Prop :=
  b.1 = g a.1 ∧ a.2.Renumbered f l b.2

/-- The same outcome under other numbers. -/
abbrev SameOutcome {α : Type} (f : Renumbering) (l : Layout) : Outcome α → Outcome α → Prop :=
  Together f l (·.mapError (·.renumber f))

/-- What is made of the same value and the same state agrees if it does for any of them. -/
theorem Together.bind {α β γ δ : Type} {k : α → β} {R : γ → δ → Prop}
    {x : Except Fault (α × Loading)} {y : Except Fault (β × Loading)}
    {g : α × Loading → Except Fault γ} {g' : β × Loading → Except Fault δ}
    (h : Agree (Together f l k) x y)
    (hg : ∀ a s t, Renumbered f l s t → Agree R (g (a, s)) (g' (k a, t))) :
    Agree R (x.bind g) (y.bind g') := by
  refine h.bind ?_
  rintro ⟨a, s⟩ ⟨b, t⟩ ⟨rfl, hst⟩
  exact hg a s t hst

theorem Together.map {α β γ δ : Type} {k : α → β} {R : γ → δ → Prop}
    {x : Except Fault (α × Loading)} {y : Except Fault (β × Loading)} {g : α × Loading → γ}
    {g' : β × Loading → δ} (h : Agree (Together f l k) x y)
    (hg : ∀ a s t, Renumbered f l s t → R (g (a, s)) (g' (k a, t))) :
    Agree R (x.map g) (y.map g') := by
  refine h.map ?_
  rintro ⟨a, s⟩ ⟨b, t⟩ ⟨rfl, hst⟩
  exact hg a s t hst

/-- A change of the value alone leaves outcomes the same under other numbers. -/
theorem sameOutcome_map {α β : Type} {s t : Loading} (h : Renumbered f l s t) (g : α → β)
    (result : Except LoadingError α) :
    SameOutcome f l (result.map g, s) ((result.mapError (·.renumber f)).map g, t) := by
  refine ⟨?_, h⟩
  cases result <;> rfl

theorem renumbered_empty (f : Renumbering) (l : Layout) (population : Population) :
    (Loading.empty l population).Renumbered f l (.empty (l.renumber f) population) :=
  ⟨Traffic.renumbered_empty f l, by simp [Loading.empty, Record.renumber]⟩

namespace Renumbered

/-! ### The record -/

theorem publish (h : Renumbered f l s t) (e : Event) :
    Renumbered f l (s.publish e) (t.publish (e.renumber f)) :=
  ⟨h.traffic, by simp [Loading.publish, h.record, Record.renumber]⟩

theorem handOver (h : Renumbered f l s t) (agent : Agent) :
    Renumbered f l (s.handOver agent) (t.handOver (agent.renumber f)) :=
  ⟨h.traffic, by simp [Loading.handOver, h.record, Record.renumber]⟩

theorem say (h : Renumbered f l s t) (line : LogLine) :
    Renumbered f l (s.say line) (t.say line) :=
  ⟨h.traffic, by simp [Loading.say, h.record, Record.renumber]⟩

theorem updatePopulation (h : Renumbered f l s t) (change : Population → Population) :
    Renumbered f l (s.updatePopulation change) (t.updatePopulation change) :=
  ⟨h.traffic, by simp [Loading.updatePopulation, h.record, Record.renumber]⟩

theorem abort (h : Renumbered f l s t) (agent : Agent) (link : LinkId) (now : UInt32) :
    Renumbered f l (s.abort agent link now)
      (t.abort (agent.renumber f) (link.renumber f) now) := by
  unfold Loading.abort
  rw [Agent.abort_renumber]
  exact ((h.publish (.stuck now link agent.id (some agent.mode))).updatePopulation _).handOver _

/-! ### The traffic -/

theorem queue (h : Renumbered f l s t) (link : LinkId) :
    t.queue (link.renumber f) = (s.queue link).renumber f := by
  simp only [Loading.queue, h.traffic.links link]
  cases s.traffic.links.get? link <;> rfl

theorem nodeActive (h : Renumbered f l s t) (node : NodeId) :
    t.nodeActive (node.renumber f) = s.nodeActive node := by
  simp only [Loading.nodeActive, h.traffic.nodes node, Option.map_id_fun, id_eq]

theorem updateQueue (h : Renumbered f l s t) {c d : LinkQueue → LinkQueue}
    (hc : ∀ q, d (q.renumber f) = (c q).renumber f) (link : LinkId) :
    Renumbered f l (s.updateQueue link c) (t.updateQueue (link.renumber f) d) :=
  ⟨{ h.traffic with links := h.traffic.links.modify hc link }, h.record⟩

theorem markNode (h : Renumbered f l s t) (node : NodeId) (active : Bool) :
    Renumbered f l (s.markNode node active) (t.markNode (node.renumber f) active) :=
  ⟨{ h.traffic with
      nodes := h.traffic.nodes.modify (c := fun _ => active) (fun _ => rfl) node }, h.record⟩

theorem countIn (h : Renumbered f l s t) (count : Nat) :
    Renumbered f l (s.countIn count) (t.countIn count) :=
  ⟨{ h.traffic with onNetwork := by simp [Loading.countIn, h.traffic.onNetwork] }, h.record⟩

theorem countOut (h : Renumbered f l s t) (count : Nat) :
    Renumbered f l (s.countOut count) (t.countOut count) :=
  ⟨{ h.traffic with onNetwork := by simp [Loading.countOut, h.traffic.onNetwork] }, h.record⟩

theorem deactivateLink (h : Renumbered f l s t) (link : LinkId) :
    Renumbered f l (s.deactivateLink link) (t.deactivateLink (link.renumber f)) :=
  h.updateQueue (c := fun q => { q with active := false }) (fun _ => rfl) link

theorem deactivateNode (h : Renumbered f l s t) (node : NodeId) :
    Renumbered f l (s.deactivateNode node) (t.deactivateNode (node.renumber f)) :=
  h.markNode node false

/-! ### Activation -/

theorem activateLink (h : Renumbered f l s t) {link : Link} (hl : link ∈ l.links) :
    Agree (Together f l id) (s.activateLink link) (t.activateLink (link.renumber f)) := by
  have hq : t.queue (link.renumber f).id = (s.queue link.id).renumber f := h.queue link.id
  unfold Loading.activateLink
  rw [hq, LinkQueue.active_renumber]
  split
  · exact .ok ⟨rfl, h⟩
  · have hmark := h.updateQueue (c := fun q => { q with active := true })
      (d := fun q => { q with active := true }) (fun _ => rfl) link.id
    refine (h.traffic.activeLinks.enqueue link.partition.toNat
      (List.mem_map_of_mem hl)).map fun a b hab => ⟨rfl, ?_⟩
    exact ⟨{ hmark.traffic with activeLinks := hab }, h.record⟩

theorem activateNode (h : Renumbered f l s t) {node : Junction} (hn : node ∈ l.junctions) :
    Agree (Together f l id) (s.activateNode node) (t.activateNode (node.renumber f)) := by
  have ha : t.nodeActive (node.renumber f).id = s.nodeActive node.id := h.nodeActive node.id
  unfold Loading.activateNode
  rw [ha]
  split
  · exact .ok ⟨rfl, h⟩
  · have hmark := h.markNode node.id true
    refine (h.traffic.activeNodes.enqueue node.partition.toNat
      (List.mem_map_of_mem hn)).map fun a b hab => ⟨rfl, ?_⟩
    exact ⟨{ hmark.traffic with activeNodes := hab }, h.record⟩

end Renumbered

end Loading

end NetworkLoading
