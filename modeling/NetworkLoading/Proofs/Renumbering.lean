import NetworkLoading.Loading.State
import NetworkLoading.Proofs.Ids

/-!
# Other numbers for the same names

The number of an id depends on what was created before it; its name does not. Ids may be given other
numbers, as long as different ones stay different: this changes neither which ids are the same nor
the order in which they stand, and so nothing but the numbers in whatever is made of them.
-/

namespace NetworkLoading

/-- New numbers in place of those of every kind. -/
abbrev Numbers := IdKind → Nat → Nat

/-- One number for all ids, so that only their names tell them apart. -/
def Numbers.blank : Numbers :=
  fun _ _ => 0

/-- New numbers which are different wherever the old ones were. -/
structure Renumbering where
  numbers : Numbers
  injective : ∀ kind, Function.Injective (numbers kind)

instance : Coe Renumbering Numbers := ⟨Renumbering.numbers⟩

/-! ## Ids -/

theorem insertDown_map {α β : Type} {lt : α → α → Bool} {lt' : β → β → Bool} {g : α → β}
    (h : ∀ a b, lt' (g a) (g b) = lt a b) (x : α) (xs : List α) :
    insertDown lt' (g x) (xs.map g) = (insertDown lt x xs).map g := by
  induction xs with
  | nil => rfl
  | cons y ys ih =>
    simp only [List.map_cons, insertDown, h, ih]
    split <;> rfl

theorem sortBy_map {α β : Type} {lt : α → α → Bool} {lt' : β → β → Bool} {g : α → β}
    (h : ∀ a b, lt' (g a) (g b) = lt a b) (xs : List α) :
    sortBy lt' (xs.map g) = (sortBy lt xs).map g := by
  have hfold (sorted : List α) :
      (xs.map g).foldl (fun sorted x => insertDown lt' x sorted) (sorted.map g) =
        (xs.foldl (fun sorted x => insertDown lt x sorted) sorted).map g := by
    induction xs generalizing sorted with
    | nil => rfl
    | cons x xs ih =>
      simp only [List.map_cons, List.foldl_cons, insertDown_map h, ih]
  rw [sortBy, sortBy, List.map_reverse]
  exact congrArg List.reverse (hfold [])

namespace Id

variable {kind : IdKind} {f : Renumbering}

/-- The same name under another number. -/
def renumber (f : Numbers) (id : Id kind) : Id kind :=
  { id with index := f kind id.index }

@[simp] theorem name_renumber (f : Numbers) (id : Id kind) : (id.renumber f).name = id.name := rfl

@[simp] theorem index_renumber (f : Numbers) (id : Id kind) :
    (id.renumber f).index = f kind id.index := rfl

@[simp] theorem blank_renumber (f : Numbers) (id : Id kind) :
    (id.renumber f).renumber .blank = id.renumber .blank := rfl

@[simp] theorem blank_comp_renumber (f : Numbers) :
    (renumber .blank ∘ renumber f : Id kind → Id kind) = renumber .blank := rfl

theorem renumber_injective (f : Renumbering) :
    Function.Injective (renumber f : Id kind → Id kind) := by
  intro a b h
  obtain ⟨i, x⟩ := a
  obtain ⟨j, y⟩ := b
  simp only [renumber, mk.injEq] at h
  rw [mk.injEq]
  exact ⟨f.injective kind h.1, h.2⟩

@[simp] theorem renumber_inj {a b : Id kind} : a.renumber f = b.renumber f ↔ a = b :=
  (renumber_injective f).eq_iff

@[simp] theorem numbers_inj {i j : Nat} : f.numbers kind i = f.numbers kind j ↔ i = j :=
  (f.injective kind).eq_iff

@[simp] theorem mem_map_renumber {id : Id kind} {ids : List (Id kind)} :
    id.renumber f ∈ ids.map (renumber f) ↔ id ∈ ids :=
  List.mem_map_of_injective (renumber_injective f)

@[simp] theorem before_renumber (a b : Id kind) :
    (a.renumber f).before (b.renumber f) = a.before b := by
  simp only [before, cmp, index_renumber, numbers_inj, name_renumber]

/-- Ids are sorted by what does not change. -/
theorem sort_map (f : Renumbering) (ids : List (Id kind)) :
    sort (ids.map (renumber f)) = (sort ids).map (renumber f) :=
  sortBy_map before_renumber ids

theorem Apart.map {ids : List (Id kind)} (h : Apart ids) (f : Renumbering) :
    Apart (ids.map (renumber f)) := by
  refine List.pairwise_map.2 (h.imp fun {a b} hab => ⟨?_, hab.2⟩)
  rw [index_renumber, index_renumber, Ne, numbers_inj]
  exact hab.1

/-- Neither the numbers nor the order in which ids are listed shows when they are sorted. -/
theorem sort_of_perm {ids listed : List (Id kind)} (h : Apart ids)
    (hp : listed.Perm (ids.map (renumber f))) : sort listed = (sort ids).map (renumber f) := by
  rw [sort_eq_of_perm (h.map f) hp, sort_map]

end Id

/-! ## Agents -/

namespace Agent

/-- The same agent under other numbers. -/
def renumber (f : Numbers) (agent : Agent) : Agent where
  id := agent.id.renumber f
  mode := agent.mode.renumber f
  route := agent.route.map (·.renumber f)
  position := agent.position
  state := agent.state
  route_ne_nil := by simpa using agent.route_ne_nil

variable {f : Renumbering}

@[simp] theorem id_renumber (f : Numbers) (agent : Agent) :
    (agent.renumber f).id = agent.id.renumber f := rfl

@[simp] theorem mode_renumber (f : Numbers) (agent : Agent) :
    (agent.renumber f).mode = agent.mode.renumber f := rfl

@[simp] theorem blank_renumber (f : Numbers) (agent : Agent) :
    (agent.renumber f).renumber .blank = agent.renumber .blank := by
  simp [renumber]

@[simp] theorem proceed_renumber (f : Numbers) (agent : Agent) :
    (agent.renumber f).proceed = agent.proceed.renumber f := rfl

@[simp] theorem arrive_renumber (f : Numbers) (agent : Agent) (now : UInt32) :
    (agent.renumber f).arrive now = (agent.arrive now).renumber f := rfl

@[simp] theorem abort_renumber (f : Numbers) (agent : Agent) (now : UInt32) :
    (agent.renumber f).abort now = (agent.abort now).renumber f := rfl

@[simp] theorem next?_renumber (f : Numbers) (agent : Agent) :
    (agent.renumber f).next? = agent.next?.map (·.renumber f) := by
  simp [next?, renumber]

@[simp] theorem destination_renumber (f : Numbers) (agent : Agent) :
    (agent.renumber f).destination = agent.destination.renumber f := by
  simp [destination, renumber]

@[simp] theorem endsOn_renumber (agent : Agent) (link : LinkId) :
    (agent.renumber f).endsOn (link.renumber f) = agent.endsOn link := by
  simp [endsOn]

end Agent

/-! ## The queues of a link -/

namespace Traveller

/-- The same traveller under other numbers. -/
def renumber (f : Numbers) (t : Traveller) : Traveller :=
  { t with agent := t.agent.renumber f }

@[simp] theorem before_renumber {f : Renumbering} (a b : Traveller) :
    (a.renumber f).before (b.renumber f) = a.before b := by
  have hid : (b.renumber f).agent.id.before (a.renumber f).agent.id =
      b.agent.id.before a.agent.id := Id.before_renumber _ _
  rw [before, hid]
  rfl

end Traveller

namespace LinkQueue

/-- The same queues with all agents under other numbers. -/
def renumber (f : Numbers) (q : LinkQueue) : LinkQueue where
  active := q.active
  inTransit := q.inTransit.map (·.renumber f)
  afterActivity := q.afterActivity.map (·.renumber f)
  toLeave := q.toLeave.map (·.renumber f)

variable {f : Renumbering}

@[simp] theorem renumber_empty (f : Numbers) : ({} : LinkQueue).renumber f = {} := rfl

@[simp] theorem active_renumber (f : Numbers) (q : LinkQueue) :
    (q.renumber f).active = q.active := rfl

@[simp] theorem toLeave_renumber (f : Numbers) (q : LinkQueue) :
    (q.renumber f).toLeave = q.toLeave.map (·.renumber f) := rfl

theorem insertTraveller_map (t : Traveller) (ts : List Traveller) :
    insertTraveller (t.renumber f) (ts.map (·.renumber f)) =
      (insertTraveller t ts).map (·.renumber f) := by
  induction ts with
  | nil => rfl
  | cons u rest ih =>
    simp only [List.map_cons, insertTraveller, Traveller.before_renumber, ih]
    split <;> rfl

theorem enter_renumber (q : LinkQueue) (t : Traveller) :
    (q.renumber f).enter (t.renumber f) = (q.enter t).renumber f := by
  simp only [enter, renumber, insertTraveller_map]

theorem depart_renumber (q : LinkQueue) (agent : Agent) :
    (q.renumber f).depart (agent.renumber f) = (q.depart agent).renumber f := by
  simp only [depart, renumber, List.map_append, List.map_cons, List.map_nil]

theorem due_renumber (q : LinkQueue) (now : UInt32) :
    (q.renumber f).due now = (q.due now).map (·.renumber f) := by
  simp only [due, renumber, List.takeWhile_map]
  rfl

theorem agents_due_renumber (q : LinkQueue) (now : UInt32) :
    ((q.renumber f).due now).map (·.agent) =
      ((q.due now).map (·.agent)).map (·.renumber f) := by
  rw [due_renumber, List.map_map, List.map_map]
  rfl

theorem arriving_renumber (q : LinkQueue) (link : LinkId) (now : UInt32) :
    (q.renumber f).arriving (link.renumber f) now = (q.arriving link now).map (·.renumber f) := by
  simp only [arriving, agents_due_renumber, List.filter_map, Function.comp_def,
    Agent.endsOn_renumber]

theorem continuing_renumber (q : LinkQueue) (link : LinkId) (now : UInt32) :
    (q.renumber f).continuing (link.renumber f) now =
      (q.continuing link now).map (·.renumber f) := by
  simp only [continuing, agents_due_renumber, List.filter_map, Function.comp_def,
    Agent.endsOn_renumber]

theorem advance_renumber (q : LinkQueue) (link : LinkId) (now : UInt32) :
    (q.renumber f).advance (link.renumber f) now = (q.advance link now).renumber f := by
  have htransit : (q.renumber f).inTransit.dropWhile (·.exitTime ≤ now) =
      (q.inTransit.dropWhile (·.exitTime ≤ now)).map (·.renumber f) := by
    simp only [renumber, List.dropWhile_map]
    rfl
  simp only [advance, htransit, continuing_renumber]
  simp only [renumber, List.map_append, List.map_nil]

theorem agents_renumber (q : LinkQueue) : (q.renumber f).agents = q.agents.map (·.renumber f) := by
  simp only [agents, renumber, List.map_append, List.map_map]
  rfl

@[simp] theorem size_renumber (q : LinkQueue) : (q.renumber f).size = q.size := by
  rw [size, size, agents_renumber, List.length_map]

end LinkQueue

/-! ## Events and errors -/

/-- The same event under other numbers. -/
def Event.renumber (f : Numbers) : Event → Event
  | entered time link person => entered time (link.renumber f) (person.renumber f)
  | left time link person => left time (link.renumber f) (person.renumber f)
  | waits time link person mode =>
    waits time (link.renumber f) (person.renumber f) (mode.map (·.renumber f))
  | stuck time link person mode =>
    stuck time (link.renumber f) (person.renumber f) (mode.map (·.renumber f))

@[simp] theorem Event.blank_renumber (f : Numbers) (e : Event) :
    (e.renumber f).renumber .blank = e.renumber .blank := by
  cases e <;> simp [renumber]

namespace LoadingError

/-- The same error under other numbers. -/
def renumber (f : Numbers) : LoadingError → LoadingError
  | unknownLink link => unknownLink (link.renumber f)
  | noNextLink agent link => noNextLink (agent.renumber f) (link.renumber f)
  | unconnectedLinks agent fromLink toLink node =>
    unconnectedLinks (agent.renumber f) (fromLink.renumber f) (toLink.renumber f) (node.renumber f)
  | missingTravelTime mode => missingTravelTime (mode.renumber f)
  | invalidTravelTime agent mode link value =>
    invalidTravelTime (agent.renumber f) (mode.renumber f) (link.renumber f) value

@[simp] theorem blank_renumber (f : Numbers) (error : LoadingError) :
    (error.renumber f).renumber .blank = error.renumber .blank := by
  cases error <;> simp [renumber]

/-- The wording of an error has names only. -/
@[simp] theorem message_renumber (f : Numbers) (error : LoadingError) :
    (error.renumber f).message = error.message := by
  cases error <;> rfl

end LoadingError

/-- The same refusal under other numbers. -/
def Rejected.renumber (f : Numbers) (rejected : Rejected) : Rejected where
  agent := rejected.agent.renumber f
  error := rejected.error.renumber f

@[simp] theorem Rejected.blank_renumber (f : Numbers) (rejected : Rejected) :
    (rejected.renumber f).renumber .blank = rejected.renumber .blank := by
  simp [renumber]

/-- The same record with all events and agents under other numbers. -/
def Record.renumber (f : Numbers) (record : Record) : Record where
  population := record.population
  events := record.events.map (·.renumber f)
  handedOver := record.handedOver.map (·.renumber f)
  log := record.log

@[simp] theorem Record.blank_renumber (f : Numbers) (record : Record) :
    (record.renumber f).renumber .blank = record.renumber .blank := by
  simp [renumber, Function.comp_def]

end NetworkLoading
