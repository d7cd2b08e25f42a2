import NetworkLoading.Proofs.Listings
import NetworkLoading.Proofs.RenumberedSteps
import NetworkLoading.Proofs.RenumberedStores

/-!
# Executions by name

A program builds networks, makes engines for them and calls these engines. It knows all ids by their
names only; which numbers the names have depends on what was created before the program starts. None
of this is to be seen from outside: programs which start with the same names, created in any order,
are observed to do the same.
-/

namespace NetworkLoading

variable {f : Renumbering}

/-! ## Programs -/

/-- An agent at the start of its leg or further on. -/
structure AgentPlan where
  person : String
  mode : String
  route : List String
  /-- How many links of the route lie behind the agent. -/
  position : Nat := 0

structure LinkPlan where
  name : String
  fromNode : String
  toNode : String
  length : Float
  freespeed : Float
  modes : List String := []

/-- What can be asked of an engine, by name. -/
inductive CallPlan where
  | depart (agent : AgentPlan) (link : String) (now : UInt32)
  | enter (agent : AgentPlan) (link : String) (now : UInt32)
  | step (now : UInt32)
  | finish (now : UInt32)
  | reset

/-- What a program does. There is one network at a time, and one engine. -/
inductive Operation where
  | create (kind : IdKind) (name : String)
  | addNode (name : String) (x y : Float)
  | addLink (plan : LinkPlan)
  | divide (parts : UInt32) (method : PartitionMethod)
  | setPartition (node : String) (part : UInt32)
  /-- An engine for the network as it is now, with nobody on it. -/
  | build (config : Config) (rules : List (String × TravelTime)) (population : Population)
  | call (plan : CallPlan) (orders : Orders)

/-- The agent of a plan, with all ids it needs. -/
def AgentPlan.issue (plan : AgentPlan) (ids : IdStore) : Except Fault (Agent × IdStore) :=
  let (id, ids) := ids.create .person plan.person
  let (mode, ids) := ids.create .mode plan.mode
  let (route, ids) := ids.createAll .link plan.route
  (Agent.start id mode route).map fun agent => ({ agent with position := plan.position }, ids)

/-- The link of a plan, with all ids it needs. -/
def LinkPlan.issue (plan : LinkPlan) (ids : IdStore) : Link × IdStore :=
  let (id, ids) := ids.create .link plan.name
  let (fromNode, ids) := ids.create .node plan.fromNode
  let (toNode, ids) := ids.create .node plan.toNode
  let (modes, ids) := ids.createAll .mode plan.modes
  let link : Link := { id, fromNode, toNode, length := plan.length, freespeed := plan.freespeed }
  (link.withModes modes, ids)

/-- The call of a plan, with all ids it needs. -/
def CallPlan.issue (plan : CallPlan) (ids : IdStore) : Except Fault (Call × IdStore) :=
  match plan with
  | depart agent link now =>
    (agent.issue ids).map fun (agent, ids) =>
      let (link, ids) := ids.create .link link
      (.depart agent link now, ids)
  | enter agent link now =>
    (agent.issue ids).map fun (agent, ids) =>
      let (link, ids) := ids.create .link link
      (.enter agent link now, ids)
  | step now => .ok (.step now, ids)
  | finish now => .ok (.finish now, ids)
  | reset => .ok (.reset, ids)

/-! ## Executions -/

/-- How far a program has come. -/
structure Execution where
  ids : IdStore
  network : Network := .empty
  running : Option (Engine × Loading) := none

/-- What there is to be seen of an operation. -/
inductive Observation where
  | nothing
  | network (net : Network)
  /-- The modes with a travel time, and what came of the engine. -/
  | built (modes : List ModeId) (result : Except LoadingError (List LogLine))
  /-- The answer to a call, all that was recorded so far, and how much is on the network. -/
  | answered (answer : Answer) (record : Record) (agents : UInt64) (links nodes : Nat)
  | ended (fault : Fault)

/-- The same observation under other numbers. -/
def Observation.renumber (f : Numbers) : Observation → Observation
  | nothing => nothing
  | network net => network (net.renumber f)
  | built modes result => built (modes.map (·.renumber f)) (result.mapError (·.renumber f))
  | answered answer record agents links nodes =>
    answered (answer.renumber f) (record.renumber f) agents links nodes
  | ended fault => ended fault

@[simp] theorem Observation.blank_renumber (f : Numbers) (seen : Observation) :
    (seen.renumber f).renumber .blank = seen.renumber .blank := by
  cases seen with
  | built modes result => cases result <;> simp [renumber, Except.mapError]
  | nothing | network | answered | ended => simp [renumber]

namespace Execution

/-- The network is replaced by the result of an operation on it. -/
def rebuild (v : Execution) (ids : IdStore) (result : Except Fault Network) :
    Except Fault (Observation × Execution) :=
  result.map fun network => (.network network, { v with ids, network })

/-- The engine is replaced by a new one for the network, if there is one. -/
def launch (v : Execution) (ids : IdStore) (config : Config) (modes : List ModeId)
    (travelTimes : TravelTimes) (population : Population) :
    Except Fault (Observation × Execution) :=
  (Engine.build v.network config modes travelTimes).map fun
    | .error error => (.built travelTimes.modes (.error error), { v with ids })
    | .ok built =>
      let s := Loading.empty built.engine.supply.layout population
      (.built travelTimes.modes (.ok built.log), { v with ids, running := some (built.engine, s) })

/-- The engine is called, if there is one. -/
def call (listing : Listing) (v : Execution) (ids : IdStore) (orders : Orders) (call : Call) :
    Except Fault (Observation × Execution) :=
  match v.running with
  | none => .ok (.nothing, { v with ids })
  | some (engine, s) =>
    (engine.perform orders s call).map fun (answer, s) =>
      let t := s.traffic
      (.answered answer s.record t.onNetwork t.activeLinks.size t.activeNodes.size,
        { v with ids, running := some (engine, s.relisted listing) })

/-- Performs an operation. Rules see names only, and collections are listed in their own way. -/
def perform (listing : Listing) (v : Execution) : Operation → Except Fault (Observation × Execution)
  | .create kind name => .ok (.nothing, { v with ids := (v.ids.create kind name).2 })
  | .addNode name x y =>
    let (id, ids) := v.ids.create .node name
    v.rebuild ids (v.network.addNode { id, x, y })
  | .addLink plan =>
    let (link, ids) := plan.issue v.ids
    v.rebuild ids (Network.settled (v.network.addLink link))
  | .divide parts method => v.rebuild v.ids (v.network.divide parts method)
  | .setPartition node part =>
    let (id, ids) := v.ids.create .node node
    v.rebuild ids (Network.settled (v.network.setPartition id part))
  | .build config rules population =>
    let rules := rules.map fun (mode, rule) => (mode, rule.byName)
    let (travelTimes, ids) := ({} : TravelTimes).insertNamed v.ids rules
    let (modes, ids) := config.networkModes ids
    v.launch ids config (listing.list id modes) (travelTimes.relisted listing) population
  | .call plan orders => (plan.issue v.ids).bind fun (call, ids) => v.call listing ids orders call

/-- What is seen of a program until it ends, without any numbers. -/
def observe (listing : Listing) (v : Execution) : List Operation → List Observation
  | [] => []
  | operation :: rest =>
    match v.perform listing operation with
    | .error fault => [.ended fault]
    | .ok (seen, v) => seen.renumber .blank :: v.observe listing rest

end Execution

/-! ## Plans under other numbers -/

section

variable {s t : IdStore}

theorem AgentPlan.issue_renumbered (h : s.Renumbered f t) (plan : AgentPlan) :
    Agree (IdStore.Yields f (·.renumber f) s) (plan.issue s) (plan.issue t) := by
  unfold issue
  refine (h.create .person plan.person).elim fun id s t h hid => ?_
  dsimp only
  refine (h.create .mode plan.mode).elim fun mode s t h hmode => ?_
  dsimp only
  refine (h.createAll .link plan.route).elim fun route s t h hroute => ?_
  have hstart : Agent.start (id.renumber f) (mode.renumber f) (route.map (·.renumber f)) =
      (Agent.start id mode route).map (·.renumber f) := by
    simp only [Agent.start, List.map_eq_nil_iff]
    split <;> rfl
  refine (Agree.of_eq_map hstart).map fun agent agent' hagent => ?_
  obtain ⟨-, rfl⟩ := hagent
  exact ⟨rfl, h, (hid.trans hmode).trans hroute⟩

theorem LinkPlan.issue_renumbered (h : s.Renumbered f t) (plan : LinkPlan) :
    IdStore.Yields f (·.renumber f) s (plan.issue s) (plan.issue t) := by
  unfold issue
  refine (h.create .link plan.name).elim fun id s t h hid => ?_
  dsimp only
  refine (h.create .node plan.fromNode).elim fun fromNode s t h hfrom => ?_
  dsimp only
  refine (h.create .node plan.toNode).elim fun toNode s t h hto => ?_
  dsimp only
  refine (h.createAll .mode plan.modes).elim fun modes s t h hmodes => ?_
  refine ⟨?_, h, ((hid.trans hfrom).trans hto).trans hmodes⟩
  exact Link.withModes_renumber
    { id, fromNode, toNode, length := plan.length, freespeed := plan.freespeed } modes

/-- The id of a link comes from the store. -/
theorem LinkPlan.issued_issue (s : IdStore) (plan : LinkPlan) :
    (plan.issue s).2.Issued (plan.issue s).1.id := by
  refine (s.creates .link plan.name).issued.mono ?_
  refine .trans ?_ (IdStore.createsAll _ .mode plan.modes).grown
  exact (IdStore.creates _ .node plan.fromNode).grown.trans
    (IdStore.creates _ .node plan.toNode).grown

theorem CallPlan.issue_renumbered (h : s.Renumbered f t) (plan : CallPlan) :
    Agree (IdStore.Yields f (·.renumber f) s) (plan.issue s) (plan.issue t) := by
  -- The ids of the agent are created before that of the link, in both stores.
  have hwith (agent : AgentPlan) (link : String) (make : Agent → LinkId → Call)
      (hmake : ∀ agent link, make (agent.renumber f) (link.renumber f) =
        (make agent link).renumber f) :
      Agree (IdStore.Yields f (·.renumber f) s)
        ((agent.issue s).map fun (agent, ids) =>
          let (link, ids) := ids.create .link link
          (make agent link, ids))
        ((agent.issue t).map fun (agent, ids) =>
          let (link, ids) := ids.create .link link
          (make agent link, ids)) := by
    refine (agent.issue_renumbered h).map fun x y hagent => ?_
    refine hagent.elim fun agent s t h hagent => ?_
    dsimp only
    refine (h.create .link link).elim fun link s t h hlink => ?_
    exact ⟨hmake agent link, h, hagent.trans hlink⟩
  cases plan with
  | depart agent link now => exact hwith agent link (.depart · · now) fun _ _ => rfl
  | enter agent link now => exact hwith agent link (.enter · · now) fun _ _ => rfl
  | step now | finish now | reset => exact .ok ⟨rfl, h, .refl s⟩

end

/-! ## Executions under other numbers -/

namespace Execution

/-- The same stores, networks, engines and states under other numbers. The network was built with
ids of the store. -/
structure Renumbered (f : Renumbering) (v w : Execution) : Prop where
  ids : v.ids.Renumbered f w.ids
  network : w.network = v.network.renumber f
  built : v.network.Built v.ids
  running : Option.Rel (fun x y => x.1.supply.Renumbered f y.1.supply ∧
    x.2.Renumbered f x.1.supply.layout y.2) v.running w.running

/-- The same observation, and executions which are the same, under other numbers. -/
def Alike (f : Renumbering) (x y : Observation × Execution) : Prop :=
  y.1 = x.1.renumber f ∧ x.2.Renumbered f y.2

variable {v w : Execution} {ids ids' : IdStore}

theorem renumbered_start (h : ids.Renumbered f ids') : Renumbered f { ids } { ids := ids' } :=
  ⟨h, rfl, .empty, .none⟩

theorem rebuild_renumbered (h : v.Renumbered f w) (hids : ids.Renumbered f ids')
    {result result' : Except Fault Network} (he : result' = result.map (·.renumber f))
    (hbuilt : ∀ net, result = .ok net → net.Built ids) :
    Agree (Alike f) (v.rebuild ids result) (w.rebuild ids' result') := by
  refine (Agree.of_eq_map he).map fun net _ hnet => ?_
  obtain ⟨hnet, rfl⟩ := hnet
  exact ⟨rfl, hids, rfl, hbuilt net hnet, h.running⟩

theorem launch_renumbered (h : v.Renumbered f w) (hids : ids.Renumbered f ids')
    (hgrown : ids.Extends v.ids) (config : Config) {modes listed : List ModeId}
    (ha : Id.Apart modes) (hp : listed.Perm (modes.map (·.renumber f))) {a b : TravelTimes}
    (hrules : a.Renumbered f b) (hkeys : Id.Apart (a.rules.map (·.1))) (population : Population) :
    Agree (Alike f) (v.launch ids config modes a population)
      (w.launch ids' config listed b population) := by
  have hbuild := Engine.build_renumber hrules ha hp v.network config
  rw [← h.network] at hbuild
  refine (Agree.of_eq_map hbuild).map fun result _ hresult => ?_
  obtain ⟨hresult, rfl⟩ := hresult
  have hbuilt := h.built.mono hgrown
  have hmodes := hrules.modes_eq hkeys
  cases result with
  | error error =>
    refine ⟨?_, hids, h.network, hbuilt, h.running⟩
    simp only [Except.mapError, Except.map, hmodes]
    rfl
  | ok built =>
    -- the ids are apart in the new layout because the network was built with ids of one store
    have hclosed : built.engine.supply.layout.Closed :=
      Engine.Constructed.closed ⟨ids, v.network, config, modes, a, built.log, hbuilt,
        hresult⟩
    obtain ⟨_, -, -, htimes⟩ := Engine.build_eq_ok hresult
    have hsupply : built.engine.supply.Renumbered f (built.renumber f b).engine.supply :=
      ⟨rfl, htimes ▸ hrules, hclosed.links_apart, hclosed.junctions_apart⟩
    refine ⟨?_, hids, h.network, hbuilt,
      .some ⟨hsupply, Loading.renumbered_empty f built.engine.supply.layout population⟩⟩
    simp only [Except.mapError, Except.map, hmodes]
    rfl

theorem call_renumbered (h : v.Renumbered f w) (hids : ids.Renumbered f ids')
    (hgrown : ids.Extends v.ids) (first second : Listing) (orders : Orders) (call : Call) :
    Agree (Alike f) (v.call first ids orders call)
      (w.call second ids' orders (call.renumber f)) := by
  have hbuilt := h.built.mono hgrown
  have hrunning := h.running
  unfold Execution.call
  generalize v.running = x at hrunning ⊢
  generalize w.running = y at hrunning ⊢
  cases hrunning with
  | none => exact .ok ⟨rfl, hids, h.network, hbuilt, .none⟩
  | some hrunning =>
    refine Loading.Together.map (Engine.perform_renumbered hrunning.1 hrunning.2 orders call)
      fun answer s t hst => ⟨?_, hids, h.network, hbuilt,
        .some ⟨hrunning.1, hst.relisted first second⟩⟩
    -- What is observed are numbers and what was recorded, no ids by their numbers.
    simp only [hst.record, hst.traffic.onNetwork, hst.traffic.activeLinks.size_eq,
      hst.traffic.activeNodes.size_eq]
    rfl

theorem perform_renumbered (h : v.Renumbered f w) (first second : Listing) (operation : Operation) :
    Agree (Alike f) (v.perform first operation) (w.perform second operation) := by
  cases operation with
  | create kind name =>
    have hcreated := h.ids.create kind name
    exact .ok ⟨rfl, hcreated.stores, h.network, h.built.mono hcreated.grown, h.running⟩
  | addNode name x y =>
    have hissued := (v.ids.creates .node name).issued
    simp only [perform]
    revert hissued
    refine (h.ids.create .node name).elim fun id ids ids' hids hgrown hissued => ?_
    refine rebuild_renumbered h hids ?_ fun net hadd =>
      (h.built.mono hgrown).addNode hissued hadd
    rw [h.network]
    exact v.network.addNode_renumber { id, x, y }
  | addLink plan =>
    have hissued := plan.issued_issue v.ids
    simp only [perform]
    revert hissued
    refine (plan.issue_renumbered h.ids).elim fun link ids ids' hids hgrown hissued => ?_
    refine rebuild_renumbered h hids ?_ fun net hadd =>
      (h.built.mono hgrown).addLink hissued (Network.eq_ok_of_settled hadd)
    rw [h.network]
    exact v.network.addLink_renumber link
  | divide parts method =>
    refine rebuild_renumbered h h.ids ?_ fun net hdivide => h.built.divide hdivide
    rw [h.network]
    exact v.network.divide_renumber parts method
  | setPartition node part =>
    simp only [perform]
    refine (h.ids.create .node node).elim fun id ids ids' hids hgrown => ?_
    refine rebuild_renumbered h hids ?_ fun net hset =>
      (h.built.mono hgrown).setPartition (Network.eq_ok_of_settled hset)
    rw [h.network]
    exact v.network.setPartition_renumber id part
  | build config rules population =>
    have hblind : ∀ entry ∈ rules.map fun (mode, rule) => (mode, rule.byName), entry.2.Blind := by
      rintro entry hentry
      obtain ⟨⟨mode, rule⟩, -, rfl⟩ := List.mem_map.1 hentry
      exact rule.blind_byName
    obtain ⟨hrules, hstores, hgrown, hissued⟩ :=
      (TravelTimes.renumbered_empty f).insertNamed h.ids nofun hblind
    simp only [perform]
    generalize TravelTimes.insertNamed {} v.ids _ = x at hrules hstores hgrown hissued ⊢
    generalize TravelTimes.insertNamed {} w.ids _ = y at hrules hstores ⊢
    obtain ⟨a, ids⟩ := x
    obtain ⟨b, ids'⟩ := y
    -- the rules stand as one list and the modes as another, and each is listed in its own way
    have hkeys : Id.Apart (a.rules.map (·.1)) :=
      Id.apart_of_issued hissued hrules.nodup
    obtain ⟨hmodes, hapart⟩ := config.networkModes_renumbered hstores
    dsimp only at hmodes hapart ⊢
    revert hapart
    refine hmodes.elim fun modes ids ids' hids hmore hapart => ?_
    exact launch_renumbered h hids (hgrown.trans hmore) config (hapart.perm (first.perm id modes))
      ((second.perm id _).trans ((first.perm id modes).symm.map _)) (hrules.relisted first second)
      (hkeys.perm (a.modes_relisted_perm first)) population
  | call plan orders =>
    refine (plan.issue_renumbered h.ids).bind fun x y hplan => ?_
    refine hplan.elim fun call ids ids' hids hgrown => ?_
    exact call_renumbered h hids hgrown first second orders call

/-- What is seen of a program does not depend on the numbers. -/
theorem observe_renumbered (h : v.Renumbered f w) (first second : Listing)
    (program : List Operation) : v.observe first program = w.observe second program := by
  induction program generalizing v w with
  | nil => rfl
  | cons operation rest ih =>
    have hstep := perform_renumbered h first second operation
    unfold observe
    -- what is seen differs in its numbers, and these are blanked
    generalize v.perform first operation = x at hstep ⊢
    generalize w.perform second operation = y at hstep ⊢
    cases hstep with
    | fault fault => rfl
    | ok hstep =>
      obtain ⟨hseen, hnext⟩ := hstep
      simp only [hseen, Observation.blank_renumber, ih hnext]

end Execution

namespace Sample

/-- Some names, created in one order. -/
def early : IdStore :=
  .ofNames [(.mode, ["car", "bike"]), (.person, ["ann", "ben"]), (.link, ["lane", "track"]),
    (.node, ["gate", "yard", "mill"])]

/-- The same names, created in another order. -/
def late : IdStore :=
  .ofNames [(.mode, ["bike", "car"]), (.person, ["ben", "ann"]), (.link, ["track", "lane"]),
    (.node, ["mill", "gate", "yard"])]

/-- Two links, an engine which cannot be made, and one with an agent who goes astray, an agent who
is turned away and an agent who is stuck. -/
def errand : List Operation :=
  let orders : Orders := { forLinks := [0], forNodes := [0] }
  let route := ["lane", "track"]
  let lost : AgentPlan := { person := "ann", mode := "car", route := ["lane", "ghost"] }
  let slow : AgentPlan := { person := "ben", mode := "bike", route, position := 1 }
  let late : AgentPlan := { person := "ben", mode := "car", route }
  let link (name fromNode toNode : String) : Operation :=
    .addLink { name, fromNode, toNode, length := 100, freespeed := 10 }
  [.addNode "gate" 0 0, .addNode "yard" 100 0, .addNode "mill" 200 0,
    link "lane" "gate" "yard", link "track" "yard" "mill",
    .build { multimodal := { modes := ["car", "bike"] } } [] { living := 2 },
    .build {} [("car", .constant 5)] { living := 2 },
    .call (.depart lost "lane" 0) orders, .call (.enter slow "track" 0) orders,
    .call (.step 1) orders, .call (.depart late "lane" 1) orders, .call (.finish 2) orders]

end Sample

/-- The mode for want of whose travel time an engine could not be made. -/
def Observation.missing? : Observation → Option String
  | built _ (.error (.missingTravelTime mode)) => some mode.name
  | _ => none

namespace Execution

/-- Two stores with the same names, created in whatever order, and with whatever way to list the
elements of collections: a program is seen to do the same in both. All networks, answers, errors,
events and agents handed over agree, in their order and in all but the numbers. -/
theorem observe_eq_of_perm {ids₁ ids₂ : IdStore}
    (hnames : ∀ kind, (ids₂.names kind).Perm (ids₁.names kind)) (listing₁ listing₂ : Listing)
    (program : List Operation) :
    observe listing₁ { ids := ids₁ } program = observe listing₂ { ids := ids₂ } program := by
  obtain ⟨f, hids⟩ := IdStore.exists_renumbered hnames
  exact observe_renumbered (renumbered_start hids) listing₁ listing₂ program

theorem observe_eq_of_perm_errand :
    Sample.early.find? .link "lane" ≠ Sample.late.find? .link "lane" ∧
      (∀ kind, (Sample.late.names kind).Perm (Sample.early.names kind)) ∧
      observe .asGiven { ids := Sample.early } Sample.errand =
        observe .byNumber { ids := Sample.late } Sample.errand ∧
      (observe .byNumber { ids := Sample.late } Sample.errand).length = Sample.errand.length ∧
      (observe .byNumber { ids := Sample.late } Sample.errand).filterMap Observation.missing? =
        ["bike"] := by
  have hnames : ∀ kind, (Sample.late.names kind).Perm (Sample.early.names kind) := by
    intro kind
    cases kind <;> decide
  exact ⟨by decide, hnames,
    observe_eq_of_perm hnames .asGiven .byNumber Sample.errand,
    by decide +kernel, by decide +kernel⟩

end Execution

end NetworkLoading
