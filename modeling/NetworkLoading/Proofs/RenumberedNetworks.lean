import NetworkLoading.Proofs.Layout
import NetworkLoading.Proofs.Renumbering
import NetworkLoading.Proofs.TravelTimes

/-!
# Networks under other numbers

Building a network, loading a part of it and making an engine for it come to the same under other
numbers. The modes for which an engine is made may be listed in any order: the missing one that is
reported is the first by name.
-/

namespace NetworkLoading

variable {f : Renumbering}

/-! ## Elements of a network -/

/-- The same node under other numbers. -/
def Node.renumber (f : Numbers) (node : Node) : Node :=
  { node with
    id := node.id.renumber f
    inLinks := node.inLinks.map (·.renumber f)
    outLinks := node.outLinks.map (·.renumber f) }

/-- The same link under other numbers. -/
def Link.renumber (f : Numbers) (link : Link) : Link :=
  { link with
    id := link.id.renumber f
    fromNode := link.fromNode.renumber f
    toNode := link.toNode.renumber f
    modes := link.modes.map (·.renumber f) }

/-- The same junction under other numbers. -/
def Junction.renumber (f : Numbers) (node : Junction) : Junction :=
  { node with
    id := node.id.renumber f
    inLinks := node.inLinks.map (·.renumber f) }

@[simp] theorem Node.id_renumber (f : Numbers) (node : Node) :
    (node.renumber f).id = node.id.renumber f := rfl

@[simp] theorem Link.id_renumber (f : Numbers) (link : Link) :
    (link.renumber f).id = link.id.renumber f := rfl

@[simp] theorem Link.fromNode_renumber (f : Numbers) (link : Link) :
    (link.renumber f).fromNode = link.fromNode.renumber f := rfl

@[simp] theorem Link.toNode_renumber (f : Numbers) (link : Link) :
    (link.renumber f).toNode = link.toNode.renumber f := rfl

@[simp] theorem Node.blank_renumber (f : Numbers) (node : Node) :
    (node.renumber f).renumber .blank = node.renumber .blank := by
  simp [renumber]

@[simp] theorem Link.blank_renumber (f : Numbers) (link : Link) :
    (link.renumber f).renumber .blank = link.renumber .blank := by
  simp [renumber]

/-- What holds of a list if it holds of the rest without its first element. -/
theorem eraseDups_induction {α : Type} [BEq α] {P : List α → Prop} (nil : P [])
    (cons : ∀ x xs, P (xs.filter fun y => !y == x) → P (x :: xs)) (xs : List α) : P xs := by
  induction hn : xs.length using Nat.strongRecOn generalizing xs with
  | ind n ih =>
    cases xs with
    | nil => exact nil
    | cons x xs =>
      have hlt : (xs.filter fun y => !y == x).length < n :=
        hn ▸ Nat.lt_succ_of_le (List.length_filter_le _ xs)
      exact cons x xs (ih _ hlt _ rfl)

theorem eraseDups_map {α β : Type} [BEq α] [LawfulBEq α] [BEq β] [LawfulBEq β] {g : α → β}
    (hg : Function.Injective g) (xs : List α) :
    (xs.map g).eraseDups = xs.eraseDups.map g := by
  induction xs using eraseDups_induction with
  | nil => rfl
  | cons x xs ih =>
    have hsame (y : α) : (g y == g x) = (y == x) := by
      rw [Bool.eq_iff_iff, beq_iff_eq, beq_iff_eq, hg.eq_iff]
    rw [List.map_cons, List.eraseDups_cons, List.eraseDups_cons, List.map_cons, ← ih,
      List.filter_map]
    simp only [Function.comp_def, hsame]

theorem nodup_eraseDups {α : Type} [BEq α] [LawfulBEq α] (xs : List α) : xs.eraseDups.Nodup := by
  induction xs using eraseDups_induction with
  | nil => exact List.nodup_nil
  | cons x xs ih =>
    rw [List.eraseDups_cons]
    refine List.nodup_cons.2 ⟨fun hmem => ?_, ih⟩
    have hkept := (List.mem_filter.1 (List.mem_eraseDups.1 hmem)).2
    simp at hkept

theorem Link.withModes_renumber (link : Link) (modes : List ModeId) :
    (link.renumber f).withModes (modes.map (·.renumber f)) =
      (link.withModes modes).renumber f := by
  have hmodes := eraseDups_map (Id.renumber_injective f) modes
  simp only [withModes, renumber, hmodes]

@[simp] theorem Link.allows_renumber (link : Link) (mode : ModeId) :
    (link.renumber f).allows (mode.renumber f) = link.allows mode := by
  have hmem : (link.modes.map (Id.renumber f)).contains (mode.renumber f) =
      link.modes.contains mode := by
    rw [Bool.eq_iff_iff, List.contains_iff_mem, List.contains_iff_mem, Id.mem_map_renumber]
  simp only [allows, renumber, List.isEmpty_map, hmem]

/-- Among elements under other numbers, the one with an id is found under the other number. -/
theorem find?_renumber {α : Type} {kind : IdKind} {k : α → Id kind} {g : α → α}
    (h : ∀ a, k (g a) = (k a).renumber f) (xs : List α) (id : Id kind) :
    (xs.map g).find? (k · = id.renumber f) = (xs.find? (k · = id)).map g := by
  simp only [List.find?_map, Function.comp_def, h, Id.renumber_inj]

/-! ## Networks -/

namespace Network

/-- The same network under other numbers. -/
def renumber (f : Numbers) (net : Network) : Network :=
  { net with
    nodes := net.nodes.map (·.renumber f)
    links := net.links.map (·.renumber f)
    nodeIndex := net.nodeIndex.mapKeys (·.renumber f)
    linkIndex := net.linkIndex.mapKeys (·.renumber f) }

@[simp] theorem numParts_renumber (f : Numbers) (net : Network) :
    (net.renumber f).numParts = net.numParts := rfl

@[simp] theorem blank_renumber (f : Numbers) (net : Network) :
    (net.renumber f).renumber .blank = net.renumber .blank := by
  simp [renumber]

theorem node?_renumber (net : Network) (id : NodeId) :
    (net.renumber f).node? (id.renumber f) = (net.node? id).map (·.renumber f) :=
  net.nodeIndex.find?_mapKeys (Id.renumber_injective f) net.nodes id _

theorem link?_renumber (net : Network) (id : LinkId) :
    (net.renumber f).link? (id.renumber f) = (net.link? id).map (·.renumber f) :=
  net.linkIndex.find?_mapKeys (Id.renumber_injective f) net.links id _

theorem updateNode_renumber {c d : Node → Node}
    (h : ∀ node, d (node.renumber f) = (c node).renumber f) (net : Network)
    (id : NodeId) :
    (net.renumber f).updateNode (id.renumber f) d = (net.updateNode id c).renumber f := by
  simp only [updateNode, renumber, mk.injEq, and_true]
  exact net.nodeIndex.modify_mapKeys (Id.renumber_injective f) net.nodes id h

theorem addNode_renumber (net : Network) (node : Node) :
    (net.renumber f).addNode (node.renumber f) = (net.addNode node).map (·.renumber f) := by
  have hfound : ((net.renumber f).node? (node.renumber f).id).isSome =
      (net.node? node.id).isSome := by
    rw [Node.id_renumber, node?_renumber, Option.isSome_map]
  unfold addNode
  rw [hfound]
  split
  · rfl
  · simp [renumber, Except.map, Dictionary.mapKeys_insert (Id.renumber_injective f)]

theorem addLink_renumber (net : Network) (link : Link) :
    settled ((net.renumber f).addLink (link.renumber f)) =
      (settled (net.addLink link)).map (·.renumber f) := by
  have hfound : ((net.renumber f).link? (link.renumber f).id).isSome =
      (net.link? link.id).isSome := by
    rw [Link.id_renumber, link?_renumber, Option.isSome_map]
  -- The two ends are looked up one after the other, each by its renumbered id.
  have hout := updateNode_renumber (f := f)
    (c := fun node => { node with outLinks := node.outLinks ++ [link.id] })
    (d := fun node => { node with outLinks := node.outLinks ++ [(link.renumber f).id] })
    (fun node => by simp [Node.renumber, Link.renumber]) net link.fromNode
  have hin (net : Network) := updateNode_renumber (f := f)
    (c := fun node => { node with inLinks := node.inLinks ++ [link.id] })
    (d := fun node => { node with inLinks := node.inLinks ++ [(link.renumber f).id] })
    (fun node => by simp [Node.renumber, Link.renumber]) net link.toNode
  unfold addLink
  rw [hfound]
  split
  · rfl
  · rw [Link.fromNode_renumber, node?_renumber]
    cases net.node? link.fromNode with
    | none => rfl
    | some _ =>
      rw [Link.toNode_renumber]
      simp only [Option.map_some, hout, hin, node?_renumber]
      cases (net.updateNode link.fromNode fun node =>
        { node with outLinks := node.outLinks ++ [link.id] }).node? link.toNode with
      | none => rfl
      | some target =>
        simp [settled, Except.map, renumber, Link.renumber, Node.renumber,
          Dictionary.mapKeys_insert (Id.renumber_injective f)]

theorem alignLinks_renumber (net : Network) :
    (net.renumber f).alignLinks = net.alignLinks.renumber f := by
  simp only [alignLinks]
  rw [renumber, mk.injEq]
  refine ⟨rfl, ?_, rfl, rfl, rfl⟩
  simp only [renumber, List.map_map]
  refine List.map_congr_left fun link _ => ?_
  have htarget := node?_renumber (f := f) net link.toNode
  simp only [renumber] at htarget
  simp only [Function.comp_apply, Link.toNode_renumber, htarget]
  cases net.node? link.toNode <;> rfl

theorem divide_renumber (net : Network) (parts : UInt32) (method : PartitionMethod) :
    (net.renumber f).divide parts method = (net.divide parts method).map (·.renumber f) := by
  unfold divide
  split
  · rfl
  · simp only [Except.map, ← alignLinks_renumber]
    congr 2
    simp only [renumber, mk.injEq, and_true]
    refine List.ext_getElem (by simp) fun i _ _ => ?_
    simp [Node.renumber]

theorem setPartition_renumber (net : Network) (id : NodeId) (part : UInt32) :
    settled ((net.renumber f).setPartition (id.renumber f) part) =
      (settled (net.setPartition id part)).map (·.renumber f) := by
  have hupdate := updateNode_renumber (f := f) (c := fun node => { node with partition := part })
    (d := fun node => { node with partition := part }) (fun _ => rfl) net id
  unfold setPartition
  rw [node?_renumber]
  cases net.node? id with
  | none => rfl
  | some _ =>
    simp only [Option.map_some, hupdate]
    split
    · simp only [settled, Except.map, ← alignLinks_renumber]
      rfl
    · rfl

end Network

/-! ## Layouts -/

namespace Layout

/-- The same layout under other numbers. -/
def renumber (f : Numbers) (l : Layout) : Layout :=
  { l with
    links := l.links.map (·.renumber f)
    junctions := l.junctions.map (·.renumber f) }

@[simp] theorem linkIds_renumber (f : Numbers) (l : Layout) :
    (l.renumber f).linkIds = l.linkIds.map (·.renumber f) := by
  simp only [linkIds, renumber, List.map_map]
  rfl

@[simp] theorem nodeIds_renumber (f : Numbers) (l : Layout) :
    (l.renumber f).nodeIds = l.nodeIds.map (·.renumber f) := by
  simp only [nodeIds, renumber, List.map_map]
  rfl

theorem link?_renumber (l : Layout) (id : LinkId) :
    (l.renumber f).link? (id.renumber f) = (l.link? id).map (·.renumber f) :=
  find?_renumber (k := Link.id) (fun _ => rfl) l.links id

theorem junction?_renumber (l : Layout) (id : NodeId) :
    (l.renumber f).junction? (id.renumber f) = (l.junction? id).map (·.renumber f) :=
  find?_renumber (k := Junction.id) (fun _ => rfl) l.junctions id

theorem link_renumber (l : Layout) (id : LinkId) :
    (l.renumber f).link (id.renumber f) = (l.link id).map (·.renumber f) := by
  unfold link
  rw [link?_renumber]
  cases l.link? id <;> rfl

theorem junction_renumber (l : Layout) (id : NodeId) :
    (l.renumber f).junction (id.renumber f) = (l.junction id).map (·.renumber f) := by
  unfold junction
  rw [junction?_renumber]
  cases l.junction? id <;> rfl

variable {modes listed : List ModeId}

theorem usable_renumber (net : Network) (h : listed.Perm (modes.map (·.renumber f))) :
    usable (net.renumber f) listed = (usable net modes).map (·.renumber f) := by
  have hany (link : Link) : listed.any (link.renumber f).allows = modes.any link.allows := by
    rw [h.any_eq, List.any_map]
    exact congrArg modes.any (funext fun mode => Link.allows_renumber link mode)
  simp only [usable, Network.renumber, List.filter_map, Function.comp_def, hany, h.isEmpty_eq,
    List.isEmpty_map]

theorem joined_renumber (net : Network) (links : List LinkId) :
    joined (net.renumber f) (links.map (·.renumber f)) =
      (joined net links).map (·.renumber f) := by
  have hin (ids : List LinkId) :
      (ids.map (Id.renumber f)).filter (· ∈ links.map (Id.renumber f)) =
        (ids.filter (· ∈ links)).map (Id.renumber f) := by
    simp only [List.filter_map, Function.comp_def, Id.mem_map_renumber]
  have hany (node : Node) :
      ((node.renumber f).inLinks ++ (node.renumber f).outLinks).any
          (· ∈ links.map (Id.renumber f)) =
        (node.inLinks ++ node.outLinks).any (· ∈ links) := by
    simp only [Node.renumber, ← List.map_append, List.any_map, Function.comp_def,
      Id.mem_map_renumber]
  simp only [joined, Network.renumber, List.filter_map, List.map_map, Function.comp_def, hany]
  refine List.map_congr_left fun node _ => ?_
  simp only [Junction.renumber, Node.renumber, hin]

theorem partsOf_renumber (nodes : List Junction) :
    partsOf (nodes.map (·.renumber f)) = partsOf nodes := by
  simp only [partsOf, List.any_map, List.map_map]
  rfl

theorem ofNetwork_renumber (net : Network) (h : listed.Perm (modes.map (·.renumber f))) :
    ofNetwork (net.renumber f) listed = (ofNetwork net modes).map (·.renumber f) := by
  have hids : ((usable net modes).map (·.renumber f)).map (·.id) =
      ((usable net modes).map (·.id)).map (·.renumber f) := by
    rw [List.map_map, List.map_map]
    rfl
  simp only [ofNetwork, usable_renumber net h, hids, joined_renumber, partsOf_renumber]
  cases partsOf (joined net ((usable net modes).map (·.id))) <;> rfl

@[simp] theorem report_renumber (f : Numbers) (l : Layout) (net : Network) :
    (l.renumber f).report (net.renumber f) = l.report net := by
  simp only [report, renumber, Network.renumber, List.length_map]

end Layout

/-! ## Travel times -/

/-- A rule which does not look at numbers. -/
def TravelTime.Blind (rule : TravelTime) : Prop :=
  ∀ (f : Numbers) (link : Link) (now : UInt32) (agent : Agent),
    rule.seconds (link.renumber f) now (agent.renumber f) = rule.seconds link now agent

/-- The rule which is shown names only. -/
def TravelTime.byName : TravelTime → TravelTime
  | constant seconds => constant seconds
  | freeSpeed speed => freeSpeed speed
  | custom name seconds =>
    custom name fun link now agent => seconds (link.renumber .blank) now (agent.renumber .blank)

theorem TravelTime.blind_byName (rule : TravelTime) : rule.byName.Blind := by
  intro f link now agent
  cases rule with
  | constant seconds => rfl
  | freeSpeed speed => rfl
  | custom name seconds => simp [byName, TravelTime.seconds]

namespace TravelTimes

/-- The same rules for modes under other numbers. No rule looks at numbers, and no mode has two. -/
structure Renumbered (f : Renumbering) (a b : TravelTimes) : Prop where
  get? : ∀ mode : ModeId, b.get? (mode.renumber f) = a.get? mode
  blind : ∀ mode rule, a.get? mode = some rule → rule.Blind
  modes : (b.rules.map (·.1)).Perm ((a.rules.map (·.1)).map (·.renumber f))
  nodup : (a.rules.map (·.1)).Nodup

variable {a b : TravelTimes}

theorem Renumbered.exitTime (h : Renumbered f a b) (link : Link) (now : UInt32) (agent : Agent) :
    b.exitTime (link.renumber f) now (agent.renumber f) =
      (a.exitTime link now agent).mapError (·.renumber f) := by
  unfold TravelTimes.exitTime
  rw [Agent.mode_renumber, h.get?]
  cases hrule : a.get? agent.mode with
  | none => rfl
  | some rule =>
    simp only [h.blind agent.mode rule hrule f link now agent]
    split <;> rfl

theorem renumbered_empty (f : Renumbering) : Renumbered f {} {} :=
  ⟨fun _ => rfl, nofun, .refl _, List.nodup_nil⟩

/-- Setting the rule of a mode comes to the same under other numbers. -/
theorem Renumbered.insert (h : Renumbered f a b) (mode : ModeId) {rule : TravelTime}
    (hrule : rule.Blind) : Renumbered f (a.insert mode rule) (b.insert (mode.renumber f) rule) := by
  refine ⟨fun other => ?_, fun other found => ?_, ?_, nodup_insert h.nodup mode rule⟩
  · rw [get?_insert, get?_insert, h.get?]
    simp only [Id.renumber_inj]
  · rw [get?_insert]
    split
    · intro he
      cases he
      exact hrule
    · exact h.blind other found
  · rw [keys_insert, keys_insert, h.get?]
    split
    · exact h.modes
    · rw [List.map_append]
      exact h.modes.append_right _

theorem Renumbered.validate (h : Renumbered f a b) (modes : List ModeId) :
    b.validate (modes.map (·.renumber f)) = (a.validate modes).mapError (·.renumber f) := by
  unfold TravelTimes.validate
  simp only [List.filter_map, Function.comp_def, h.get?, Id.sort_map]
  cases Id.sort (modes.filter fun mode => (a.get? mode).isNone) <;> rfl

/-- The modes with a rule are the same in the same order, in whichever order the rules stand. -/
theorem Renumbered.modes_eq (h : Renumbered f a b) (ha : Id.Apart (a.rules.map (·.1))) :
    b.modes = a.modes.map (·.renumber f) :=
  Id.sort_of_perm ha h.modes

/-- The missing mode which is reported does not depend on the order in which modes are listed. -/
theorem validate_eq_of_perm (t : TravelTimes) {modes listed : List ModeId} (h : Id.Apart modes)
    (hp : listed.Perm modes) : t.validate listed = t.validate modes := by
  unfold TravelTimes.validate
  rw [Id.sort_eq_of_perm (h.sublist List.filter_sublist) (hp.filter _)]

end TravelTimes

/-! ## Engines -/

namespace Engine

/-- The same engine under other numbers, with travel times of its own. -/
def Built.renumber (f : Numbers) (travelTimes : TravelTimes) (built : Built) : Built :=
  { built with
    engine := { built.engine with
      supply := { layout := built.engine.supply.layout.renumber f, travelTimes } } }

theorem linkModes_renumber (net : Network) :
    linkModes (net.renumber f) = (linkModes net).map (·.renumber f) := by
  rw [linkModes, linkModes, ← eraseDups_map (Id.renumber_injective f), List.map_flatMap,
    Network.renumber, List.flatMap_map]
  rfl

theorem divided_renumber (net : Network) (c : Config.Partitioning) :
    divided (net.renumber f) c =
      (divided net c).map fun (net, log) => (net.renumber f, log) := by
  unfold divided
  simp only [Network.numParts_renumber, Network.divide_renumber]
  split
  · rfl
  · cases net.divide (max c.numParts 1) c.method <;> rfl

/-- An engine for a network under other numbers is the same but for the numbers, whatever the order
in which its modes are listed. So is the error if there is none. -/
theorem build_renumber {a b : TravelTimes} (h : a.Renumbered f b) {modes listed : List ModeId}
    (ha : Id.Apart modes) (hp : listed.Perm (modes.map (·.renumber f))) (net : Network)
    (config : Config) :
    build (net.renumber f) config listed b = (build net config modes a).map fun result =>
      (result.mapError (·.renumber f)).map (·.renumber f b) := by
  have hvalid : b.validate (if listed.isEmpty then linkModes (net.renumber f) else listed) =
      (a.validate (if modes.isEmpty then linkModes net else modes)).mapError
        (·.renumber f) := by
    rw [hp.isEmpty_eq, List.isEmpty_map]
    -- without modes of its own, the engine takes those of the links, in the order of the links
    split
    · rw [linkModes_renumber, h.validate]
    · rw [b.validate_eq_of_perm (ha.map f) hp, h.validate]
  unfold build
  rw [hvalid]
  cases a.validate (if modes.isEmpty then linkModes net else modes) with
  | error error => rfl
  | ok _ =>
    simp only [Except.mapError, divided_renumber]
    cases divided net config.partitioning with
    | error fault => rfl
    | ok division =>
      obtain ⟨net, log⟩ := division
      simp only [Except.map, Except.bind, Layout.ofNetwork_renumber net hp]
      cases Layout.ofNetwork net modes with
      | error fault => rfl
      | ok l => simp [Built.renumber]

end Engine

end NetworkLoading
