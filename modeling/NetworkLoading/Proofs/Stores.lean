import NetworkLoading.Network.Named
import NetworkLoading.Proofs.Network

/-!
# Stores which grow

Creating ids keeps all ids of a store and their numbers. What was built with the ids of a store is
therefore built with those of every later one, and a name which has an id keeps it.
-/

namespace NetworkLoading

variable {kind : IdKind}

namespace IdStore

variable {s t u : IdStore} {name : String}

/-- A store has all ids of another one, under the same numbers. -/
def Extends (t s : IdStore) : Prop :=
  ∀ kind, s.names kind <+: t.names kind

theorem Extends.refl (s : IdStore) : s.Extends s :=
  fun _ => List.prefix_rfl

theorem Extends.trans (h : t.Extends s) (h' : u.Extends t) : u.Extends s :=
  fun kind => (h kind).trans (h' kind)

theorem Issued.mono {id : Id kind} (hid : s.Issued id) (h : t.Extends s) : t.Issued id := by
  obtain ⟨hlt, hname⟩ := List.getElem?_eq_some_iff.1 hid
  exact List.getElem?_eq_some_iff.2
    ⟨Nat.lt_of_lt_of_le hlt (h kind).length_le, ((h kind).getElem hlt).symm.trans hname⟩

/-! ## Looking ids up -/

theorem find?_eq_some_of_issued {id : Id kind} (hid : s.Issued id) :
    s.find? kind id.name = some id :=
  find?_eq_some_iff.2 ⟨rfl, hid⟩

theorem require_eq_ok {id : Id kind} (hid : s.Issued id) : s.require kind id.name = .ok id := by
  rw [require, find?_eq_some_of_issued hid]

/-! ## Creating ids -/

theorem create_eq_of_issued {id : Id kind} (hid : s.Issued id) :
    s.create kind id.name = (id, s) :=
  create_of_find? s (find?_eq_some_of_issued hid)

theorem extends_append (hnew : (s.typed kind).find? name = none) :
    (s.append name kind hnew).Extends s := by
  intro other
  by_cases he : kind = other
  · subst he
    rw [names_append_self]
    exact List.prefix_append _ _
  · exact ⟨[], by rw [List.append_nil, names_append_of_ne s hnew he]⟩

/-- What creating an id yields. -/
structure Creates (s : IdStore) (name : String) (id : Id kind) (t : IdStore) : Prop where
  name_eq : id.name = name
  issued : t.Issued id
  grown : t.Extends s

theorem creates (s : IdStore) (kind : IdKind) (name : String) :
    s.Creates name (s.create kind name).1 (s.create kind name).2 := by
  cases hfound : s.find? kind name with
  | some id =>
    obtain ⟨hname, hid⟩ := find?_eq_some_iff.1 hfound
    rw [create_of_find? s hfound]
    exact ⟨hname, hid, .refl s⟩
  | none =>
    obtain ⟨hnew, hcreate⟩ := create_of_new s hfound
    rw [hcreate]
    refine ⟨rfl, ?_, extends_append hnew⟩
    simp [Issued]

/-- What creating several ids yields. -/
structure CreatesAll (s : IdStore) (names : List String) (ids : List (Id kind)) (t : IdStore) :
    Prop where
  names_eq : ids.map (·.name) = names
  issued : ∀ id ∈ ids, t.Issued id
  grown : t.Extends s

theorem createsAll (s : IdStore) (kind : IdKind) (names : List String) :
    s.CreatesAll names (s.createAll kind names).1 (s.createAll kind names).2 := by
  induction names generalizing s with
  | nil => exact ⟨rfl, nofun, .refl s⟩
  | cons name rest ih =>
    have hfirst := s.creates kind name
    have hrest := ih (s.create kind name).2
    exact ⟨congrArg₂ List.cons hfirst.name_eq hrest.names_eq,
      List.forall_mem_cons.2 ⟨hfirst.issued.mono hrest.grown, hrest.issued⟩,
      hfirst.grown.trans hrest.grown⟩

end IdStore

/-! ## What was built with a store -/

namespace Network

theorem Built.mono {s t : IdStore} {net : Network} (hb : net.Built s) (h : t.Extends s) :
    net.Built t := by
  induction hb with
  | empty => exact .empty
  | addNode _ hid ha ih => exact ih.addNode (hid.mono h) ha
  | addLink _ hid ha ih => exact ih.addLink (hid.mono h) ha
  | divide _ hd ih => exact ih.divide hd
  | setPartition _ hs ih => exact ih.setPartition hs

/-- A new link between two nodes of the network can be added. -/
theorem exists_addLink {net : Network} (hi : net.Indexed) {link : Link}
    (hnew : net.link? link.id = none)
    (hfrom : link.fromNode ∈ net.nodes.map (·.id)) (hto : link.toNode ∈ net.nodes.map (·.id)) :
    ∃ net', net.addLink link = .ok () net' := by
  have hknown {net : Network} (hi : net.Indexed) {id : NodeId}
      (hmem : id ∈ net.nodes.map (·.id)) : ∃ node, net.node? id = some node :=
    Option.ne_none_iff_exists'.1 fun hnone => hi.node?_eq_none.1 hnone hmem
  obtain ⟨_, hsource⟩ := hknown hi hfrom
  have hnoted := hi.updateNode link.fromNode
    (f := fun node => { node with outLinks := node.outLinks ++ [link.id] }) fun _ => rfl
  rw [← ids_updateNode net link.fromNode
    (f := fun node => { node with outLinks := node.outLinks ++ [link.id] }) fun _ => rfl] at hto
  obtain ⟨_, htarget⟩ := hknown hnoted hto
  simp [addLink, hnew, hsource, htarget]

/-- Adding a link changes no ids, and the link joins those which were there. -/
theorem elements_addLink {net net' : Network} (hi : net.Indexed) {link : Link}
    (h : net.addLink link = .ok () net') :
    net'.nodes.map (·.id) = net.nodes.map (·.id) ∧
      ∃ partition, net'.links = net.links ++ [{ link with partition }] := by
  obtain ⟨-, -, target, -, -, rfl⟩ := addLink_eq_ok hi h
  exact ⟨ids_wire net.nodes link, target.partition, rfl⟩

end Network

/-! ## Networks which are built by name -/

/-- The name of a link, and those of the nodes where it starts and where it ends. -/
def Link.names (link : Link) : String × String × String :=
  (link.id.name, link.fromNode.name, link.toNode.name)

namespace NamedNetwork

/-- What the nodes and the links of a network are called, all of which have ids of its store. The
links are open to all modes. -/
structure Called (n : NamedNetwork) (nodes : List String)
    (links : List (String × String × String)) :    Prop where
  built : n.network.Built n.ids
  nodes_eq : n.network.nodes.map (·.id.name) = nodes
  links_eq : n.network.links.map Link.names = links
  fromNode : ∀ link ∈ n.network.links, n.ids.Issued link.fromNode
  modes : ∀ link ∈ n.network.links, link.modes = []

variable {n : NamedNetwork} {nodes : List String} {links : List (String × String × String)}

theorem called_empty (ids : IdStore) : Called { network := .empty, ids } [] [] :=
  ⟨.empty, rfl, rfl, nofun, nofun⟩

/-- The id of a node. -/
theorem Called.node (h : n.Called nodes links) {name : String} (hname : name ∈ nodes) :
    ∃ id : NodeId, id.name = name ∧ n.ids.Issued id ∧ id ∈ n.network.nodes.map (·.id) := by
  rw [← h.nodes_eq] at hname
  obtain ⟨node, hnode, rfl⟩ := List.mem_map.1 hname
  have hmem : node.id ∈ n.network.nodes.map (·.id) := List.mem_map_of_mem hnode
  exact ⟨node.id, rfl, h.built.issued.1 _ hmem, hmem⟩

theorem Called.addNode (h : n.Called nodes links) {name : String} (hnew : name ∉ nodes)
    (x y : Float) : ∃ n', n.addNode name x y = .ok n' ∧ n'.Called (nodes ++ [name]) links := by
  have hcreates := n.ids.creates .node name
  have hbuilt := h.built.mono hcreates.grown
  have hi := h.built.wired.indexed
  -- Ids of one store with the same name are equal, so a new name has a new id.
  have hnode : n.network.node? (n.ids.create .node name).1 = none := by
    refine hi.node?_eq_none.2 fun hmem => hnew ?_
    rw [← h.nodes_eq, ← hcreates.name_eq]
    obtain ⟨node, hnode, he⟩ := List.mem_map.1 hmem
    exact he ▸ List.mem_map_of_mem hnode
  have hadd : n.network.addNode { id := (n.ids.create .node name).1, x, y } =
      .ok { n.network with
        nodes := n.network.nodes ++ [{ id := (n.ids.create .node name).1, x, y }]
        nodeIndex := n.network.nodeIndex.insert (n.ids.create .node name).1
          n.network.nodes.length } := by
    simp [Network.addNode, hnode]
  refine ⟨⟨_, (n.ids.create .node name).2⟩, by simp only [NamedNetwork.addNode, hadd, Except.map],
    ⟨hbuilt.addNode hcreates.issued hadd, ?_, h.links_eq, ?_, h.modes⟩⟩
  · simp [h.nodes_eq, hcreates.name_eq]
  · exact fun link hlink => (h.fromNode link hlink).mono hcreates.grown

theorem Called.addLink (h : n.Called nodes links) {name fromName toName : String}
    (hnew : name ∉ links.map (·.1)) (hfrom : fromName ∈ nodes) (hto : toName ∈ nodes)
    (length freespeed : Float) :
    ∃ n', n.addLink name fromName toName length freespeed = .ok n' ∧
      n'.Called nodes (links ++ [(name, fromName, toName)]) := by
  have hcreates := n.ids.creates .link name
  -- The ends are found by their names, which the store has issued to nodes.
  obtain ⟨source, rfl, hsource, hsource_mem⟩ := h.node hfrom
  obtain ⟨target, rfl, htarget, htarget_mem⟩ := h.node hto
  have hi := h.built.wired.indexed
  have hlink : n.network.link? (n.ids.create .link name).1 = none := by
    refine hi.link?_eq_none.2 fun hmem => hnew ?_
    obtain ⟨link, hlink, hid⟩ := List.mem_map.1 hmem
    rw [← h.links_eq, List.map_map, ← hcreates.name_eq, ← hid]
    exact List.mem_map_of_mem hlink
  let new : Link :=
    { id := (n.ids.create .link name).1, fromNode := source, toNode := target, length, freespeed }
  obtain ⟨net, hadd⟩ : ∃ net, n.network.addLink new = .ok () net :=
    Network.exists_addLink hi hlink hsource_mem htarget_mem
  obtain ⟨hnodes, partition, hlinks⟩ := Network.elements_addLink hi hadd
  have hold (P : Link → Prop) (hlast : P { new with partition })
      (hall : ∀ link ∈ n.network.links, P link) : ∀ link ∈ net.links, P link := by
    rw [hlinks]
    exact List.forall_mem_append.2 ⟨hall, List.forall_mem_singleton.2 hlast⟩
  refine ⟨⟨net, (n.ids.create .link name).2⟩, ?_,
    (h.built.mono hcreates.grown).addLink hcreates.issued hadd, ?_, ?_, ?_, hold _ rfl h.modes⟩
  · simp only [NamedNetwork.addLink, IdStore.require_eq_ok (hsource.mono hcreates.grown),
      IdStore.require_eq_ok (htarget.mono hcreates.grown), Except.bind]
    rw [hadd]
  · have hnames := congrArg (List.map (·.name)) hnodes
    rw [List.map_map, List.map_map] at hnames
    exact hnames.trans h.nodes_eq
  · simp [hlinks, h.links_eq, Link.names, new, hcreates.name_eq]
  · exact hold _ (hsource.mono hcreates.grown) fun link hlink =>
      (h.fromNode link hlink).mono hcreates.grown

/-- Nodes with new names can be added one after the other. -/
theorem Called.addNodes {α : Type} {new : List α} {name : α → String}
    (h : n.Called nodes links) (hnew : (nodes ++ new.map name).Nodup) (x y : α → Float) :
    ∃ n', new.foldlM (fun n a => n.addNode (name a) (x a) (y a)) n = .ok n' ∧
      n'.Called (nodes ++ new.map name) links := by
  induction new generalizing n nodes with
  | nil => exact ⟨n, rfl, by simpa using h⟩
  | cons a rest ih =>
    rw [List.map_cons, List.append_cons] at hnew ⊢
    have ha : name a ∉ nodes := fun hmem =>
      (List.nodup_append.1 (List.nodup_append.1 hnew).1).2.2 _ hmem _ (List.mem_singleton_self _)
        rfl
    obtain ⟨n', hn', hcalled⟩ := h.addNode ha (x a) (y a)
    obtain ⟨n'', hn'', hcalled'⟩ := ih hcalled hnew
    exact ⟨n'', by rw [List.foldlM_cons, hn']; exact hn'', hcalled'⟩

/-- Links with new names can be added one after the other between nodes which are there. -/
theorem Called.addLinks {α : Type} {new : List α} {name fromName toName : α → String}
    (h : n.Called nodes links) (hnew : (links.map (·.1) ++ new.map name).Nodup)
    (hends : ∀ a ∈ new, fromName a ∈ nodes ∧ toName a ∈ nodes) (length freespeed : Float) :
    ∃ n', new.foldlM (fun n a => n.addLink (name a) (fromName a) (toName a) length freespeed) n =
        .ok n' ∧
      n'.Called nodes (links ++ new.map fun a => (name a, fromName a, toName a)) := by
  induction new generalizing n links with
  | nil => exact ⟨n, rfl, by simpa using h⟩
  | cons a rest ih =>
    obtain ⟨hfirst, hrest⟩ := List.forall_mem_cons.1 hends
    rw [List.map_cons, List.append_cons] at hnew
    have ha : name a ∉ links.map (·.1) := fun hmem =>
      (List.nodup_append.1 (List.nodup_append.1 hnew).1).2.2 _ hmem _ (List.mem_singleton_self _)
        rfl
    obtain ⟨n', hn', hcalled⟩ := h.addLink ha hfirst.1 hfirst.2 length freespeed
    obtain ⟨n'', hn'', hcalled'⟩ := ih hcalled (by simpa using hnew) hrest
    exact ⟨n'', by rw [List.foldlM_cons, hn']; exact hn'', by simpa using hcalled'⟩

end NamedNetwork

end NetworkLoading
