import Mathlib.Algebra.GroupWithZero.Nat
import NetworkLoading.Proofs.Calls
import NetworkLoading.Proofs.RenumberedStates

/-!
# Calls under other numbers

Every operation of a loading leads from states which are the same under other numbers to such
states, and answers both alike. Where elements are visited one after the other, they are sorted by
name first, so that the order in which sets and tables list them is lost.
-/

namespace NetworkLoading

variable {f : Renumbering}

namespace Layout

variable {l : Layout}

theorem mem_of_link_eq_ok {id : LinkId} {link : Link} (h : l.link id = .ok link) :
    link ∈ l.links := by
  unfold Layout.link at h
  split at h
  · rename_i hfound
    cases h
    exact List.mem_of_find?_eq_some hfound
  · cases h

theorem mem_of_junction_eq_ok {id : NodeId} {node : Junction} (h : l.junction id = .ok node) :
    node ∈ l.junctions := by
  unfold junction at h
  split at h
  · rename_i hfound
    cases h
    exact List.mem_of_find?_eq_some hfound
  · cases h

end Layout

namespace Loading

variable {supply supply' : Supply} {s t : Loading}

namespace Renumbered

/-! ## Looking elements up -/

theorem link (hs : supply.Renumbered f supply') (id : LinkId) :
    Agree (fun link link' => link' = link.renumber f ∧ link ∈ supply.layout.links)
      (supply.layout.link id) (supply'.layout.link (id.renumber f)) := by
  rw [hs.layout, Layout.link_renumber]
  cases hlink : supply.layout.link id with
  | error fault => exact .fault fault
  | ok link => exact .ok ⟨rfl, Layout.mem_of_link_eq_ok hlink⟩

theorem junction (hs : supply.Renumbered f supply') (id : NodeId) :
    Agree (fun node node' => node' = node.renumber f ∧ node ∈ supply.layout.junctions)
      (supply.layout.junction id) (supply'.layout.junction (id.renumber f)) := by
  rw [hs.layout, Layout.junction_renumber]
  cases hnode : supply.layout.junction id with
  | error fault => exact .fault fault
  | ok node => exact .ok ⟨rfl, Layout.mem_of_junction_eq_ok hnode⟩

/-! ## Links -/

theorem enterLink (hs : supply.Renumbered f supply') (h : Renumbered f supply.layout s t)
    {link : Link} (hl : link ∈ supply.layout.links) (agent : Agent) (now : UInt32) :
    Agree (Together f supply.layout (·.mapError (·.renumber f))) (s.enterLink supply link agent now)
      (t.enterLink supply' (link.renumber f) (agent.renumber f) now) := by
  unfold Loading.enterLink
  rw [hs.travelTimes.exitTime]
  cases supply.travelTimes.exitTime link now agent with
  | error error => exact .ok ⟨rfl, h⟩
  | ok exitTime =>
    have hcounted := (h.publish (.entered now link.id agent.id)).countIn 1
    have hentered := hcounted.updateQueue (c := (·.enter { exitTime, agent }))
      (d := (·.enter { exitTime, agent := agent.renumber f }))
      (fun q => q.enter_renumber { exitTime, agent }) link.id
    exact Together.map (hentered.activateLink hl) fun _ _ _ hst => ⟨rfl, hst⟩

theorem departOn (h : Renumbered f supply.layout s t) {link : Link}
    (hl : link ∈ supply.layout.links) (agent : Agent) (now : UInt32) :
    Agree (Renumbered f supply.layout) (s.departOn link agent now)
      (t.departOn (link.renumber f) (agent.renumber f) now) := by
  have hcounted := (h.publish (.waits now link.id agent.id (some agent.mode))).countIn 1
  have hwaiting := hcounted.updateQueue (c := (·.depart agent)) (d := (·.depart (agent.renumber f)))
    (fun q => q.depart_renumber agent) link.id
  exact Together.map (hwaiting.activateLink hl) fun _ _ _ hst => hst

theorem arrive {l : Layout} (h : Renumbered f l s t) (now : UInt32) (agent : Agent) :
    Renumbered f l (s.arrive now agent) (t.arrive now (agent.renumber f)) := by
  unfold Loading.arrive
  rw [Agent.arrive_renumber]
  exact (h.countOut 1).handOver _

theorem advanceLink (hs : supply.Renumbered f supply') (h : Renumbered f supply.layout s t)
    (link : Link) (now : UInt32) :
    Agree (Together f supply.layout id) (s.advanceLink supply link now)
      (t.advanceLink supply' (link.renumber f) now) := by
  -- The due agents and the queue behind them are the same up to the renumbering.
  have harriving := (s.queue link.id).arriving_renumber (f := f) link.id now
  have hadvance := (s.queue link.id).advance_renumber (f := f) link.id now
  have htransit : (((s.queue link.id).advance link.id now).renumber f).inTransit.isEmpty =
      ((s.queue link.id).advance link.id now).inTransit.isEmpty := List.isEmpty_map
  have hgone := foldl_related (R := Renumbered f supply.layout)
    (fun _ _ agent h => h.arrive now agent) ((s.queue link.id).arriving link.id now) h
  have hmoved := hgone.updateQueue (c := fun _ => (s.queue link.id).advance link.id now)
    (d := fun _ => ((s.queue link.id).advance link.id now).renumber f) (fun _ => rfl) link.id
  unfold Loading.advanceLink
  simp only [Link.id_renumber, Link.toNode_renumber, h.queue, harriving, hadvance,
    LinkQueue.toLeave_renumber, List.isEmpty_map, htransit]
  split
  · exact .ok ⟨rfl, hmoved⟩
  · refine (junction hs link.toNode).bind fun node _ hnode => ?_
    rw [hnode.1]
    exact Together.map (hmoved.activateNode hnode.2) fun _ _ _ hst => ⟨rfl, hst⟩

theorem pull {l : Layout} (h : Renumbered f l s t) (link : LinkId) (now : UInt32) :
    Together f l (·.map (·.renumber f)) (s.pull link now) (t.pull (link.renumber f) now) := by
  unfold Loading.pull
  rw [h.queue, LinkQueue.toLeave_renumber]
  cases (s.queue link).toLeave with
  | nil => exact ⟨rfl, h⟩
  | cons agent rest =>
    have htaken := h.updateQueue (c := fun q => { q with toLeave := rest })
      (d := fun q => { q with toLeave := rest.map (·.renumber f) }) (fun _ => rfl) link
    exact ⟨rfl, (htaken.countOut 1).publish (.left now link agent.id)⟩

theorem clearLink {l : Layout} (h : Renumbered f l s t) (link : LinkId) (now : UInt32) :
    Together f l id (s.clearLink link now) (t.clearLink (link.renumber f) now) := by
  have haborted := foldl_related (R := Renumbered f l)
    (g := fun s agent => Loading.abort s agent link now)
    (d := fun s agent => Loading.abort s agent (link.renumber f) now)
    (fun _ _ agent h => h.abort agent link now) (s.queue link).agents h
  unfold Loading.clearLink
  simp only [h.queue, LinkQueue.agents_renumber, List.length_map]
  exact ⟨rfl, (haborted.countOut _).updateQueue (c := fun _ => {}) (d := fun _ => {})
    (fun _ => rfl) link⟩

/-! ## Nodes -/

theorem nextLink (l : Layout) (node : Junction) (inLink : LinkId) (agent : Agent) :
    Loading.nextLink (l.renumber f) (node.renumber f) (inLink.renumber f) (agent.renumber f) =
      ((Loading.nextLink l node inLink agent).mapError (·.renumber f)).map (·.renumber f) := by
  unfold Loading.nextLink
  rw [Agent.next?_renumber]
  cases agent.next? with
  | none => rfl
  | some next =>
    simp only [Option.map_some, Layout.link?_renumber]
    cases l.link? next with
    | none => rfl
    | some link =>
      have hfrom : (link.renumber f).fromNode = (node.renumber f).id ↔ link.fromNode = node.id :=
        Id.renumber_inj
      simp only [Option.map_some, hfrom]
      split <;> rfl

theorem moveOver (hs : supply.Renumbered f supply') (h : Renumbered f supply.layout s t)
    (node : Junction) (inLink : LinkId) (agent : Agent) (now : UInt32) :
    Agree (SameOutcome f supply.layout) (s.moveOver supply node inLink agent now)
      (t.moveOver supply' (node.renumber f) (inLink.renumber f) (agent.renumber f) now) := by
  unfold Loading.moveOver
  rw [hs.layout, nextLink]
  cases hnext : Loading.nextLink supply.layout node inLink agent with
  | error error =>
    have hmessage := LoadingError.message_renumber f error
    -- the log names the agent and the error, so the line is one and the same
    simp only [Except.mapError, Except.map, hmessage, Agent.id_renumber, Id.name_renumber]
    exact .ok ⟨rfl, (h.say _).abort agent inLink now⟩
  | ok link =>
    obtain ⟨hl, hchosen, -⟩ := nextLink_eq_ok hnext
    have hchosen' : (agent.renumber f).next? = some (link.renumber f).id := by
      rw [Agent.next?_renumber, hchosen]
      rfl
    simp only [Except.mapError, Except.map, Agent.moveTo_next? hchosen,
      Agent.moveTo_next? hchosen', Agent.proceed_renumber]
    refine Together.map (enterLink hs h hl agent.proceed now) fun result _ _ hst => ?_
    cases result with
    | ok _ => exact ⟨rfl, hst⟩
    | error rejected => exact ⟨rfl, hst.abort rejected.agent link.id now⟩

theorem drain (hs : supply.Renumbered f supply') (h : Renumbered f supply.layout s t)
    (node : Junction) (inLink : LinkId) (now : UInt32) (count : Nat) :
    Agree (SameOutcome f supply.layout) (s.drain supply node inLink now count)
      (t.drain supply' (node.renumber f) (inLink.renumber f) now count) := by
  induction count generalizing s t with
  | zero => exact .ok ⟨rfl, h⟩
  | succ count ih =>
    have hpull := h.pull inLink now
    unfold Loading.drain
    -- Name the results of both pulls, so that the induction sees any two related states.
    generalize s.pull inLink now = taken at hpull ⊢
    generalize t.pull (inLink.renumber f) now = taken' at hpull ⊢
    obtain ⟨agent?, s⟩ := taken
    obtain ⟨agent?', t⟩ := taken'
    obtain ⟨rfl, hst⟩ := hpull
    cases agent? with
    | none => exact .ok ⟨rfl, hst⟩
    | some agent =>
      refine Together.bind (moveOver hs hst node inLink agent now) fun result _ _ hst => ?_
      cases result with
      | error error => exact .ok ⟨rfl, hst⟩
      | ok _ => exact Together.map (ih hst) fun taken _ _ hst => sameOutcome_map hst (· + 1) taken

theorem drainAll (hs : supply.Renumbered f supply') (h : Renumbered f supply.layout s t)
    (node : Junction) (now : UInt32) (inLinks : List LinkId) :
    Agree (SameOutcome f supply.layout) (s.drainAll supply node now inLinks)
      (t.drainAll supply' (node.renumber f) now (inLinks.map (·.renumber f))) := by
  induction inLinks generalizing s t with
  | nil => exact .ok ⟨rfl, h⟩
  | cons inLink rest ih =>
    rw [List.map_cons]
    unfold Loading.drainAll
    refine (link hs inLink).bind fun _ _ _ => ?_
    -- as many agents are taken as were waiting: the length of the queue, which numbers leave alone
    rw [h.queue, LinkQueue.toLeave_renumber, List.length_map]
    refine Together.bind (drain hs h node inLink now _) fun taken _ _ hst => ?_
    cases taken with
    | error error => exact .ok ⟨rfl, hst⟩
    | ok taken =>
      exact Together.map (ih hst) fun more _ _ hst => sameOutcome_map hst (taken + ·) more

/-! ## Sweeps -/

theorem visitLink (hs : supply.Renumbered f supply') (h : Renumbered f supply.layout s t)
    (now : UInt32) (id : LinkId) :
    Agree (Renumbered f supply.layout) (s.visitLink supply now id)
      (t.visitLink supply' now (id.renumber f)) := by
  unfold Loading.visitLink
  refine (link hs id).bind fun element _ helement => ?_
  obtain ⟨rfl, hl⟩ := helement
  refine Together.bind (advanceLink hs (h.deactivateLink id) element now)
    fun inTransit _ _ hst => ?_
  cases inTransit with
  | true => exact Together.map (hst.activateLink hl) fun _ _ _ hst => hst
  | false => exact .ok hst

theorem sweepLinks (hs : supply.Renumbered f supply') (h : Renumbered f supply.layout s t)
    (part : Nat) (now : UInt32) :
    Agree (Together f supply.layout id) (s.sweepLinks supply part now)
      (t.sweepLinks supply' part now) := by
  unfold Loading.sweepLinks
  refine (h.traffic.activeLinks.take hs.links_apart part).bind ?_
  rintro ⟨ids, activeLinks⟩ ⟨_, activeLinks'⟩ ⟨rfl, hsets⟩
  have htaken : Renumbered f supply.layout { s with traffic := { s.traffic with activeLinks } }
      { t with traffic := { t.traffic with activeLinks := activeLinks' } } :=
    ⟨{ h.traffic with activeLinks := hsets }, h.record⟩
  refine (Agree.foldlM (fun id _ _ _ hst => visitLink hs hst now id) htaken).map
    fun _ _ hst => ⟨?_, hst⟩
  exact List.length_map _

theorem visitNode (hs : supply.Renumbered f supply') (h : Renumbered f supply.layout s t)
    (now : UInt32) (id : NodeId) :
    Agree (SameOutcome f supply.layout) (s.visitNode supply now id)
      (t.visitNode supply' now (id.renumber f)) := by
  unfold Loading.visitNode
  refine (junction hs id).bind fun node _ hnode => ?_
  obtain ⟨rfl, hn⟩ := hnode
  refine Together.bind (drainAll hs (h.deactivateNode id) node now node.inLinks)
    fun moved _ _ hst => ?_
  cases moved with
  | error error => exact .ok ⟨rfl, hst⟩
  | ok moved =>
    simp only [Except.mapError]
    split
    · exact Together.map (hst.activateNode hn) fun _ _ _ hst => ⟨rfl, hst⟩
    · exact .ok ⟨rfl, hst⟩

theorem visitNodes (hs : supply.Renumbered f supply') (h : Renumbered f supply.layout s t)
    (now : UInt32) (ids : List NodeId) :
    Agree (SameOutcome f supply.layout) (s.visitNodes supply now ids)
      (t.visitNodes supply' now (ids.map (·.renumber f))) := by
  induction ids generalizing s t with
  | nil => exact .ok ⟨rfl, h⟩
  | cons id rest ih =>
    rw [List.map_cons]
    unfold Loading.visitNodes
    refine Together.bind (visitNode hs h now id) fun moved _ _ hst => ?_
    cases moved with
    | error error => exact .ok ⟨rfl, hst⟩
    | ok moved =>
      exact Together.map (ih hst) fun more _ _ hst => sameOutcome_map hst (moved + ·) more

theorem sweepNodes (hs : supply.Renumbered f supply') (h : Renumbered f supply.layout s t)
    (part : Nat) (now : UInt32) :
    Agree (SameOutcome f supply.layout) (s.sweepNodes supply part now)
      (t.sweepNodes supply' part now) := by
  unfold Loading.sweepNodes
  refine (h.traffic.activeNodes.take hs.junctions_apart part).bind ?_
  rintro ⟨ids, activeNodes⟩ ⟨_, activeNodes'⟩ ⟨rfl, hsets⟩
  have htaken : Renumbered f supply.layout { s with traffic := { s.traffic with activeNodes } }
      { t with traffic := { t.traffic with activeNodes := activeNodes' } } :=
    ⟨{ h.traffic with activeNodes := hsets }, h.record⟩
  refine Together.map (visitNodes hs htaken now ids) fun moved _ _ hst => ?_
  rw [List.length_map]
  exact sameOutcome_map hst (fun agents => (ids.length, agents)) moved

/-! ## Emptying the network -/

theorem clearActive {l : Layout} (h : Renumbered f l s t) :
    Renumbered f l s.clearActive t.clearActive :=
  ⟨{ h.traffic with
      links := h.traffic.links.map fun _ => rfl
      nodes := h.traffic.nodes.map fun _ => rfl
      activeLinks := h.traffic.activeLinks.clear
      activeNodes := h.traffic.activeNodes.clear }, h.record⟩

/-- The links with agents stand in the same order, in whichever order the tables list them. -/
theorem occupied {l : Layout} (h : Renumbered f l s t) (hl : Id.Apart l.linkIds) :
    t.occupied = s.occupied.map (·.renumber f) := by
  have hfilter : (t.traffic.links.keys.filter fun link => 0 < (t.queue link).size).Perm
      ((s.traffic.links.keys.filter fun link => 0 < (s.queue link).size).map (·.renumber f)) := by
    refine (h.traffic.keys_map.filter _).trans (.of_eq ?_)
    simp only [List.filter_map, Function.comp_def, h.queue, LinkQueue.size_renumber]
  exact Id.sort_of_perm ((hl.perm h.traffic.keys).sublist List.filter_sublist) hfilter

theorem clear {l : Layout} (h : Renumbered f l s t) (hl : Id.Apart l.linkIds) (now : UInt32) :
    Together f l id (s.clear now) (t.clear now) := by
  have hcleared (links : List LinkId) := foldl_related (R := Together f l id)
    (g := fun a link => (a.1 + (a.2.clearLink link now).1, (a.2.clearLink link now).2))
    (d := fun b link => (b.1 + (b.2.clearLink link now).1, (b.2.clearLink link now).2))
    (k := Id.renumber f)
    (fun a b link hab => by
      obtain ⟨hcount, hst⟩ := hab
      obtain ⟨hmore, hrest⟩ := hst.clearLink link now
      exact ⟨congrArg₂ (· + ·) hcount hmore, hrest⟩)
    links (a := (0, s)) (b := (0, t)) ⟨rfl, h⟩
  unfold Loading.clear
  rw [occupied h hl]
  obtain ⟨hcount, hst⟩ := hcleared s.occupied
  exact ⟨hcount, hst.clearActive⟩

/-- How many agents are on the links of a table. -/
theorem foldl_entries (table : Table .link LinkQueue) :
    table.entries.foldl (fun n entry => n + entry.2.size) 0 =
      (table.keys.map fun id => ((table.get? id).map (·.size)).getD 0).sum := by
  rw [← List.foldl_map (f := fun entry : LinkId × LinkQueue => entry.2.size), ← List.sum_eq_foldl,
    Table.entries]
  induction table.keys with
  | nil => rfl
  | cons id ids ih => cases hq : table.get? id <;> simp [hq, ih]

theorem drop {l : Layout} (h : Renumbered f l s t) : Together f l id s.drop t.drop := by
  have hcount : t.traffic.links.entries.foldl (fun n entry => n + entry.2.size) 0 =
      s.traffic.links.entries.foldl (fun n entry => n + entry.2.size) 0 := by
    -- the entries stand in different orders, but a sum does not tell
    rw [foldl_entries, foldl_entries, (h.traffic.keys_map.map _).sum_nat, List.map_map]
    refine congrArg List.sum (List.map_congr_left fun id _ => ?_)
    rw [Function.comp_apply, h.traffic.links id]
    cases s.traffic.links.get? id <;> simp
  have hempty (count : Nat) : Renumbered f l
      { s.countOut count with traffic :=
        { (s.countOut count).traffic with links := s.traffic.links.map fun _ => {} } }
      { t.countOut count with traffic :=
        { (t.countOut count).traffic with links := t.traffic.links.map fun _ => {} } } :=
    ⟨{ (h.countOut count).traffic with links := h.traffic.links.map fun _ => rfl }, h.record⟩
  unfold Loading.drop
  rw [hcount]
  exact ⟨rfl, (hempty _).clearActive⟩

end Renumbered

end Loading

/-! ## Calls -/

/-- The same call under other numbers. -/
def Call.renumber (f : Numbers) : Call → Call
  | depart agent link now => depart (agent.renumber f) (link.renumber f) now
  | enter agent link now => enter (agent.renumber f) (link.renumber f) now
  | step now => step now
  | finish now => finish now
  | reset => reset

/-- The same answer under other numbers. -/
def Answer.renumber (f : Numbers) : Answer → Answer
  | departed result => departed (result.mapError (·.renumber f))
  | entered result => entered (result.mapError (·.renumber f))
  | stepped result => stepped (result.mapError (·.renumber f))
  | finished stuck => finished stuck
  | reset => reset

@[simp] theorem Answer.blank_renumber (f : Numbers) (answer : Answer) :
    (answer.renumber f).renumber .blank = answer.renumber .blank := by
  cases answer with
  | departed result => cases result <;> simp [renumber, Except.mapError]
  | entered result => cases result <;> simp [renumber, Except.mapError]
  | stepped result => cases result <;> simp [renumber, Except.mapError]
  | finished stuck => rfl
  | reset => rfl

namespace Engine

open Loading

variable {engine engine' : Engine} {s t : Loading}

theorem depart_renumbered (hs : engine.supply.Renumbered f engine'.supply)
    (h : s.Renumbered f engine.supply.layout t) (agent : Agent) (link : LinkId) (now : UInt32) :
    Agree (Together f engine.supply.layout (·.mapError (·.renumber f)))
      (engine.depart s agent link now)
      (engine'.depart t (agent.renumber f) (link.renumber f) now) := by
  unfold depart
  rw [hs.layout, Layout.link?_renumber]
  cases hlink : engine.supply.layout.link? link with
  | none => exact .ok ⟨rfl, h⟩
  | some element =>
    simp only [Option.map_some, Agent.mode_renumber, hs.travelTimes.get?, Agent.endsOn_renumber,
      Agent.arrive_renumber]
    split
    · exact .ok ⟨rfl, h⟩
    · split
      · exact .ok ⟨rfl, h.handOver _⟩
      · exact (h.departOn (List.mem_of_find?_eq_some hlink) agent now).map
          fun _ _ hst => ⟨rfl, hst⟩

theorem enter_renumbered (hs : engine.supply.Renumbered f engine'.supply)
    (h : s.Renumbered f engine.supply.layout t) (agent : Agent) (link : LinkId) (now : UInt32) :
    Agree (Together f engine.supply.layout (·.mapError (·.renumber f)))
      (engine.enter s agent link now)
      (engine'.enter t (agent.renumber f) (link.renumber f) now) := by
  unfold enter
  rw [hs.layout, Layout.link?_renumber]
  cases hlink : engine.supply.layout.link? link with
  | none => exact .ok ⟨rfl, h⟩
  | some element => exact Renumbered.enterLink hs h (List.mem_of_find?_eq_some hlink) agent now

theorem linkPhase_renumbered (hs : engine.supply.Renumbered f engine'.supply)
    (h : s.Renumbered f engine.supply.layout t) (now : UInt32) (parts : List Nat) :
    Agree (Together f engine.supply.layout id) (engine.linkPhase s now parts)
      (engine'.linkPhase t now parts) := by
  induction parts generalizing s t with
  | nil => exact .ok ⟨rfl, h⟩
  | cons part rest ih =>
    unfold linkPhase
    refine Together.bind (Renumbered.sweepLinks hs h part now) fun _ _ _ hst => ?_
    exact Together.map (ih hst) fun _ _ _ hst => ⟨rfl, hst⟩

theorem nodePhase_renumbered (hs : engine.supply.Renumbered f engine'.supply)
    (h : s.Renumbered f engine.supply.layout t) (now : UInt32) (parts : List Nat) :
    Agree (SameOutcome f engine.supply.layout) (engine.nodePhase s now parts)
      (engine'.nodePhase t now parts) := by
  induction parts generalizing s t with
  | nil => exact .ok ⟨rfl, h⟩
  | cons part rest ih =>
    unfold nodePhase
    refine Together.bind (Renumbered.sweepNodes hs h part now) fun moved _ _ hst => ?_
    refine Together.map (ih hst) fun more _ _ hst => ?_
    cases moved with
    | error error => exact ⟨rfl, hst⟩
    | ok moved => exact sameOutcome_map hst _ more

theorem stepInOrder_renumbered (hs : engine.supply.Renumbered f engine'.supply)
    (h : s.Renumbered f engine.supply.layout t) (now : UInt32) (forLinks forNodes : List Nat) :
    Agree (SameOutcome f engine.supply.layout) (engine.stepInOrder s now forLinks forNodes)
      (engine'.stepInOrder t now forLinks forNodes) := by
  unfold stepInOrder
  refine Together.bind (linkPhase_renumbered hs h now forLinks) fun links _ _ hst => ?_
  exact Together.map (nodePhase_renumbered hs hst now forNodes) fun moved _ _ hst =>
    sameOutcome_map hst _ moved

theorem finish_renumbered {l : Layout} (h : s.Renumbered f l t) (hl : Id.Apart l.linkIds)
    (now : UInt32) : Together f l id (finish s now) (finish t now) := by
  have hclear := h.clear hl now
  unfold finish
  generalize s.clear now = cleared at hclear ⊢
  generalize t.clear now = cleared' at hclear ⊢
  obtain ⟨stuck, s⟩ := cleared
  obtain ⟨_, t⟩ := cleared'
  obtain ⟨rfl, hst⟩ := hclear
  have hpopulation (s t : Loading) (hst : s.Renumbered f l t) :
      t.record.population = s.record.population := by
    rw [hst.record]
    rfl
  dsimp only [id_eq]
  -- A warning is written on both sides or on neither.
  split
  · rw [hpopulation _ _ (hst.say _)]
    exact ⟨rfl, (hst.say _).say _⟩
  · rw [hpopulation _ _ hst]
    exact ⟨rfl, hst.say _⟩

theorem reset_renumbered {l : Layout} (h : s.Renumbered f l t) :
    (Engine.reset s).Renumbered f l (Engine.reset t) := by
  have hdrop := h.drop
  unfold reset
  generalize s.drop = dropped at hdrop ⊢
  generalize t.drop = dropped' at hdrop ⊢
  obtain ⟨count, s⟩ := dropped
  obtain ⟨_, t⟩ := dropped'
  obtain ⟨rfl, hst⟩ := hdrop
  dsimp only [id_eq]
  split
  · exact hst.say _
  · exact hst

/-- Under other numbers a call is answered alike, and leads to the same state. -/
theorem perform_renumbered (hs : engine.supply.Renumbered f engine'.supply)
    (h : s.Renumbered f engine.supply.layout t) (orders : Orders) (call : Call) :
    Agree (Together f engine.supply.layout (·.renumber f)) (engine.perform orders s call)
      (engine'.perform orders t (call.renumber f)) := by
  cases call with
  | depart agent link now =>
    exact Together.map (depart_renumbered hs h agent link now) fun _ _ _ hst => ⟨rfl, hst⟩
  | enter agent link now =>
    exact Together.map (enter_renumbered hs h agent link now) fun _ _ _ hst => ⟨rfl, hst⟩
  | step now =>
    exact Together.map (stepInOrder_renumbered hs h now orders.forLinks orders.forNodes)
      fun _ _ _ hst => ⟨rfl, hst⟩
  | finish now =>
    obtain ⟨hstuck, hst⟩ := finish_renumbered h hs.links_apart now
    exact .ok ⟨congrArg Answer.finished hstuck, hst⟩
  | reset => exact .ok ⟨rfl, reset_renumbered h⟩

end Engine

end NetworkLoading
