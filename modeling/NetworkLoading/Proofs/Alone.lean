import NetworkLoading.Engine.Turns
import NetworkLoading.Proofs.Links

/-!
# Threads which run one after the other

A thread which runs without others coming between does what a sweep over its partition does. Hence
time steps in which no turns are given are those in which the partitions are processed one after the
other.
-/

namespace NetworkLoading

namespace Loading

/-- A link which has no queues gets none. -/
theorem updateQueue_of_get?_eq_none {s : Loading} {id : LinkId}
    (h : s.traffic.links.get? id = none) (f : LinkQueue → LinkQueue) : s.updateQueue id f = s := by
  have hid : s.traffic.links.modify id f = s.traffic.links.modify id fun q => q :=
    Table.modify_congr fun q hq => by cases h.symm.trans hq
  simp only [updateQueue, hid, Table.modify_id]

theorem queue_updateQueue_of_isSome {s : Loading} {id : LinkId}
    (h : (s.traffic.links.get? id).isSome) (f : LinkQueue → LinkQueue) :
    (s.updateQueue id f).queue id = f (s.queue id) := by
  obtain ⟨q, hq⟩ := Option.isSome_iff_exists.1 h
  simp only [updateQueue, queue, Table.get?_modify_self, hq, Option.map_some, Option.getD_some]

theorem updateQueue_updateQueue (s : Loading) (id : LinkId) (f g : LinkQueue → LinkQueue) :
    (s.updateQueue id f).updateQueue id g = s.updateQueue id (g ∘ f) := by
  simp only [updateQueue, Table.modify_modify]

theorem updateQueue_arriveAll (s : Loading) (now : UInt32) (agents : List Agent) (id : LinkId)
    (f : LinkQueue → LinkQueue) :
    (s.arriveAll now agents).updateQueue id f = (s.updateQueue id f).arriveAll now agents := by
  simp only [arriveAll_eq]
  rfl

end Loading

namespace Job

variable {α β : Type} {s : Loading} {supply : Supply} {now : UInt32}

/-! ## Running a job -/

@[simp] theorem run_pure (a : α) : (pure a : Job α).run s = .ok (a, s) := rfl

@[simp] theorem run_fail (fault : Fault) : (fail fault : Job α).run s = .error fault := rfl

@[simp] theorem run_bind (x : Job α) (f : α → Job β) :
    (x >>= f).run s = (x.run s).bind fun (a, s) => (f a).run s := by
  change (x.bind f).run s = _
  induction x generalizing s with
  | done => rfl
  | fail => rfl
  | act action next ih =>
    simp only [bind, run]
    cases s.act action with
    | error => rfl
    | ok outcome => exact ih outcome.1

@[simp] theorem run_perform (action : Action β) : (perform action).run s = s.act action := by
  simp only [perform, run]
  cases s.act action <;> rfl

@[simp] theorem run_ofExcept (x : Except Fault α) : (ofExcept x).run s = x.map (·, s) := by
  cases x <;> rfl

/-! ## Links -/

theorem run_activateLink (link : Link) :
    (activateLink link).run s = (s.activateLink link).map fun (_, s) => ((), s) := by
  simp only [activateLink, run_bind, run_perform, Loading.act, Loading.activateLink]
  split
  · rfl
  · simp only [Except.bind, ↓reduceIte, run_perform, Loading.act]
    change (s.traffic.activeLinks.enqueue _ _).map _ = _
    cases s.traffic.activeLinks.enqueue link.partition.toNat link.id <;> rfl

theorem run_activateNode (node : Junction) :
    (activateNode node).run s = (s.activateNode node).map fun (_, s) => ((), s) := by
  simp only [activateNode, run_bind, run_perform, Loading.act, Loading.activateNode]
  split
  · rfl
  · simp only [Except.bind, ↓reduceIte, run_perform, Loading.act]
    change (s.traffic.activeNodes.enqueue _ _).map _ = _
    cases s.traffic.activeNodes.enqueue node.partition.toNat node.id <;> rfl

theorem run_enterLink (link : Link) (agent : Agent) :
    (enterLink supply link agent now).run s = s.enterLink supply link agent now := by
  unfold enterLink Loading.enterLink
  cases supply.travelTimes.exitTime link now agent with
  | error => rfl
  | ok exitTime =>
    simp only [run_bind, run_perform, Loading.act, Except.bind, run_activateLink]
    cases Loading.activateLink _ link <;> rfl

theorem run_endLegs (link : LinkId) (agents : List Agent) :
    (endLegs link now agents).run s =
      .ok (agents.filter (! ·.endsOn link), s.arriveAll now (agents.filter (·.endsOn link))) := by
  induction agents generalizing s with
  | nil => rfl
  | cons agent rest ih =>
    unfold endLegs
    by_cases h : agent.endsOn link
    · simp only [h, ↓reduceIte, run_bind, run_perform, Loading.act, Except.bind, ih,
        List.filter_cons, Bool.not_true, Bool.false_eq_true]
      rfl
    · simp [h, run_bind, ih, Except.bind]


/-- What is taken from a link and what is put back are its queues one time step later. -/
theorem run_lineUp (link : LinkId) :
    (lineUp link now).run s =
      .ok ((!((s.queue link).advance link now).inTransit.isEmpty,
        !((s.queue link).advance link now).toLeave.isEmpty), s.flow now link) := by
  simp only [lineUp, run_bind, run_perform, Loading.act, Except.bind, run_endLegs, run_pure,
    Loading.updateQueue_arriveAll, Loading.queue_arriveAll, Loading.updateQueue_updateQueue,
    Loading.flow]
  cases h : s.traffic.links.get? link with
  | none =>
    -- A link which is not loaded has no queue which could be changed.
    have hq : s.queue link = {} := by rw [Loading.queue, h, Option.getD_none]
    simp only [Loading.updateQueue_of_get?_eq_none h, hq]
    rfl
  | some q =>
    have hsome : (s.traffic.links.get? link).isSome := Option.isSome_of_eq_some h
    -- The changes of the single actions, made one after the other, are that of `advance`.
    have hcongr {f g : LinkQueue → LinkQueue} (h : f (s.queue link) = g (s.queue link)) :
        s.updateQueue link f = s.updateQueue link g := Loading.updateQueue_congr h
    simp only [Loading.queue_updateQueue_of_isSome hsome, Function.comp_apply, LinkQueue.advance,
      LinkQueue.continuing, List.append_assoc]
    refine congrArg (fun t => Except.ok (_, t)) (congrArg (Loading.arriveAll now · _) (hcongr ?_))
    rfl

theorem run_advanceLink (link : Link) :
    (advanceLink supply link now).run s = s.advanceLink supply link now := by
  have hflow : ((s.arriveAll now ((s.queue link.id).arriving link.id now)).updateQueue link.id
      fun _ => (s.queue link.id).advance link.id now) = s.flow now link.id :=
    Loading.updateQueue_congr (by rw [Loading.queue_arriveAll])
  simp only [advanceLink, run_bind, run_lineUp, Except.bind, Loading.advanceLink]
  rw [← Loading.arriveAll, hflow]
  cases ((s.queue link.id).advance link.id now).toLeave.isEmpty with
  | true => rfl
  | false =>
    simp only [Bool.not_false, ↓reduceIte, Bool.false_eq_true, run_bind, run_ofExcept]
    cases supply.layout.junction link.toNode with
    | error => rfl
    | ok node =>
      simp only [Except.map, Except.bind, run_activateNode]
      cases (s.flow now link.id).activateNode node <;> rfl

theorem run_pull (link : LinkId) : (pull link now).run s = .ok (s.pull link now) := by
  simp only [pull, run_bind, run_perform, Loading.act, Loading.pull]
  cases (s.queue link).toLeave <;> rfl

/-! ## Nodes -/

theorem run_moveOver (node : Junction) (inLink : LinkId) (agent : Agent) :
    (moveOver supply node inLink agent now).run s = s.moveOver supply node inLink agent now := by
  unfold moveOver Loading.moveOver
  cases Loading.nextLink supply.layout node inLink agent with
  | error error => rfl
  | ok link =>
    dsimp only
    cases agent.moveTo link.id with
    | error fault agent => rfl
    | ok _ agent =>
      simp only [run_bind, run_enterLink]
      cases s.enterLink supply link agent now with
      | error fault => rfl
      | ok entered => rcases entered with ⟨_ | _, t⟩ <;> rfl

theorem run_drain (node : Junction) (inLink : LinkId) (count : Nat) :
    (drain supply node inLink now count).run s = s.drain supply node inLink now count := by
  induction count generalizing s with
  | zero => rfl
  | succ count ih =>
    simp only [drain, Loading.drain, run_bind, run_pull, Except.bind]
    rcases s.pull inLink now with ⟨_ | agent, t⟩
    · rfl
    · simp only [run_bind, run_moveOver]
      cases t.moveOver supply node inLink agent now with
      | error fault => rfl
      | ok moved =>
        rcases moved with ⟨_ | _, u⟩
        · rfl
        · simp only [Except.bind, run_bind, ih]
          cases u.drain supply node inLink now count <;> rfl

theorem run_drainAll (node : Junction) (inLinks : List LinkId) :
    (drainAll supply node now inLinks).run s = s.drainAll supply node now inLinks := by
  induction inLinks generalizing s with
  | nil => rfl
  | cons inLink rest ih =>
    simp only [drainAll, Loading.drainAll, run_bind, run_ofExcept]
    cases supply.layout.link inLink with
    | error fault => rfl
    | ok link =>
      simp only [Except.map, Except.bind, run_perform, Loading.act, run_drain]
      cases s.drain supply node inLink now (s.queue inLink).toLeave.length with
      | error fault => rfl
      | ok drained =>
        rcases drained with ⟨_ | taken, t⟩
        · rfl
        · simp only [run_bind, ih]
          cases t.drainAll supply node now rest <;> rfl

/-! ## Phases -/

theorem run_visitLink (id : LinkId) :
    (visitLink supply now id).run s = (s.visitLink supply now id).map fun s => ((), s) := by
  simp only [visitLink, Loading.visitLink, run_bind, run_ofExcept]
  cases supply.layout.link id with
  | error fault => rfl
  | ok link =>
    simp only [Except.map, Except.bind, run_perform, Loading.act, run_advanceLink]
    cases (s.deactivateLink id).advanceLink supply link now with
    | error fault => rfl
    | ok advanced =>
      rcases advanced with ⟨_ | _, t⟩
      · rfl
      · simp only [↓reduceIte, run_activateLink]
        cases t.activateLink link <;> rfl

theorem run_visitLinks (ids : List LinkId) :
    (visitLinks supply now ids).run s =
      (ids.foldlM (fun (s : Loading) id => s.visitLink supply now id) s).map fun s => ((), s) := by
  induction ids generalizing s with
  | nil => rfl
  | cons id rest ih =>
    simp only [visitLinks, run_bind, run_visitLink, List.foldlM_cons]
    cases s.visitLink supply now id with
    | error fault => rfl
    | ok t => exact ih

theorem run_linkPhase (part : Nat) :
    (linkPhase supply now part).run s = s.sweepLinks supply part now := by
  simp only [linkPhase, Loading.sweepLinks, run_bind, run_perform, Loading.act]
  cases s.traffic.activeLinks.take part with
  | error fault => rfl
  | ok taken =>
    simp only [Except.map, Except.bind, run_visitLinks]
    cases List.foldlM (fun (s : Loading) id => s.visitLink supply now id) _ taken.1 <;> rfl

theorem run_visitNode (id : NodeId) :
    (visitNode supply now id).run s = s.visitNode supply now id := by
  simp only [visitNode, Loading.visitNode, Loading.advanceNode, run_bind, run_ofExcept]
  cases supply.layout.junction id with
  | error fault => rfl
  | ok node =>
    simp only [Except.map, Except.bind, run_perform, Loading.act, run_drainAll]
    cases (s.deactivateNode id).drainAll supply node now node.inLinks with
    | error fault => rfl
    | ok drained =>
      rcases drained with ⟨_ | moved, t⟩
      · rfl
      · cases moved with
        | zero => rfl
        | succ moved =>
          simp only [Nat.zero_lt_succ, ↓reduceIte, run_bind, run_activateNode]
          cases t.activateNode node <;> rfl

theorem run_visitNodes (ids : List NodeId) :
    (visitNodes supply now ids).run s = s.visitNodes supply now ids := by
  induction ids generalizing s with
  | nil => rfl
  | cons id rest ih =>
    simp only [visitNodes, Loading.visitNodes, run_bind, run_visitNode]
    cases s.visitNode supply now id with
    | error fault => rfl
    | ok visited =>
      rcases visited with ⟨_ | moved, t⟩
      · rfl
      · simp only [Except.bind, run_bind, ih]
        cases t.visitNodes supply now rest <;> rfl

theorem run_nodePhase (part : Nat) :
    (nodePhase supply now part).run s = s.sweepNodes supply part now := by
  simp only [nodePhase, Loading.sweepNodes, run_bind, run_perform, Loading.act]
  cases s.traffic.activeNodes.take part with
  | error fault => rfl
  | ok taken =>
    simp only [Except.map, Except.bind, run_visitNodes]
    cases Loading.visitNodes _ supply now taken.1 <;> rfl

end Job

/-! ## Time steps -/

namespace Engine

variable (engine : Engine) (now : UInt32)

theorem finish_linkPhases (s : Loading) (parts : List Nat) :
    ((Pool.finish s (parts.map (Job.linkPhase engine.supply now))).map fun (links, s) =>
      (links.foldr (· + ·) 0, s)) = engine.linkPhase s now parts := by
  induction parts generalizing s with
  | nil => rfl
  | cons part rest ih =>
    simp only [List.map_cons, Pool.finish, Job.run_linkPhase, linkPhase]
    cases s.sweepLinks engine.supply part now with
    | error fault => rfl
    | ok swept =>
      simp only [Except.bind, ← ih]
      cases Pool.finish swept.2 (rest.map (Job.linkPhase engine.supply now)) <;> rfl

theorem finish_nodePhases (s : Loading) (parts : List Nat) :
    ((Pool.finish s (parts.map (Job.nodePhase engine.supply now))).map fun (moved, s) =>
      (total moved, s)) = engine.nodePhase s now parts := by
  induction parts generalizing s with
  | nil => rfl
  | cons part rest ih =>
    simp only [List.map_cons, Pool.finish, Job.run_nodePhase, nodePhase]
    cases s.sweepNodes engine.supply part now with
    | error fault => rfl
    | ok swept =>
      simp only [Except.bind, ← ih]
      cases Pool.finish swept.2 (rest.map (Job.nodePhase engine.supply now)) <;> rfl

/-- If no turns are given, the partitions are processed one after the other. -/
theorem stepInTurns_nil (s : Loading) : engine.stepInTurns s now {} = engine.step s now := by
  simp only [stepInTurns, step, stepInOrder, Pool.run, ← finish_linkPhases, ← finish_nodePhases]
  cases Pool.finish s _ with
  | error fault => rfl
  | ok links =>
    simp only [Except.bind, Except.map]
    cases Pool.finish links.2 _ <;> rfl

end Engine

end NetworkLoading
