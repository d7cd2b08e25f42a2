import Mathlib.Algebra.GroupWithZero.Nat
import NetworkLoading.Engine.Turns
import NetworkLoading.Proofs.Transfers
import NetworkLoading.Proofs.Turns

/-!
# Accounts of deeds

What actions change in the record and in the queues of the links can be read off the deeds one by
one, whichever thread did them. A thread which has come to its end has accounted for all agents it
took from links: it has put them onto links or handed them over, and it has told of every loss.
While it is at work it holds agents which are nowhere else.
-/

namespace NetworkLoading

/-! ## What a deed changes -/

namespace Deed

def event? : Deed → Option Event
  | ⟨.publish e, _⟩ => some e
  | _ => none

def handedOver? : Deed → Option Agent
  | ⟨.handOver agent, _⟩ => some agent
  | _ => none

def incsLost : Deed → Bool
  | ⟨.incLost, _⟩ => true
  | _ => false

def decsLiving : Deed → Bool
  | ⟨.decLiving, _⟩ => true
  | _ => false

/-- How many agents were taken from a link. -/
def taken : Deed → Nat
  | ⟨.release _ _, answer⟩ => answer.1.length
  | ⟨.rouse _, answer⟩ => answer.length
  | ⟨.pull _, answer⟩ => answer.toList.length
  | _ => 0

/-- How many agents were put onto a link. -/
def put : Deed → Nat
  | ⟨.line _ agents, _⟩ => agents.length
  | ⟨.insert _ _, _⟩ => 1
  | _ => 0

/-- The deed tells nothing, counts nobody and hands nobody over. -/
def Silent (deed : Deed) : Prop :=
  deed.event? = none ∧ deed.handedOver? = none ∧ deed.incsLost = false ∧ deed.decsLiving = false

/-- The deed has to do with no agents. -/
def Idle (deed : Deed) : Prop :=
  deed.Silent ∧ deed.taken = 0 ∧ deed.put = 0

end Deed

namespace Loading

variable {l : Layout} {s t u : Loading} {deeds more : List Deed}

/-- The state differs from an earlier one by what the deeds changed. -/
structure Booked (l : Layout) (s : Loading) (deeds : List Deed) (t : Loading) : Prop where
  events : t.record.events.toList = s.record.events.toList ++ deeds.filterMap Deed.event?
  handedOver :
    t.record.handedOver.toList = s.record.handedOver.toList ++ deeds.filterMap Deed.handedOver?
  lost : t.record.population.lost =
    s.record.population.lost + Int64.ofNat (deeds.countP Deed.incsLost)
  living : t.record.population.living =
    s.record.population.living - Int64.ofNat (deeds.countP Deed.decsLiving)
  agents : (s.everyone l).length + (deeds.map Deed.put).sum =
    (t.everyone l).length + (deeds.map Deed.taken).sum

theorem booked_nil (l : Layout) (s : Loading) : Booked l s [] s := by
  constructor <;> simp

theorem Booked.append (h : Booked l s deeds t) (h' : Booked l t more u) :
    Booked l s (deeds ++ more) u := by
  constructor
  · rw [h'.events, h.events, List.filterMap_append, List.append_assoc]
  · rw [h'.handedOver, h.handedOver, List.filterMap_append, List.append_assoc]
  · rw [h'.lost, h.lost, List.countP_append, Int64.ofNat_add]
    grind
  · rw [h'.living, h.living, List.countP_append, Int64.ofNat_add]
    grind
  · have hfirst := h.agents
    have hthen := h'.agents
    simp only [List.map_append, List.sum_append] at hfirst hthen ⊢
    omega

theorem booked_of_silent {deed : Deed} (hd : deed.Silent)
    (hrecord : t.record.silent = s.record.silent)
    (hagents : (s.everyone l).length + deed.put = (t.everyone l).length + deed.taken) :
    Booked l s [deed] t := by
  obtain ⟨hevent, hhanded, hlost, hliving⟩ := hd
  obtain ⟨hpopulation, hevents, hover⟩ := Record.silent_iff.1 hrecord
  constructor
  · simp [hevents, hevent]
  · simp [hover, hhanded]
  · simp [hpopulation, hlost]
  · simp [hpopulation, hliving]
  · simpa using hagents

/-! ## Agents on links -/

theorem everyone_of_clearActive_eq (h : t.clearActive = s.clearActive) :
    t.everyone l = s.everyone l := by
  rw [← everyone_clearActive, h, everyone_clearActive]

/-- A change of the queues of one link changes the number of agents by what it does there. -/
theorem length_everyone_updateQueue (hc : l.Closed) (hs : s.Fits l) {link : LinkId}
    (hlink : link ∈ l.linkIds) (f : LinkQueue → LinkQueue) :
    (s.everyone l).length + (f (s.queue link)).agents.length =
      ((s.updateQueue link f).everyone l).length + (s.queue link).agents.length := by
  have hothers : (s.updateQueue link f).stranded (l.linkIds.erase link) =
      s.stranded (l.linkIds.erase link) := by
    refine List.flatMap_congr fun other hother => ?_
    obtain ⟨hne, hmem⟩ := hc.links_apart.nodup.mem_erase_iff.1 hother
    rw [queue_updateQueue hc hs hlink hmem, if_neg hne]
  have hbefore := (everyone_perm_append hlink s).length_eq
  have hafter := (everyone_perm_append hlink (s.updateQueue link f)).length_eq
  rw [hothers, queue_updateQueue_self hs hlink] at hafter
  simp only [List.length_append, List.length_map] at hbefore hafter
  omega

variable {β : Type} {action : Action β} {answer : β}

/-- An action changes what its deed says. -/
theorem booked_act (hc : l.Closed) (hs : s.Fits l) (ha : action.Within l)
    (h : s.act action = .ok (answer, t)) : Booked l s [⟨action, answer⟩] t := by
  cases action with
  | takeLinks | takeNodes | enqueueLink | enqueueNode =>
    obtain ⟨sets, -, ht⟩ := exists_of_map_eq_ok h
    cases ht
    exact booked_of_silent ⟨rfl, rfl, rfl, rfl⟩ rfl rfl
  | markLink link =>
    simp only [act] at h
    split at h <;> cases h
    · exact booked_of_silent ⟨rfl, rfl, rfl, rfl⟩ rfl rfl
    -- A mark is no agent, so everyone stays where they are.
    · have hmark := clearActive_updateQueue_mark (f := fun q => { q with active := true })
        (fun _ => rfl) s link
      refine booked_of_silent ⟨rfl, rfl, rfl, rfl⟩ rfl ?_
      rw [everyone_of_clearActive_eq hmark]
      rfl
  | markNode node =>
    simp only [act] at h
    split at h <;> cases h <;> exact booked_of_silent ⟨rfl, rfl, rfl, rfl⟩ rfl rfl
  | unmarkLink link =>
    cases h
    refine booked_of_silent ⟨rfl, rfl, rfl, rfl⟩ rfl ?_
    rw [everyone_of_clearActive_eq (clearActive_deactivateLink s link)]
    rfl
  | release link now =>
    cases h
    refine booked_of_silent ⟨rfl, rfl, rfl, rfl⟩ rfl ?_
    have hlength := length_everyone_updateQueue hc hs ha fun q =>
      { q with inTransit := q.inTransit.dropWhile (·.exitTime ≤ now) }
    -- Who is not due stays in transit; together they are those who were.
    have hsplit := congrArg List.length (List.takeWhile_append_dropWhile
      (p := fun t : Traveller => decide (t.exitTime ≤ now)) (l := (s.queue link).inTransit))
    simp only [LinkQueue.agents, List.length_append, List.length_map, Deed.put, Deed.taken,
      LinkQueue.due] at hlength hsplit ⊢
    omega
  | rouse link =>
    cases h
    refine booked_of_silent ⟨rfl, rfl, rfl, rfl⟩ rfl ?_
    have hlength := length_everyone_updateQueue hc hs ha fun q => { q with afterActivity := [] }
    simp only [LinkQueue.agents, List.length_append, List.length_map, Deed.put, Deed.taken,
      List.length_nil] at hlength ⊢
    omega
  | line link agents =>
    cases h
    refine booked_of_silent ⟨rfl, rfl, rfl, rfl⟩ rfl ?_
    have hlength := length_everyone_updateQueue hc hs ha fun q =>
      { q with toLeave := q.toLeave ++ agents }
    simp only [LinkQueue.agents, List.length_append, List.length_map, Deed.put, Deed.taken]
      at hlength ⊢
    omega
  | pull link =>
    simp only [act] at h
    split at h <;> cases h
    · exact booked_of_silent ⟨rfl, rfl, rfl, rfl⟩ rfl rfl
    · rename_i agent rest hqueue
      refine booked_of_silent ⟨rfl, rfl, rfl, rfl⟩ rfl ?_
      have hlength := length_everyone_updateQueue hc hs ha fun q => { q with toLeave := rest }
      simp only [LinkQueue.agents, List.length_append, List.length_map, Deed.put, Deed.taken,
        hqueue, List.length_cons, Option.toList_some, List.length_nil] at hlength ⊢
      omega
  | insert link traveller =>
    cases h
    refine booked_of_silent ⟨rfl, rfl, rfl, rfl⟩ rfl ?_
    have hlength := length_everyone_updateQueue hc hs ha (·.enter traveller)
    have hentered := (LinkQueue.agents_enter (s.queue link) traveller).length_eq
    simp only [Deed.put, Deed.taken, List.length_cons] at hentered ⊢
    omega
  | unmarkNode | waiting | countIn | countOut | say =>
    cases h
    exact booked_of_silent ⟨rfl, rfl, rfl, rfl⟩ rfl rfl
  | publish | handOver | incLost | decLiving =>
    cases h
    constructor <;> simp [Deed.event?, Deed.handedOver?, Deed.incsLost, Deed.decsLiving, Deed.put,
      Deed.taken, publish, handOver, updatePopulation, Population.incLost, Population.decLiving]
    all_goals rfl

theorem Path.booked (hc : l.Closed) (h : Path l s deeds t) (hs : s.Sound l) :
    Booked l s deeds t := by
  induction h with
  | nil s => exact booked_nil l s
  | cons ha hact _ ih =>
    obtain ⟨_, _, hagain, -, hsound⟩ := hs.act ha
    cases hact.symm.trans hagain
    exact (booked_act hc hs.fits ha hact).append (ih hsound)

end Loading

/-! ## Threads which account for their agents -/

/-- A thread which held some agents and holds others after its deeds has accounted for all of them:
who was taken is held, was put onto a link or was handed over. It told of the losses in their
order. -/
structure Accounted (held : Nat) (deeds : List Deed) (kept : Nat) : Prop where
  losses : (deeds.filterMap Deed.event?).filterMap Event.loss? =
    (deeds.filterMap Deed.handedOver?).filterMap Agent.loss?
  lost : deeds.countP Deed.incsLost =
    ((deeds.filterMap Deed.handedOver?).filterMap Agent.loss?).length
  living : deeds.countP Deed.decsLiving =
    ((deeds.filterMap Deed.handedOver?).filterMap Agent.loss?).length
  ended : ∀ agent ∈ deeds.filterMap Deed.handedOver?, agent.hasArrived = agent.loss?.isNone
  agents : held + (deeds.map Deed.taken).sum =
    kept + (deeds.map Deed.put).sum + (deeds.filterMap Deed.handedOver?).length

namespace Accounted

variable {held kept rest : Nat} {deeds more : List Deed}

theorem nil (held : Nat) : Accounted held [] held := by
  constructor <;> simp

theorem append (h : Accounted held deeds kept) (h' : Accounted kept more rest) :
    Accounted held (deeds ++ more) rest := by
  constructor
  · simp only [List.filterMap_append, h.losses, h'.losses]
  · simp only [List.countP_append, List.filterMap_append, List.length_append, h.lost, h'.lost]
  · simp only [List.countP_append, List.filterMap_append, List.length_append, h.living, h'.living]
  · rw [List.filterMap_append]
    exact List.forall_mem_append.2 ⟨h.ended, h'.ended⟩
  · have hfirst := h.agents
    have hthen := h'.agents
    simp only [List.map_append, List.sum_append, List.filterMap_append, List.length_append]
      at hfirst hthen ⊢
    omega

theorem of_silent {deed : Deed} (hd : deed.Silent) (hagents : held + deed.taken = kept + deed.put) :
    Accounted held [deed] kept := by
  obtain ⟨hevent, hhanded, hlost, hliving⟩ := hd
  constructor <;> simp [hevent, hhanded, hlost, hliving, hagents]

/-- Threads which hold nobody before and after. -/
theorem flatten {threads : List (List Deed)} (h : ∀ thread ∈ threads, Accounted 0 thread 0) :
    Accounted 0 threads.flatten 0 := by
  induction threads with
  | nil => exact .nil 0
  | cons thread threads ih =>
    obtain ⟨hthread, hthreads⟩ := List.forall_mem_cons.1 h
    exact hthread.append (ih hthreads)

end Accounted

namespace Job

variable {α β : Type} {l : Layout} {held : Nat}

/-- The job accounts for the agents it takes if it holds some at its start. What it yields and how
many it holds in the end are as claimed. -/
def Accounts (l : Layout) (held : Nat) (job : Job α) (Q : α → Nat → Prop) : Prop :=
  job.Ensures l fun deeds a => ∃ kept, Accounted held deeds kept ∧ Q a kept

theorem accounts_pure {a : α} {Q : α → Nat → Prop} (h : Q a held) :
    (pure a : Job α).Accounts l held Q :=
  ⟨held, .nil held, h⟩

theorem Accounts.bind {x : Job α} {f : α → Job β} {P : α → Nat → Prop} {Q : β → Nat → Prop}
    (hx : x.Accounts l held P) (hf : ∀ a kept, P a kept → (f a).Accounts l kept Q) :
    (x >>= f).Accounts l held Q := by
  refine ensures_bind.2 (hx.mono ?_)
  rintro deeds a ⟨kept, hdeeds, ha⟩
  refine (hf a kept ha).mono ?_
  rintro more b ⟨rest, hmore, hb⟩
  exact ⟨rest, hdeeds.append hmore, hb⟩

theorem Accounts.mono {job : Job α} {P Q : α → Nat → Prop} (h : ∀ a kept, P a kept → Q a kept)
    (hjob : job.Accounts l held P) : job.Accounts l held Q :=
  Ensures.mono (fun _ _ ⟨kept, hdeeds, ha⟩ => ⟨kept, hdeeds, h _ _ ha⟩) hjob

theorem accounts_act {action : Action β} {f : β → Job α} {Q : α → Nat → Prop}
    (ha : action.Within l)
    (hf : ∀ answer, action.Yields l answer →
      ∃ kept, Accounted held [⟨action, answer⟩] kept ∧ (f answer).Accounts l kept Q) :
    (perform action >>= f).Accounts l held Q := by
  refine ⟨ha, fun answer hanswer => ?_⟩
  obtain ⟨kept, hdeed, hrest⟩ := hf answer hanswer
  refine Ensures.mono ?_ (show (f answer).Ensures l _ from hrest)
  rintro deeds a ⟨rest, hdeeds, hresult⟩
  exact ⟨rest, hdeed.append hdeeds, hresult⟩

/-- Actions which concern no agents. -/
theorem accounts_idle {action : Action β} {f : β → Job α} {Q : α → Nat → Prop}
    (ha : action.Within l) (hidle : ∀ answer : β, Deed.Idle ⟨action, answer⟩)
    (hf : ∀ answer, action.Yields l answer → (f answer).Accounts l held Q) :
    (perform action >>= f).Accounts l held Q := by
  refine accounts_act ha fun answer hanswer => ⟨held, .of_silent (hidle answer).1 ?_, hf _ hanswer⟩
  rw [(hidle answer).2.1, (hidle answer).2.2]

theorem accounts_abort (agent : Agent) (link : LinkId) (now : UInt32) :
    (abort agent link now).Accounts l (held + 1) fun _ kept => kept = held := by
  refine ⟨trivial, fun _ _ => ⟨trivial, fun _ _ => ⟨trivial, fun _ _ => ⟨trivial, fun _ _ =>
    ⟨held, ⟨rfl, rfl, rfl, ?_, rfl⟩, rfl⟩⟩⟩⟩⟩
  intro other hother
  obtain rfl := List.mem_singleton.1 hother
  rfl

/-! ## Links -/

variable {supply : Supply} {now : UInt32}

theorem accounts_activateLink (hc : l.Closed) {link : Link} (hl : link ∈ l.links) :
    (activateLink link).Accounts l held fun _ kept => kept = held := by
  refine accounts_idle trivial (fun _ => ⟨⟨rfl, rfl, rfl, rfl⟩, rfl, rfl⟩) fun marked _ => ?_
  cases marked with
  | false => exact accounts_pure rfl
  | true =>
    have hwithin : (Action.enqueueLink link.partition.toNat link.id).Within l :=
      ⟨hc.link_part_lt hl, List.mem_map_of_mem hl⟩
    exact accounts_idle (f := pure) hwithin (fun _ => ⟨⟨rfl, rfl, rfl, rfl⟩, rfl, rfl⟩) fun _ _ =>
      accounts_pure rfl

theorem accounts_activateNode (hc : l.Closed) {node : Junction} (hn : node ∈ l.junctions) :
    (activateNode node).Accounts l held fun _ kept => kept = held := by
  refine accounts_idle trivial (fun _ => ⟨⟨rfl, rfl, rfl, rfl⟩, rfl, rfl⟩) fun marked _ => ?_
  cases marked with
  | false => exact accounts_pure rfl
  | true =>
    have hwithin : (Action.enqueueNode node.partition.toNat node.id).Within l :=
      ⟨hc.part_lt node hn, List.mem_map_of_mem hn⟩
    exact accounts_idle (f := pure) hwithin (fun _ => ⟨⟨rfl, rfl, rfl, rfl⟩, rfl, rfl⟩) fun _ _ =>
      accounts_pure rfl

/-- Whoever cannot be put onto the link is still held. -/
theorem accounts_enterLink (hc : supply.layout.Closed) {link : Link}
    (hl : link ∈ supply.layout.links) (agent : Agent) :
    (enterLink supply link agent now).Accounts supply.layout (held + 1) fun entered kept =>
      match entered with
      | .ok () => kept = held
      | .error _ => kept = held + 1 := by
  unfold enterLink
  split
  · exact accounts_pure rfl
  · rename_i exitTime _
    have hwithin : (Action.insert link.id { exitTime, agent }).Within supply.layout :=
      List.mem_map_of_mem hl
    refine accounts_act trivial fun _ _ => ⟨held + 1, ⟨rfl, rfl, rfl, nofun, rfl⟩, ?_⟩
    refine accounts_idle trivial (fun _ => ⟨⟨rfl, rfl, rfl, rfl⟩, rfl, rfl⟩) fun _ _ => ?_
    refine accounts_act hwithin fun _ _ => ⟨held, .of_silent ⟨rfl, rfl, rfl, rfl⟩ rfl, ?_⟩
    exact (accounts_activateLink hc hl).bind fun _ _ hkept => accounts_pure hkept

theorem accounts_endLegs (link : LinkId) (agents : List Agent) :
    (endLegs link now agents).Accounts l (held + agents.length) fun others kept =>
      kept = held + others.length := by
  induction agents generalizing held with
  | nil => exact accounts_pure rfl
  | cons agent rest ih =>
    unfold endLegs
    split
    · refine accounts_idle trivial (fun _ => ⟨⟨rfl, rfl, rfl, rfl⟩, rfl, rfl⟩) fun _ _ => ?_
      -- Whoever arrives is handed over here, and is no longer held.
      refine accounts_act trivial fun _ _ => ⟨held + rest.length, ⟨rfl, rfl, rfl, ?_, rfl⟩, ih⟩
      intro other hother
      obtain rfl := List.mem_singleton.1 hother
      rfl
    -- The agent is held on to while the others are looked at.
    · have hheld : held + (agent :: rest).length = held + 1 + rest.length := by
        rw [List.length_cons]
        omega
      rw [hheld]
      refine ih.bind fun others kept hkept => accounts_pure ?_
      rw [hkept, List.length_cons]
      omega

/-- Whoever is taken from the queues of a link is put back or has arrived. -/
theorem accounts_lineUp {link : LinkId} (hlink : link ∈ l.linkIds) :
    (lineUp link now).Accounts l 0 fun _ kept => kept = 0 := by
  refine accounts_act hlink fun released _ =>
    ⟨0 + released.1.length, .of_silent ⟨rfl, rfl, rfl, rfl⟩ rfl, ?_⟩
  refine (accounts_endLegs link released.1).bind fun continuing kept hkept => ?_
  refine accounts_act hlink fun roused _ =>
    ⟨kept + roused.length, .of_silent ⟨rfl, rfl, rfl, rfl⟩ rfl, ?_⟩
  refine accounts_act hlink fun waits _ =>
    ⟨0, .of_silent ⟨rfl, rfl, rfl, rfl⟩ ?_, accounts_pure rfl⟩
  simp only [Deed.taken, Deed.put, List.length_append]
  omega

theorem accounts_advanceLink (hc : supply.layout.Closed) {link : Link}
    (hl : link ∈ supply.layout.links) :
    (advanceLink supply link now).Accounts supply.layout 0 fun _ kept => kept = 0 := by
  obtain ⟨node, hn, hto, -⟩ := hc.target link hl
  refine (accounts_lineUp (List.mem_map_of_mem hl)).bind ?_
  rintro ⟨inTransit, waits⟩ _ rfl
  cases waits with
  | false => exact accounts_pure rfl
  | true =>
    simp only [↓reduceIte, ← hto, hc.junction_eq hn]
    exact (accounts_activateNode hc hn).bind fun _ _ hkept => accounts_pure hkept

/-- Whoever is taken from a link is held. -/
theorem accounts_pull {link : LinkId} (hlink : link ∈ l.linkIds) :
    (pull link now).Accounts l 0 fun pulled kept => kept = pulled.toList.length := by
  refine accounts_act hlink fun pulled _ =>
    ⟨0 + pulled.toList.length, .of_silent ⟨rfl, rfl, rfl, rfl⟩ rfl, ?_⟩
  cases pulled with
  | none => exact accounts_pure rfl
  | some agent =>
    refine accounts_idle trivial (fun _ => ⟨⟨rfl, rfl, rfl, rfl⟩, rfl, rfl⟩) fun _ _ => ?_
    exact accounts_act trivial fun _ _ => ⟨1, ⟨rfl, rfl, rfl, nofun, rfl⟩, accounts_pure rfl⟩

/-! ## Nodes -/

/-- An agent who is moved over a node comes onto a link or is lost. -/
theorem accounts_moveOver (hc : supply.layout.Closed) (node : Junction) (inLink : LinkId)
    (agent : Agent) :
    (moveOver supply node inLink agent now).Accounts supply.layout 1 fun _ kept => kept = 0 := by
  unfold moveOver
  split
  · refine accounts_idle trivial (fun _ => ⟨⟨rfl, rfl, rfl, rfl⟩, rfl, rfl⟩) fun _ _ => ?_
    exact (accounts_abort agent inLink now).bind fun _ _ hkept => accounts_pure hkept
  · rename_i link hnext
    obtain ⟨hl, hnext?, -⟩ := Loading.nextLink_eq_ok hnext
    rw [Agent.moveTo_next? hnext?]
    refine (accounts_enterLink hc hl agent.proceed).bind fun entered kept hkept => ?_
    cases entered with
    | ok => exact accounts_pure hkept
    | error rejected =>
      subst hkept
      exact (accounts_abort rejected.agent link.id now).bind fun _ _ hkept => accounts_pure hkept

theorem accounts_drain (hc : supply.layout.Closed) (node : Junction) {inLink : LinkId}
    (hin : inLink ∈ supply.layout.linkIds) (count : Nat) :
    (drain supply node inLink now count).Accounts supply.layout 0 fun _ kept => kept = 0 := by
  induction count with
  | zero => exact accounts_pure rfl
  | succ count ih =>
    refine (accounts_pull hin).bind fun pulled kept hkept => ?_
    cases pulled with
    | none => exact accounts_pure hkept
    | some agent =>
      subst hkept
      refine (accounts_moveOver hc node inLink agent).bind ?_
      rintro (_ | _) _ rfl
      · exact accounts_pure rfl
      · exact ih.bind fun _ _ hkept => accounts_pure hkept

theorem accounts_drainAll (hc : supply.layout.Closed) (node : Junction) {inLinks : List LinkId}
    (hin : inLinks ⊆ supply.layout.linkIds) :
    (drainAll supply node now inLinks).Accounts supply.layout 0 fun _ kept => kept = 0 := by
  induction inLinks with
  | nil => exact accounts_pure rfl
  | cons inLink rest ih =>
    obtain ⟨hlink, hrest⟩ := List.cons_subset.1 hin
    obtain ⟨link, hl, rfl⟩ := List.mem_map.1 hlink
    unfold drainAll
    rw [hc.link_eq hl]
    refine accounts_idle trivial (fun _ => ⟨⟨rfl, rfl, rfl, rfl⟩, rfl, rfl⟩) fun count _ => ?_
    refine (accounts_drain hc node hlink count).bind ?_
    rintro (_ | _) _ rfl
    · exact accounts_pure rfl
    · exact (ih hrest).bind fun _ _ hkept => accounts_pure hkept

/-! ## Phases -/

theorem accounts_visitLinks (hc : supply.layout.Closed) {ids : List LinkId}
    (hids : ids ⊆ supply.layout.linkIds) :
    (visitLinks supply now ids).Accounts supply.layout 0 fun _ kept => kept = 0 := by
  induction ids with
  | nil => exact accounts_pure rfl
  | cons id rest ih =>
    obtain ⟨hid, hrest⟩ := List.cons_subset.1 hids
    obtain ⟨link, hl, rfl⟩ := List.mem_map.1 hid
    have hvisit :
        (visitLink supply now link.id).Accounts supply.layout 0 fun _ kept => kept = 0 := by
      unfold visitLink
      rw [hc.link_eq hl]
      refine accounts_idle trivial (fun _ => ⟨⟨rfl, rfl, rfl, rfl⟩, rfl, rfl⟩) fun _ _ => ?_
      refine (accounts_advanceLink hc hl).bind ?_
      rintro (_ | _) _ rfl
      · exact accounts_pure rfl
      · exact accounts_activateLink hc hl
    refine hvisit.bind ?_
    rintro _ _ rfl
    exact ih hrest

/-- The thread of a partition accounts for everybody whom it takes in the link phase. -/
theorem accounts_linkPhase (hc : supply.layout.Closed) {part : Nat}
    (hpart : part < supply.layout.numParts) :
    (linkPhase supply now part).Accounts supply.layout 0 fun _ kept => kept = 0 := by
  refine accounts_idle hpart (fun _ => ⟨⟨rfl, rfl, rfl, rfl⟩, rfl, rfl⟩) fun ids hids => ?_
  exact (accounts_visitLinks hc hids).bind fun _ _ hkept => accounts_pure hkept

theorem accounts_visitNodes (hc : supply.layout.Closed) {ids : List NodeId}
    (hids : ids ⊆ supply.layout.nodeIds) :
    (visitNodes supply now ids).Accounts supply.layout 0 fun _ kept => kept = 0 := by
  induction ids with
  | nil => exact accounts_pure rfl
  | cons id rest ih =>
    obtain ⟨hid, hrest⟩ := List.cons_subset.1 hids
    obtain ⟨node, hn, rfl⟩ := List.mem_map.1 hid
    have hvisit :
        (visitNode supply now node.id).Accounts supply.layout 0 fun _ kept => kept = 0 := by
      unfold visitNode
      rw [hc.junction_eq hn]
      refine accounts_idle trivial (fun _ => ⟨⟨rfl, rfl, rfl, rfl⟩, rfl, rfl⟩) fun _ _ => ?_
      have hin : node.inLinks ⊆ supply.layout.linkIds := fun _ => hc.mem_linkIds_of_mem_inLinks hn
      refine (accounts_drainAll hc node hin).bind ?_
      rintro (_ | moved) _ rfl
      · exact accounts_pure rfl
      · dsimp only
        split
        · exact (accounts_activateNode hc hn).bind fun _ _ hkept => accounts_pure hkept
        · exact accounts_pure rfl
    refine hvisit.bind ?_
    rintro (_ | _) _ rfl
    · exact accounts_pure rfl
    · exact (ih hrest).bind fun _ _ hkept => accounts_pure hkept

/-- The thread of a partition accounts for everybody whom it takes in the node phase, whether it
fails or not. -/
theorem accounts_nodePhase (hc : supply.layout.Closed) {part : Nat}
    (hpart : part < supply.layout.numParts) :
    (nodePhase supply now part).Accounts supply.layout 0 fun _ kept => kept = 0 := by
  refine accounts_idle hpart (fun _ => ⟨⟨rfl, rfl, rfl, rfl⟩, rfl, rfl⟩) fun ids hids => ?_
  exact (accounts_visitNodes hc hids).bind fun _ _ hkept => accounts_pure hkept

end Job

/-! ## Threads at the same time -/

/-- Whatever turns threads take, what they did together is what they did one by one, in another
order. A single thread leaves no choice. -/
theorem Pool.run_accounted {α : Type} {l : Layout} {s : Loading} {pool : Pool α} (hs : s.Sound l)
    (hpool : ∀ job ∈ pool, job.Accounts l 0 fun _ kept => kept = 0) (turns : List Nat) :
    ∃ results t deeds told, pool.run s turns = .ok (results, t) ∧ t.Sound l ∧
      Loading.Path l s deeds t ∧ deeds.Perm told ∧ Accounted 0 told 0 ∧
      (pool.length = 1 → deeds = told) := by
  obtain ⟨acts, t, deeds, hrun, ht, hpath, hinterleaves, hlength, hacts⟩ :=
    run_ok_of_forall hs hpool turns
  refine ⟨_, t, deeds, (acts.map Prod.fst).flatten, hrun, ht, hpath, hinterleaves.perm, ?_, ?_⟩
  · refine .flatten fun thread hthread => ?_
    obtain ⟨act, hact, rfl⟩ := List.mem_map.1 hthread
    obtain ⟨kept, haccounted, rfl⟩ := hacts act hact
    exact haccounted
  · intro hone
    obtain ⟨act, rfl⟩ := List.length_eq_one_iff.1 (hlength.trans hone)
    rw [hinterleaves.eq_of_singleton]
    simp

/-- A time step does not fault, whatever turns its threads take, and everybody is accounted for. -/
theorem Loading.Sound.stepInTurns {engine : Engine} (hc : engine.supply.layout.Closed)
    {s : Loading} (hs : s.Sound engine.supply.layout) (now : UInt32) (turns : Turns) :
    ∃ stats t deeds told, engine.stepInTurns s now turns = .ok (stats, t) ∧
      t.Sound engine.supply.layout ∧ Loading.Booked engine.supply.layout s deeds t ∧
      deeds.Perm told ∧ Accounted 0 told 0 ∧
      (engine.supply.layout.numParts = 1 → deeds = told) := by
  -- In either phase every thread holds nobody when it begins and nobody when it ends.
  have hlinks : ∀ job ∈ (List.range engine.supply.layout.numParts).map
      (Job.linkPhase engine.supply now),
      job.Accounts engine.supply.layout 0 fun _ kept => kept = 0 := by
    intro job hjob
    obtain ⟨part, hpart, rfl⟩ := List.mem_map.1 hjob
    exact Job.accounts_linkPhase hc (List.mem_range.1 hpart)
  have hnodes : ∀ job ∈ (List.range engine.supply.layout.numParts).map
      (Job.nodePhase engine.supply now),
      job.Accounts engine.supply.layout 0 fun _ kept => kept = 0 := by
    intro job hjob
    obtain ⟨part, hpart, rfl⟩ := List.mem_map.1 hjob
    exact Job.accounts_nodePhase hc (List.mem_range.1 hpart)
  obtain ⟨links, t, deeds, told, hrun, ht, hpath, hperm, htold, hone⟩ :=
    Pool.run_accounted hs hlinks turns.forLinks
  obtain ⟨moved, u, more, toldToo, hrun', hu, hpath', hperm', htold', hone'⟩ :=
    Pool.run_accounted ht hnodes turns.forNodes
  obtain ⟨stats, hstep⟩ : ∃ stats, engine.stepInTurns s now turns = .ok (stats, u) := by
    simp only [Engine.stepInTurns, hrun, Except.bind, hrun']
    exact ⟨_, rfl⟩
  refine ⟨stats, u, deeds ++ more, told ++ toldToo, hstep, hu, (hpath.append hpath').booked hc hs,
    hperm.append hperm', htold.append htold', fun h => ?_⟩
  rw [hone (by simpa using h), hone' (by simpa using h)]

end NetworkLoading
