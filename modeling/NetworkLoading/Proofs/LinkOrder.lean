import NetworkLoading.Proofs.Bytes
import NetworkLoading.Proofs.Noninterference
import NetworkLoading.Proofs.Purge

/-!
# The order in which agents leave a link

Whatever is called on a link: those in transit are let go when their exit time has come, in the
order of their exit times and, among equal ones, from the greatest name to the smallest. Behind them
come those who ended an activity. Hence it does not matter in which order agents enter the link
between two time steps.
-/

namespace NetworkLoading

/-- A call on a link. -/
inductive LinkCall where
  /-- A node moves an agent onto the link. -/
  | enter (now : UInt32) (agent : Agent)
  /-- An agent ends an activity on the link. -/
  | depart (now : UInt32) (agent : Agent)
  | advance (now : UInt32)
  /-- The node at the end of the link takes an agent. -/
  | pull (now : UInt32)

/-- What comes of a call on a link. -/
inductive LinkReply where
  | accepted
  | refused (rejected : Rejected)
  | advanced (inTransit : Bool)
  | pulled (agent? : Option Agent)

/-- The agent who is yielded by a pull, if it is one. -/
def LinkReply.pulled? : LinkReply → Option (Option Agent)
  | pulled agent? => some agent?
  | accepted | refused _ | advanced _ => none

namespace LinkCall

/-- The agent who comes onto the link. -/
def agent? : LinkCall → Option Agent
  | enter _ agent | depart _ agent => some agent
  | advance _ | pull _ => none

/-- The persons who come onto the link. -/
def persons (calls : List LinkCall) : List PersonId :=
  (calls.filterMap agent?).map (·.id)

/-- Those in transit after a call: who entered, as long as no time step has come to their exit
times. -/
def keepTransit (travelTimes : TravelTimes) (link : Link) (ts : List Traveller) :
    LinkCall → List Traveller
  | enter now agent =>
    match travelTimes.exitTime link now agent with
    | .ok exitTime => ts ++ [{ exitTime, agent }]
    | .error _ => ts
  | advance now => ts.filter (now < ·.exitTime)
  | depart .. | pull _ => ts

/-- Those who wait after an activity after a call: who departed since the last time step. -/
def keepWaiting (agents : List Agent) : LinkCall → List Agent
  | depart _ agent => agents ++ [agent]
  | advance _ => []
  | enter .. | pull _ => agents

/-- Those in transit after some calls. -/
def transit (travelTimes : TravelTimes) (link : Link) (calls : List LinkCall) : List Traveller :=
  calls.foldl (keepTransit travelTimes link) []

/-- Those who wait after an activity after some calls. -/
def waiting (calls : List LinkCall) : List Agent :=
  calls.foldl keepWaiting []

variable {calls others : List LinkCall}

theorem persons_append (calls others : List LinkCall) :
    persons (calls ++ others) = persons calls ++ persons others := by
  simp [persons]

theorem persons_cons (call : LinkCall) (calls : List LinkCall) :
    persons (call :: calls) = persons [call] ++ persons calls :=
  persons_append [call] calls

theorem persons_keepTransit (travelTimes : TravelTimes) (link : Link) (ts : List Traveller)
    (call : LinkCall) : ((keepTransit travelTimes link ts call).map (·.agent.id)).Sublist
      (ts.map (·.agent.id) ++ persons [call]) := by
  cases call with
  | enter now agent =>
    unfold keepTransit
    dsimp only
    split
    · rw [List.map_append]
      exact List.Sublist.refl _
    · exact List.sublist_append_left _ _
  | advance now => exact (List.filter_sublist.map _).trans (List.sublist_append_left _ _)
  | depart now agent => exact List.sublist_append_left _ _
  | pull now => exact List.sublist_append_left _ _

theorem persons_foldl_keepTransit (travelTimes : TravelTimes) (link : Link) (ts : List Traveller)
    (calls : List LinkCall) :
    ((calls.foldl (keepTransit travelTimes link) ts).map (·.agent.id)).Sublist
      (ts.map (·.agent.id) ++ persons calls) := by
  induction calls generalizing ts with
  | nil => exact List.sublist_append_left _ _
  | cons call rest ih =>
    rw [persons_cons, ← List.append_assoc]
    exact (ih _).trans ((persons_keepTransit travelTimes link ts call).append_right _)

/-- The same calls, but agents enter the link earlier or later. They do not do so beyond a time
step. -/
inductive Reordered : List LinkCall → List LinkCall → Prop
  | nil : Reordered [] []
  | cons {calls others : List LinkCall} (call : LinkCall) (h : Reordered calls others) :
      Reordered (call :: calls) (call :: others)
  | swap (now : UInt32) (agent : Agent) {call : LinkCall} (hcall : ∀ at', call ≠ .advance at')
      (calls : List LinkCall) :
      Reordered (.enter now agent :: call :: calls) (call :: .enter now agent :: calls)
  | symm {calls others : List LinkCall} (h : Reordered calls others) : Reordered others calls
  | trans {calls others last : List LinkCall} (h : Reordered calls others)
      (h' : Reordered others last) : Reordered calls last

theorem Reordered.perm (h : Reordered calls others) :
    calls.Perm others := by
  induction h with
  | nil => exact .refl _
  | cons call _ ih => exact ih.cons call
  | swap now agent _ calls => exact .swap _ _ calls
  | symm _ ih => exact ih.symm
  | trans _ _ ih ih' => exact ih.trans ih'

theorem Reordered.persons_perm (h : Reordered calls others) :
    (persons calls).Perm (persons others) :=
  (h.perm.filterMap _).map _

end LinkCall

/-! ## Travellers -/

namespace Traveller

variable {a b c : Traveller}

theorem Leads.trans (h : a.Leads b) (h' : b.Leads c) : a.Leads c :=
  exitTime_trans (r := (· < ·)) String.lt_trans h h'

theorem Leads.asymm (h : a.Leads b) : ¬ b.Leads a := by
  rcases h with h | ⟨he, hname⟩
  · rintro (h' | ⟨he', -⟩)
    · exact UInt32.lt_asymm h h'
    · exact UInt32.lt_irrefl _ (he' ▸ h)
  · rintro (h' | ⟨-, hname'⟩)
    · exact UInt32.lt_irrefl _ (he ▸ h')
    · exact String.lt_asymm hname hname'

/-- Travellers with different names leave one after the other. -/
theorem leads_or_leads (h : a.agent.id.name ≠ b.agent.id.name) : a.Leads b ∨ b.Leads a := by
  by_cases he : a.exitTime = b.exitTime
  · rcases lt_or_gt_of_ne h with hname | hname
    · exact .inr (.inr ⟨he.symm, hname⟩)
    · exact .inl (.inr ⟨he, hname⟩)
  · rcases UInt32.lt_or_lt_of_ne he with hlt | hlt
    · exact .inl (.inl hlt)
    · exact .inr (.inl hlt)

theorem before_iff (h : a.agent.id.index = b.agent.id.index → a.agent.id.name = b.agent.id.name) :
    a.before b ↔ a.Leads b := by
  unfold before Leads
  split
  · rename_i he
    rw [Id.before_eq fun hi => (h hi.symm).symm, decide_eq_true_iff, he]
    simp [UInt32.lt_irrefl]
  · rename_i hne
    simp [hne]

end Traveller

namespace LinkQueue

variable {q : LinkQueue} {calls others : List LinkCall} {accepted : List PersonId} {call : LinkCall}

theorem insertTraveller_comm {a b : Traveller} (h : a.Leads b) (ts : List Traveller)
    (hbefore : ∀ t ∈ a :: b :: ts, ∀ u ∈ a :: b :: ts, t.before u ↔ t.Leads u) :
    insertTraveller a (insertTraveller b ts) = insertTraveller b (insertTraveller a ts) := by
  have hab : a.before b := (hbefore a (by simp) b (by simp)).2 h
  have hba : ¬ b.before a := fun hb => h.asymm ((hbefore b (by simp) a (by simp)).1 hb)
  induction ts with
  | nil => simp [insertTraveller, hab, hba]
  | cons u rest ih =>
    have hsub : a :: b :: rest ⊆ a :: b :: u :: rest :=
      List.cons_subset_cons a (List.cons_subset_cons b (List.subset_cons_self u rest))
    have hrest := ih fun t ht v hv => hbefore t (hsub ht) v (hsub hv)
    by_cases hua : u.before a
    · have hub : u.before b :=
        (hbefore u (by simp) b (by simp)).2 (((hbefore u (by simp) a (by simp)).1 hua).trans h)
      simp only [insertTraveller, hua, hub, ↓reduceIte, hrest]
    · by_cases hub : u.before b <;> simp [insertTraveller, hua, hub, hab, hba]

/-- What a call does to the queues of a link. -/
def after (travelTimes : TravelTimes) (link : Link) (q : LinkQueue) : LinkCall → LinkQueue
  | .enter now agent =>
    match travelTimes.exitTime link now agent with
    | .ok exitTime => q.enter { exitTime, agent }
    | .error _ => q
  | .depart _ agent => q.depart agent
  | .advance now => q.advance link.id now
  | .pull _ => { q with toLeave := q.toLeave.tail }

/-- What comes of a call, as far as the queues of the link decide. -/
def reply (travelTimes : TravelTimes) (link : Link) (q : LinkQueue) : LinkCall → LinkReply
  | .enter now agent =>
    match travelTimes.exitTime link now agent with
    | .ok _ => .accepted
    | .error error => .refused { agent, error }
  | .depart .. => .accepted
  | .advance now => .advanced (!(q.advance link.id now).inTransit.isEmpty)
  | .pull _ => .pulled q.toLeave.head?

/-- What comes of several calls. -/
def replies (travelTimes : TravelTimes) (link : Link) (q : LinkQueue) :
    List LinkCall → List LinkReply
  | [] => []
  | call :: rest => q.reply travelTimes link call ::
      (q.after travelTimes link call).replies travelTimes link rest

variable (travelTimes : TravelTimes) (link : Link)

theorem Lined.after (h : q.Lined accepted)
    (hids : Id.Apart (accepted ++ LinkCall.persons [call])) :
    (q.after travelTimes link call).Lined (accepted ++ LinkCall.persons [call]) := by
  have hmono := h.mono (LinkCall.persons [call])
  cases call with
  | enter now agent =>
    unfold LinkQueue.after
    dsimp only
    split
    · exact hmono.enter hids (List.mem_append_right _ List.mem_cons_self)
    · exact hmono
  | depart now agent => exact h.depart agent
  | advance now => exact hmono.advance link.id now
  | pull now =>
    refine ⟨fun agent hagent => hmono.persons agent ?_, hmono.inTransit, hmono.afterActivity⟩
    exact ((List.tail_sublist _).append_left _).subset hagent

theorem Lined.foldl_after (h : q.Lined accepted)
    (hids : Id.Apart (accepted ++ LinkCall.persons calls)) :
    (calls.foldl (LinkQueue.after travelTimes link) q).Lined
      (accepted ++ LinkCall.persons calls) := by
  induction calls generalizing q accepted with
  | nil => exact h.mono []
  | cons call rest ih =>
    rw [LinkCall.persons_cons, ← List.append_assoc] at hids ⊢
    exact ih (h.after travelTimes link (hids.sublist (List.sublist_append_left _ _))) hids

theorem Lined.toOrdered (h : q.Lined accepted) : q.Ordered :=
  h.inTransit.imp fun hab => hab.elim UInt32.le_of_lt fun he => UInt32.le_of_eq he.1

/-- A call keeps track of who is in transit and of who waits after an activity. -/
theorem Lined.keep (h : q.Lined accepted) (call : LinkCall) {ts : List Traveller}
    (hts : q.inTransit.Perm ts) :
    (q.after travelTimes link call).inTransit.Perm
        (LinkCall.keepTransit travelTimes link ts call) ∧
      (q.after travelTimes link call).afterActivity =
        LinkCall.keepWaiting q.afterActivity call := by
  cases call with
  | enter now agent =>
    unfold LinkQueue.after LinkCall.keepTransit LinkCall.keepWaiting
    dsimp only
    split
    · refine ⟨(insertTraveller_perm _ _).trans ?_, rfl⟩
      exact (hts.cons _).trans (List.perm_append_singleton _ _).symm
    · exact ⟨hts, rfl⟩
  | depart now agent => exact ⟨hts, rfl⟩
  | pull now => exact ⟨hts, rfl⟩
  | advance now =>
    refine ⟨?_, rfl⟩
    -- In a queue in order the due ones are a prefix; dropping it is filtering them out.
    have hrest : q.inTransit.dropWhile (·.exitTime ≤ now) =
        q.inTransit.filter (now < ·.exitTime) := by
      rw [dropWhile_eq_filter (h.toOrdered.due_of_due now)]
      exact List.filter_congr fun v _ => by simp [← UInt32.not_le]
    simp only [LinkQueue.after, LinkQueue.advance, hrest]
    exact hts.filter _

theorem Lined.foldl_keep (h : q.Lined accepted)
    (hids : Id.Apart (accepted ++ LinkCall.persons calls)) {ts : List Traveller}
    (hts : q.inTransit.Perm ts) :
    (calls.foldl (LinkQueue.after travelTimes link) q).inTransit.Perm
        (calls.foldl (LinkCall.keepTransit travelTimes link) ts) ∧
      (calls.foldl (LinkQueue.after travelTimes link) q).afterActivity =
        calls.foldl LinkCall.keepWaiting q.afterActivity := by
  induction calls generalizing q accepted ts with
  | nil => exact ⟨hts, rfl⟩
  | cons call rest ih =>
    rw [LinkCall.persons_cons, ← List.append_assoc] at hids
    obtain ⟨htransit, hwaiting⟩ := h.keep travelTimes link call hts
    obtain ⟨htransit', hwaiting'⟩ :=
      ih (h.after travelTimes link (hids.sublist (List.sublist_append_left _ _))) hids htransit
    rw [hwaiting] at hwaiting'
    exact ⟨htransit', hwaiting'⟩

/-! ## Calls in another order -/

/-- Which of two agents enters first makes no difference. -/
theorem Lined.enter_comm (h : q.Lined accepted) {a b : Traveller}
    (hids : Id.Apart (accepted ++ [a.agent.id, b.agent.id])) :
    (q.enter a).enter b = (q.enter b).enter a := by
  have ha : a.agent.id ∈ accepted ++ [a.agent.id, b.agent.id] := by simp
  have hb : b.agent.id ∈ accepted ++ [a.agent.id, b.agent.id] := by simp
  have hmem : ∀ t ∈ a :: b :: q.inTransit,
      t.agent.id ∈ accepted ++ [a.agent.id, b.agent.id] := by
    refine List.forall_mem_cons.2 ⟨ha, List.forall_mem_cons.2 ⟨hb, fun t ht => ?_⟩⟩
    have hagent : t.agent ∈ q.agents :=
      List.mem_append_left _ (List.mem_append_left _ (List.mem_map_of_mem ht))
    exact List.mem_append_left _ (h.persons _ hagent)
  -- Among ids with different names the comparison is by exit time and name, which is total.
  have hbefore : ∀ t ∈ a :: b :: q.inTransit, ∀ u ∈ a :: b :: q.inTransit,
      t.before u ↔ t.Leads u := by
    refine fun t ht u hu => Traveller.before_iff fun hi => ?_
    by_cases he : t.agent.id = u.agent.id
    · rw [he]
    · exact absurd hi (hids.ne (hmem t ht) (hmem u hu) he).1
  have hname : a.agent.id.name ≠ b.agent.id.name := by
    have hpair := hids.sublist (List.sublist_append_right accepted _)
    exact ((List.pairwise_cons.1 hpair).1 _ List.mem_cons_self).2
  rcases Traveller.leads_or_leads hname with hleads | hleads
  · have hcomm := insertTraveller_comm hleads q.inTransit hbefore
    simp only [LinkQueue.enter, hcomm]
  · have hcomm := insertTraveller_comm hleads q.inTransit fun t ht u hu =>
      hbefore t (by simpa [or_left_comm] using ht) u (by simpa [or_left_comm] using hu)
    simp only [LinkQueue.enter, hcomm]

/-- An agent may as well enter the link after the next call, if that is no time step. -/
theorem Lined.swap (h : q.Lined accepted) {now : UInt32} {agent : Agent}
    (hids : Id.Apart (accepted ++ LinkCall.persons [.enter now agent, call]))
    (hcall : ∀ at', call ≠ .advance at') :
    (q.after travelTimes link (.enter now agent)).after travelTimes link call =
        (q.after travelTimes link call).after travelTimes link (.enter now agent) ∧
      ((q.after travelTimes link (.enter now agent)).reply travelTimes link call).pulled? =
        (q.reply travelTimes link call).pulled? := by
  -- Only the place of the entrant could depend on the order, and only against another entrant.
  unfold LinkQueue.after LinkQueue.reply
  cases call with
  | advance now => exact absurd rfl (hcall now)
  | enter at' other =>
    dsimp only
    cases travelTimes.exitTime link now agent with
    | error error => exact ⟨rfl, rfl⟩
    | ok exitTime =>
      cases travelTimes.exitTime link at' other with
      | error error => exact ⟨rfl, rfl⟩
      | ok exitTime' => exact ⟨h.enter_comm hids, rfl⟩
  | depart at' other =>
    dsimp only
    cases travelTimes.exitTime link now agent with
    | error error => exact ⟨rfl, rfl⟩
    | ok exitTime => exact ⟨rfl, rfl⟩
  | pull at' =>
    dsimp only
    cases travelTimes.exitTime link now agent with
    | error error => exact ⟨rfl, rfl⟩
    | ok exitTime => exact ⟨rfl, rfl⟩

theorem pulled?_reply_enter (q : LinkQueue) (now : UInt32) (agent : Agent) :
    (q.reply travelTimes link (.enter now agent)).pulled? = none := by
  unfold LinkQueue.reply
  dsimp only
  split <;> rfl

/-- The same agents are pulled, and the same are left, in whatever order agents enter the link
between two time steps. -/
theorem Lined.reordered (h : q.Lined accepted)
    (hids : Id.Apart (accepted ++ LinkCall.persons calls))
    (hcalls : LinkCall.Reordered calls others) :
    (q.replies travelTimes link calls).filterMap (·.pulled?) =
        (q.replies travelTimes link others).filterMap (·.pulled?) ∧
      calls.foldl (LinkQueue.after travelTimes link) q =
        others.foldl (LinkQueue.after travelTimes link) q := by
  -- The invariant at hand is that no two of the persons so far share a name.
  induction hcalls generalizing q accepted with
  | nil => exact ⟨rfl, rfl⟩
  | cons call _ ih =>
    rw [LinkCall.persons_cons, ← List.append_assoc] at hids
    obtain ⟨hpulled, hqueue⟩ :=
      ih (h.after travelTimes link (hids.sublist (List.sublist_append_left _ _))) hids
    refine ⟨?_, hqueue⟩
    rw [LinkQueue.replies, LinkQueue.replies, List.filterMap_cons, List.filterMap_cons, hpulled]
  | @swap now agent call hcall rest =>
    have hpair : Id.Apart (accepted ++ LinkCall.persons [.enter now agent, call]) := by
      have happend := LinkCall.persons_append [.enter now agent, call] rest
      rw [List.cons_append, List.cons_append, List.nil_append] at happend
      rw [happend, ← List.append_assoc] at hids
      exact hids.sublist (List.sublist_append_left _ _)
    obtain ⟨hqueue, hpulled⟩ :=
      h.swap travelTimes link hpair hcall
    refine ⟨?_, ?_⟩
    · simp only [LinkQueue.replies, List.filterMap_cons, pulled?_reply_enter, hpulled, hqueue]
    · rw [List.foldl_cons, List.foldl_cons, List.foldl_cons, List.foldl_cons, hqueue]
  | symm hother ih =>
    obtain ⟨hpulled, hqueue⟩ := ih h (hids.perm (hother.persons_perm.append_left _))
    exact ⟨hpulled.symm, hqueue.symm⟩
  | trans hfirst _ ih ih' =>
    obtain ⟨hpulled, hqueue⟩ := ih h hids
    obtain ⟨hpulled', hqueue'⟩ := ih' h (hids.perm (hfirst.persons_perm.symm.append_left _))
    exact ⟨hpulled.trans hpulled', hqueue.trans hqueue'⟩

end LinkQueue

namespace Loading

variable {l : Layout} {s t u : Loading} {supply : Supply} {link : Link} {calls : List LinkCall}

/-- Makes a call on a link. -/
def serve (s : Loading) (supply : Supply) (link : Link) :
    LinkCall → Except Fault (LinkReply × Loading)
  | .enter now agent =>
    (s.enterLink supply link agent now).map fun (result, t) =>
      match result with
      | .ok () => (.accepted, t)
      | .error rejected => (.refused rejected, t)
  | .depart now agent => (s.departOn link agent now).map fun t => (.accepted, t)
  | .advance now =>
    (s.advanceLink supply link now).map fun (inTransit, t) => (.advanced inTransit, t)
  | .pull now =>
    let (agent?, t) := s.pull link.id now
    .ok (.pulled agent?, t)

/-- Makes calls on a link, one after the other. -/
def serveAll (s : Loading) (supply : Supply) (link : Link) :
    List LinkCall → Except Fault (List LinkReply × Loading)
  | [] => .ok ([], s)
  | call :: rest =>
    (s.serve supply link call).bind fun (reply, t) =>
      (t.serveAll supply link rest).map fun (replies, u) => (reply :: replies, u)

/-- An agent comes onto a link, which is activated. -/
theorem exists_activateLink (hc : supply.layout.Closed) (hs : s.Fits supply.layout)
    (hl : link ∈ supply.layout.links) (event : Event) (f : LinkQueue → LinkQueue) :
    ∃ woken t,
      (((s.publish event).countIn 1).updateQueue link.id f).activateLink link = .ok (woken, t) ∧
      t.Fits supply.layout ∧ (t.queue link.id).unmarked = (f (s.queue link.id)).unmarked := by
  have hentered : ((s.publish event).countIn 1).Fits supply.layout := hs.of_shape_eq rfl
  have hfits : (((s.publish event).countIn 1).updateQueue link.id f).Fits supply.layout :=
    hentered.of_shape_eq (shape_updateQueue _ _ _)
  refine ⟨_, _, activateLink_eq_ok hc hfits hl, hfits.of_shape_eq (shape_wakeLink _ _), ?_⟩
  rw [← queue_clearActive, clearActive_wakeLink, queue_clearActive,
    queue_updateQueue_self hentered (List.mem_map_of_mem hl)]
  rfl

/-- No call faults, and what comes of it is up to the queues of the link. -/
theorem exists_serve (hc : supply.layout.Closed) (hs : s.Fits supply.layout)
    (hl : link ∈ supply.layout.links) (call : LinkCall) :
    ∃ t, s.serve supply link call =
        .ok ((s.queue link.id).unmarked.reply supply.travelTimes link call, t) ∧
      t.Fits supply.layout ∧ (t.queue link.id).unmarked =
        (s.queue link.id).unmarked.after supply.travelTimes link call := by
  have hid : link.id ∈ supply.layout.linkIds := List.mem_map_of_mem hl
  cases call with
  | enter now agent =>
    cases htime : supply.travelTimes.exitTime link now agent with
    | error error =>
      refine ⟨s, ?_, hs, ?_⟩
      · simp [serve, enterLink, LinkQueue.reply, htime, Except.map]
      · simp [LinkQueue.after, htime]
    | ok exitTime =>
      obtain ⟨woken, t, ht, hfits, hqueue⟩ := exists_activateLink hc hs hl
        (.entered now link.id agent.id) (·.enter { exitTime, agent })
      refine ⟨t, ?_, hfits, ?_⟩
      · simp [serve, enterLink, LinkQueue.reply, htime, ht, Except.map]
      · -- The engine marks the link as it lets the agent in; unmarking takes that back.
        rw [hqueue]
        simp [LinkQueue.after, htime, LinkQueue.enter, LinkQueue.unmarked]
  | depart now agent =>
    obtain ⟨woken, t, ht, hfits, hqueue⟩ := exists_activateLink hc hs hl
      (.waits now link.id agent.id (some agent.mode)) (·.depart agent)
    refine ⟨t, ?_, hfits, hqueue⟩
    simp [serve, departOn, LinkQueue.reply, ht, Except.map]
  | advance now =>
    have hqueue : (s.flow now link.id).queue link.id = _ := queue_flow hc hs hid hid
    rw [if_pos rfl] at hqueue
    refine ⟨(s.flow now link.id).alert supply.layout link, ?_, (hs.flow now link.id).alert link, ?_⟩
    · simp only [serve, advanceLink_eq_ok hc hs hl, Except.map, hqueue]
      rfl
    · rw [queue_alert, hqueue]
      rfl
  | pull now =>
    cases hq : (s.queue link.id).toLeave with
    | nil =>
      refine ⟨s, ?_, hs, ?_⟩
      · simp [serve, pull, hq, LinkQueue.reply]
      · simp [LinkQueue.after, hq, LinkQueue.unmarked]
    | cons agent rest =>
      refine ⟨s.release now link.id agent, ?_,
        hs.of_shape_eq (shape_release now s link.id agent), ?_⟩
      · simp [serve, pull_eq_some hq, hq, LinkQueue.reply]
      · have hqueue : (s.release now link.id agent).queue link.id =
            { s.queue link.id with toLeave := (s.queue link.id).toLeave.erase agent } :=
          queue_updateQueue_self hs hid _
        simp [hqueue, hq, LinkQueue.after, LinkQueue.unmarked]

/-- The same holds for several calls. -/
theorem exists_serveAll (hc : supply.layout.Closed) (hs : s.Fits supply.layout)
    (hl : link ∈ supply.layout.links) (calls : List LinkCall) :
    ∃ t, s.serveAll supply link calls =
        .ok ((s.queue link.id).unmarked.replies supply.travelTimes link calls, t) ∧
      t.Fits supply.layout ∧ (t.queue link.id).unmarked =
        calls.foldl (LinkQueue.after supply.travelTimes link) (s.queue link.id).unmarked := by
  induction calls generalizing s with
  | nil => exact ⟨s, rfl, hs, rfl⟩
  | cons call rest ih =>
    obtain ⟨t, ht, hfits, hqueue⟩ := exists_serve hc hs hl call
    obtain ⟨u, hu, hfits', hqueue'⟩ := ih hfits
    refine ⟨u, ?_, hfits', ?_⟩
    · simp only [serveAll, ht, Except.bind, hu, Except.map, LinkQueue.replies, hqueue]
    · rw [hqueue', hqueue, List.foldl_cons]

/-! ## Time steps of a link -/

/-- What a link does in a time step to those who are `taken` from it, while the `rest` stays in
transit. -/
structure Advances (supply : Supply) (link : Link) (now : UInt32) (s : Loading)
    (taken rest : List Traveller) (t : Loading) : Prop where
  run : s.advanceLink supply link now = .ok (!rest.isEmpty, t)
  inTransit : (taken ++ rest).Perm (s.queue link.id).inTransit
  due : ∀ v ∈ taken, v.exitTime ≤ now
  later : ∀ v ∈ rest, now < v.exitTime
  ordered : taken.Pairwise fun a b => a.exitTime < b.exitTime ∨
    a.exitTime = b.exitTime ∧ bytes b.agent.id.name < bytes a.agent.id.name
  rest_eq : (t.queue link.id).inTransit = rest
  handedOver : t.record.handedOver.toList = s.record.handedOver.toList ++
    ((taken.map (·.agent)).filter (·.endsOn link.id)).map fun agent =>
      { agent with state := .arrived now }
  toLeave : (t.queue link.id).toLeave = (s.queue link.id).toLeave ++
    (taken.map (·.agent)).filter (! ·.endsOn link.id) ++ (s.queue link.id).afterActivity
  afterActivity : (t.queue link.id).afterActivity = []
  /-- The node at the end of the link is activated if anyone waits to leave, and otherwise no node
  is. -/
  wakes : if (t.queue link.id).toLeave = [] then
      t.traffic.nodes = s.traffic.nodes ∧ t.traffic.activeNodes = s.traffic.activeNodes
    else ∃ node ∈ supply.layout.junctions, node.id = link.toNode ∧
      ∃ woken u, s.activateNode node = .ok (woken, u) ∧
        t.traffic.nodes = u.traffic.nodes ∧ t.traffic.activeNodes = u.traffic.activeNodes

theorem nodes_flow (now : UInt32) (s : Loading) (id : LinkId) :
    (s.flow now id).traffic.nodes = s.traffic.nodes ∧
      (s.flow now id).traffic.activeNodes = s.traffic.activeNodes := by
  rw [flow, arriveAll_eq]
  exact ⟨rfl, rfl⟩

/-- Waking a node goes by the marks of the nodes alone. -/
theorem nodes_wakeNode_congr (h : t.traffic.nodes = s.traffic.nodes ∧
    t.traffic.activeNodes = s.traffic.activeNodes) (node : Junction) :
    (t.wakeNode node).traffic.nodes = (s.wakeNode node).traffic.nodes ∧
      (t.wakeNode node).traffic.activeNodes = (s.wakeNode node).traffic.activeNodes := by
  obtain ⟨hnodes, hactive⟩ := h
  have hmark : t.nodeActive node.id = s.nodeActive node.id := by
    rw [nodeActive, nodeActive, hnodes]
  unfold wakeNode
  rw [hmark]
  split
  · exact ⟨hnodes, hactive⟩
  · exact ⟨by simp only [markNode, hnodes], by simp only [markNode, hactive]⟩

theorem exists_advances (hc : supply.layout.Closed) (hs : s.Fits supply.layout)
    (hl : link ∈ supply.layout.links) {accepted : List PersonId} (hids : Id.Apart accepted)
    (hlined : (s.queue link.id).Lined accepted)
    (hnodup : ((s.queue link.id).inTransit.map (·.agent.id)).Nodup) (now : UInt32) :
    ∃ taken rest t, s.Advances supply link now taken rest t := by
  have hid : link.id ∈ supply.layout.linkIds := List.mem_map_of_mem hl
  -- The travellers are in order, so the due ones come first and the split is exact.
  have hordered := hlined.toOrdered.due_of_due now
  have hqueue : (s.flow now link.id).queue link.id = _ := queue_flow hc hs hid hid
  rw [if_pos rfl] at hqueue
  refine ⟨(s.queue link.id).due now, (s.queue link.id).inTransit.dropWhile (·.exitTime ≤ now),
    (s.flow now link.id).alert supply.layout link, ?_, ?_, ?_, ?_, ?_, ?_, ?_, ?_, ?_, ?_⟩
  · rw [advanceLink_eq_ok hc hs hl, hqueue]
    rfl
  · rw [LinkQueue.due, List.takeWhile_append_dropWhile]
  · intro v hv
    exact of_decide_eq_true
      (List.mem_takeWhile_imp (p := fun v : Traveller => decide (v.exitTime ≤ now)) hv)
  · intro v hv
    rw [dropWhile_eq_filter hordered] at hv
    simpa [UInt32.not_le] using (List.mem_filter.1 hv).2
  · have hleads := hlined.leads hids hnodup
    exact (hleads.sublist (List.takeWhile_sublist _)).imp
      (Or.imp_right (And.imp_right bytes_lt_bytes.2))
  · rw [queue_alert, hqueue]
    rfl
  · rw [← record_clearActive, clearActive_alert, record_clearActive, flow, arriveAll_eq]
    simp [updateQueue, LinkQueue.arriving, Agent.arrive]
  · rw [queue_alert, hqueue]
    rfl
  · rw [queue_alert, hqueue]
    rfl
  · rw [queue_alert]
    split
    · rename_i hnobody
      rw [alert, if_pos (by simp [hnobody])]
      exact nodes_flow now s link.id
    · rename_i hsomebody
      obtain ⟨node, hnode, hto, -⟩ := hc.target link hl
      refine ⟨node, hnode, hto, _, _, activateNode_eq_ok hc hs hnode, ?_⟩
      rw [alert, if_neg (by simpa using hsomebody), ← hto, hc.junction?_eq hnode]
      exact nodes_wakeNode_congr (nodes_flow now s link.id) node

/-- Agents are pulled first in, first out. -/
theorem pull_head (hs : s.Fits supply.layout) (hc : supply.layout.Closed)
    (hl : link ∈ supply.layout.links) (now : UInt32) :
    (s.pull link.id now).1 = (s.queue link.id).toLeave.head? ∧
      ((s.pull link.id now).2.queue link.id).toLeave = (s.queue link.id).toLeave.tail := by
  obtain ⟨t, ht, -, hqueue⟩ := exists_serve hc hs hl (.pull now)
  obtain ⟨hreply, rfl⟩ := Prod.mk.inj (Except.ok.inj ht)
  exact ⟨LinkReply.pulled.inj hreply, congrArg LinkQueue.toLeave hqueue⟩

/-- Whatever was called on a link on which nobody was, with each agent coming onto it once: in
transit are those who entered and were not due yet, and after an activity wait those who departed
since the last time step, in their order. The next time step takes those who are due, in the order
of their exit times and names; agents who wait to leave are pulled first in, first out. Had agents
entered in another order between two time steps, the same ones would have been pulled. -/
theorem leave_in_order {ids : IdStore} {net : Network} {modes : List ModeId}
    (hb : net.Built ids) (hlayout : Layout.ofNetwork net modes = .ok supply.layout)
    (hl : link ∈ supply.layout.links) (hs : s.Fits supply.layout)
    (hempty : (s.queue link.id).agents = [])
    (hissued : ∀ id ∈ LinkCall.persons calls, ids.Issued id)
    (hdistinct : (LinkCall.persons calls).Nodup) :
    ∃ replies t, s.serveAll supply link calls = .ok (replies, t) ∧
      (t.queue link.id).inTransit.Perm (LinkCall.transit supply.travelTimes link calls) ∧
      (t.queue link.id).afterActivity = LinkCall.waiting calls ∧
      (∀ now, ∃ taken rest u, t.Advances supply link now taken rest u) ∧
      (∀ now, (t.pull link.id now).1 = (t.queue link.id).toLeave.head? ∧
        ((t.pull link.id now).2.queue link.id).toLeave = (t.queue link.id).toLeave.tail) ∧
      ∀ others, LinkCall.Reordered calls others → ∃ replies' t',
        s.serveAll supply link others = .ok (replies', t') ∧
        replies'.filterMap (·.pulled?) = replies.filterMap (·.pulled?) ∧
        (t'.queue link.id).unmarked = (t.queue link.id).unmarked := by
  have hc := Layout.closed_ofNetwork hb hlayout
  have hapart : Id.Apart ([] ++ LinkCall.persons calls) :=
    Id.apart_of_issued hissued hdistinct
  have hnobody : (s.queue link.id).unmarked = {} := LinkQueue.unmarked_of_agents_eq_nil hempty
  -- The link starts empty, so its queue is in order with nobody accepted yet.
  have hlined : (s.queue link.id).unmarked.Lined [] := hnobody ▸ LinkQueue.lined_empty []
  obtain ⟨t, ht, hfits, hqueue⟩ := exists_serveAll hc hs hl calls
  have hlined' := hlined.foldl_after supply.travelTimes link hapart
  obtain ⟨htransit, hwaiting⟩ :=
    hlined.foldl_keep supply.travelTimes link hapart (.refl _)
  rw [← hqueue] at hlined' htransit hwaiting
  rw [hnobody] at htransit hwaiting
  refine ⟨_, t, ht, htransit, hwaiting, ?_, pull_head hfits hc hl, fun others hothers => ?_⟩
  · have hnodup : ((t.queue link.id).inTransit.map (·.agent.id)).Nodup :=
      (htransit.map _).nodup_iff.2
        ((LinkCall.persons_foldl_keepTransit supply.travelTimes link [] calls).nodup hdistinct)
    exact exists_advances hc hfits hl hapart (LinkQueue.lined_unmarked.1 hlined') hnodup
  · obtain ⟨t', ht', -, hqueue'⟩ := exists_serveAll hc hs hl others
    obtain ⟨hpulled, hsame⟩ :=
      hlined.reordered supply.travelTimes link hapart hothers
    exact ⟨_, t', ht', hpulled.symm, by rw [hqueue', hqueue, hsame]⟩

end Loading

/-- Two agents enter a link at the same time, and the first to leave is pulled. -/
def Sample.twoEnter (first second : PersonId) : List LinkCall :=
  [.enter 5 (stray first), .enter 5 (stray second), .advance 20, .pull 20]

/-- Whichever of two agents enters first, the same one is pulled. -/
theorem Loading.leave_in_order_two : ∃ replies replies' t t',
    (Loading.empty Sample.engine.supply.layout ⟨2, 0⟩).serveAll Sample.engine.supply Sample.road
      (Sample.twoEnter Sample.ann Sample.ben) = .ok (replies, t) ∧
    (Loading.empty Sample.engine.supply.layout ⟨2, 0⟩).serveAll Sample.engine.supply Sample.road
      (Sample.twoEnter Sample.ben Sample.ann) = .ok (replies', t') ∧
    replies'.filterMap (·.pulled?) = replies.filterMap (·.pulled?) := by
  have hpersons : LinkCall.persons (Sample.twoEnter Sample.ann Sample.ben) =
      [Sample.ann, Sample.ben] := rfl
  have hissued : ∀ id ∈ LinkCall.persons (Sample.twoEnter Sample.ann Sample.ben),
      Sample.ids.Issued id := by
    rw [hpersons]
    exact List.forall_mem_cons.2 ⟨rfl, List.forall_mem_singleton.2 rfl⟩
  have hdistinct : (LinkCall.persons (Sample.twoEnter Sample.ann Sample.ben)).Nodup := by
    rw [hpersons]
    decide
  obtain ⟨replies, t, ht, -, -, -, -, hothers⟩ :=
    leave_in_order Sample.built_network
      (show Layout.ofNetwork Sample.network [] = .ok Sample.engine.supply.layout from rfl)
      List.mem_cons_self
      (fits_empty Sample.engine.supply.layout ⟨⟨2, 0⟩, #[], #[], #[]⟩) rfl hissued hdistinct
  obtain ⟨replies', t', ht', hpulled, -⟩ :=
    hothers (Sample.twoEnter Sample.ben Sample.ann)
      (.swap 5 (Sample.stray Sample.ann) (fun _ he => by cases he) _)
  exact ⟨replies, replies', t, t', ht, ht', hpulled⟩

end NetworkLoading
