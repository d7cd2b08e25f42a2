import Mathlib.Data.List.Forall2
import NetworkLoading.Loading.Phases
import NetworkLoading.Proofs.Motions

/-!
# Threads which take turns

What a thread does is told by its deeds: the actions it performed, with what it learnt from them.
Whatever turns threads take, none of them faults, and what they did together is an interleaving of
what each of them did.
-/

namespace NetworkLoading

/-! ## Actions on a layout -/

namespace Action

variable {β : Type}

/-- An action names partitions and elements of the layout only, where this matters. -/
def Within (l : Layout) : {β : Type} → Action β → Prop
  | _, takeLinks part | _, takeNodes part => part < l.numParts
  | _, enqueueLink part link => part < l.numParts ∧ link ∈ l.linkIds
  | _, enqueueNode part node => part < l.numParts ∧ node ∈ l.nodeIds
  | _, release link _ | _, rouse link | _, line link _ | _, pull link | _, insert link _ =>
    link ∈ l.linkIds
  | _, _ => True

/-- What a thread learns names elements of the layout only. -/
def Yields (l : Layout) : {β : Type} → Action β → β → Prop
  | _, takeLinks _, ids => ids ⊆ l.linkIds
  | _, takeNodes _, ids => ids ⊆ l.nodeIds
  | _, _, _ => True

end Action

namespace Loading

variable {l : Layout} {s t u : Loading} {β : Type} {action : Action β} {answer : β}

/-- An action does not fault and leads from a sound state to a sound state. -/
theorem Sound.act (hs : s.Sound l) (ha : action.Within l) :
    ∃ answer t, s.act action = .ok (answer, t) ∧ action.Yields l answer ∧ t.Sound l := by
  cases action with
  -- Only the sets can go wrong: they are asked for by a number and hold ids of the layout.
  | takeLinks part =>
    have hlt : part < s.traffic.activeLinks.parts.length := hs.fits.length_activeLinks ▸ ha
    refine ⟨Id.sort (s.traffic.activeLinks.ids part), s.takeLinks part, ?_, ?_, hs.takeLinks part⟩
    · simp only [Loading.act, ActiveSets.take_eq_ok hlt, Except.map]
      rfl
    · intro id hid
      exact hs.links part (mem_sortBy.1 hid)
  | takeNodes part =>
    have hlt : part < s.traffic.activeNodes.parts.length := hs.fits.length_activeNodes ▸ ha
    refine ⟨Id.sort (s.traffic.activeNodes.ids part), s.takeNodes part, ?_, ?_, hs.takeNodes part⟩
    · simp only [Loading.act, ActiveSets.take_eq_ok hlt, Except.map]
      rfl
    · intro id hid
      exact hs.nodes part (mem_sortBy.1 hid)
  | enqueueLink part link =>
    obtain ⟨hpart, hlink⟩ := ha
    have hlt : part < s.traffic.activeLinks.parts.length := hs.fits.length_activeLinks ▸ hpart
    refine ⟨(), _, ?_, trivial, hs.insertLink hlt hlink⟩
    simp only [Loading.act, ActiveSets.enqueue_eq_ok hlt, Except.map]
  | enqueueNode part node =>
    obtain ⟨hpart, hnode⟩ := ha
    have hlt : part < s.traffic.activeNodes.parts.length := hs.fits.length_activeNodes ▸ hpart
    refine ⟨(), _, ?_, trivial, hs.insertNode hlt hnode⟩
    simp only [Loading.act, ActiveSets.enqueue_eq_ok hlt, Except.map]
  | markLink link =>
    simp only [Loading.act]
    split
    · exact ⟨_, _, rfl, trivial, hs⟩
    · exact ⟨_, _, rfl, trivial, hs.updateQueue link _⟩
  | markNode node =>
    simp only [Loading.act]
    split
    · exact ⟨_, _, rfl, trivial, hs⟩
    · exact ⟨_, _, rfl, trivial, hs.markNode node true⟩
  | pull link =>
    simp only [Loading.act]
    split
    · exact ⟨_, _, rfl, trivial, hs⟩
    · exact ⟨_, _, rfl, trivial, hs.updateQueue link _⟩
  | unmarkLink link | release link | rouse link | line link | insert link =>
    exact ⟨_, _, rfl, trivial, hs.updateQueue link _⟩
  | unmarkNode node =>
    exact ⟨_, _, rfl, trivial, hs.markNode node false⟩
  | waiting | countIn | countOut | publish | incLost | decLiving | handOver | say =>
    exact ⟨_, _, rfl, trivial, hs.of_sets_eq rfl rfl rfl⟩

end Loading

/-! ## Deeds -/

/-- An action that was performed, with what the thread learnt from it. -/
structure Deed where
  {β : Type}
  action : Action β
  answer : β

/-- The deeds lead from one state to another. -/
inductive Loading.Path (l : Layout) : Loading → List Deed → Loading → Prop
  | nil (s : Loading) : Path l s [] s
  | cons {s t u : Loading} {β : Type} {action : Action β} {answer : β} {deeds : List Deed} :
      action.Within l → s.act action = .ok (answer, t) → Path l t deeds u →
      Path l s (⟨action, answer⟩ :: deeds) u

theorem Loading.Path.append {l : Layout} {s t u : Loading} {deeds more : List Deed}
    (h : Path l s deeds t) (h' : Path l t more u) : Path l s (deeds ++ more) u := by
  induction h with
  | nil => exact h'
  | cons ha hact _ ih => exact .cons ha hact (ih h')

/-- The deeds of several threads at the same time, in the order in which they were done. -/
inductive Interleaves : List (List Deed) → List Deed → Prop
  | done {threads : List (List Deed)} : (∀ thread ∈ threads, thread = []) → Interleaves threads []
  | turn (front : List (List Deed)) {back : List (List Deed)} {thread deeds : List Deed}
      (deed : Deed) :
      Interleaves (front ++ thread :: back) deeds →
      Interleaves (front ++ (deed :: thread) :: back) (deed :: deeds)

namespace Interleaves

variable {threads : List (List Deed)} {deeds : List Deed}

/-- The threads together did what was done. -/
theorem perm (h : Interleaves threads deeds) : deeds.Perm threads.flatten := by
  induction h with
  | done hdone => rw [List.flatten_eq_nil_iff.2 hdone]
  | turn front deed _ ih =>
    simp only [List.flatten_append, List.flatten_cons] at ih ⊢
    exact (ih.cons deed).trans List.perm_middle.symm

/-- A single thread did everything in its own order. -/
theorem eq_of_singleton {thread : List Deed} (h : Interleaves [thread] deeds) :
    deeds = thread := by
  generalize hone : [thread] = threads at h
  induction h generalizing thread with
  | done hdone => exact (hdone thread (hone ▸ List.mem_singleton_self _)).symm
  | turn front deed _ ih =>
    cases front with
    | nil =>
      obtain ⟨rfl, rfl⟩ := List.cons_eq_cons.1 hone
      rw [ih rfl]
    | cons => simp at hone

theorem nil_cons (h : Interleaves threads deeds) : Interleaves ([] :: threads) deeds := by
  induction h with
  | done hdone => exact .done (List.forall_mem_cons.2 ⟨rfl, hdone⟩)
  | turn front deed _ ih => exact .turn ([] :: front) deed ih

/-- The threads one after the other. -/
theorem append (first : List Deed) (h : Interleaves threads deeds) :
    Interleaves (first :: threads) (first ++ deeds) := by
  induction first with
  | nil => exact h.nil_cons
  | cons deed rest ih => exact .turn [] deed ih

end Interleaves

/-! ## Jobs -/

namespace Job

variable {α β : Type} {l : Layout} {s : Loading}

/-- The job does not fault on a layout, and its deeds and its result are as claimed. -/
def Ensures (l : Layout) : Job α → (List Deed → α → Prop) → Prop
  | done result, Q => Q [] result
  | fail _, _ => False
  | act action next, Q => action.Within l ∧ ∀ answer, action.Yields l answer →
      Ensures l (next answer) fun deeds result => Q (⟨action, answer⟩ :: deeds) result

theorem Ensures.mono {job : Job α} {P Q : List Deed → α → Prop}
    (h : ∀ deeds result, P deeds result → Q deeds result) (hjob : job.Ensures l P) :
    job.Ensures l Q := by
  induction job generalizing P Q with
  | done => exact h _ _ hjob
  | fail => exact hjob
  | act action next ih =>
    exact ⟨hjob.1, fun answer hanswer => ih answer (fun _ _ => h _ _) (hjob.2 answer hanswer)⟩

theorem ensures_bind {x : Job α} {f : α → Job β} {Q : List Deed → β → Prop} :
    (x >>= f).Ensures l Q ↔
      x.Ensures l fun deeds a => (f a).Ensures l fun more b => Q (deeds ++ more) b := by
  change (x.bind f).Ensures l Q ↔ _
  induction x generalizing Q with
  | done => rfl
  | fail => rfl
  | act action next ih =>
    exact and_congr_right fun _ => forall_congr' fun answer => imp_congr_right fun _ => ih answer

/-- A thread which runs alone does what its job ensures. -/
theorem Ensures.run {job : Job α} {Q : List Deed → α → Prop} (hjob : job.Ensures l Q)
    (hs : s.Sound l) :
    ∃ result t deeds, job.run s = .ok (result, t) ∧ t.Sound l ∧ Loading.Path l s deeds t ∧
      Q deeds result := by
  induction job generalizing s Q with
  | done result => exact ⟨result, s, [], rfl, hs, .nil s, hjob⟩
  | fail => exact hjob.elim
  | act action next ih =>
    obtain ⟨ha, hnext⟩ := hjob
    obtain ⟨answer, t, hact, hanswer, ht⟩ := hs.act ha
    obtain ⟨result, u, deeds, hrun, hu, hpath, hresult⟩ := ih answer (hnext answer hanswer) ht
    refine ⟨result, u, _, ?_, hu, .cons ha hact hpath, hresult⟩
    simp only [Job.run, hact, hrun]

end Job

/-! ## Pools -/

theorem forall₂_append_cons_left {α β : Type*} {R : α → β → Prop} {front back : List α} {x : α}
    {ys : List β} (h : List.Forall₂ R (front ++ x :: back) ys) :
    ∃ before y after, ys = before ++ y :: after ∧ List.Forall₂ R front before ∧ R x y ∧
      List.Forall₂ R back after := by
  induction front generalizing ys with
  | nil =>
    obtain ⟨y, after, hy, hafter, rfl⟩ := List.forall₂_cons_left_iff.1 h
    exact ⟨[], y, after, rfl, .nil, hy, hafter⟩
  | cons z front ih =>
    obtain ⟨w, ys, hw, hrest, rfl⟩ := List.forall₂_cons_left_iff.1 h
    obtain ⟨before, y, after, rfl, hbefore, hy, hafter⟩ := ih hrest
    exact ⟨w :: before, y, after, rfl, .cons hw hbefore, hy, hafter⟩

namespace Pool

variable {α : Type} {l : Layout} {s : Loading} {pool : Pool α}
  {posts : List (List Deed → α → Prop)}

theorem finish_ok (hs : s.Sound l)
    (hpool : List.Forall₂ (fun job post => job.Ensures l post) pool posts) :
    ∃ acts t deeds, pool.finish s = .ok (acts.map Prod.snd, t) ∧ t.Sound l ∧
      Loading.Path l s deeds t ∧ Interleaves (acts.map Prod.fst) deeds ∧
      List.Forall₂ (fun post act => post act.1 act.2) posts acts := by
  induction hpool generalizing s with
  | nil => exact ⟨[], s, [], rfl, hs, .nil s, .done nofun, .nil⟩
  | cons hjob _ ih =>
    obtain ⟨result, t, deeds, hrun, ht, hpath, hresult⟩ := hjob.run hs
    obtain ⟨acts, u, more, hfinish, hu, hmore, hinterleaves, hacts⟩ := ih ht
    refine ⟨(deeds, result) :: acts, u, deeds ++ more, ?_, hu, hpath.append hmore,
      hinterleaves.append deeds, .cons hresult hacts⟩
    simp only [finish, hrun, Except.bind, hfinish, Except.map, List.map_cons]

/-- Whatever turns threads take, none of them faults, and each of them does what its job ensures. -/
theorem run_ok (hs : s.Sound l)
    (hpool : List.Forall₂ (fun job post => job.Ensures l post) pool posts) (turns : List Nat) :
    ∃ acts t deeds, pool.run s turns = .ok (acts.map Prod.snd, t) ∧ t.Sound l ∧
      Loading.Path l s deeds t ∧ Interleaves (acts.map Prod.fst) deeds ∧
      List.Forall₂ (fun post act => post act.1 act.2) posts acts := by
  induction turns generalizing s pool posts with
  | nil => exact finish_ok hs hpool
  | cons thread turns ih =>
    cases hthread : pool[thread]? with
    | none =>
      simp only [run, turn, hthread]
      exact ih hs hpool
    | some job =>
      obtain ⟨hlt, hget⟩ := List.getElem?_eq_some_iff.1 hthread
      cases job with
      | done result =>
        simp only [run, turn, hthread]
        exact ih hs hpool
      | fail fault =>
        have hfail := hpool.get hlt (hpool.length_eq ▸ hlt)
        rw [List.get_eq_getElem, hget] at hfail
        exact hfail.elim
      | act action next =>
        obtain ⟨front, back, hsplit, hset⟩ : ∃ front back,
            pool = front ++ .act action next :: back ∧
              ∀ job, pool.set thread job = front ++ job :: back := by
          refine ⟨pool.take thread, pool.drop (thread + 1), ?_, fun job => ?_⟩
          · rw [← hget, ← List.drop_eq_getElem_cons hlt, List.take_append_drop]
          · rw [List.set_eq_take_append_cons_drop, if_pos hlt]
        rw [hsplit] at hpool
        obtain ⟨before, post, after, rfl, hfront, ⟨ha, hnext⟩, hback⟩ :=
          forall₂_append_cons_left hpool
        obtain ⟨answer, t, hact, hanswer, ht⟩ := hs.act ha
        -- The thread has one deed less to do, which its claim knows to come first.
        have hpool' : List.Forall₂ (fun job post => job.Ensures l post)
            (front ++ next answer :: back)
            (before ++ (fun deeds result => post (⟨action, answer⟩ :: deeds) result) :: after) :=
          List.rel_append hfront (.cons (hnext answer hanswer) hback)
        obtain ⟨acts, u, deeds, hrun, hu, hpath, hinterleaves, hacts⟩ := ih ht hpool'
        obtain ⟨early, mine, late, rfl, hearly, hmine, hlate⟩ := forall₂_append_cons_left hacts
        refine ⟨early ++ (⟨action, answer⟩ :: mine.1, mine.2) :: late, u, _, ?_, hu,
          .cons ha hact hpath, ?_, List.rel_append hearly (.cons hmine hlate)⟩
        · simp only [run, turn, hthread, hact, Except.map, Except.bind, hset, hrun]
          simp
        · simp only [List.map_append, List.map_cons] at hinterleaves ⊢
          exact hinterleaves.turn _ _

/-- Threads which do the same, each for itself. -/
theorem run_ok_of_forall {Q : List Deed → α → Prop} (hs : s.Sound l)
    (hpool : ∀ job ∈ pool, job.Ensures l Q) (turns : List Nat) :
    ∃ (acts : List (List Deed × α)) (t : Loading) (deeds : List Deed),
      pool.run s turns = .ok (acts.map Prod.snd, t) ∧ t.Sound l ∧
      Loading.Path l s deeds t ∧ Interleaves (acts.map Prod.fst) deeds ∧
      acts.length = pool.length ∧ ∀ act ∈ acts, Q act.1 act.2 := by
  have hposts : List.Forall₂ (fun job post => job.Ensures l post) pool
      (pool.map fun _ => Q) :=
    List.forall₂_map_right_iff.2 (List.forall₂_same.2 hpool)
  obtain ⟨acts, t, deeds, hrun, ht, hpath, hinterleaves, hacts⟩ := run_ok hs hposts turns
  rw [List.forall₂_map_left_iff] at hacts
  refine ⟨acts, t, deeds, hrun, ht, hpath, hinterleaves, hacts.length_eq.symm, fun act hact => ?_⟩
  obtain ⟨i, hi, rfl⟩ := List.getElem_of_mem hact
  exact hacts.get (hacts.length_eq ▸ hi) hi

end Pool

end NetworkLoading
