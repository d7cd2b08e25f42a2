import Mathlib.Data.List.Basic
import NetworkLoading.Loading.Queue

/-!
# The agents in the queues of a link

A link is busy while agents are in transit or wait after an activity; advancing a link which is not
changes nothing. Agents in transit stand in the order of their exit times.
-/

namespace NetworkLoading

namespace LinkQueue

variable {q : LinkQueue} {link : LinkId} {now : UInt32}

/-! ## Marks -/

/-- The queues of a link which is not marked. -/
def unmarked (q : LinkQueue) : LinkQueue :=
  { q with active := false }

/-- Whether advancing the link has something to do, now or later. -/
def busy (q : LinkQueue) : Bool :=
  !(q.inTransit.isEmpty && q.afterActivity.isEmpty)

/-- A link is marked if and only if it is busy. -/
def Live (q : LinkQueue) : Prop :=
  q.active = q.busy

theorem busy_eq_false : q.busy = false ↔ q.inTransit = [] ∧ q.afterActivity = [] := by
  simp [busy]

theorem busy_eq_true : q.busy = true ↔ q.inTransit ≠ [] ∨ q.afterActivity ≠ [] := by
  rw [← Bool.not_eq_false, busy_eq_false, not_and_or]

@[simp] theorem busy_unmarked (q : LinkQueue) : q.unmarked.busy = q.busy := rfl

@[simp] theorem inTransit_unmarked (q : LinkQueue) : q.unmarked.inTransit = q.inTransit := rfl

@[simp] theorem afterActivity_unmarked (q : LinkQueue) :
    q.unmarked.afterActivity = q.afterActivity := rfl

@[simp] theorem toLeave_unmarked (q : LinkQueue) : q.unmarked.toLeave = q.toLeave := rfl

@[simp] theorem arriving_unmarked (q : LinkQueue) (link : LinkId) (now : UInt32) :
    q.unmarked.arriving link now = q.arriving link now := rfl

@[simp] theorem unmarked_advance (q : LinkQueue) (link : LinkId) (now : UInt32) :
    (q.advance link now).unmarked = q.unmarked.advance link now := rfl

theorem unmarked_of_agents_eq_nil (h : q.agents = []) : q.unmarked = {} := by
  rw [agents, List.append_eq_nil_iff, List.append_eq_nil_iff, List.map_eq_nil_iff] at h
  obtain ⟨⟨htransit, hactivity⟩, hleave⟩ := h
  rw [unmarked, htransit, hactivity, hleave]

/-- Live queues with the same agents are the same. -/
theorem Live.eq_of_unmarked_eq {r : LinkQueue} (hq : q.Live) (hr : r.Live)
    (h : q.unmarked = r.unmarked) : q = r := by
  have hbusy : q.busy = r.busy := by
    rw [← busy_unmarked q, h, busy_unmarked]
  have hactive : q.active = r.active := hq.trans (hbusy.trans hr.symm)
  cases q
  cases r
  simp_all [unmarked]

/-! ## Advancing -/

theorem arriving_of_idle (h : q.busy = false) : q.arriving link now = [] := by
  obtain ⟨hi, -⟩ := busy_eq_false.1 h
  simp [arriving, due, hi]

theorem advance_of_idle (h : q.busy = false) : q.advance link now = q := by
  obtain ⟨hi, ha⟩ := busy_eq_false.1 h
  cases q
  simp_all [advance, continuing, due]

theorem busy_advance (q : LinkQueue) (link : LinkId) (now : UInt32) :
    (q.advance link now).busy = !(q.advance link now).inTransit.isEmpty := by
  simp [busy, advance]

/-- A link which an agent has entered is busy. -/
theorem busy_enter (q : LinkQueue) (t : Traveller) : (q.enter t).busy = true := by
  refine busy_eq_true.2 (.inl fun h => ?_)
  have hmem : t ∈ (q.enter t).inTransit :=
    (insertTraveller_perm t q.inTransit).mem_iff.2 List.mem_cons_self
  rw [h] at hmem
  cases hmem

/-- Who waits to leave a link still does when it has advanced. -/
theorem toLeave_subset_advance (q : LinkQueue) (link : LinkId) (now : UInt32) :
    q.toLeave ⊆ (q.advance link now).toLeave := by
  intro agent hmem
  simp [advance, hmem]

/-! ## Order -/

/-- Who may leave earlier stands before who may leave later. -/
def Ordered (q : LinkQueue) : Prop :=
  q.inTransit.Pairwise fun a b => a.exitTime ≤ b.exitTime

theorem le_of_before {a b : Traveller} (h : a.before b) : a.exitTime ≤ b.exitTime := by
  unfold Traveller.before at h
  split at h
  · rename_i he
    exact UInt32.le_of_eq he
  · exact UInt32.le_of_lt (of_decide_eq_true h)

theorem le_of_not_before {a b : Traveller} (h : ¬ a.before b) : b.exitTime ≤ a.exitTime := by
  unfold Traveller.before at h
  split at h
  · rename_i he
    exact UInt32.le_of_eq he.symm
  · exact UInt32.not_lt.1 fun hlt => h (decide_eq_true hlt)

theorem pairwise_insertTraveller {t : Traveller} {ts : List Traveller}
    (h : ts.Pairwise fun a b => a.exitTime ≤ b.exitTime) :
    (insertTraveller t ts).Pairwise fun a b => a.exitTime ≤ b.exitTime := by
  induction ts with
  | nil => simp [insertTraveller]
  | cons u rest ih =>
    obtain ⟨hu, hrest⟩ := List.pairwise_cons.1 h
    rw [insertTraveller]
    split
    · rename_i hbefore
      refine List.pairwise_cons.2 ⟨?_, ih hrest⟩
      intro v hv
      rcases List.mem_cons.1 ((insertTraveller_perm t rest).mem_iff.1 hv) with rfl | hv
      · exact le_of_before hbefore
      · exact hu v hv
    · rename_i hbefore
      -- The new one stands first, and all others may leave no earlier than the one it displaced.
      have htu : t.exitTime ≤ u.exitTime := le_of_not_before hbefore
      refine List.pairwise_cons.2 ⟨?_, h⟩
      intro v hv
      rcases List.mem_cons.1 hv with rfl | hv
      · exact htu
      · exact UInt32.le_trans htu (hu v hv)

theorem Ordered.enter (h : q.Ordered) (t : Traveller) : (q.enter t).Ordered :=
  pairwise_insertTraveller h

theorem Ordered.advance (h : q.Ordered) (link : LinkId) (now : UInt32) :
    (q.advance link now).Ordered :=
  List.Pairwise.sublist (List.dropWhile_sublist _) h

end LinkQueue

end NetworkLoading
