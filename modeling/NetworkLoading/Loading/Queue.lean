import NetworkLoading.Agent

/-!
# The queues of a link

The agents on a link are in one of three queues: in transit, ordered by the time at which they may
leave; waiting after an activity; waiting to leave until the node at the end of the link takes
them. The last two are first in, first out.
-/

namespace NetworkLoading

/-- An agent on its way along a link. -/
structure Traveller where
  /-- The first time step in which the agent may leave the link. -/
  exitTime : UInt32
  agent : Agent
deriving DecidableEq

/-- Whether `a` leaves its link before `b`: the earlier exit time decides, then the greater id. -/
def Traveller.before (a b : Traveller) : Bool :=
  -- Of those who leave at the same time, the one with the greatest id is at the top of the heap.
  if a.exitTime = b.exitTime then b.agent.id.before a.agent.id else a.exitTime < b.exitTime

structure LinkQueue where
  /-- Whether the link is to be visited in the next time step. -/
  active : Bool := false
  inTransit : List Traveller := []
  afterActivity : List Agent := []
  toLeave : List Agent := []
deriving DecidableEq

namespace LinkQueue

/-- Inserts a traveller behind all who leave before. -/
def insertTraveller (t : Traveller) : List Traveller → List Traveller
  | [] => [t]
  | u :: rest => if u.before t then u :: insertTraveller t rest else t :: u :: rest

/-- An agent enters the link. -/
def enter (q : LinkQueue) (t : Traveller) : LinkQueue :=
  { q with inTransit := insertTraveller t q.inTransit }

/-- An agent ended an activity on the link. -/
def depart (q : LinkQueue) (agent : Agent) : LinkQueue :=
  { q with afterActivity := q.afterActivity ++ [agent] }

/-- The travellers whose exit time has come. -/
def due (q : LinkQueue) (now : UInt32) : List Traveller :=
  q.inTransit.takeWhile (·.exitTime ≤ now)

/-- The agents whose leg ends in a time step on the link with this id. -/
def arriving (q : LinkQueue) (link : LinkId) (now : UInt32) : List Agent :=
  ((q.due now).map (·.agent)).filter (·.endsOn link)

/-- The agents whose exit time has come and who go on. -/
def continuing (q : LinkQueue) (link : LinkId) (now : UInt32) : List Agent :=
  ((q.due now).map (·.agent)).filter (! ·.endsOn link)

/-- The queues after a time step: who is due is no longer in transit; behind those who wait to
leave stand the due agents who go on, and behind them everyone who ended an activity. -/
def advance (q : LinkQueue) (link : LinkId) (now : UInt32) : LinkQueue :=
  { q with
    inTransit := q.inTransit.dropWhile (·.exitTime ≤ now)
    afterActivity := []
    -- Those who travelled have been on the link for longer than those who just start on it.
    toLeave := q.toLeave ++ q.continuing link now ++ q.afterActivity }

/-- All agents on the link, in the order in which they are cleared away. -/
def agents (q : LinkQueue) : List Agent :=
  q.inTransit.map (·.agent) ++ q.afterActivity ++ q.toLeave

/-- The number of agents on the link. -/
def size (q : LinkQueue) : Nat :=
  q.agents.length

/-- The three queue lengths and the mark, as they stand in diagnostic texts. -/
def describe (q : LinkQueue) (link : LinkId) : String :=
  "SimLink \x7b id: " ++ link.describe ++ ", active: " ++ toString q.active
    ++ ", in_transit: " ++ Nat.repr q.inTransit.length
    ++ ", waiting_after_activity: " ++ Nat.repr q.afterActivity.length
    ++ ", waiting_to_leave: " ++ Nat.repr q.toLeave.length ++ " \x7d"

theorem insertTraveller_perm (t : Traveller) (ts : List Traveller) :
    (insertTraveller t ts).Perm (t :: ts) := by
  induction ts with
  | nil => exact .refl _
  | cons u rest ih =>
    rw [insertTraveller]
    split
    · exact (ih.cons u).trans (.swap t u rest)
    · exact .refl _

end LinkQueue

end NetworkLoading
