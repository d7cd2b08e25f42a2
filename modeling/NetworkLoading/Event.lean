import NetworkLoading.Id

/-!
# Events

What happens to persons on links, at which time.
-/

namespace NetworkLoading

inductive EventKind where
  | entered
  | left
  | waits
  | stuck
deriving DecidableEq

/-- The name of a kind of events in a record of them. -/
def EventKind.name : EventKind → String
  | .entered => "entered link"
  | .left => "left link"
  | .waits => "wait2link"
  | .stuck => "stuckAndAbort"

inductive Event where
  | entered (time : UInt32) (link : LinkId) (person : PersonId)
  | left (time : UInt32) (link : LinkId) (person : PersonId)
  /-- The person ended an activity on the link and waits to leave it. -/
  | waits (time : UInt32) (link : LinkId) (person : PersonId) (mode : Option ModeId)
  /-- The person is removed from the simulation. -/
  | stuck (time : UInt32) (link : LinkId) (person : PersonId) (mode : Option ModeId)
deriving DecidableEq

namespace Event

def kind : Event → EventKind
  | entered .. => .entered
  | left .. => .left
  | waits .. => .waits
  | stuck .. => .stuck

def time : Event → UInt32
  | entered time _ _ | left time _ _ | waits time _ _ _ | stuck time _ _ _ => time

def link : Event → LinkId
  | entered _ link _ | left _ link _ | waits _ link _ _ | stuck _ link _ _ => link

def person : Event → PersonId
  | entered _ _ person | left _ _ person | waits _ _ person _ | stuck _ _ person _ => person

/-- The mode, of the events which tell it. -/
def mode? : Event → Option ModeId
  | entered .. | left .. => none
  | waits _ _ _ mode | stuck _ _ _ mode => mode

/-- All fields of an event, as they stand in diagnostic texts. -/
def describe (e : Event) : String :=
  let fields := s!"time: {e.time}, link: {e.link.describe}, person: {e.person.describe}"
  let (name, fields) := match e with
    -- The types have names of their own, other than the kinds in a record.
    | entered .. => ("LinkEnterEvent", fields)
    | left .. => ("LinkLeaveEvent", fields)
    | waits _ _ _ mode => ("Wait2LinkEvent", fields ++ ", mode: " ++ Id.describe? mode)
    | stuck _ _ _ mode => ("PersonStuckEvent", fields ++ ", mode: " ++ Id.describe? mode)
  name ++ " \x7b " ++ fields ++ " \x7d"

end Event

end NetworkLoading
