import NetworkLoading.Event

/-!
# Records of events

A flat copy of an event keeps its names only.
-/

namespace NetworkLoading

structure EventRecord where
  type : String
  time : UInt32
  link : String
  person : String
deriving DecidableEq

def Event.record (e : Event) : EventRecord :=
  { type := e.kind.name, time := e.time, link := e.link.name, person := e.person.name }

namespace EventRecord

/-- How many of the recorded events are of a type. -/
def count (records : List EventRecord) (type : String) : Nat :=
  records.countP (·.type = type)

/-- The recorded events of one link. -/
def ofLink (records : List EventRecord) (link : String) : List EventRecord :=
  records.filter (·.link = link)

end EventRecord

end NetworkLoading
