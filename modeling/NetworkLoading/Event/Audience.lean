import NetworkLoading.Event

/-!
# Audiences

Who hears of which events. A listener subscribes to one kind of events, to all of them, or to the
end of the simulation.
-/

namespace NetworkLoading

/-- The subscriptions of listeners, each list in the order of subscription. -/
structure Audience (α : Type) where
  ofKind : List (EventKind × α) := []
  ofAny : List α := []
  ofFinish : List α := []

namespace Audience

variable {α : Type}

def onKind (a : Audience α) (kind : EventKind) (listener : α) : Audience α :=
  { a with ofKind := a.ofKind ++ [(kind, listener)] }

def onAny (a : Audience α) (listener : α) : Audience α :=
  { a with ofAny := a.ofAny ++ [listener] }

def onFinish (a : Audience α) (listener : α) : Audience α :=
  { a with ofFinish := a.ofFinish ++ [listener] }

/-- Who hears of an event, in this order: the listeners of its kind, then those of all events. -/
def hearing (a : Audience α) (e : Event) : List α :=
  -- A listener which subscribed to a kind and to all events hears twice.
  (a.ofKind.filter (·.1 = e.kind)).map (·.2) ++ a.ofAny

/-- The number of kinds which have a listener of their own, of listeners of all events, and of
listeners of the end. -/
def describe (a : Audience α) : String :=
  let kinds := (a.ofKind.map (·.1)).eraseDups.length
  "EventsManager \x7b per_type: " ++ Nat.repr kinds ++ ", catch_all: " ++ Nat.repr a.ofAny.length
    ++ ", finish: " ++ Nat.repr a.ofFinish.length ++ " \x7d"

end Audience

end NetworkLoading
