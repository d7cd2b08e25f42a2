import NetworkLoading.Event

/-!
# Drafts of events

An event whose fields are given one by one.
-/

namespace NetworkLoading

/-- The fields given so far. -/
structure EventDraft where
  kind : EventKind
  time : Option UInt32 := none
  link : Option LinkId := none
  person : Option PersonId := none
  mode : Option ModeId := none

/-- The fields an event cannot do without. -/
inductive EventField where
  | time
  | link
  | person
deriving DecidableEq

def EventField.name : EventField → String
  | .time => "time"
  | .link => "link"
  | .person => "person"

/-- What is said about a field that is missing. -/
def EventField.missing (field : EventField) : String :=
  "\x60" ++ field.name ++ "\x60 must be initialized"

/-- The event, or the first field that is missing. Only events of waiting and stuck persons tell
the mode, and they can do without. -/
def EventDraft.finish (d : EventDraft) : Except EventField Event :=
  match d.time, d.link, d.person with
  -- The fields are asked for in this order, so only the first that is missing is told.
  | none, _, _ => .error .time
  | some _, none, _ => .error .link
  | some _, some _, none => .error .person
  | some time, some link, some person =>
    .ok <| match d.kind with
      | .entered => .entered time link person
      | .left => .left time link person
      | .waits => .waits time link person d.mode
      | .stuck => .stuck time link person d.mode

end NetworkLoading
