import NetworkLoading.Agent
import NetworkLoading.LoadingError
import NetworkLoading.Network

/-!
# Travel times

How long an agent needs for a link, in seconds, depends on its mode. From it follows the time step
at which the agent may leave the link again.
-/

namespace NetworkLoading

/-- A rule for travel times. -/
inductive TravelTime where
  /-- The same for every link. -/
  | constant (seconds : Float)
  /-- With one speed, which the free speed of a link caps. -/
  | freeSpeed (speed : Float)
  /-- Any other function of the link, the time and the agent. -/
  | custom (name : String) (seconds : Link → UInt32 → Agent → Float)

/-- The lesser of two floats. One that is no number gives way to the other; of two zeros the second
is taken, so its sign is kept. -/
def lesser (a b : Float) : Float :=
  if a.isNaN || b ≤ a then b else a

/-- The nearest whole number, and of two equally near ones the one farther from zero. -/
def nearestWhole (x : Float) : Float :=
  let size := x.abs
  if 0 < size && size < 4503599627370496 then
    -- Below this bound the size fits into 64 bits, and cutting its fraction off is exact.
    let whole := size.toUInt64.toFloat
    let nearest := if size - whole < 0.5 then whole else whole + 1
    if x < 0 then -nearest else nearest
  else
    -- Zero is whole, and so is what has no bits left for a fraction.
    x

namespace TravelTime

/-- The seconds an agent needs for a link. -/
def seconds (t : TravelTime) (link : Link) (now : UInt32) (agent : Agent) : Float :=
  match t with
  | constant seconds => seconds
  | freeSpeed speed => link.length / lesser speed link.freespeed
  | custom _ seconds => seconds link now agent

/-- A rule, as it stands in diagnostic texts. -/
def describe : TravelTime → String
  | constant seconds =>
    "ConstantTravelTime \x7b seconds: " ++ Decimal.diagnostic.write seconds ++ " \x7d"
  | freeSpeed speed =>
    "FreeSpeedTravelTime \x7b speed: " ++ Decimal.diagnostic.write speed ++ " \x7d"
  | custom name _ => name

end TravelTime

/-- The rules of the modes, each mode at most once. -/
structure TravelTimes where
  rules : List (ModeId × TravelTime) := []

namespace TravelTimes

def get? (t : TravelTimes) (mode : ModeId) : Option TravelTime :=
  (t.rules.find? (·.1 = mode)).map (·.2)

/-- Sets the rule of a mode. -/
def insert (t : TravelTimes) (mode : ModeId) (rule : TravelTime) : TravelTimes :=
  -- A rule which is replaced keeps its place among the others.
  if (t.get? mode).isSome then
    { t with rules := t.rules.map fun entry => if entry.1 = mode then (mode, rule) else entry }
  else { t with rules := t.rules ++ [(mode, rule)] }

/-- The modes which have a rule, sorted. -/
def modes (t : TravelTimes) : List ModeId :=
  Id.sort (t.rules.map (·.1))

/-- Fails for the first of the modes, in the order of ids, which has no rule. -/
def validate (t : TravelTimes) (modes : List ModeId) : Except LoadingError Unit :=
  match Id.sort (modes.filter fun mode => (t.get? mode).isNone) with
  | [] => .ok ()
  | mode :: _ => .error (.missingTravelTime mode)

/-- The time step at which an agent may leave a link that it enters at `now`. Times are rounded to
whole seconds, so that agents who enter together with equal travel times leave together. -/
def exitTime (t : TravelTimes) (link : Link) (now : UInt32) (agent : Agent) :
    Except LoadingError UInt32 :=
  match t.get? agent.mode with
  | none => .error (.missingTravelTime agent.mode)
  | some rule =>
    let seconds := rule.seconds link now agent
    -- Both are finite below, so a sum of them which is too great shows in the comparison.
    let exit := nearestWhole (now.toFloat + seconds)
    if seconds.isFinite && !(seconds < 0) && !((4294967295 : Float) < exit) then .ok exit.toUInt32
    else .error (.invalidTravelTime agent.id agent.mode link.id seconds)

/-- All rules in the order of the numbers of their modes, as they stand in diagnostic texts. -/
def describe (t : TravelTimes) : String :=
  -- Here the numbers of ids show, other than in what is simulated.
  let rules := sortBy (fun a b => a.1.index < b.1.index) t.rules
  let texts := rules.map fun (mode, rule) => mode.describe ++ ": " ++ rule.describe
  "TravelTimes \x7b providers: \x7b" ++ ", ".intercalate texts ++ "\x7d \x7d"

end TravelTimes

end NetworkLoading
