import NetworkLoading.Event.Audience
import NetworkLoading.Loading.State

/-!
# Diagnostic texts of a network loading
-/

namespace NetworkLoading.Loading

/-- The surroundings of a loading on one line: who hears of the events, the travel times and the
population. -/
def describe {α : Type} (s : Loading) (audience : Audience α) (travelTimes : TravelTimes) :
    String :=
  let p := s.record.population
  "ComputationalEnvironment \x7b events: " ++ audience.describe
    ++ ", travel_times: " ++ travelTimes.describe
    ++ s!", counter: AgentCounter \x7b living: {p.living}, lost: {p.lost} \x7d \x7d"

end NetworkLoading.Loading
