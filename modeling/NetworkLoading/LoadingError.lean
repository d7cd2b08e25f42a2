import NetworkLoading.Id
import NetworkLoading.Decimal.Layout

/-!
# Errors of the network loading

An error with the route of an agent concerns this agent alone: it is taken out, and all others
carry on. An error with a travel time is a mistake in the settings and ends the simulation.
-/

namespace NetworkLoading

inductive LoadingError where
  | unknownLink (link : LinkId)
  | noNextLink (agent : PersonId) (link : LinkId)
  | unconnectedLinks (agent : PersonId) (fromLink toLink : LinkId) (node : NodeId)
  | missingTravelTime (mode : ModeId)
  | invalidTravelTime (agent : PersonId) (mode : ModeId) (link : LinkId) (value : Float)

namespace LoadingError

/-- Whether only the agent is affected which caused the error. -/
def isAgentLocal : LoadingError → Bool
  | unknownLink .. | noNextLink .. | unconnectedLinks .. => true
  | missingTravelTime .. | invalidTravelTime .. => false

/-- The wording of every error. -/
def message : LoadingError → String
  | unknownLink link => s!"link {link.name} is not part of the network"
  | noNextLink agent link =>
    s!"agent {agent.name} has no or wrong route: no next link after link {link.name}"
  | unconnectedLinks agent fromLink toLink node =>
    s!"agent {agent.name} can't move from link {fromLink.name} to link {toLink.name}: "
      ++ s!"links are not connected at node {node.name}"
  | missingTravelTime mode => s!"no travel time provider registered for mode {mode.name}"
  | invalidTravelTime agent mode link value =>
    "travel time " ++ Decimal.message.write value
      ++ s!" for agent {agent.name} with mode {mode.name} on link {link.name} is negative, "
      ++ "not finite or ends after the last possible time step"

end LoadingError

end NetworkLoading
