import NetworkLoading.Id

/-!
# Faults

A fault is the misuse of an operation by its caller: an element is looked up that was never added,
or a precondition does not hold. It ends the operation; what was done before it stays done.
-/

namespace NetworkLoading

inductive Fault where
  | noIdsOf (kind : IdKind)
  | noIdAt (index : Nat)
  | noIdFor (name : String)
  | nodeExists (name : String)
  | linkExists (name : String)
  | nodeNotInNetwork (name : String)
  | linkNotInNetwork (name : String)
  | nodeNotLoaded (name : String)
  | linkNotLoaded (name : String)
  | noPartition
  | noSuchPartition (count index : Nat)
  | additionOverflow
  | emptyRoute (person : String)
  | offRoute (entered expected : Option LinkId)
deriving DecidableEq, Repr

/-- The wording of every fault. -/
def Fault.message : Fault → String
  | .noIdsOf kind =>
    s!"No ids for type {kind.number}. Use Id::create::<T>(...) to create ids"
  | .noIdAt index => s!"No id found for internal {index}"
  | .noIdFor name =>
    s!"Could not find id for external id: {name}. Use Id::create::<T>(...) to create ids."
  | .nodeExists name => s!"Node id {name} already exists."
  | .linkExists name => s!"Link id {name} already exists."
  | .nodeNotInNetwork name => s!"Node {name} is not part of the network."
  | .linkNotInNetwork name => s!"Link {name} is not part of the network."
  | .nodeNotLoaded name => s!"Node {name} is not part of the simulation network."
  | .linkNotLoaded name => s!"Link {name} is not part of the simulation network."
  | .noPartition => "At least one partition is required."
  | .noSuchPartition count index =>
    s!"index out of bounds: the len is {count} but the index is {index}"
  | .additionOverflow => "attempt to add with overflow"
  | .emptyRoute person => s!"Agent {person} needs at least one link in its route."
  | .offRoute entered expected =>
    "assertion \x60left == right\x60 failed\n  left: " ++ Id.describe? entered
      ++ "\n right: " ++ Id.describe? expected

end NetworkLoading
