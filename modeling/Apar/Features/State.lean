/-
The feature vector of a decision (`features/state.py`): its values by name, and the sources they were read from.
-/
import Apar.Contracts.Event

namespace Apar

structure FeatureVector (F : Type) where
  eventId : String
  decisionAt : Time
  sourceEventIds : List String
  maxSourceAvailableAt : Option Time
  catalogDigest : String
  values : Dict String F

end Apar
