import Mathlib.Data.List.Sort
import ProductionRag.Store.Documents

/-!
# Principals and document access lists
-/

set_option autoImplicit false

namespace ProductionRag

/-- Who is calling, as the server established it from their credential. -/
structure Principal where
  tenantId : String
  userId : String
  groups : List String := []
  deriving DecidableEq, Repr

def canReadGroups (allowed : List String) (principal : Principal) : Bool :=
  groupsMeet allowed principal.groups

end ProductionRag
