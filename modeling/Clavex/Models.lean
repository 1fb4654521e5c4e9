import Clavex.Json

/-!
# Records

The rows and request data that several handlers share. Fields no modelled
function reads are left out.
-/

namespace Clavex

abbrev UUID := BitVec 128

structure User where
  (id orgID : UUID)
  email : String
  (passwordHash firstName lastName : Option String := none)
  isActive : Bool := true
  (isEmailVerified mfaRequired : Bool := false)
  requiredActions : List String := []
  metadata : GoMap Json := ∅

structure Organization where
  id : UUID
  (name slug : String)
  mfaRequired : Bool := false

/-- A step of a login flow. `config` is the parsed `json.RawMessage`, `none` when
it is not JSON. -/
structure LoginFlowStep where
  stepType : String
  config : Option Json
  isActive : Bool := true

end Clavex
