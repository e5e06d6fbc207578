import Alos.Json.Value

/-! # Platform errors

`PlatformError` of `alos.security.errors`.
-/

namespace Alos

structure PlatformError where
  code : String
  message : String
  statusCode : ℕ := 400
  retryable : Bool := false
  details : Option Json.Fields := none
  correlationId : Option String := none

end Alos
