/-!
# Answers that refuse a request

A handler that refuses a request answers with a status, a code that a client can tell apart and a
message. What is suggested as a fix is looked up by the code, and is left out here.
-/

namespace Drust

structure ApiError where
  status : Nat
  /-- Some answers have a text only. -/
  errorCode : Option String
  message : String
  deriving DecidableEq, Repr

end Drust
