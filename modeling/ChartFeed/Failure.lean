/-!
# Failures of the service

* `Failure` : why a request is not served, `Failure.message` its wording.
* `Failure.status` : the HTTP status that tells of it.
-/

namespace ChartFeed

/-- Why a stored credential cannot be used. -/
inductive CredentialFault where
  /-- It is not written as an initial vector and a ciphertext. -/
  | format
  /-- It does not decrypt to a text. -/
  | decrypt
  deriving DecidableEq, Repr

namespace CredentialFault

def message : CredentialFault → String
  | .format => "stored credential is not in ivHex:cipherHex format"
  | .decrypt => "stored credential could not be decrypted"

end CredentialFault

/-- Why a request is not served. -/
inductive Failure where
  | config (what : String)
  | auth
  | invalidRequest (what : String)
  | notFound (what : String)
  /-- The table service refused, under a status of its own. -/
  | remote (status : Nat) (what : String)
  | credential (fault : CredentialFault)
  /-- Something that the client is not told about. -/
  | internal
  deriving DecidableEq, Repr

namespace Failure

def message : Failure → String
  | .config what => "configuration error: " ++ what
  | .auth => "authentication failed"
  | .invalidRequest what => "invalid request: " ++ what
  | .notFound what => "not found: " ++ what
  | .remote status what => "upstream error (" ++ toString status ++ "): " ++ what
  | .credential fault => "credential error: " ++ fault.message
  | .internal => "internal error"

/-- The HTTP status of a failure. A status of the table service is passed on if it has three digits,
else the answer is that of a bad gateway. -/
def status : Failure → Nat
  | .config _ => 500
  | .auth => 401
  | .invalidRequest _ => 400
  | .notFound _ => 404
  | .remote status _ => if 100 ≤ status ∧ status ≤ 999 then status else 502
  | .credential _ => 500
  | .internal => 500

end Failure

end ChartFeed
