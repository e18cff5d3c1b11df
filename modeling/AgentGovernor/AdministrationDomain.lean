import AgentGovernor.DomainResource
import AgentGovernor.JsonText
import AgentGovernor.RevocationDomain

/-! What administrators of a tenant change, as the evidence of such changes writes it out. -/

namespace AgentGovernor

/-! ### Values as JSON -/

def ID.json (id : ID) : Except Failure Json :=
  if id.isZero then .error (.plain "json: error calling MarshalJSON for type domain.ID: invalid UUIDv7 identifier")
  else .ok (.string id.string)

def Time.json (t : Time) : Except Failure Json :=
  if t.encodable then .ok (.string t.formatRFC3339Nano) else .error yearOutOfRange

def Json.ofInt (n : Int) : Json := .number (.ofInt n)

/-- A `map[string]string`, in the order in which it is written out. -/
structure StringMap where
  entries : List (String × String)
  sorted : entries.Pairwise (·.1 < ·.1)
  deriving DecidableEq

namespace StringMap

def json (m : StringMap) : Json := .object (m.entries.map fun e => (e.1, .string e.2))

end StringMap

/-- A change that a policy has authorized, with the policy and the role mappings it was authorized under. -/
structure AdministrationOperation where
  mappingIssuer : String
  mappingRevision : Int
  tenantID : ID
  actorID : ID
  requestID : ID
  decisionID : ID
  action : String
  resource : String
  channel : String
  key : String
  requestHash : String
  policyDigest : String
  policyVersion : Int
  at' : Time
  deriving DecidableEq

end AgentGovernor
