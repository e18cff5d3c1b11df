import AgentGovernor.DomainResource
import AgentGovernor.RevocationDomain

/-! The authorization contract: what a policy is asked and what it answers. Maps are association lists, an
absent map is `none`. -/

namespace AgentGovernor

/-- A Go `any` as policy maps hold it. `number` is a `json.Number`; a `float64` comes with the shortest
decimal that `strconv.FormatFloat` gives for it. -/
inductive PolicyValue where
  | null
  | bool (value : Bool)
  | text (value : String)
  | int (value : Int)
  | int64 (value : Int)
  | number (text : String)
  | float64 (value : Rat) (shortest : String)
  | texts (values : List String)
  | list (values : List PolicyValue)
  | object (fields : List (String × PolicyValue))

abbrev PolicyMap := List (String × PolicyValue)

namespace Policy

def contractVersion : String := "thinkpixelag.authorization/v1alpha1"

structure Subject where
  principalID : String
  tenantID : String
  principalType : String
  roles : List String
  authenticationMethods : List String
  issuer : String
  deriving DecidableEq

structure Resource where
  type : String
  id : String
  tenantID : String
  attributes : Option PolicyMap

structure Agent where
  id : String
  versionDigest : String
  riskClass : String
  owner : String
  approved : Bool
  revoked : Bool
  deriving DecidableEq

structure SecurityState where
  globalEpoch : Int
  tenantPolicyEpoch : Int
  tenantRevocationEpoch : Int
  agentRevocationEpoch : Int
  ageSeconds : Int
  freshnessMaxAgeSeconds : Int
  hasGap : Bool
  authoritative : Bool
  deriving DecidableEq

structure RequestContext where
  requestID : String
  sourceWorkload : String
  deriving DecidableEq

structure Input where
  contractVersion : String
  decisionID : String
  requestTime : Time
  subject : Subject
  action : String
  resource : Resource
  agent : Option Agent
  requestedConstraints : Option PolicyMap
  authorityConstraints : Option PolicyMap
  securityState : SecurityState
  context : RequestContext

structure Obligation where
  type : String
  mandatory : Bool
  deriving DecidableEq

structure Decision where
  contractVersion : String
  decisionID : String
  allow : Bool
  reasonCodes : List String
  resolvedConstraints : Option PolicyMap
  obligations : Option (List Obligation)
  decisionTTLSeconds : Int

/-- The duration of an evaluation is not kept. -/
structure Metadata where
  policyDigest : String
  policyVersion : Int
  inputDigest : String
  cacheStatus : String
  deriving DecidableEq

structure Result where
  decision : Decision
  metadata : Metadata

/-- An evaluator's answer is a function of the input: the identifier of the decision tells two evaluations
of one question apart. -/
abbrev Evaluator := Input → Except Failure Result

/-- The value of an attribute of the resource. -/
def Input.attribute (input : Input) (key : String) : Option PolicyValue :=
  input.resource.attributes.bind (·.lookup key)

end Policy

end AgentGovernor
