import WampClient.Session.Authenticator
import WampClient.Vocabulary

/-! What a client needs to know to join a realm. Times are in milliseconds. -/
namespace WampClient

structure Config where
  name : String
  realm : Uri
  agent : String
  roles : List Role
  handshakeTimeout : Nat
  closeTimeout : Nat
  /-- Has the last word on the details of HELLO. -/
  customize : Dictionary → Dictionary
  authenticator : Option Authenticator
  firstId : Id

/-- What keeps a configuration from being used. -/
inductive ConfigProblem where
  | noRealm
  | noRole
  | noTime
  deriving DecidableEq, Repr

def ConfigProblem.message : ConfigProblem → String
  | .noRealm => "realm is required"
  | .noRole => "at least one role is required"
  | .noTime => "handshake timeout must be positive"

namespace Config

def defaultAgent : String := "wampus-0.1.0"

def default : Config where
  name := defaultAgent
  realm := ⟨""⟩
  agent := defaultAgent
  roles := Role.all
  handshakeTimeout := 10000
  closeTimeout := 5000
  customize := id
  authenticator := none
  firstId := Id.min

def problem? (c : Config) : Option ConfigProblem :=
  if c.realm.isEmpty then some .noRealm
  else if c.roles.isEmpty then some .noRole
  else if c.handshakeTimeout = 0 then some .noTime
  else none

def roleEntries (c : Config) : Dictionary :=
  Dictionary.ofList (c.roles.map fun r => (r.name, .dictionary r.details))

/-- The details of HELLO: roles and agent, then the authenticator's, then the customizer's. -/
def introduction (c : Config) : Dictionary :=
  let details := Dictionary.ofList
    [("roles", .dictionary c.roleEntries), ("agent", .string c.agent)]
  c.customize (c.authenticator.elim details fun a => a.announce details)

end Config

end WampClient
