import WampClient.Message.Basic

/-! The client's part in an authentication: what HELLO says of it, the answer to a challenge, and a
look at the WELCOME that follows. -/
namespace WampClient

structure Authenticator where
  method : String
  identity : Option String
  /-- Answers a challenge, given its method and extra, with a signature and an extra, or refuses. -/
  answer : String → Dictionary → Except String (String × Dictionary)
  /-- Accepts the details of a WELCOME, or says what is wrong with them. -/
  verify : Dictionary → Except String Unit
  /-- The same for the session and the details of a WELCOME. Whoever does not care for the session
  looks at the details only. -/
  verifyWelcome : Id → Dictionary → Except String Unit := fun _ => verify
  /-- How long it takes to answer a challenge, in milliseconds. -/
  delay : String → Dictionary → Nat := fun _ _ => 0
  /-- What it has become once it has answered a challenge, if it does not stay what it was. -/
  turned : String → Dictionary → Option Authenticator := fun _ _ => none

namespace Authenticator

/-- Puts the method, and the identity if there is one, into the details of HELLO. -/
def announce (a : Authenticator) (details : Dictionary) : Dictionary :=
  let details := details.insert "authmethods" (.list [.string a.method])
  match a.identity with
  | none => details
  | some identity => details.insert "authid" (.string identity)

def afterwards (a : Authenticator) (method : String) (extra : Dictionary) : Authenticator :=
  (a.turned method extra).getD a

/-- Sends a secret in answer to the challenge. A WELCOME for someone else is not accepted. -/
def ticket (identity secret : String) : Authenticator where
  method := "ticket"
  identity := some identity
  answer method _ :=
    if method = "ticket" then .ok (secret, [])
    else .error ("unsupported authentication method: " ++ method)
  verify details :=
    match details.text? "authid" with
    | none => .ok ()
    | some other =>
      if other = identity then .ok ()
      else .error ("router authenticated the session as " ++ other ++ ", not " ++ identity)

end Authenticator

end WampClient
