import WampClient.Client.Action
import WampClient.Client.Advance

/-! How a client and its session move. Something comes in, time goes by, the session takes up a
command, an operation looks at its boxes, the program does something: these follow one another in
any order. A client is at rest when the session has no commands and no operation can go on. -/
namespace WampClient

inductive Move where
  | arrive (a : Arrival)
  /-- Time goes by, in milliseconds. -/
  | elapse (time : Nat)
  | serve
  | poll (number : Nat)
  /-- An operation begins under a number that no other has at the time. -/
  | act (number : Nat) (a : Action)
  deriving Repr

namespace Client

def take (c : Client) (input : Input) : Client := { c with session := c.session.step input }

def move (c : Client) : Move → Client
  | .arrive a => c.take (.arrival a)
  | .elapse time => c.take (.elapse time)
  | .serve => c.serve
  | .poll number => c.poll number
  | .act number a => if c.tasks.any (fun t => t.number == number) then c else (c.act number a).1

def run (c : Client) (moves : List Move) : Client := moves.foldl move c

/-- The session serves all commands that are there, then every operation is polled. -/
def turn (c : Client) : Client :=
  let c := c.commands.foldl (fun c _ => c.serve) c
  let c := c.take (.elapse 0)
  c.tasks.foldl (fun c t => c.poll t.number) c

def turns : Nat → Client → Client
  | 0, c => c
  | n + 1, c => turns n c.turn

/-- Goes on until nothing moves any more: every turn before that lets some operation go on, and no
operation waits for more than two things. -/
def settle (c : Client) : Client := turns (2 * c.tasks.length + 2) c

end Client

end WampClient
