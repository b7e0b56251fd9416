/-! Ids of sessions, requests, registrations, subscriptions and publications: the whole numbers
from 1 to 2 ^ 53, which is 9007199254740992 and the last that every peer can hold exactly. -/
namespace WampClient

structure Id where
  value : Nat
  one_le : 1 ≤ value
  le_max : value ≤ 9007199254740992
  deriving DecidableEq, Repr

/-- A number that is no id. -/
structure IdOutOfRange where
  value : Nat
  deriving DecidableEq, Repr

def IdOutOfRange.message (e : IdOutOfRange) : String :=
  toString e.value ++ " is out of range for IDs"

namespace Id

def min : Id := ⟨1, by decide, by decide⟩

def max : Id := ⟨9007199254740992, by decide, by decide⟩

instance : Inhabited Id := ⟨min⟩

def ofNat (n : Nat) : Except IdOutOfRange Id :=
  if h : 1 ≤ n ∧ n ≤ 9007199254740992 then .ok ⟨n, h.1, h.2⟩ else .error ⟨n⟩

/-- The id after this one; the largest is followed by the least. -/
def next (i : Id) : Id :=
  if h : i.value < 9007199254740992 then ⟨i.value + 1, by omega, by omega⟩ else min

end Id

/-- Draws ids in order, going round after the largest. -/
structure IdSource where
  upcoming : Id
  deriving DecidableEq, Repr

namespace IdSource

def startingAt (first : Id) : IdSource := ⟨first⟩

def initial : IdSource := startingAt Id.min

def draw (s : IdSource) : Id × IdSource := (s.upcoming, ⟨s.upcoming.next⟩)

/-- Goes back to the least id, wherever the drawing began. -/
def reset (_ : IdSource) : IdSource := ⟨Id.min⟩

end IdSource

end WampClient
