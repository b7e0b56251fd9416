import WampClient.Binary64

/-! The values that messages carry. Unsigned and signed whole numbers are told apart, and a float
is kept as its bits. The entries of a dictionary stand in rising order of their keys, each key once,
so that equal dictionaries are equal lists. -/
namespace WampClient

inductive Value where
  | unsigned (n : UInt64)
  | signed (n : Int64)
  | float (x : Binary64)
  | bool (b : Bool)
  | string (s : String)
  | list (items : List Value)
  | dictionary (entries : List (String × Value))
  | null
  deriving Inhabited, Repr

abbrev Dictionary := List (String × Value)

namespace Dictionary

def get? (key : String) : Dictionary → Option Value
  | [] => none
  | (k, v) :: rest => if k = key then some v else get? key rest

/-- Puts a value under a key, in place of the one that stood there. -/
def insert (key : String) (value : Value) : Dictionary → Dictionary
  | [] => [(key, value)]
  | (k, v) :: rest =>
    if key < k then (key, value) :: (k, v) :: rest
    else if key = k then (key, value) :: rest
    else (k, v) :: insert key value rest

def erase (key : String) (d : Dictionary) : Dictionary := d.filter fun e => e.1 ≠ key

/-- Of entries with one key the last is kept. -/
def ofList (entries : List (String × Value)) : Dictionary :=
  entries.foldl (fun d e => insert e.1 e.2 d) []

def Sorted (d : Dictionary) : Prop := (d.map Prod.fst).Pairwise (· < ·)

end Dictionary

namespace Value

/-- A signed number, which is held as an unsigned one if it can be. -/
def ofInt64 (n : Int64) : Value := if 0 ≤ n then .unsigned n.toUInt64 else .signed n

def integer? : Value → Option UInt64
  | .unsigned n => some n
  | .signed n => if 0 ≤ n then some n.toUInt64 else none
  | _ => none

def bool? : Value → Option Bool
  | .bool b => some b
  | _ => none

def string? : Value → Option String
  | .string s => some s
  | _ => none

def list? : Value → Option (List Value)
  | .list items => some items
  | _ => none

def dictionary? : Value → Option Dictionary
  | .dictionary entries => some entries
  | _ => none

/-- The value made anew from its payload; a signed number may become an unsigned one. -/
def rewrap : Value → Value
  | .signed n => ofInt64 n
  | v => v

mutual

/-- Equality of values as numbers compare: the two zeros are equal, and what is not a number
differs from itself. -/
def same : Value → Value → Bool
  | .unsigned a, .unsigned b => a == b
  | .signed a, .signed b => a == b
  | .float a, .float b => a.same b
  | .bool a, .bool b => a == b
  | .string a, .string b => a == b
  | .list a, .list b => sameItems a b
  | .dictionary a, .dictionary b => sameEntries a b
  | .null, .null => true
  | _, _ => false

def sameItems : List Value → List Value → Bool
  | [], [] => true
  | v :: r, w :: s => same v w && sameItems r s
  | _, _ => false

def sameEntries : List (String × Value) → List (String × Value) → Bool
  | [], [] => true
  | (j, v) :: r, (k, w) :: s => j == k && same v w && sameEntries r s
  | _, _ => false

end

mutual

/-- Every dictionary within the value has its keys in rising order, each once. -/
def Canonical : Value → Prop
  | .list items => CanonicalItems items
  | .dictionary entries => Dictionary.Sorted entries ∧ CanonicalEntries entries
  | _ => True

def CanonicalItems : List Value → Prop
  | [] => True
  | v :: rest => Canonical v ∧ CanonicalItems rest

def CanonicalEntries : List (String × Value) → Prop
  | [] => True
  | (_, v) :: rest => Canonical v ∧ CanonicalEntries rest

end

end Value

namespace Dictionary

/-- Whether the entry is there and is `true`. -/
def flag (key : String) (d : Dictionary) : Bool := ((get? key d).bind Value.bool?).getD false

def text? (key : String) (d : Dictionary) : Option String := (get? key d).bind Value.string?

end Dictionary

end WampClient
