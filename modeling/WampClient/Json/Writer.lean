import WampClient.Decimal.Shortest
import WampClient.Value

/-! Values as JSON text without blanks. Numbers that JSON cannot write become `null`; of the
characters of a string only quotes, backslashes and the first thirty-two are escaped. -/
namespace WampClient.Json

def hexDigit (n : Nat) : Char := (Nat.toDigits 16 n).headD '0'

/-- A character within a string. -/
def escape (c : Char) : List Char :=
  if c = '"' then ['\\', '"']
  else if c = '\\' then ['\\', '\\']
  else if c = '\x08' then ['\\', 'b']
  else if c = '\x0c' then ['\\', 'f']
  else if c = '\n' then ['\\', 'n']
  else if c = '\r' then ['\\', 'r']
  else if c = '\t' then ['\\', 't']
  else if c.toNat < 0x20 then
    ['\\', 'u', '0', '0', hexDigit (c.toNat / 16), hexDigit (c.toNat % 16)]
  else [c]

def writeString (s : String) : List Char := '"' :: s.toList.flatMap escape ++ ['"']

def writeInt (n : Int) : List Char :=
  if n < 0 then '-' :: Decimal.natText n.natAbs else Decimal.natText n.natAbs

def writeFloat (x : Binary64) : List Char :=
  if x.isFinite then (Decimal.text x).toList else ['n', 'u', 'l', 'l']

def writeBool (b : Bool) : List Char :=
  if b then ['t', 'r', 'u', 'e'] else ['f', 'a', 'l', 's', 'e']

mutual

def write : Value → List Char
  | .unsigned n => Decimal.natText n.toNat
  | .signed n => writeInt n.toInt
  | .float x => writeFloat x
  | .bool b => writeBool b
  | .string s => writeString s
  | .list items => '[' :: writeItems items ++ [']']
  | .dictionary entries => '{' :: writeEntries entries ++ ['}']
  | .null => ['n', 'u', 'l', 'l']

def writeItems : List Value → List Char
  | [] => []
  | [v] => write v
  | v :: rest => write v ++ ',' :: writeItems rest

def writeEntries : List (String × Value) → List Char
  | [] => []
  | [(k, v)] => writeString k ++ ':' :: write v
  | (k, v) :: rest => writeString k ++ ':' :: write v ++ ',' :: writeEntries rest

end

def text (v : Value) : String := String.ofList (write v)

end WampClient.Json
