import WampClient.Decimal.Shortest
import WampClient.Id
import WampClient.Json.Reader
import WampClient.Json.Writer
import WampClient.Text.Quoted
import WampClient.Uri

/-! Reading JSON text that has to hold a URI, a pattern or an id. A value of the wrong kind is
reported as soon as it shows, before the rest of the text is looked at. -/
namespace WampClient.Json

/-- The front of a text: a scalar, or the first character of a list or an object. -/
inductive Lead where
  | scalar (v : Value) (rest : List Char)
  | sequence
  | map

def lead (text : List Char) : Option Lead :=
  match skipSpace text with
  | '[' :: _ => some .sequence
  | '{' :: _ => some .map
  | text => (readScalar text).map fun r => .scalar r.1 r.2

/-- What was found in place of the thing expected. -/
inductive TypedError where
  | malformed
  | wrongType (found expected : String)
  | wrongValue (found expected : String)
  deriving DecidableEq, Repr

def TypedError.message : TypedError → String
  | .malformed => "malformed"
  | .wrongType found expected => "invalid type: " ++ found ++ ", expected " ++ expected
  | .wrongValue found expected => "invalid value: " ++ found ++ ", expected " ++ expected

/-- A scalar as it is shown in an error. -/
def describe : Value → String
  | .unsigned n => "integer `" ++ toString n.toNat ++ "`"
  | .signed n => "integer `" ++ toString n.toInt ++ "`"
  | .float x => "floating point `" ++ Decimal.text x ++ "`"
  | .bool b => "boolean `" ++ String.ofList (writeBool b) ++ "`"
  | .string s => "string " ++ Text.quoted s
  | .list _ => "sequence"
  | .dictionary _ => "map"
  | .null => "null"

/-- Reads a text that has to hold one thing. `accept` judges a scalar: `none` where it is of the
wrong type, `some none` where only its value is wrong. -/
def readTyped (expected : String) (accept : Value → Option (Option α)) (text : List Char) :
    Except TypedError α :=
  match lead text with
  | none => .error .malformed
  | some .sequence => .error (.wrongType "sequence" expected)
  | some .map => .error (.wrongType "map" expected)
  | some (.scalar v rest) =>
    match accept v with
    | none => .error (.wrongType (describe v) expected)
    | some none => .error (.wrongValue (describe v) expected)
    | some (some a) => if atEnd rest then .ok a else .error .malformed

def readUri : List Char → Except TypedError Uri :=
  readTyped "a URI" fun v => v.string?.map fun s => (Uri.ofString s).toOption

def readPattern : List Char → Except TypedError UriPattern :=
  readTyped "a wildcard URI" fun v => v.string?.map fun s => (UriPattern.ofString s).toOption

def acceptId : Value → Option (Option Id)
  | .unsigned n => some (Id.ofNat n.toNat).toOption
  | .signed n => some (if 0 ≤ n then (Id.ofNat n.toNatClampNeg).toOption else none)
  | _ => none

def readId : List Char → Except TypedError Id :=
  readTyped ("an unsigned integer in the range [" ++ toString Id.min.value ++ ", " ++
    toString Id.max.value ++ "]") acceptId

end WampClient.Json
