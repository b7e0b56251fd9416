import WampClient.Json.Number

/-! Reading JSON text, strictly: no comments, no trailing commas, no control characters in strings,
no lone surrogates. Lists and objects may be nested to a given depth. Every reader takes a value
from the front of the text and gives back the rest. What repeats takes at least one character each
time, so the text itself bounds the repetitions. -/
namespace WampClient.Json

/-- Lists and objects may stand within each other this often. -/
def depthLimit : Nat := 127

def isSpace (c : Char) : Bool := c == ' ' || c == '\n' || c == '\t' || c == '\r'

def skipSpace (text : List Char) : List Char := text.dropWhile isSpace

def hexValue? (c : Char) : Option Nat :=
  if '0' ≤ c ∧ c ≤ '9' then some (c.toNat - '0'.toNat)
  else if 'a' ≤ c ∧ c ≤ 'f' then some (c.toNat - 'a'.toNat + 10)
  else if 'A' ≤ c ∧ c ≤ 'F' then some (c.toNat - 'A'.toNat + 10)
  else none

/-- Four hexadecimal digits. -/
def hexQuad : List Char → Option (Nat × List Char)
  | a :: b :: c :: d :: rest => do
    let high := (← hexValue? a) * 16 + (← hexValue? b)
    return ((high * 16 + (← hexValue? c)) * 16 + (← hexValue? d), rest)
  | _ => none

/-- The character written as `\u` and its code, or as two such codes that make a surrogate pair. -/
def unicodeEscape (text : List Char) : Option (Char × List Char) := do
  let (n, rest) ← hexQuad text
  if 0xD800 ≤ n ∧ n < 0xDC00 then
    match rest with
    | '\\' :: 'u' :: rest =>
      let (low, rest) ← hexQuad rest
      if 0xDC00 ≤ low ∧ low < 0xE000 then
        return (Char.ofNat (0x10000 + (n - 0xD800) * 0x400 + (low - 0xDC00)), rest)
      else none
    | _ => none
  else if 0xDC00 ≤ n ∧ n < 0xE000 then none
  else return (Char.ofNat n, rest)

/-- The character after a backslash, and the rest. -/
def unescape : List Char → Option (Char × List Char)
  | [] => none
  | c :: rest =>
    match c with
    | '"' => some ('"', rest)
    | '\\' => some ('\\', rest)
    | '/' => some ('/', rest)
    | 'b' => some ('\x08', rest)
    | 'f' => some ('\x0c', rest)
    | 'n' => some ('\n', rest)
    | 'r' => some ('\r', rest)
    | 't' => some ('\t', rest)
    | 'u' => unicodeEscape rest
    | _ => none

/-- The characters of a string up to its closing quote, no more of them than the bound has. -/
def stringChars : List Char → List Char → Option (List Char × List Char)
  | _ :: bound, c :: rest =>
    if c = '"' then some ([], rest)
    else if c = '\\' then do
      let (c, rest) ← unescape rest
      let (cs, rest) ← stringChars bound rest
      return (c :: cs, rest)
    else if c.toNat < 0x20 then none
    else do
      let (cs, rest) ← stringChars bound rest
      return (c :: cs, rest)
  | _, _ => none

/-- A string after its opening quote. -/
def readString (text : List Char) : Option (String × List Char) :=
  (stringChars text text).map fun r => (String.ofList r.1, r.2)

/-- Takes a fixed word from the front. -/
def word (w : List Char) (v : Value) (text : List Char) : Option (Value × List Char) :=
  if w.isPrefixOf text then some (v, text.drop w.length) else none

/-- Everything but lists and objects. -/
def readScalar : List Char → Option (Value × List Char)
  | [] => none
  | c :: rest =>
    match c with
    | '"' => (readString rest).map fun r => (.string r.1, r.2)
    | 'n' => word ['u', 'l', 'l'] .null rest
    | 't' => word ['r', 'u', 'e'] (.bool true) rest
    | 'f' => word ['a', 'l', 's', 'e'] (.bool false) rest
    | _ => readNumber (c :: rest)

/-- The items of a list after the bracket or a comma, up to the closing bracket. -/
def readItems (item : List Char → Option (Value × List Char)) :
    List Char → List Char → Option (List Value × List Char)
  | [], _ => none
  | _ :: bound, text => do
    let (v, rest) ← item text
    match skipSpace rest with
    | ',' :: rest =>
      let (vs, rest) ← readItems item bound rest
      return (v :: vs, rest)
    | ']' :: rest => return ([v], rest)
    | _ => none

/-- The entries of an object after the brace or a comma, up to the closing brace. -/
def readEntries (item : List Char → Option (Value × List Char)) :
    List Char → List Char → Option (List (String × Value) × List Char)
  | [], _ => none
  | _ :: bound, text =>
    match skipSpace text with
    | '"' :: text => do
      let (k, rest) ← readString text
      match skipSpace rest with
      | ':' :: rest =>
        let (v, rest) ← item rest
        match skipSpace rest with
        | ',' :: rest =>
          let (es, rest) ← readEntries item bound rest
          return ((k, v) :: es, rest)
        | '}' :: rest => return ([(k, v)], rest)
        | _ => none
      | _ => none
    | _ => none

/-- A list after its opening bracket. -/
def readList (item : List Char → Option (Value × List Char)) (text : List Char) :
    Option (List Value × List Char) :=
  match skipSpace text with
  | ']' :: rest => some ([], rest)
  | _ => readItems item text text

/-- An object after its opening brace. -/
def readObject (item : List Char → Option (Value × List Char)) (text : List Char) :
    Option (Dictionary × List Char) :=
  match skipSpace text with
  | '}' :: rest => some ([], rest)
  | _ => (readEntries item text text).map fun r => (Dictionary.ofList r.1, r.2)

/-- A value that nests lists and objects to at most the given depth. -/
def readValue : Nat → List Char → Option (Value × List Char)
  | 0, text => readScalar (skipSpace text)
  | depth + 1, text =>
    match skipSpace text with
    | '[' :: rest => (readList (readValue depth) rest).map fun r => (.list r.1, r.2)
    | '{' :: rest => (readObject (readValue depth) rest).map fun r => (.dictionary r.1, r.2)
    | text => readScalar text

/-- Whether nothing but space is left. -/
def atEnd (text : List Char) : Bool := (skipSpace text).isEmpty

/-- The value that makes up the whole text. -/
def parse (text : List Char) : Option Value := do
  let (v, rest) ← readValue depthLimit text
  if atEnd rest then some v else none

end WampClient.Json
