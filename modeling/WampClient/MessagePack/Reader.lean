import WampClient.Text.Utf8
import WampClient.Value

/-! Reading MessagePack. Every form of a number is accepted. Binary data that is text counts as a
string; other binary data, extensions and keys that are no text are refused. -/
namespace WampClient.MessagePack

/-- Lists and maps may stand within each other this often. -/
def depthLimit : Nat := 1023

/-- What the first byte announces: a whole value, or a string, a list or a map of known size. -/
inductive Lead where
  | value (v : Value)
  | text (size : Nat)
  | binary (size : Nat)
  | list (count : Nat)
  | map (count : Nat)

/-- A number of `width` bytes, the highest first. -/
def readNat : Nat → Nat → Bytes → Option (Nat × Bytes)
  | 0, n, rest => some (n, rest)
  | _ + 1, _, [] => none
  | width + 1, n, b :: rest => readNat width (n * 256 + b.toNat) rest

/-- A number of `width` bytes as `f` takes it. -/
def sized (width : Nat) (f : Nat → Lead) (rest : Bytes) : Option (Lead × Bytes) :=
  (readNat width 0 rest).map fun r => (f r.1, r.2)

def unsigned (n : Nat) : Lead := .value (.unsigned (UInt64.ofNat n))

/-- A number of so many bits, the highest of which counts negatively. -/
def complement (bits n : Nat) : Lead :=
  let value : Int := if n < 1 <<< (bits - 1) then n else (n : Int) - ((1 <<< bits : Nat) : Int)
  .value (Value.ofInt64 (Int64.ofInt value))

def single (n : Nat) : Lead := .value (.float (Binary64.ofBinary32 (UInt32.ofNat n)))

def double (n : Nat) : Lead := .value (.float (Binary64.ofNatBits n))

def readLead : Bytes → Option (Lead × Bytes)
  | [] => none
  | b :: rest =>
    let n := b.toNat
    if n < 0x80 then some (unsigned n, rest)
    else if n < 0x90 then some (.map (n - 0x80), rest)
    else if n < 0xA0 then some (.list (n - 0x90), rest)
    else if n < 0xC0 then some (.text (n - 0xA0), rest)
    else if 0xE0 ≤ n then some (complement 8 n, rest)
    else match n with
      | 0xC0 => some (.value .null, rest)
      | 0xC2 => some (.value (.bool false), rest)
      | 0xC3 => some (.value (.bool true), rest)
      | 0xC4 => sized 1 .binary rest
      | 0xC5 => sized 2 .binary rest
      | 0xC6 => sized 4 .binary rest
      | 0xCA => sized 4 single rest
      | 0xCB => sized 8 double rest
      | 0xCC => sized 1 unsigned rest
      | 0xCD => sized 2 unsigned rest
      | 0xCE => sized 4 unsigned rest
      | 0xCF => sized 8 unsigned rest
      | 0xD0 => sized 1 (complement 8) rest
      | 0xD1 => sized 2 (complement 16) rest
      | 0xD2 => sized 4 (complement 32) rest
      | 0xD3 => sized 8 (complement 64) rest
      | 0xD9 => sized 1 .text rest
      | 0xDA => sized 2 .text rest
      | 0xDB => sized 4 .text rest
      | 0xDC => sized 2 .list rest
      | 0xDD => sized 4 .list rest
      | 0xDE => sized 2 .map rest
      | 0xDF => sized 4 .map rest
      | _ => none

/-- So many bytes from the front. -/
def takeBytes : Nat → Bytes → Option (Bytes × Bytes)
  | 0, rest => some ([], rest)
  | _ + 1, [] => none
  | n + 1, b :: rest => (takeBytes n rest).map fun r => (b :: r.1, r.2)

def readText (size : Nat) (rest : Bytes) : Option (String × Bytes) := do
  let (body, rest) ← takeBytes size rest
  return (← Text.ofBytes? body, rest)

def readKey (bytes : Bytes) : Option (String × Bytes) := do
  match ← readLead bytes with
  | (.text n, rest) => readText n rest
  | (.binary n, rest) => readText n rest
  | _ => none

def readItems (item : Bytes → Option (Value × Bytes)) : Nat → Bytes → Option (List Value × Bytes)
  | 0, rest => some ([], rest)
  | n + 1, bytes => do
    let (v, rest) ← item bytes
    let (vs, rest) ← readItems item n rest
    return (v :: vs, rest)

def readEntries (item : Bytes → Option (Value × Bytes)) :
    Nat → Bytes → Option (List (String × Value) × Bytes)
  | 0, rest => some ([], rest)
  | n + 1, bytes => do
    let (k, rest) ← readKey bytes
    let (v, rest) ← item rest
    let (es, rest) ← readEntries item n rest
    return ((k, v) :: es, rest)

/-- The value that a first byte announced; `item` reads what is nested, if it may be. -/
def readBody (item : Option (Bytes → Option (Value × Bytes))) :
    Lead → Bytes → Option (Value × Bytes)
  | .value v, rest => some (v, rest)
  | .text n, rest => (readText n rest).map fun r => (.string r.1, r.2)
  | .binary n, rest => (readText n rest).map fun r => (.string r.1, r.2)
  | .list n, rest => do
    let (vs, rest) ← readItems (← item) n rest
    return (.list vs, rest)
  | .map n, rest => do
    let (es, rest) ← readEntries (← item) n rest
    return (.dictionary (Dictionary.ofList es), rest)

/-- A value that nests lists and maps to at most the given depth. -/
def readValue : Nat → Bytes → Option (Value × Bytes)
  | 0, bytes => do
    let (lead, rest) ← readLead bytes
    readBody none lead rest
  | depth + 1, bytes => do
    let (lead, rest) ← readLead bytes
    readBody (some (readValue depth)) lead rest

/-- The list at the front of a frame; binary data is the list of its bytes. What follows it is
passed over. -/
def readFrame (bytes : Bytes) : Option (List Value) := do
  match ← readLead bytes with
  | (.list n, rest) => return (← readItems (readValue (depthLimit - 1)) n rest).1
  | (.binary n, rest) =>
    return (← takeBytes n rest).1.map fun b => .unsigned (UInt64.ofNat b.toNat)
  | _ => none

end WampClient.MessagePack
