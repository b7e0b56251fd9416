/-! Text in bytes. Bytes that are no text at all are read up to the first one that belongs to no
character; a NUL stands for the rest, which no text format read here can hold. -/
namespace WampClient

abbrev Bytes := List UInt8

namespace Text

def bytesOf (s : String) : Bytes := s.toUTF8.toList

def ofBytes? (b : Bytes) : Option String := String.fromUTF8? b.toByteArray

/-- The characters of which the bytes are made before the first that fits into none. -/
def leadingChars (b : ByteArray) : Nat → Nat → List Char
  | 0, _ => []
  | steps + 1, i =>
    match b.utf8DecodeChar? i with
    | some c => c :: leadingChars b steps (i + c.utf8Size)
    | none => []

def charsOf (b : Bytes) : List Char :=
  match ofBytes? b with
  | some s => s.toList
  | none => leadingChars b.toByteArray b.length 0 ++ ['\x00']

end Text

end WampClient
