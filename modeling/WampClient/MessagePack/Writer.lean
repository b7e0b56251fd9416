import WampClient.Text.Utf8
import WampClient.Value

/-! Values in MessagePack, each number, length and count in the shortest of its forms. Floats are
written in double precision. -/
namespace WampClient.MessagePack

/-- The last `width` bytes of a number, the highest first. -/
def bigEndian : Nat → Nat → Bytes
  | 0, _ => []
  | width + 1, n => bigEndian width (n / 256) ++ [UInt8.ofNat n]

/-- A marker and a number behind it. -/
def marked (marker : UInt8) (width n : Nat) : Bytes := marker :: bigEndian width n

def writeNat (n : Nat) : Bytes :=
  if n < 0x80 then [UInt8.ofNat n]
  else if n < 0x100 then marked 0xCC 1 n
  else if n < 0x10000 then marked 0xCD 2 n
  else if n < 0x100000000 then marked 0xCE 4 n
  else marked 0xCF 8 n

/-- Negative numbers stand as their complements. -/
def writeInt (n : Int) : Bytes :=
  if 0 ≤ n then writeNat n.toNat
  else if -0x20 ≤ n then bigEndian 1 (n + 0x100).toNat
  else if -0x80 ≤ n then marked 0xD0 1 (n + 0x100).toNat
  else if -0x8000 ≤ n then marked 0xD1 2 (n + 0x10000).toNat
  else if -0x80000000 ≤ n then marked 0xD2 4 (n + 0x100000000).toNat
  else marked 0xD3 8 (n + 0x10000000000000000).toNat

/-- The header of a string of so many bytes. -/
def stringHeader (n : Nat) : Bytes :=
  if n < 32 then [UInt8.ofNat (0xA0 + n)]
  else if n < 0x100 then marked 0xD9 1 n
  else if n < 0x10000 then marked 0xDA 2 n
  else marked 0xDB 4 n

def listHeader (n : Nat) : Bytes :=
  if n < 16 then [UInt8.ofNat (0x90 + n)]
  else if n < 0x10000 then marked 0xDC 2 n
  else marked 0xDD 4 n

def mapHeader (n : Nat) : Bytes :=
  if n < 16 then [UInt8.ofNat (0x80 + n)]
  else if n < 0x10000 then marked 0xDE 2 n
  else marked 0xDF 4 n

def writeString (s : String) : Bytes :=
  let body := Text.bytesOf s
  stringHeader body.length ++ body

mutual

def write : Value → Bytes
  | .unsigned n => writeNat n.toNat
  | .signed n => writeInt n.toInt
  | .float x => marked 0xCB 8 x.bits.toNat
  | .bool b => [if b then 0xC3 else 0xC2]
  | .string s => writeString s
  | .list items => listHeader items.length ++ writeItems items
  | .dictionary entries => mapHeader entries.length ++ writeEntries entries
  | .null => [0xC0]

def writeItems : List Value → Bytes
  | [] => []
  | v :: rest => write v ++ writeItems rest

def writeEntries : List (String × Value) → Bytes
  | [] => []
  | (k, v) :: rest => writeString k ++ write v ++ writeEntries rest

end

end WampClient.MessagePack
