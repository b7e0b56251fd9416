import WampClient.Text.Unprintable

/-! Text shown in quotes within a message to a person: quotes, backslashes and the usual controls
are escaped, and what has no shape of its own is given by its code. -/
namespace WampClient.Text

def isPlain (c : Char) : Bool :=
  !(inRanges unprintableRanges c.toNat || inRanges extendingRanges c.toNat)

def quotedChar (c : Char) : List Char :=
  if c = '\x00' then ['\\', '0']
  else if c = '\t' then ['\\', 't']
  else if c = '\n' then ['\\', 'n']
  else if c = '\r' then ['\\', 'r']
  else if c = '"' then ['\\', '"']
  else if c = '\\' then ['\\', '\\']
  else if isPlain c then [c]
  else ['\\', 'u', '{'] ++ Nat.toDigits 16 c.toNat ++ ['}']

def quoted (s : String) : String :=
  String.ofList ('"' :: s.toList.flatMap quotedChar ++ ['"'])

end WampClient.Text
