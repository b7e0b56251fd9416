import WampClient.Json.Reader
import WampClient.Json.Writer
import WampClient.Message.Decode
import WampClient.MessagePack.Reader
import WampClient.MessagePack.Writer

/-! Messages as frames of bytes, in either of the two formats that peers agree on when they
connect. -/
namespace WampClient

inductive WireFormat where
  | json
  | messagePack
  deriving DecidableEq, Repr

namespace WireFormat

def label : WireFormat → String
  | .json => "json"
  | .messagePack => "msgpack"

/-- The name under which the format is agreed on. -/
def uri (f : WireFormat) : Uri := ⟨"wamp.2." ++ f.label⟩

def isBinary (f : WireFormat) : Bool := f == .messagePack

def unsupported : String := "unsupported serializer"

def ofName? (name : String) : Option WireFormat :=
  if name = "wamp.2.json" then some .json
  else if name = "wamp.2.msgpack" then some .messagePack
  else none

end WireFormat

/-- Why a frame is no message: it breaks the rules of its format, or holds a list that is none. -/
inductive FrameError where
  | malformed
  | invalid (reason : InvalidMessage)
  deriving DecidableEq, Repr

namespace Message

def toFrame (format : WireFormat) (m : Message) : Bytes :=
  match format with
  | .json => Text.bytesOf (Json.text (.list m.encode))
  | .messagePack => MessagePack.write (.list m.encode)

def decodeFrame (fields : List Value) : Except FrameError Message :=
  (decode fields).mapError FrameError.invalid

/-- Reads a frame. In JSON a list that is no message is reported before anything behind it. -/
def ofFrame (format : WireFormat) (bytes : Bytes) : Except FrameError Message :=
  match format with
  | .json =>
    match Json.skipSpace (Text.charsOf bytes) with
    | '[' :: rest =>
      match Json.readList (Json.readValue (Json.depthLimit - 1)) rest with
      | none => .error .malformed
      | some (fields, rest) => do
        let m ← decodeFrame fields
        if Json.atEnd rest then .ok m else .error .malformed
    | _ => .error .malformed
  | .messagePack =>
    match MessagePack.readFrame bytes with
    | none => .error .malformed
    | some fields => decodeFrame fields

end Message

end WampClient
