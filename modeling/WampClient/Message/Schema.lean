import WampClient.Message.Decode

/-! A message's fields checked against the table of its type, one after the other, without
building the message. -/
namespace WampClient

namespace FieldKind

/-- Whether a value can stand in a field of the kind. -/
def accepts : FieldKind → Value → Bool
  | .id, v => v.integer?.any fun n => 1 ≤ n.toNat && n.toNat ≤ Id.max.value
  | .integer, v => v.integer?.isSome
  | .uri, v => v.string?.any Uri.isValidText
  | .pattern, v => v.string?.any UriPattern.isValidText
  | .text, v => v.string?.isSome
  | .dictionary, v => v.dictionary?.isSome
  | .list, v => v.list?.isSome

end FieldKind

/-- The first field, in the order of the table, that is absent though required or holds a value
of another kind. -/
def firstFault : List Field → List Value → Option FieldFault
  | [], _ => none
  | f :: fs, [] => if f.required then some (.missing f.name) else firstFault fs []
  | f :: fs, v :: vs => if f.kind.accepts v then firstFault fs vs else some (.invalid f.name)

/-- What is wrong with the list form of a message, if anything is. -/
def messageFault : List Value → Option InvalidMessage
  | [] => some .empty
  | first :: rest =>
    match first.integer? with
    | none => some .invalidType
    | some code =>
      (MessageType.ofCode? code).bind fun type =>
        (firstFault type.fields rest).map (InvalidMessage.badField type)

end WampClient
