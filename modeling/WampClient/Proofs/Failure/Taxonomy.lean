import WampClient.Failure
import Mathlib.Data.List.Basic

/-! What a failure says. Its context names what was attempted, and what stands there already is not
written over. A reply that is not the one asked for makes a failure whose kind follows from the
operation and the URI of the ERROR alone, whatever else the reply brings. -/
namespace WampClient

/-! ### Contexts -/

namespace Failure

theorem context?_withContext (f : Failure) (key value : String) :
    (f.withContext key value).context? key = some value := by
  have cleared : ((f.context.filter fun e => e.1 != key).find? fun e => e.1 == key) = none := by
    simp
  simp [withContext, context?, List.find?_append, cleared]

theorem context?_withContext_of_ne (f : Failure) {key other : String} (apart : other ≠ key)
    (value : String) : (f.withContext key value).context? other = f.context? other := by
  have kept : ((f.context.filter fun e => e.1 != key).find? fun e => e.1 == other) =
      f.context.find? fun e => e.1 == other := by
    rw [List.find?_filter]
    congr 1
    funext e
    by_cases mine : e.1 = other <;> simp [mine, apart]
  simp [withContext, context?, List.find?_append, kept, Ne.symm apart]

theorem context?_orContext (f : Failure) (key value : String) :
    (f.orContext key value).context? key = some ((f.context? key).getD value) := by
  unfold orContext
  cases known : f.context? key with
  | none => exact context?_withContext f key value
  | some old => simpa using known

theorem context?_orContext_of_ne (f : Failure) {key other : String} (apart : other ≠ key)
    (value : String) : (f.orContext key value).context? other = f.context? other := by
  unfold orContext
  split
  · rfl
  · exact context?_withContext_of_ne f apart value

@[simp] theorem cause_orContext (f : Failure) (key value : String) :
    (f.orContext key value).cause = f.cause := by
  unfold orContext
  split <;> rfl

@[simp] theorem cause_during (f : Failure) (operation : Operation) (target : String) :
    (f.during operation target).cause = f.cause := by
  simp only [during, cause_orContext]

@[simp] theorem kind_during (f : Failure) (operation : Operation) (target : String) :
    (f.during operation target).kind = f.kind := by
  rw [kind, cause_during, kind]

/-- What was attempted, as a context has it. -/
def naming (operation : Operation) (target : String) : List (String × String) :=
  [("operation", operation.name), ("target", target)]

/-- A failure without a context is given one that names what was attempted and nothing else. -/
theorem during_bare {f : Failure} (bare : f.context = []) (operation : Operation)
    (target : String) : f.during operation target = { f with context := naming operation target } :=
  by
  obtain ⟨cause, reason, source, context⟩ := f
  obtain rfl : context = [] := bare
  simp [during, orContext, withContext, context?, naming]

end Failure

/-! ### Kinds -/

namespace Refusal

def violation : String := "wamp.error.protocol_violation"

def cancellations : List String := ["wamp.error.canceled", "wamp.error.timeout"]

/-- The URIs with which a router turns a request down. -/
def rejections : List String :=
  ["wamp.error.no_such_procedure", "wamp.error.procedure_already_exists",
    "wamp.error.no_such_registration", "wamp.error.no_such_subscription",
    "wamp.error.invalid_uri", "wamp.error.not_authorized", "wamp.error.authorization_failed",
    "wamp.error.no_eligible_callee", "wamp.error.option_not_allowed"]

/-- One of the fixed rejections, or that of an option that is named at the end of the URI. -/
def Rejects (text : String) : Prop :=
  text ∈ rejections ∨ disallowedOption.toList <+: text.toList

instance (text : String) : Decidable (Rejects text) :=
  inferInstanceAs (Decidable (text ∈ rejections ∨ disallowedOption.toList <+: text.toList))

variable {operation : Operation} {reason : Uri}

theorem kind_of_violation (is : reason.text = violation) :
    (ofReason operation reason).kind = .network := by
  obtain ⟨text⟩ := reason
  obtain rfl : text = violation := is
  cases operation <;> rfl

theorem kind_of_cancellation (among : reason.text ∈ cancellations) :
    (ofReason .call reason).kind = .invocationCanceled := by
  obtain ⟨text⟩ := reason
  have either : text = "wamp.error.canceled" ∨ text = "wamp.error.timeout" := by
    simpa [cancellations] using among
  rcases either with rfl | rfl <;> rfl

theorem kind_of_rejection (among : reason.text ∈ rejections) :
    (ofReason operation reason).kind = .illegalOperation := by
  obtain ⟨text⟩ := reason
  have one : ∀ text ∈ rejections, ∀ operation,
      (ofReason operation ⟨text⟩).kind = .illegalOperation := by
    simp only [rejections, List.forall_mem_cons, List.not_mem_nil, false_imp_iff, implies_true,
      and_true]
    refine ⟨?_, ?_, ?_, ?_, ?_, ?_, ?_, ?_, ?_⟩ <;> intro operation <;> cases operation <;> rfl
  exact one text among operation

/-- A URI that is none of the fixed ones is told by the way it begins. -/
theorem ofReason_of_other (lawful : reason.text ≠ violation)
    (asked : operation = .call → reason.text ∉ cancellations) (taken : reason.text ∉ rejections) :
    ofReason operation reason =
      if disallowedOption.toList <+: reason.text.toList then .optionDisallowed reason
      else if operation = .call then .byCallee reason else .byPeer reason := by
  have canceled : ¬ (operation = .call ∧ reason.text = "wamp.error.canceled") := fun is =>
    asked is.1 (by simp [cancellations, is.2])
  have late : ¬ (operation = .call ∧ reason.text = "wamp.error.timeout") := fun is =>
    asked is.1 (by simp [cancellations, is.2])
  simp only [rejections, List.mem_cons, List.not_mem_nil, or_false, not_or] at taken
  obtain ⟨h₁, h₂, h₃, h₄, h₅, h₆, h₇, h₈, h₉⟩ := taken
  simp only [ofReason, canceled, late, h₁, h₂, h₃, h₄, h₅, h₆, h₇, h₈, h₉, if_false,
    show ¬ reason.text = "wamp.error.protocol_violation" from lawful, List.isPrefixOf_iff_prefix]

theorem kind_of_rejects (rejects : Rejects reason.text)
    (asked : operation = .call → reason.text ∉ cancellations) :
    (ofReason operation reason).kind = .illegalOperation := by
  by_cases fixed : reason.text ∈ rejections
  · exact kind_of_rejection fixed
  · have begins := rejects.resolve_left fixed
    have lawful : reason.text ≠ violation := fun is => absurd (is ▸ begins) (by decide)
    rw [ofReason_of_other lawful asked fixed, if_pos begins]
    rfl

theorem kind_of_own (lawful : reason.text ≠ violation)
    (asked : operation = .call → reason.text ∉ cancellations) (own : ¬ Rejects reason.text) :
    (ofReason operation reason).kind =
      if operation = .call then .invocation else .illegalOperation := by
  obtain ⟨fixed, begins⟩ := not_or.mp own
  rw [ofReason_of_other lawful asked fixed, if_neg begins]
  split <;> rfl

/-- The kind of a refusal, by what the URI is first of all: a violation, the end of a call, one of a
call's own, or anything else. -/
theorem kind_ofReason (operation : Operation) (reason : Uri) :
    (ofReason operation reason).kind =
      if reason.text = violation then .network
      else if operation = .call ∧ reason.text ∈ cancellations then .invocationCanceled
      else if operation = .call ∧ ¬ Rejects reason.text then .invocation
      else .illegalOperation := by
  split_ifs with unlawful canceled own
  · exact kind_of_violation unlawful
  · obtain ⟨rfl, among⟩ := canceled
    exact kind_of_cancellation among
  · have asked := fun is among => canceled ⟨is, among⟩
    rw [kind_of_own unlawful asked own.2, if_pos own.1]
  · have asked := fun is among => canceled ⟨is, among⟩
    by_cases rejects : Rejects reason.text
    · exact kind_of_rejects rejects asked
    · rw [kind_of_own unlawful asked rejects, if_neg fun call => own ⟨call, rejects⟩]

theorem kind_eq_network : (ofReason operation reason).kind = .network ↔
    reason.text = violation := by
  rw [kind_ofReason]
  split_ifs <;> simp_all

theorem kind_eq_invocationCanceled : (ofReason operation reason).kind = .invocationCanceled ↔
    operation = .call ∧ reason.text ∈ cancellations := by
  have apart : violation ∉ cancellations := by decide
  rw [kind_ofReason]
  split_ifs <;> simp_all

theorem kind_eq_invocation : (ofReason operation reason).kind = .invocation ↔
    operation = .call ∧ reason.text ≠ violation ∧ reason.text ∉ cancellations ∧
      ¬ Rejects reason.text := by
  rw [kind_ofReason]
  split_ifs <;> simp_all

theorem kind_eq_illegalOperation : (ofReason operation reason).kind = .illegalOperation ↔
    reason.text ≠ violation ∧
      (operation = .call → reason.text ∉ cancellations ∧ Rejects reason.text) := by
  rw [kind_ofReason]
  split_ifs <;> simp_all

end Refusal

/-! ### Replies -/

/-- The URI of an ERROR. -/
def Message.errorReason? : Message → Option Uri
  | .error _ _ _ reason _ => some reason
  | _ => none

theorem Message.explanation?_error {requestType : UInt64} {request : Id} {details : Dictionary}
    {reason : Uri} {payload : Payload} {words : String} :
    (Message.error requestType request details reason payload).explanation? = some words ↔
      Dictionary.get? "message" details = some (.string words) ∨
        (∀ other, Dictionary.get? "message" details ≠ some (.string other)) ∧
          ∃ others, payload.arguments = .string words :: others := by
  have told : ∀ v : Value, ∀ s, v.string? = some s ↔ v = .string s := by
    rintro (_ | _ | _ | _ | _ | _ | _ | _) s <;> simp [Value.string?]
  have first : (payload.arguments.head?.bind Value.string?) = some words ↔
      ∃ others, payload.arguments = .string words :: others := by
    rcases payload.arguments with _ | ⟨v, others⟩
    · simp
    · simp [told]
  have named : ∀ s, Dictionary.text? "message" details = some s ↔
      Dictionary.get? "message" details = some (.string s) := by
    intro s
    rw [Dictionary.text?, Option.bind_eq_some_iff]
    constructor
    · rintro ⟨v, got, is⟩
      exact got.trans (congrArg some ((told v s).mp is))
    · exact fun got => ⟨_, got, rfl⟩
  show (Dictionary.text? "message" details).or
    (payload.arguments.head?.bind Value.string?) = some words ↔ _
  rw [Option.or_eq_some_iff, first, named, Option.eq_none_iff_forall_ne_some]
  simp only [ne_eq, named]

namespace Failure

/-- What is put behind a text where the peer explains itself. -/
def said : Option String → String
  | none => ""
  | some words => ": " ++ words

theorem explained_eq (description : String) (explanation : Option String) :
    Cause.explained description explanation = description ++ said explanation := by
  cases explanation with
  | none => exact (String.append_empty).symm
  | some words => exact String.append_assoc

/-- All that there is to the failure that a reply amounts to. -/
theorem ofReply_eq (operation : Operation) (target : String) (reply : Message) :
    ofReply operation target reply =
      { cause := match reply.errorReason? with
          | some reason => .refused operation target (Refusal.ofReason operation reason)
              reply.explanation?
          | none => .unexpectedReply operation target reply.name
        reason := reply.errorReason?
        source := some reply
        context := naming operation target } := by
  cases reply <;> exact during_bare rfl operation target

theorem kind_ofReply (operation : Operation) (target : String) (reply : Message) :
    (ofReply operation target reply).kind =
      match reply.errorReason? with
      | some reason => (Refusal.ofReason operation reason).kind
      | none => .network := by
  rw [ofReply_eq]
  cases reply.errorReason? <;> rfl

theorem message_ofReply (operation : Operation) (target : String) (reply : Message) :
    (ofReply operation target reply).message =
      operation.attempt target ++ (", but " ++
        match reply.errorReason? with
        | some reason => (Refusal.ofReason operation reason).describe ++ said reply.explanation?
        | none => "the peer replied with an unexpected " ++ (reply.name ++ " message")) := by
  rw [ofReply_eq]
  cases reply.errorReason? with
  | none =>
    show operation.attempt target ++ ", but the peer replied with an unexpected " ++ reply.name ++
      " message" = _
    rw [show ", but the peer replied with an unexpected " =
      ", but " ++ "the peer replied with an unexpected " from rfl]
    simp only [String.append_assoc]
  | some reason =>
    show Cause.explained (operation.attempt target ++ ", but " ++ _) _ = _
    rw [explained_eq]
    simp only [String.append_assoc]

/-- What a reply that was not asked for is taken for. The kind is read off the operation and the
URI of the ERROR; the failure keeps the whole reply and names what was attempted; and the words of
the peer, where there are any, are put behind a text that does not depend on them. -/
theorem reply_taxonomy (operation : Operation) (target : String) (reply : Message) :
    let failure := ofReply operation target reply
    (failure.kind = .network ↔
      ∀ uri, reply.errorReason? = some uri → uri.text = Refusal.violation) ∧
    (failure.kind = .invocationCanceled ↔ operation = .call ∧
      ∃ uri, reply.errorReason? = some uri ∧ uri.text ∈ Refusal.cancellations) ∧
    (failure.kind = .invocation ↔ operation = .call ∧
      ∃ uri, reply.errorReason? = some uri ∧ uri.text ≠ Refusal.violation ∧
        uri.text ∉ Refusal.cancellations ∧ ¬ Refusal.Rejects uri.text) ∧
    (failure.kind = .illegalOperation ↔
      ∃ uri, reply.errorReason? = some uri ∧ uri.text ≠ Refusal.violation ∧
        (operation = .call → uri.text ∉ Refusal.cancellations ∧ Refusal.Rejects uri.text)) ∧
    (∀ aim other, Message.errorReason? other = reply.errorReason? →
      (ofReply operation aim other).kind = failure.kind) ∧
    failure.source = some reply ∧ failure.reason = reply.errorReason? ∧
    failure.context = naming operation target ∧
    (∃ rest, failure.message = operation.attempt target ++ rest) ∧
    (∀ uri, reply.errorReason? = some uri → ∃ text,
      (∃ rest, text = operation.attempt target ++ rest) ∧
      ∀ other, Message.errorReason? other = some uri →
        ofReply operation target other = { failure with
          cause := .refused operation target (Refusal.ofReason operation uri) other.explanation?
          source := some other } ∧
        (ofReply operation target other).message = text ++ said other.explanation?) ∧
    (∀ requestType request details uri payload words,
      (Message.error requestType request details uri payload).explanation? = some words ↔
        Dictionary.get? "message" details = some (.string words) ∨
          (∀ other, Dictionary.get? "message" details ≠ some (.string other)) ∧
            ∃ others, payload.arguments = .string words :: others) := by
  refine ⟨?network, ?canceled, ?invocation, ?illegal, ?kind, ?source, ?reason, ?context, ?attempt,
    ?words, fun _ _ _ _ _ _ => Message.explanation?_error⟩
  case network =>
    rw [kind_ofReply]
    cases reply.errorReason? <;> simp [Refusal.kind_eq_network]
  case canceled =>
    rw [kind_ofReply]
    cases reply.errorReason? <;> simp [Refusal.kind_eq_invocationCanceled]
  case invocation =>
    rw [kind_ofReply]
    cases reply.errorReason? <;> simp [Refusal.kind_eq_invocation]
  case illegal =>
    rw [kind_ofReply]
    cases reply.errorReason? <;> simp [Refusal.kind_eq_illegalOperation]
  case kind =>
    intro aim other same
    rw [kind_ofReply, kind_ofReply, same]
  case source => rw [ofReply_eq]
  case reason => rw [ofReply_eq]
  case context => rw [ofReply_eq]
  case attempt => exact ⟨_, message_ofReply operation target reply⟩
  case words =>
    intro uri known
    refine ⟨operation.attempt target ++ (", but " ++ (Refusal.ofReason operation uri).describe),
      ⟨_, rfl⟩, fun other same => ⟨?_, ?_⟩⟩
    · rw [ofReply_eq, ofReply_eq, same, known]
    · rw [message_ofReply, same]
      simp only [String.append_assoc]

/-- A callee fails with a URI of its own and says why. -/
theorem reply_taxonomy_overflow :
    let reply : Message :=
      .error 48 Id.min [("message", .string "too big")] ⟨"com.math.overflow"⟩ ⟨[.null], []⟩
    reply.errorReason? = some ⟨"com.math.overflow"⟩ ∧
      (ofReply .call "com.add" reply).kind = .invocation ∧
      ∃ rest, (ofReply .call "com.add" reply).message =
        "tried to call procedure com.add" ++ rest ++ ": too big" := by
  intro reply
  obtain ⟨-, -, invocation, -, -, -, -, -, -, words, told⟩ := reply_taxonomy .call "com.add" reply
  obtain ⟨text, ⟨rest, attempted⟩, every⟩ := words ⟨"com.math.overflow"⟩ rfl
  have spoken : reply.explanation? = some "too big" := (told _ _ _ _ _ _).mpr (Or.inl rfl)
  refine ⟨rfl, invocation.mpr ⟨rfl, _, rfl, by decide, by decide, by decide⟩, rest, ?_⟩
  rw [(every reply rfl).2, attempted, spoken]
  rfl

end Failure

end WampClient
