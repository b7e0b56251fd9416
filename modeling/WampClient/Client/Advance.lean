import WampClient.Client.Basic

/-! How operations that wait go on once there is something in their boxes. -/
namespace WampClient.Client

def ofResult : Except Failure CallResult → Outcome
  | .ok r => .result r
  | .error f => .failed f

/-- The end of a call whose last result was taken. -/
def settleCall (c : Client) (t : CallTicket) (result : Except Failure CallResult) :
    Client × Outcome :=
  (c.release (.call { t with settled := true }), ofResult result)

/-- What came of a request to the router to end a registration or subscription. Nothing is left to
end when the session is closed. -/
def judgeDeparture (c : Client) (t : FeedTicket) :
    Except Failure (Message × Option Handle) → Outcome
  | .ok (m, _) =>
    if t.kind.departed m then .done
    else .failed (Failure.ofReply t.kind.leaving t.pattern.text m)
  | .error f =>
    if f.kind = .network ∧ c.session.phase = .closed then .done
    else .failed (f.during t.kind.leaving t.pattern.text)

/-- The ticket of a registration or subscription, or what the router says against it. -/
def judgeEnrolment (kind : FeedKind) (pattern : UriPattern) (box : Box) :
    Except Failure (Message × Option Handle) → Except Failure FeedTicket
  | .ok (m, some route) =>
    match kind.enrolled? m with
    | some id => .ok (FeedTicket.opened kind id pattern route box)
    | none => .error (Failure.ofReply kind.entering pattern.text m)
  | .ok (m, none) => .error (Failure.ofReply kind.entering pattern.text m)
  | .error f => .error (f.during kind.entering pattern.text)

def judgePublication (topic : Uri) : Except Failure (Message × Option Handle) → Outcome
  | .ok (.published _ publication, _) => .published (some publication)
  | .ok (m, _) => .failed (Failure.ofReply .publish topic.text m)
  | .error f => .failed (f.during .publish topic.text)

/-- Takes an invocation or event out of its box. -/
def takeItem (c : Client) (name : String) (t : FeedTicket) (keep : Option String) :
    Option Post → Client × Outcome
  | some (.invocation i cell) =>
    let ticket : InvocationTicket := ⟨i, t.pattern, cell, false⟩
    let c := c.keep name (.feed { t with read := t.read + 1 })
    (match keep with
      | some other => c.keep other (.invocation ticket)
      | none => c.release (.invocation ticket),
     .ticket (.invocation ticket) (c.session.signal? cell))
  | some (.event e) => (c.keep name (.feed { t with read := t.read + 1 }), .event (t.event e))
  | _ => (c.keep name (.feed t), .exhausted)

/-- Lets an operation go on if what it waits for has come: it either waits for something else then,
or has come to an end. -/
def advance (c : Client) : Waiting → Option (Client × (Waiting ⊕ Outcome))
  | .call request procedure accepted box keep =>
    (c.wasAccepted accepted).map fun
      | .error f => (c.forget box, .inr (.failed (f.during .call procedure.text)))
      | .ok route =>
        let t := CallTicket.opened request procedure route box
        match keep with
        | some name => (c.keep name (.call t), .inr (.ticket (.call t) none))
        | none => (c, .inl (.lastOutcome t))
  | .lastOutcome t =>
    let ended (result : Except Failure CallResult) : Client × (Waiting ⊕ Outcome) :=
      let (c, outcome) := c.settleCall t result
      (c, .inr outcome)
    if t.settled then some (ended (.error (t.failed (Failure.of .callSettled))))
    else match t.lastAmong ((c.session.postsTo t.box).drop t.read) with
      | some result => some (ended result)
      | none =>
        if c.feeds t.box then none else some (ended (.error (t.failed Failure.sessionClosed)))
  | .nextOutcome name t stream =>
    if t.settled then
      some (if stream then c.release (.results t) else c.keep name (.call t), .inr .exhausted)
    else (c.cameBack t).map fun came =>
      let (t, result) := t.take came
      (c.keep name (if stream then .results t else .call t), .inr (ofResult result))
  | .enrolment kind name pattern accepted reply box =>
    (c.replied accepted reply).map fun answer =>
      match judgeEnrolment kind pattern box answer with
      | .ok t => (c.keep name (.feed t), .inr (.ticket (.feed t) none))
      | .error f => (c.forget box, .inr (.failed f))
  | .publication topic accepted reply =>
    (c.replied accepted reply).map fun answer => (c, .inr (judgePublication topic answer))
  | .sent box operation target back outcome =>
    (c.wasSent box).map fun result =>
      (back.elim c fun e => c.keep e.1 e.2,
       .inr (match result with
         | .ok () => outcome
         | .error f => .failed (f.during operation target)))
  | .departure name t accepted reply =>
    (c.replied accepted reply).map fun answer =>
      ((c.issue (.removeRoute t.route)).keep name (.feed t), .inr (c.judgeDeparture t answer))
  | .nextItem name t keep =>
    (c.postAt t.box t.read).map fun p =>
      let (c, outcome) := c.takeItem name t keep p
      (c, .inr outcome)
  | .leave box => (c.postAt box 0).map fun _ => (c, .inr .done)
  | .ending => if c.session.phase = .closed then some (c, .inr .closed) else none
  | .cancellation name t =>
    match c.session.signal? t.cell with
    | some mode => some (c.keep name (.invocation t), .inr (.canceled (some mode)))
    | none =>
      if c.session.listens t.cell then none
      else some (c.keep name (.invocation t), .inr (.canceled none))

/-- Lets the operation of a given number go on. -/
def poll (c : Client) (number : Nat) : Client :=
  match c.tasks.find? fun t => t.number == number with
  | none => c
  | some task =>
    match c.advance task.waiting with
    | none => c
    | some (c, .inl waiting) =>
      { c with tasks := c.tasks.map fun t => if t.number = number then { t with waiting } else t }
    | some (c, .inr outcome) =>
      { c with tasks := c.tasks.filter fun t => t.number ≠ number }.conclude number outcome

end WampClient.Client
