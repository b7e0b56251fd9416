import WampClient.Proofs.Session.Watches

/-! What becomes of an INVOCATION. It is put into the box of every registration that takes it, and
it is turned away on behalf of those whose box is gone, or if there is none. Apart from that a
session says about an invocation only what it is asked to say. -/
namespace WampClient

namespace Target

/-- Invocations are put in for registrations alone. -/
theorem invocation_of_mem_posts {gone : List Box} {m : Message} {cell own : Cell} {t : Target}
    {b : Box} {i : Invocation} (put : (b, .invocation i own) ∈ t.posts gone m cell) :
    t = .feed (.invocations b) ∧ b ∉ gone ∧
      m = .invocation i.request i.registration i.details i.payload := by
  cases t with
  | call box =>
    simp only [posts] at put
    split at put <;> simp at put
  | feed f =>
    cases f with
    | invocations box =>
      cases m with
      | invocation request registration details payload =>
        simp only [posts] at put
        split at put
        · simp at put
        next here =>
          obtain ⟨rfl, same⟩ := Prod.mk.inj (List.mem_singleton.mp put)
          obtain ⟨rfl, -⟩ := Post.invocation.inj same
          exact ⟨rfl, by simpa using here, rfl⟩
      | _ => simp [posts] at put
    | events box =>
      cases m with
      | event subscription publication details payload =>
        simp only [posts] at put
        split at put <;> simp at put
      | _ => simp [posts] at put
  | _ => simp [posts] at put

theorem invocation_of_turnAway {gone : List Box} {m : Message} {cell : Cell} {t : Target} {r : Id}
    (put : .turnAway r ∈ t.errands gone m cell) :
    ∃ registration details payload, m = .invocation r registration details payload := by
  cases t with
  | feed f =>
    cases f with
    | invocations box =>
      cases m with
      | invocation request registration details payload =>
        simp only [errands] at put
        split at put
        · obtain rfl := Errand.turnAway.inj (List.mem_singleton.mp put)
          exact ⟨_, _, _, rfl⟩
        · simp at put
      | _ => simp [errands] at put
    | events box => simp [errands] at put
  | _ => simp [errands] at put

end Target

/-- The message that an input asks the session to send. -/
def Input.message? : Input → Option Message
  | .command c => c.message?
  | _ => none

namespace Session

variable {s t : Session} {m : Message} {r : Id} {input : Input} {out : List StreamItem}

/-- What was sent about the invocation with a request id, in order. -/
def answersTo (s : Session) (r : Id) : List StreamItem :=
  s.wire.sent.filter fun i => i.answers? == some r

theorem answers?_rejection (r : Id) : (Message.rejection r).answers? = some r := rfl

theorem mem_rejections {i : StreamItem} {es : List Errand} :
    i ∈ rejections es ↔ ∃ r, .turnAway r ∈ es ∧ i = .message (Message.rejection r) := by
  rw [rejections, List.mem_flatMap]
  constructor
  · rintro ⟨e, there, own⟩
    cases e with
    | turnAway r => exact ⟨r, there, List.mem_singleton.mp own⟩
    | _ => simp at own
  · rintro ⟨r, there, rfl⟩
    exact ⟨_, there, List.mem_singleton_self _⟩

/-- The session answers nothing but an INVOCATION on its own account. -/
theorem mem_replies (sound : s.Sound) {i : StreamItem} (there : i ∈ s.replies m) :
    ∃ r registration details payload, m = .invocation r registration details payload ∧
      i = .message (Message.rejection r) := by
  rcases List.mem_append.mp there with rejected | refused
  · obtain ⟨r, put, rfl⟩ := mem_rejections.mp rejected
    obtain ⟨y, -, -, cell, due⟩ := errand_origin sound put
    obtain ⟨registration, details, payload, rfl⟩ := Target.invocation_of_turnAway due
    exact ⟨r, registration, details, payload, rfl, rfl⟩
  · split at refused
    · exact absurd refused List.not_mem_nil
    · cases m with
      | invocation r registration details payload =>
        exact ⟨r, registration, details, payload, rfl, List.mem_singleton.mp refused⟩
      | _ => exact absurd refused List.not_mem_nil

/-! ### Steps that have nothing to do with an invocation -/

theorem answersTo_of_emits (emits : s.Emits t out) (r : Id) :
    ∃ done, t.answersTo r = s.answersTo r ++ done ∧
      done.Sublist (out.filter fun i => i.answers? == some r) := by
  obtain ⟨done, sent, part, -⟩ := emits.sent
  exact ⟨_, by rw [answersTo, sent, List.filter_append]; rfl, part.filter _⟩

/-- A step puts no invocation with a request id into a box, and sends about it no more than it is
asked to, unless it handles the INVOCATION. -/
theorem step_of_other (sound : s.Sound) (heeds : ∀ box, input ≠ .forget box)
    (other : ∀ registration details payload, input ≠
      .arrival (.item (.message (.invocation r registration details payload)))) :
    (s.step input).queued r = s.queued r ∧
      ∃ done, (s.step input).answersTo r = s.answersTo r ++ done ∧ done.Sublist
        ((input.message?.toList.filter fun m => m.answers? == some r).map .message) := by
  cases course_step s heeds with
  | @handed m came live same =>
    have emits := emits_distribute s m
    have foreign : ∀ registration details payload,
        m ≠ .invocation r registration details payload := by
      rintro registration details payload rfl
      exact other registration details payload came
    obtain ⟨new, posts, origin⟩ := posts_handedAround sound m
    have unqueued : new.filterMap (fun e => e.2.shows? r) = [] := by
      refine List.filterMap_eq_nil_iff.mpr fun e there => ?_
      obtain ⟨b, p⟩ := e
      cases p with
      | invocation i cell =>
        obtain ⟨y, -, -, own, put⟩ := origin _ there
        obtain ⟨-, -, rfl⟩ := Target.invocation_of_mem_posts put
        refine if_neg ?_
        rintro rfl
        exact foreign _ _ _ rfl
      | _ => rfl
    have silent : (s.replies m).filter (fun i => i.answers? == some r) = [] := by
      refine List.filter_eq_nil_iff.mpr fun i there => ?_
      obtain ⟨q, registration, details, payload, rfl, rfl⟩ := mem_replies sound there
      have apart : q ≠ r := by
        rintro rfl
        exact foreign _ _ _ rfl
      simpa [StreamItem.answers?, answers?_rejection] using apart
    obtain ⟨done, sent, part⟩ := answersTo_of_emits emits r
    rw [silent, List.sublist_nil] at part
    rw [same]
    refine ⟨?_, done, sent, part ▸ List.nil_sublist _⟩
    rw [queued_of_emits emits, queued, posts, List.filterMap_append, unqueued, List.append_nil]
    rfl
  | @sends c m asked message emits table =>
    obtain ⟨done, sent, part⟩ := answersTo_of_emits emits r
    refine ⟨queued_of_emits emits r, done, sent, ?_⟩
    have own : input.message? = some m := by rw [asked]; exact message
    rw [own]
    cases mine : m.answers? == some r <;> simpa [StreamItem.answers?, mine] using part
  | minds out emits silent table late =>
    obtain ⟨done, sent, part⟩ := answersTo_of_emits emits r
    have none' : (out.filter fun i => i.answers? == some r) = [] :=
      List.filter_eq_nil_iff.mpr fun i there => by simp [silent i there]
    rw [none', List.sublist_nil] at part
    exact ⟨queued_of_emits emits r, done, sent, part ▸ List.nil_sublist _⟩

/-! ### Steps that handle an INVOCATION -/

/-- Whoever takes INVOCATIONs for a registration is a route of registrations. -/
def Hosts (s : Session) (registration : Id) : Prop :=
  ∀ y ∈ s.router.routes, y.takes (RouteKey.ofReply .invocation registration) = true →
    (∃ b, y.handler = .feed (.invocations b)) ∧ ∀ key ∈ y.keys, key.id ≠ none

section

variable {registration : Id} {details : Dictionary} {payload : Payload}

theorem step_invocation (live : s.phase ≠ .closed) :
    s.step (.arrival (.item (.message (.invocation r registration details payload)))) =
      s.distribute (.invocation r registration details payload) := if_neg live

theorem replies_of_passes (sound : s.Sound)
    (passes : ∀ y ∈ s.router.routes,
      y.takes (RouteKey.ofReply .invocation registration) = false) :
    (s.handedAround (.invocation r registration details payload)).posts = s.posts ∧
      s.replies (.invocation r registration details payload) =
        [.message (Message.rejection r)] := by
  have around :=
    distributed_of_passes (m := .invocation r registration details payload) sound passes
  rw [handedAround, replies, around, carrying_self]
  exact ⟨rfl, rfl⟩

/-- An INVOCATION is put into a box, or turned away. -/
theorem queued_or_rejected (sound : s.Sound) (hosts : s.Hosts registration) :
    let m := Message.invocation r registration details payload
    .message (Message.rejection r) ∈ s.replies m ∨ ∃ b k cell, (s.postsTo b).length ≤ k ∧
      ((s.handedAround m).postsTo b)[k]? =
        some (.invocation ⟨r, registration, details, payload⟩ cell) := by
  intro m
  by_cases passes : ∀ y ∈ s.router.routes,
      y.takes (RouteKey.ofReply .invocation registration) = false
  · rw [(replies_of_passes sound passes).2]
    exact Or.inl (List.mem_singleton_self _)
  · obtain ⟨y, there, takes⟩ : ∃ y ∈ s.router.routes,
        y.takes (RouteKey.ofReply .invocation registration) = true := by
      simpa using passes
    have takes : y.takes (RouteKey.ofMessage m) = true := takes
    obtain ⟨⟨b, handler⟩, -⟩ := hosts y there takes
    obtain ⟨visits, trace, -⟩ := visited_handedAround sound m
    obtain ⟨v, among, rfl⟩ := trace.all y there ((mem_matching sound there).mpr takes)
    by_cases gone : b ∈ s.gone
    · have put : .turnAway r ∈ (s.distributed m).2.2.errands := by
        rw [trace.errands]
        refine List.mem_append_right _ (List.mem_flatMap.mpr ⟨v, among, ?_⟩)
        simp [handler, Target.errands, gone, m]
      exact Or.inl (List.mem_append_left _ (mem_rejections.mpr ⟨r, put, rfl⟩))
    · have put : (b, .invocation ⟨r, registration, details, payload⟩ v.2) ∈
          visits.flatMap fun v => v.1.handler.posts s.gone m v.2 := by
        refine List.mem_flatMap.mpr ⟨v, among, ?_⟩
        simp [handler, Target.posts, gone, m]
      have posts : (s.handedAround m).posts = s.posts ++ _ := congrArg (s.posts ++ ·) trace.posts
      have told : .invocation ⟨r, registration, details, payload⟩ v.2 ∈
          (visits.flatMap fun v => v.1.handler.posts s.gone m v.2).filterMap
            fun e => if e.1 = b then some e.2 else none :=
        List.mem_filterMap.mpr ⟨_, put, if_pos rfl⟩
      obtain ⟨j, lies⟩ := List.mem_iff_getElem?.mp told
      refine Or.inr ⟨b, (s.postsTo b).length + j, v.2, Nat.le_add_right _ _, ?_⟩
      rw [postsTo, posts, List.filterMap_append, postsTo,
        List.getElem?_append_right (Nat.le_add_right _ _), Nat.add_sub_cancel_left]
      exact lies

/-- An invocation is put into the box of a registration that takes it. -/
theorem host_of_queued (sound : s.Sound) (live : s.phase ≠ .closed) {b : Box} {k : Nat}
    {i : Invocation} {cell : Cell} (new : (s.postsTo b).length ≤ k)
    (lies : ((s.step (.arrival (.item (.message (.invocation r registration details
      payload))))).postsTo b)[k]? = some (.invocation i cell)) :
    i = ⟨r, registration, details, payload⟩ ∧ b ∉ s.gone ∧ ∃ y ∈ s.router.routes,
      y.takes (RouteKey.ofReply .invocation registration) = true ∧
        y.handler = .feed (.invocations b) := by
  have emits := emits_distribute s (.invocation r registration details payload)
  obtain ⟨more, around, origin⟩ :=
    posts_handedAround sound (.invocation r registration details payload)
  obtain ⟨put, posts, plain⟩ := emits.posts
  rw [step_invocation live, postsTo, posts, around, List.append_assoc,
    List.filterMap_append] at lies
  rw [postsTo] at new
  rw [List.getElem?_append_right new] at lies
  obtain ⟨e, there, same⟩ := List.mem_filterMap.mp (List.mem_of_getElem? lies)
  obtain ⟨here, own⟩ := Option.ite_none_right_eq_some.mp same
  obtain rfl : e = (b, .invocation i cell) := Prod.ext here (Option.some.inj own)
  rcases List.mem_append.mp there with mine | other
  · obtain ⟨y, among, takes, own, given⟩ := origin _ mine
    obtain ⟨handler, heard, came⟩ := Target.invocation_of_mem_posts given
    obtain ⟨rfl, rfl, rfl, rfl⟩ := Message.invocation.inj came
    exact ⟨rfl, heard, y, among, takes, handler⟩
  · exact absurd rfl ((plain _ other).uncalled i cell)

/-- Where one registration at most has the id, the INVOCATION is put into one box, or is turned away
once. -/
theorem queued_or_rejected_once (r : Id) (details : Dictionary) (payload : Payload)
    (sound : s.Sound) (hosts : s.Hosts registration)
    (once : ∀ y ∈ s.router.routes, ∀ z ∈ s.router.routes,
      y.takes (RouteKey.ofReply .invocation registration) = true →
        z.takes (RouteKey.ofReply .invocation registration) = true → y.handle = z.handle) :
    let m := Message.invocation r registration details payload
    (∃ b cell, (s.handedAround m).posts =
        s.posts ++ [(b, .invocation ⟨r, registration, details, payload⟩ cell)] ∧
          s.replies m = []) ∨
      (s.handedAround m).posts = s.posts ∧ s.replies m = [.message (Message.rejection r)] := by
  intro m
  by_cases passes : ∀ y ∈ s.router.routes,
      y.takes (RouteKey.ofReply .invocation registration) = false
  · exact Or.inr (replies_of_passes sound passes)
  · obtain ⟨y, there, takes⟩ : ∃ y ∈ s.router.routes,
        y.takes (RouteKey.ofReply .invocation registration) = true := by
      simpa using passes
    have takes : y.takes (RouteKey.ofMessage m) = true := takes
    obtain ⟨⟨b, handler⟩, ided⟩ := hosts y there takes
    obtain ⟨visits, trace, taken⟩ := visited_handedAround sound m
    -- the one route that takes the message is visited, once
    have same : ∀ v ∈ visits, v.1 = y := fun v among =>
      Router.eq_of_handle_eq sound.tidy.ordered (trace.there v among) there
        (once _ (trace.there v among) _ there (taken v among) takes)
    have single : visits.length ≤ 1 := by
      have most := Router.count_matching_le sound.tidy (h := y.handle) (fun z hz own => by
        rw [Router.eq_of_handle_eq sound.tidy.ordered hz there own]
        exact ided) (RouteKey.ofMessage m)
      have all : (visits.map fun v => v.1.handle).count y.handle = visits.length := by
        rw [List.count_eq_length.mpr, List.length_map]
        intro h among
        obtain ⟨v, own, rfl⟩ := List.mem_map.mp among
        rw [same v own]
      have less := trace.called.count_le y.handle
      omega
    obtain ⟨v, among, own⟩ := trace.all y there ((mem_matching sound there).mpr takes)
    obtain rfl : visits = [v] := by
      cases visits with
      | nil => exact absurd among List.not_mem_nil
      | cons w rest =>
        obtain rfl : rest = [] := List.eq_nil_of_length_eq_zero (by simpa using single)
        rw [List.mem_singleton.mp among]
    have posts : (s.handedAround m).posts = s.posts ++ y.handler.posts s.gone m v.2 := by
      refine (congrArg (s.posts ++ ·) trace.posts).trans ?_
      simp [own]
    have replies : s.replies m = rejections (y.handler.errands s.gone m v.2) := by
      rw [Session.replies, matched_of_takes sound there takes, trace.errands]
      simp [own]
    rw [posts, replies, handler]
    by_cases gone : b ∈ s.gone
    · exact Or.inr ⟨by simp [Target.posts, gone, m], by simp [Target.errands, rejections, gone, m]⟩
    · exact Or.inl ⟨b, v.2, by simp [Target.posts, gone, m],
        by simp [Target.errands, rejections, gone, m]⟩

end

end Session

end WampClient
