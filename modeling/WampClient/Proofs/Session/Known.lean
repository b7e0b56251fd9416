import WampClient.Proofs.Session.Requests

/-! Which routes a step makes known, and to whom: a route is known only once it is installed, and
the route of a request is known first to the one who asked. Boxes that are gone stay gone. -/
namespace WampClient.Session

variable {input : Input} {w w' : Work} {s : Session} {box : Box} {p : Post} {route : Handle}

theorem Part.gone_of_mem (part : Part input w w') (there : box ∈ w.session.gone) :
    box ∈ w'.session.gone := by
  cases part with
  | quiet alike => rwa [alike.gone]
  | forgotten asked => exact List.mem_cons_of_mem _ there
  | @watched s es request cell =>
    rcases watch_eq s request cell with watched | ⟨previous, -, watched⟩
    · rwa [watched]
    · rwa [watched]
  | terminated live kind => rwa [terminate_eq live]
  | _ => simpa using there

theorem gone_of_mem_step (sound : s.Sound) (input : Input) (there : box ∈ s.gone) :
    box ∈ (s.step input).gone := by
  have before : box ∈ (s.prepared input).gone := by
    rcases prepared_cases s input with same | ⟨m, keys, target, answer, -, -, added⟩
    · rwa [same]
    · rwa [added]
  have all : ∀ w, Parts input ⟨s.prepared input, []⟩ w → box ∈ w.session.gone := by
    intro w parts
    induction parts with
    | refl => exact before
    | tail _ part ih => exact part.gone_of_mem ih
  exact all _ (parts_step sound.tidy input)

/-! ### Routes that are made known -/

theorem route?_of_mem_lastPosts {f : Failure} (there : (box, p) ∈ s.lastPosts f) :
    p.route? = none := by
  rcases mem_lastPosts there with rfl | ⟨x, -, told⟩
  · rfl
  · rcases h : x.handler with ⟨_ | own, change⟩ | own | feed | cell <;>
      simp_all [Target.lastPosts, Post.route?]

theorem Parts.route_known (parts : Parts input w w')
    (other : ∀ m keys target answer, input ≠ .command (.request m keys target answer))
    (there : (box, p) ∈ w'.session.posts) (known : p.route? = some route) :
    (box, p) ∈ w.session.posts ∨
      w.session.router.lastHandle < route ∧ route ≤ w'.session.router.lastHandle := by
  induction parts with
  | refl => exact Or.inl there
  | tail before part ih =>
    rcases part.post_origin there with old | ⟨-, ⟨-, plain⟩ | ⟨m, keys, target, asked, -⟩ |
      ⟨x, -, -, m, -, rfl⟩ | ⟨m, change, -, route', rfl, -, new⟩ | ⟨f, -, told⟩⟩
    · exact (ih old).imp_right fun ⟨low, high⟩ => ⟨low, Nat.le_trans high part.lastHandle_le⟩
    · simp [plain] at known
    · exact absurd asked (other m keys target _)
    · exact nomatch known
    · obtain ⟨same, last⟩ := new route known
      rw [last, same]
      exact Or.inr ⟨Nat.lt_succ_of_le (Parts.lastHandle_le before), Nat.le_refl _⟩
    · simp [route?_of_mem_lastPosts told] at known

theorem lastHandle_terminate (s : Session) (f : Failure) :
    (s.terminate f).router.lastHandle = s.router.lastHandle := by
  by_cases closed : s.phase = .closed
  · rw [terminate_closed closed]
  · rw [terminate_eq closed]
    rfl

theorem lastHandle_sendOrTerminate (s : Session) (m : Message) :
    (s.sendOrTerminate m).1.router.lastHandle = s.router.lastHandle := by
  have sent := lastHandle_retiring s m
  rcases sendOrTerminate_left s m with left | ⟨description, left⟩
  · rwa [left]
  · rw [left]
    exact (lastHandle_terminate _ _).trans sent

/-- Sending a message makes no route known. -/
theorem mem_posts_of_sendOrTerminate {m : Message} {t : Session} {result : Except Failure Unit}
    (sent : s.sendOrTerminate m = (t, result)) (there : (box, p) ∈ t.posts)
    (known : p.route? = some route) : (box, p) ∈ s.posts := by
  obtain rfl : (s.sendOrTerminate m).1 = t := by rw [sent]
  have parts : Parts .orphaned ⟨s, []⟩ ⟨(s.sendOrTerminate m).1, []⟩ := parts_sendOrTerminate m
  rcases parts.route_known (fun _ _ _ _ same => nomatch same) there known with old | ⟨low, high⟩
  · exact old
  · rw [lastHandle_sendOrTerminate] at high
    exact absurd low (Nat.not_lt_of_le high)

theorem mem_posts_of_refused {answer : Option Box} {f : Failure}
    (there : (box, p) ∈ (s.answer answer (.accepted (.error f))).posts)
    (known : p.route? = some route) : (box, p) ∈ s.posts := by
  rcases mem_posts_answer.mp there with old | ⟨-, same, -⟩
  · exact old
  · obtain rfl : _ = p := same
    exact nomatch known

/-- A request makes known the one route that it installs. -/
theorem route_known_request {m : Message} {keys : List RouteKey} {target : Target}
    {answer : Option Box}
    (there : (box, p) ∈ (s.step (.command (.request m keys target answer))).posts)
    (known : p.route? = some route) :
    (box, p) ∈ s.posts ∨ s.phase = .established ∧ answer = some box ∧
      p = .accepted (.ok (s.router.lastHandle + 1)) := by
  by_cases closed : s.phase = .closed
  · rw [step, if_pos closed] at there
    exact Or.inl there
  have obeyed : (box, p) ∈ (s.obey (.request m keys target answer)).posts := by
    rwa [step, if_neg closed] at there
  by_cases live : s.phase = .established
  · rw [obey_request live] at obeyed
    split at obeyed
    next t sent =>
      rcases mem_posts_answer.mp obeyed with old | ⟨asked, same, -⟩
      · have before := mem_posts_of_sendOrTerminate sent old known
        exact Or.inl before
      · exact Or.inr ⟨live, asked, same.symm⟩
    next t f failed =>
      have old := mem_posts_of_refused obeyed known
      have before := mem_posts_of_sendOrTerminate failed old known
      exact Or.inl before
  · rw [obey_request_late live] at obeyed
    exact Or.inl (mem_posts_of_refused obeyed known)

/-- Every route is made known by the step that installs it. -/
theorem route_known_step (sound : s.Sound) (there : (box, p) ∈ (s.step input).posts)
    (known : p.route? = some route) :
    (box, p) ∈ s.posts ∨
      s.router.lastHandle < route ∧ route ≤ (s.step input).router.lastHandle := by
  by_cases asks : ∃ m keys target answer, input = .command (.request m keys target answer)
  · obtain ⟨m, keys, target, answer, rfl⟩ := asks
    rcases route_known_request there known with old | ⟨live, -, rfl⟩
    · exact Or.inl old
    · have given := Parts.lastHandle_le
        (parts_step sound.tidy (.command (.request m keys target answer)))
      rw [prepared_request live] at given
      rw [← Option.some.inj known]
      exact Or.inr ⟨Nat.lt_succ_self _, given⟩
  · have other : ∀ m keys target answer, input ≠ .command (.request m keys target answer) :=
      fun m keys target answer same => asks ⟨m, keys, target, answer, same⟩
    rcases (parts_step sound.tidy input).route_known other there known with old | ⟨low, high⟩
    · rcases prepared_cases s input with same | ⟨m, keys, target, answer, same, -⟩
      · rw [same] at old
        exact Or.inl old
      · exact absurd same (other m keys target answer)
    · exact Or.inr ⟨Nat.lt_of_le_of_lt (lastHandle_prepared s input) low, high⟩

end WampClient.Session
