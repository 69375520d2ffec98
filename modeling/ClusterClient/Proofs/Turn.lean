import ClusterClient.Execution.Basic

/-!
# What a fiber does in one turn

As long as no fiber has claimed the result, a turn of a fiber has one of a few shapes. `Fiber.Seeks`
lists how a fiber takes nodes from the plan, `Fiber.Obeys` how it goes on after a decision of its
retry session, and `Fiber.Takes` how it goes on after an event. `Fiber.seek_seeks`,
`Fiber.react_takes` and `Fiber.expire_takes` say that the functions do nothing else, so a proof
about turns is an induction on these relations and never opens the functions.
-/

namespace ClusterClient

variable {ω : Type}

@[simp] theorem Turn.after_fiber (acts : List Act) (t : Turn ω) : (t.after acts).fiber = t.fiber :=
  rfl

@[simp] theorem Turn.after_shared (acts : List Act) (t : Turn ω) :
    (t.after acts).shared = t.shared := rfl

@[simp] theorem Turn.after_world (acts : List Act) (t : Turn ω) : (t.after acts).world = t.world :=
  rfl

@[simp] theorem Turn.after_acts (acts : List Act) (t : Turn ω) :
    (t.after acts).acts = acts ++ t.acts := rfl

theorem Turn.after_after (acts more : List Act) (t : Turn ω) :
    (t.after more).after acts = t.after (acts ++ more) := by
  simp [Turn.after]

/-- A failure is noted behind the others as long as no result is claimed. -/
theorem Shared.record_open {s : Shared} (hs : s.completed = false) (node : Address)
    (error : AttemptError) :
    s.record node error = { s with errors := s.errors ++ [(node, error)] } := by
  simp [Shared.record, hs]

/-- A response carries a refusal exactly if that is its body. -/
theorem Response.answer_refused {r : Response} {e : ServerError} {reason : String} :
    r.answer = .error (.refused e reason) ↔ r.body = .error e reason := by
  unfold answer
  cases r.body <;> simp

/-- A response carries a result exactly if that is its body. -/
theorem Response.answer_ok {r : Response} {answer : Answer} :
    r.answer = .ok answer ↔ r.body = .result answer.body ∧ r.extras = answer.extras := by
  obtain ⟨body, extras⟩ := answer
  unfold Response.answer
  cases r.body <;> simp

namespace Attempt

variable {a b : Attempt} {signal : Signal}

/-- An attempt ends as it stood. -/
theorem react_ends {result : Except AttemptError Answer} (h : a.react signal = .ends b result) :
    b = a := by
  cases signal with
  | acknowledged => cases h
  | writeFailed cause => cases h; rfl
  | delivered d =>
    cases d with
    | error cause => cases h; rfl
    | ok r =>
      simp only [react, receive, afterFirst, afterReprepare] at h
      grind

/-- An attempt that goes on waiting was acknowledged its request. -/
theorem react_waits (h : a.react signal = .waits b) :
    signal = .acknowledged ∧
      b = { a with acknowledged := true, written := a.written || a.stage ≠ .reprepare } := by
  cases signal with
  | acknowledged => cases h; exact ⟨rfl, rfl⟩
  | writeFailed cause => cases h
  | delivered d =>
    cases d with
    | error cause => cases h
    | ok r =>
      simp only [react, receive, afterFirst, afterReprepare] at h
      grind

/-- An attempt writes another request in two cases: the node does not know the statement, or it
prepared it again under the same identifier. -/
theorem react_sends (h : a.react signal = .sends b) :
    ∃ (r : Response) (id : Bytes), signal = .delivered (.ok r) ∧ a.call.preparedId? = some id ∧
      ((a.stage = .first ∧ (∃ known reason, r.body = .error (.unprepared known) reason) ∧
          b = { a with stage := .reprepare, acknowledged := false, written := false }) ∨
        (a.stage = .reprepare ∧ r.body = .result (.prepared id) ∧
          b = { a with stage := .repeated, acknowledged := false })) := by
  cases signal with
  | acknowledged | writeFailed cause => cases h
  | delivered d =>
    cases d with
    | error cause => cases h
    | ok r =>
      refine ⟨r, ?_⟩
      simp only [react, receive, afterFirst, afterReprepare] at h
      split at h
      · split at h
        · next id known reason hid hr =>
          cases h
          exact ⟨id, rfl, hid, .inl ⟨‹_›, ⟨known, reason, Response.answer_refused.1 hr⟩, rfl⟩⟩
        · cases h
      · split at h
        · cases h
        · next answer hr =>
          split at h
          · next id got hid hb =>
            split at h
            · next heq =>
              cases h
              subst heq
              refine ⟨got, rfl, hid, .inr ⟨‹_›, ?_, rfl⟩⟩
              rw [(Response.answer_ok.1 hr).1, hb]
            · cases h
          · cases h
      · cases h

/-- An attempt succeeds with the response that was delivered. -/
theorem react_succeeds {answer : Answer} (h : a.react signal = .ends b (.ok answer)) :
    ∃ r : Response, signal = .delivered (.ok r) ∧ r.answer = .ok answer := by
  cases signal with
  | acknowledged | writeFailed cause => cases h
  | delivered d =>
    cases d with
    | error cause => cases h
    | ok r =>
      refine ⟨r, rfl, ?_⟩
      simp only [react, receive, afterFirst, afterReprepare] at h
      grind

/-- An attempt fails as what came back says; the response to a preparation may be no failure by
itself. -/
theorem react_fails {error : AttemptError} (h : a.react signal = .ends b (.error error)) :
    (∃ cause, signal = .writeFailed cause ∧ error = .writeFailed cause) ∨
      (∃ cause, signal = .delivered (.error cause) ∧ error = .connectionBroken cause) ∨
        ∃ r : Response, signal = .delivered (.ok r) ∧
          (a.stage ≠ .reprepare → r.answer = .error error) := by
  cases signal with
  | acknowledged => cases h
  | writeFailed cause => cases h; exact .inl ⟨cause, rfl, rfl⟩
  | delivered d =>
    cases d with
    | error cause => cases h; exact .inr (.inl ⟨cause, rfl, rfl⟩)
    | ok r =>
      refine .inr (.inr ⟨r, rfl, fun hs => ?_⟩)
      simp only [react, receive, afterFirst, afterReprepare] at h
      grind

end Attempt

namespace Fiber

/-- The fiber after its retry session asked for another attempt. -/
def retrying (f : Fiber) (consistency : Option Consistency) : Fiber :=
  { f with
    consistency := consistency.getD f.consistency
    retries := f.retries + 1 }

/-- The fiber after its retry session was told of a failure. -/
def telling (f : Fiber) (r : Report) : Fiber :=
  { f with session := f.session.heard r }

/-- How a fiber takes nodes from the plan while no result is claimed. -/
inductive Seeks (env : Environment ω) (settings : Settings) (now : Nat) :
    Fiber → Shared → ω → Turn ω → Prop
  /-- The plan has no further node. -/
  | exhausted {f : Fiber} {s : Shared} {w : ω} {d : Draw ω} :
      s.plan.next env.chooser w = d → d.node = none →
      Seeks env settings now f s w
        ⟨{ f with phase := .ended f.exhausted }, { s with plan := d.plan }, d.world,
          d.asked.map .consulted⟩
  /-- The node gives a connection, and an attempt begins. -/
  | begins {f : Fiber} {s : Shared} {w w' : ω} {d : Draw ω} {node : Node}
      {connection : Connection} :
      s.plan.next env.chooser w = d → d.node = some node →
      env.connect node d.world = (.ok connection, w') →
      Seeks env settings now f s w
        ((f.begin settings now node connection { s with plan := d.plan } w').after
          (d.asked.map .consulted ++ [.took f.index node]))
  /-- The node gives no connection, and the fiber goes on to another. -/
  | refused {f : Fiber} {s : Shared} {w w' : ω} {d : Draw ω} {node : Node} {cause : BrokenCause}
      {t : Turn ω} :
      s.plan.next env.chooser w = d → d.node = some node →
      env.connect node d.world = (.error cause, w') →
      Seeks env settings now { f with lastError := some (.poolBroken cause) }
        { s with plan := d.plan, errors := s.errors ++ [(node.address, .poolBroken cause)] } w' t →
      Seeks env settings now f s w
        (t.after (d.asked.map .consulted ++ [.took f.index node, .poolFailed f.index node cause]))

/-- How a fiber goes on as its retry session decided, while no result is claimed. -/
inductive Obeys (env : Environment ω) (settings : Settings) (now : Nat) (f : Fiber) (c : Current)
    (error : AttemptError) (s : Shared) (w : ω) : Decision → Turn ω → Prop
  | stop :
      Obeys env settings now f c error s w .stop
        ⟨{ f with phase := .ended (.failed (.gaveUp error)) }, s, w, []⟩
  | ignore :
      Obeys env settings now f c error s w .ignore
        ⟨{ f with
            phase := .ended (.succeeded ⟨.void, c.node, c.attempt.connection.address, f.index⟩) },
          { s with completed := true }, w, [.claimed c.number f.index]⟩
  /-- The same node gives a connection again. -/
  | again {consistency : Option Consistency} {connection : Connection} {w' : ω} :
      env.connect c.node w = (.ok connection, w') →
      Obeys env settings now f c error s w (.sameNode consistency)
        ((f.retrying consistency).begin settings now c.node connection s w')
  /-- The same node gives no connection any more, and the fiber goes on to another. -/
  | onward {consistency : Option Consistency} {cause : BrokenCause} {w' : ω} {t : Turn ω} :
      env.connect c.node w = (.error cause, w') →
      Seeks env settings now { f.retrying consistency with lastError := some (.poolBroken cause) }
        { s with errors := s.errors ++ [(c.node.address, .poolBroken cause)] } w' t →
      Obeys env settings now f c error s w (.sameNode consistency)
        (t.after [.poolFailed f.index c.node cause])
  | next {consistency : Option Consistency} {t : Turn ω} :
      Seeks env settings now { f.retrying consistency with lastError := some error } s w t →
      Obeys env settings now f c error s w (.nextNode consistency) t

/-- How an attempt fails: the fiber hears of it, or the attempt's time is up. The acts are those
before the failure is made known. -/
inductive Falters (settings : Settings) (c : Current) : AttemptError → List Act → Prop
  | heard {signal : Signal} {error : AttemptError} :
      c.attempt.expects signal = true → c.attempt.react signal = .ends c.attempt (.error error) →
      Falters settings c error [.heard c.number c.attempt.stage signal]
  | timedOut {limit : Nat} :
      settings.timeout = some limit → Falters settings c (.timedOut (.ofMillis limit)) []

/-- The turns a fiber that waits for an attempt can take, while no result is claimed. -/
inductive Takes (env : Environment ω) (settings : Settings) (now : Nat) (f : Fiber) (c : Current)
    (s : Shared) (w : ω) : Turn ω → Prop
  | waits {signal : Signal} {a : Attempt} :
      c.attempt.expects signal = true → c.attempt.react signal = .waits a →
      Takes env settings now f c s w
        ⟨{ f with phase := .attempting { c with attempt := a } }, s, w,
          [.heard c.number c.attempt.stage signal]⟩
  | sends {signal : Signal} {a : Attempt} :
      c.attempt.expects signal = true → c.attempt.react signal = .sends a →
      Takes env settings now f c s w
        ⟨{ f with phase := .attempting { c with attempt := a } }, s, w,
          [.heard c.number c.attempt.stage signal, .issued c.number a.stage a.connection a.request]⟩
  | succeeds {signal : Signal} {answer : Answer} :
      c.attempt.expects signal = true → c.attempt.react signal = .ends c.attempt (.ok answer) →
      Takes env settings now f c s w
        ⟨{ f with
            phase := .ended (.succeeded ⟨answer, c.node, c.attempt.connection.address, f.index⟩) },
          { s with completed := true }, env.notify (.succeeded (now - c.since) c.node) w,
          [.heard c.number c.attempt.stage signal, .succeeded c.number f.index c.node,
            .claimed c.number f.index]⟩
  | fails {error : AttemptError} {acts : List Act} {decision : Decision} {t : Turn ω} :
      Falters settings c error acts →
      f.session.rule.decide
        (env.lore f.index (env.notify (.failed (now - c.since) c.node error) w)) f.session.told
        (f.reportOn settings c error) = decision →
      Obeys env settings now (f.telling (f.reportOn settings c error)) c error
        { s with errors := s.errors ++ [(c.node.address, error)] }
        (env.consult f.index (.reported (f.reportOn settings c error))
          (env.notify (.failed (now - c.since) c.node error) w)) decision t →
      Takes env settings now f c s w
        (t.after (acts ++ [.failed c.number f.index c.node error,
          .reported f.index (f.reportOn settings c error) decision]))

variable {env : Environment ω} {settings : Settings} {now : Nat} {f : Fiber} {c : Current}
  {s : Shared} {w : ω}

theorem visit_ok {node : Node} {connection : Connection} {w' : ω} (hs : s.completed = false)
    (hc : env.connect node w = (.ok connection, w')) :
    f.visit env settings now node s w = ⟨false, f.begin settings now node connection s w'⟩ := by
  simp [visit, hs, hc]

theorem visit_error {node : Node} {cause : BrokenCause} {w' : ω} (hs : s.completed = false)
    (hc : env.connect node w = (.error cause, w')) :
    f.visit env settings now node s w =
      ⟨true, ⟨{ f with lastError := some (.poolBroken cause) },
        { s with errors := s.errors ++ [(node.address, .poolBroken cause)] }, w',
        [.poolFailed f.index node cause]⟩⟩ := by
  simp [visit, hs, hc, Shared.record_open hs]

/-- A plan that has no further node ends the fiber. -/
theorem seek_none (h : (s.plan.next env.chooser w).node = none) :
    f.seek env settings now s w =
      ⟨{ f with phase := .ended f.exhausted }, { s with plan := (s.plan.next env.chooser w).plan },
        (s.plan.next env.chooser w).world, (s.plan.next env.chooser w).asked.map .consulted⟩ := by
  rw [seek]
  split
  · rfl
  · next hsome =>
    rw [h] at hsome
    cases hsome

/-- A node of the plan is visited, and if it refuses the fiber goes on. -/
theorem seek_some {node : Node} {v : Visit ω} (h : (s.plan.next env.chooser w).node = some node)
    (hv : f.visit env settings now node { s with plan := (s.plan.next env.chooser w).plan }
      (s.plan.next env.chooser w).world = v) :
    f.seek env settings now s w =
      (if v.refused then
        (v.turn.fiber.seek env settings now v.turn.shared v.turn.world).after v.turn.acts
      else v.turn).after
        ((s.plan.next env.chooser w).asked.map .consulted ++ [.took f.index node]) := by
  rw [seek]
  split
  · next hnone =>
    rw [h] at hnone
    cases hnone
  · next node' hsome =>
    obtain rfl := Option.some.inj (hsome.symm.trans h)
    rw [hv]

/-- Taking nodes does nothing but what `Seeks` lists. -/
theorem seek_seeks (hs : s.completed = false) :
    Seeks env settings now f s w (f.seek env settings now s w) := by
  fun_induction seek env settings now f s w with
  | case1 f s w draw asked h => exact .exhausted rfl h
  | case2 f s w draw asked node h closer v turn ih =>
    rcases hc : env.connect node draw.world with ⟨cause | connection, w'⟩
    · have hv : v = ⟨true, ⟨{ f with lastError := some (.poolBroken cause) },
          { s with plan := draw.plan, errors := s.errors ++ [(node.address, .poolBroken cause)] },
          w', [.poolFailed f.index node cause]⟩⟩ := visit_error hs hc
      have ht : turn = (v.turn.fiber.seek env settings now v.turn.shared v.turn.world).after
          v.turn.acts := by simp [turn, hv]
      rw [ht, Turn.after_after]
      rw [hv] at ih ⊢
      have := Seeks.refused rfl h hc (ih hs)
      simpa [asked, draw] using this
    · have hv : v = ⟨false, f.begin settings now node connection { s with plan := draw.plan } w'⟩ :=
        visit_ok hs hc
      have ht : turn = v.turn := by simp [turn, hv]
      rw [ht, hv]
      exact .begins rfl h hc

/-- A fiber asks a node for a connection and, if there is none, goes on to the others. -/
theorem obey_obeys (error : AttemptError) (decision : Decision) (hs : s.completed = false) :
    Obeys env settings now f c error s w decision
      (f.obey env settings now c error s w decision) := by
  cases decision with
  | sameNode consistency =>
    rcases hc : env.connect c.node w with ⟨cause | connection, w'⟩
    · simp only [obey, visit_error hs hc]
      exact .onward hc (seek_seeks hs)
    · simp only [obey, visit_ok hs hc]
      exact .again hc
  | nextNode consistency => exact .next (seek_seeks hs)
  | stop => exact .stop
  | ignore =>
    simp only [obey, complete, hs]
    exact .ignore

theorem fail_takes {error : AttemptError} {acts : List Act} (hs : s.completed = false)
    (h : Falters settings c error acts) :
    Takes env settings now f c s w ((f.fail env settings now c error s w).after acts) := by
  have ht : Takes env settings now f c s w _ := .fails h rfl (obey_obeys error _ hs)
  simpa [fail, telling, RetrySession.answer, Shared.record_open hs, Turn.after_after] using ht

/-- Going on after a signal does nothing but what `Takes` lists. -/
theorem react_takes {signal : Signal} (hs : s.completed = false)
    (he : c.attempt.expects signal = true) :
    Takes env settings now f c s w (f.react env settings now c signal s w) := by
  unfold react
  split
  · exact .waits he ‹_›
  · exact .sends he ‹_›
  · next a answer hr =>
    obtain rfl := Attempt.react_ends hr
    simpa [succeed, complete, hs, Turn.after] using Takes.succeeds he hr
  · next a error hr =>
    obtain rfl := Attempt.react_ends hr
    exact fail_takes hs (.heard he hr)

/-- Going on after an attempt's time is up does nothing but what `Takes` lists. -/
theorem expire_takes {limit : Nat} (hs : s.completed = false)
    (hl : settings.timeout = some limit) :
    Takes env settings now f c s w (f.expire env settings now c limit s w) := by
  simpa [expire, Turn.after] using fail_takes hs (.timedOut hl)

end Fiber

end ClusterClient
