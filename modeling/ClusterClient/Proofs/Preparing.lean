import ClusterClient.Proofs.Errand
import ClusterClient.Proofs.Failover

/-!
# Preparing on another node

A preparation is executed as if its statement might be applied again, so that it fails over from node
to node, and the prepared statement gets the configuration of the statement as it was. What is not
overridden is the consistency: if that is a serial one, the standard policy retries nothing, and the
first attempt that fails is the last (`Trail.halts`). `Client.Errand.preparing` has both cases, and
`Client.Errand.preparing_serial_refused` a preparation that gives up although a node is left.
-/

namespace ClusterClient

/-- How many attempts a fiber that halts may have begun, by where it stands. -/
def Stance.begunAtMost : Stance → Nat
  | .roaming | .visiting _ => 0
  | .waiting _ | .done _ => 1

theorem Act.fiber?_of_begun {a : Act} {n : Nat} (h : a.begun? = some n) :
    ∃ i, a.fiber? = some i := by
  cases a with
  | began => exact ⟨_, rfl⟩
  | _ => cases h

namespace Pose

/-- Where a fiber stands that does not go on after a failed attempt. -/
structure Halts (own : List Act) (p : Pose) : Prop where
  /-- It begins one attempt at most. -/
  begun : (own.filterMap Act.begun?).length ≤ p.stance.begunAtMost
  /-- It gives up when that fails. -/
  failed : ∀ n i node e, .failed n i node e ∈ own → p.stance = .done (.failed (.gaveUp e))

variable {ω : Type} {env : Environment ω} {settings : Settings} {p p' : Pose} {s s' : Shared}
  {own acts : List Act}

/-- A fiber that was not done halts after some acts if it does in them. -/
theorem Halts.append {q : Pose} {more : List Act} (hp : p.Halts own)
    (hopen : ∀ e, p.stance ≠ .done e)
    (hbegun : p.stance.begunAtMost + (more.filterMap Act.begun?).length ≤ q.stance.begunAtMost)
    (hfailed : ∀ n i node e, .failed n i node e ∈ more →
      q.stance = .done (.failed (.gaveUp e))) : q.Halts (own ++ more) where
  begun := by
    have := hp.begun
    rw [List.filterMap_append, List.length_append]
    omega
  failed n i node e ha := by
    rcases List.mem_append.1 ha with hbefore | hmore
    · exact absurd (hp.failed n i node e hbefore) (hopen _)
    · exact hfailed n i node e hmore

/-- A fiber halts if its policy retries nothing. -/
theorem Move.halts (h : Move env settings p s acts p' s')
    (hstop : ∀ r decision, .reported p.index r decision ∈ acts → decision = .stop)
    (hp : p.Halts own) : p'.Halts (own ++ Act.ofFiber p.index acts) := by
  cases h with
  | exhausted hs hd hn =>
    exact hp.append (by simp [hs]) (by simp [hs, Stance.begunAtMost]) (by simp)
  | takes hs hd hn | refused hs =>
    exact hp.append (by simp [hs])
      (by simp [hs, Stance.begunAtMost, Act.fiber?, Act.begun?, List.filterMap_cons])
      (by simp [Act.fiber?])
  | begins hs | waits hs hr he | sends hs hr he | succeeds hs hr he =>
    exact hp.append (by simp [hs])
      (by simp [hs, Stance.begunAtMost, Act.fiber?, Act.begun?, List.filterMap_cons])
      (by simp [Act.fiber?])
  | @fails c error heard lore decision hs hf hd hne =>
    obtain rfl : decision = .stop := hstop (p.reportOn settings c error) decision (by simp)
    refine hp.append (by simp [hs]) ?_ ?_
    · simp [hf.ofFiber_heard, hs, obeying, Stance.begunAtMost, Act.fiber?, Act.begun?,
        List.filterMap_cons]
    · intro n i node e ha
      obtain ⟨-, -, -, rfl⟩ : n = c.number ∧ i = p.index ∧ node = c.node ∧ e = error := by
        simpa [hf.ofFiber_heard, Act.fiber?] using ha
      rfl
  | @ignores c error heard lore hs hf hd =>
    cases hstop (p.reportOn settings c error) .ignore (by simp)

end Pose

namespace Trail

variable {ω : Type} {env : Environment ω} {settings : Settings} {acts : List Act} {s : Shared}
  {ps : List Pose} {p : Pose} {i : Nat}

/-- **At a serial consistency a fiber halts** under the standard policy: it begins one attempt, and
gives up if that fails. -/
theorem halts (h : Trail env settings acts s ps)
    (hserial : settings.routing.consistency.isSerial = true) (hp : ps[i]? = some p)
    (hrule : p.session.rule = .standard) : p.Halts (Act.ofFiber i acts) := by
  refine h.own (L := fun own p => p.session.rule = .standard → p.Halts own) ?_ ?_ hp hrule
  · intro rule i _
    exact ⟨Nat.le_refl 0, by simp⟩
  · intro acts more s s' ps p p' h hp hmove ih hrule
    rw [hmove.rule_eq] at hrule
    refine hmove.halts (fun r decision ha => ?_) (ih hrule)
    cases hmove with
    | @fails c error heard lore d hs hf hd hne =>
      obtain ⟨rfl, rfl⟩ : r = p.reportOn settings c error ∧ decision = d := by
        cases hf <;> simpa using ha
      rw [← h.consistency_steady hp hrule] at hserial
      rw [hrule, RetryRule.decide, Budget.decide_serial _ hserial] at hd
      exact hd.symm
    | ignores hs hf hd =>
      rw [hrule] at hd
      exact absurd hd (Budget.decide_ne_ignore _ _)
    | exhausted | takes | refused | begins | waits | sends | succeeds => simp at ha

end Trail

namespace Execution

variable {ω : Type} {env : Environment ω} {settings : Settings} {since : Nat} {x : Execution}
  {acts : List Act}

/-- At a serial consistency and without speculation the first attempt that fails is the last, and
the execution fails with it. -/
theorem Runs.gives_up (h : Runs env settings none since x acts) (hretry : settings.retry = .standard)
    (hserial : settings.routing.consistency.isSerial = true) {n i : Nat} {node : Node}
    {e : AttemptError} (hfailed : .failed n i node e ∈ acts) :
    x.shared.attempts = 1 ∧ x.result? = some (.error (failure (.gaveUp e) x.info)) := by
  obtain ⟨f, hsingle⟩ := h.unfolds.single
  have htrail := h.unfolds.trail
  have hone : (x.fibers.map Fiber.pose).length = 1 := by simp [hsingle.fibers]
  have hf : x.fibers[0]? = some f := by simp [hsingle.fibers]
  have hpose : (x.fibers.map Fiber.pose)[0]? = some f.pose := by simp [hf]
  have hhalts := htrail.halts hserial hpose ((h.rule_eq hf).trans hretry)
  obtain rfl := hsingle.fiber_eq htrail hfailed rfl
  have hstance := hhalts.failed n 0 node e (Act.mem_ofFiber.2 ⟨hfailed, rfl⟩)
  constructor
  · have hbegun := hhalts.begun
    rw [htrail.filterMap_single hone fun _ _ => Act.fiber?_of_begun, htrail.begun_eq,
      List.length_range, hstance] at hbegun
    -- The attempt that failed was begun.
    obtain ⟨connection, hbegan⟩ := htrail.began_of_failed hfailed
    have hmem : n ∈ acts.filterMap Act.begun? := List.mem_filterMap.2 ⟨_, hbegan, rfl⟩
    rw [htrail.begun_eq, List.mem_range] at hmem
    simp only [Stance.begunAtMost] at hbegun
    omega
  · have hphase : f.phase = .ended (.failed (.gaveUp e)) := by
      cases hp : f.phase with
      | attempting c => simp [hp] at hstance
      | ended e' => simpa [hp] using hstance
    exact result?_eq_error.2 (.inl ⟨_, hsingle.ended _ hphase, rfl⟩)

end Execution

namespace Client

variable {n : Nat} {o : Operation} {strides : List Stride} {first : Stride} {hs : List Happening}

/-- An operation that executes a call does so on the terms it has in the session it begins in. -/
theorem Errand.course_of_head (h : Errand n o strides hs) {config : StatementConfig} {call : Call}
    {purpose : Purpose} (hcall : o.call? = some (config, call, purpose))
    (hfirst : strides.head? = some first) :
    ∃ x, Course n purpose (Terms.ofCall first.before.session config call) strides x := by
  induction h with
  | start c now hc =>
    cases hfirst
    rw [begin_of_call hcall]
    exact ⟨_, .start c now config call rfl⟩
  | @step strides last hs c now h _ hlast hc ih =>
    have hbefore : strides.head? = some first := by
      cases strides with
      | nil => cases hlast
      | cons => exact hfirst
    obtain ⟨x, hcourse⟩ := ih hbefore
    exact ⟨_, hcourse.step c now h hlast hc⟩

/-- **How far a preparation goes** under the standard policy and without speculation, whether or not
its statement may be applied again. At a consistency that is not serial it fails over as any call
does, and the first node that prepares the statement gives the prepared one, which has the
statement's configuration. At a serial consistency the first attempt that fails is the last, and the
preparation fails with it. -/
theorem Errand.preparing {statement : Statement} (h : Errand n (.prepare statement) strides hs)
    (hfirst : strides.head? = some first)
    (hretry : (statement.config.retry.getD
      (first.before.session.profileOf statement.config).retry).rule = .standard)
    (hspeculation : (first.before.session.profileOf statement.config).speculation = none) :
    let session := first.before.session
    let terms := Terms.ofCall session { statement.config with idempotent := true }
      (.prepare statement.text)
    let consistency :=
      statement.config.consistency.getD (session.profileOf statement.config).consistency
    let acts := strides.flatMap Stride.acts
    let notices := strides.flatMap Stride.notices
    ∃ x, Course n (.preparation statement) terms strides x ∧
      (∃ P, x.PlanIs terms.environment acts P) ∧
      (consistency.isSerial = false →
        (∀ a i node e, .failed a i node e ∈ acts → e.passesOn = true) →
        (∀ P, x.PlanIs terms.environment acts P → x.FailsOver acts P) ∧
        ∀ a r id, .heard a .first (.delivered (.ok r)) ∈ acts → r.body = .result (.prepared id) →
          .finished n (.prepared (.ok ⟨statement.config, id, statement.text,
            statement.pageSize⟩)) ∈ notices) ∧
      (consistency.isSerial = true → ∀ a i node e, .failed a i node e ∈ acts →
        x.shared.attempts = 1 ∧
          .finished n (.prepared (.error (Execution.failure (.gaveUp e) x.info))) ∈ notices) := by
  intro session terms consistency acts notices
  obtain ⟨x, hcourse⟩ := h.course_of_head rfl hfirst
  obtain ⟨since, hruns⟩ := hcourse.law.reaches.runs
  have hnone : terms.speculation = none := by
    simp only [terms, Terms.ofCall, if_true]
    exact hspeculation
  rw [hnone] at hruns
  obtain ⟨P, hP⟩ := hruns.unfolds.planIs
  refine ⟨x, hcourse, ⟨P, hP⟩, fun hserial hfailures => ⟨fun P hP => ?_, ?_⟩, ?_⟩
  · exact hruns.failsOver hretry hserial rfl hfailures hP
  · intro a r id hheard hbody
    have hanswer : r.answer = .ok ⟨.prepared id, r.extras⟩ :=
      Response.answer_ok.2 ⟨hbody, rfl⟩
    obtain ⟨node, connection, info, -, -, hr, -, -⟩ :=
      (hruns.failsOver hretry hserial rfl hfailures hP).answered a .first r _ hheard (by simp)
        hanswer
    exact hcourse.law.finished _ hr
  · intro hserial a i node e hfailed
    obtain ⟨hattempts, hr⟩ := hruns.gives_up hretry hserial hfailed
    exact ⟨hattempts, hcourse.law.finished _ hr⟩

/-- The first of three nodes gives no connection, the second one's connection breaks, and the third
prepares the statement, which is not one that may be applied again. -/
theorem Errand.preparing_on_third_node :
    let a := Node.sample "10.0.0.1" 0
    let b := Node.sample "10.0.0.2" 1
    let c := Node.sample "10.0.0.3" 2
    let statement := Statement.ofText "UPDATE t SET n = n + 1"
    ∃ (strides : List Stride) (hs : List Happening) (x : Execution) (P : List Node),
      Errand 0 (.prepare statement) strides hs ∧
      x.FailsOver (strides.flatMap Stride.acts) P ∧ P.take 3 = [a, b, c] ∧
      x.shared.errors = [(a.address, .poolBroken .closed), (b.address, .connectionBroken .closed)] ∧
      .finished 0 (.prepared (.ok ⟨.standard, [7], statement.text, .standard⟩)) ∈
        strides.flatMap Stride.notices := by
  intro a b c statement
  let session : Session := { Session.plain with
    nodes := [a, b, c]
    pools := [⟨a.address, some .closed, []⟩, ⟨b.address, none, []⟩, ⟨c.address, none, []⟩] }
  let prepared : Response := ⟨.result (.prepared [7]), .none⟩
  let errors := [(a.address, AttemptError.poolBroken .closed),
    (b.address, .connectionBroken .closed)]
  have prepares {first : Stride} {strides : List Stride} {hs : List Happening}
      (h : Errand 0 (.prepare statement) strides hs) (hfirst : strides.head? = some first)
      (hsession : first.before.session = session)
      (hblamed : (strides.flatMap Stride.acts).filterMap Act.failure? = errors)
      (hfailures : ((strides.flatMap Stride.acts).filterMap Act.blame?).all
        (·.2.passesOn) = true)
      (htrying : (strides.flatMap Stride.acts).filterMap Act.trying? = [(0, a), (0, b), (0, c)])
      (hheard : (strides.flatMap Stride.acts)[16]? =
        some (.heard 1 .first (.delivered (.ok prepared)))) :
      ∃ (x : Execution) (P : List Node), x.FailsOver (strides.flatMap Stride.acts) P ∧
        P.take 3 = [a, b, c] ∧ x.shared.errors = errors ∧
        .finished 0 (.prepared (.ok ⟨.standard, [7], statement.text, .standard⟩)) ∈
          strides.flatMap Stride.notices := by
    obtain ⟨x, -, ⟨P, hP⟩, hfails, -⟩ :=
      h.preparing hfirst (by rw [hsession]; rfl) (by rw [hsession]; rfl)
    obtain ⟨hover, hprepared⟩ := hfails (by rw [hsession]; rfl) fun n i node e ha =>
      List.all_eq_true.1 hfailures (node.address, e) (List.mem_filterMap.2 ⟨_, ha, rfl⟩)
    have herrors : x.shared.errors = errors := (hover P hP).listed.trans hblamed
    have hasked := (hover P hP).asked
    rw [htrying, herrors] at hasked
    have hnodes : [a, b, c] = P.take (errors.length + 1) := by
      simpa using congrArg (List.map Prod.snd) hasked
    exact ⟨x, P, hover P hP, hnodes.symm, herrors,
      hprepared 1 prepared [7] (List.mem_of_getElem? hheard) rfl⟩
  have h₀ := Errand.of_start (fresh session) 0 (.prepare statement) rfl
  have h₁ := h₀.next id (fun _ => rfl) 1 (.signal (.attempt 0 .first) .acknowledged)
  have h₂ := h₁.next id (fun _ => rfl) 2 (.signal (.attempt 0 .first) (.delivered (.error .closed)))
  have h₃ := h₂.next id (fun _ => rfl) 3 (.signal (.attempt 1 .first) .acknowledged)
  have h₄ := h₃.next id (fun _ => rfl) 4 (.signal (.attempt 1 .first) (.delivered (.ok prepared)))
  obtain ⟨x, P, hx⟩ := prepares h₄ rfl rfl (by cbv) (by cbv) (by cbv) (by cbv)
  exact ⟨_, _, x, P, h₄, hx⟩

/-- A statement asks for a serial consistency. The first of two nodes is overloaded, and the
preparation fails without asking the second. -/
theorem Errand.preparing_serial_refused :
    let a := Node.sample "10.0.0.1" 0
    let b := Node.sample "10.0.0.2" 1
    let statement := (Statement.ofText "SELECT v FROM t").change { consistency := some .serial }
    let terms := Terms.ofCall .plain { statement.config with idempotent := true }
      (.prepare statement.text)
    ∃ (strides : List Stride) (hs : List Happening) (first : Stride) (info : ExecutionInfo),
      Errand 0 (.prepare statement) strides hs ∧ strides.head? = some first ∧
      first.before.session = .plain ∧ terms.settings.retry = .standard ∧
      terms.speculation = none ∧
      planned (terms.environment.chooser.pick .plain).1
        (terms.environment.chooser.fallback .plain).1 = [a, b] ∧
      .failed 0 0 a (.refused .overloaded "busy") ∈ strides.flatMap Stride.acts ∧
      Act.taken (strides.flatMap Stride.acts) = [a] ∧
      .finished 0 (.prepared (.error (.lastAttempt (.refused .overloaded "busy") info))) ∈
        strides.flatMap Stride.notices := by
  intro a b statement terms
  let busy : Response := ⟨.error .overloaded "busy", .none⟩
  let info : ExecutionInfo := { ExecutionInfo.empty with
    errors := [(a.address, .refused .overloaded "busy")] }
  have h₀ := Errand.of_start (fresh .plain) 0 (.prepare statement) rfl
  have h₁ := h₀.next id (fun _ => rfl) 1 (.signal (.attempt 0 .first) .acknowledged)
  have h₂ := h₁.next id (fun _ => rfl) 2 (.signal (.attempt 0 .first) (.delivered (.ok busy)))
  exact ⟨_, _, _, info, h₂, rfl, rfl, rfl, rfl, by cbv,
    List.mem_of_getElem? (i := 7) (by cbv), by cbv, List.mem_of_getLast? (by cbv)⟩

end Client

end ClusterClient
