import ClusterClient.Proofs.Budget
import ClusterClient.Proofs.Exhaustion

/-!
# Failing over

A statement that may be applied again, at a consistency that is not serial, is passed on from node
to node by the standard policy after the failures `AttemptError.passesOn` names. A node without a
connection is left as well, without asking the policy. As no budget is spent on either, such
failures may come in any number and in any order: without speculation the one fiber tries the plan
node by node until one answers (`Execution.FailsOver`).

`Pose.Marches` is what the fiber keeps while it does so, `Execution.Single` what a race of one fiber
comes to, and `Trail.sequel_heeded` says that no result that comes back is left aside.
-/

namespace ClusterClient

/-- A session over two nodes whose profile does not speculate. -/
def Session.plain : Session :=
  { Session.sample with targets := [⟨{ Profile.standard 0 with timeout := some 50 }, none⟩] }

/-- Whether the failure of an attempt is one after which the standard policy goes on to another
node, given a statement that may be applied again. -/
def AttemptError.passesOn : AttemptError → Bool
  | .writeFailed _ | .connectionBroken _ | .timedOut _ => true
  | .refused .overloaded _ | .refused .serverError _ | .refused .truncateError _
  | .refused .isBootstrapping _ => true
  | _ => false

/-- The policy goes on to another node after such a failure, whatever is spent. -/
theorem Budget.decide_passesOn (b : Budget) {r : Report} (hserial : r.consistency.isSerial = false)
    (hidempotent : r.idempotent = true) (he : r.error.passesOn = true) :
    (b.decide r).1 = .nextNode none := by
  unfold AttemptError.passesOn at he
  split at he <;> simp_all [decide, classify, spend]

/-! ## Executions with one fiber -/

/-- The only running fiber of a race decides it by its ending. -/
theorem Race.finish_last {r : Race Success} (hrunning : r.running = 1) (hleft : r.left = 0)
    (hlast : r.lastFailure = none) (e : Ending Success) : (r.finish e).verdict = some e := by
  cases e with
  | succeeded v => rfl
  | idle => simp [finish, close, hrunning, hlast]
  | failed f =>
    simp only [finish]
    split
    · simp [close, hrunning, hleft]
    · rfl

namespace Execution

variable {ω : Type} {env : Environment ω} {settings : Settings} {speculation : Option Speculation}
  {since : Nat} {x : Execution} {acts : List Act} {P : List Node} {f : Fiber} {t : Turn ω}

/-- An execution with one fiber, which decides its race. -/
structure Single (x : Execution) (f : Fiber) : Prop where
  fibers : x.fibers = [f]
  index : f.index = 0
  left : x.race.left = 0
  attempting : ∀ c, f.phase = .attempting c →
    x.race.verdict = none ∧ x.race.running = 1 ∧ x.race.lastFailure = none
  ended : ∀ e, f.phase = .ended e → x.race.verdict = some e

theorem Single.settle (hlength : x.fibers.length = 1) (hindex : t.fiber.index = 0)
    (hleft : x.race.left = 0) (hverdict : x.race.verdict = none) (hrunning : x.race.running = 1)
    (hlast : x.race.lastFailure = none) : (x.settle t).execution.Single t.fiber where
  fibers := by
    obtain ⟨g, hg⟩ := List.length_eq_one_iff.1 hlength
    rw [settle_fibers, hindex, hg]
    rfl
  index := hindex
  left := Nat.le_zero.1 (hleft ▸ settle_left_le)
  attempting c hc := by
    rw [settle_race_attempting hc]
    exact ⟨hverdict, hrunning, hlast⟩
  ended e he := by
    rw [settle_race_ended he]
    exact Race.finish_last hrunning hleft hlast e

/-- Without speculation an execution has one fiber. -/
theorem Unfolds.single (h : Unfolds env settings none since x acts) : ∃ f, x.Single f := by
  induction h with
  | first rule hseek =>
    exact ⟨_, .settle (by simp [fork, initial]) hseek.frame.1 rfl rfl rfl rfl⟩
  | launch rule _ hmay _ ih =>
    obtain ⟨f, hsingle⟩ := ih
    have := ((Race.mayLaunch_iff _).1 hmay).2
    have := hsingle.left
    omega
  | @turn x acts now w t f c rule hruns hr hf hp ht ih =>
    obtain ⟨g, hsingle⟩ := ih
    obtain rfl : g = f := by
      rw [hsingle.fibers, List.getElem?_singleton] at hf
      split at hf <;> simp_all
    obtain ⟨hverdict, hrunning, hlast⟩ := hsingle.attempting c hp
    have hindex := (ht.frame (hruns.sound.unclaimed hr)).1
    exact ⟨t.fiber, .settle (by simp [hsingle.fibers]) (hindex.trans hsingle.index) hsingle.left
      hverdict hrunning hlast⟩

end Execution

/-! ## No result is left aside -/

namespace Act

/-- What comes right after an act: if a node answers the call's own request with a result, its
attempt succeeds. -/
def Heeded : Act → List Act → Prop
  | .heard n stage (.delivered (.ok r)), after => stage ≠ .reprepare →
      ∀ answer, r.answer = .ok answer →
        ∃ i node later, after = .succeeded n i node :: .claimed n i :: later
  | _, _ => True

theorem Heeded.append {a : Act} {after : List Act} (h : Heeded a after) (more : List Act) :
    Heeded a (after ++ more) := by
  unfold Heeded at h ⊢
  split
  · intro hstage answer hr
    obtain ⟨i, node, later, rfl⟩ := h hstage answer hr
    exact ⟨i, node, later ++ more, rfl⟩
  · trivial

end Act

/-- An attempt whose call's own request is answered with a result succeeds. -/
theorem Attempt.react_answered {a : Attempt} {r : Response} {answer : Answer}
    (hstage : a.stage ≠ .reprepare) (hr : r.answer = .ok answer) :
    a.react (.delivered (.ok r)) = .ends a (.ok answer) := by
  simp only [react, receive]
  cases hs : a.stage with
  | first => cases hid : a.call.preparedId? <;> simp [afterFirst, hr, hid]
  | reprepare => exact absurd hs hstage
  | repeated => simp [hr]

namespace Trail

variable {ω : Type} {env : Environment ω} {settings : Settings} {acts : List Act} {s : Shared}
  {ps : List Pose} {p : Pose} {i : Nat}

/-- **An attempt whose request is answered with a result succeeds at once.** -/
theorem sequel_heeded (h : Trail env settings acts s ps) : Sequel Act.Heeded acts := by
  have unasked {more : List Act} (hmore : ∀ n stage signal, .heard n stage signal ∉ more) :
      Sequel Act.Heeded more := by
    refine sequel_of_forall fun a ha after => ?_
    cases a with
    | heard n stage signal => exact absurd ha (hmore n stage signal)
    | _ => trivial
  have heeded {c : Current} {signal : Signal} {later : List Act}
      (hends : ∀ answer, c.attempt.react signal = .ends c.attempt (.ok answer) →
        ∃ i node rest, later = .succeeded c.number i node :: .claimed c.number i :: rest) :
      Act.Heeded (.heard c.number c.attempt.stage signal) later := by
    unfold Act.Heeded
    split
    · next n stage r heq =>
      cases heq
      intro hstage answer hr
      exact hends answer (Attempt.react_answered hstage hr)
    · trivial
  have fails {c : Current} {error : AttemptError} {heard later : List Act}
      (hf : Fiber.Falters settings c error heard)
      (hlater : ∀ n stage signal, .heard n stage signal ∉ later) :
      Sequel Act.Heeded (heard ++ later) := by
    cases hf with
    | timedOut hl => exact unasked (by simpa using hlater)
    | heard he hr =>
      refine sequel_cons.2 ⟨heeded fun answer hends => ?_, unasked hlater⟩
      rw [hr] at hends
      cases hends
  induction h with
  | start => exact unasked (by simp)
  | opens rule _ ih =>
    exact ih.append (fun _ _ more ha => ha.append more) (unasked (by simp))
  | moves _ _ hmove ih =>
    refine ih.append (fun _ _ more ha => ha.append more) ?_
    cases hmove with
    | exhausted | takes | refused | begins => exact unasked (by simp)
    | waits hs hr he | sends hs hr he =>
      refine sequel_cons.2 ⟨heeded fun answer hends => ?_, unasked (by simp)⟩
      rw [hr] at hends
      cases hends
    | succeeds hs hr he =>
      exact sequel_cons.2 ⟨heeded fun answer hends => ⟨_, _, _, rfl⟩, unasked (by simp)⟩
    | fails hs hf hd hne => exact fails hf (by simp)
    | ignores hs hf hd => exact fails hf (by simp)

/-- The only fiber does all that is done by fibers. -/
theorem filterMap_single {β : Type} {g : Act → Option β} (h : Trail env settings acts s ps)
    (hone : ps.length = 1) (hg : ∀ a v, g a = some v → ∃ i, a.fiber? = some i) :
    (Act.ofFiber 0 acts).filterMap g = acts.filterMap g := by
  rw [Act.ofFiber, List.filterMap_filter]
  refine List.filterMap_congr fun a ha => ?_
  cases hv : g a with
  | none => simp
  | some v =>
    obtain ⟨i, hi⟩ := hg a v hv
    have hlt := h.fiber_lt ha hi
    obtain rfl : i = 0 := by omega
    simp [hi]

end Trail

/-! ## The march through the plan -/

/-- The node a fiber is about to ask for a connection. -/
def Stance.visited? : Stance → Option Node
  | .visiting node => some node
  | _ => none

/-- The node whose attempt has not failed: the fiber waits for it, or it succeeded. -/
def Stance.unfailed? : Stance → Option Node
  | .waiting c => some c.node
  | .done (.succeeded v) => some v.node
  | _ => none

namespace Act

/-- The nodes that are asked for connections. -/
def tried (acts : List Act) : List Node :=
  (acts.filterMap trying?).map (·.2)

/-- The addresses of the nodes that fail. -/
def fallen (acts : List Act) : List Address :=
  (acts.filterMap failure?).map (·.1)

theorem fiber?_of_taking {a : Act} {t : Nat × Node} (h : a.taking? = some t) :
    a.fiber? = some t.1 := by
  cases a with
  | took =>
    cases h
    rfl
  | _ => cases h

theorem fiber?_of_trying {a : Act} {t : Nat × Node} (h : a.trying? = some t) :
    a.fiber? = some t.1 := by
  cases a with
  | poolFailed | began =>
    cases h
    rfl
  | _ => cases h

theorem fiber?_of_failure {a : Act} {e : Address × AttemptError} (h : a.failure? = some e) :
    ∃ i, a.fiber? = some i := by
  cases a with
  | poolFailed | failed => exact ⟨_, rfl⟩
  | _ => cases h

@[simp] theorem tried_nil : tried [] = [] := rfl

@[simp] theorem tried_cons (a : Act) (acts : List Act) :
    tried (a :: acts) = (a.trying?.map (·.2)).toList ++ tried acts := by
  cases h : a.trying? <;> simp [tried, h]

@[simp] theorem tried_append (acts more : List Act) :
    tried (acts ++ more) = tried acts ++ tried more := by
  simp [tried]

@[simp] theorem fallen_nil : fallen [] = [] := rfl

@[simp] theorem fallen_cons (a : Act) (acts : List Act) :
    fallen (a :: acts) = (a.failure?.map (·.1)).toList ++ fallen acts := by
  cases h : a.failure? <;> simp [fallen, h]

@[simp] theorem fallen_append (acts more : List Act) :
    fallen (acts ++ more) = fallen acts ++ fallen more := by
  simp [fallen]

end Act

namespace Pose

/-- Where a fiber stands that takes the nodes of its plan one after the other. -/
structure Marches (own : List Act) (p : Pose) : Prop where
  /-- It asked each node it took once, or is about to. -/
  taken : Act.taken own = Act.tried own ++ p.stance.visited?.toList
  /-- Each node it asked has failed, but for the one it waits for or got its result from. -/
  fallen : ∃ failed, Act.tried own = failed ++ p.stance.unfailed?.toList ∧
    Act.fallen own = failed.map Node.address
  /-- It never gives up. -/
  resolute : ∀ e, p.stance ≠ .done (.failed (.gaveUp e))

variable {ω : Type} {env : Environment ω} {settings : Settings} {p p' q : Pose} {s s' : Shared}
  {own more acts : List Act}

/-- A fiber marches on over some acts in which the given nodes fail. -/
theorem Marches.append (hp : p.Marches own) (failed : List Node)
    (htaken : p.stance.visited?.toList ++ Act.taken more =
      Act.tried more ++ q.stance.visited?.toList)
    (htried : p.stance.unfailed?.toList ++ Act.tried more = failed ++ q.stance.unfailed?.toList)
    (hfallen : Act.fallen more = failed.map Node.address)
    (hresolute : ∀ e, q.stance ≠ .done (.failed (.gaveUp e))) : q.Marches (own ++ more) where
  taken := by
    rw [Act.taken_append, hp.taken, List.append_assoc, htaken, Act.tried_append, List.append_assoc]
  fallen := by
    obtain ⟨earlier, hbefore, haddresses⟩ := hp.fallen
    refine ⟨earlier ++ failed, ?_, ?_⟩
    · rw [Act.tried_append, hbefore, List.append_assoc, htried, List.append_assoc]
    · rw [Act.fallen_append, haddresses, hfallen, List.map_append]
  resolute := hresolute

/-- A fiber without a further node has neither succeeded nor given up. -/
theorem exhausted_cases (p : Pose) :
    p.exhausted = .idle ∨ ∃ e, p.exhausted = .failed (.planExhausted e) := by
  unfold exhausted
  split
  · exact .inr ⟨_, rfl⟩
  · exact .inl rfl

/-- A fiber goes on marching if its policy sends it on after each failure of an attempt. -/
theorem Move.marches (h : Move env settings p s acts p' s')
    (honward : ∀ r decision, .reported p.index r decision ∈ acts → decision = .nextNode none)
    (hp : p.Marches own) : p'.Marches (own ++ Act.ofFiber p.index acts) := by
  cases h with
  | exhausted hs hd hn =>
    rw [Act.ofFiber_consulted]
    rcases p.exhausted_cases with he | ⟨e, he⟩ <;>
      exact hp.append [] (by simp [hs, Stance.visited?]) (by simp [hs, he, Stance.unfailed?]) rfl
        (by simp [he])
  | takes hs hd hn =>
    exact hp.append [] (by simp [hs, Stance.visited?, Act.fiber?, Act.taking?, Act.trying?])
      (by simp [hs, Stance.unfailed?, Act.fiber?, Act.trying?])
      (by simp [Act.fiber?, Act.failure?]) (by simp)
  | @refused node cause hs =>
    exact hp.append [node] (by simp [hs, Stance.visited?, Act.fiber?, Act.taking?, Act.trying?])
      (by simp [hs, Stance.unfailed?, Act.fiber?, Act.trying?])
      (by simp [Act.fiber?, Act.failure?]) (by simp)
  | begins hs =>
    exact hp.append [] (by simp [hs, Stance.visited?, Act.fiber?, Act.taking?, Act.trying?])
      (by simp [hs, Stance.unfailed?, Act.fiber?, Act.trying?])
      (by simp [Act.fiber?, Act.failure?]) (by simp)
  | waits hs hr he | sends hs hr he =>
    exact hp.append [] (by simp [hs, Stance.visited?, Act.fiber?])
      (by simp [hs, Stance.unfailed?, Act.fiber?]) (by simp [Act.fiber?]) (by simp)
  | succeeds hs hr he =>
    exact hp.append [] (by simp [hs, Stance.visited?, Act.fiber?, Act.taking?, Act.trying?])
      (by simp [hs, Stance.unfailed?, Act.fiber?, Act.trying?, success])
      (by simp [Act.fiber?, Act.failure?]) (by simp)
  | @fails c error heard lore decision hs hf hd hne =>
    obtain rfl : decision = .nextNode none :=
      honward (p.reportOn settings c error) decision (by simp)
    exact hp.append [c.node]
      (by simp [hf.ofFiber_heard, hs, obeying, Stance.visited?, Act.fiber?, Act.taking?,
        Act.trying?])
      (by simp [hf.ofFiber_heard, hs, obeying, Stance.unfailed?, Act.fiber?, Act.trying?])
      (by simp [hf.ofFiber_heard, Act.fiber?, Act.failure?]) (by simp [obeying])
  | @ignores c error heard lore hs hf hd =>
    cases honward (p.reportOn settings c error) .ignore (by simp)

end Pose

namespace Trail

variable {ω : Type} {env : Environment ω} {settings : Settings} {acts : List Act} {s : Shared}
  {ps : List Pose} {p : Pose} {i : Nat}

/-- **A fiber marches through its plan** under the standard policy, as long as its attempts fail in
ways that pass it on. -/
theorem marches (h : Trail env settings acts s ps)
    (hserial : settings.routing.consistency.isSerial = false)
    (hidempotent : settings.routing.idempotent = true) (hp : ps[i]? = some p)
    (hrule : p.session.rule = .standard)
    (hfailures : ∀ n j node e, .failed n j node e ∈ Act.ofFiber i acts → e.passesOn = true) :
    p.Marches (Act.ofFiber i acts) := by
  refine h.own (L := fun own p => p.session.rule = .standard →
    (∀ n j node e, .failed n j node e ∈ own → e.passesOn = true) → p.Marches own)
    ?_ ?_ hp hrule hfailures
  · intro rule i _ _
    exact ⟨rfl, ⟨[], rfl, rfl⟩, by simp [Pose.fresh, Fiber.standing]⟩
  · intro acts more s s' ps p p' h hp hmove ih hrule hfailures
    rw [hmove.rule_eq] at hrule
    have hbefore := ih hrule fun n j node e ha => hfailures n j node e (List.mem_append_left _ ha)
    refine hmove.marches (fun r decision ha => ?_) hbefore
    -- The report is on a failure made known in the same move.
    cases hmove with
    | @fails c error heard lore d hs hf hd hne =>
      obtain ⟨rfl, rfl⟩ : r = p.reportOn settings c error ∧ decision = d := by
        cases hf <;> simpa using ha
      rw [← hd, hrule]
      refine Budget.decide_passesOn _ ?_ hidempotent (hfailures c.number p.index c.node error ?_)
      · rw [← h.consistency_steady hp hrule] at hserial
        exact hserial
      · exact List.mem_append_right _ (Act.mem_ofFiber.2 ⟨by simp, rfl⟩)
    | ignores hs hf hd =>
      rw [hrule] at hd
      exact absurd hd (Budget.decide_ne_ignore _ _)
    | exhausted | takes | refused | begins | waits | sends | succeeds => simp at ha

/-- The march of the only fiber is all that happens. -/
theorem marches_all (h : Trail env settings acts s ps) (hone : ps.length = 1)
    (hp : p.Marches (Act.ofFiber 0 acts)) : p.Marches acts := by
  have htaken : Act.taken (Act.ofFiber 0 acts) = Act.taken acts := by
    rw [Act.taken, h.filterMap_single hone fun _ _ ht => ⟨_, Act.fiber?_of_taking ht⟩, Act.taken]
  have htried : Act.tried (Act.ofFiber 0 acts) = Act.tried acts := by
    rw [Act.tried, h.filterMap_single hone fun _ _ ht => ⟨_, Act.fiber?_of_trying ht⟩, Act.tried]
  have hfallen : Act.fallen (Act.ofFiber 0 acts) = Act.fallen acts := by
    rw [Act.fallen, h.filterMap_single hone fun _ _ => Act.fiber?_of_failure, Act.fallen]
  obtain ⟨hnodes, hfailed, hresolute⟩ := hp
  rw [htaken, htried] at hnodes
  rw [htried, hfallen] at hfailed
  exact ⟨hnodes, hfailed, hresolute⟩

end Trail

namespace Execution

variable {ω : Type} {env : Environment ω} {settings : Settings} {speculation : Option Speculation}
  {since : Nat} {x : Execution} {acts : List Act} {P : List Node} {f : Fiber}

/-- How an execution goes that is passed on from node to node. The failures it lists are those of
the first nodes of its plan. -/
structure FailsOver (x : Execution) (acts : List Act) (P : List Node) : Prop where
  /-- Every failure is listed, in the order of the plan. -/
  listed : x.shared.errors = acts.filterMap Act.failure?
  ordered : x.shared.errors.map (·.1) = (P.take x.shared.errors.length).map Node.address
  /-- Each of these nodes is asked for a connection once, and then the next one, if there is one. -/
  asked : acts.filterMap Act.trying? = (P.take (x.shared.errors.length + 1)).map (0, ·)
  /-- Nothing is sent to the others. -/
  written : ∀ n stage connection request, .issued n stage connection request ∈ acts →
    ∃ node ∈ P.take (x.shared.errors.length + 1), .began n 0 node connection ∈ acts
  /-- A result that comes back is the execution's, and it is that of the next node. -/
  answered : ∀ n stage r answer, .heard n stage (.delivered (.ok r)) ∈ acts → stage ≠ .reprepare →
    r.answer = .ok answer → ∃ node connection info,
      P[x.shared.errors.length]? = some node ∧ .began n 0 node connection ∈ acts ∧
      x.result? = some (.ok (answer, info)) ∧ info.errors = x.shared.errors ∧
      info.coordinator = some ⟨node, connection.address⟩
  /-- If all nodes have failed, the execution fails with what the last one failed with. -/
  failed : x.shared.errors.length = P.length → P ≠ [] → ∃ info address last,
    info.errors = x.shared.errors ∧ info.errors.getLast? = some (address, last) ∧
      ((∃ limit, last = .timedOut limit ∧
          x.result? = some (.error (.requestTimeout limit info))) ∨
        (∀ limit, last ≠ .timedOut limit) ∧ x.result? = some (.error (.allNodesFailed info)))
  /-- Until then it waits for the next node. -/
  waits : x.shared.errors.length < P.length → (∀ n i node, .succeeded n i node ∉ acts) →
    x.result? = none ∧ ∃ f c, x.fibers = [f] ∧ f.phase = .attempting c ∧
      P[x.shared.errors.length]? = some c.node

/-- Under the standard policy a result is claimed with a response. -/
theorem Runs.won_by_response (h : Runs env settings speculation since x acts)
    (hretry : settings.retry = .standard) {v : Success}
    (hv : x.race.verdict = some (.succeeded v)) : ∃ before n stage r connection,
      acts = before ++ [.heard n stage (.delivered (.ok r)), .succeeded n v.fiber v.node,
        .claimed n v.fiber] ∧
      r.answer = .ok v.answer ∧ .began n v.fiber v.node connection ∈ acts ∧
      v.connection = connection.address := by
  obtain ⟨-, n, connection, hclaim, hbegan, hconnection⟩ := h.standing.won v hv
  generalize hanswer : v.answer = answer at hclaim
  cases hclaim with
  | @response before stage r _ hacts hr =>
    exact ⟨before, n, stage, r, connection, hacts, hr, hbegan, hconnection⟩
  | ignored before error report hacts =>
    have htrail := h.unfolds.trail
    have hmem : .reported v.fiber report .ignore ∈ acts := by simp [hacts]
    have hi : v.fiber < x.fibers.length := by simpa using htrail.fiber_lt hmem rfl
    have hpose : (x.fibers.map Fiber.pose)[v.fiber]? = some x.fibers[v.fiber].pose := by simp [hi]
    have hrule : x.fibers[v.fiber].pose.session.rule = .standard :=
      (h.rule_eq (List.getElem?_eq_getElem hi)).trans hretry
    obtain ⟨b, hb⟩ := htrail.standard hpose hrule _ (Act.mem_ofFiber.2 ⟨hmem, rfl⟩)
    exact absurd hb (b.decide_ne_ignore report)

/-- How far an execution with one fiber has come in its plan: some nodes have failed, and it is at
the next one, if there is one. -/
structure Advanced (x : Execution) (acts : List Act) (P : List Node) (f : Fiber)
    (failed : List Node) : Prop where
  single : x.Single f
  fallen : x.shared.errors.map (·.1) = failed.map Node.address
  take : P.take failed.length = failed
  tried : P.take (failed.length + 1) = Act.tried acts
  next : P[failed.length]? = f.pose.stance.unfailed?
  resolute : ∀ e, f.phase ≠ .ended (.failed (.gaveUp e))

theorem Runs.advanced (h : Runs env settings none since x acts) (hretry : settings.retry = .standard)
    (hserial : settings.routing.consistency.isSerial = false)
    (hidempotent : settings.routing.idempotent = true)
    (hfailures : ∀ n i node e, .failed n i node e ∈ acts → e.passesOn = true)
    (hP : x.PlanIs env acts P) : ∃ f failed, x.Advanced acts P f failed := by
  obtain ⟨f, hsingle⟩ := h.unfolds.single
  have htrail := h.unfolds.trail
  have hone : (x.fibers.map Fiber.pose).length = 1 := by simp [hsingle.fibers]
  have hf : x.fibers[0]? = some f := by simp [hsingle.fibers]
  have hpose : (x.fibers.map Fiber.pose)[0]? = some f.pose := by simp [hf]
  have hmarch := htrail.marches hserial hidempotent hpose ((h.rule_eq hf).trans hretry)
    fun n i node e ha => hfailures n i node e (Act.mem_ofFiber.1 ha).1
  obtain ⟨hnodes, ⟨failed, hsplit, haddresses⟩, hresolute⟩ := htrail.marches_all hone hmarch
  obtain ⟨rest, hrest, hplan⟩ := hP.handed
  have hvisited : f.pose.stance.visited? = none := by
    cases hp : f.phase <;> simp [hp, Stance.visited?]
  rw [hnodes, hvisited, Option.toList_none, List.append_nil, hsplit] at hplan
  -- Without a next node the plan has come to its end.
  have hend : f.pose.stance.unfailed? = none → rest = [] := by
    intro hnone
    refine htrail.spent hpose ?_ rest hrest
    cases hp : f.phase with
    | attempting c => simp [hp, Stance.unfailed?] at hnone
    | ended e =>
      cases e with
      | succeeded v => simp [hp, Stance.unfailed?] at hnone
      | idle => exact .inl (by simp [hp])
      | failed failure =>
        cases failure with
        | gaveUp e => exact absurd (by simp [hp]) (hresolute e)
        | planExhausted e => exact .inr ⟨e, by simp [hp]⟩
  refine ⟨f, failed, hsingle, ?_, ?_, ?_, ?_, fun e hp => hresolute e (by simp [hp])⟩
  · rw [htrail.errors_eq]
    exact haddresses
  · rw [hplan, List.append_assoc, List.take_left]
  · rw [hplan, hsplit]
    cases hnext : f.pose.stance.unfailed? with
    | none => simp [hend hnext]
    | some node => simp [List.take_append]
  · rw [hplan]
    cases hnext : f.pose.stance.unfailed? with
    | none => simp [hend hnext]
    | some node => simp

/-- A success is told of right after the response it comes from, and there is one at most. -/
theorem Unfolds.heard_unique (h : Unfolds env settings speculation since x acts)
    {before before' after after' : List Act} {a a' : Act} {n n' i i' : Nat} {node node' : Node}
    (hacts : acts = before ++ a :: .succeeded n i node :: after)
    (hacts' : acts = before' ++ a' :: .succeeded n' i' node' :: after') :
    a = a' ∧ n = n' ∧ i = i' ∧ node = node' := by
  let success? (a : Act) : Option Unit := if a.succeeds then some () else none
  have hnodup : (acts.filterMap success?).Nodup := by
    have hlength : (acts.filterMap success?).length ≤ 1 := by
      rw [List.length_filterMap_eq_countP]
      have hcount : acts.countP (fun a => (success? a).isSome) = acts.countP Act.succeeds :=
        List.countP_congr fun a _ => by simp [success?]
      rw [hcount]
      exact h.succeeded.1
    match acts.filterMap success?, hlength with
    | [], _ => exact List.nodup_nil
    | [u], _ => exact List.nodup_singleton u
  have hsame : (before ++ [a]) ++ .succeeded n i node :: after =
      (before' ++ [a']) ++ .succeeded n' i' node' :: after' := by
    simp [← hacts, ← hacts']
  obtain ⟨hbefore, hsuccess⟩ := split_unique (v := ()) (f := success?)
    (by simpa [← hacts] using hnodup) hsame rfl rfl
  obtain ⟨-, hheard⟩ := List.append_inj' hbefore rfl
  obtain ⟨rfl, rfl, rfl⟩ := Act.succeeded.inj hsuccess
  exact ⟨List.singleton_inj.1 hheard, rfl, rfl, rfl⟩

/-- All that is done by fibers is done by the one there is. -/
theorem Single.fiber_eq (h : x.Single f)
    (htrail : Trail env settings acts x.shared (x.fibers.map Fiber.pose)) {a : Act} {i : Nat}
    (ha : a ∈ acts) (hi : a.fiber? = some i) : i = 0 := by
  have hlt := htrail.fiber_lt ha hi
  simpa [h.fibers] using hlt

/-- The verdict is how the fiber ended. -/
theorem Single.phase_of_verdict (h : x.Single f) {e : Ending Success}
    (hv : x.race.verdict = some e) : f.phase = .ended e := by
  cases hp : f.phase with
  | attempting c =>
    rw [(h.attempting c hp).1] at hv
    cases hv
  | ended e' =>
    rw [h.ended e' hp] at hv
    rw [Option.some.inj hv]

/-- An execution all of whose nodes have failed fails with what the last one failed with. -/
theorem Runs.advanced_failed (h : Runs env settings none since x acts)
    {failed : List Node} (hadvanced : x.Advanced acts P f failed) (hP : x.PlanIs env acts P)
    (hall : failed.length = P.length) (hne : P ≠ []) : ∃ info address last,
    info.errors = x.shared.errors ∧ info.errors.getLast? = some (address, last) ∧
      ((∃ limit, last = .timedOut limit ∧
          x.result? = some (.error (.requestTimeout limit info))) ∨
        (∀ limit, last ≠ .timedOut limit) ∧
          x.result? = some (.error (.allNodesFailed info))) := by
  have hdone : f.pose.stance.unfailed? = none := by
    rw [← hadvanced.next, hall, List.getElem?_eq_none (Nat.le_refl _)]
  cases hp : f.phase with
  | attempting c => simp [hp, Stance.unfailed?] at hdone
  | ended e =>
    have hv := hadvanced.single.ended e hp
    cases e with
    | succeeded v => simp [hp, Stance.unfailed?] at hdone
    | idle =>
      have hempty : x.result? = some (.error .emptyPlan) := result?_eq_error.2 (.inr ⟨hv, rfl⟩)
      exact absurd ((h.unfolds.emptyPlan_iff hP).1 hempty) hne
    | failed failure =>
      cases failure with
      | gaveUp e => exact absurd hp (hadvanced.resolute e)
      | planExhausted e =>
        obtain ⟨⟨address, last⟩, hlast, rfl⟩ :=
          Option.map_eq_some_iff.1 (h.unfolds.abreast.failed _ hv)
        have hr := result?_eq_error.2 (.inl ⟨_, hv, rfl⟩)
        refine ⟨x.info, address, last, rfl, hlast, ?_⟩
        cases last with
        | timedOut limit => exact .inl ⟨limit, rfl, hr⟩
        | _ => exact .inr ⟨by simp, hr⟩

/-- An execution that has neither succeeded nor seen all nodes fail waits for the next one. -/
theorem Runs.advanced_waits (h : Runs env settings none since x acts)
    (hretry : settings.retry = .standard) {failed : List Node}
    (hadvanced : x.Advanced acts P f failed) (hlt : failed.length < P.length)
    (hnone : ∀ n i node, .succeeded n i node ∉ acts) :
    x.result? = none ∧ ∃ c, f.phase = .attempting c ∧ P[failed.length]? = some c.node := by
  obtain ⟨node, hnode⟩ : ∃ node, f.pose.stance.unfailed? = some node := by
    rw [← hadvanced.next]
    exact ⟨_, List.getElem?_eq_getElem hlt⟩
  cases hp : f.phase with
  | attempting c =>
    refine ⟨by simp [result?, (hadvanced.single.attempting c hp).1], c, rfl, ?_⟩
    rw [hadvanced.next]
    simp [hp, Stance.unfailed?]
  | ended e =>
    cases e with
    | idle | failed failure => simp [hp, Stance.unfailed?] at hnode
    | succeeded v =>
      obtain ⟨before, n, stage, r, connection, hacts, -⟩ :=
        h.won_by_response hretry (hadvanced.single.ended _ hp)
      exact absurd (by simp [hacts]) (hnone n v.fiber v.node)

/-- A result that comes back is that of the next node. -/
theorem Runs.advanced_answered (h : Runs env settings none since x acts)
    (hretry : settings.retry = .standard) {failed : List Node}
    (hadvanced : x.Advanced acts P f failed) {n : Nat} {stage : Stage} {r : Response}
    {answer : Answer} (hheard : .heard n stage (.delivered (.ok r)) ∈ acts)
    (hstage : stage ≠ .reprepare) (hanswer : r.answer = .ok answer) : ∃ node connection info,
      P[failed.length]? = some node ∧ .began n 0 node connection ∈ acts ∧
      x.result? = some (.ok (answer, info)) ∧ info.errors = x.shared.errors ∧
      info.coordinator = some ⟨node, connection.address⟩ := by
  have htrail := h.unfolds.trail
  obtain ⟨before, after, hacts⟩ := List.append_of_mem hheard
  obtain ⟨i, node, later, rfl⟩ := htrail.sequel_heeded before _ after hacts hstage answer hanswer
  obtain ⟨answer', info, hr⟩ := h.standing.result_ok_iff.2 ⟨n, i, by simp [hacts]⟩
  obtain ⟨v, hv, rfl, rfl⟩ := result?_eq_ok.1 hr
  obtain ⟨before', n', stage', r', connection, hacts', hr', hbegan, hconnection⟩ :=
    h.won_by_response hretry hv
  -- It is the one response a success was told of.
  obtain ⟨heq, rfl, rfl, rfl⟩ := h.unfolds.heard_unique hacts hacts'
  obtain ⟨-, -, heq⟩ := Act.heard.inj heq
  cases heq
  obtain rfl := Except.ok.inj (hanswer.symm.trans hr')
  have hzero := hadvanced.single.fiber_eq htrail hbegan rfl
  refine ⟨v.node, connection, _, ?_, hzero ▸ hbegan, hr, rfl, ?_⟩
  · rw [hadvanced.next]
    simp [hadvanced.single.phase_of_verdict hv, Stance.unfailed?]
  · rw [hconnection]

theorem Runs.failsOver (h : Runs env settings none since x acts)
    (hretry : settings.retry = .standard)
    (hserial : settings.routing.consistency.isSerial = false)
    (hidempotent : settings.routing.idempotent = true)
    (hfailures : ∀ n i node e, .failed n i node e ∈ acts → e.passesOn = true)
    (hP : x.PlanIs env acts P) : x.FailsOver acts P := by
  obtain ⟨f, failed, hadvanced⟩ := h.advanced hretry hserial hidempotent hfailures hP
  have htrail := h.unfolds.trail
  have hlength : x.shared.errors.length = failed.length := by
    simpa using congrArg List.length hadvanced.fallen
  refine
    { listed := htrail.errors_eq
      ordered := by rw [hlength, hadvanced.take, hadvanced.fallen]
      asked := ?_
      written := fun n stage connection request hissued => ?_
      answered := fun n stage r answer hheard hstage hanswer => ?_
      failed := fun hall hne => ?_
      waits := fun hlt hnone => ?_ }
  · rw [hlength, hadvanced.tried, Act.tried, List.map_map]
    conv_lhs => rw [← List.map_id (acts.filterMap Act.trying?)]
    refine List.map_congr_left fun t ht => ?_
    obtain ⟨a, ha, htry⟩ := List.mem_filterMap.1 ht
    exact Prod.ext (hadvanced.single.fiber_eq htrail ha (Act.fiber?_of_trying htry)) rfl
  · obtain ⟨i, node, hbegan⟩ := htrail.began_of_issued hissued
    obtain rfl := hadvanced.single.fiber_eq htrail hbegan rfl
    refine ⟨node, ?_, hbegan⟩
    rw [hlength, hadvanced.tried]
    exact List.mem_map.2 ⟨_, List.mem_filterMap.2 ⟨_, hbegan, rfl⟩, rfl⟩
  · rw [hlength]
    exact h.advanced_answered hretry hadvanced hheard hstage hanswer
  · exact h.advanced_failed hadvanced hP (hlength ▸ hall) hne
  · rw [hlength] at hlt ⊢
    obtain ⟨hr, c, hp, hnode⟩ := h.advanced_waits hretry hadvanced hlt hnone
    exact ⟨hr, f, c, hadvanced.single.fibers, hp, hnode⟩

/-- **Failing over is complete.** For a statement that may be applied again, at a consistency that
is not serial and without speculation, the standard policy tries the nodes of the plan one after the
other as long as they fail in ways that pass it on or give no connection, in any mix and number. The
first node that answers with a result gives the execution's, and if none does, the execution fails
with a timeout if the last failure is one, and else for want of nodes. -/
theorem Reaches.fails_over {s : Session} {config : StatementConfig} {call : Call}
    (h : Reaches env (Terms.ofCall s config call).settings
      (Terms.ofCall s config call).speculation x acts)
    (hidempotent : config.idempotent = true)
    (hserial : (config.consistency.getD (s.profileOf config).consistency).isSerial = false)
    (hretry : (config.retry.getD (s.profileOf config).retry).rule = .standard)
    (hspeculation : (s.profileOf config).speculation = none)
    (hfailures : ∀ n i node e, .failed n i node e ∈ acts → e.passesOn = true) :
    (∃ P, x.PlanIs env acts P) ∧ ∀ P, x.PlanIs env acts P → x.FailsOver acts P := by
  obtain ⟨since, h⟩ := h.runs
  have hnone : (Terms.ofCall s config call).speculation = none := by
    simp [Terms.ofCall, hidempotent, hspeculation]
  rw [hnone] at h
  exact ⟨h.unfolds.planIs, fun P hP => h.failsOver hretry hserial hidempotent hfailures hP⟩

/-- The first node gives no connection, the second is overloaded, and the time of the third is up:
the fourth one's result is returned, or its failure is the fourth. -/
theorem Reaches.fails_over_mixed :
    let a := Node.sample "10.0.0.1" 0
    let b := Node.sample "10.0.0.2" 1
    let c := Node.sample "10.0.0.3" 2
    let d := Node.sample "10.0.0.4" 3
    (∃ (x : Execution) (acts : List Act) (info : ExecutionInfo), x.FailsOver acts [a, b, c, d] ∧
      x.result? = some (.ok (.void, info)) ∧ info.coordinator = some ⟨d, d.address⟩ ∧
      info.errors.map (·.1) = [a.address, b.address, c.address]) ∧
    ∃ (x : Execution) (acts : List Act) (info : ExecutionInfo), x.FailsOver acts [a, b, c, d] ∧
      x.result? = some (.error (.allNodesFailed info)) ∧ info.errors.length = 4 := by
  intro a b c d
  let env : Environment Unit := { Environment.steady [a, b, c, d] with
    connect := fun n w =>
      (if n.pool = 0 then .error .closed else .ok ⟨.pool n.pool, n.address⟩, w) }
  let config : StatementConfig := { StatementConfig.standard with idempotent := true }
  let terms := Terms.ofCall .plain config (.query "UPDATE t SET n = 1" .none .unpaged none)
  let answer (n : Nat) (r : Response) : List Event :=
    [.signal n .first .acknowledged, .signal n .first (.delivered (.ok r))]
  let mixed : List Event := answer 0 ⟨.error .overloaded "busy", .none⟩ ++ [.expire 1]
  let run (events : List Event) :=
    (Execution.start env terms.settings none 0 ()).execution.follow env terms.settings 0 ()
      (Execution.start env terms.settings none 0 ()).acts events
  have fails_over (events : List Event)
      (hall : ((run events).2.filterMap Act.blame?).all (·.2.passesOn) = true) :
      (run events).1.FailsOver (run events).2 [a, b, c, d] := by
    have hstart : Reaches env terms.settings terms.speculation _ _ := .start 0 ()
    obtain ⟨⟨P, hP⟩, hover⟩ := (hstart.follow 0 () events).fails_over rfl rfl rfl rfl
      fun n i node e ha => List.all_eq_true.1 hall (node.address, e)
        (List.mem_filterMap.2 ⟨_, ha, rfl⟩)
    obtain rfl : P = [a, b, c, d] := hP.eq_of_steady fun _ _ => by cbv
    exact hover _ hP
  constructor
  · let info : ExecutionInfo := { ExecutionInfo.empty with
      coordinator := some ⟨d, d.address⟩
      errors := [(a.address, .poolBroken .closed), (b.address, .refused .overloaded "busy"),
        (c.address, .timedOut (.ofMillis 50))]
      successIndex := some 0 }
    exact ⟨_, _, info, fails_over (mixed ++ answer 2 ⟨.result .void, .none⟩) (by cbv), by cbv, rfl,
      rfl⟩
  · let info : ExecutionInfo := { ExecutionInfo.empty with
      errors := [(a.address, .poolBroken .closed), (b.address, .refused .overloaded "busy"),
        (c.address, .timedOut (.ofMillis 50)), (d.address, .refused .truncateError "full")] }
    exact ⟨_, _, info, fails_over (mixed ++ answer 2 ⟨.error .truncateError "full", .none⟩)
      (by cbv), by cbv, rfl⟩

end Execution

end ClusterClient
