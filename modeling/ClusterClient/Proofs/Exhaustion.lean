import ClusterClient.Proofs.Itinerary
import ClusterClient.Proofs.LastError

/-!
# Plans that come to their end

An execution fails for want of nodes in two ways: its plan was empty from the start, or every node
of it was tried and failed. `Execution.Arises.exhaustion` says that it reports the one or the other
only if it is so.

Both come from how a race is decided without a decisive ending (`Race.Tally.ran_out`): every fiber
has ended, so each attempt that began has too (`Execution.Unfolds.noted`), and the fiber that found
no further node saw the end of the plan (`Trail.spent`).
-/

namespace ClusterClient

/-- A race that is decided by no decisive ending has seen all its fibers end, and is decided as one
of them ended; and if it found no node, none of them did. -/
theorem Race.Tally.ran_out {α : Type} {r : Race α} {es : List (Nat × Ending α)} (h : Tally r es)
    {v : Ending α} (hv : r.verdict = some v) (hd : v.decisive = false) :
    r.running = 0 ∧ (∃ i, (i, v) ∈ es) ∧ (v = .idle → ∀ e ∈ es, e.2 = .idle) := by
  obtain ⟨before, last, hes, hbefore, ⟨hyes, rfl⟩ | ⟨hlast, hrunning, -, heq⟩⟩ := h.decided v hv
  · rw [hyes] at hd
    cases hd
  have hall : ∀ e ∈ es, e.2.decisive = false := by
    intro e he
    rw [hes, List.mem_append, List.mem_singleton] at he
    rcases he with he | rfl
    · exact hbefore e he
    · exact hlast
  have hidle : v = .idle → ∀ e ∈ es, e.2 = .idle := by
    rintro rfl
    exact (Ending.lastFailure_eq_none hall).1 heq.symm
  refine ⟨hrunning, ?_, hidle⟩
  cases hkept : Ending.lastFailure (es.map (·.2)) with
  | none =>
    rw [hkept] at heq
    have hmem : last ∈ es := by simp [hes]
    rw [heq, Ending.ofFailure, ← hidle heq last hmem]
    exact ⟨last.1, hmem⟩
  | some f =>
    rw [hkept] at heq
    obtain ⟨e, he, hfailure⟩ := List.mem_filterMap.1 (List.mem_of_getLast? hkept)
    obtain ⟨p, hp, rfl⟩ := List.mem_map.1 he
    refine ⟨p.1, ?_⟩
    have hfailed : p.2 = .failed f := by
      cases hending : p.2 <;> simp_all [Ending.failure?]
    rw [heq, Ending.ofFailure, ← hfailed]
    exact hp

namespace Trail

variable {ω : Type} {env : Environment ω} {settings : Settings} {acts : List Act} {s : Shared}
  {ps : List Pose} {p : Pose} {i : Nat}

/-- A failure is noted of a node that was taken. -/
theorem took_of_failure (h : Trail env settings acts s ps) {address : Address} {e : AttemptError}
    (he : (address, e) ∈ s.errors) : ∃ node ∈ Act.taken acts, node.address = address := by
  rw [h.errors_eq, List.mem_filterMap] at he
  obtain ⟨a, ha, hfailure⟩ := he
  cases a with
  | poolFailed i node cause =>
    cases hfailure
    exact ⟨node, Act.mem_taken_of_took (h.took_of_trying ha rfl), rfl⟩
  | failed n i node error =>
    cases hfailure
    obtain ⟨connection, hbegan⟩ := h.began_of_failed ha
    exact ⟨node, Act.mem_taken_of_took (h.took_of_trying hbegan rfl), rfl⟩
  | _ => cases hfailure

end Trail

namespace Execution

variable {ω : Type} {env : Environment ω} {settings : Settings} {speculation : Option Speculation}
  {since : Nat} {x : Execution} {acts : List Act} {P : List Node}

/-- An execution that took no node is decided at once. -/
theorem Unfolds.idle_of_untaken (h : Unfolds env settings speculation since x acts)
    (htaken : Act.taken acts = []) : x.race.verdict = some .idle := by
  induction h with
  | first rule hseek =>
    cases hseek with
    | exhausted hd hn => rfl
    | begins | refused => simp [Act.taking?] at htaken
  | launch rule _ hmay _ ih =>
    rw [Act.taken_append, List.append_eq_nil_iff] at htaken
    have hv := ih htaken.1
    rw [((Race.mayLaunch_iff _).1 hmay).1] at hv
    cases hv
  | turn rule _ hr _ _ _ ih =>
    rw [Act.taken_append, List.append_eq_nil_iff] at htaken
    have hv := ih htaken.1
    rw [hr] at hv
    cases hv

/-- Who took a node is a fiber, and stands where it went. -/
theorem Unfolds.taker (h : Unfolds env settings speculation since x acts) {i : Nat} {node : Node}
    (htook : .took i node ∈ acts) :
    ∃ f, x.fibers[i]? = some f ∧ f.index = i ∧ f.pose.Placed (Act.ofFiber i acts) := by
  have hlt : i < x.fibers.length := by
    simpa using h.trail.fiber_lt htook rfl
  have hpose : (x.fibers.map Fiber.pose)[i]? = some x.fibers[i].pose := by
    simp [hlt]
  exact ⟨x.fibers[i], List.getElem?_eq_getElem hlt, h.trail.index_eq hpose, h.trail.placed hpose⟩

/-- After a turn a fiber asked every node it took for a connection. -/
theorem Unfolds.tried (h : Unfolds env settings speculation since x acts) {i : Nat} {node : Node}
    (htook : .took i node ∈ acts) : ∃ a ∈ acts, a.trying? = some (i, node) := by
  obtain ⟨f, -, hi, hplaced⟩ := h.taker htook
  rcases hplaced.tried node (Act.mem_takenBy.2 htook) with hvisit | ⟨a, ha, htry⟩
  · -- A turn ends with the fiber waiting or done.
    cases hp : f.phase <;> simp [hp] at hvisit
  · exact ⟨a, (Act.mem_ofFiber.1 ha).1, hi ▸ htry⟩

/-- Once no fiber waits, an attempt that was begun has ended. -/
theorem Unfolds.ended (h : Unfolds env settings speculation since x acts) (hwaits : ¬ x.Waits)
    {n i : Nat} {node : Node} {connection : Connection}
    (hbegan : .began n i node connection ∈ acts) : ∃ a ∈ acts, a.ends n = true := by
  have hidle : (x.fibers.map Fiber.pose).countP (·.stance.waitsFor n) = 0 := by
    rw [List.countP_eq_zero]
    rintro p hp hw
    obtain ⟨f, hf, rfl⟩ := List.mem_map.1 hp
    obtain ⟨j, hj⟩ := List.mem_iff_getElem?.1 hf
    cases hphase : f.phase with
    | attempting c => exact hwaits ⟨j, f, c, hj, hphase⟩
    | ended e => simp [hphase] at hw
  have hcount : 0 < (acts.filterMap Act.begun?).count n :=
    List.count_pos_iff.2 (List.mem_filterMap.2 ⟨_, hbegan, rfl⟩)
  have hbalance := h.trail.balance n
  exact List.countP_pos_iff.1 (by omega)

/-- Once no fiber waits and none has claimed the result, each node that was taken has a failure
noted. -/
theorem Unfolds.noted (h : Unfolds env settings speculation since x acts) (hwaits : ¬ x.Waits)
    (hclaims : acts.countP Act.claims = 0) {node : Node} (hnode : node ∈ Act.taken acts) :
    ∃ e, (node.address, e) ∈ x.shared.errors := by
  have noted {a : Act} {e : AttemptError} (ha : a ∈ acts)
      (hfailure : a.failure? = some (node.address, e)) :
      ∃ e, (node.address, e) ∈ x.shared.errors := by
    rw [h.trail.errors_eq]
    exact ⟨e, List.mem_filterMap.2 ⟨a, ha, hfailure⟩⟩
  obtain ⟨⟨i, other⟩, htaking, heq⟩ := List.mem_map.1 hnode
  obtain rfl : other = node := heq
  obtain ⟨a, ha, htry⟩ := h.tried (Act.mem_taking.1 htaking)
  cases a with
  | poolFailed j _ cause =>
    cases htry
    exact noted ha rfl
  | began n j _ connection =>
    cases htry
    obtain ⟨b, hb, hends⟩ := h.ended hwaits ha
    cases b with
    | failed m j last error =>
      obtain rfl : m = n := by simpa [Act.ends] using hends
      -- It is the same attempt, so it is a failure of the same node.
      obtain ⟨d, hbegan⟩ := h.trail.began_of_failed hb
      obtain ⟨-, rfl, -⟩ := h.trail.began_unique ha hbegan
      exact noted hb rfl
    | succeeded m j last =>
      -- A success would have claimed the result.
      have hsucceeds : 0 < acts.countP Act.succeeds := List.countP_pos_iff.2 ⟨_, hb, rfl⟩
      have := h.trail.claims_eq
      omega
    | _ => cases hends
  | _ => cases htry

/-- If a race ends for want of nodes, no fiber waits any more and the plan has come to its end. -/
theorem Unfolds.spent (h : Unfolds env settings speculation since x acts) {v : Ending Success}
    (hv : x.race.verdict = some v) (hstarved : v = .idle ∨ ∃ e, v = .failed (.planExhausted e)) :
    ¬ x.Waits ∧ x.shared.plan.Spent env.chooser := by
  obtain ⟨es, hracing⟩ := h.racing
  have hd : v.decisive = false := by
    rcases hstarved with rfl | ⟨e, rfl⟩ <;> rfl
  obtain ⟨hrunning, ⟨i, hi⟩, -⟩ := hracing.runs.tally.ran_out hv hd
  obtain ⟨f, hf, hp⟩ := (hracing.ended i v).1 hi
  have hpose : (x.fibers.map Fiber.pose)[i]? = some f.pose := by
    simp [hf]
  refine ⟨hracing.not_waits hrunning, h.trail.spent hpose ?_⟩
  simpa [Pose.Starved, hp] using hstarved

/-- An execution that found no node took none. -/
theorem Unfolds.untaken_of_idle (h : Unfolds env settings speculation since x acts)
    (hv : x.race.verdict = some .idle) : Act.taken acts = [] := by
  obtain ⟨es, hracing⟩ := h.racing
  obtain ⟨hrunning, -, hidle⟩ := hracing.runs.tally.ran_out hv rfl
  rw [List.eq_nil_iff_forall_not_mem]
  intro node hnode
  obtain ⟨⟨i, _⟩, htaking, -⟩ := List.mem_map.1 hnode
  have htook := Act.mem_taking.1 htaking
  obtain ⟨f, hf, -, hplaced⟩ := h.taker htook
  have hended : f.phase = .ended .idle := by
    cases hp : f.phase with
    | attempting c => exact absurd ⟨i, f, c, hf, hp⟩ (hracing.not_waits hrunning)
    | ended e => exact congrArg Phase.ended (hidle rfl (i, e) ((hracing.ended i e).2 ⟨f, hf, hp⟩))
  -- The taking is an act of the fiber, which did nothing.
  have hmem := Act.mem_ofFiber.2 ⟨htook, rfl⟩
  rw [hplaced.idle (by simp [hended]), List.mem_singleton] at hmem
  cases hmem

/-- Every node is said to have failed only if a fiber got no further node. -/
theorem failure_eq_allNodesFailed {f : FiberFailure} {info i : ExecutionInfo}
    (h : failure f info = .allNodesFailed i) : (∃ e, f = .planExhausted e) ∧ i = info := by
  cases f with
  | gaveUp e => cases e <;> simp [failure] at h
  | planExhausted e => cases e <;> simp_all [failure]

theorem Unfolds.emptyPlan_iff (h : Unfolds env settings speculation since x acts)
    (hP : x.PlanIs env acts P) : x.result? = some (.error .emptyPlan) ↔ P = [] := by
  have hresult : x.result? = some (.error .emptyPlan) ↔ x.race.verdict = some .idle := by
    rw [result?_eq_error]
    constructor
    · rintro (⟨f, -, hf⟩ | ⟨hv, -⟩)
      · have := failure_info? f x.info
        rw [← hf] at this
        cases this
      · exact hv
    · exact fun hv => .inr ⟨hv, rfl⟩
  rw [hresult]
  constructor
  · intro hv
    rw [← hP.taken_eq (h.spent hv (.inl rfl)).2, h.untaken_of_idle hv]
  · intro hnone
    obtain ⟨rest, -, hnodes⟩ := hP.handed
    rw [hnone] at hnodes
    exact h.idle_of_untaken (List.append_eq_nil_iff.1 hnodes.symm).1

/-- **An execution reports what became of its plan.** It reports an empty plan exactly if that is
empty, and then wrote nothing and noted no failure. If it reports that every node failed, all nodes
of the plan were taken, each of them has a failure listed, and no other node has. -/
theorem Arises.exhaustion (h : Arises env settings speculation x acts) :
    (∃ P, x.PlanIs env acts P) ∧ ∀ P, x.PlanIs env acts P →
      (x.result? = some (.error .emptyPlan) ↔ P = []) ∧
      (P = [] → x.shared.errors = [] ∧
        ∀ n stage connection request, .issued n stage connection request ∉ acts) ∧
      ∀ info, x.result? = some (.error (.allNodesFailed info)) →
        Act.taken acts = P ∧ (∀ node ∈ P, ∃ e, (node.address, e) ∈ info.errors) ∧
          ∀ address e, (address, e) ∈ info.errors → ∃ node ∈ P, node.address = address := by
  obtain ⟨since, h⟩ := h.unfolds
  refine ⟨h.planIs, fun P hP => ⟨h.emptyPlan_iff hP, ?_, ?_⟩⟩
  · rintro rfl
    obtain ⟨rest, -, hnodes⟩ := hP.handed
    have huntaken : Act.taken acts = [] := (List.append_eq_nil_iff.1 hnodes.symm).1
    refine ⟨List.eq_nil_iff_forall_not_mem.2 fun ⟨address, e⟩ he => ?_, ?_⟩
    · obtain ⟨node, hnode, -⟩ := h.trail.took_of_failure he
      simp [huntaken] at hnode
    · intro n stage connection request hissued
      obtain ⟨i, node, -, htook⟩ := (h.shared_out hP).written n stage connection request hissued
      have hnode := Act.mem_taken_of_took (Act.mem_takenBy.1 htook)
      simp [huntaken] at hnode
  · intro info hr
    obtain ⟨f, hv, hf⟩ | ⟨-, hempty⟩ := result?_eq_error.1 hr
    · obtain ⟨⟨e, rfl⟩, rfl⟩ := failure_eq_allNodesFailed hf.symm
      obtain ⟨hwaits, hspent⟩ := h.spent hv (.inr ⟨e, rfl⟩)
      have hclaims := h.standing.claimless (by simp [hv])
      have htaken := hP.taken_eq hspent
      refine ⟨htaken, fun node hnode => h.noted hwaits hclaims (htaken ▸ hnode), ?_⟩
      intro address error herror
      rw [← htaken]
      exact h.trail.took_of_failure herror
    · cases hempty

/-- Two fibers are refused by a node each and find no other one; without nodes a fiber finds none at
all. -/
theorem Arises.exhaustion_two_fibers :
    let a := Node.sample "10.0.0.1" 0
    let b := Node.sample "10.0.0.2" 1
    (∃ (x : Execution) (info : ExecutionInfo),
      x.result? = some (.error (.allNodesFailed info)) ∧ x.fibers.length = 2 ∧
      ∀ node ∈ [a, b], ∃ e, (node.address, e) ∈ info.errors) ∧
    ∃ x : Execution, x.result? = some (.error .emptyPlan) := by
  intro a b
  let settings : Settings :=
    ⟨.query "SELECT v FROM t" .none .unpaged none, ⟨.one, true⟩, some 50,
      .scripted [.nextNode none]⟩
  let speculation : Option Speculation := some ⟨1, 100⟩
  let refuse (n : Nat) : List Event := [.signal n .first .acknowledged,
    .signal n .first (.delivered (.ok ⟨.error .overloaded "busy", .none⟩))]
  constructor
  · let env := Environment.steady [a, b]
    let events : List Event := .launch :: refuse 0 ++ refuse 1
    have hstart : Reaches env settings speculation _ _ := .start 0 ()
    obtain ⟨⟨P, hP⟩, hreports⟩ := (hstart.follow 0 () events).arises.exhaustion
    obtain rfl : P = [a, b] := hP.eq_of_steady fun _ _ => by cbv
    obtain ⟨-, -, hfailed⟩ := hreports _ hP
    let run := (Execution.start env settings speculation 0 ()).execution.follow env settings 0 ()
      (Execution.start env settings speculation 0 ()).acts events
    let info : ExecutionInfo := { ExecutionInfo.empty with
      errors := [(a.address, .refused .overloaded "busy"), (b.address, .refused .overloaded "busy")]
      speculative := 1 }
    have hresult : run.1.result? = some (.error (.allNodesFailed info)) := by cbv
    exact ⟨run.1, info, hresult, by cbv, (hfailed info hresult).2.1⟩
  · have hstart : Reaches (Environment.steady []) settings speculation _ _ := .start 0 ()
    obtain ⟨⟨P, hP⟩, hreports⟩ := hstart.arises.exhaustion
    exact ⟨_, (hreports P hP).1.2 (hP.eq_of_steady fun _ _ => rfl)⟩

end Execution

end ClusterClient
