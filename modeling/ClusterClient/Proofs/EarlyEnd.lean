import ClusterClient.Proofs.Budget
import ClusterClient.Proofs.LastError

/-!
# Executions that end early

Failures are sorted twice. The standard policy goes by `classify`: a failure of some kind may be
retried. The race between the fibers of an execution goes by `AttemptError.mayDifferElsewhere`: a
fiber that gives up over a failure every node would return ends the execution for all of them. If a
failure were of a kind in the one table and blamed on the statement in the other, a fiber whose
session happens to have spent its retry would end fibers that may well succeed.

The tables agree (`classify_mayDifferElsewhere`), so no session of the standard policy goes on after
a failure that every node would return (`Budget.decide_of_everywhere`). Under any policies these are
the failures that end an execution while a fiber still waits or may be launched
(`Execution.Unfolds.early_error_iff`).
-/

namespace ClusterClient

/-! ## The two tables -/

/-- A failure of a kind that may be retried is one another node may well not return. -/
theorem classify_mayDifferElsewhere {error : AttemptError} {idempotent : Bool} {kind : Retryable}
    (h : classify error idempotent = some kind) : error.mayDifferElsewhere = true := by
  cases error with
  | poolBroken | writeFailed | connectionBroken | timedOut => rfl
  | idChanged | unexpected => cases h
  | refused error reason =>
    cases error with
    | unavailable | overloaded | isBootstrapping | truncateError | readTimeout | writeTimeout
    | readFailure | writeFailure | unprepared | serverError | other => rfl
    -- These blame the statement or the user, and are of no kind.
    | syntaxError | invalid | alreadyExists | unauthorized | protocolError | badCredentials
    | configError => cases h

namespace Budget

/-- What a session goes on after, in any state, is a failure another node may well not return. -/
theorem mayDifferElsewhere_of_decide (b : Budget) {r : Report} (h : (b.decide r).1 ≠ .stop) :
    r.error.mayDifferElsewhere = true := by
  cases hserial : r.consistency.isSerial with
  | true =>
    rw [decide_serial b hserial] at h
    exact absurd rfl h
  | false =>
    cases hc : classify r.error r.idempotent with
    | none =>
      rw [decide_eq b hserial, hc] at h
      exact absurd rfl h
    | some kind => exact classify_mayDifferElsewhere hc

/-- No session goes on after a failure that every node would return. -/
theorem decide_of_everywhere (b : Budget) {r : Report}
    (h : r.error.mayDifferElsewhere = false) : (b.decide r).1 = .stop := by
  by_contra hgoes
  rw [mayDifferElsewhere_of_decide b hgoes] at h
  cases h

end Budget

/-! ## What ends a race early -/

/-- The failures a race cannot ignore are those of fibers that gave up over what every node would
return. -/
theorem FiberFailure.ignorable_eq_false {failure : FiberFailure} :
    failure.ignorable = false ↔ ∃ e, failure = .gaveUp e ∧ e.mayDifferElsewhere = false := by
  cases failure <;> simp [ignorable]

/-- While a fiber runs, or one is left to launch, a race is decided exactly by a decisive ending. -/
theorem Race.Tally.early_verdict_iff {α : Type} {r : Race α} {es : List (Nat × Ending α)}
    (h : Tally r es) (hearly : 0 < r.running ∨ 0 < r.left) {v : Ending α} :
    r.verdict = some v ↔ v.decisive = true ∧ ∃ i, (i, v) ∈ es := by
  constructor
  · intro hv
    obtain ⟨before, last, hes, -, ⟨hyes, rfl⟩ | ⟨-, hrunning, hleft, -⟩⟩ := h.decided v hv
    · exact ⟨hyes, last.1, by simp [hes]⟩
    · -- The other way to a verdict is that nothing is left to do.
      omega
  · rintro ⟨hdecisive, i, hi⟩
    obtain ⟨before, after, hes⟩ := List.append_of_mem hi
    exact (h.verdict_of_decisive hes hdecisive).2

namespace Execution

variable {ω : Type} {env : Environment ω} {settings : Settings} {speculation : Option Speculation}
  {since : Nat} {x : Execution} {acts : List Act}

/-- While a fiber waits, or may be launched, an execution is decided exactly by a fiber that ended
in a success, or in a failure every node would return. -/
theorem Unfolds.early_verdict_iff (h : Unfolds env settings speculation since x acts)
    (hearly : x.Waits ∨ 0 < x.race.left) {v : Ending Success} :
    x.race.verdict = some v ↔ v.decisive = true ∧ ∃ f ∈ x.fibers, f.phase = .ended v := by
  obtain ⟨es, hracing⟩ := h.racing
  have hopen : 0 < x.race.running ∨ 0 < x.race.left :=
    hearly.imp_left fun hwaits => Nat.pos_of_ne_zero fun h0 => hracing.not_waits h0 hwaits
  have hended : (∃ i, (i, v) ∈ es) ↔ ∃ f ∈ x.fibers, f.phase = .ended v := by
    simp only [hracing.ended, List.mem_iff_getElem?]
    exact ⟨fun ⟨i, f, hf, hp⟩ => ⟨f, ⟨i, hf⟩, hp⟩, fun ⟨f, ⟨i, hf⟩, hp⟩ => ⟨i, f, hf, hp⟩⟩
  rw [hracing.runs.tally.early_verdict_iff hopen, hended]

/-- A failure that every node would return is given as that of the last attempt. -/
theorem failure_of_everywhere {e : AttemptError} (h : e.mayDifferElsewhere = false)
    (info : ExecutionInfo) : failure (.gaveUp e) info = .lastAttempt e info := by
  cases e with
  | timedOut limit => cases h
  | _ => rfl

/-- **What an execution fails with early**, while a fiber waits or may be launched, is exactly an
error that one of its fibers gave up over and that every node would return. -/
theorem Unfolds.early_error_iff (h : Unfolds env settings speculation since x acts)
    (hearly : x.Waits ∨ 0 < x.race.left) {e : ExecutionError} :
    x.result? = some (.error e) ↔ ∃ error, e = .lastAttempt error x.info ∧
      error.mayDifferElsewhere = false ∧
      ∃ f ∈ x.fibers, f.phase = .ended (.failed (.gaveUp error)) := by
  rw [result?_eq_error]
  constructor
  · rintro (⟨failure, hv, rfl⟩ | ⟨hidle, -⟩)
    · obtain ⟨hdecisive, hended⟩ := (h.early_verdict_iff hearly).1 hv
      obtain ⟨error, rfl, heverywhere⟩ :=
        FiberFailure.ignorable_eq_false.1 (by simpa [Ending.decisive] using hdecisive)
      exact ⟨error, failure_of_everywhere heverywhere x.info, heverywhere, hended⟩
    · -- No ending that finds no node decides a race at once.
      cases ((h.early_verdict_iff hearly).1 hidle).1
  · rintro ⟨error, rfl, heverywhere, hended⟩
    refine .inl ⟨.gaveUp error, (h.early_verdict_iff hearly).2 ⟨?_, hended⟩,
      (failure_of_everywhere heverywhere x.info).symm⟩
    simp [Ending.decisive, FiberFailure.ignorable, heverywhere]

/-- **A failure that may be retried never ends an execution early.** What a session of the standard
policy goes on after, whatever is left of its budget and whatever the report says, is a failure
another node may well not return. So if an execution under that policy fails while a fiber still
waits, or may still be launched, it fails with an error that one of its fibers gave up over, and no
session would have gone on after that error in any state: none of its fibers' sessions, whatever it
had been told before. -/
theorem retried_never_ends_early :
    (∀ (b : Budget) (r : Report), (b.decide r).1 ≠ .stop → r.error.mayDifferElsewhere = true) ∧
    ∀ {ω : Type} {env : Environment ω} {settings : Settings} {speculation : Option Speculation}
      {x : Execution} {acts : List Act},
      Reaches env settings speculation x acts → settings.retry = .standard →
      ∀ e : ExecutionError, x.result? = some (.error e) → x.Waits ∨ 0 < x.race.left →
        ∃ error, e = .lastAttempt error x.info ∧
          (∃ f ∈ x.fibers, f.phase = .ended (.failed (.gaveUp error))) ∧
          error.mayDifferElsewhere = false ∧
          (∀ (b : Budget) (r : Report), r.error = error → (b.decide r).1 = .stop) ∧
          ∀ f ∈ x.fibers, ∀ (told : List Report) (lore : Lore) (r : Report), r.error = error →
            ({ f.session with told := told }.answer lore r).1 = .stop := by
  refine ⟨fun b r => b.mayDifferElsewhere_of_decide, ?_⟩
  intro ω env settings speculation x acts h hretry e hresult hearly
  obtain ⟨since, hruns⟩ := h.runs
  obtain ⟨error, rfl, heverywhere, hended⟩ := (hruns.unfolds.early_error_iff hearly).1 hresult
  have hstops (b : Budget) (r : Report) (hr : r.error = error) : (b.decide r).1 = .stop :=
    b.decide_of_everywhere (hr ▸ heverywhere)
  refine ⟨error, rfl, hended, heverywhere, hstops, fun f hf told lore r hr => ?_⟩
  obtain ⟨i, hi⟩ := List.mem_iff_getElem?.1 hf
  have hrule : f.session.rule = .standard := (hruns.rule_eq hi).trans hretry
  simpa [RetrySession.answer, hrule, RetryRule.decide] using hstops (.after told) r hr

/-- The second fiber gives up for want of replicas, its one retry for that being spent, and the
execution goes on. The third one is refused for the syntax, and ends it while the first one still
waits and a fourth might be launched. -/
theorem retried_never_ends_early_unavailable_twice :
    let nodes := [Node.sample "10.0.0.1" 0, Node.sample "10.0.0.2" 1, Node.sample "10.0.0.3" 2,
      Node.sample "10.0.0.4" 3]
    let unavailable : AttemptError := .refused (.unavailable .two 2 1) "down"
    let syntaxError : AttemptError := .refused .syntaxError "no viable alternative"
    unavailable.mayDifferElsewhere = true ∧ ∃ (x y : Execution) (info : ExecutionInfo),
      x.shared.errors = [(nodes[1].address, unavailable), (nodes[2].address, unavailable)] ∧
      x.fibers.map (·.current?.isSome) = [true, false] ∧ x.result?.isNone = true ∧
      y.result? = some (.error (.lastAttempt syntaxError info)) ∧ y.Waits ∧
      y.fibers.map (·.current?.isSome) = [true, false, false] ∧ y.race.left = 1 ∧
      ∀ f ∈ y.fibers, ∀ (told : List Report) (lore : Lore) (r : Report), r.error = syntaxError →
        ({ f.session with told := told }.answer lore r).1 = .stop := by
  intro nodes unavailable syntaxError
  obtain ⟨htables, hearly⟩ := retried_never_ends_early
  have hmay := htables .full ⟨unavailable, true, .two, true, 0⟩ (by decide)
  let env := Environment.steady nodes
  let settings : Settings :=
    ⟨.query "SELECT v FROM t" .none .unpaged none, ⟨.two, true⟩, some 50, .standard⟩
  let speculation : Option Speculation := some ⟨3, 100⟩
  let refuse (n : Nat) (error : ServerError) (reason : String) : List Event :=
    [.signal n .first .acknowledged,
      .signal n .first (.delivered (.ok ⟨.error error reason, .none⟩))]
  let lacking : List Event :=
    .launch :: (refuse 1 (.unavailable .two 2 1) "down" ++ refuse 2 (.unavailable .two 2 1) "down")
  let events : List Event := lacking ++ .launch :: refuse 3 .syntaxError "no viable alternative"
  have hstart : Reaches env settings speculation _ _ := .start 0 ()
  have hrun := hstart.follow 0 () events
  let after (events : List Event) : Execution × List Act :=
    (Execution.start env settings speculation 0 ()).execution.follow env settings 0 ()
      (Execution.start env settings speculation 0 ()).acts events
  let info : ExecutionInfo := { ExecutionInfo.empty with
    errors := [(nodes[1].address, unavailable), (nodes[2].address, unavailable),
      (nodes[3].address, syntaxError)]
    speculative := 2 }
  have hresult : (after events).1.result? = some (.error (.lastAttempt syntaxError info)) := by cbv
  have hwaits : (after events).1.Waits := by
    have hfirst : ((after events).1.fibers[0]?.bind Fiber.current?).isSome = true := by cbv
    obtain ⟨c, hc⟩ := Option.isSome_iff_exists.1 hfirst
    obtain ⟨f, hf, -⟩ := Option.bind_eq_some_iff.1 hc
    cases hp : f.phase with
    | attempting c => exact ⟨0, f, c, hf, hp⟩
    | ended e => simp [hf, Fiber.current?, hp] at hfirst
  obtain ⟨error, heq, -, -, -, hstops⟩ := hearly hrun rfl _ hresult (.inl hwaits)
  obtain ⟨rfl, -⟩ := ExecutionError.lastAttempt.inj heq
  exact ⟨hmay, (after lacking).1, (after events).1, info, by cbv, by cbv, by cbv, hresult, hwaits,
    by cbv, by cbv, hstops⟩

end Execution

end ClusterClient
