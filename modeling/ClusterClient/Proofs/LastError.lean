import ClusterClient.Proofs.Winner

/-!
# The last error of an execution

The error an execution fails with and the failures it lists come by different ways: the fibers note
failures as they happen, and the race between them keeps the failure a fiber last ended with.

`Execution.Abreast` says how the two keep abreast, and `Execution.Unfolds.abreast` that they always
do. A fiber that ends in a failure has just noted it, with no other fiber in between, and one that
finds no node to try notes nothing (`Turn.Telling`). So the error an execution fails with is the
last one it lists (`Execution.Arises.last_error`).
-/

namespace ClusterClient

/-- The failure noted last. -/
def Shared.lastNoted? (s : Shared) : Option AttemptError :=
  s.errors.getLast?.map (·.2)

@[simp] theorem Shared.lastNoted?_concat (s : Shared) (plan : Plan) (node : Address)
    (error : AttemptError) :
    lastNoted? { s with plan := plan, errors := s.errors ++ [(node, error)] } = some error := by
  simp [lastNoted?]

/-- A turn that ends in a failure has noted it last, and one that found no node to try is silent. -/
structure Turn.Telling {ω : Type} (silent : Prop) (t : Turn ω) : Prop where
  failed : ∀ failure, t.fiber.phase = .ended (.failed failure) →
    t.shared.lastNoted? = some failure.error
  idle : t.fiber.phase = .ended .idle → silent

namespace Fiber

variable {ω : Type} {env : Environment ω} {settings : Settings} {now : Nat} {f : Fiber}
  {c : Current} {s : Shared} {w : ω} {t : Turn ω}

/-- A fiber that takes nodes finds none to try only if it never failed, and then notes nothing. -/
theorem Seeks.telling (h : Seeks env settings now f s w t)
    (hf : ∀ e, f.lastError = some e → s.lastNoted? = some e) :
    t.Telling (f.lastError = none ∧ t.shared.errors = s.errors) := by
  induction h with
  | @exhausted f s w d hd hn =>
    cases he : f.lastError with
    | none => exact ⟨by simp [Fiber.exhausted, he], by simp⟩
    | some e =>
      refine ⟨fun failure hp => ?_, by simp [Fiber.exhausted, he]⟩
      simp only [Fiber.exhausted, he, Phase.ended.injEq, Ending.failed.injEq] at hp
      subst hp
      exact hf e he
  | begins hd hn hc => exact ⟨by simp [begin], by simp [begin]⟩
  | refused hd hn hc _ ih =>
    obtain ⟨hfailed, hidle⟩ := ih (by simp)
    refine ⟨hfailed, fun hp => ?_⟩
    -- After a refusal there is a failure to end with.
    cases (hidle hp).1

/-- A fiber that goes on after a failure ends in one, if it ends. -/
theorem Seeks.telling_failed (h : Seeks env settings now f s w t) {e : AttemptError}
    (hf : f.lastError = some e) (hs : s.lastNoted? = some e) : t.Telling False := by
  obtain ⟨hfailed, hidle⟩ := h.telling fun e' he' => by
    rw [hs, ← hf, he']
  refine ⟨hfailed, fun hp => ?_⟩
  rw [(hidle hp).1] at hf
  cases hf

/-- A fiber that waited for an attempt ends in a failure it has just noted, if it fails. -/
theorem Takes.telling (h : Takes env settings now f c s w t) : t.Telling False := by
  cases h with
  | waits he hr | sends he hr | succeeds he hr => exact ⟨by simp, by simp⟩
  | @fails error acts decision t hf hd ho =>
    suffices ht : t.Telling False from ⟨ht.failed, ht.idle⟩
    cases ho with
    | stop =>
      refine ⟨fun failure hp => ?_, by simp⟩
      cases hp
      simp [FiberFailure.error]
    | ignore => exact ⟨by simp, by simp⟩
    | again hc => exact ⟨by simp [begin], by simp [begin]⟩
    | @onward _ cause _ t hc hseek =>
      have ht : t.Telling False := hseek.telling_failed rfl (Shared.lastNoted?_concat ..)
      exact ⟨ht.failed, ht.idle⟩
    | next hseek => exact hseek.telling_failed rfl (by simp)

end Fiber

/-- What a failure makes of an open race: the race keeps it, or is decided by it. -/
theorem Race.finish_failed {r : Race Success} (hr : r.verdict = none) (failure : FiberFailure) :
    ((r.finish (.failed failure)).verdict = none ∧
        (r.finish (.failed failure)).lastFailure = some failure) ∨
      (r.finish (.failed failure)).verdict = some (.failed failure) := by
  cases h : Ending.decisive (.failed failure : Ending Success) with
  | true =>
    rw [finish_decisive r h]
    exact .inr rfl
  | false =>
    rw [finish_indecisive r h, close_eq]
    split
    · exact .inr rfl
    · exact .inl ⟨hr, rfl⟩

/-- What a fiber that found no node makes of an open race: it stays open, or it is decided by the
failure it keeps, as no other fiber runs. -/
theorem Race.finish_idle {r : Race Success} (hr : r.verdict = none) :
    (r.finish .idle).lastFailure = r.lastFailure ∧
      ((r.finish .idle).verdict = none ∨ (r.finish .idle).running = 0 ∧
        (r.finish .idle).verdict = some (.ofFailure r.lastFailure)) := by
  rw [finish_indecisive r rfl, close_eq]
  split
  · next hdone => exact ⟨rfl, .inr ⟨hdone.1, rfl⟩⟩
  · exact ⟨rfl, .inl hr⟩

namespace Execution

variable {ω : Type} {env : Environment ω} {settings : Settings} {speculation : Option Speculation}
  {since : Nat} {x : Execution} {acts : List Act} {t : Turn ω}

/-- Whether a fiber waits for an attempt. -/
def Waits (x : Execution) : Prop :=
  ∃ (i : Nat) (f : Fiber) (c : Current), x.fibers[i]? = some f ∧ f.phase = .attempting c

/-- The failure the race keeps is the one noted last, unless a fiber still waits, and the one it is
decided by is the one noted last. -/
structure Abreast (x : Execution) : Prop where
  undecided : x.race.verdict = none →
    x.Waits ∨ x.race.lastFailure.map FiberFailure.error = x.shared.lastNoted?
  failed : ∀ failure, x.race.verdict = some (.failed failure) →
    x.shared.lastNoted? = some failure.error

/-- No fiber waits once none runs. -/
theorem Racing.not_waits {es : List (Nat × Ending Success)} (h : Racing speculation since x es)
    (hrunning : x.race.running = 0) : ¬ x.Waits := by
  rintro ⟨i, f, c, hf, hc⟩
  have hlaunched : i < x.race.launched := h.launched ▸ (List.getElem?_eq_some_iff.1 hf).1
  have hpos : 0 < x.race.running := by
    refine h.runs.tally.running_iff.2 ⟨i, hlaunched, fun hmem => ?_⟩
    obtain ⟨⟨i, e⟩, hpair, rfl⟩ := List.mem_map.1 hmem
    obtain ⟨g, hg, he⟩ := (h.ended i e).1 hpair
    rw [hf] at hg
    cases hg
    rw [hc] at he
    cases he
  omega

/-- A turn that tells its failures keeps an execution abreast. If its fiber found no node, the
others were abreast before. -/
theorem Abreast.settle (hr : x.race.verdict = none) (hi : t.fiber.index < x.fibers.length)
    (hdone : (x.settle t).execution.race.running = 0 → ¬ (x.settle t).execution.Waits)
    (ht : t.Telling ((∃ (i : Nat) (f : Fiber) (c : Current),
        i ≠ t.fiber.index ∧ x.fibers[i]? = some f ∧ f.phase = .attempting c) ∨
      x.race.lastFailure.map FiberFailure.error = t.shared.lastNoted?)) :
    (x.settle t).execution.Abreast := by
  cases hp : t.fiber.phase with
  | attempting c =>
    have hself : (x.settle t).execution.fibers[t.fiber.index]? = some t.fiber := by
      simp [hi]
    exact ⟨fun _ => .inl ⟨_, _, c, hself, hp⟩, by simp [settle_race_attempting hp, hr]⟩
  | ended e =>
    have hrace := settle_race_ended (x := x) hp
    cases e with
    | succeeded v =>
      have hv := (settle_verdict_succeeded hr v).2 hp
      exact ⟨by simp [hv], by simp [hv]⟩
    | failed failure =>
      have hnoted := ht.failed failure hp
      rcases Race.finish_failed hr failure with ⟨hopen, hlast⟩ | hv
      · exact ⟨fun _ => .inr (by simp [hrace, hlast, hnoted]), by simp [hrace, hopen]⟩
      · exact ⟨by simp [hrace, hv], by simp [hrace, hv, hnoted]⟩
    | idle =>
      have hothers : (x.settle t).execution.Waits ∨
          x.race.lastFailure.map FiberFailure.error = t.shared.lastNoted? := by
        refine (ht.idle hp).imp_left fun ⟨i, f, c, hne, hf, hc⟩ => ⟨i, f, c, ?_, hc⟩
        rw [settle_fibers, List.getElem?_set_ne (Ne.symm hne), hf]
      obtain ⟨hlast, hopen | ⟨hrunning, hv⟩⟩ := Race.finish_idle hr
      · exact ⟨fun _ => by rwa [hrace, hlast], by simp [hrace, hopen]⟩
      · refine ⟨by simp [hrace, hv], fun failure hfailed => ?_⟩
        have heq := hothers.resolve_left (hdone (by rw [hrace, hrunning]))
        rw [hrace, hv, Option.some.injEq] at hfailed
        cases hkept : x.race.lastFailure with
        | none => simp [hkept, Ending.ofFailure] at hfailed
        | some kept =>
          simp only [hkept, Ending.ofFailure, Ending.failed.injEq] at hfailed
          rw [settle_shared, ← heq, hkept, hfailed]
          rfl

/-- **Every execution is abreast of its failures.** -/
theorem Unfolds.abreast (h : Unfolds env settings speculation since x acts) : x.Abreast := by
  have hdone {x : Execution} {acts : List Act}
      (h : Unfolds env settings speculation since x acts) : x.race.running = 0 → ¬ x.Waits := by
    obtain ⟨es, hracing⟩ := h.racing
    exact hracing.not_waits
  induction h with
  | first rule hseek =>
    have hi := hseek.frame.1
    obtain ⟨hfailed, hidle⟩ := hseek.telling (by simp [Fiber.fresh])
    refine .settle rfl (by simp [fork, hi, Fiber.fresh]) (hdone (.first rule hseek)) ⟨hfailed, ?_⟩
    intro hp
    right
    simp [Shared.lastNoted?, (hidle hp).2]
    rfl
  | launch rule hruns hmay hseek ih =>
    have hi := hseek.frame.1
    have hv := ((Race.mayLaunch_iff _).1 hmay).1
    obtain ⟨hfailed, hidle⟩ := hseek.telling (by simp [Fiber.fresh])
    refine .settle hv (by simp [fork, hi, Fiber.fresh]) (hdone (.launch rule hruns hmay hseek))
      ⟨hfailed, fun hp => ?_⟩
    rcases ih.undecided hv with ⟨i, f, c, hf, hc⟩ | hlast
    · obtain ⟨hlt, -⟩ := List.getElem?_eq_some_iff.1 hf
      refine .inl ⟨i, f, c, ?_, ?_, hc⟩
      · rw [hi]
        exact Nat.ne_of_lt hlt
      · rw [fork, List.getElem?_append_left hlt, hf]
    · right
      simpa [Shared.lastNoted?, (hidle hp).2, fork, Race.launch] using hlast
  | @turn x acts now w t f c rule hruns hv hf hp ht ih =>
    have hi := (ht.frame (hruns.sound.unclaimed hv)).1
    obtain ⟨hlt, -⟩ := List.getElem?_eq_some_iff.1 hf
    obtain ⟨hfailed, hidle⟩ := ht.telling
    exact .settle hv (hi ▸ hlt) (hdone (.turn rule hruns hv hf hp ht))
      ⟨hfailed, fun hp => (hidle hp).elim⟩

/-- Why an execution failed, by the error its race ended with. -/
theorem failure_cases (f : FiberFailure) (info : ExecutionInfo) :
    (∃ limit, f.error = .timedOut limit ∧ failure f info = .requestTimeout limit info) ∨
      (∀ limit, f.error ≠ .timedOut limit) ∧
        (failure f info = .allNodesFailed info ∨ failure f info = .lastAttempt f.error info) := by
  cases f with
  | gaveUp e => cases e <;> simp [FiberFailure.error, failure]
  | planExhausted e => cases e <;> simp [FiberFailure.error, failure]

/-- **The error an execution fails with is the last one it lists.** It is a timeout exactly if that
is one; else every node failed, or the error is given as that of the last attempt. -/
theorem Arises.last_error (h : Arises env settings speculation x acts) {e : ExecutionError}
    (hr : x.result? = some (.error e)) (he : e ≠ .emptyPlan) :
    ∃ info node last, e.info? = some info ∧ info.errors.getLast? = some (node, last) ∧
      (∀ limit, (∃ i, e = .requestTimeout limit i) ↔ last = .timedOut limit) ∧
      ((∀ limit, last ≠ .timedOut limit) →
        e = .allNodesFailed info ∨ e = .lastAttempt last info) := by
  obtain ⟨since, h⟩ := h.unfolds
  obtain ⟨f, hv, rfl⟩ | ⟨-, rfl⟩ := result?_eq_error.1 hr
  · have hlast : x.info.errors.getLast?.map (·.2) = some f.error := h.abreast.failed f hv
    obtain ⟨⟨node, last⟩, hnoted, rfl⟩ := Option.map_eq_some_iff.1 hlast
    refine ⟨x.info, node, f.error, failure_info? f x.info, hnoted, ?_⟩
    rcases failure_cases f x.info with ⟨limit, hlimit, heq⟩ | ⟨hlimit, heq⟩
    · simp [hlimit, heq]
    · refine ⟨fun limit => ?_, fun _ => heq⟩
      rcases heq with heq | heq <;> simp [hlimit, heq]
  · exact absurd rfl he

/-- The second fiber's node refuses, the first one's time runs out, and the third finds no node: the
timeout is reported, though the race ends later. -/
theorem Arises.last_error_before_idle_fiber :
    let a := Node.sample "10.0.0.1" 0
    let b := Node.sample "10.0.0.2" 1
    ∃ (x : Execution) (info : ExecutionInfo) (limit : Duration),
      x.result? = some (.error (.requestTimeout limit info)) ∧
      info.errors.map (·.1) = [b.address, a.address] ∧ x.fibers.length = 3 ∧
      info.errors.getLast? = some (a.address, .timedOut limit) := by
  intro a b
  let env := Environment.steady [a, b]
  let settings : Settings :=
    ⟨.query "SELECT v FROM t" .none .unpaged none, ⟨.one, true⟩, some 50,
      .scripted []⟩
  let speculation : Option Speculation := some ⟨2, 100⟩
  let events : List Event := [.launch, .signal 1 .first .acknowledged,
    .signal 1 .first (.delivered (.ok ⟨.error .overloaded "busy", .none⟩)), .expire 0, .launch]
  have hstart : Reaches env settings speculation _ _ := .start 0 ()
  have hrun := (hstart.follow 0 () events).arises
  let run := (Execution.start env settings speculation 0 ()).execution.follow env settings 0 ()
    (Execution.start env settings speculation 0 ()).acts events
  let info : ExecutionInfo := { ExecutionInfo.empty with
    errors := [(b.address, .refused .overloaded "busy"), (a.address, .timedOut (.ofMillis 50))]
    speculative := 2 }
  have hresult : run.1.result? = some (.error (.requestTimeout (.ofMillis 50) info)) := by cbv
  obtain ⟨info', node, last, hinfo, hlast, htimeout, -⟩ := hrun.last_error hresult (by simp)
  obtain rfl : info = info' := Option.some.inj hinfo
  obtain rfl := (htimeout (.ofMillis 50)).1 ⟨info, rfl⟩
  refine ⟨run.1, info, .ofMillis 50, hresult, rfl, by cbv, ?_⟩
  rw [hlast]
  cases hlast
  rfl

end Execution

end ClusterClient
