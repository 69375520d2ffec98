import ClusterClient.Proofs.Exchange

/-!
# Attempts that repeat their request

An attempt whose node did not know its statement repeats its request once the statement is prepared
again. It then stands where an attempt stands that writes its request for the first time, but for
the stage (`Attempt.repeating`), and goes on in the same way (`Attempt.react_repeating`), as long as
no node finds the statement unprepared. `Execution.step_repeating` says this for whole executions:
an execution in which one attempt repeats its request and one in which it did not need to go on
alike.
-/

namespace ClusterClient

/-- Whether a node answers that it does not know the statement. -/
def Response.isUnprepared (r : Response) : Bool :=
  match r.body with
  | .error (.unprepared _) _ => true
  | _ => false

/-- Whether a signal brings the answer that the node does not know the statement. -/
def Signal.isUnprepared : Signal → Bool
  | .delivered (.ok r) => r.isUnprepared
  | _ => false

/-- What an attempt does next, with another attempt in its place. -/
def Progress.map (φ : Attempt → Attempt) : Progress → Progress
  | .waits a => .waits (φ a)
  | .sends a => .sends (φ a)
  | .ends a result => .ends (φ a) result

/-- An attempt that repeats its request. -/
def Attempt.repeating (a : Attempt) : Attempt :=
  { a with stage := .repeated }

/-- The stage of a request of an attempt, if the first request of one attempt is taken for a
repeated one. -/
def Stage.repeating (n m : Nat) (stage : Stage) : Stage :=
  if m = n ∧ stage = .first then .repeated else stage

@[simp] theorem Stage.repeating_first (n : Nat) : Stage.first.repeating n n = .repeated := by
  simp [repeating]

theorem Stage.repeating_other {n m : Nat} (h : m ≠ n) (stage : Stage) :
    stage.repeating n m = stage := by
  simp [repeating, h]

/-- What an execution does if one attempt repeats its request. -/
def Act.repeating (n : Nat) : Act → Act
  | .heard m stage signal => .heard m (stage.repeating n m) signal
  | act => act

/-- What happens to an execution if one attempt repeats its request. -/
def Event.repeating (n : Nat) : Event → Event
  | .signal m stage s => .signal m (stage.repeating n m) s
  | event => event

/-- Signals for an attempt are for its first request, and do not say that its statement is
unknown. -/
def Event.Mild (n : Nat) (event : Event) : Prop :=
  ∀ stage s, event = .signal n stage s → stage = .first ∧ s.isUnprepared = false

/-- The request an act hands to a connection. -/
def Act.handed? : Act → Option (Nat × Stage × Connection × Request)
  | .issued n stage connection request => some (n, stage, connection, request)
  | _ => none

/-- What an act hands over is a request it issues. -/
theorem Act.mem_handed {n : Nat} {stage : Stage} {connection : Connection} {request : Request}
    {acts : List Act} : .issued n stage connection request ∈ acts ↔
      (n, stage, connection, request) ∈ acts.filterMap Act.handed? := by
  refine ⟨fun h => List.mem_filterMap.2 ⟨_, h, rfl⟩, fun h => ?_⟩
  obtain ⟨act, hact, hhanded⟩ := List.mem_filterMap.1 h
  cases act with
  | issued m stage' connection' request' =>
    cases hhanded
    exact hact
  | _ => cases hhanded

/-- What an act hears. -/
def Act.heard? : Act → Option (Nat × Stage × Signal)
  | .heard n stage signal => some (n, stage, signal)
  | _ => none

/-! ## An attempt in the place of another -/

/-- Puts another attempt in the place of the one of a number. -/
def Current.amend (n : Nat) (φ : Attempt → Attempt) (c : Current) : Current :=
  if c.number = n then { c with attempt := φ c.attempt } else c

/-- Puts another attempt in the place of the one of a number. -/
def Phase.amend (n : Nat) (φ : Attempt → Attempt) : Phase → Phase
  | .attempting c => .attempting (c.amend n φ)
  | .ended e => .ended e

/-- Puts another attempt in the place of the one of a number. -/
def Fiber.amend (n : Nat) (φ : Attempt → Attempt) (f : Fiber) : Fiber :=
  { f with phase := f.phase.amend n φ }

/-- Puts another attempt in the place of the one of a number. -/
def Execution.amend (n : Nat) (φ : Attempt → Attempt) (x : Execution) : Execution :=
  { x with fibers := x.fibers.map (Fiber.amend n φ) }

/-- A turn of a fiber, if one attempt repeats its request. -/
def Turn.repeating {ω : Type} (n : Nat) (t : Turn ω) : Turn ω :=
  { t with fiber := t.fiber.amend n .repeating, acts := t.acts.map (Act.repeating n) }

/-- What a step comes to, if one attempt repeats its request. -/
def Moved.repeating {ω : Type} (n : Nat) (m : Moved ω) : Moved ω :=
  ⟨m.execution.amend n .repeating, m.world, m.acts.map (Act.repeating n)⟩

section
variable {n : Nat} {φ ψ : Attempt → Attempt} {f : Fiber} {c : Current} {x : Execution}

theorem Current.amend_self (h : c.number = n) :
    c.amend n φ = { c with attempt := φ c.attempt } :=
  if_pos h

theorem Current.amend_ne (h : c.number ≠ n) : c.amend n φ = c :=
  if_neg h

@[simp] theorem Current.amend_number (c : Current) : (c.amend n φ).number = c.number := by
  unfold amend
  split <;> rfl

@[simp] theorem Current.amend_node (c : Current) : (c.amend n φ).node = c.node := by
  unfold amend
  split <;> rfl

@[simp] theorem Current.amend_deadline (c : Current) :
    (c.amend n φ).deadline = c.deadline := by
  unfold amend
  split <;> rfl

@[simp] theorem Current.amend_since (c : Current) : (c.amend n φ).since = c.since := by
  unfold amend
  split <;> rfl

@[simp] theorem Current.repeating_written (c : Current) :
    (c.amend n .repeating).attempt.written = c.attempt.written := by
  unfold amend
  split <;> rfl

@[simp] theorem Current.repeating_connection (c : Current) :
    (c.amend n .repeating).attempt.connection = c.attempt.connection := by
  unfold amend
  split <;> rfl

@[simp] theorem Current.repeating_expects (c : Current) (signal : Signal) :
    (c.amend n .repeating).attempt.expects signal = c.attempt.expects signal := by
  unfold amend
  split <;> rfl

/-- A signal is for the stage of an attempt if it is so when the attempt repeats its request. -/
theorem Current.repeating_stage {stage : Stage}
    (h : c.number = n → stage = .first ∧ c.attempt.stage = .first) :
    (c.amend n .repeating).attempt.stage = stage.repeating n c.number ↔
      c.attempt.stage = stage := by
  by_cases hc : c.number = n
  · obtain ⟨rfl, hfirst⟩ := h hc
    simp [amend_self hc, Attempt.repeating, hc, hfirst]
  · rw [amend_ne hc, Stage.repeating_other hc]

theorem Current.amend_amend (c : Current) : (c.amend n φ).amend n ψ = c.amend n (ψ ∘ φ) := by
  by_cases h : c.number = n <;> simp [amend, h]

@[simp] theorem Fiber.amend_index (f : Fiber) : (f.amend n φ).index = f.index := rfl

theorem Fiber.amend_attempting (h : f.phase = .attempting c) :
    (f.amend n φ).phase = .attempting (c.amend n φ) := by
  simp [amend, h, Phase.amend]

theorem Fiber.amend_amend (f : Fiber) : (f.amend n φ).amend n ψ = f.amend n (ψ ∘ φ) := by
  cases h : f.phase <;> simp [amend, h, Phase.amend, Current.amend_amend]

/-- Nothing changes for a fiber that does not wait for the attempt. -/
theorem Fiber.amend_absent (h : ∀ c, f.phase = .attempting c → c.number ≠ n) :
    f.amend n φ = f := by
  unfold amend
  cases hp : f.phase with
  | attempting c => rw [Phase.amend, Current.amend_ne (h c hp), ← hp]
  | ended e => rw [Phase.amend, ← hp]

theorem Execution.amend_amend (x : Execution) :
    (x.amend n φ).amend n ψ = x.amend n (ψ ∘ φ) := by
  simp [amend, Function.comp_def, Fiber.amend_amend]

theorem Execution.locate_amend (x : Execution) (m : Nat) :
    (x.amend n φ).locate m = (x.locate m).map fun (f, c) => (f.amend n φ, c.amend n φ) := by
  unfold amend locate
  rw [List.findSome?_map, List.map_findSome?]
  congr 1
  funext f
  cases hp : f.phase with
  | ended e => simp [Fiber.current?, Fiber.amend, Phase.amend, hp]
  | attempting c =>
    simp only [Function.comp_apply, Fiber.current?, Fiber.amend_attempting hp, hp,
      Option.bind_some, Current.amend_number]
    split <;> rfl

@[simp] theorem Execution.amend_shared (x : Execution) :
    (x.amend n φ).shared = x.shared := rfl

@[simp] theorem Execution.amend_race (x : Execution) : (x.amend n φ).race = x.race := rfl

/-- The times of an execution do not depend on how far its attempts are. -/
@[simp] theorem Execution.amend_alarms (x : Execution) : (x.amend n φ).alarms = x.alarms := by
  have hfiber (f : Fiber) :
      ((f.amend n φ).current?.bind fun c => c.deadline.map fun t => (t, Event.expire c.number)) =
        f.current?.bind fun c => c.deadline.map fun t => (t, Event.expire c.number) := by
    cases hp : f.phase with
    | ended e => simp [Fiber.current?, Fiber.amend, Phase.amend, hp]
    | attempting c => simp [Fiber.current?, Fiber.amend_attempting hp, hp]
  simp only [alarms, amend, List.filterMap_map, Function.comp_def, hfiber]

theorem Execution.settle_repeating {ω : Type} (x : Execution) (t : Turn ω) :
    (x.amend n .repeating).settle (t.repeating n) = (x.settle t).repeating n := by
  cases hp : t.fiber.phase with
  | attempting c =>
    simp [settle, amend, Turn.repeating, Moved.repeating, Fiber.amend_attempting hp, hp,
      List.map_set]
  | ended e =>
    have hphase : (t.fiber.amend n .repeating).phase = .ended e := by
      simp [Fiber.amend, hp, Phase.amend]
    simp [settle, amend, Turn.repeating, Moved.repeating, hphase, hp, List.map_set]

end

/-! ## An attempt that repeats its request -/

/-- **An attempt that repeats its request goes on as one that asks for the first time**, unless its
node does not know the statement. -/
theorem Attempt.react_repeating {a : Attempt} {signal : Signal} (hs : a.stage = .first)
    (hsignal : signal.isUnprepared = false) :
    a.repeating.react signal = (a.react signal).map repeating := by
  cases signal with
  | acknowledged => simp [react, repeating, hs, Progress.map]
  | writeFailed cause => rfl
  | delivered d =>
    cases d with
    | error cause => rfl
    | ok r =>
      obtain ⟨body, extras⟩ := r
      simp only [react, receive, repeating, hs, afterFirst]
      split
      · next hanswer =>
        rw [Response.answer_refused] at hanswer
        cases hanswer
        cases hsignal
      · rfl

/-- At the first stage an attempt writes no other request, unless its node does not know the
statement. -/
theorem Attempt.react_ne_sends {a b : Attempt} {signal : Signal} (hs : a.stage = .first)
    (hsignal : signal.isUnprepared = false) : a.react signal ≠ .sends b := by
  intro h
  obtain ⟨r, id, rfl, -, ⟨-, ⟨known, reason, hbody⟩, -⟩ | ⟨hother, -⟩⟩ := react_sends h
  · simp [Signal.isUnprepared, Response.isUnprepared, hbody] at hsignal
  · rw [hs] at hother
    cases hother

namespace Fiber

variable {ω : Type} {env : Environment ω} {settings : Settings} {now n : Nat} {f : Fiber}
  {c : Current} {s : Shared} {w : ω} {t : Turn ω} {φ : Attempt → Attempt}

/-- There is one way to take nodes. -/
theorem Seeks.eq_seek (h : Seeks env settings now f s w t) (hs : s.completed = false) :
    t = f.seek env settings now s w := by
  induction h with
  | exhausted hd hn =>
    subst hd
    exact (seek_none hn).symm
  | begins hd hn hc =>
    subst hd
    rw [seek_some hn (visit_ok hs hc)]
    rfl
  | refused hd hn hc _ ih =>
    subst hd
    rw [seek_some hn (visit_error hs hc), ih hs, if_pos rfl, Turn.after_after]
    simp

/-- What a fiber waited for before does not matter to how it takes nodes. -/
theorem Seeks.rephase (h : Seeks env settings now f s w t) (p : Phase) :
    Seeks env settings now { f with phase := p } s w t := by
  induction h with
  | exhausted hd hn => exact .exhausted hd hn
  | begins hd hn hc => exact .begins hd hn hc
  | refused hd hn hc _ ih => exact .refused hd hn hc ih

theorem seek_phase (f : Fiber) (p : Phase) (hs : s.completed = false) :
    ({ f with phase := p } : Fiber).seek env settings now s w = f.seek env settings now s w :=
  (((seek_seeks hs).rephase p).eq_seek hs).symm

/-- A fiber that failed goes on in the same way, whichever request of its attempt failed. -/
theorem obey_repeating (f : Fiber) (p : Phase) (error : AttemptError) (hs : s.completed = false)
    (decision : Decision) :
    ({ f with phase := p } : Fiber).obey env settings now (c.amend n .repeating) error s w
        decision =
      f.obey env settings now c error s w decision := by
  cases decision with
  | sameNode consistency =>
    simp only [obey, Current.amend_node]
    rcases hc : env.connect c.node w with ⟨cause | connection, w'⟩
    · rw [visit_error hs hc, visit_error hs hc]
      exact congrArg (Turn.after _) (seek_phase
        { f.retrying consistency with lastError := some (.poolBroken cause) } p hs)
    · rw [visit_ok hs hc, visit_ok hs hc]
      rfl
  | nextNode consistency =>
    exact seek_phase { f.retrying consistency with lastError := some error } p hs
  | stop => rfl
  | ignore => simp [obey, complete, hs]

theorem fail_repeating (error : AttemptError) (hs : s.completed = false) :
    (f.amend n .repeating).fail env settings now (c.amend n .repeating) error s w =
      f.fail env settings now c error s w := by
  have hreport : (f.amend n .repeating).reportOn settings (c.amend n .repeating) error =
      f.reportOn settings c error := by
    simp [reportOn, amend]
  have hopen : (s.record c.node.address error).completed = false := by
    rw [Shared.record_open hs]
    exact hs
  simp only [fail, hreport, Current.amend_node, Current.amend_number, Current.amend_since]
  exact congrArg (Turn.after _) (obey_repeating (f.telling (f.reportOn settings c error))
    (f.phase.amend n .repeating) error hopen _)

/-- Where a fiber stands that went on to other attempts: it ended, or it has just begun one. It
heard nothing on the way. -/
structure Lands (settings : Settings) (begun : Nat) (t : Turn ω) : Prop where
  heard : t.acts.filterMap Act.heard? = []
  stands : (∃ e, t.fiber.phase = .ended e) ∧ t.shared.attempts = begun ∧
      t.acts.filterMap Act.handed? = [] ∨
    ∃ node consistency connection deadline since,
      t.fiber.phase =
        .attempting ⟨begun, node, .start settings.call consistency connection, deadline, since⟩ ∧
      t.shared.attempts = begun + 1 ∧
      t.acts.filterMap Act.handed? =
        [(begun, .first, connection, settings.call.request consistency)]

theorem Lands.after {acts : List Act} (h : Lands settings n t)
    (hheard : acts.filterMap Act.heard? = []) (hhanded : acts.filterMap Act.handed? = []) :
    Lands settings n (t.after acts) where
  heard := by simp [hheard, h.heard]
  stands := by simpa [hhanded] using h.stands

theorem begin_lands {node : Node} {connection : Connection} (hn : s.attempts = n) :
    Lands settings n (f.begin settings now node connection s w) := by
  subst hn
  exact ⟨rfl, .inr ⟨node, f.consistency, connection, _, now, rfl, rfl, rfl⟩⟩

theorem Seeks.lands (h : Seeks env settings now f s w t) (hn : s.attempts = n) :
    Lands settings n t := by
  induction h with
  | exhausted hd hnone =>
    exact ⟨by simp [Act.heard?], .inl ⟨⟨_, rfl⟩, hn, by simp [Act.handed?]⟩⟩
  | begins hd hsome hc =>
    exact .after (begin_lands hn) (by simp [Act.heard?]) (by simp [Act.handed?])
  | refused hd hsome hc _ ih =>
    exact .after (ih hn) (by simp [Act.heard?]) (by simp [Act.handed?])

theorem Obeys.lands {error : AttemptError} {decision : Decision}
    (h : Obeys env settings now f c error s w decision t) (hn : s.attempts = n) :
    Lands settings n t := by
  cases h with
  | stop => exact ⟨rfl, .inl ⟨⟨_, rfl⟩, hn, rfl⟩⟩
  | ignore => exact ⟨rfl, .inl ⟨⟨_, rfl⟩, hn, rfl⟩⟩
  | again hc => exact begin_lands hn
  | onward hc hseek => exact .after (hseek.lands hn) rfl rfl
  | next hseek => exact hseek.lands hn

theorem fail_lands (error : AttemptError) (hs : s.completed = false) :
    Lands settings s.attempts (f.fail env settings now c error s w) := by
  simp only [fail, Shared.record_open hs]
  exact .after ((obey_obeys error _ (by exact hs)).lands rfl) rfl rfl

/-- A fiber that is opened takes nodes, having heard nothing yet. -/
theorem fresh_lands (settings : Settings) (i : Nat) (hs : s.completed = false) :
    Lands settings s.attempts
      (((Fiber.fresh settings i).seek env settings now s w).after [.opened i]) :=
  ((seek_seeks hs).lands rfl).after rfl rfl

theorem repeating_acts {acts : List Act} (h : acts.filterMap Act.heard? = []) :
    acts.map (Act.repeating n) = acts := by
  refine (List.map_congr_left fun a ha => ?_).trans (List.map_id acts)
  have hnone := List.filterMap_eq_nil_iff.1 h a ha
  cases a with
  | heard => cases hnone
  | _ => rfl

/-- An attempt that was begun before is of no matter to a fiber that went on to others. -/
theorem Lands.repeating {m : Nat} (h : Lands settings m t) (hn : n < m) : t.repeating n = t := by
  have hfiber : t.fiber.amend n .repeating = t.fiber := by
    refine amend_absent fun c hc => ?_
    rcases h.stands with ⟨⟨e, he⟩, -⟩ | ⟨node, consistency, connection, deadline, since, hp, -⟩
    · rw [he] at hc
      cases hc
    · rw [hp] at hc
      cases hc
      exact Nat.ne_of_gt hn
  rw [Turn.repeating, hfiber, repeating_acts h.heard]

theorem repeating_after (acts : List Act) (t : Turn ω) :
    (t.after acts).repeating n = (t.repeating n).after (acts.map (Act.repeating n)) := by
  simp [Turn.repeating, Turn.after]

/-- An attempt of a fiber is of no matter to the other fibers. -/
theorem Takes.repeating_other (h : Takes env settings now f c s w t) (hc : c.number ≠ n)
    (hn : n < s.attempts) : t.repeating n = t := by
  have hstage := Stage.repeating_other hc c.attempt.stage
  cases h with
  | waits he hr | sends he hr =>
    simp [Turn.repeating, amend, Phase.amend, Current.amend, hc, hstage, Act.repeating]
  | succeeds he hr => simp [Turn.repeating, amend, Phase.amend, hstage, Act.repeating]
  | fails hf hd ho =>
    have hacts := (ho.lands rfl).repeating hn
    cases hf with
    | heard he hr => simp [repeating_after, hacts, hstage, Act.repeating]
    | timedOut hl => simp [repeating_after, hacts, Act.repeating]

/-- **A fiber goes on in the same way if its attempt repeats its request**, unless the node does not
know the statement. -/
theorem react_repeating {signal : Signal} (hs : s.completed = false)
    (hp : f.phase = .attempting c) (he : c.attempt.expects signal = true) (hn : n < s.attempts)
    (hmild : c.number = n → c.attempt.stage = .first ∧ signal.isUnprepared = false) :
    (f.amend n .repeating).react env settings now (c.amend n .repeating) signal s w =
      (f.react env settings now c signal s w).repeating n := by
  by_cases hc : c.number = n
  · obtain ⟨hstage, hsignal⟩ := hmild hc
    have hself : c.amend n .repeating = { c with attempt := c.attempt.repeating } :=
      Current.amend_self hc
    have hreact : (c.amend n .repeating).attempt.react signal =
        (c.attempt.react signal).map .repeating := by
      rw [hself]
      exact Attempt.react_repeating hstage hsignal
    have hheard : Act.heard (c.amend n .repeating).number (c.amend n .repeating).attempt.stage
        signal = (Act.heard c.number c.attempt.stage signal).repeating n := by
      simp [hself, Act.repeating, hc, hstage, Attempt.repeating]
    unfold react
    rw [hreact]
    simp only [hheard]
    cases hr : c.attempt.react signal with
    | waits a =>
      simp [Progress.map, Turn.repeating, amend, Phase.amend, Current.amend, hc]
    | sends a => exact absurd hr (Attempt.react_ne_sends hstage hsignal)
    | ends a result =>
      obtain rfl := Attempt.react_ends hr
      cases result with
      | ok answer =>
        simp [Progress.map, succeed, complete, hs, Turn.repeating, Turn.after, amend, Phase.amend,
          Act.repeating, hself, Attempt.repeating]
      | error error =>
        have hsame : (f.amend n .repeating).fail env settings now
            { c.amend n .repeating with attempt := c.attempt.repeating } error s w =
            f.fail env settings now c error s w := by
          simpa [hself] using fail_repeating (f := f) (c := c) (n := n) error hs
        simp only [Progress.map, hsame, repeating_after, (fail_lands error hs).repeating hn,
          List.map_cons, List.map_nil]
  · have hfiber : f.amend n .repeating = f := by
      refine amend_absent fun d hd => ?_
      rw [hp] at hd
      cases hd
      exact hc
    rw [hfiber, Current.amend_ne hc, (react_takes hs he).repeating_other hc hn]

theorem expire_repeating {limit : Nat} (hs : s.completed = false) (hn : n < s.attempts) :
    (f.amend n .repeating).expire env settings now (c.amend n .repeating) limit s w =
      (f.expire env settings now c limit s w).repeating n := by
  rw [expire, expire, fail_repeating _ hs, (fail_lands _ hs).repeating hn]

end Fiber

namespace Execution

variable {ω : Type} {env : Environment ω} {settings : Settings} {now n : Nat} {x : Execution}
  {w : ω}

/-- An attempt of an execution was begun, and has not gone beyond its first request. -/
structure AtFirst (n : Nat) (x : Execution) : Prop where
  sound : x.Sound
  begun : n < x.shared.attempts
  first : ∀ f c, x.locate n = some (f, c) → c.attempt.stage = .first

theorem launch_repeating (hs : x.shared.completed = false) (hn : n < x.shared.attempts) :
    (x.amend n .repeating).launch env settings now w =
      (x.launch env settings now w).repeating n := by
  let turn := ((Fiber.fresh settings x.fibers.length).seek env settings now x.shared
    (env.consult x.fibers.length .opened w)).after [.opened x.fibers.length]
  have hturn : turn.repeating n = turn := (Fiber.fresh_lands settings _ hs).repeating hn
  have hforked : (x.amend n .repeating).fork settings (x.race.launch now) =
      (x.fork settings (x.race.launch now)).amend n .repeating := by
    simp [fork, amend, Fiber.amend, Fiber.fresh, Phase.amend]
  calc (x.amend n .repeating).launch env settings now w
    _ = ((x.amend n .repeating).fork settings (x.race.launch now)).settle turn := by
      simp [launch, openFiber, fork, turn, amend, Fiber.fresh]
    _ = ((x.fork settings (x.race.launch now)).amend n .repeating).settle (turn.repeating n) := by
      rw [hforked, hturn]
    _ = (x.launch env settings now w).repeating n := settle_repeating _ turn

/-- **An execution goes on in the same way if one of its attempts repeats its request**, unless the
node does not know the statement. -/
theorem step_repeating (hx : x.AtFirst n) (now : Nat) (w : ω) {event : Event}
    (hevent : event.Mild n) :
    (x.amend n .repeating).step env settings now w (event.repeating n) =
      (x.step env settings now w event).repeating n := by
  unfold step
  rw [amend_race]
  by_cases hv : x.race.verdict.isSome = true
  · rw [if_pos hv, if_pos hv]
    rfl
  rw [if_neg hv, if_neg hv]
  have hs := hx.sound.unclaimed (by simpa using hv)
  cases event with
  | launch =>
    simp only [Event.repeating]
    split
    · exact launch_repeating hs hx.begun
    · rfl
  | signal m stage signal =>
    simp only [Event.repeating, locate_amend]
    cases hl : x.locate m with
    | none => rfl
    | some found =>
      obtain ⟨f, c⟩ := found
      obtain ⟨-, hp, rfl⟩ := locate_eq_some hl
      have hmild (hc : c.number = n) : stage = .first ∧ signal.isUnprepared = false :=
        hevent stage signal (by rw [hc])
      have hfirst (hc : c.number = n) : c.attempt.stage = .first := hx.first f c (hc ▸ hl)
      simp only [Option.map_some, Current.repeating_expects, amend_shared,
        Current.repeating_stage fun hc => ⟨(hmild hc).1, hfirst hc⟩]
      split
      · next he =>
        rw [Fiber.react_repeating hs hp he.2 hx.begun fun hc => ⟨hfirst hc, (hmild hc).2⟩]
        exact settle_repeating x _
      · rfl
  | expire m =>
    simp only [Event.repeating, locate_amend]
    cases hl : x.locate m with
    | none => rfl
    | some found =>
      cases ht : settings.timeout with
      | none => rfl
      | some limit =>
        simp only [Option.map_some, amend_shared]
        rw [Fiber.expire_repeating hs hx.begun]
        exact settle_repeating x _

/-! ## What a step hands over -/

/-- A step in which an attempt begins: its request is all that is handed over, and the execution
goes on. -/
structure Begins (settings : Settings) (n : Nat) (consistency : Consistency)
    (connection : Connection) (m : Moved ω) : Prop where
  undecided : m.execution.race.verdict = none
  waits : ∃ f ∈ m.execution.fibers, ∃ node deadline since,
    f.phase = .attempting ⟨n, node, .start settings.call consistency connection, deadline, since⟩
  handed : m.acts.filterMap Act.handed? =
    [(n, .first, connection, settings.call.request consistency)]

/-- What a step hands over: the request of an attempt that begins, or the next request of one that
was begun, if anything. -/
inductive Hands (settings : Settings) (event : Option Event) (x : Execution) (m : Moved ω) : Prop
  | nothing : m.acts.filterMap Act.handed? = [] → Hands settings event x m
  | sends {f : Fiber} {c : Current} {signal : Signal} {a : Attempt} :
      x.locate c.number = some (f, c) → event = some (.signal c.number c.attempt.stage signal) →
      c.attempt.react signal = .sends a →
      m.acts.filterMap Act.handed? = [(c.number, a.stage, a.connection, a.request)] →
      Hands settings event x m
  | begins {consistency : Consistency} {connection : Connection} :
      Begins settings x.shared.attempts consistency connection m → Hands settings event x m

variable {t : Turn ω}

theorem hands_of_lands {y : Execution} {event : Option Event} (acts : List Act)
    (h : Fiber.Lands settings x.shared.attempts t) (hacts : acts.filterMap Act.handed? = [])
    (hv : y.race.verdict = none) (hi : t.fiber.index < y.fibers.length) :
    Hands settings event x (y.settle (t.after acts)) := by
  rcases h.stands with
    ⟨-, -, hhanded⟩ | ⟨node, consistency, connection, deadline, since, hp, -, hhanded⟩
  · exact .nothing (by simp [hacts, hhanded])
  · have hbegins : Begins settings x.shared.attempts consistency connection
        (y.settle (t.after acts)) := by
      refine ⟨?_, ?_, ?_⟩
      · rw [settle_race_attempting (by exact hp), hv]
      · have hfiber : (y.settle (t.after acts)).execution.fibers[t.fiber.index]? =
            some t.fiber := by
          simp [hi]
        exact ⟨t.fiber, List.mem_of_getElem? hfiber, node, deadline, since, hp⟩
      · simp [hacts, hhanded]
    exact .begins hbegins

/-- What a step of an execution hands over. -/
theorem step_hands (hx : x.Sound) (env : Environment ω) (settings : Settings) (now : Nat) (w : ω)
    (event : Event) : Hands settings (some event) x (x.step env settings now w event) := by
  unfold step
  split
  · exact .nothing rfl
  next hv =>
  have hv : x.race.verdict = none := by simpa using hv
  have hs := hx.unclaimed hv
  have failed {m : Nat} {f : Fiber} {c : Current} {error : AttemptError} {heard : List Act}
      (hl : x.locate m = some (f, c)) (hf : Fiber.Falters settings c error heard) :
      Hands settings (some event) x
        (x.settle ((f.fail env settings now c error x.shared w).after heard)) := by
    have hheard : heard.filterMap Act.handed? = [] := by cases hf <;> rfl
    refine hands_of_lands heard (Fiber.fail_lands error hs) hheard hv ?_
    obtain ⟨i, hi⟩ := List.mem_iff_getElem?.1 (locate_eq_some hl).1
    have hindex : (f.fail env settings now c error x.shared w).fiber.index = f.index :=
      ((Fiber.fail_takes hs hf).frame hs).1
    rw [hindex, hx.index i f hi]
    exact (List.getElem?_eq_some_iff.1 hi).1
  cases event with
  | launch =>
    dsimp only
    split
    · refine hands_of_lands _ ((Fiber.seek_seeks hs).lands rfl) rfl (by exact hv) ?_
      simp [(Fiber.seek_seeks hs).frame.1, Fiber.fresh]
    · exact .nothing rfl
  | signal m stage signal =>
    dsimp only
    split
    · exact .nothing rfl
    next f c hl =>
    obtain ⟨-, -, rfl⟩ := locate_eq_some hl
    split
    · next he =>
      obtain ⟨rfl, he⟩ := he
      unfold Fiber.react
      split
      · exact .nothing rfl
      · next a hr => exact .sends hl rfl hr rfl
      · exact .nothing (by simp [Fiber.succeed, Fiber.complete, hs, Act.handed?])
      · next a error hr =>
        obtain rfl := Attempt.react_ends hr
        exact failed hl (.heard he hr)
    · exact .nothing rfl
  | expire m =>
    dsimp only
    split
    · next f c limit hl ht => exact failed hl (.timedOut ht)
    · exact .nothing rfl

/-- An attempt that was begun and finds its statement known hands over nothing more. -/
theorem AtFirst.ne_of_handed (hx : x.AtFirst n) {event : Event} (hevent : event.Mild n)
    {m : Nat} {stage : Stage} {connection : Connection} {request : Request}
    (h : .issued m stage connection request ∈ (x.step env settings now w event).acts) :
    m ≠ n := by
  have hmem := Act.mem_handed.1 h
  rintro rfl
  cases step_hands hx.sound env settings now w event with
  | nothing hhanded =>
    rw [hhanded] at hmem
    cases hmem
  | sends hl he hr hhanded =>
    rw [hhanded, List.mem_singleton, Prod.mk.injEq] at hmem
    obtain ⟨rfl, -⟩ := hmem
    obtain ⟨hfirst, hsignal⟩ := hevent _ _ (Option.some.inj he)
    exact Attempt.react_ne_sends hfirst hsignal hr
  | begins hbegins =>
    rw [hbegins.handed, List.mem_singleton, Prod.mk.injEq] at hmem
    exact Nat.ne_of_lt hx.begun hmem.1

/-- What the start of an execution hands over. -/
theorem start_hands (env : Environment ω) (settings : Settings) (speculation : Option Speculation)
    (now : Nat) (w : ω) :
    Hands settings none (initial speculation now) (start env settings speculation now w) := by
  have hs : (initial speculation now).shared.completed = false := rfl
  refine hands_of_lands
    (y := (initial speculation now).fork settings (Race.start speculation now).launchFirst)
    [.opened 0] ((Fiber.seek_seeks hs).lands rfl) rfl rfl ?_
  rw [(Fiber.seek_seeks hs).frame.1]
  exact Nat.zero_lt_one

/-! ## What is heard -/

/-- Nothing is heard in acts in which no signal is. -/
theorem heard_notMem {acts : List Act} (h : acts.filterMap Act.heard? = []) (m : Nat)
    (stage : Stage) (signal : Signal) : .heard m stage signal ∉ acts := fun hmem => by
  have := List.filterMap_eq_nil_iff.1 h _ hmem
  cases this

/-- An execution hears nothing but what happens to it. -/
theorem step_heard (hx : x.Sound) {event : Event} {m : Nat} {stage : Stage} {signal : Signal}
    (h : .heard m stage signal ∈ (x.step env settings now w event).acts) :
    event = .signal m stage signal := by
  by_cases hv : x.race.verdict.isSome = true
  · simp [step, hv] at h
  have hs := hx.unclaimed (by simpa using hv)
  unfold step at h
  rw [if_neg hv] at h
  have failed {f : Fiber} {c : Current} {error : AttemptError} :
      .heard m stage signal ∉ (f.fail env settings now c error x.shared w).acts :=
    heard_notMem (Fiber.fail_lands error hs).heard m stage signal
  cases event with
  | launch =>
    dsimp only at h
    split at h
    · exact absurd h (heard_notMem (Fiber.fresh_lands settings _ hs).heard m stage signal)
    · cases h
  | signal k stage' signal' =>
    dsimp only at h
    split at h
    · cases h
    next f c hl =>
    obtain ⟨-, -, rfl⟩ := locate_eq_some hl
    split at h
    · next he =>
      obtain ⟨rfl, he⟩ := he
      -- Besides the signal itself there is at most a failure, in which nothing is heard.
      suffices h : Act.heard m stage signal = .heard c.number c.attempt.stage signal' by
        cases h
        rfl
      simp only [settle_acts, Fiber.react] at h
      split at h
      · simpa using h
      · simpa using h
      · simpa [Fiber.succeed, Fiber.complete, hs] using h
      · rcases List.mem_append.1 h with h | h
        · simpa using h
        · exact absurd h failed
    · cases h
  | expire k =>
    dsimp only at h
    split at h
    · exact absurd h failed
    · cases h

theorem start_heard (speculation : Option Speculation) :
    (start env settings speculation now w).acts.filterMap Act.heard? = [] := by
  exact (Fiber.fresh_lands settings 0 rfl).heard

/-! ## An attempt on its own -/

variable {speculation : Option Speculation} {acts : List Act} {f : Fiber} {c : Current}

theorem Reaches.sound (h : Reaches env settings speculation x acts) : x.Sound :=
  let ⟨_, h⟩ := h.arises.unfolds
  h.sound

theorem Reaches.trail (h : Reaches env settings speculation x acts) :
    Trail env settings acts x.shared (x.fibers.map Fiber.pose) :=
  let ⟨_, h⟩ := h.arises.unfolds
  h.trail

/-- A fiber that waits for an attempt is the one that does. -/
theorem Reaches.locate_of_mem (h : Reaches env settings speculation x acts) (hf : f ∈ x.fibers)
    (hp : f.phase = .attempting c) : x.locate c.number = some (f, c) := by
  cases hl : x.locate c.number with
  | none =>
    have hnone := List.findSome?_eq_none_iff.1 hl f hf
    simp [Fiber.current?, hp] at hnone
  | some found =>
    obtain ⟨g, d⟩ := found
    obtain ⟨hg, hq, hn⟩ := locate_eq_some hl
    obtain ⟨i, hi⟩ := List.mem_iff_getElem?.1 hf
    obtain ⟨j, hj⟩ := List.mem_iff_getElem?.1 hg
    obtain rfl := h.trail.waiting_unique (p := f.pose) (q := g.pose) (i := i) (j := j)
      (by simp [hi]) (by simp [hj]) (Fiber.pose_stance_attempting hp)
      (Fiber.pose_stance_attempting hq) hn.symm
    rw [hi] at hj
    cases hj
    rw [hp] at hq
    cases hq
    rfl

/-- A fiber that goes on with its attempt leaves all else as it is. -/
theorem Reaches.settle_amend (h : Reaches env settings speculation x acts) {n : Nat}
    (hl : x.locate n = some (f, c)) (a : Attempt) (w : ω) (more : List Act) :
    x.settle ⟨{ f with phase := .attempting { c with attempt := a } }, x.shared, w, more⟩ =
      ⟨x.amend n fun _ => a, w, more⟩ := by
  obtain ⟨hf, hp, rfl⟩ := locate_eq_some hl
  obtain ⟨i, hi⟩ := List.mem_iff_getElem?.1 hf
  have hfibers : x.fibers.set f.index { f with phase := .attempting { c with attempt := a } } =
      x.fibers.map (Fiber.amend c.number fun _ => a) := by
    have hindex := h.sound.index i f hi
    rw [hindex]
    refine List.ext_getElem? fun j => ?_
    rw [List.getElem?_map]
    by_cases hj : j = i
    · subst hj
      rw [List.getElem?_set_self (List.getElem?_eq_some_iff.1 hi).1, hi]
      simp [Fiber.amend, hp, Phase.amend, Current.amend, hindex]
    · rw [List.getElem?_set_ne (Ne.symm hj)]
      cases hg : x.fibers[j]? with
      | none => rfl
      | some g =>
        refine congrArg some (Fiber.amend_absent fun d hq hd => hj ?_).symm
        exact h.trail.waiting_unique (p := g.pose) (q := f.pose) (by simp [hg]) (by simp [hi])
          (Fiber.pose_stance_attempting hq) (Fiber.pose_stance_attempting hp) hd
  simp [settle, amend, hfibers]

/-- An attempt that goes on waiting. -/
theorem Reaches.step_waits (h : Reaches env settings speculation x acts)
    (hv : x.race.verdict = none) {n : Nat} (hl : x.locate n = some (f, c)) {signal : Signal}
    (he : c.attempt.expects signal = true) {a : Attempt} (hr : c.attempt.react signal = .waits a)
    (now : Nat) (w : ω) :
    x.step env settings now w (.signal n c.attempt.stage signal) =
      ⟨x.amend n fun _ => a, w, [.heard n c.attempt.stage signal]⟩ := by
  have hn := (locate_eq_some hl).2.2
  rw [← h.settle_amend hl a w, Execution.step]
  simp [hv, hl, he, Fiber.react, hr, hn]

/-- An attempt that writes its next request. -/
theorem Reaches.step_sends (h : Reaches env settings speculation x acts)
    (hv : x.race.verdict = none) {n : Nat} (hl : x.locate n = some (f, c)) {signal : Signal}
    (he : c.attempt.expects signal = true) {a : Attempt} (hr : c.attempt.react signal = .sends a)
    (now : Nat) (w : ω) :
    x.step env settings now w (.signal n c.attempt.stage signal) =
      ⟨x.amend n fun _ => a, w, [.heard n c.attempt.stage signal,
        .issued n a.stage a.connection a.request]⟩ := by
  have hn := (locate_eq_some hl).2.2
  rw [← h.settle_amend hl a w, Execution.step]
  simp [hv, hl, he, Fiber.react, hr, hn]

theorem Reaches.issued_of_locate (h : Reaches env settings speculation x acts) {n : Nat}
    (hl : x.locate n = some (f, c)) :
    ∃ connection request, .issued n .first connection request ∈ acts := by
  obtain ⟨hf, hp, rfl⟩ := locate_eq_some hl
  obtain ⟨i, hi⟩ := List.mem_iff_getElem?.1 hf
  have hpose : (x.fibers.map Fiber.pose)[i]? = some f.pose := by simp [hi]
  exact ⟨_, _, (h.trail.underway hpose (Fiber.pose_stance_attempting hp)).issued⟩

/-- Requests are handed over only for attempts that were begun. -/
theorem Reaches.number_lt (h : Reaches env settings speculation x acts) {n : Nat} {stage : Stage}
    {connection : Connection} {request : Request}
    (hi : .issued n stage connection request ∈ acts) : n < x.shared.attempts := by
  by_contra hn
  have hsilent := (h.trail.speech.unbegun n (by omega)).1
  have := List.filterMap_eq_nil_iff.1 hsilent _ hi
  simp [Act.issue?] at this

/-- The first request of an attempt is handed over when the attempt begins. -/
theorem Hands.begins_of_issued {event : Option Event} {m : Moved ω}
    (h : Hands settings event x m) {n : Nat} (hnew : x.locate n = none) {stage : Stage}
    {connection : Connection} {request : Request}
    (hi : .issued n stage connection request ∈ m.acts) :
    ∃ consistency connection, Begins settings n consistency connection m := by
  have hmem := Act.mem_handed.1 hi
  cases h with
  | nothing hhanded =>
    rw [hhanded] at hmem
    cases hmem
  | sends hl he hr hhanded =>
    rw [hhanded, List.mem_singleton, Prod.mk.injEq] at hmem
    obtain ⟨rfl, -⟩ := hmem
    rw [hnew] at hl
    cases hl
  | begins hbegins =>
    rw [hbegins.handed, List.mem_singleton, Prod.mk.injEq] at hmem
    obtain ⟨rfl, -⟩ := hmem
    exact ⟨_, _, hbegins⟩

theorem Reaches.locate_eq_none (h : Reaches env settings speculation x acts) {n : Nat}
    (hnew : ∀ stage connection request, .issued n stage connection request ∉ acts) :
    x.locate n = none := by
  cases hl : x.locate n with
  | none => rfl
  | some found =>
    obtain ⟨f, c⟩ := found
    obtain ⟨connection, request, hissued⟩ := h.issued_of_locate hl
    exact absurd hissued (hnew _ _ _)

/-- An attempt that handed over only its first request is at its first stage. -/
theorem Reaches.stage_first (h : Reaches env settings speculation x acts) {n : Nat}
    (hfirst : ∀ stage connection request, .issued n stage connection request ∈ acts →
      stage = .first)
    (hl : x.locate n = some (f, c)) : c.attempt.stage = .first := by
  obtain ⟨hf, hp, rfl⟩ := locate_eq_some hl
  obtain ⟨i, hi⟩ := List.mem_iff_getElem?.1 hf
  have hpose : (x.fibers.map Fiber.pose)[i]? = some f.pose := by simp [hi]
  have hspeaking := h.trail.speech.waiting i f.pose c hpose (Fiber.pose_stance_attempting hp)
  have hissued : (c.attempt.stage, c.attempt.connection, c.attempt.request) ∈
      acts.filterMap (Act.issue? c.number) := by
    rw [hspeaking.dialogue.issued]
    refine List.mem_of_getElem? (i := c.attempt.stage.place) ?_
    rw [List.getElem?_take_of_lt (Nat.lt_succ_self _)]
    exact Attempt.script_place hspeaking.prepared
  obtain ⟨act, hact, hissue⟩ := List.mem_filterMap.1 hissued
  cases act <;> simp only [Act.issue?, reduceCtorEq] at hissue
  split at hissue
  · next hm =>
    cases hissue
    exact hfirst _ _ _ (hm ▸ hact)
  · cases hissue

end Execution

end ClusterClient
