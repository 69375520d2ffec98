import ClusterClient.Proofs.Run

/-!
# A statement is applied at most once

A statement that is not known to be idempotent must not be applied twice. `Custody` follows the
requests of an execution that ask a node to run its statement: whether one is under way, whether one
may have been applied, and whether one was handed over although another may still be applied
(`Custody.breached`). Under the standard retry policy that never happens
(`Execution.Runs.custody`), since a failure is retried only if the request was not written or the
node refused it before it did anything (`Budget.decide_retry`).

`Custody.over_of_ne_breached` and `Custody.precluded_of_ne_breached` read off the acts what that
means.
-/

namespace ClusterClient

/-- Whether a request asks a node to run a statement; a preparation does not. -/
def Request.runsStatement : Request → Bool
  | .query .. | .execute .. => true
  | .prepare _ => false

/-- Whether a node that answers with an error has not applied the statement. -/
def ServerError.precludesEffect : ServerError → Bool
  | .unprepared _ | .isBootstrapping | .unavailable .. => true
  | .readTimeout _ received required dataPresent => required ≤ received && !dataPresent
  | _ => false

/-- Whether a response says that the statement was not applied. -/
def Response.precludesEffect (r : Response) : Bool :=
  match r.body with
  | .error e _ => e.precludesEffect
  | _ => false

/-- Where the requests that run a statement stand. -/
inductive Custody where
  /-- None is under way, and none has been applied. -/
  | free
  /-- One is handed to a connection and not acknowledged. -/
  | handed (attempt : Nat) (stage : Stage)
  /-- One is acknowledged, and its response is waited for. -/
  | sent (attempt : Nat) (stage : Stage)
  /-- One may have been applied. -/
  | kept
  /-- One was handed over while another was under way or may have been applied. -/
  | breached
  deriving DecidableEq

namespace Custody

/-- Where the requests stand after an act. -/
def after : Custody → Act → Custody
  | .free, .issued n stage _ request => if request.runsStatement then .handed n stage else .free
  | .free, .heard _ stage .acknowledged => if stage = .reprepare then .free else .breached
  | .free, _ => .free
  | .handed n stage, .heard m stage' signal =>
    if n = m ∧ stage = stage' then
      match signal with
      | .acknowledged => .sent n stage
      | .writeFailed _ => .free
      | .delivered _ => .breached
    else .breached
  | .handed n stage, .failed m _ _ (.timedOut _) => if n = m then .free else .handed n stage
  | .handed _ _, .issued _ _ _ _ => .breached
  | .handed n stage, _ => .handed n stage
  | .sent n stage, .heard m stage' (.delivered (.ok r)) =>
    if n = m ∧ stage = stage' ∧ r.precludesEffect then .free else .kept
  | .sent _ _, .heard _ _ _ => .kept
  | .sent _ _, .failed _ _ _ _ => .kept
  | .sent _ _, .issued _ _ _ _ => .breached
  | .sent n stage, _ => .sent n stage
  | .kept, .issued _ _ _ request => if request.runsStatement then .breached else .kept
  | .kept, _ => .kept
  | .breached, _ => .breached

/-- Where the requests stand after some acts. -/
def following (k : Custody) (acts : List Act) : Custody :=
  acts.foldl after k

@[simp] theorem following_nil (k : Custody) : k.following [] = k := rfl

@[simp] theorem following_cons (k : Custody) (a : Act) (acts : List Act) :
    k.following (a :: acts) = (k.after a).following acts := rfl

@[simp] theorem following_append (k : Custody) (acts more : List Act) :
    k.following (acts ++ more) = (k.following acts).following more :=
  List.foldl_append

@[simp] theorem following_breached (acts : List Act) : breached.following acts = breached := by
  induction acts with
  | nil => rfl
  | cons a acts ih => exact ih

/-- A request that was handed over or acknowledged keeps the next one back. -/
def Holds (n : Nat) (stage : Stage) (k : Custody) : Prop :=
  k = .handed n stage ∨ k = .sent n stage ∨ k = .kept ∨ k = .breached

/-- A request that was acknowledged keeps the next one back for good. -/
def HoldsSent (n : Nat) (stage : Stage) (k : Custody) : Prop :=
  k = .sent n stage ∨ k = .kept ∨ k = .breached

/-- A request that is held back and handed over nevertheless breaches the custody. -/
theorem Holds.issued {n : Nat} {stage : Stage} {k : Custody} (h : Holds n stage k) (m : Nat)
    (stage' : Stage) (connection : Connection) {request : Request}
    (hr : request.runsStatement = true) :
    k.after (.issued m stage' connection request) = .breached := by
  rcases h with rfl | rfl | rfl | rfl <;> simp [after, hr]

/-- A request is over when its write failed, when it was answered, or when the time of its attempt
was up. -/
def Over (n : Nat) (stage : Stage) (acts : List Act) : Prop :=
  (∃ cause, .heard n stage (.writeFailed cause) ∈ acts) ∨
    (∃ delivery, .heard n stage (.delivered delivery) ∈ acts) ∨
      ∃ fiber node limit, .failed n fiber node (.timedOut limit) ∈ acts

/-- What holds the next request back does so until the request is over. -/
theorem Holds.following {n : Nat} {stage : Stage} {k : Custody} (hk : Holds n stage k)
    {acts : List Act} (hacts : ¬ Over n stage acts) : Holds n stage (k.following acts) := by
  induction acts generalizing k with
  | nil => exact hk
  | cons a acts ih =>
    simp only [Over, List.mem_cons, not_or, not_exists] at hacts
    obtain ⟨hwrite, hanswer, htime⟩ := hacts
    refine ih ?_ ?_
    · unfold Holds at *
      rcases hk with rfl | rfl | rfl | rfl
      · unfold Custody.after
        grind
      · unfold Custody.after
        grind
      · cases a <;> simp [Custody.after]
      · simp [Custody.after]
    · simp only [Over, not_or, not_exists]
      exact ⟨fun c => (hwrite c).2, fun d => (hanswer d).2, fun f m l => (htime f m l).2⟩

/-- What holds the next request back after an acknowledgement does so until a node says that the
statement was not applied. -/
theorem HoldsSent.following {n : Nat} {stage : Stage} {k : Custody} (hk : HoldsSent n stage k)
    {acts : List Act}
    (hacts : ∀ r : Response, r.precludesEffect = true →
      .heard n stage (.delivered (.ok r)) ∉ acts) :
    HoldsSent n stage (k.following acts) := by
  induction acts generalizing k with
  | nil => exact hk
  | cons a acts ih =>
    refine ih ?_ fun r hr hmem => hacts r hr (List.mem_cons_of_mem _ hmem)
    have ha : ∀ r : Response, r.precludesEffect = true → a ≠ .heard n stage (.delivered (.ok r)) :=
      fun r hr he => hacts r hr (he ▸ List.mem_cons_self)
    unfold HoldsSent at *
    rcases hk with rfl | rfl | rfl
    · unfold Custody.after
      grind
    · cases a <;> simp [Custody.after]
    · simp [Custody.after]

/-- A request is acknowledged in good order only after it was handed over, and is sent then. -/
theorem after_acknowledged {n : Nat} {stage : Stage} (k : Custody) (hs : stage ≠ .reprepare) :
    HoldsSent n stage (k.after (.heard n stage .acknowledged)) := by
  unfold HoldsSent
  cases k with
  | free => simp [Custody.after, hs]
  | handed m stage' =>
    simp only [Custody.after]
    split
    · next h => simp [h]
    · simp
  | sent | kept | breached => simp [Custody.after]

/-- **In custody at most one request is under way**: when a request that runs the statement is
handed over, every earlier one is over. -/
theorem over_of_ne_breached {acts before between later : List Act} {n m : Nat}
    {stage stage' : Stage} {connection connection' : Connection} {request request' : Request}
    (h : free.following acts ≠ .breached)
    (hacts : acts = before ++ .issued n stage connection request :: between ++
      .issued m stage' connection' request' :: later)
    (hr : request.runsStatement = true) (hr' : request'.runsStatement = true) :
    Over n stage between := by
  by_contra hover
  apply h
  have hk : Holds n stage ((free.following before).after (.issued n stage connection request)) := by
    cases free.following before with
    | free => simp [Holds, Custody.after, hr]
    | handed | sent | kept | breached => simp [Holds, Custody.after, hr]
  simp only [hacts, following_append, following_cons]
  rw [(hk.following hover).issued m stage' connection' hr', following_breached]

/-- **In custody an acknowledged request is the last**, unless a node said that it was not
applied. -/
theorem precluded_of_ne_breached {acts before between later : List Act} {n m : Nat}
    {stage stage' : Stage} {connection : Connection} {request : Request}
    (h : free.following acts ≠ .breached)
    (hacts : acts = before ++ .heard n stage .acknowledged :: between ++
      .issued m stage' connection request :: later)
    (hs : stage ≠ .reprepare) (hr : request.runsStatement = true) :
    ∃ r : Response, r.precludesEffect = true ∧ .heard n stage (.delivered (.ok r)) ∈ between := by
  by_contra hnone
  push Not at hnone
  apply h
  have hk := (after_acknowledged (free.following before) hs).following hnone
  simp only [hacts, following_append, following_cons]
  rw [Holds.issued (.inr hk) m stage' connection hr, following_breached]

end Custody

/-! ## What the standard policy retries -/

/-- A failure of a statement that is not known to be idempotent may be retried if the node failed,
if the request was not written, or if the node refused it. -/
theorem classify_not_idempotent {e : AttemptError} {kind : Retryable}
    (h : classify e false = some kind) :
    kind = .nodeFailed ∨ (∃ cause, e = .writeFailed cause) ∨
      ∃ se reason, e = .refused se reason ∧ se.precludesEffect = true := by
  unfold classify at h
  split at h <;> simp_all [ServerError.precludesEffect]

/-- **The standard policy retries what cannot have been applied.** For a statement that is not known
to be idempotent it asks for another attempt only if no request was written, or if the failure says
that none was or had no effect. -/
theorem Budget.decide_retry {b : Budget} {r : Report} (hid : r.idempotent = false)
    (h : (b.decide r).1.isRetry = true) :
    r.written = false ∨ (∃ cause, r.error = .writeFailed cause) ∨
      ∃ e reason, r.error = .refused e reason ∧ e.precludesEffect = true := by
  unfold decide at h
  split at h
  · cases h
  · rw [hid] at h
    cases hk : classify r.error false with
    | none => simp [hk, Decision.isRetry] at h
    | some kind =>
      rcases classify_not_idempotent hk with rfl | hsafe
      · cases hw : r.written with
        | false => exact .inl rfl
        | true => simp [hk, spend, hid, hw, Decision.isRetry] at h
      · exact .inr hsafe

theorem Budget.decide_ne_ignore (b : Budget) (r : Report) : (b.decide r).1 ≠ .ignore := by
  unfold decide
  split
  · simp
  · cases classify r.error r.idempotent with
    | none => simp
    | some kind => cases kind <;> simp [spend] <;> split <;> simp

/-! ## Custody along an execution -/

/-- Where the requests stand while an attempt is waited for. -/
def Current.custody (c : Current) : Custody :=
  if c.attempt.stage = .reprepare then .free
  else if c.attempt.acknowledged then .sent c.number c.attempt.stage
  else .handed c.number c.attempt.stage

/-- An attempt of a call that knows whether its own request is written. -/
structure Attempt.Regular (call : Call) (a : Attempt) : Prop where
  call_eq : a.call = call
  written_eq : a.written = (a.acknowledged && a.stage ≠ .reprepare)

/-- Whether a fiber accounts for where the requests stand. -/
def Fiber.Accounts (call : Call) (f : Fiber) (k : Custody) : Prop :=
  match f.phase with
  | .attempting c => c.attempt.Regular call ∧ k = c.custody
  | .ended _ => k ≠ .breached

section
variable {ω : Type} {env : Environment ω} {settings : Settings} {now : Nat} {f : Fiber}
  {c : Current} {s : Shared} {w : ω} {t : Turn ω}

theorem Custody.after_reported (k : Custody) (fiber : Nat) (r : Report) (d : Decision) :
    k.after (.reported fiber r d) = k := by
  cases k <;> rfl

theorem Custody.free_following_consulted (questions : List Consulted) :
    Custody.free.following (questions.map .consulted) = .free := by
  induction questions with
  | nil => rfl
  | cons q qs ih => exact ih

theorem Attempt.Regular.start (call : Call) (consistency : Consistency) (connection : Connection) :
    (Attempt.start call consistency connection).Regular call :=
  ⟨rfl, rfl⟩

/-- An attempt that begins when no request is under way hands over its own. -/
theorem Fiber.accounts_begin
    (hcall : ∀ consistency, (settings.call.request consistency).runsStatement = true)
    (f : Fiber) (node : Node) (connection : Connection) (s : Shared) (w : ω) :
    (f.begin settings now node connection s w).fiber.Accounts settings.call
      (Custody.free.following (f.begin settings now node connection s w).acts) := by
  refine ⟨.start .., ?_⟩
  simp [begin, Custody.after, Current.custody, Attempt.start, Attempt.request, hcall]

theorem Fiber.Seeks.accounts
    (hcall : ∀ consistency, (settings.call.request consistency).runsStatement = true)
    (h : Seeks env settings now f s w t) :
    t.fiber.Accounts settings.call (Custody.free.following t.acts) := by
  induction h with
  | exhausted hd hn =>
    simp [Accounts, Custody.free_following_consulted]
  | begins hd hn hc =>
    simp [Custody.free_following_consulted, Custody.after]
    exact accounts_begin hcall ..
  | refused hd hn hc _ ih =>
    simpa [Custody.free_following_consulted, Custody.after] using ih

/-- After a failed attempt no request is under way and none may have been applied, or the failure is
one that is not retried. -/
theorem Fiber.Falters.custody {call : Call} {error : AttemptError} {acts : List Act}
    (hc : c.attempt.Regular call) (h : Falters settings c error acts) (fiber : Nat) :
    c.custody.following (acts ++ [.failed c.number fiber c.node error]) = .free ∨
      c.custody.following (acts ++ [.failed c.number fiber c.node error]) = .kept ∧
        c.attempt.written = true ∧ (∀ cause, error ≠ .writeFailed cause) ∧
        ∀ e reason, error = .refused e reason → e.precludesEffect = false := by
  have hw := hc.written_eq
  cases h with
  | timedOut hl =>
    unfold Current.custody
    split
    · simp [Custody.after]
    · split
      · next hs ha => simp_all [Custody.after]
      · simp [Custody.after]
  | @heard signal error he hr =>
    by_cases hs : c.attempt.stage = .reprepare
    · left
      simp only [Current.custody, hs, if_true]
      cases signal <;> simp [Custody.after]
    · rcases Attempt.react_fails hr with ⟨cause, rfl, rfl⟩ | ⟨cause, rfl, rfl⟩ | ⟨r, rfl, hans⟩
      · have ha : c.attempt.acknowledged = false := by simpa [Attempt.expects] using he
        simp [Current.custody, hs, ha, Custody.after]
      · have ha : c.attempt.acknowledged = true := by simpa [Attempt.expects] using he
        simp [Current.custody, hs, ha, Custody.after, hw]
      · have ha : c.attempt.acknowledged = true := by simpa [Attempt.expects] using he
        cases hp : r.precludesEffect with
        | true => simp [Current.custody, hs, ha, Custody.after, hp]
        | false =>
          right
          refine ⟨by simp [Current.custody, hs, ha, Custody.after, hp], by simp [hw, hs, ha],
            ?_, ?_⟩
          · rintro cause rfl
            have := hans hs
            unfold Response.answer at this
            split at this <;> simp at this
          · rintro e reason rfl
            have := Response.answer_refused.1 (hans hs)
            simpa [Response.precludesEffect, this] using hp

/-- A failure the standard policy retries leaves no request under way, and none that may have been
applied. -/
theorem Fiber.Falters.free_of_retry {error : AttemptError} {acts : List Act}
    (hid : settings.routing.idempotent = false) (hc : c.attempt.Regular settings.call)
    (h : Falters settings c error acts) (fiber : Nat) {b : Budget}
    (hretry : (b.decide (f.reportOn settings c error)).1.isRetry = true) :
    c.custody.following (acts ++ [.failed c.number fiber c.node error]) = .free := by
  rcases h.custody hc fiber with hk | ⟨-, hwritten, hwrite, hrefused⟩
  · exact hk
  · rcases Budget.decide_retry (r := f.reportOn settings c error) hid hretry with
      h | ⟨cause, h⟩ | ⟨e, reason, h, hp⟩
    · simp [reportOn, hwritten] at h
    · exact absurd h (hwrite cause)
    · rw [hrefused e reason h] at hp
      cases hp

/-- A fiber that goes on after a decision accounts for the requests, if none is under way where it
tries again. -/
theorem Fiber.Obeys.accounts
    (hcall : ∀ consistency, (settings.call.request consistency).runsStatement = true)
    {error : AttemptError} {decision : Decision} {k : Custody} (hk : k ≠ .breached)
    (hignore : decision ≠ .ignore) (hfree : decision.isRetry = true → k = .free)
    (h : Obeys env settings now f c error s w decision t) :
    t.fiber.Accounts settings.call (k.following t.acts) := by
  cases h with
  | stop => exact hk
  | ignore => exact absurd rfl hignore
  | again hconn =>
    rw [hfree rfl]
    exact accounts_begin hcall ..
  | onward hconn hseek =>
    rw [hfree rfl]
    simpa [Custody.after] using hseek.accounts hcall
  | next hseek =>
    rw [hfree rfl]
    exact hseek.accounts hcall

/-- A fiber under the standard policy goes on to another request only when none is under way and
none may have been applied. -/
theorem Fiber.Takes.accounts
    (hcall : ∀ consistency, (settings.call.request consistency).runsStatement = true)
    (hid : settings.routing.idempotent = false) (hrule : f.session.rule = .standard)
    (hc : c.attempt.Regular settings.call) (h : Takes env settings now f c s w t) :
    t.fiber.Accounts settings.call (c.custody.following t.acts) := by
  have hw := hc.written_eq
  cases h with
  | @waits signal a he hr =>
    obtain ⟨rfl, rfl⟩ := Attempt.react_waits hr
    have ha : c.attempt.acknowledged = false := by simpa [Attempt.expects] using he
    refine ⟨⟨hc.call_eq, by simp [hw, ha]⟩, ?_⟩
    by_cases hs : c.attempt.stage = .reprepare
    · simp [Current.custody, hs, Custody.after]
    · simp [Current.custody, hs, ha, Custody.after]
  | @sends signal a he hr =>
    obtain ⟨r, id, rfl, -, ⟨hs, ⟨known, reason, hb⟩, rfl⟩ | ⟨hs, hb, rfl⟩⟩ := Attempt.react_sends hr
    all_goals have ha : c.attempt.acknowledged = true := by simpa [Attempt.expects] using he
    · refine ⟨⟨hc.call_eq, by simp⟩, ?_⟩
      simp [Current.custody, hs, ha, Custody.after, Response.precludesEffect, hb,
        ServerError.precludesEffect, Attempt.request, Request.runsStatement]
    · refine ⟨⟨hc.call_eq, by simp [hw, hs]⟩, ?_⟩
      simp [Current.custody, hs, Custody.after, Attempt.request, hc.call_eq, hcall]
  | @succeeds signal answer he hr =>
    show Custody.following _ _ ≠ .breached
    cases signal with
    | acknowledged | writeFailed cause => cases hr
    | delivered d =>
      have ha : c.attempt.acknowledged = true := by simpa [Attempt.expects] using he
      by_cases hs : c.attempt.stage = .reprepare
      · simp [Current.custody, hs, Custody.after]
      · cases d with
        | error cause => simp [Current.custody, hs, ha, Custody.after]
        | ok r => cases hp : r.precludesEffect <;> simp [Current.custody, hs, ha, Custody.after, hp]
  | @fails error acts decision t hf hd ho =>
    have hne :
        c.custody.following (acts ++ [.failed c.number f.index c.node error]) ≠ .breached := by
      rcases hf.custody hc f.index with hk | ⟨hk, -⟩ <;> simp [hk]
    have hreported : c.custody.following (acts ++ [.failed c.number f.index c.node error,
          .reported f.index (f.reportOn settings c error) decision]) =
        c.custody.following (acts ++ [.failed c.number f.index c.node error]) := by
      simp [Custody.after_reported]
    rw [hrule] at hd
    subst hd
    rw [Turn.after_fiber, Turn.after_acts, Custody.following_append, hreported]
    refine ho.accounts hcall hne (Budget.decide_ne_ignore _ _) fun hretry => ?_
    exact hf.free_of_retry hid hc f.index hretry

end

namespace Execution

variable {ω : Type} {env : Environment ω} {settings : Settings} {since : Nat} {x : Execution}
  {acts : List Act}

/-- An execution without speculation has one fiber, which accounts for where the requests stand. -/
theorem Runs.custody
    (hcall : ∀ consistency, (settings.call.request consistency).runsStatement = true)
    (hid : settings.routing.idempotent = false) (hrule : settings.retry = .standard)
    (h : Runs env settings none since x acts) :
    x.race.left = 0 ∧ ∃ f, x.fibers = [f] ∧ f.index = 0 ∧ f.session.rule = .standard ∧
      f.Accounts settings.call (Custody.free.following acts) := by
  induction h with
  | @first w t hseek =>
    have hi := hseek.frame.1
    refine ⟨Nat.le_zero.1 settle_left_le, t.fiber, ?_, hi, ?_, ?_⟩
    · rw [settle_fibers, hi]
      rfl
    · rw [hseek.session_eq]
      exact hrule
    · exact hseek.accounts hcall
  | launch _ hmay _ ih =>
    have := ((Race.mayLaunch_iff _).1 hmay).2
    omega
  | @turn x acts now w t f c hruns hr hf hp ht ih =>
    obtain ⟨hleft, g, hg, hg0, hgrule, hacc⟩ := ih
    obtain rfl : g = f := by
      rw [hg, List.getElem?_singleton] at hf
      split at hf <;> simp_all
    have hi := (ht.frame (hruns.sound.unclaimed hr)).1
    rw [Fiber.Accounts, hp] at hacc
    refine ⟨Nat.le_zero.1 (hleft ▸ settle_left_le), t.fiber, ?_, hi.trans hg0, ?_, ?_⟩
    · rw [settle_fibers, hi, hg0, hg]
      rfl
    · rw [ht.rule_eq, hgrule]
    · rw [Custody.following_append, hacc.2]
      exact ht.accounts hcall hid hgrule hacc.1

end Execution

/-- A fiber that accounts for where the requests stand does so in good order. -/
theorem Fiber.Accounts.ne_breached {call : Call} {f : Fiber} {k : Custody}
    (h : f.Accounts call k) : k ≠ .breached := by
  unfold Fiber.Accounts at h
  split at h
  · rw [h.2]
    unfold Current.custody
    split
    · simp
    · split <;> simp
  · exact h

/-- The call of an execution asks nodes to run a statement, unless it only prepares one. -/
theorem Call.request_runsStatement {call : Call} (h : ∀ text, call ≠ .prepare text)
    (consistency : Consistency) : (call.request consistency).runsStatement = true := by
  cases call with
  | query | execute => rfl
  | prepare text => exact absurd rfl (h text)

/-- **A statement that is not known to be idempotent is applied at most once** under the standard
retry policy, whatever load balancers, pools and connections do. When a request that runs it is
handed to a connection, every earlier one is over, and every earlier one that was acknowledged was
answered with an error that precludes any effect. -/
theorem Execution.Reaches.at_most_once {ω : Type} {env : Environment ω} {s : Session}
    {config : StatementConfig} {call : Call} {x : Execution} {acts : List Act}
    (h : Execution.Reaches env (Terms.ofCall s config call).settings
      (Terms.ofCall s config call).speculation x acts)
    (hcall : ∀ text, call ≠ .prepare text) (hidempotent : config.idempotent = false)
    (hretry : (config.retry.getD (s.profileOf config).retry).rule = .standard) :
    (∀ (before between later : List Act) n stage connection request n' stage' connection' request',
      acts = before ++ .issued n stage connection request :: between ++
        .issued n' stage' connection' request' :: later →
      request.runsStatement = true → request'.runsStatement = true →
      Custody.Over n stage between) ∧
    ∀ (before between later : List Act) n stage n' stage' connection' request',
      acts = before ++ .heard n stage .acknowledged :: between ++
        .issued n' stage' connection' request' :: later →
      stage ≠ .reprepare → request'.runsStatement = true →
      ∃ r : Response, r.precludesEffect = true ∧
        .heard n stage (.delivered (.ok r)) ∈ between := by
  obtain ⟨since, hruns⟩ := h.runs
  have hspeculation : (Terms.ofCall s config call).speculation = none := by
    simp [Terms.ofCall, hidempotent]
  rw [hspeculation] at hruns
  obtain ⟨-, f, -, -, -, hacc⟩ :=
    hruns.custody (Call.request_runsStatement hcall) hidempotent hretry
  constructor
  · intro before between later n stage connection request n' stage' connection' request' hacts
      hr hr'
    exact Custody.over_of_ne_breached hacc.ne_breached hacts hr hr'
  · intro before between later n stage n' stage' connection' request' hacts hs hr
    exact Custody.precluded_of_ne_breached hacc.ne_breached hacts hs hr

/-- A node does not know the statement and breaks the connection while it prepares it again: the
next node is asked, and the refused request is over. -/
theorem Execution.Reaches.at_most_once_after_broken_reprepare :
    let a := Node.sample "10.0.0.1" 0
    let b := Node.sample "10.0.0.2" 1
    let refusal : Response := ⟨.error (.unprepared [7]) "unknown", .none⟩
    let lost : AttemptError := .connectionBroken .closed
    let between : List Act := [.heard 0 .first .acknowledged,
      .heard 0 .first (.delivered (.ok refusal)),
      .issued 0 .reprepare ⟨.pool 0, a.address⟩ (.prepare "UPDATE t SET n = 1"),
      .heard 0 .reprepare .acknowledged, .heard 0 .reprepare (.delivered (.error .closed)),
      .failed 0 0 a lost, .reported 0 ⟨lost, false, .localQuorum, false, 0⟩ (.nextNode none),
      .consulted .fallback, .took 0 b, .began 1 0 b ⟨.pool 1, b.address⟩]
    Custody.Over 0 .first between ∧
      ∃ r : Response, r.precludesEffect = true ∧
        .heard 0 .first (.delivered (.ok r)) ∈ between.tail := by
  intro a b refusal lost between
  let call : Call := .execute [7] "UPDATE t SET n = 1" .none .unpaged none
  let terms := Terms.ofCall Session.sample .standard call
  let env := Environment.steady [a, b]
  let events : List Event := [.signal 0 .first .acknowledged,
    .signal 0 .first (.delivered (.ok refusal)), .signal 0 .reprepare .acknowledged,
    .signal 0 .reprepare (.delivered (.error .closed))]
  have hstart : Execution.Reaches env terms.settings terms.speculation _ _ := .start 0 ()
  have hrun := hstart.follow 0 () events
  let opening : List Act := [.opened 0, .consulted (.pick (some a)), .took 0 a,
    .began 0 0 a ⟨.pool 0, a.address⟩]
  let first : Act := .issued 0 .first ⟨.pool 0, a.address⟩ (call.request .localQuorum)
  let second : Act := .issued 1 .first ⟨.pool 1, b.address⟩ (call.request .localQuorum)
  have hacts : ((Execution.start env terms.settings terms.speculation 0 ()).execution.follow env
      terms.settings 0 () (Execution.start env terms.settings terms.speculation 0 ()).acts
      events).2 = opening ++ first :: between ++ second :: [] := by cbv
  obtain ⟨hover, hlast⟩ := hrun.at_most_once (by simp [call]) rfl rfl
  exact ⟨hover opening between [] 0 .first _ _ 1 .first _ _ hacts rfl rfl,
    hlast (opening ++ [first]) between.tail [] 0 .first 1 .first _ _ hacts (by decide) rfl⟩

end ClusterClient
