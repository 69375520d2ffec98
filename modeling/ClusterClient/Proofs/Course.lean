import ClusterClient.Proofs.Touch
import ClusterClient.Proofs.Winner

/-!
# Executions in a client

`Client.Course` is every course an execution takes in a client. It is a list of strides, one for
each time something happens to the execution's task. Between two strides the client may become any
other with the same task, so whatever other operations do to the nodes, the keyspace and the load
balancers in between is covered, and so is every behaviour of the pools. The retry rule of the terms
goes by the session it decides for and by what all sessions were asked (`RetryRule.decide`), so the
fibers of a course may have retry sessions that differ, and sessions that share what they know. A
stride of a task that is over is one as well: replies to fibers that lost the race may still come.

`Client.Course.law` says which strides touch the session (`Client.Touching`): none, or the one in
which a fiber claims a result that switches the keyspace.
-/

namespace ClusterClient

/-- One step of a client: the client before and after it, and what is noticed. -/
structure Stride where
  before : Client
  after : Client
  notices : List Notice

namespace Stride

/-- What is done to the pools in a stride. -/
def pools (s : Stride) : List PoolAct :=
  s.notices.filterMap Notice.pool?

/-- What an execution does in a stride. -/
def acts (s : Stride) : List Act :=
  s.notices.filterMap Notice.act?

/-- A stride that leaves the keyspace, the nodes and the pools alone. -/
structure Quiet (s : Stride) : Prop where
  keyspace : s.after.session.keyspace = s.before.session.keyspace
  nodes : s.after.session.nodes = s.before.session.nodes
  pools : s.after.session.pools = s.before.session.pools
  untold : s.pools = []

/-- A stride that switches the keyspace and tells the pools, once for each node known at that
moment. -/
structure Switches (s : Stride) (k : String) : Prop where
  keyspace : s.after.session.keyspace = some k
  nodes : s.after.session.nodes = s.before.session.nodes
  pools : s.after.session.pools = s.before.session.pools.mapIdx fun i p =>
    { p with told := p.told ++ .replicate (s.before.session.nodes.countP (·.pool = i)) k }
  told : s.pools = s.before.session.nodes.map fun n => .told n.pool k

end Stride

/-- An execution after something happened to its task. -/
def Execution.proceed (terms : Terms) (now : Nat) (w : Session) (x : Execution) (h : Happening) :
    Execution :=
  match Client.executionEvent? h with
  | none => x
  | some e => (x.step terms.environment terms.settings now w e).execution

/-- An execution that has its result stands still. -/
theorem Execution.proceed_decided {x : Execution} (hx : x.result?.isSome = true) (terms : Terms)
    (now : Nat) (w : Session) (h : Happening) : x.proceed terms now w h = x := by
  have hv : x.race.verdict.isSome = true := by simpa [result?] using hx
  unfold proceed
  split
  · rfl
  · rw [step_decided hv]

namespace Client

theorem step_none {c : Client} {n : Nat} (hn : c.task? n = none) (now : Nat) (h : Happening) :
    c.step now n h = (c, []) := by
  simp [step, hn]

/-- The courses of an execution under a number, with the execution as it stands after them. -/
inductive Course (n : Nat) (purpose : Purpose) (terms : Terms) : List Stride → Execution → Prop
  | start (c : Client) (now : Nat) (config : StatementConfig) (call : Call) :
      terms = Terms.ofCall c.session config call →
      Course n purpose terms
        [⟨c, (c.startCall now n config call purpose).1, (c.startCall now n config call purpose).2⟩]
        (Execution.start terms.environment terms.settings terms.speculation now c.session).execution
  | step {strides : List Stride} {last : Stride} {x : Execution} (c : Client) (now : Nat)
      (h : Happening) :
      Course n purpose terms strides x → strides.getLast? = some last →
      c.task? n = last.after.task? n →
      Course n purpose terms (strides ++ [⟨c, (c.step now n h).1, (c.step now n h).2⟩])
        (x.proceed terms now c.session h)

/-- The stride that follows on another after the client has changed. -/
theorem Course.next {n : Nat} {purpose : Purpose} {terms : Terms} {strides : List Stride}
    {s : Stride} {x : Execution} (hs : Course n purpose terms (strides ++ [s]) x)
    (change : Client → Client) (hchange : ∀ c, (change c).task? n = c.task? n) (now : Nat)
    (h : Happening) :
    Course n purpose terms
      (strides ++ [s] ++
        [⟨change s.after, ((change s.after).step now n h).1, ((change s.after).step now n h).2⟩])
      (x.proceed terms now (change s.after).session h) :=
  hs.step _ now h List.getLast?_concat (hchange _)

/-- The strides of a course that touch the session: none does, or one switches the keyspace as soon
as a fiber has claimed the result. -/
def Touching (strides : List Stride) : Option String → Prop
  | none => ∀ s ∈ strides, s.Quiet
  | some k => ∃ earlier d later, strides = earlier ++ d :: later ∧ d.Switches k ∧
      (∃ a f, .claimed a f ∈ d.acts) ∧ ∀ s ∈ earlier ++ later, s.Quiet

/-- What holds along a course. -/
structure Course.Law (n : Nat) (purpose : Purpose) (terms : Terms) (strides : List Stride)
    (x : Execution) : Prop where
  reaches : Execution.Reaches terms.environment terms.settings terms.speculation x
    (strides.flatMap Stride.acts)
  /-- The task is there as long as there is no result. -/
  task : ∀ last, strides.getLast? = some last → last.after.task? n =
    if x.result?.isNone then some (.executing terms purpose x) else none
  touching : Touching strides (x.result?.bind switchOf?)
  finished : ∀ r, x.result? = some r →
    .finished n (purpose.outcome r) ∈ strides.flatMap Stride.notices

section
variable {c : Client} {n : Nat} {terms : Terms} {purpose : Purpose} {m : Moved Session}

/-- The stride in which a client takes over an execution that moved. -/
def settling (c : Client) (n : Nat) (terms : Terms) (purpose : Purpose) (m : Moved Session) :
    Stride :=
  ⟨c, (c.settleExecution n terms purpose m).1, (c.settleExecution n terms purpose m).2⟩

@[simp] theorem settling_acts : (settling c n terms purpose m).acts = m.acts := by
  unfold settling Stride.acts
  cases hr : m.execution.result? with
  | none => simp [settleExecution_open hr]
  | some r => simp [settleExecution_over hr]

theorem settling_task : (settling c n terms purpose m).after.task? n =
    if m.execution.result?.isNone then some (.executing terms purpose m.execution) else none := by
  unfold settling
  cases hr : m.execution.result? with
  | none => simp [settleExecution_open hr]
  | some r =>
    rw [settleExecution_over hr]
    exact task?_drop c n

theorem settling_finished {r : Except ExecutionError (Answer × ExecutionInfo)}
    (hr : m.execution.result? = some r) :
    .finished n (purpose.outcome r) ∈ (settling c n terms purpose m).notices := by
  simp [settling, settleExecution_over hr]

theorem settling_pools {r : Except ExecutionError (Answer × ExecutionInfo)}
    (hr : m.execution.result? = some r) :
    (settling c n terms purpose m).pools = (switchKeyspace m.world r).2 := by
  simp [settling, settleExecution_over hr, Stride.pools]

theorem settling_quiet (hw : m.world.apart = c.session.apart)
    (hk : m.execution.result?.bind switchOf? = none) :
    (settling c n terms purpose m).Quiet := by
  obtain ⟨hnodes, hkeyspace, hpools⟩ := Session.apart_eq hw
  cases hr : m.execution.result? with
  | none =>
    constructor <;> simp [settling, settleExecution_open hr, Stride.pools, *]
  | some r =>
    have hk : switchOf? r = none := by simpa [hr] using hk
    refine ⟨?_, ?_, ?_, by rw [settling_pools hr, switchKeyspace_none hk]⟩ <;>
      simp [settling, settleExecution_over hr, switchKeyspace_none hk, *]

theorem settling_switches (hw : m.world.apart = c.session.apart) {k : String}
    (hk : m.execution.result?.bind switchOf? = some k) :
    (settling c n terms purpose m).Switches k := by
  obtain ⟨hnodes, hkeyspace, hpools⟩ := Session.apart_eq hw
  obtain ⟨r, hr, hk⟩ := Option.bind_eq_some_iff.1 hk
  refine ⟨?_, ?_, ?_, ?_⟩
  · simp [settling, settleExecution_over hr, switchKeyspace_some hk]
  · simp [settling, settleExecution_over hr, switchKeyspace_some hk, hnodes]
  · simp [settling, settleExecution_over hr, switchKeyspace_some hk, Session.useKeyspace_pools,
      hnodes, hpools]
  · rw [settling_pools hr, switchKeyspace_some hk, Session.useKeyspace_acts, hnodes]
    rfl

end

/-- A result switches the keyspace if it is an answer that does. -/
theorem result?_bind_switchOf? {x : Execution} {k : String} :
    x.result?.bind switchOf? = some k ↔ ∃ answer info,
      x.result? = some (.ok (answer, info)) ∧ answer.body.keyspace? = some k := by
  constructor
  · intro h
    obtain ⟨r, hr, hk⟩ := Option.bind_eq_some_iff.1 h
    cases r with
    | error e => cases hk
    | ok a => exact ⟨a.1, a.2, hr, hk⟩
  · rintro ⟨answer, info, hr, hk⟩
    rw [hr]
    exact hk

/-- A stride that does nothing is quiet. -/
theorem quiet_idle (c : Client) : (⟨c, c, []⟩ : Stride).Quiet := ⟨rfl, rfl, rfl, rfl⟩

/-- A course that touches the session as its result says does so after a quiet stride. -/
theorem Touching.quiet {strides : List Stride} {o : Option String} (h : Touching strides o)
    {s : Stride} (hs : s.Quiet) : Touching (strides ++ [s]) o := by
  cases o with
  | none =>
    intro t ht
    rcases List.mem_append.1 ht with ht | ht
    · exact h t ht
    · rw [List.mem_singleton.1 ht]
      exact hs
  | some k =>
    obtain ⟨earlier, d, later, rfl, hd, hclaim, hrest⟩ := h
    refine ⟨earlier, d, later ++ [s], by simp, hd, hclaim, fun t ht => ?_⟩
    rw [← List.append_assoc, List.mem_append] at ht
    rcases ht with ht | ht
    · exact hrest t ht
    · rw [List.mem_singleton.1 ht]
      exact hs

section
variable {n : Nat} {purpose : Purpose} {terms : Terms} {strides : List Stride} {x : Execution}

/-- The law of a course after a stride in which its execution moved: the session is touched only if
the execution has its result by then. -/
theorem Course.Law.settling {c : Client} {m : Moved Session} (before : List Stride)
    (hw : m.world.apart = c.session.apart) (hbefore : ∀ s ∈ before, s.Quiet)
    (hclaims : (before.flatMap Stride.acts).countP Act.claims = 0)
    (hreaches : Execution.Reaches terms.environment terms.settings terms.speculation m.execution
      (before.flatMap Stride.acts ++ m.acts)) :
    Law n purpose terms (before ++ [Client.settling c n terms purpose m]) m.execution where
  reaches := by simpa using hreaches
  task last hlast := by
    rw [List.getLast?_concat] at hlast
    cases hlast
    exact settling_task
  touching := by
    cases hk : m.execution.result?.bind switchOf? with
    | none => exact Touching.quiet (o := none) hbefore (settling_quiet hw hk)
    | some k =>
      refine ⟨before, _, [], rfl, settling_switches hw hk, ?_, by simpa using hbefore⟩
      obtain ⟨answer, info, hr, -⟩ := result?_bind_switchOf?.1 hk
      obtain ⟨since, hruns⟩ := hreaches.runs
      obtain ⟨a, f, hclaimed⟩ := hruns.standing.result_ok_iff.1 ⟨answer, info, hr⟩
      rw [settling_acts]
      rcases List.mem_append.1 hclaimed with hold | hnew
      · have := List.countP_eq_zero.1 hclaims _ hold
        simp [Act.claims] at this
      · exact ⟨a, f, hnew⟩
  finished r hr := by
    rw [List.flatMap_append]
    exact List.mem_append_right _ (by simpa using settling_finished hr)

/-- Every stride of a course whose execution has no result yet is quiet, and nothing is claimed. -/
theorem Course.Law.undecided (h : Law n purpose terms strides x) (hr : x.result? = none) :
    (∀ s ∈ strides, s.Quiet) ∧ (strides.flatMap Stride.acts).countP Act.claims = 0 := by
  obtain ⟨since, hruns⟩ := h.reaches.runs
  have hquiet := h.touching
  rw [hr] at hquiet
  refine ⟨hquiet, hruns.standing.claimless fun v hv => ?_⟩
  simp [Execution.result?, hv] at hr

/-- The law of a course after a stride in which nothing happened to its execution. -/
theorem Course.Law.idle (h : Law n purpose terms strides x) {last : Stride}
    (hlast : strides.getLast? = some last) {c : Client} (hc : c.task? n = last.after.task? n) :
    Law n purpose terms (strides ++ [⟨c, c, []⟩]) x where
  reaches := by simpa [Stride.acts] using h.reaches
  task s hs := by
    rw [List.getLast?_concat] at hs
    cases hs
    exact hc.trans (h.task last hlast)
  touching := h.touching.quiet (quiet_idle c)
  finished r hr := by simpa using h.finished r hr

/-- What a stride of a course does: nothing, or the client takes over the execution, which had no
result and took a step. -/
theorem Course.Law.stride_cases (hlaw : Law n purpose terms strides x) {last : Stride}
    (hlast : strides.getLast? = some last) {c : Client} (hc : c.task? n = last.after.task? n)
    (now : Nat) (h : Happening) :
    c.step now n h = (c, []) ∧ x.proceed terms now c.session h = x ∨
      x.result? = none ∧ ∃ e,
        let m := x.step terms.environment terms.settings now c.session e
        c.step now n h = c.settleExecution n terms purpose m ∧
          x.proceed terms now c.session h = m.execution := by
  have htask := hc.trans (hlaw.task last hlast)
  cases hr : x.result? with
  | none =>
    have hstep : c.step now n h = c.advance now n (.executing terms purpose x) h := by
      simp [Client.step, htask, hr]
    cases he : executionEvent? h with
    | none => exact .inl (by simp [hstep, advance, Execution.proceed, he])
    | some e => exact .inr ⟨rfl, e, by simp [hstep, advance, he], by simp [Execution.proceed, he]⟩
  | some r =>
    -- The task is over, so nothing that still comes for it is heard.
    exact .inl ⟨step_none (by simp [htask, hr]) now h, Execution.proceed_decided (by simp [hr]) ..⟩

/-- **Along every course the session is touched only by the result.** -/
theorem Course.law (h : Course n purpose terms strides x) : Law n purpose terms strides x := by
  induction h with
  | start c now config call hterms =>
    subst hterms
    exact Law.settling [] (Execution.start_world (Session.environment_keeps ..) _ _)
      (by simp) rfl (.start now c.session)
  | @step strides last x c now h _ hlast hc ih =>
    rcases ih.stride_cases hlast hc now h with ⟨hstep, hx⟩ | ⟨hr, e, hstep, hx⟩
    · rw [hstep, hx]
      exact ih.idle hlast hc
    · obtain ⟨hquiet, hclaims⟩ := ih.undecided hr
      rw [hstep, hx]
      exact Law.settling strides (Execution.step_world (Session.environment_keeps ..) _ _ _)
        hquiet hclaims (ih.reaches.step now c.session e)

/-- **The winner of an execution is unique, is never lost, and is the only one to touch the
session**, under any policies. At most one fiber claims the result; the result is an answer exactly
if one did, and then its answer, its node and its number are those of the result. If that answer
switches the keyspace, one stride of the course does so and tells the pools of the nodes known at
that moment; every other stride, and every stride of any other course, leaves keyspace, nodes and
pools alone. -/
theorem Course.one_winner (h : Course n purpose terms strides x) :
    let acts := strides.flatMap Stride.acts
    acts.countP Act.claims ≤ 1 ∧
    ((∃ answer info, x.result? = some (.ok (answer, info))) ↔ ∃ a f, .claimed a f ∈ acts) ∧
    (∀ answer info, x.result? = some (.ok (answer, info)) → ∃ a f node connection,
      Claim acts a f node answer ∧ .began a f node connection ∈ acts ∧
        info.coordinator = some ⟨node, connection.address⟩ ∧ info.successIndex = some f) ∧
    (∀ r, x.result? = some r →
      .finished n (purpose.outcome r) ∈ strides.flatMap Stride.notices) ∧
    (∀ answer info k, x.result? = some (.ok (answer, info)) → answer.body.keyspace? = some k →
      ∃ earlier d later, strides = earlier ++ d :: later ∧ d.Switches k ∧
        (∃ a f, .claimed a f ∈ d.acts) ∧ ∀ s ∈ earlier ++ later, s.Quiet) ∧
    ((∀ answer info k, x.result? = some (.ok (answer, info)) → answer.body.keyspace? ≠ some k) →
      ∀ s ∈ strides, s.Quiet) := by
  intro acts
  have hlaw := h.law
  obtain ⟨since, hruns⟩ := hlaw.reaches.runs
  have hstanding := hruns.standing
  refine ⟨hstanding.claims_le_one, hstanding.result_ok_iff, fun answer info => hstanding.winner,
    hlaw.finished, fun answer info k hr hk => ?_, fun hno => ?_⟩
  · have htouching := hlaw.touching
    rw [result?_bind_switchOf?.2 ⟨answer, info, hr, hk⟩] at htouching
    exact htouching
  · have hnone : x.result?.bind switchOf? = none := by
      cases hk : x.result?.bind switchOf? with
      | none => rfl
      | some k =>
        obtain ⟨answer, info, hr, hk⟩ := result?_bind_switchOf?.1 hk
        exact absurd hk (hno answer info k hr)
    have htouching := hlaw.touching
    rw [hnone] at htouching
    exact htouching

end

/-- A client of a session that has done nothing yet. -/
def fresh (s : Session) : Client :=
  ⟨s, .fresh s.controlLimit id, ⟨⟨⟨"10.0.0.1"⟩, 9042⟩, none, []⟩, [], 0⟩

/-- The second fiber wins after the nodes have changed: those known then are told. The first fiber
is answered with another keyspace, too late. -/
theorem Course.one_winner_on_moved_nodes :
    let call : Call := .query "USE \"ks\"" .none .unpaged none
    let config : StatementConfig := { StatementConfig.standard with idempotent := true }
    let terms := Terms.ofCall Session.sample config call
    let moved : List Node := [.sample "10.0.0.2" 1, .sample "10.0.0.3" 2]
    ∃ (strides : List Stride) (x : Execution), Course 0 .keyspace terms strides x ∧
      strides.length = 6 ∧ strides.flatMap Stride.pools = moved.map (.told ·.pool "ks") ∧
      ∃ earlier d later, strides = earlier ++ d :: later ∧ d.Switches "ks" ∧
        ∀ s ∈ earlier ++ later, s.Quiet := by
  intro call config terms moved
  let switch (k : String) : Signal := .delivered (.ok ⟨.result (.setKeyspace k), .none⟩)
  have h₀ : Course 0 .keyspace terms ([] ++ [_]) _ := .start (fresh .sample) 0 config call rfl
  have h₁ := h₀.next id (fun _ => rfl) 100 (.alarm .launch)
  have h₂ := h₁.next id (fun _ => rfl) 110 (.signal (.attempt 0 .first) .acknowledged)
  have h₃ := h₂.next id (fun _ => rfl) 120 (.signal (.attempt 1 .first) .acknowledged)
  have h₄ := h₃.next (fun c => { c with session := { c.session with nodes := moved } })
    (fun _ => rfl) 130 (.signal (.attempt 1 .first) (switch "ks"))
  have h₅ := h₄.next id (fun _ => rfl) 140 (.signal (.attempt 0 .first) (switch "other"))
  obtain ⟨-, -, -, -, hswitch, -⟩ := h₅.one_winner
  let info : ExecutionInfo := { ExecutionInfo.empty with
    coordinator := some ⟨.sample "10.0.0.2" 1, ⟨⟨"10.0.0.2"⟩, 9042⟩⟩
    successIndex := some 1
    speculative := 1 }
  obtain ⟨earlier, d, later, hs, hd, -, hquiet⟩ :=
    hswitch ⟨.setKeyspace "ks", .none⟩ info "ks" (by cbv) rfl
  exact ⟨_, _, h₅, rfl, by cbv, earlier, d, later, hs, hd, hquiet⟩

end Client

end ClusterClient
