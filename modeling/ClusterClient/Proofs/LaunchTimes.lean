import ClusterClient.Proofs.Delivery
import ClusterClient.Proofs.Errand
import ClusterClient.Proofs.Pace

/-!
# When fibers are launched along a timeline

Along a timeline a task meets its execution's events one at a time, with any number of other tasks
in between. `Timely` is how a task stands: its operation did not begin yet, its fibers are launched
in another way, or the record tells of a paced execution (`Told`) for which nothing is due or on
its way earlier than now (`Clocked`). What is done for other tasks leaves that as it is (`Apart`).

A cause that is drawn is the earliest one, and the alarm for a launch is among the causes as long as
one is due. So time does not pass the launch (`elapse`), and only a cause of the task that ties with
it could come first. `launched_in_time` is what follows for the launches.
-/

namespace ClusterClient

namespace Client

variable {c : Client} {n : Nat}

/-! ## Tasks that execute nothing -/

theorem finishListing_acts (provide : Option (Address → Pool)) (r : Except MetadataError Reading) :
    (c.finishListing n provide r).2.filterMap Notice.act? = [] := by
  unfold finishListing
  split <;> simp

theorem settleListing_acts (l : Listing) (provide : Option (Address → Pool)) :
    (c.settleListing n l provide).2.filterMap Notice.act? = [] := by
  unfold settleListing
  split
  · rfl
  · exact finishListing_acts provide _

theorem put?_acts (part : Part) (i : Inquiry) : (put? n part i).filterMap Notice.act? = [] := rfl

/-- An operation that executes no call does nothing an execution does. -/
theorem begin_acts {o : Operation} (ho : o.call? = none) (now : Nat) :
    (c.begin now n o).2.filterMap Notice.act? = [] := by
  cases o with
  | query | prepare | execute => cases ho
  | useKeyspace name caseSensitive =>
    simp only [Operation.call?] at ho
    split at ho
    · next hname => simp [begin, hname]
    · cases ho
  | refreshCluster | listNodes =>
    simp only [begin, startListing]
    split
    · exact finishListing_acts _ _
    · rfl
  | refreshNode address broadcast =>
    simp only [begin]
    split
    · rfl
    · split <;> rfl
  | findNode address =>
    simp only [begin]
    split <;> rfl
  | openControl | inquire => rfl

/-- What begins to execute a call does something at once. -/
theorem begin_executing {o : Operation} (hn : c.task? n = none) (ho : o.call? = none) (now : Nat)
    (terms : Terms) (purpose : Purpose) (e : Execution) :
    (c.begin now n o).1.task? n ≠ some (.executing terms purpose e) := by
  intro ht
  have hturned : Turned (fun t acts => t.isExecuting = true → acts ≠ []) n c (c.begin now n o) :=
    begin_turned hn now o (fun t ht hexecuting => by simp [ht] at hexecuting)
      fun _ _ _ _ _ => List.cons_ne_nil _ _
  exact hturned.own _ ht rfl (begin_acts ho now)

theorem step_acts_of_not_executing {t : Task} (ht : c.task? n = some t)
    (hquiet : t.isExecuting = false) (now : Nat) (h : Happening) :
    (c.step now n h).2.filterMap Notice.act? = [] := by
  simp only [step, ht]
  cases t with
  | executing => cases hquiet
  | listing l provide =>
    simp only [advance]
    split
    · simp [Listing.askPeers, put?_acts]
    · exact settleListing_acts _ provide
  | looking l =>
    simp only [advance, settleLookup]
    split <;> simp
  | inquiring i =>
    simp only [advance, settleInquiry]
    split <;> rfl

/-! ## Alarms of a task -/

theorem mem_alarms {t : Task} (hnodup : c.numbers.Nodup) (ht : c.task? n = some t) {time : Nat}
    {alarm : Alarm} : (time, n, alarm) ∈ c.alarms ↔ (time, alarm) ∈ taskAlarms t := by
  simp only [alarms, List.mem_flatMap, List.mem_map]
  constructor
  · rintro ⟨⟨m, u⟩, hu, ⟨time', alarm'⟩, ha, heq⟩
    cases heq
    rwa [← eq_of_mem_tasks hnodup ht hu]
  · intro ha
    obtain ⟨before, after, htasks, -⟩ := List.lookup_eq_some_iff.1 ht
    exact ⟨(n, t), by simp [htasks], (time, alarm), ha, rfl⟩

theorem launch_mem_taskAlarms {terms : Terms} {purpose : Purpose} {e : Execution} {due : Nat} :
    (due, .launch) ∈ taskAlarms (.executing terms purpose e) ↔ e.race.due? = some due := by
  rw [← Execution.launch_mem_alarms]
  simp only [taskAlarms, List.mem_filterMap]
  constructor
  · rintro ⟨⟨time, event⟩, hmem, heq⟩
    cases event <;> cases heq
    exact hmem
  · intro hmem
    exact ⟨_, hmem, rfl⟩

/-- What happens to an execution by itself is the launch of a fiber or the end of an attempt's
time. -/
theorem taskAlarms_cases {terms : Terms} {purpose : Purpose} {e : Execution} {time : Nat}
    {alarm : Alarm} (h : (time, alarm) ∈ taskAlarms (.executing terms purpose e)) :
    alarm = .launch ∧ e.race.due? = some time ∨ alarm ≠ .launch ∧ time ∈ e.deadlines := by
  obtain ⟨⟨time', event⟩, hmem, heq⟩ := List.mem_filterMap.1 h
  cases event with
  | launch =>
    cases heq
    exact .inl ⟨rfl, Execution.launch_mem_alarms.1 hmem⟩
  | expire number =>
    cases heq
    exact .inr ⟨by simp, Execution.mem_deadlines_of_expire hmem⟩
  | signal => cases heq

theorem attempt_mem_taskAlarms {terms : Terms} {purpose : Purpose} {e : Execution} {d : Nat}
    (hv : e.race.verdict = none) (hd : d ∈ e.deadlines) :
    ∃ number, (d, .attempt number) ∈ taskAlarms (.executing terms purpose e) := by
  obtain ⟨number, hmem⟩ := Execution.expire_mem_alarms hv hd
  exact ⟨number, List.mem_filterMap.2 ⟨_, hmem, rfl⟩⟩

theorem execution_mem_settleExecution {terms : Terms} {purpose : Purpose} {m : Moved Session}
    {terms' : Terms} {act : Act}
    (h : .execution terms' act ∈ (c.settleExecution n terms purpose m).2) : terms' = terms := by
  have hissued : .execution terms' act ∈ m.acts.flatMap (issued n terms) →
      terms' = terms := by
    intro h
    obtain ⟨a, -, h⟩ := List.mem_flatMap.1 h
    cases a <;> simp_all [issued]
  cases hr : m.execution.result? with
  | none =>
    rw [settleExecution_open hr] at h
    exact hissued h
  | some r =>
    rw [settleExecution_over hr] at h
    simp only [List.mem_append, List.mem_singleton, List.mem_map, reduceCtorEq, and_false,
      exists_false, or_false] at h
    exact hissued h

theorem terms_of_settleExecution {terms terms' : Terms} {purpose purpose' : Purpose}
    {m : Moved Session} {e : Execution} (h : (c.settleExecution n terms purpose m).1.task? n =
      some (.executing terms' purpose' e)) : terms' = terms := by
  have htask : (settling c n terms purpose m).after.task? n = some (.executing terms' purpose' e) :=
    h
  rw [settling_task] at htask
  split at htask
  · cases htask
    rfl
  · cases htask

/-- What a client does for a task is seen of its execution only if it executes a call. -/
theorem step_execution {now : Nat} {h : Happening} {terms : Terms} {act : Act}
    (hmem : .execution terms act ∈ (c.step now n h).2) :
    ∃ purpose e, c.task? n = some (.executing terms purpose e) := by
  cases ht : c.task? n with
  | none => simp [step, ht] at hmem
  | some t =>
    cases hquiet : t.isExecuting with
    | false =>
      have hact : act ∈ (c.step now n h).2.filterMap Notice.act? :=
        List.mem_filterMap.2 ⟨_, hmem, rfl⟩
      rw [step_acts_of_not_executing ht hquiet] at hact
      cases hact
    | true =>
      cases t with
      | executing terms' purpose e =>
        simp only [step, ht, advance] at hmem
        split at hmem
        · cases hmem
        · obtain rfl := execution_mem_settleExecution hmem
          exact ⟨purpose, e, rfl⟩
      | listing | looking | inquiring => cases hquiet

/-- A task that executes a call did so before. -/
theorem step_executing {now : Nat} {h : Happening} {terms : Terms} {purpose : Purpose}
    {e : Execution} (ht : (c.step now n h).1.task? n = some (.executing terms purpose e)) :
    ∃ purpose e, c.task? n = some (.executing terms purpose e) := by
  have hturned : Turned (fun t _ => ∀ terms purpose e, t = .executing terms purpose e →
      ∃ purpose e, c.task? n = some (.executing terms purpose e)) n c (c.step now n h) := by
    refine step_turned now h (fun t ht _ _ _ heq => ?_) (fun _ _ _ u hu _ _ _ heq => ?_) ?_
    · subst heq
      exact ⟨_, _, ht⟩
    · subst heq
      cases hu
    · intro terms purpose e event ht m _ terms' purpose' e' heq
      cases heq
      exact ⟨_, _, ht⟩
  exact hturned.own _ ht terms purpose e rfl

theorem executionEvent?_eq_launch {h : Happening} :
    executionEvent? h = some .launch ↔ h = .alarm .launch := by
  unfold executionEvent?
  split <;> simp_all

end Client

namespace Rehearsal

namespace Cause

/-- When a cause comes about. -/
def time : Cause → Nat
  | .letter l => l.time
  | .alarm time _ _ => time
  | .incident time _ => time

/-- The task something comes about for, if it does for one under way. -/
def task? : Cause → Option Nat
  | .letter l => some l.ticket.task
  | .alarm _ task _ => some task
  | .incident .. => none

/-- Whether a fiber is to be launched. -/
def isLaunch : Cause → Bool
  | .alarm _ _ .launch => true
  | _ => false

theorem key_fst (rank : Trigger → Nat) (c : Cause) : (c.key rank).1 = c.time := by
  cases c with
  | letter l =>
    obtain ⟨time, ⟨task, request⟩, freight⟩ := l
    cases freight <;> rfl
  | alarm | incident => rfl

end Cause

namespace Timeline

/-- When the next fiber of a task is due, if one is. -/
def launchDue? (n : Nat) (x : Timeline) : Option Nat :=
  match x.client.task? n with
  | some (.executing _ _ e) => e.race.due?
  | _ => none

/-- Whether something else comes about for a task next at the moment a fiber of it is due. -/
def tied (rank : Trigger → Nat) (n : Nat) (x : Timeline) : Bool :=
  match x.draw rank with
  | some (.cause c, _) => c.task? = some n && !c.isLaunch && x.launchDue? n = some c.time
  | _ => false

/-- What a task did so far, with the times. -/
def past (n : Nat) (record : List Sight) : List (Nat × Act) :=
  (record.filter (·.task = n)).filterMap fun s => s.notice.act?.map (s.time, ·)

/-- A moment has come for a task: something was done for it then or later, or nothing is left to be
done until then. -/
def Reached (n t : Nat) (x : Timeline) : Prop :=
  (∃ s ∈ x.record, s.task = n ∧ t ≤ s.time) ∨ x.ready = [] ∧ ∀ c ∈ x.causes, t < c.time

variable {replies : Replies} {rank : Trigger → Nat} {x y rest : Timeline} {n m time : Nat}
  {moved : Client × List Notice}

/-! ## What is drawn -/

/-- A cause is drawn if nothing is due at once, and none is earlier. -/
theorem draw_cause {c : Cause} (h : x.draw rank = some (.cause c, rest)) :
    x.ready = [] ∧ c ∈ x.causes ∧ ∀ b ∈ x.causes, c.time ≤ b.time := by
  unfold draw at h
  split at h
  · cases h
  · next hready =>
    obtain ⟨⟨c, others⟩, hpick, heq⟩ := Option.map_eq_some_iff.1 h
    cases heq
    refine ⟨hready, mem_of_pick hpick, fun b hb => ?_⟩
    have hprecedes := precedes_eq_false.1 (not_precedes_of_pick hpick b hb)
    rw [Cause.key_fst, Cause.key_fst] at hprecedes
    omega

theorem draw_due {d : Due} (h : x.draw rank = some (.due d, rest)) : d ∈ x.ready := by
  cases draw_drawn h with
  | due hd => exact hd

theorem letter_mem_causes {l : Letter} : .letter l ∈ x.causes ↔ l ∈ x.mail := by
  simp [causes]

theorem alarm_mem_causes {task : Nat} {alarm : Alarm} :
    .alarm time task alarm ∈ x.causes ↔ (time, task, alarm) ∈ x.client.alarms := by
  simp [causes]

/-! ## The record of a task -/

theorem past_append (record more : List Sight) :
    past n (record ++ more) = past n record ++ past n more := by
  simp [past]

theorem past_notices (notices : List Notice) :
    past n (notices.map (⟨time, n, ·⟩)) =
      Execution.timed time (notices.filterMap Notice.act?) := by
  simp [past, Execution.timed, List.filter_map, Function.comp_def, List.filterMap_map,
    List.map_filterMap, -Notice.act?]

theorem past_eq_nil {record : List Sight} (h : ∀ σ ∈ record, σ.task ≠ n) : past n record = [] := by
  rw [past, List.filter_eq_nil_iff.2 (by simpa using h)]
  rfl

/-- What becomes of a request handed over at a time comes at that time or later. -/
structure Parcel.At (now : Nat) (t : Ticket) (p : Parcel) : Prop where
  due : ∀ d ∈ p.due, d.task = t.task ∧ d.time = now ∧ d.happening ≠ .alarm .launch
  mail : ∀ l ∈ p.mail, l.ticket.task = t.task ∧ now ≤ l.time

theorem reach_at (r : Reply) (now : Nat) (t : Ticket) : Parcel.At now t (r.reach now t) := by
  unfold Reply.reach
  cases r.effect with
  | writeFails cause | silence => exact ⟨by simp [Due.signal], by simp⟩
  | comesBack delivery =>
    dsimp only
    split <;> exact ⟨by simp [Due.signal], by simp⟩

theorem accept_at (r : Reply) (now : Nat) (t : Ticket) : Parcel.At now t (r.accept now t) := by
  unfold Reply.accept
  split
  · exact reach_at r now t
  · exact ⟨by simp, by simp⟩

/-- What is due at once or on its way after a step of a task is so from before, or for it. -/
theorem act_at (hhanded : Client.Handed n moved.2) :
    (∀ d ∈ (x.act replies time n moved).ready,
      d ∈ x.ready ∨ d.task = n ∧ d.time = time ∧ d.happening ≠ .alarm .launch) ∧
    ∀ l ∈ (x.act replies time n moved).mail, l ∈ x.mail ∨ l.ticket.task = n ∧ time ≤ l.time := by
  have hticket : ∀ t ∈ moved.2.filterMap ticket?, t.task = n := by
    intro t ht
    obtain ⟨notice, hnotice, hissued⟩ := List.mem_filterMap.1 ht
    cases notice with
    | issued u connection request =>
      cases hissued
      exact (hhanded _ _ _ hnotice).1
    | _ => cases hissued
  constructor
  · intro d hd
    rcases List.mem_append.1 hd with hd | hd
    · obtain ⟨p, hp, hd⟩ := List.mem_flatMap.1 hd
      obtain ⟨t, ht, rfl⟩ := List.mem_map.1 hp
      exact .inr (hticket t ht ▸ (accept_at (replies t) time t).due d hd)
    · exact .inl hd
  · intro l hl
    rcases List.mem_append.1 hl with hl | hl
    · exact .inl hl
    · obtain ⟨p, hp, hl⟩ := List.mem_flatMap.1 hl
      obtain ⟨t, ht, rfl⟩ := List.mem_map.1 hp
      exact .inr (hticket t ht ▸ (accept_at (replies t) time t).mail l hl)

/-! ## How a task stands -/

/-- What is due at once for a task is so now, and nothing else comes about for it before. -/
structure Clocked (n : Nat) (e : Execution) (now : Nat) (x : Timeline) : Prop where
  ready : ∀ d ∈ x.ready, d.task = n → d.time = now ∧ d.happening ≠ .alarm .launch
  mail : ∀ l ∈ x.mail, l.ticket.task = n → now ≤ l.time
  deadlines : ∀ d ∈ e.deadlines, now ≤ d

/-- What the record tells of a task that executes a call, or did. -/
structure Told (s : Speculation) (n : Nat) (terms : Terms) (e : Execution) (since : Nat)
    (endings : List (TimedEnding Success)) (now : Nat) (record : List Sight) : Prop where
  speculation : terms.speculation = some s
  reaches : Execution.Reaches terms.environment terms.settings terms.speculation e
    (actsOf n record)
  seen : ∀ σ ∈ record, σ.task = n → σ.time ≤ now ∧
    ∀ terms' act, σ.notice = .execution terms' act → terms' = terms
  pacing : e.Pacing s since (past n record) endings now

/-- How a task stands whose fibers are to be launched in time. -/
inductive Timely (s : Speculation) (n : Nat) (x : Timeline) : Prop
  /-- The operation did not begin yet. -/
  | unbegun : x.client.nextTask ≤ n → (∀ d ∈ x.ready, d.task ≠ n) →
      (∀ l ∈ x.mail, l.ticket.task ≠ n) → Timely s n x
  /-- The operation's fibers are launched in another way, or it has none. -/
  | aside : n < x.client.nextTask →
      (∀ σ ∈ x.record, σ.task = n → ∀ terms act, σ.notice = .execution terms act →
        terms.speculation ≠ some s) →
      (∀ terms purpose e, x.client.task? n = some (.executing terms purpose e) →
        terms.speculation ≠ some s) → Timely s n x
  /-- It executes a call, or has its result. -/
  | executing {terms : Terms} {purpose : Purpose} {e : Execution} {since : Nat}
      {endings : List (TimedEnding Success)} {now : Nat} :
      n < x.client.nextTask →
      x.client.task? n =
        (if e.result?.isNone then some (.executing terms purpose e) else none) →
      Told s n terms e since endings now x.record →
      (e.result? = none → Clocked n e now x) → Timely s n x

/-- A timeline after something that does not concern a task. -/
structure Apart (n : Nat) (x y : Timeline) : Prop where
  task : y.client.task? n = x.client.task? n
  nextTask : n < y.client.nextTask ↔ n < x.client.nextTask
  record : y.record.filter (·.task = n) = x.record.filter (·.task = n)
  ready : ∀ d ∈ y.ready, d.task = n → d ∈ x.ready
  mail : ∀ l ∈ y.mail, l.ticket.task = n → l ∈ x.mail

variable {s : Speculation}

theorem Leaves.apart (h : Leaves x rest) (n : Nat) : Apart n x rest where
  task := by rw [h.client]
  nextTask := by rw [h.client]
  record := by rw [h.record]
  ready d hd _ := h.ready hd
  mail l hl _ := h.mail hl

/-- A step of another task does not concern one. -/
theorem Apart.act {own : Task → List Act → Prop} {c : Client} (htasks : c.tasks = x.client.tasks)
    (hnext : n < c.nextTask ↔ n < x.client.nextTask) (hm : m ≠ n)
    (hturned : Client.Turned own m c moved) : Apart n x (x.act replies time m moved) where
  task := (hturned.others n (Ne.symm hm)).trans (Client.task?_congr htasks n)
  nextTask := by
    rw [← hnext, ← hturned.nextTask]
    rfl
  record := by
    have hother : (moved.2.map (⟨time, m, ·⟩) : List Sight).filter (·.task = n) = [] := by
      simp [List.filter_map, Function.comp_def, hm]
    rw [Timeline.act, List.filter_append, hother, List.append_nil]
  ready d hd hn := by
    rcases (act_at hturned.handed).1 d hd with hd | ⟨hd, -, -⟩
    · exact hd
    · exact absurd (hd.symm.trans hn) hm
  mail l hl hn := by
    rcases (act_at hturned.handed).2 l hl with hl | ⟨hl, -⟩
    · exact hl
    · exact absurd (hl.symm.trans hn) hm

theorem Apart.mem_record (h : Apart n x y) {σ : Sight} (hσ : σ ∈ y.record) (hn : σ.task = n) :
    σ ∈ x.record := by
  have hmem : σ ∈ y.record.filter (·.task = n) := List.mem_filter.2 ⟨hσ, decide_eq_true hn⟩
  rw [h.record] at hmem
  exact (List.mem_filter.1 hmem).1

theorem Timely.apart (hx : x.Timely s n) (h : Apart n x y) : y.Timely s n := by
  cases hx with
  | unbegun hle hready hmail =>
    refine .unbegun ?_ (fun d hd hn => hready d (h.ready d hd hn) hn)
      fun l hl hn => hmail l (h.mail l hl hn) hn
    have := h.nextTask
    omega
  | aside hlt hrecord htask =>
    exact .aside (h.nextTask.2 hlt) (fun σ hσ hn => hrecord σ (h.mem_record hσ hn) hn)
      (h.task ▸ htask)
  | executing hlt htask htold hclock =>
    obtain ⟨hspeculation, hreaches, hseen, hpacing⟩ := htold
    have hacts : actsOf n y.record = actsOf n x.record := by rw [actsOf, actsOf, h.record]
    have hpast : past n y.record = past n x.record := by rw [past, past, h.record]
    refine .executing (h.nextTask.2 hlt) (h.task.trans htask) ⟨hspeculation, hacts ▸ hreaches,
      fun σ hσ hn => hseen σ (h.mem_record hσ hn) hn, hpast ▸ hpacing⟩ fun hopen => ?_
    obtain ⟨hready, hmail, hdeadlines⟩ := hclock hopen
    exact ⟨fun d hd hn => hready d (h.ready d hd hn) hn,
      fun l hl hn => hmail l (h.mail l hl hn) hn, hdeadlines⟩

/-! ## Steps of the task -/

variable {terms : Terms} {purpose : Purpose} {e : Execution} {since now : Nat}
  {endings : List (TimedEnding Success)}

/-- A task stands well after a step of its execution if all that happened before did by now. -/
theorem Timely.settled {c : Client} {m : Moved Session} (hlt : n < c.nextTask)
    (hspeculation : terms.speculation = some s)
    (hreaches : Execution.Reaches terms.environment terms.settings terms.speculation m.execution
      (actsOf n x.record ++ m.acts))
    (hseen : ∀ σ ∈ x.record, σ.task = n → σ.time ≤ now ∧
      ∀ terms' act, σ.notice = .execution terms' act → terms' = terms)
    (hpacing : m.execution.Pacing s since (past n x.record ++ Execution.timed now m.acts) endings
      now)
    (hclock : Clocked n m.execution now x) :
    (x.act replies now n (c.settleExecution n terms purpose m)).Timely s n := by
  have hturned : Client.Turned (fun _ _ => True) n c (c.settleExecution n terms purpose m) :=
    Client.settleExecution_turned fun _ => trivial
  have hacts : (Client.settling c n terms purpose m).acts = m.acts := Client.settling_acts
  rw [Stride.acts, Client.settling] at hacts
  have hactsOf : actsOf n (x.act replies now n (c.settleExecution n terms purpose m)).record =
      actsOf n x.record ++ m.acts := by
    rw [Timeline.act, actsOf_append, actsOf_notices, hacts]
  have hpast : past n (x.act replies now n (c.settleExecution n terms purpose m)).record =
      past n x.record ++ Execution.timed now m.acts := by
    rw [Timeline.act, past_append, past_notices, hacts]
  refine .executing (hturned.nextTask ▸ hlt) Client.settling_task
    ⟨hspeculation, hactsOf ▸ hreaches, ?_, hpast ▸ hpacing⟩ fun _ => ⟨?_, ?_, hclock.deadlines⟩
  · intro σ hσ hn
    rcases List.mem_append.1 hσ with hσ | hσ
    · exact hseen σ hσ hn
    · obtain ⟨notice, hnotice, rfl⟩ := List.mem_map.1 hσ
      refine ⟨Nat.le_refl _, fun terms' act heq => ?_⟩
      obtain rfl : notice = .execution terms' act := heq
      exact Client.execution_mem_settleExecution hnotice
  · intro d hd hn
    rcases (act_at hturned.handed).1 d hd with hd | ⟨-, hd⟩
    · exact hclock.ready d hd hn
    · exact hd
  · intro l hl hn
    rcases (act_at hturned.handed).2 l hl with hl | ⟨-, hl⟩
    · exact hclock.mail l hl hn
    · exact hl

/-- Time goes by for a task whose next fiber is not due yet. -/
theorem Told.wait {later : Nat} {record : List Sight}
    (h : Told s n terms e since endings now record) (hle : now ≤ later)
    (hlt : ∀ due, e.race.due? = some due → later < due) :
    Told s n terms e since endings later record :=
  { h with
    seen := fun σ hσ hn => ⟨Nat.le_trans (h.seen σ hσ hn).1 hle, (h.seen σ hσ hn).2⟩
    pacing := h.pacing.wait hle hlt }

/-- Something happens to a task: the launch of a fiber when it is due, anything else before. -/
theorem Told.happen {d : Due} (h : Told s d.task terms e since endings now x.record)
    (hlt : d.task < x.client.nextTask)
    (htask : x.client.task? d.task = some (.executing terms purpose e))
    (hopen : e.result? = none) (hle : now ≤ d.time) (hclock : Clocked d.task e d.time x)
    (hlaunch : d.happening = .alarm .launch → e.race.due? = some d.time)
    (hother : d.happening ≠ .alarm .launch → ∀ due, e.race.due? = some due → d.time < due) :
    (x.happen replies d).Timely s d.task := by
  cases he : Client.executionEvent? d.happening with
  | none =>
    have hstep : x.client.step d.time d.task d.happening = (x.client, []) := by
      simp [Client.step, htask, Client.advance, he]
    have hne : d.happening ≠ .alarm .launch := fun heq => by
      rw [Client.executionEvent?_eq_launch.2 heq] at he
      cases he
    rw [Timeline.happen, hstep, act_idle]
    have hgoes : e.result?.isNone = true := by simp [hopen]
    exact .executing hlt (htask.trans (if_pos hgoes).symm) (h.wait hle (hother hne)) fun _ => hclock
  | some event =>
    have hstep : x.client.step d.time d.task d.happening = x.client.settleExecution d.task terms
        purpose (e.step terms.environment terms.settings d.time x.client.session event) := by
      simp [Client.step, htask, Client.advance, he]
    obtain ⟨_, hruns⟩ := h.reaches.runs
    have hsound := hruns.sound
    obtain ⟨endings, hpacing⟩ := h.pacing.step terms.environment terms.settings hsound hle
      x.client.session (fun hl _ => hlaunch (Client.executionEvent?_eq_launch.1 (hl ▸ he)))
      fun hl => hother fun heq => hl <|
        Option.some.inj (he.symm.trans (Client.executionEvent?_eq_launch.2 heq))
    rw [Timeline.happen, hstep]
    exact .settled hlt h.speculation (h.reaches.step d.time x.client.session event)
      (fun σ hσ hn => ⟨Nat.le_trans (h.seen σ hσ hn).1 hle, (h.seen σ hσ hn).2⟩) hpacing
      ⟨hclock.ready, hclock.mail, Execution.step_deadlines_le hsound hclock.deadlines _ event⟩

theorem Timely.act_aside (hlt : n < moved.1.nextTask)
    (hrecord : ∀ σ ∈ x.record, σ.task = n → ∀ terms act, σ.notice = .execution terms act →
      terms.speculation ≠ some s)
    (hnotices : ∀ terms act, .execution terms act ∈ moved.2 → terms.speculation ≠ some s)
    (htask : ∀ terms purpose e, moved.1.task? n = some (.executing terms purpose e) →
      terms.speculation ≠ some s) : (x.act replies time n moved).Timely s n := by
  refine .aside hlt (fun σ hσ hn terms act heq => ?_) htask
  rcases List.mem_append.1 hσ with hσ | hσ
  · exact hrecord σ hσ hn terms act heq
  · obtain ⟨notice, hnotice, rfl⟩ := List.mem_map.1 hσ
    obtain rfl : notice = .execution terms act := heq
    exact hnotices terms act hnotice

/-- The operation of a task begins. -/
theorem Timely.begin (hx : x.Sound) (hready : ∀ d ∈ x.ready, d.task ≠ x.client.nextTask)
    (hmail : ∀ l ∈ x.mail, l.ticket.task ≠ x.client.nextTask) (o : Operation) :
    (x.meet replies time (.begins o)).Timely s x.client.nextTask := by
  obtain ⟨hfree, hrecord⟩ := hx.numbered x.client.nextTask (Nat.le_refl _)
  -- What the operation starts is looked at when nothing is due any more.
  let y : Timeline := { x with ready := x.ready ++ [⟨time, x.client.nextTask, .resume⟩] }
  have hmeet : x.meet replies time (.begins o) =
      y.act replies time x.client.nextTask (x.client.start time o) := by
    simp [meet, Timeline.act, y, List.append_assoc]
  rw [hmeet]
  let c : Client := { x.client with nextTask := x.client.nextTask + 1 }
  have hnone : c.task? x.client.nextTask = none := hfree
  have hlt : x.client.nextTask < c.nextTask := Nat.lt_succ_self _
  have hunseen : ∀ σ ∈ y.record, σ.task = x.client.nextTask → ∀ terms act,
      σ.notice = .execution terms act → terms.speculation ≠ some s :=
    fun σ hσ hn => absurd hn (hrecord σ hσ)
  cases ho : o.call? with
  | none =>
    have hacts : (x.client.start time o).2.filterMap Notice.act? = [] := Client.begin_acts ho time
    refine .act_aside ?_ hunseen (fun terms act hmem => ?_) fun terms purpose e ht =>
      absurd ht (Client.begin_executing hnone ho time terms purpose e)
    · exact (Client.Turned.of_start hfree time o).nextTask ▸ hlt
    · have hact : act ∈ (x.client.start time o).2.filterMap Notice.act? :=
        List.mem_filterMap.2 ⟨_, hmem, rfl⟩
      rw [hacts] at hact
      cases hact
  | some call =>
    obtain ⟨config, call, purpose⟩ := call
    have hstart : x.client.start time o = c.startCall time x.client.nextTask config call purpose :=
      Client.begin_of_call ho c time _
    rw [hstart, Client.startCall]
    generalize Terms.ofCall c.session config call = terms
    by_cases hspeculation : terms.speculation = some s
    · obtain ⟨endings, hpacing⟩ :=
        Execution.Pacing.start s terms.environment terms.settings time c.session
      have hpast : past x.client.nextTask y.record = [] := past_eq_nil hrecord
      rw [← hspeculation, ← List.nil_append (Execution.timed _ _), ← hpast] at hpacing
      refine .settled hlt hspeculation ?_ (fun σ hσ hn => absurd hn (hrecord σ hσ)) hpacing
        ⟨fun d hd hn => ?_, fun l hl hn => absurd hn (hmail l hl),
          Execution.start_deadlines_le _ _ _ time c.session⟩
      · rw [actsOf_eq_nil hrecord]
        exact .start time c.session
      · rcases List.mem_append.1 hd with hd | hd
        · exact absurd hn (hready d hd)
        · rw [List.mem_singleton.1 hd]
          exact ⟨rfl, by simp⟩
    · have hturned : Client.Turned (fun _ _ => True) x.client.nextTask c
          (c.settleExecution x.client.nextTask terms purpose
            (Execution.start terms.environment terms.settings terms.speculation time c.session)) :=
        Client.settleExecution_turned fun _ => trivial
      refine .act_aside (hturned.nextTask ▸ hlt) hunseen (fun terms' act hmem => ?_)
        fun terms' purpose' e ht => ?_
      · rwa [Client.execution_mem_settleExecution hmem]
      · rwa [Client.terms_of_settleExecution ht]

/-- Something happens to a task. If its execution goes on, the launch of a fiber happens when one is
due, and anything else before. -/
theorem Timely.happen {d : Due} (hx : x.Timely s d.task) (hleaves : Leaves x rest)
    (hbegun : d.task < x.client.nextTask)
    (hown : ∀ {terms purpose e since endings now},
      x.client.task? d.task = some (.executing terms purpose e) → e.result? = none →
      Told s d.task terms e since endings now x.record → Clocked d.task e now x →
      now ≤ d.time ∧ Clocked d.task e d.time rest ∧
        (d.happening = .alarm .launch → e.race.due? = some d.time) ∧
        (d.happening ≠ .alarm .launch → ∀ due, e.race.due? = some due → d.time < due)) :
    (rest.happen replies d).Timely s d.task := by
  obtain ⟨hclient, hrecord, -, -, -⟩ := hleaves
  cases hx with
  | unbegun hle => exact absurd hbegun (Nat.not_lt.2 hle)
  | aside hlt hseen htask =>
    refine .act_aside ?_ (hrecord ▸ hseen) (fun terms act hmem => ?_) fun terms purpose e ht => ?_
    · rw [(Client.Turned.of_step _ _ _ _).nextTask, hclient]
      exact hlt
    · obtain ⟨purpose, e, ht⟩ := Client.step_execution hmem
      exact htask terms purpose e (hclient ▸ ht)
    · obtain ⟨purpose, e, ht⟩ := Client.step_executing ht
      exact htask terms purpose e (hclient ▸ ht)
  | @executing terms purpose e since endings now hlt htask htold hclock =>
    have hlt' : d.task < rest.client.nextTask := by rwa [hclient]
    have htold' : Told s d.task terms e since endings now rest.record := by rwa [hrecord]
    cases hopen : e.result? with
    | none =>
      rw [hopen, Option.isNone_none, if_pos rfl] at htask
      obtain ⟨hle, hclock, hlaunch, hother⟩ := hown htask hopen htold (hclock hopen)
      exact htold'.happen hlt' (hclient ▸ htask) hopen hle hclock hlaunch hother
    | some r =>
      have hnone : rest.client.task? d.task = none := by simp [hclient, htask, hopen]
      rw [Timeline.happen, Client.step_none hnone, act_idle]
      rw [← hclient] at htask
      refine .executing hlt' htask htold' fun h => ?_
      rw [hopen] at h
      cases h

/-- When a cause is drawn for a task whose execution goes on, time has come to it. -/
theorem elapse {c : Cause} (hs : 0 < s.interval) (hsound : x.Sound)
    (hdraw : x.draw rank = some (.cause c, rest)) (hn : c.task? = some n)
    (htied : x.tied rank n = false)
    (htask : x.client.task? n = some (.executing terms purpose e)) (hopen : e.result? = none)
    (htold : Told s n terms e since endings now x.record) (hclock : Clocked n e now x) :
    now ≤ c.time ∧ Clocked n e c.time rest ∧
      (c.isLaunch = true → e.race.due? = some c.time) ∧
      (c.isLaunch = false → ∀ due, e.race.due? = some due → c.time < due) := by
  obtain ⟨hready, hmem, hmin⟩ := draw_cause hdraw
  have hleaves := draw_leaves hdraw
  have hpace := htold.pacing.paced.pace hs
  have hv : e.race.verdict = none := by simpa [Execution.result?] using hopen
  have halarm {time : Nat} {alarm : Alarm} : .alarm time n alarm ∈ x.causes ↔
      (time, alarm) ∈ Client.taskAlarms (.executing terms purpose e) :=
    alarm_mem_causes.trans (Client.mem_alarms hsound.nodup htask)
  have hdue : ∀ due, e.race.due? = some due → now < due := by
    intro due hdue
    obtain ⟨hmay, rfl⟩ := Race.due?_eq_some.1 hdue
    exact hpace.lt_due hmay
  have halarms {time : Nat} {alarm : Alarm} (h : .alarm time n alarm ∈ x.causes) :
      now ≤ time ∧ (alarm = .launch → e.race.due? = some time) := by
    rcases Client.taskAlarms_cases (halarm.1 h) with ⟨-, h⟩ | ⟨hne, h⟩
    · exact ⟨Nat.le_of_lt (hdue _ h), fun _ => h⟩
    · exact ⟨hclock.deadlines _ h, fun heq => absurd heq hne⟩
  refine ⟨?_, ⟨?_, ?_, ?_⟩, fun hlaunch => ?_, fun hother due hd => ?_⟩
  · cases c with
    | letter l =>
      cases hn
      exact hclock.mail l (letter_mem_causes.1 hmem) rfl
    | alarm time task alarm =>
      cases hn
      exact (halarms hmem).1
    | incident => cases hn
  · intro d hd
    have := hleaves.ready hd
    rw [hready] at this
    cases this
  · intro l hl _
    exact hmin _ (letter_mem_causes.2 (hleaves.mail hl))
  · intro d hd
    obtain ⟨number, hd⟩ := Client.attempt_mem_taskAlarms hv hd
    exact hmin _ (halarm.2 hd)
  · cases c with
    | alarm time task alarm =>
      cases hn
      cases alarm with
      | launch => exact (halarms hmem).2 rfl
      | attempt | inquiry => cases hlaunch
    | letter | incident => cases hlaunch
  · refine Nat.lt_of_le_of_ne (hmin _ (halarm.2 (Client.launch_mem_taskAlarms.2 hd))) ?_
    rintro rfl
    simp [tied, hdraw, hn, hother, launchDue?, htask, hd, Cause.time] at htied

/-- The write of a request of a task is through. -/
theorem Timely.post (hs : 0 < s.interval) (hsound : x.Sound) (hx : x.Timely s n) {l : Letter}
    (hdraw : x.draw rank = some (.cause (.letter l), rest)) (hn : l.ticket.task = n)
    (htied : x.tied rank n = false) :
    (rest.post ((replies l.ticket).reach l.time l.ticket)).Timely s n := by
  have hleaves := draw_leaves hdraw
  have hat := reach_at (replies l.ticket) l.time l.ticket
  cases hx with
  | unbegun hle hready hmail =>
    cases draw_drawn hdraw with
    | letter hl => exact absurd hn (hmail l hl)
  | aside hlt hseen htask =>
    refine .aside ?_ ?_ ?_
    · rwa [Timeline.post, hleaves.client]
    · rwa [Timeline.post, hleaves.record]
    · rwa [Timeline.post, hleaves.client]
  | @executing terms purpose e since endings now hlt htask htold hclock =>
    have hlt' : n < rest.client.nextTask := by rwa [hleaves.client]
    rw [← hleaves.client] at htask
    cases hopen : e.result? with
    | some r =>
      refine .executing hlt' htask (hleaves.record ▸ htold) fun h => ?_
      rw [hopen] at h
      cases h
    | none =>
      have hexecuting : x.client.task? n = some (.executing terms purpose e) := by
        simpa [hopen, hleaves.client] using htask
      obtain ⟨hle, hclock, -, hother⟩ := elapse hs hsound hdraw (congrArg some hn) htied hexecuting
        hopen htold (hclock hopen)
      have htold' := (hleaves.record ▸ htold).wait hle (hother rfl)
      refine .executing hlt' htask htold' fun _ => ⟨fun d hd hdn => ?_, fun l' hl hln => ?_,
        hclock.deadlines⟩
      · rcases List.mem_append.1 hd with hd | hd
        · exact (hat.due d hd).2
        · exact hclock.ready d hd hdn
      · rcases List.mem_append.1 hl with hl | hl
        · exact hclock.mail l' hl hln
        · exact (hat.mail l' hl).2

/-- What comes in from outside. -/
theorem Timely.meet (hsound : x.Sound) (hx : x.Timely s n) (time : Nat) (i : Incident) :
    (x.meet replies time i).Timely s n := by
  cases i with
  | changes session control => exact hx.apart ⟨rfl, Iff.rfl, rfl, fun _ h _ => h, fun _ h _ => h⟩
  | begins o =>
    by_cases hn : x.client.nextTask = n
    · subst hn
      cases hx with
      | unbegun _ hready hmail => exact .begin hsound hready hmail o
      | aside hlt | executing hlt => exact absurd hlt (Nat.lt_irrefl _)
    · let c : Client := { x.client with nextTask := x.client.nextTask + 1 }
      have hnext : n < c.nextTask ↔ n < x.client.nextTask := by
        show n < x.client.nextTask + 1 ↔ _
        omega
      have hact : Apart n x (x.act replies time x.client.nextTask (x.client.start time o)) :=
        .act (show c.tasks = x.client.tasks from rfl) hnext hn
          (.of_start (hsound.numbered _ (Nat.le_refl _)).1 time o)
      refine hx.apart { hact with ready := fun d hd hdn => ?_ }
      rcases List.mem_append.1 hd with hd | hd
      · exact hact.ready d hd hdn
      · rw [List.mem_singleton.1 hd] at hdn
        exact absurd hdn hn

theorem Apart.happen {d : Due} (hd : d.task ≠ n) : Apart n x (x.happen replies d) :=
  .act rfl Iff.rfl hd (.of_step x.client d.time d.task d.happening)

theorem Apart.post {t : Ticket} (ht : t.task ≠ n) :
    Apart n x (x.post ((replies t).reach time t)) where
  task := rfl
  nextTask := Iff.rfl
  record := rfl
  ready d hd hn := by
    rcases List.mem_append.1 hd with hd | hd
    · exact absurd (((reach_at _ _ _).due d hd).1.symm.trans hn) ht
    · exact hd
  mail l hl hn := by
    rcases List.mem_append.1 hl with hl | hl
    · exact hl
    · exact absurd (((reach_at _ _ _).mail l hl).1.symm.trans hn) ht

/-- What comes about for a task does so after its operation began. -/
theorem Timely.begun_of_cause (hsound : x.Sound) (hx : x.Timely s n) {c : Cause}
    (hc : c ∈ x.causes) (hn : c.task? = some n) : n < x.client.nextTask := by
  cases c with
  | letter l =>
    cases hn
    cases hx with
    | unbegun _ _ hmail => exact absurd rfl (hmail l (letter_mem_causes.1 hc))
    | aside hlt | executing hlt => exact hlt
  | alarm time task alarm =>
    cases hn
    obtain ⟨⟨m, t⟩, ht, hmem⟩ := List.mem_flatMap.1 (alarm_mem_causes.1 hc)
    obtain ⟨_, -, heq⟩ := List.mem_map.1 hmem
    cases heq
    have hsome := Client.mem_numbers.1 (List.mem_map.2 ⟨_, ht, rfl⟩)
    by_contra hle
    rw [(hsound.numbered _ (Nat.not_lt.1 hle)).1] at hsome
    cases hsome
  | incident => cases hn

/-- What is due at once for a task is due before the next launch. -/
theorem Timely.happen_due (hs : 0 < s.interval) {d : Due} (hx : x.Timely s d.task)
    (hdraw : x.draw rank = some (.due d, rest)) : (rest.happen replies d).Timely s d.task := by
  have hleaves := draw_leaves hdraw
  have hd := draw_due hdraw
  refine hx.happen hleaves ?_ fun ht hopen htold hclock => ?_
  · cases hx with
    | unbegun _ hready => exact absurd rfl (hready d hd)
    | aside hlt | executing hlt => exact hlt
  · obtain ⟨rfl, hother⟩ := hclock.ready d hd rfl
    refine ⟨Nat.le_refl _, ⟨fun d hd => hclock.ready d (hleaves.ready hd),
      fun l hl => hclock.mail l (hleaves.mail hl), hclock.deadlines⟩,
      fun h => absurd h hother, fun _ due hdue => ?_⟩
    obtain ⟨hmay, rfl⟩ := Race.due?_eq_some.1 hdue
    exact (htold.pacing.paced.pace hs).lt_due hmay

/-- What comes about for a task happens to it in time. -/
theorem Timely.happen_cause (hs : 0 < s.interval) (hsound : x.Sound) {c : Cause} {d : Due}
    (hx : x.Timely s d.task) (hdraw : x.draw rank = some (.cause c, rest))
    (htied : x.tied rank d.task = false) (hn : c.task? = some d.task) (htime : c.time = d.time)
    (hlaunch : d.happening = .alarm .launch ↔ c.isLaunch = true) :
    (rest.happen replies d).Timely s d.task := by
  refine hx.happen (draw_leaves hdraw) (hx.begun_of_cause hsound (draw_cause hdraw).2.1 hn)
    fun ht hopen htold hclock => ?_
  have htime' := elapse hs hsound hdraw hn htied ht hopen htold hclock
  rw [htime] at htime'
  obtain ⟨hle, hclock, hdue, hother⟩ := htime'
  exact ⟨hle, hclock, fun h => hdue (hlaunch.1 h),
    fun h => hother (by simpa using mt hlaunch.2 h)⟩

/-- **Along every timeline in which nothing comes about for a task at the moment a fiber is due, its
fibers are launched in time.** -/
theorem Timely.next (hs : 0 < s.interval) (hsound : x.Sound) (hx : x.Timely s n)
    (htied : x.tied rank n = false) : (x.next replies rank).Timely s n := by
  unfold Timeline.next
  cases hdraw : x.draw rank with
  | none => exact hx
  | some drawn =>
    obtain ⟨deed, rest⟩ := drawn
    have hleaves := draw_leaves hdraw
    have hrest : rest.Timely s n := hx.apart (hleaves.apart n)
    cases deed with
    | due d =>
      by_cases hn : d.task = n
      · subst hn
        exact hx.happen_due hs hdraw
      · exact hrest.apart (.happen hn)
    | cause c =>
      cases c with
      | letter l =>
        obtain ⟨time, t, freight⟩ := l
        by_cases hn : t.task = n
        · cases freight with
          | write => exact hx.post hs hsound hdraw hn htied
          | reply delivery =>
            subst hn
            exact Timely.happen_cause (d := .signal time t (.delivered delivery)) hs hsound hx
              hdraw htied rfl rfl ⟨nofun, nofun⟩
        · cases freight with
          | write => exact hrest.apart (.post hn)
          | reply delivery => exact hrest.apart (.happen hn)
      | alarm time task alarm =>
        by_cases hn : task = n
        · subst hn
          exact Timely.happen_cause (d := ⟨time, task, .alarm alarm⟩) hs hsound hx hdraw htied rfl
            rfl (by cases alarm <;> simp [Cause.isLaunch])
        · exact hrest.apart (.happen hn)
      | incident time i =>
        have hsound' : ({ rest with incidents := rest.incidents.tail } : Timeline).Sound :=
          hsound.congr (by rw [hleaves.client]) (by rw [hleaves.client]) hleaves.record
        refine Timely.meet hsound' ?_ time i
        exact hrest.apart ⟨rfl, Iff.rfl, rfl, fun _ h _ => h, fun _ h _ => h⟩

theorem Timely.start {client : Client} (hclient : client.tasks = [])
    (incidents : List (Nat × Incident)) : (start client incidents).Timely s n := by
  by_cases hlt : n < client.nextTask
  · refine .aside hlt (by simp [Timeline.start]) fun terms purpose e ht => ?_
    rw [Timeline.start, Client.task?, hclient] at ht
    cases ht
  · exact .unbegun (Nat.not_lt.1 hlt) (by simp [Timeline.start]) (by simp [Timeline.start])

/-- The fibers of an execution were launched in time along a timeline. -/
structure InTime (s : Speculation) (n : Nat) (terms : Terms) (since : Nat) (x : Timeline)
    (e : Execution) (endings : List (TimedEnding Success)) : Prop where
  /-- The execution came about by what was recorded of it. -/
  reaches : Execution.Reaches terms.environment terms.settings terms.speculation e
    (actsOf n x.record)
  /-- It is the one under way, or has its result. -/
  task : ∃ purpose, x.client.task? n =
    if e.result?.isNone then some (.executing terms purpose e) else none
  /-- The endings are those of its fibers. -/
  ended : ∀ i ending, (∃ f ∈ endings, f.fiber = i ∧ f.ending = ending) ↔
    ∃ f, e.fibers[i]? = some f ∧ f.phase = .ended ending
  /-- A fiber ends when it does something last. -/
  timed : ∀ f ∈ endings, Execution.lastActed? f.fiber (past n x.record) = some f.time
  onTime : ∀ t, x.Reached n t →
    Race.OnTime s since e.race (Execution.launches (past n x.record)) endings t

/-- What is recorded of a task tells that its fibers were launched in time. -/
theorem Told.inTime (hs : 0 < s.interval) (hsound : x.Sound)
    (h : Told s n terms e since endings now x.record)
    (htask : x.client.task? n =
      if e.result?.isNone then some (.executing terms purpose e) else none) :
    InTime s n terms since x e endings where
  reaches := h.reaches
  task := ⟨purpose, htask⟩
  ended := h.pacing.ended
  timed := h.pacing.timed
  onTime t ht := by
    have honTime := (h.pacing.paced.pace hs).onTime
    rcases ht with ⟨σ, hσ, hn, hle⟩ | ⟨-, hlt⟩
    · exact honTime.mono (Nat.le_trans hle (h.seen σ hσ hn).1)
    · rcases Nat.le_total t now with hle | hle
      · exact honTime.mono hle
      · refine ((h.pacing.wait hle fun due hdue => ?_).paced.pace hs).onTime
        have hopen : e.result? = none := by
          have hv := ((Race.mayLaunch_iff _).1 (Race.due?_eq_some.1 hdue).1).1
          simp [Execution.result?, hv]
        rw [hopen, Option.isNone_none, if_pos rfl] at htask
        have halarm := (Client.mem_alarms hsound.nodup htask).2
          (Client.launch_mem_taskAlarms.2 hdue)
        exact hlt _ (alarm_mem_causes.2 halarm)

/-- The first fiber is launched when the execution starts. -/
theorem Told.since_eq (hs : 0 < s.interval) {record : List Sight}
    (h : Told s n terms e since endings now record) {t : Nat}
    (hσ : ⟨t, n, .execution terms (.opened 0)⟩ ∈ record) : t = since := by
  have hlaunch : (t, 0) ∈ Execution.launches (past n record) := by
    refine List.mem_filterMap.2 ⟨(t, .opened 0), ?_, rfl⟩
    exact List.mem_filterMap.2 ⟨_, List.mem_filter.2 ⟨hσ, by simp⟩, rfl⟩
  rw [(h.pacing.paced.pace hs).launches_eq] at hlaunch
  obtain ⟨k, -, heq⟩ := List.mem_map.1 hlaunch
  obtain ⟨rfl, rfl⟩ := Prod.mk.inj heq
  simp

/-- A task stands well along every timeline in which nothing else comes about for it at the moment
a fiber of it is due. -/
theorem Timely.run (hs : 0 < s.interval) {client : Client} (hclient : client.tasks = [])
    (incidents : List (Nat × Incident)) {j : Nat}
    (htied : ∀ i < j,
      ((Timeline.next replies rank)^[i] (Timeline.start client incidents)).tied rank n = false) :
    ((Timeline.next replies rank)^[j] (Timeline.start client incidents)).Sound ∧
      ((Timeline.next replies rank)^[j] (Timeline.start client incidents)).Timely s n := by
  induction j with
  | zero => exact ⟨.start hclient incidents, .start hclient incidents⟩
  | succ j ih =>
    obtain ⟨hsound, htimely⟩ := ih fun i hi => htied i (Nat.lt_succ_of_lt hi)
    rw [Function.iterate_succ_apply']
    exact ⟨hsound.next, htimely.next hs hsound (htied j (Nat.lt_succ_self j))⟩

/-- **Fibers are launched every interval, and not after one stopped it.** On every clock, fiber `k`
is launched `k` intervals after the start unless the policy does not allow it or a fiber ended
before with a success, with a failure that every node would return, or because the plan had no
further node. So it is for every race, and for the race of every execution along every timeline in
which nothing else comes about for it at the moment a fiber is due. -/
theorem launched_in_time (hs : 0 < s.interval) :
    (∀ {α : Type} {since : Nat} {r : Race α} {launches : List (Nat × Nat)}
        {endings : List (TimedEnding α)} {now : Nat},
      Race.Paced s since r launches endings now → Race.OnTime s since r launches endings now) ∧
    ∀ {client : Client} (incidents : List (Nat × Incident)) (replies : Replies)
      (rank : Trigger → Nat) (n j : Nat), client.tasks = [] →
      (∀ i < j, ((next replies rank)^[i] (start client incidents)).tied rank n = false) →
      ∀ (since : Nat) (terms : Terms),
        let x := (next replies rank)^[j] (start client incidents)
        ⟨since, n, .execution terms (.opened 0)⟩ ∈ x.record → terms.speculation = some s →
        ∃ e endings, InTime s n terms since x e endings := by
  refine ⟨fun h => (h.pace hs).onTime, ?_⟩
  intro client incidents replies rank n j hclient htied since terms x hσ hspeculation
  obtain ⟨hsound, htimely⟩ := Timely.run hs hclient incidents htied
  cases htimely with
  | unbegun hle => exact absurd rfl ((hsound.numbered n hle).2 _ hσ)
  | aside _ hseen => exact absurd hspeculation (hseen _ hσ rfl terms _ rfl)
  | executing _ htask htold =>
    obtain rfl := (htold.seen _ hσ rfl).2 terms _ rfl
    obtain rfl := htold.since_eq hs hσ
    exact ⟨_, _, htold.inTime hs hsound htask⟩

/-- No node answers, and each fiber gives up after fifty milliseconds, so that for half of the time
none runs. The third fiber finds no node. In a race of the same pace, the second fiber finds none
and is the last. -/
theorem launched_in_time_without_answers :
    let s : Speculation := ⟨2, 100⟩
    let statement : Statement := { Statement.ofText "SELECT v FROM t" with
      config := { StatementConfig.standard with
        idempotent := true
        retry := some ⟨.never, false⟩ } }
    let incidents : List (Nat × Incident) := [(7, .begins (.query statement [] .unpaged))]
    let silent : Replies := fun _ => ⟨.silence, 0, 0⟩
    let run (k : Nat) : Timeline := (next silent fun _ => 0)^[k] (start (.fresh .sample) incidents)
    let gaveUp : Ending Unit := .failed (.gaveUp (.timedOut (.ofMillis 50)))
    let exhausted : Ending Unit := .failed (.planExhausted (.timedOut (.ofMillis 50)))
    (∃ terms e endings, InTime s 0 terms 7 (run 9) e endings ∧
      ∀ t, Race.OnTime s 7 e.race [(7, 0), (107, 1), (207, 2)] endings t) ∧
    ∃ r : Race Unit, r.due? = none ∧
      Race.OnTime s 0 r [(0, 0), (100, 1)] [⟨50, 0, gaveUp⟩, ⟨130, 1, exhausted⟩] 130 := by
  intro s statement incidents silent run gaveUp exhausted
  have hs : 0 < s.interval := by decide
  obtain ⟨hraces, htimelines⟩ := launched_in_time hs
  constructor
  · let terms := Terms.ofCall .sample statement.config
      (.query statement.text (.positional []) .unpaged none)
    have hσ : (run 9).record[0]? = some ⟨7, 0, .execution terms (.opened 0)⟩ := by
      simp only [run, terms]
      cbv
    have huntied : (List.range 9).all (fun i => !(run i).tied (fun _ => 0) 0) = true := by
      simp only [run]
      cbv
    have hrest : Execution.launches (past 0 (run 9).record) = [(7, 0), (107, 1), (207, 2)] ∧
        (run 9).ready.length = 0 ∧ (run 9).causes.length = 0 := by
      simp only [run]
      cbv
    obtain ⟨e, endings, h⟩ := htimelines incidents silent (fun _ => 0) 0 9 rfl
      (fun i hi => by simpa using List.all_eq_true.1 huntied i (List.mem_range.2 hi)) 7 terms
      (List.mem_of_getElem? hσ) rfl
    obtain ⟨hlaunches, hready, hcauses⟩ := hrest
    refine ⟨terms, e, endings, h, fun t => ?_⟩
    have honTime := h.onTime t (.inr ⟨List.length_eq_zero_iff.1 hready, fun c hc => ?_⟩)
    · rwa [hlaunches] at honTime
    · rw [List.length_eq_zero_iff.1 hcauses] at hc
      cases hc
  · have h₀ : Race.Paced s 0 (α := Unit) _ [(0, 0)] [] 50 :=
      .wait .start (by decide) fun due h => by cases h; decide
    have h₁ : Race.Paced s 0 _ [(0, 0)] [⟨50, 0, gaveUp⟩] 50 :=
      .finish 0 gaveUp h₀ rfl (by decide) (by simp)
    have h₂ : Race.Paced s 0 _ [(0, 0), (100, 1)] [⟨50, 0, gaveUp⟩] 130 :=
      .wait (.launch h₁ rfl) (by decide) fun due h => by cases h; decide
    have h₃ : Race.Paced s 0 _ [(0, 0), (100, 1)] [⟨50, 0, gaveUp⟩, ⟨130, 1, exhausted⟩] 130 :=
      .finish 1 exhausted h₂ rfl (by decide) (by simp)
    exact ⟨_, rfl, hraces h₃⟩

end Timeline

end Rehearsal

end ClusterClient
