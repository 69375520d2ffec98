import ClusterClient.Proofs.Budget

/-!
# How often an execution tries

The loop of a fiber has no counter of its own. It goes round once for each node the fiber takes and
once more each time its retry session asks for the same node again (`Trail.rounds`), whatever the
policy. Under the standard policy the second happens at most twice, as `Trail.retries_eq` counts
such retries by two flags that are never taken back. So a fiber begins at most two attempts more
than it took nodes, and an execution is bounded by its plan and its fibers
(`Execution.Reaches.allowance`).
-/

namespace ClusterClient

namespace AttemptError

/-- Whether the node says that a read timed out. -/
def isReadTimeout : AttemptError → Bool
  | .refused (.readTimeout ..) _ => true
  | _ => false

/-- Whether the node says that writing the log of a batch timed out. -/
def isBatchLogTimeout : AttemptError → Bool
  | .refused (.writeTimeout _ _ _ .batchLog) _ => true
  | _ => false

/-- Whether the node says that too few replicas are alive. -/
def isUnavailable : AttemptError → Bool
  | .refused (.unavailable ..) _ => true
  | _ => false

theorem isReadTimeout_of_classify {e : AttemptError} {idempotent : Bool}
    (h : classify e idempotent = some .readTimeout) : e.isReadTimeout = true := by
  unfold classify at h
  split at h <;> simp_all [isReadTimeout]

theorem isBatchLogTimeout_of_classify {e : AttemptError} {idempotent : Bool}
    (h : classify e idempotent = some .writeTimeout) : e.isBatchLogTimeout = true := by
  unfold classify at h
  split at h <;> simp_all [isBatchLogTimeout]

/-- No failure is one of both kinds. -/
theorem isBatchLogTimeout_of_isReadTimeout {e : AttemptError} (h : e.isReadTimeout = true) :
    e.isBatchLogTimeout = false := by
  unfold isReadTimeout at h
  split at h
  · rfl
  · cases h

end AttemptError

namespace Act

/-- Whether a fiber takes a node from the plan. -/
def takes : Act → Bool
  | .took .. => true
  | _ => false

/-- Whether a fiber asks a node for a connection. -/
def tries : Act → Bool
  | .poolFailed .. | .began .. => true
  | _ => false

/-- Whether an attempt begins. -/
def begins : Act → Bool
  | .began .. => true
  | _ => false

/-- Whether a retry session asks for the same node again after a failure. -/
def repeatsAfter (failure : AttemptError → Bool) : Act → Bool
  | .reported _ r (.sameNode _) => failure r.error
  | _ => false

/-- Whether a retry session asks for another node after a failure. -/
def leavesAfter (failure : AttemptError → Bool) : Act → Bool
  | .reported _ r (.nextNode _) => failure r.error
  | _ => false

/-- Whether a request is written for an attempt. -/
def writesFor (n : Nat) : Act → Bool
  | .issued m _ _ _ => m = n
  | _ => false

end Act

/-- How often the fibers of an execution try, given the nodes of its plan. -/
structure Execution.Allowance (x : Execution) (acts : List Act) (P : List Node) : Prop where
  /-- A fiber begins at most two attempts more than it took nodes. -/
  fiber : ∀ i, (Act.ofFiber i acts).countP Act.begins ≤ (Act.takenBy i acts).length + 2
  /-- Each of the two is one its retry session asked for. -/
  extra : ∀ i, (Act.ofFiber i acts).countP Act.begins ≤
    (Act.takenBy i acts).length + (Act.ofFiber i acts).countP (Act.repeatsAfter fun _ => true)
  /-- It asks so only after a read or the log of a batch timed out. -/
  repeated : ∀ i r consistency, .reported i r (.sameNode consistency) ∈ acts →
    r.error.isReadTimeout = true ∨ r.error.isBatchLogTimeout = true
  /-- It asks so once after reads, over the whole life of its fiber. -/
  readTimeout : ∀ i, (Act.ofFiber i acts).countP (Act.repeatsAfter AttemptError.isReadTimeout) ≤ 1
  /-- It asks so once after logs of batches. -/
  batchLog : ∀ i, (Act.ofFiber i acts).countP (Act.repeatsAfter AttemptError.isBatchLogTimeout) ≤ 1
  /-- It goes on once after too few replicas were alive. -/
  unavailable : ∀ i, (Act.ofFiber i acts).countP (Act.leavesAfter AttemptError.isUnavailable) ≤ 1
  /-- All fibers together begin at most as many attempts as there are nodes, and two more each. -/
  total : acts.countP Act.begins ≤ P.length + 2 * x.fibers.length
  /-- An attempt writes at most three requests, and only attempts do. -/
  requests : ∀ n, acts.countP (Act.writesFor n) ≤ 3
  begun : ∀ n stage connection request, .issued n stage connection request ∈ acts →
    ∃ i node, .began n i node connection ∈ acts
  /-- A fiber ends once the attempts it began have ended. -/
  ends : ∀ i f, x.fibers[i]? = some f →
    (∀ n node connection, .began n i node connection ∈ acts → ∃ a ∈ acts, a.ends n = true) →
    ∃ e, f.phase = .ended e

/-! ## Counting by fibers -/

namespace Act

variable {acts : List Act} {p q : Act → Bool}

/-- What each fiber does at most so often more than another thing, all of them do at most so often
more for each of them. -/
theorem countP_le_of_fibers {k : Nat} (m : Nat) (acts : List Act)
    (hp : ∀ a ∈ acts, p a = true → ∃ i < m, a.fiber? = some i)
    (h : ∀ i < m, (ofFiber i acts).countP p ≤ (ofFiber i acts).countP q + k) :
    acts.countP p ≤ acts.countP q + k * m := by
  induction m generalizing acts with
  | zero =>
    have hzero : acts.countP p = 0 := by
      rw [List.countP_eq_zero]
      intro a ha hpa
      obtain ⟨i, hi, -⟩ := hp a ha hpa
      exact absurd hi (Nat.not_lt_zero i)
    omega
  | succ m ih =>
    -- The last fiber's acts are set apart from those of the others.
    let others := acts.filter fun a => !decide (a.fiber? = some m)
    have split (r : Act → Bool) : acts.countP r = (ofFiber m acts).countP r + others.countP r :=
      List.countP_eq_countP_filter_add acts r fun a => decide (a.fiber? = some m)
    have hothers : ∀ i < m, ofFiber i others = ofFiber i acts := by
      intro i hi
      rw [ofFiber, ofFiber, List.filter_filter]
      refine List.filter_congr fun a _ => ?_
      by_cases ha : a.fiber? = some i
      · simp [ha, Nat.ne_of_lt hi]
      · simp [ha]
    have hrest := ih others (fun a ha hpa => ?_) fun i hi => ?_
    · have hlast := h m (Nat.lt_succ_self m)
      rw [split p, split q, Nat.mul_succ]
      omega
    · obtain ⟨hmem, hne⟩ := List.mem_filter.1 ha
      obtain ⟨i, hi, hai⟩ := hp a hmem hpa
      refine ⟨i, ?_, hai⟩
      have : i ≠ m := by
        rintro rfl
        simp [hai] at hne
      omega
    · rw [hothers i hi]
      exact h i (Nat.lt_succ_of_lt hi)

theorem length_taken (acts : List Act) : (taken acts).length = acts.countP takes := by
  rw [taken, List.length_map, List.length_filterMap_eq_countP]
  exact List.countP_congr fun a _ => by cases a <;> simp [taking?, takes]

theorem countP_writesFor (n : Nat) (acts : List Act) :
    acts.countP (writesFor n) = (acts.filterMap (issue? n)).length := by
  rw [List.length_filterMap_eq_countP]
  refine List.countP_congr fun a _ => ?_
  cases a with
  | issued m => by_cases hm : m = n <;> simp [writesFor, issue?, hm]
  | _ => rfl

/-- What happens only if one of two things does happens at most as often as both. -/
theorem countP_le_add {r : Act → Bool} (acts : List Act)
    (h : ∀ a ∈ acts, p a = true → q a = true ∨ r a = true) :
    acts.countP p ≤ acts.countP q + acts.countP r := by
  induction acts with
  | nil => exact Nat.zero_le _
  | cons a acts ih =>
    have hrest := ih fun b hb => h b (List.mem_cons_of_mem a hb)
    have hfirst := h a List.mem_cons_self
    simp only [List.countP_cons]
    by_cases hp : p a = true
    · rcases hfirst hp with hq | hr
      · simp only [hp, hq, if_true]
        omega
      · simp only [hp, hr, if_true]
        omega
    · simp only [hp, Bool.false_eq_true, if_false]
      omega

/-- A session of the standard policy asks for the same node again after a read that timed out, or
after the log of a batch that did, and spends its retry for that. -/
theorem Standard.repeats {a : Act} {failure : AttemptError → Bool} (h : a.Standard)
    (ha : repeatsAfter failure a = true) :
    ∃ i r consistency, a = .reported i r (.sameNode consistency) ∧ failure r.error = true ∧
      (r.error.isReadTimeout = true ∧ a.retries .readTimeout = true ∨
        r.error.isBatchLogTimeout = true ∧ a.retries .writeTimeout = true) := by
  unfold repeatsAfter at ha
  split at ha
  · next i r consistency =>
    obtain ⟨b, hb⟩ := h
    refine ⟨i, r, consistency, rfl, ha, ?_⟩
    refine (Budget.decide_sameNode hb).imp (fun hc => ⟨?_, ?_⟩) fun hc => ⟨?_, ?_⟩
    · exact AttemptError.isReadTimeout_of_classify hc
    · simp [retries, Decision.isRetry, hc]
    · exact AttemptError.isBatchLogTimeout_of_classify hc
    · simp [retries, Decision.isRetry, hc]
  · cases ha

theorem Standard.repeats_read {a : Act} (h : a.Standard)
    (ha : repeatsAfter AttemptError.isReadTimeout a = true) : a.retries .readTimeout = true := by
  obtain ⟨_, r, _, -, hread, ⟨-, hretry⟩ | ⟨hlog, -⟩⟩ := h.repeats ha
  · exact hretry
  · rw [AttemptError.isBatchLogTimeout_of_isReadTimeout hread] at hlog
    cases hlog

theorem Standard.repeats_log {a : Act} (h : a.Standard)
    (ha : repeatsAfter AttemptError.isBatchLogTimeout a = true) :
    a.retries .writeTimeout = true := by
  obtain ⟨_, r, _, -, hlog, ⟨hread, -⟩ | ⟨-, hretry⟩⟩ := h.repeats ha
  · rw [AttemptError.isBatchLogTimeout_of_isReadTimeout hread] at hlog
    cases hlog
  · exact hretry

/-- A session of the standard policy that asks for another node after too few replicas were alive
spends its retry for that. -/
theorem retries_of_leaves {a : Act} (ha : leavesAfter AttemptError.isUnavailable a = true) :
    retries .unavailable a = true := by
  unfold leavesAfter at ha
  split at ha
  · next i r consistency =>
    have hc : classify r.error r.idempotent = some .unavailable := by
      unfold AttemptError.isUnavailable at ha
      split at ha
      · next he => rw [he, classify]
      · cases ha
    simp [retries, Decision.isRetry, hc]
  · cases ha

end Act

/-! ## The rounds of a fiber -/

/-- How many connections a fiber is about to ask for. -/
def Stance.asking : Stance → Nat
  | .visiting _ => 1
  | .roaming | .waiting _ | .done _ => 0

namespace Pose

variable {ω : Type} {env : Environment ω} {settings : Settings} {p p' : Pose} {s s' : Shared}
  {acts : List Act}

/-- A fiber asks for a connection in a move, or is about to, if it takes a node or is told to ask
the same one again. -/
theorem Move.rounds (h : Move env settings p s acts p' s') :
    (Act.ofFiber p.index acts).countP Act.tries + p'.stance.asking =
      (Act.ofFiber p.index acts).countP Act.takes +
        (Act.ofFiber p.index acts).countP (Act.repeatsAfter fun _ => true) + p.stance.asking := by
  cases h with
  | exhausted hs hd hn => simp [hs, Stance.asking]
  | takes hs hd hn =>
    simp [hs, Stance.asking, Act.fiber?, Act.tries, Act.takes, Act.repeatsAfter]
  | refused hs | begins hs =>
    simp [hs, Stance.asking, Act.fiber?, Act.tries, Act.takes, Act.repeatsAfter]
  | waits hs hr he | sends hs hr he => simp [hs, Stance.asking, Act.fiber?]
  | succeeds hs hr he =>
    simp [hs, Stance.asking, Act.fiber?, Act.tries, Act.takes, Act.repeatsAfter]
  | @fails c error heard lore decision hs hf hd hne =>
    cases decision <;>
      simp [hf.ofFiber_heard, hs, obeying, Stance.asking, Act.fiber?, Act.tries, Act.takes,
        Act.repeatsAfter, List.countP_cons]
  | ignores hs hf hd =>
    simp [hf.ofFiber_heard, hs, obeying, Stance.asking, Act.fiber?, Act.tries, Act.takes,
      Act.repeatsAfter]

end Pose

namespace Trail

variable {ω : Type} {env : Environment ω} {settings : Settings} {acts : List Act} {s : Shared}
  {ps : List Pose} {p : Pose} {i : Nat}

/-- **The loop of a fiber goes round for a reason**: it asks for a connection once for each node it
takes, and once more each time its retry session wants the same node again. -/
theorem rounds (h : Trail env settings acts s ps) (hp : ps[i]? = some p) :
    (Act.ofFiber i acts).countP Act.tries + p.stance.asking =
      (Act.takenBy i acts).length +
        (Act.ofFiber i acts).countP (Act.repeatsAfter fun _ => true) := by
  rw [Act.takenBy, Act.length_taken]
  refine h.own (L := fun own p => own.countP Act.tries + p.stance.asking =
    own.countP Act.takes + own.countP (Act.repeatsAfter fun _ => true)) ?_ ?_ hp
  · intro rule i
    rfl
  · intro acts more s s' ps p p' _ _ hmove ih
    have hround := hmove.rounds
    simp only [List.countP_append]
    omega

/-- A fiber begins no more attempts than its nodes and its retry session ask for. -/
theorem begins_le (h : Trail env settings acts s ps) (i : Nat) :
    (Act.ofFiber i acts).countP Act.begins ≤ (Act.takenBy i acts).length +
      (Act.ofFiber i acts).countP (Act.repeatsAfter fun _ => true) := by
  rcases Nat.lt_or_ge i ps.length with hi | hi
  · have hrounds := h.rounds (List.getElem?_eq_getElem hi)
    have hbegins : (Act.ofFiber i acts).countP Act.begins ≤
        (Act.ofFiber i acts).countP Act.tries := by
      refine List.countP_mono_left fun a _ ha => ?_
      cases a with
      | began => rfl
      | _ => cases ha
    omega
  · simp [h.ofFiber_unopened hi]

/-- What a fiber under the standard policy does only with a retry that is granted once, it does at
most once. -/
theorem countP_le_one (h : Trail env settings acts s ps)
    (hrule : ∀ (i : Nat) (p : Pose), ps[i]? = some p → p.session.rule = .standard)
    (kind : Retryable) (hkind : kind.once = true) {q : Act → Bool}
    (hq : ∀ a : Act, a.Standard → q a = true → a.retries kind = true) (i : Nat) :
    (Act.ofFiber i acts).countP q ≤ 1 := by
  rcases Nat.lt_or_ge i ps.length with hi | hi
  · have hp := List.getElem?_eq_getElem hi
    have hretries := h.retries_eq hp (hrule i _ hp) hkind
    have hone := Bool.toNat_le ((Budget.after ps[i].session.told).spent kind)
    have hcount : (Act.ofFiber i acts).countP q ≤ (Act.ofFiber i acts).countP (Act.retries kind) :=
      List.countP_mono_left fun a ha hqa => hq a (h.standard hp (hrule i _ hp) a ha) hqa
    omega
  · simp [h.ofFiber_unopened hi]

/-- A fiber under the standard policy is told at most twice to ask the same node again. -/
theorem repeats_le_two (h : Trail env settings acts s ps)
    (hrule : ∀ (i : Nat) (p : Pose), ps[i]? = some p → p.session.rule = .standard) (i : Nat) :
    (Act.ofFiber i acts).countP (Act.repeatsAfter fun _ => true) ≤ 2 := by
  rcases Nat.lt_or_ge i ps.length with hi | hi
  · have hp := List.getElem?_eq_getElem hi
    have hread := h.countP_le_one hrule .readTimeout rfl (fun _ _ ha => ha) i
    have hwrite := h.countP_le_one hrule .writeTimeout rfl (fun _ _ ha => ha) i
    have hboth : (Act.ofFiber i acts).countP (Act.repeatsAfter fun _ => true) ≤
        (Act.ofFiber i acts).countP (Act.retries .readTimeout) +
          (Act.ofFiber i acts).countP (Act.retries .writeTimeout) := by
      refine Act.countP_le_add _ fun a ha hrepeat => ?_
      obtain ⟨_, _, _, -, -, hkind⟩ := (h.standard hp (hrule i _ hp) a ha).repeats hrepeat
      exact hkind.imp And.right And.right
    omega
  · simp [h.ofFiber_unopened hi]

/-- A fiber under the standard policy is told so only after a read or the log of a batch timed out. -/
theorem repeated (h : Trail env settings acts s ps)
    (hrule : ∀ (i : Nat) (p : Pose), ps[i]? = some p → p.session.rule = .standard) {r : Report}
    {consistency : Option Consistency} (ha : .reported i r (.sameNode consistency) ∈ acts) :
    r.error.isReadTimeout = true ∨ r.error.isBatchLogTimeout = true := by
  have hp := List.getElem?_eq_getElem (h.fiber_lt ha rfl)
  have hstandard := h.standard hp (hrule i _ hp) _ (Act.mem_ofFiber.2 ⟨ha, rfl⟩)
  have hrepeats : Act.repeatsAfter (fun _ => true) (.reported i r (.sameNode consistency)) = true :=
    rfl
  obtain ⟨_, _, _, heq, -, hkind⟩ := hstandard.repeats hrepeats
  cases heq
  exact hkind.imp And.left And.left

/-- An attempt writes at most three requests. -/
theorem writes_le_three (h : Trail env settings acts s ps) (n : Nat) :
    acts.countP (Act.writesFor n) ≤ 3 := by
  obtain ⟨consistency, connection, written, heard, hdialogue⟩ := h.speech.dialogue n
  have hscript : (settings.call.script consistency connection).length ≤ 3 := by
    rw [Call.script, List.length_zip]
    exact Nat.min_le_left _ _
  rw [Act.countP_writesFor, hdialogue.issued]
  exact Nat.le_trans (List.length_take_le' _ _) hscript

/-- A fiber whose attempts have all ended waits for none. -/
theorem not_waiting (h : Trail env settings acts s ps) (hp : ps[i]? = some p)
    (hends : ∀ n node connection, .began n i node connection ∈ acts → ∃ a ∈ acts, a.ends n = true)
    (c : Current) : p.stance ≠ .waiting c := by
  intro hc
  have hbegan := (h.underway hp hc).began
  rw [h.index_eq hp] at hbegan
  obtain ⟨a, ha, hend⟩ := hends _ _ _ hbegan
  -- The attempt would have ended and be waited for.
  have hended : 0 < acts.countP (Act.ends c.number) := List.countP_pos_iff.2 ⟨a, ha, hend⟩
  have hwaits : 0 < ps.countP (·.stance.waitsFor c.number) :=
    List.countP_pos_iff.2 ⟨p, List.mem_of_getElem? hp, by simp [hc]⟩
  have hbalance := h.balance c.number
  rw [h.begun_eq, List.count_eq_one_of_mem List.nodup_range
    (List.mem_range.2 (h.number_lt hp hc))] at hbalance
  omega

end Trail

namespace Execution

variable {ω : Type} {env : Environment ω} {settings : Settings} {speculation : Option Speculation}
  {since : Nat} {x : Execution} {acts : List Act} {P : List Node}

/-- If every fiber begins at most two attempts more than it took nodes, all of them together begin
at most as many as there are nodes in the plan, and two more each. -/
theorem Runs.begins_le_plan (h : Runs env settings speculation since x acts)
    (hP : x.PlanIs env acts P)
    (hfiber : ∀ i, (Act.ofFiber i acts).countP Act.begins ≤ (Act.takenBy i acts).length + 2) :
    acts.countP Act.begins ≤ P.length + 2 * x.fibers.length := by
  have htrail := h.unfolds.trail
  have hcount := Act.countP_le_of_fibers (p := Act.begins) (q := Act.takes) (k := 2)
    x.fibers.length acts (fun a ha hbegins => ?_) fun i _ => ?_
  · obtain ⟨rest, -, hnodes⟩ := hP.handed
    rw [hnodes, List.length_append, Act.length_taken]
    omega
  · cases a with
    | began n i => exact ⟨i, by simpa using htrail.fiber_lt ha rfl, rfl⟩
    | _ => cases hbegins
  · rw [← Act.length_taken]
    exact hfiber i

theorem Runs.within_allowance (h : Runs env settings speculation since x acts)
    (hretry : settings.retry = .standard) (hP : x.PlanIs env acts P) : x.Allowance acts P := by
  have htrail := h.unfolds.trail
  have hrule : ∀ (i : Nat) (p : Pose), (x.fibers.map Fiber.pose)[i]? = some p →
      p.session.rule = .standard := by
    intro i p hp
    obtain ⟨f, hf, rfl⟩ := Option.map_eq_some_iff.1 (List.getElem?_map ▸ hp)
    exact (h.rule_eq hf).trans hretry
  have hfiber (i : Nat) : (Act.ofFiber i acts).countP Act.begins ≤
      (Act.takenBy i acts).length + 2 := by
    have hbegins := htrail.begins_le i
    have htwo := htrail.repeats_le_two hrule i
    omega
  refine
    { fiber := hfiber
      extra := htrail.begins_le
      repeated := fun i r consistency => htrail.repeated hrule
      readTimeout := htrail.countP_le_one hrule .readTimeout rfl fun _ => Act.Standard.repeats_read
      batchLog := htrail.countP_le_one hrule .writeTimeout rfl fun _ => Act.Standard.repeats_log
      unavailable := htrail.countP_le_one hrule .unavailable rfl fun _ _ => Act.retries_of_leaves
      total := h.begins_le_plan hP hfiber
      requests := htrail.writes_le_three
      begun := fun n stage connection request => htrail.began_of_issued
      ends := fun i f hf hends => ?_ }
  cases hphase : f.phase with
  | ended e => exact ⟨e, rfl⟩
  | attempting c =>
    have hpose : (x.fibers.map Fiber.pose)[i]? = some f.pose := by simp [hf]
    exact absurd (by simp [hphase]) (htrail.not_waiting hpose hends c)

/-- **An execution under the standard policy is bounded by its plan and its fibers**, whatever comes
back and however often time is up. A fiber begins at most two attempts more than it took nodes, one
after a read and one after the log of a batch that timed out; it ends once its attempts have. -/
theorem Reaches.allowance (h : Reaches env settings speculation x acts)
    (hretry : settings.retry = .standard) :
    (∃ P, x.PlanIs env acts P) ∧ ∀ P, x.PlanIs env acts P → x.Allowance acts P := by
  obtain ⟨since, h⟩ := h.runs
  exact ⟨h.unfolds.planIs, fun P hP => h.within_allowance hretry hP⟩

/-- Two fibers take a node each, and each tries its node three times: the bound is met. Then the
second one's node refuses once more, and that fiber ends. -/
theorem Reaches.allowance_spent :
    let a := Node.sample "10.0.0.1" 0
    let b := Node.sample "10.0.0.2" 1
    ∃ (x : Execution) (acts : List Act), x.Allowance acts [a, b] ∧ x.fibers.length = 2 ∧
      acts.countP Act.begins = [a, b].length + 2 * x.fibers.length ∧
      (Act.ofFiber 0 acts).countP Act.begins = (Act.takenBy 0 acts).length + 2 ∧
      x.fibers.map (fun f => f.current?.map (·.number)) = [some 4, none] := by
  intro a b
  let env := Environment.steady [a, b]
  let settings : Settings :=
    ⟨.query "SELECT v FROM t" .none .unpaged none, ⟨.one, true⟩, some 50, .standard⟩
  let speculation : Option Speculation := some ⟨1, 100⟩
  let refuse (n : Nat) (e : ServerError) : List Event := [.signal n .first .acknowledged,
    .signal n .first (.delivered (.ok ⟨.error e "late", .none⟩))]
  let read : ServerError := .readTimeout .one 1 1 false
  let log : ServerError := .writeTimeout .one 0 1 .batchLog
  let events : List Event := .launch :: refuse 0 read ++ refuse 1 log ++ refuse 2 log ++
    refuse 3 read ++ refuse 5 .overloaded
  have hstart : Reaches env settings speculation _ _ := .start 0 ()
  obtain ⟨⟨P, hP⟩, hallowance⟩ := (hstart.follow 0 () events).allowance rfl
  let run := (Execution.start env settings speculation 0 ()).execution.follow env settings 0 ()
    (Execution.start env settings speculation 0 ()).acts events
  obtain rfl : P = [a, b] := hP.eq_of_steady fun _ _ => by cbv
  exact ⟨run.1, run.2, hallowance _ hP, by cbv, by cbv, by cbv, by cbv⟩

end Execution

end ClusterClient
