import ClusterClient.Proofs.Delivery
import ClusterClient.Proofs.Repeating

/-!
# Timelines in which an attempt repeats its request

`Timeline.repeating` is a timeline in which one attempt stands at its repeated request where it
stood at its first one. Clients and timelines go on from there as they went on before
(`Client.step_repeating`, `Kept.next_repeating`), as long as the attempt finds its statement known:
what is due, on its way and on record is the same but for the stage of that attempt. Other attempts
and other tasks take the very same steps.

`Replies.detour` is what becomes of the requests when the attempt has to repeat: its first request
is refused, the preparation is answered, and the repeated request gets the reply that the first one
would have had.
-/

namespace ClusterClient

/-- The stage of an attempt at which something is handed over for it or heard. -/
def Act.stage? (n : Nat) : Act → Option Stage
  | .issued m stage _ _ | .heard m stage _ => if m = n then some stage else none
  | _ => none

theorem Act.stage?_eq_some {n : Nat} {act : Act} {stage : Stage} (h : act.stage? n = some stage) :
    (∃ connection request, act = .issued n stage connection request) ∨
      ∃ signal, act = .heard n stage signal := by
  cases act with
  | issued m stage' connection request =>
    simp only [stage?, Option.ite_none_right_eq_some, Option.some.injEq] at h
    obtain ⟨rfl, rfl⟩ := h
    exact .inl ⟨connection, request, rfl⟩
  | heard m stage' signal =>
    simp only [stage?, Option.ite_none_right_eq_some, Option.some.injEq] at h
    obtain ⟨rfl, rfl⟩ := h
    exact .inr ⟨signal, rfl⟩
  | _ => cases h

/-! ## Clients -/

/-- A task, if one attempt of its execution repeats its request. -/
def Task.repeating (n : Nat) : Task → Task
  | .executing terms purpose x => .executing terms purpose (x.amend n .repeating)
  | t => t

/-- A request, if one attempt repeats its request. -/
def RequestId.repeating (n : Nat) : RequestId → RequestId
  | .attempt m stage => .attempt m (stage.repeating n m)
  | .inquiry part => .inquiry part

/-- What happens to a task, if one attempt repeats its request. -/
def Happening.repeating (n : Nat) : Happening → Happening
  | .signal request s => .signal (request.repeating n) s
  | happening => happening

/-- What others see, if one attempt repeats its request. -/
def Notice.repeating (n : Nat) : Notice → Notice
  | .execution terms act => .execution terms (act.repeating n)
  | notice => notice

/-- A request, if one attempt repeats its request. -/
def Ticket.repeating (k n : Nat) (t : Ticket) : Ticket :=
  if t.task = k then { t with request := t.request.repeating n } else t

/-- A request of other than one attempt. -/
def Ticket.Other (k n : Nat) (t : Ticket) : Prop :=
  ∀ stage, t ≠ ⟨k, .attempt n stage⟩

theorem Ticket.exists_stage {k n : Nat} {t : Ticket} (h : ¬t.Other k n) :
    ∃ stage, t = ⟨k, .attempt n stage⟩ := by
  simpa [Other] using h

theorem Ticket.Other.repeating_eq {k n : Nat} {t : Ticket} (h : t.Other k n) :
    Ticket.repeating k n t = t := by
  obtain ⟨task, request⟩ := t
  unfold Ticket.repeating
  split
  · next hk =>
    obtain rfl : task = k := hk
    cases request with
    | inquiry part => rfl
    | attempt m stage =>
      have hm : m ≠ n := fun hm => h stage (by rw [hm])
      simp [RequestId.repeating, Stage.repeating_other hm]
  · rfl

namespace Client

/-- A client, if one attempt of one of its tasks repeats its request. -/
def repeating (k n : Nat) (c : Client) : Client :=
  { c with tasks := c.tasks.map fun (m, t) => (m, if m = k then t.repeating n else t) }

variable {c : Client} {k m n : Nat} {t : Task}

theorem task?_repeating (c : Client) (m : Nat) :
    (c.repeating k n).task? m = (c.task? m).map fun t => if m = k then t.repeating n else t := by
  unfold repeating task?
  dsimp only
  generalize c.tasks = tasks
  induction tasks with
  | nil => rfl
  | cons entry tasks ih =>
    obtain ⟨j, old⟩ := entry
    by_cases hj : m = j
    · simp [hj]
    · have hm : (m == j) = false := by simpa using hj
      rw [List.map_cons, List.lookup_cons, List.lookup_cons, hm, ih]

theorem put_repeating (c : Client) (m : Nat) (t : Task) :
    (c.repeating k n).put m (if m = k then t.repeating n else t) = (c.put m t).repeating k n := by
  unfold put
  rw [task?_repeating, Option.isSome_map]
  split
  · simp only [repeating, List.map_map]
    congr 1
    refine List.map_congr_left fun entry _ => ?_
    obtain ⟨j, old⟩ := entry
    by_cases hj : j = m <;> simp [hj]
  · simp [repeating]

theorem drop_repeating (c : Client) (m : Nat) :
    (c.repeating k n).drop m = (c.drop m).repeating k n := by
  simp [drop, repeating, List.filter_map, Function.comp_def]

theorem taskAlarms_repeating (t : Task) : taskAlarms (t.repeating n) = taskAlarms t := by
  cases t <;> simp [Task.repeating, taskAlarms]

/-- The times of a client do not depend on how far its attempts are. -/
theorem alarms_repeating (c : Client) : (c.repeating k n).alarms = c.alarms := by
  simp only [alarms, repeating, List.flatMap_map]
  congr 1
  funext ⟨m, t⟩
  dsimp only
  split
  · rw [taskAlarms_repeating]
  · rfl

/-- An attempt that is asked to repeat its request is that of one task. -/
theorem repeating_eq_put (hnodup : c.numbers.Nodup) (h : c.task? k = some t) :
    c.put k (t.repeating n) = c.repeating k n := by
  rw [put, if_pos (by rw [h]; rfl), repeating]
  congr 1
  refine List.map_congr_left fun entry hentry => ?_
  obtain ⟨j, old⟩ := entry
  by_cases hj : j = k
  · subst hj
    simp [eq_of_mem_tasks hnodup h hentry]
  · simp [hj]

theorem put_put (c : Client) (m : Nat) (t u : Task) : (c.put m t).put m u = c.put m u := by
  have hsome : ((c.put m t).task? m).isSome = true := by simp [task?_put]
  rw [put, if_pos hsome]
  unfold put
  split
  · simp only [List.map_map]
    congr 1
    refine List.map_congr_left fun entry _ => ?_
    obtain ⟨j, old⟩ := entry
    by_cases hj : j = m <;> simp [hj]
  · next hnone =>
    have hnew (entry : Nat × Task) (hentry : entry ∈ c.tasks) : entry.1 ≠ m := fun heq =>
      hnone (mem_numbers.1 (List.mem_map.2 ⟨entry, hentry, heq⟩))
    simp only [List.map_append, List.map_cons, List.map_nil, if_true]
    congr 2
    refine (List.map_congr_left fun entry hentry => ?_).trans (List.map_id _)
    simp [hnew entry hentry]

/-- What a step of a task comes to, if one attempt of one of the tasks repeats its request. -/
def repeatingMove (k n m : Nat) (moved : Client × List Notice) : Client × List Notice :=
  (moved.1.repeating k n,
    moved.2.map fun notice => if m = k then notice.repeating n else notice)

theorem issued_repeating (terms : Terms) (acts : List Act) :
    (acts.map (Act.repeating n)).flatMap (issued k terms) =
      (acts.flatMap (issued k terms)).map (Notice.repeating n) := by
  rw [List.flatMap_map, List.map_flatMap]
  congr 1
  funext act
  cases act <;> rfl

theorem settleExecution_repeating (terms : Terms) (purpose : Purpose) (moved : Moved Session) :
    (c.repeating k n).settleExecution k terms purpose (moved.repeating n) =
      repeatingMove k n k (c.settleExecution k terms purpose moved) := by
  cases hr : moved.execution.result? with
  | none =>
    rw [settleExecution_open hr, settleExecution_open (m := moved.repeating n) hr]
    simp [repeatingMove, Moved.repeating, issued_repeating, ← put_repeating, Task.repeating]
    rfl
  | some r =>
    rw [settleExecution_over hr, settleExecution_over (m := moved.repeating n) hr]
    have hpools (acts : List PoolAct) :
        (acts.map Notice.pool).map (Notice.repeating n) = acts.map .pool := by
      rw [List.map_map]
      rfl
    simp only [repeatingMove, Moved.repeating, issued_repeating, drop_repeating, if_true,
      List.map_append, hpools]
    rfl

/-! A task of another number takes the same step. -/

theorem finishListing_other (provide : Option (Address → Pool))
    (r : Except MetadataError Reading) :
    (c.repeating k n).finishListing m provide r =
      ((c.finishListing m provide r).1.repeating k n, (c.finishListing m provide r).2) := by
  cases r <;> cases provide <;> simp only [finishListing, drop_repeating]
  rfl

section
variable (hm : m ≠ k)
include hm

theorem put_repeating_other (c : Client) (t : Task) :
    (c.repeating k n).put m t = (c.put m t).repeating k n := by
  rw [← put_repeating, if_neg hm]

theorem settleExecution_other (terms : Terms) (purpose : Purpose) (moved : Moved Session) :
    (c.repeating k n).settleExecution m terms purpose moved =
      ((c.settleExecution m terms purpose moved).1.repeating k n,
        (c.settleExecution m terms purpose moved).2) := by
  cases hr : moved.execution.result? with
  | none =>
    rw [settleExecution_open hr, settleExecution_open hr]
    exact congrArg (·, _) (put_repeating_other hm { c with session := moved.world } _)
  | some r =>
    rw [settleExecution_over hr, settleExecution_over hr, drop_repeating]
    rfl

theorem settleListing_other (l : Listing) (provide : Option (Address → Pool)) :
    (c.repeating k n).settleListing m l provide =
      ((c.settleListing m l provide).1.repeating k n, (c.settleListing m l provide).2) := by
  unfold settleListing
  rw [show (c.repeating k n).monitor = c.monitor from rfl]
  cases l.result? c.monitor with
  | none => simp only [put_repeating_other hm]
  | some r => exact finishListing_other provide r

theorem settleLookup_other (l : Lookup) :
    (c.repeating k n).settleLookup m l =
      ((c.settleLookup m l).1.repeating k n, (c.settleLookup m l).2) := by
  unfold settleLookup
  rw [show (c.repeating k n).monitor = c.monitor from rfl]
  rcases l.result? c.monitor with _ | _ | reading <;>
    simp only [put_repeating_other hm, drop_repeating]

theorem settleInquiry_other (i : Inquiry) :
    (c.repeating k n).settleInquiry m i =
      ((c.settleInquiry m i).1.repeating k n, (c.settleInquiry m i).2) := by
  unfold settleInquiry
  rcases i.result with _ | r <;> simp only [put_repeating_other hm, drop_repeating]

theorem step_repeating_other (now : Nat) (h : Happening) :
    (c.repeating k n).step now m h =
      ((c.step now m h).1.repeating k n, (c.step now m h).2) := by
  unfold step
  rw [task?_repeating]
  cases c.task? m with
  | none => rfl
  | some t =>
    simp only [Option.map_some, if_neg hm]
    cases t with
    | executing terms purpose x =>
      simp only [advance]
      split
      · rfl
      · exact settleExecution_other hm terms purpose _
    | listing l provide =>
      simp only [advance]
      split
      · simp only [put_repeating_other hm]
        rfl
      · exact settleListing_other hm _ provide
    | looking l => exact settleLookup_other hm _
    | inquiring i => exact settleInquiry_other hm _

theorem startListing_other (now : Nat) (provide : Option (Address → Pool)) :
    (c.repeating k n).startListing now m provide =
      ((c.startListing now m provide).1.repeating k n, (c.startListing now m provide).2) := by
  unfold startListing
  rw [show (c.repeating k n).control = c.control from rfl]
  split
  · exact finishListing_other provide _
  · next connection _ =>
    exact congrArg (·, _)
      (put_repeating_other hm { c with monitor := c.monitor.capture connection } _)

theorem startLookup_other (connection : Connection) (l : Lookup) :
    (c.repeating k n).startLookup m connection l =
      ((c.startLookup m connection l).1.repeating k n, (c.startLookup m connection l).2) :=
  congrArg (·, _) (put_repeating_other hm { c with monitor := c.monitor.capture connection } _)

theorem begin_repeating_other (now : Nat) (o : Operation) :
    (c.repeating k n).begin now m o =
      ((c.begin now m o).1.repeating k n, (c.begin now m o).2) := by
  cases o with
  | query | prepare | execute => exact settleExecution_other hm _ _ _
  | useKeyspace name caseSensitive =>
    simp only [begin]
    split
    · rfl
    · exact settleExecution_other hm _ _ _
  | refreshCluster provide | listNodes => exact startListing_other hm now _
  | refreshNode address broadcast =>
    simp only [begin]
    rw [show (c.repeating k n).control = c.control from rfl]
    split
    · rfl
    · split
      · rfl
      · exact startLookup_other hm _ _
  | findNode address =>
    simp only [begin]
    rw [show (c.repeating k n).control = c.control from rfl]
    split
    · rfl
    · exact startLookup_other hm _ _
  | openControl => rfl
  | inquire connection text values limit pageSize =>
    exact congrArg (·, _) (put_repeating_other hm c _)

end

theorem executionEvent?_repeating (h : Happening) :
    executionEvent? (h.repeating n) = (executionEvent? h).map (Event.repeating n) := by
  cases h with
  | signal request s => cases request <;> rfl
  | alarm alarm => cases alarm <;> rfl
  | resume => rfl

/-- **A client goes on in the same way if an attempt of one of its tasks repeats its request**,
unless the node does not know the statement. -/
theorem step_repeating (now : Nat) (h : Happening)
    (htask : ∀ t, c.task? k = some t → ∃ terms purpose e, t = .executing terms purpose e ∧
      e.AtFirst n)
    (hmild : ∀ event, executionEvent? h = some event → event.Mild n) :
    (c.repeating k n).step now k (h.repeating n) = repeatingMove k n k (c.step now k h) := by
  unfold step
  rw [task?_repeating]
  cases ht : c.task? k with
  | none => rfl
  | some t =>
    obtain ⟨terms, purpose, e, rfl, he⟩ := htask t ht
    simp only [Option.map_some, if_true, Task.repeating, advance, executionEvent?_repeating]
    cases hevent : executionEvent? h with
    | none => rfl
    | some event =>
      simp only [Option.map_some]
      rw [← settleExecution_repeating, ← Execution.step_repeating he _ _ (hmild event hevent)]
      rfl

/-- What a client does for an execution is what the execution does. -/
theorem settleExecution_acts (terms : Terms) (purpose : Purpose) (moved : Moved Session) :
    (c.settleExecution m terms purpose moved).2.filterMap Notice.act? = moved.acts := by
  cases hr : moved.execution.result? with
  | none => simp [settleExecution_open hr]
  | some r => simp [settleExecution_over hr]

theorem step_handed (c : Client) (now m : Nat) (h : Happening) : Handed m (c.step now m h).2 :=
  (Turned.of_step c now m h).handed

theorem start_handed (hn : c.task? c.nextTask = none) (now : Nat) (o : Operation) :
    Handed c.nextTask (c.start now o).2 :=
  (Turned.of_start hn now o).handed

/-- What a client does in a step of an execution. -/
theorem step_acts {terms : Terms} {purpose : Purpose} {e : Execution} {now : Nat} {h : Happening}
    {act : Act} (ht : c.task? m = some (.executing terms purpose e))
    (hact : act ∈ (c.step now m h).2.filterMap Notice.act?) :
    ∃ event, executionEvent? h = some event ∧
      act ∈ (e.step terms.environment terms.settings now c.session event).acts := by
  rw [step, ht] at hact
  simp only [advance] at hact
  split at hact
  · cases hact
  · next event hevent =>
    rw [settleExecution_acts] at hact
    exact ⟨event, hevent, hact⟩

end Client

namespace Rehearsal

/-- A request of an attempt that is handed over is one its execution issued. -/
theorem issued_of_ticket {k n m : Nat} {notices : List Notice} (h : Client.Handed m notices)
    {stage : Stage} (ht : ⟨k, .attempt n stage⟩ ∈ notices.filterMap ticket?) :
    k = m ∧ ∃ connection request,
      .issued n stage connection request ∈ notices.filterMap Notice.act? := by
  obtain ⟨notice, hnotice, hticket⟩ := List.mem_filterMap.1 ht
  cases notice with
  | issued t connection request =>
    cases hticket
    obtain ⟨htask, hact⟩ := h _ _ _ hnotice
    exact ⟨htask, connection, request, hact n stage rfl⟩
  | _ => cases hticket

/-- What is due, if one attempt repeats its request. -/
def Due.repeating (k n : Nat) (d : Due) : Due :=
  if d.task = k then { d with happening := d.happening.repeating n } else d

/-- What is on its way, if one attempt repeats its request. -/
def Letter.repeating (k n : Nat) (l : Letter) : Letter :=
  { l with ticket := Ticket.repeating k n l.ticket }

/-- What comes about, if one attempt repeats its request. -/
def Cause.repeating (k n : Nat) : Cause → Cause
  | .letter l => .letter (l.repeating k n)
  | c => c

/-- What is done, if one attempt repeats its request. -/
def Deed.repeating (k n : Nat) : Deed → Deed
  | .due d => .due (d.repeating k n)
  | .cause c => .cause (c.repeating k n)

/-- What was done, if one attempt repeats its request. -/
def Sight.repeating (k n : Nat) (s : Sight) : Sight :=
  if s.task = k then { s with notice := s.notice.repeating n } else s

variable {k n : Nat}

theorem Due.signal_repeating (time : Nat) (t : Ticket) (s : Signal) :
    Due.signal time (Ticket.repeating k n t) s = (Due.signal time t s).repeating k n := by
  unfold Ticket.repeating Due.repeating Due.signal
  by_cases h : t.task = k <;> simp [h, Happening.repeating]

theorem party_repeating (r : RequestId) : party (r.repeating n) = party r := by
  cases r <;> rfl

theorem Cause.key_repeating (rank : Trigger → Nat) (c : Cause) :
    key rank (c.repeating k n) = key rank c := by
  cases c with
  | letter l =>
    obtain ⟨time, ⟨task, request⟩, freight⟩ := l
    cases freight <;> by_cases h : task = k <;>
      simp [Cause.repeating, Letter.repeating, Ticket.repeating, h, key, party_repeating]
  | alarm | incident => rfl

/-- A parcel, if one attempt repeats its request. -/
def Parcel.repeating (k n : Nat) (p : Parcel) : Parcel :=
  ⟨p.due.map (Due.repeating k n), p.mail.map (Letter.repeating k n)⟩

theorem reach_repeating (r : Reply) (now : Nat) (t : Ticket) :
    r.reach now (Ticket.repeating k n t) = (r.reach now t).repeating k n := by
  unfold Reply.reach
  cases r.effect with
  | writeFails cause | silence => simp [Parcel.repeating, Due.signal_repeating]
  | comesBack delivery =>
    dsimp only
    split <;> simp [Parcel.repeating, Due.signal_repeating, Letter.repeating]

theorem accept_repeating (r : Reply) (now : Nat) (t : Ticket) :
    r.accept now (Ticket.repeating k n t) = (r.accept now t).repeating k n := by
  unfold Reply.accept
  split
  · exact reach_repeating r now t
  · simp [Parcel.repeating, Letter.repeating]

/-- The replies to a detour: one attempt has its first request refused because the node does not
know the statement, the preparation is answered, and the request that is repeated gets what the
first one got. Neither refusal nor preparation takes time. -/
def Replies.detour (f : Replies) (k n : Nat) (refused prepared : Response) : Replies := fun t =>
  if t = ⟨k, .attempt n .first⟩ then ⟨.comesBack (.ok refused), 0, 0⟩
  else if t = ⟨k, .attempt n .reprepare⟩ then ⟨.comesBack (.ok prepared), 0, 0⟩
  else if t = ⟨k, .attempt n .repeated⟩ then f ⟨k, .attempt n .first⟩
  else f t

theorem detour_other (f : Replies) {refused prepared : Response} {t : Ticket} (h : t.Other k n) :
    f.detour k n refused prepared t = f t := by
  simp [Replies.detour, h .first, h .reprepare, h .repeated]

namespace Timeline

/-- A timeline, if one attempt repeats its request, with what was recorded of it. -/
def repeating (k n : Nat) (record : List Sight) (x : Timeline) : Timeline :=
  { client := x.client.repeating k n
    ready := x.ready.map (Due.repeating k n)
    mail := x.mail.map (Letter.repeating k n)
    incidents := x.incidents
    record := record }

variable {f : Replies} {refused prepared : Response} {rank : Trigger → Nat} {x : Timeline}
  {record : List Sight}

theorem causes_repeating (x : Timeline) :
    (x.repeating k n record).causes = x.causes.map (Cause.repeating k n) := by
  simp only [causes, repeating, Client.alarms_repeating, List.map_append, List.map_map]
  congr 2
  · cases x.incidents.head? <;> rfl

theorem letters_repeating (causes : List Cause) :
    (causes.map (Cause.repeating k n)).filterMap Cause.letter? =
      (causes.filterMap Cause.letter?).map (Letter.repeating k n) := by
  rw [List.filterMap_map, List.map_filterMap]
  congr 1
  funext c
  cases c <;> rfl

theorem draw_repeating (x : Timeline) :
    (x.repeating k n record).draw rank =
      (x.draw rank).map fun (deed, rest) => (deed.repeating k n, rest.repeating k n record) := by
  unfold draw
  cases hready : x.ready with
  | cons d later => simp [repeating, hready, Deed.repeating]
  | nil =>
    have hnil : (x.repeating k n record).ready = [] := by simp [repeating, hready]
    rw [hnil]
    dsimp only
    rw [causes_repeating, pick_map (Cause.repeating k n) (Cause.key_repeating rank)]
    simp only [Option.map_map, Function.comp_def, letters_repeating]
    simp [repeating, hready, Deed.repeating]

/-- What an operation starts waits behind all that is due. -/
theorem meet_begins (replies : Replies) (x : Timeline) (time : Nat) (o : Operation) :
    x.meet replies time (.begins o) =
      ({ x with ready := x.ready ++ [⟨time, x.client.nextTask, .resume⟩] } : Timeline).act replies
        time x.client.nextTask (x.client.start time o) := by
  simp [meet, act]

/-- What is handed over in a step does not depend on how far the attempts are. -/
theorem tickets_repeating (m : Nat) (moved : Client × List Notice) :
    (Client.repeatingMove k n m moved).2.filterMap ticket? = moved.2.filterMap ticket? := by
  rw [Client.repeatingMove, List.filterMap_map]
  congr 1
  funext notice
  simp only [Function.comp_apply]
  split
  · cases notice <;> rfl
  · rfl

/-- An attempt that repeats its request is of no matter to the requests of others. -/
theorem act_repeating (x : Timeline) (time m : Nat) (moved : Client × List Notice)
    (hother : ∀ t ∈ moved.2.filterMap ticket?, t.Other k n) :
    (x.repeating k n record).act (f.detour k n refused prepared) time m
        (Client.repeatingMove k n m moved) =
      (x.act f time m moved).repeating k n
        (record ++ (moved.2.map (⟨time, m, ·⟩)).map (Sight.repeating k n)) := by
  have hparcels : ((moved.2.filterMap ticket?).map fun t =>
        (f.detour k n refused prepared t).accept time t) =
      ((moved.2.filterMap ticket?).map fun t => (f t).accept time t).map
        (Parcel.repeating k n) := by
    rw [List.map_map]
    refine List.map_congr_left fun t ht => ?_
    rw [detour_other f (hother t ht), Function.comp_apply, ← accept_repeating,
      (hother t ht).repeating_eq]
  have hdue (parcels : List Parcel) : (parcels.map (Parcel.repeating k n)).flatMap (·.due) =
      (parcels.flatMap (·.due)).map (Due.repeating k n) := by
    rw [List.flatMap_map, List.map_flatMap]
    rfl
  have hmail (parcels : List Parcel) : (parcels.map (Parcel.repeating k n)).flatMap (·.mail) =
      (parcels.flatMap (·.mail)).map (Letter.repeating k n) := by
    rw [List.flatMap_map, List.map_flatMap]
    rfl
  have hsights : ((Client.repeatingMove k n m moved).2.map (⟨time, m, ·⟩) : List Sight) =
      (moved.2.map (⟨time, m, ·⟩)).map (Sight.repeating k n) := by
    simp only [Client.repeatingMove, List.map_map]
    refine List.map_congr_left fun notice _ => ?_
    by_cases hm : m = k <;> simp [Sight.repeating, hm]
  unfold act
  rw [tickets_repeating, hparcels]
  dsimp only
  rw [hdue, hmail, hsights]
  simp [repeating, Client.repeatingMove]

/-- No node says that it does not know the statement when an attempt first asks. -/
def Knows (f : Replies) (k n : Nat) : Prop :=
  ∀ r, (f ⟨k, .attempt n .first⟩).effect = .comesBack (.ok r) → r.isUnprepared = false

/-- The stages of an attempt that are on record. -/
def stages (k n : Nat) (record : List Sight) : List Stage :=
  (actsOf k record).filterMap (Act.stage? n)

/-- An attempt has written its first request. -/
def Begun (k n : Nat) (record : List Sight) : Prop :=
  ∃ connection request, .issued n .first connection request ∈ actsOf k record

/-- What is recorded after an attempt wrote its first request, if it writes no other. -/
structure Later (k n : Nat) (more : List Sight) : Prop where
  other : ∀ t ∈ handed more, t.Other k n
  first : ∀ stage ∈ stages k n more, stage = .first

/-- What is kept along a timeline in which an attempt finds its statement known. -/
structure Kept (f : Replies) (k n : Nat) (s : PreparedStatement) (values : List Value)
    (paging : Paging) (x : Timeline) : Prop where
  sound : x.Sound
  faithful : x.Faithful f
  serves : x.Serves k s values paging
  first : ∀ stage ∈ stages k n x.record, stage = .first

variable {s : PreparedStatement} {values : List Value} {paging : Paging}

@[simp] theorem stages_append (record more : List Sight) :
    stages k n (record ++ more) = stages k n record ++ stages k n more := by
  simp [stages]

theorem stage_mem_issued {stage : Stage} {connection : Connection} {request : Request}
    (h : .issued n stage connection request ∈ actsOf k record) : stage ∈ stages k n record :=
  List.mem_filterMap.2 ⟨_, h, by simp [Act.stage?]⟩

theorem stage_mem_heard {stage : Stage} {signal : Signal}
    (h : .heard n stage signal ∈ actsOf k record) : stage ∈ stages k n record :=
  List.mem_filterMap.2 ⟨_, h, by simp [Act.stage?]⟩

theorem Later.nil (k n : Nat) : Later k n [] :=
  ⟨by simp [handed], by simp [stages, actsOf]⟩

theorem Later.append {more next : List Sight} (h : Later k n more) (hnext : Later k n next) :
    Later k n (more ++ next) where
  other t ht := by
    rw [handed_append, List.mem_append] at ht
    exact ht.elim (h.other t) (hnext.other t)
  first stage hstage := by
    rw [stages_append, List.mem_append] at hstage
    exact hstage.elim (h.first stage) (hnext.first stage)

theorem Later.tickets {time m : Nat} {notices : List Notice}
    (h : Later k n (notices.map (⟨time, m, ·⟩))) :
    ∀ t ∈ notices.filterMap ticket?, t.Other k n := by
  rw [← handed_notices time m]
  exact h.other

/-- What was handed over for an attempt was issued. -/
theorem Sound.issued_of_handed (hx : x.Sound) {stage : Stage}
    (h : ⟨k, .attempt n stage⟩ ∈ Timeline.handed x.record) :
    ∃ connection request, .issued n stage connection request ∈ actsOf k x.record := by
  obtain ⟨sight, hsight, hticket⟩ := List.mem_filterMap.1 h
  cases hnotice : sight.notice with
  | issued t connection request =>
    rw [hnotice] at hticket
    cases hticket
    obtain ⟨htask, hact⟩ := hx.handed sight hsight _ _ _ hnotice
    obtain rfl : k = sight.task := htask
    exact ⟨connection, request, hact n stage rfl⟩
  | _ =>
    rw [hnotice] at hticket
    cases hticket

/-- What comes for an attempt comes for a request that it wrote. -/
theorem Faithful.signal (hx : x.Faithful f) (hsound : x.Sound) {d : Due} (hd : Comes x d)
    {stage : Stage} {signal : Signal}
    (he : Client.executionEvent? d.happening = some (.signal n stage signal)) :
    (∃ connection request, .issued n stage connection request ∈ actsOf d.task x.record) ∧
      ∀ delivery, signal = .delivered delivery →
        (f ⟨d.task, .attempt n stage⟩).effect = .comesBack delivery := by
  have hhappening : d.happening = .signal (.attempt n stage) signal := by
    unfold Client.executionEvent? at he
    split at he <;> simp_all
  refine And.imp_left hsound.issued_of_handed ?_
  cases hd with
  | due hready => exact hx.ready _ hready _ _ hhappening
  | @reply time t delivery hmail =>
    obtain ⟨hhanded, hdelivery⟩ := hx.mail _ hmail
    obtain ⟨hrequest, rfl⟩ := Happening.signal.inj hhappening
    have ht : t = ⟨t.task, .attempt n stage⟩ := by rw [← hrequest]
    rw [ht] at hhanded hdelivery
    exact ⟨hhanded, fun delivery h => hdelivery delivery (congrArg _ (Signal.delivered.inj h))⟩
  | alarm => cases hhappening

/-- What comes for an attempt that finds its statement known. -/
theorem Kept.mild (hx : x.Kept f k n s values paging) (hf : Knows f k n) {d : Due} (hd : Comes x d)
    (hk : d.task = k) {event : Event} (he : Client.executionEvent? d.happening = some event) :
    event.Mild n := by
  rintro stage signal rfl
  obtain ⟨⟨connection, request, hissued⟩, hdelivery⟩ := hx.faithful.signal hx.sound hd he
  rw [hk] at hissued hdelivery
  obtain rfl := hx.first _ (stage_mem_issued hissued)
  refine ⟨rfl, ?_⟩
  cases signal with
  | delivered delivery =>
    cases delivery with
    | ok r => exact hf r (hdelivery _ rfl)
    | error cause => rfl
  | acknowledged | writeFailed cause => rfl

section
variable (hx : x.Kept f k n s values paging)
include hx

/-- A request that is written gets the same reply if the attempt repeats it. -/
theorem Kept.detour_repeating {t : Ticket} (ht : t ∈ handed x.record) :
    f.detour k n refused prepared (Ticket.repeating k n t) = f t := by
  by_cases hother : t.Other k n
  · rw [hother.repeating_eq, detour_other f hother]
  · obtain ⟨stage, rfl⟩ := Ticket.exists_stage hother
    obtain ⟨connection, request, hissued⟩ := hx.sound.issued_of_handed ht
    obtain rfl := hx.first _ (stage_mem_issued hissued)
    simp [Replies.detour, Ticket.repeating, RequestId.repeating]

variable (hbegun : Begun k n x.record)
include hbegun

/-- An attempt that was begun is at its first request. -/
theorem Kept.atFirst {t : Task} (ht : x.client.task? k = some t) :
    ∃ terms purpose e, t = .executing terms purpose e ∧ e.AtFirst n := by
  obtain ⟨terms, purpose, e, rfl, -⟩ := hx.serves.task t ht
  obtain ⟨-, hreaches⟩ := hx.sound.lawful k _ ht
  obtain ⟨connection, request, hissued⟩ := hbegun
  exact ⟨terms, purpose, e, rfl, hreaches.sound, hreaches.number_lt hissued,
    fun _ _ => hreaches.stage_first fun _ _ _ h => hx.first _ (stage_mem_issued h)⟩

/-- The task of an attempt that was begun has its number. -/
theorem Kept.task_lt : k < x.client.nextTask := by
  by_contra hle
  obtain ⟨connection, request, hissued⟩ := hbegun
  rw [actsOf_eq_nil (hx.sound.numbered k (by omega)).2] at hissued
  cases hissued

/-- What comes in from outside is of no matter to an attempt that was begun. -/
theorem Kept.meet_repeating (rest : Timeline) (hclient : rest.client = x.client) (time : Nat)
    (i : Incident) :
    ∃ more, Later k n more ∧ (rest.meet f time i).record = rest.record ++ more ∧
      (rest.repeating k n record).meet (f.detour k n refused prepared) time i =
        (rest.meet f time i).repeating k n (record ++ more.map (Sight.repeating k n)) := by
  have hlt := hx.task_lt hbegun
  cases i with
  | changes session control =>
    exact ⟨[], .nil k n, by simp [meet], by simp [meet, repeating, Client.repeating]⟩
  | begins o =>
    have hne : rest.client.nextTask ≠ k := by
      rw [hclient]
      exact Nat.ne_of_gt hlt
    have hnone : rest.client.task? rest.client.nextTask = none := by
      rw [hclient]
      exact (hx.sound.numbered _ (Nat.le_refl _)).1
    have hlater : Later k n
        ((rest.client.start time o).2.map (⟨time, rest.client.nextTask, ·⟩)) := by
      refine ⟨fun t ht stage hstage => ?_, fun stage hstage => ?_⟩
      · subst hstage
        rw [handed_notices] at ht
        exact hne (issued_of_ticket (Client.start_handed hnone time o) ht).1.symm
      · rw [stages, actsOf_notices_ne (Ne.symm hne)] at hstage
        cases hstage
    have hstart : (rest.client.repeating k n).start time o =
        Client.repeatingMove k n rest.client.nextTask (rest.client.start time o) := by
      simp only [Client.repeatingMove, if_neg hne, List.map_id']
      exact Client.begin_repeating_other (c := { rest.client with
        nextTask := rest.client.nextTask + 1 }) hne time o
    have hresume : Due.repeating k n ⟨time, rest.client.nextTask, .resume⟩ =
        ⟨time, rest.client.nextTask, .resume⟩ := if_neg hne
    refine ⟨_, hlater, rfl, ?_⟩
    rw [meet_begins, meet_begins, ← act_repeating _ time _ _ hlater.tickets, ← hstart]
    simp [repeating, hresume]
    rfl

variable (hf : Knows f k n)
include hf

/-- An attempt that was begun hands over nothing more. -/
theorem Kept.later {d : Due} (hd : Comes x d) :
    Later k n ((x.client.step d.time d.task d.happening).2.map (⟨d.time, d.task, ·⟩)) := by
  -- What a step does for the attempt is to hear of its first request.
  have hacts {act : Act} (hk : d.task = k)
      (hact : act ∈ (x.client.step d.time d.task d.happening).2.filterMap Notice.act?) :
      (∀ stage connection request, act ≠ .issued n stage connection request) ∧
        ∀ stage signal, act = .heard n stage signal → stage = .first := by
    cases htask : x.client.task? d.task with
    | none => simp [Client.step, htask] at hact
    | some task =>
      obtain ⟨terms, purpose, e, rfl, he⟩ := hx.atFirst hbegun (hk ▸ htask)
      obtain ⟨event, hevent, hact⟩ := Client.step_acts htask hact
      have hmild := hx.mild hf hd hk hevent
      refine ⟨?_, ?_⟩
      · rintro stage connection request rfl
        exact he.ne_of_handed hmild hact rfl
      · rintro stage signal rfl
        exact (hmild stage signal (Execution.step_heard he.sound hact)).1
  refine ⟨fun t ht stage hstage => ?_, fun stage hstage => ?_⟩
  · subst hstage
    rw [handed_notices] at ht
    obtain ⟨hk, connection, request, hact⟩ := issued_of_ticket (Client.step_handed _ _ _ _) ht
    exact (hacts hk.symm hact).1 _ _ _ rfl
  · by_cases hk : d.task = k
    · subst hk
      rw [stages, actsOf_notices] at hstage
      obtain ⟨act, hact, hstage⟩ := List.mem_filterMap.1 hstage
      obtain ⟨connection, request, rfl⟩ | ⟨signal, rfl⟩ := Act.stage?_eq_some hstage
      · exact absurd rfl ((hacts rfl hact).1 _ _ _)
      · exact (hacts rfl hact).2 _ _ rfl
    · rw [stages, actsOf_notices_ne (Ne.symm hk)] at hstage
      cases hstage

/-- What happens to a timeline in which an attempt repeats its request is what happens to the one in
which it did not need to. -/
theorem Kept.happen_repeating {rest : Timeline} (hleaves : Leaves x rest) {d : Due}
    (hd : Comes x d) (record : List Sight) (refused prepared : Response) :
    ∃ more, Later k n more ∧ (rest.happen f d).record = rest.record ++ more ∧
      (rest.repeating k n record).happen (f.detour k n refused prepared) (d.repeating k n) =
        (rest.happen f d).repeating k n (record ++ more.map (Sight.repeating k n)) := by
  have hlater := hx.later hbegun hf hd
  rw [← hleaves.client] at hlater
  refine ⟨_, hlater, rfl, ?_⟩
  have hstep : (rest.client.repeating k n).step d.time d.task (d.repeating k n).happening =
      Client.repeatingMove k n d.task (rest.client.step d.time d.task d.happening) := by
    rw [hleaves.client]
    by_cases hk : d.task = k
    · subst hk
      rw [← Client.step_repeating _ _ (fun t ht => hx.atFirst hbegun ht)
        fun event he => hx.mild hf hd rfl he]
      simp [Due.repeating]
    · have hsame : d.repeating k n = d := by simp [Due.repeating, hk]
      rw [hsame, Client.step_repeating_other hk]
      simp [Client.repeatingMove, hk]
  have htask : (d.repeating k n).task = d.task ∧ (d.repeating k n).time = d.time := by
    unfold Due.repeating
    split <;> exact ⟨rfl, rfl⟩
  rw [happen, happen, htask.1, htask.2, ← act_repeating rest d.time d.task _ hlater.tickets,
    ← hstep]
  rfl

/-- **A timeline in which an attempt repeats its request goes on like the one in which it did not
need to.** -/
theorem Kept.next_repeating (rank : Trigger → Nat) (record : List Sight)
    (refused prepared : Response) :
    ∃ more, Later k n more ∧ (x.next f rank).record = x.record ++ more ∧
      (x.repeating k n record).next (f.detour k n refused prepared) rank =
        (x.next f rank).repeating k n (record ++ more.map (Sight.repeating k n)) := by
  unfold next
  rw [draw_repeating]
  cases hdraw : x.draw rank with
  | none => exact ⟨[], Later.nil k n, by simp, by simp⟩
  | some drawn =>
    obtain ⟨deed, rest⟩ := drawn
    have hleaves := draw_leaves hdraw
    simp only [Option.map_some]
    rw [← hleaves.record]
    cases draw_drawn hdraw with
    | due hd => exact hx.happen_repeating hbegun hf hleaves (.due hd) record refused prepared
    | @letter l hl =>
      obtain ⟨time, t, freight⟩ := l
      cases freight with
      | write =>
        have hreach : (f.detour k n refused prepared (Ticket.repeating k n t)).reach time
            (Ticket.repeating k n t) = ((f t).reach time t).repeating k n := by
          rw [hx.detour_repeating (hx.faithful.mail _ hl).1, reach_repeating]
        refine ⟨[], .nil k n, by simp [carryOut, perform, post], ?_⟩
        simp [Deed.repeating, Cause.repeating, Letter.repeating, carryOut, perform, hreach, post,
          repeating, Parcel.repeating]
      | reply delivery =>
        have hhappen := hx.happen_repeating hbegun hf hleaves (.reply hl) record refused prepared
        rw [← Due.signal_repeating] at hhappen
        exact hhappen
    | @alarm time task alarm =>
      have hdue : Due.repeating k n ⟨time, task, .alarm alarm⟩ = ⟨time, task, .alarm alarm⟩ := by
        unfold Due.repeating
        split <;> rfl
      have hcomes : Comes x ⟨time, task, .alarm alarm⟩ := .alarm
      have hhappen := hx.happen_repeating hbegun hf hleaves hcomes record refused prepared
      rw [hdue] at hhappen
      exact hhappen
    | @incident time i incidents hincidents =>
      exact hx.meet_repeating hbegun { rest with incidents := rest.incidents.tail }
        hleaves.client time i

end

end Timeline

end Rehearsal

end ClusterClient
