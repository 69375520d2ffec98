import ClusterClient.Proofs.Course
import ClusterClient.Proofs.RepeatingTimeline

/-!
# Preparing a statement again

A node that does not know a statement has it prepared again and is asked once more. `next_detour`
follows an attempt through this detour, from its first request to the one it repeats; `Beside` keeps
a timeline with the detour beside the one without, from the start on, and `Beside.next` carries it
over a step. `reprepare_transparent` says what others see of it: nothing but two requests more, the
refused one and the preparation, on the attempt's own connection.

The guard on `reprepare_transparent` is needed. An attempt prepares once; a repeated request that is
refused ends it with that error (`not_transparent_after_reprepare`).
-/

namespace ClusterClient

/-- What an execution does in a detour: a node refuses the statement of an attempt, prepares it and
is asked again. -/
def Act.detour (n : Nat) (connection : Connection) (text : String) (request : Request)
    (refused prepared : Response) : List Act :=
  [.heard n .first .acknowledged, .heard n .first (.delivered (.ok refused)),
    .issued n .reprepare connection (.prepare text),
    .heard n .reprepare .acknowledged, .heard n .reprepare (.delivered (.ok prepared)),
    .issued n .repeated connection request]

namespace Attempt

variable {call : Call} {id : Bytes} {text : String} {values : BoundValues} {size : PageSize}
  {state : Option Bytes} {consistency : Consistency} {connection : Connection}
  {refused prepared : Response}

/-- An attempt whose request was acknowledged. -/
def heard (a : Attempt) : Attempt :=
  { a with acknowledged := true, written := a.written || a.stage ≠ .reprepare }

/-- An attempt that prepares its statement again. -/
def preparing (a : Attempt) : Attempt :=
  { a with stage := .reprepare }

/-- A refused attempt prepares its statement again. -/
theorem react_refused (hcall : call = .execute id text values size state)
    (hrefused : refused.isUnprepared = true) :
    (start call consistency connection).heard.react (.delivered (.ok refused)) =
      .sends (start call consistency connection).preparing := by
  obtain ⟨body, extras⟩ := refused
  unfold Response.isUnprepared at hrefused
  split at hrefused
  · next known reason hbody =>
    obtain rfl : body = .error (.unprepared known) reason := hbody
    simp [react, receive, start, heard, preparing, afterFirst, Response.answer, hcall,
      Call.preparedId?]
  · cases hrefused

/-- An attempt whose statement was prepared again repeats its request. -/
theorem react_prepared (hcall : call = .execute id text values size state)
    (hprepared : prepared.body = .result (.prepared id)) :
    (start call consistency connection).preparing.heard.react (.delivered (.ok prepared)) =
      .sends (start call consistency connection).repeating := by
  simp [react, receive, start, heard, preparing, repeating, afterReprepare, Response.answer, hcall,
    Call.preparedId?, hprepared]

end Attempt

namespace Execution

variable {ω : Type} {env : Environment ω} {settings : Settings}
  {speculation : Option Speculation} {e : Execution} {n : Nat} {a b : Attempt} {signal : Signal}

/-- An execution that waits for an attempt. -/
structure Awaits (env : Environment ω) (settings : Settings) (speculation : Option Speculation)
    (n : Nat) (a : Attempt) (e : Execution) : Prop where
  reaches : ∃ acts, Reaches env settings speculation e acts
  undecided : e.race.verdict = none
  located : ∃ f c, e.locate n = some (f, c) ∧ c.attempt = a

/-- There is one attempt of a number. -/
theorem Awaits.amend_eq (h : Awaits env settings speculation n a e) (φ : Attempt → Attempt) :
    (e.amend n fun _ => φ a) = e.amend n φ := by
  obtain ⟨acts, hreaches⟩ := h.reaches
  obtain ⟨f, c, hl, rfl⟩ := h.located
  unfold amend
  congr 1
  refine List.map_congr_left fun g hg => ?_
  cases hp : g.phase with
  | ended ending => simp [Fiber.amend, Phase.amend, hp]
  | attempting d =>
    by_cases hd : d.number = n
    · subst hd
      have hsame := (hreaches.locate_of_mem hg hp).symm.trans hl
      rw [Option.some.injEq, Prod.mk.injEq] at hsame
      simp [Fiber.amend, Phase.amend, hp, Current.amend, hsame.2]
    · rw [Fiber.amend_absent, Fiber.amend_absent] <;>
        · intro d' hd'
          rw [hp] at hd'
          cases hd'
          exact hd

theorem Awaits.amend {acts : List Act} (h : Awaits env settings speculation n a e)
    (hreaches : Reaches env settings speculation (e.amend n fun _ => b) acts) :
    Awaits env settings speculation n b (e.amend n fun _ => b) := by
  obtain ⟨f, c, hl, -⟩ := h.located
  have hc := (locate_eq_some hl).2.2
  have hl' : (e.amend n fun _ => b).locate n =
      some (f.amend n fun _ => b, c.amend n fun _ => b) := by
    rw [locate_amend, hl]
    rfl
  exact ⟨⟨_, hreaches⟩, h.undecided, _, _, hl', by simp [Current.amend, hc]⟩

/-- An attempt that goes on waiting. -/
theorem Awaits.step_waits (h : Awaits env settings speculation n a e)
    (he : a.expects signal = true) (hr : a.react signal = .waits b) (now : Nat) (w : ω) :
    e.step env settings now w (.signal n a.stage signal) =
        ⟨e.amend n fun _ => b, w, [.heard n a.stage signal]⟩ ∧
      Awaits env settings speculation n b (e.amend n fun _ => b) := by
  obtain ⟨acts, hreaches⟩ := h.reaches
  obtain ⟨f, c, hl, rfl⟩ := h.located
  have hstep := hreaches.step_waits h.undecided hl he hr now w
  have hnext := hreaches.step now w (.signal n c.attempt.stage signal)
  rw [hstep] at hnext
  exact ⟨hstep, h.amend hnext⟩

/-- An attempt that writes its next request. -/
theorem Awaits.step_sends (h : Awaits env settings speculation n a e)
    (he : a.expects signal = true) (hr : a.react signal = .sends b) (now : Nat) (w : ω) :
    e.step env settings now w (.signal n a.stage signal) =
        ⟨e.amend n fun _ => b, w, [.heard n a.stage signal,
          .issued n b.stage b.connection b.request]⟩ ∧
      Awaits env settings speculation n b (e.amend n fun _ => b) := by
  obtain ⟨acts, hreaches⟩ := h.reaches
  obtain ⟨f, c, hl, rfl⟩ := h.located
  have hstep := hreaches.step_sends h.undecided hl he hr now w
  have hnext := hreaches.step now w (.signal n c.attempt.stage signal)
  rw [hstep] at hnext
  exact ⟨hstep, h.amend hnext⟩

end Execution

namespace Rehearsal.Timeline

variable {f g : Replies} {rank : Trigger → Nat} {k n time : Nat} {c : Client} {terms : Terms}
  {purpose : Purpose} {e e' : Execution} {acts : List Act} {refused prepared : Response}
  {record : List Sight}

/-- What a notice hands over, and to which connection. -/
def order? : Notice → Option (Ticket × Connection × Request)
  | .issued ticket connection request => some (ticket, connection, request)
  | _ => none

theorem ticket?_eq (notice : Notice) : ticket? notice = (order? notice).map (·.1) := by
  cases notice <;> rfl

/-- What an execution hands over is what others see of it. -/
theorem orders_issued (k : Nat) (terms : Terms) (acts : List Act) :
    (acts.flatMap (Client.issued k terms)).filterMap order? =
      (acts.filterMap Act.handed?).map fun (m, stage, connection, request) =>
        (⟨k, .attempt m stage⟩, connection, request) := by
  induction acts with
  | nil => rfl
  | cons act acts ih =>
    rw [List.flatMap_cons, List.filterMap_append, ih]
    cases act <;> rfl

/-- What others see of acts of an execution. -/
def seen (time k : Nat) (terms : Terms) (acts : List Act) : List Sight :=
  (acts.flatMap (Client.issued k terms)).map (⟨time, k, ·⟩)

/-- A timeline in which an execution is under way that went on from where the timeline was: what its
requests gave is due or on its way, and what others saw of it is on record. -/
def underway (k : Nat) (terms : Terms) (purpose : Purpose) (x : Timeline) (e : Execution)
    (p : Parcel) (sights : List Sight) : Timeline :=
  { x with
    client := x.client.put k (.executing terms purpose e)
    ready := p.due ++ x.ready
    mail := x.mail ++ p.mail
    record := x.record ++ sights }

variable {x : Timeline} {sights : List Sight}

/-- What a timeline does when an execution hears at once of a request. -/
theorem next_signal {stage : Stage} {signal : Signal} {due : List Due} {mail : List Letter}
    (hstep : e.step terms.environment terms.settings time x.client.session
      (.signal n stage signal) = ⟨e', x.client.session, acts⟩) (hopen : e'.result? = none) :
    next g rank (x.underway k terms purpose e
        ⟨.signal time ⟨k, .attempt n stage⟩ signal :: due, mail⟩ sights) =
      (x.underway k terms purpose e ⟨due, mail⟩ sights).act g time k
        (x.client.put k (.executing terms purpose e'), acts.flatMap (Client.issued k terms)) := by
  have hclient : (x.client.put k (.executing terms purpose e)).step time k
        (.signal (.attempt n stage) signal) =
      (x.client.put k (.executing terms purpose e'), acts.flatMap (Client.issued k terms)) := by
    simp only [Client.step, Client.task?_put, Client.advance, Client.executionEvent?,
      Client.put_session, hstep]
    rw [Client.settleExecution_open hopen]
    simp only [← Client.put_session x.client k (.executing terms purpose e)]
    exact congrArg (·, _) (Client.put_put x.client k _ _)
  simp [next, draw, underway, carryOut, happen, Due.signal, hclient, act]

/-- A request of an attempt that is acknowledged and answered at once, so that the next one is
written. -/
theorem next_answered (g : Replies) (rank : Trigger → Nat) (k : Nat) (purpose : Purpose)
    (time : Nat) (x : Timeline) (sights : List Sight) {a b : Attempt} {d : Delivery}
    (he : e.Awaits terms.environment terms.settings terms.speculation n a)
    (hunheard : a.acknowledged = false) (hanswer : a.heard.react (.delivered d) = .sends b) :
    (next g rank)^[2] (x.underway k terms purpose e
        ((⟨.comesBack d, 0, 0⟩ : Reply).accept time ⟨k, .attempt n a.stage⟩) sights) =
      x.underway k terms purpose (e.amend n fun _ => b)
        ((g ⟨k, .attempt n b.stage⟩).accept time ⟨k, .attempt n b.stage⟩)
        (sights ++ seen time k terms [.heard n a.stage .acknowledged,
          .heard n a.stage (.delivered d), .issued n b.stage b.connection b.request]) ∧
    (e.amend n fun _ => b).Awaits terms.environment terms.settings terms.speculation n b := by
  have hopen {e : Execution} (h : e.race.verdict = none) : e.result? = none := by
    simp [Execution.result?, h]
  have hexpects : a.expects .acknowledged = true := by simp [Attempt.expects, hunheard]
  obtain ⟨hstep, he'⟩ := he.step_waits (b := a.heard) hexpects rfl time x.client.session
  obtain ⟨hstep', he''⟩ := he'.step_sends rfl hanswer time x.client.session
  rw [Execution.amend_amend] at hstep' he''
  let first := sights ++ seen time k terms [.heard n a.stage .acknowledged]
  refine ⟨?_, he''⟩
  calc (next g rank)^[2] (x.underway k terms purpose e
        ((⟨.comesBack d, 0, 0⟩ : Reply).accept time ⟨k, .attempt n a.stage⟩) sights)
    _ = next g rank (x.underway k terms purpose (e.amend n fun _ => a.heard)
          ⟨[.signal time ⟨k, .attempt n a.stage⟩ (.delivered d)], []⟩ first) := by
      rw [Function.iterate_succ_apply, Function.iterate_one]
      refine congrArg (next g rank) ((next_signal hstep (hopen he'.undecided)).trans ?_)
      simp [act, underway, first, seen, Client.issued, ticket?, List.filterMap_cons]
    _ = x.underway k terms purpose (e.amend n fun _ => b)
          ((g ⟨k, .attempt n b.stage⟩).accept time ⟨k, .attempt n b.stage⟩)
          (sights ++ seen time k terms [.heard n a.stage .acknowledged,
            .heard n a.stage (.delivered d), .issued n b.stage b.connection b.request]) := by
      refine (next_signal hstep' (hopen he''.undecided)).trans ?_
      simp [act, underway, first, seen, Client.issued, ticket?, List.filterMap_cons, Attempt.heard,
        Function.comp_def]

theorem detour_first (f : Replies) (k n : Nat) (refused prepared : Response) :
    f.detour k n refused prepared ⟨k, .attempt n .first⟩ = ⟨.comesBack (.ok refused), 0, 0⟩ :=
  if_pos rfl

theorem detour_reprepare (f : Replies) (k n : Nat) (refused prepared : Response) :
    f.detour k n refused prepared ⟨k, .attempt n .reprepare⟩ =
      ⟨.comesBack (.ok prepared), 0, 0⟩ := by
  simp [Replies.detour]

theorem detour_repeated (f : Replies) (k n : Nat) (refused prepared : Response) :
    f.detour k n refused prepared ⟨k, .attempt n .repeated⟩ = f ⟨k, .attempt n .first⟩ := by
  simp [Replies.detour]

/-- **The detour**: from where an attempt wrote its first request to where it repeats it. -/
theorem next_detour {id : Bytes} {text : String} {values : BoundValues} {size : PageSize}
    {state : Option Bytes} {consistency : Consistency} {connection : Connection}
    (hcall : terms.settings.call = .execute id text values size state)
    (he : e.Awaits terms.environment terms.settings terms.speculation n
      (.start terms.settings.call consistency connection))
    (hrefused : refused.isUnprepared = true)
    (hprepared : prepared.body = .result (.prepared id)) :
    (next (f.detour k n refused prepared) rank)^[4] (x.underway k terms purpose e
        ((f.detour k n refused prepared ⟨k, .attempt n .first⟩).accept time
          ⟨k, .attempt n .first⟩) sights) =
      x.underway k terms purpose (e.amend n .repeating)
        ((f ⟨k, .attempt n .first⟩).accept time ⟨k, .attempt n .repeated⟩)
        (sights ++ seen time k terms (Act.detour n connection text
          (terms.settings.call.request consistency) refused prepared)) := by
  let g := f.detour k n refused prepared
  let asked : Attempt := .start terms.settings.call consistency connection
  let preparing := seen time k terms [.heard n .first .acknowledged,
    .heard n .first (.delivered (.ok refused)), .issued n .reprepare connection (.prepare text)]
  let repeating := seen time k terms [.heard n .reprepare .acknowledged,
    .heard n .reprepare (.delivered (.ok prepared)),
    .issued n .repeated connection (terms.settings.call.request consistency)]
  have hrequest : asked.preparing.request = .prepare text := by
    simp [Attempt.request, Attempt.preparing, asked, Attempt.start, hcall, Call.text]
  obtain ⟨hprepare, hpreparing⟩ := next_answered g rank k purpose time x sights he rfl
    (Attempt.react_refused hcall hrefused)
  obtain ⟨hrepeat, -⟩ := next_answered g rank k purpose time x (sights ++ preparing) hpreparing rfl
    (Attempt.react_prepared hcall hprepared)
  have hsame : (e.amend n fun _ => asked.preparing).amend n (fun _ => asked.repeating) =
      e.amend n .repeating := by
    rw [Execution.amend_amend]
    exact he.amend_eq .repeating
  rw [detour_first, Function.iterate_add_apply (next g rank) 2 2]
  calc (next g rank)^[2] ((next g rank)^[2] (x.underway k terms purpose e
        ((⟨.comesBack (.ok refused), 0, 0⟩ : Reply).accept time ⟨k, .attempt n .first⟩) sights))
    _ = (next g rank)^[2] (x.underway k terms purpose (e.amend n fun _ => asked.preparing)
          ((⟨.comesBack (.ok prepared), 0, 0⟩ : Reply).accept time ⟨k, .attempt n .reprepare⟩)
          (sights ++ preparing)) := by
      refine congrArg _ (hprepare.trans ?_)
      rw [hrequest]
      exact congrArg (x.underway k terms purpose _ · _)
        (congrArg (Reply.accept · _ _) (detour_reprepare f k n refused prepared))
    _ = x.underway k terms purpose (e.amend n .repeating)
          ((f ⟨k, .attempt n .first⟩).accept time ⟨k, .attempt n .repeated⟩)
          (sights ++ preparing ++ repeating) := by
      refine hrepeat.trans ?_
      rw [hsame]
      exact congrArg (x.underway k terms purpose _ · _)
        (congrArg (Reply.accept · _ _) (detour_repeated f k n refused prepared))
    _ = x.underway k terms purpose (e.amend n .repeating)
          ((f ⟨k, .attempt n .first⟩).accept time ⟨k, .attempt n .repeated⟩)
          (sights ++ seen time k terms (Act.detour n connection text
            (terms.settings.call.request consistency) refused prepared)) := by
      rw [List.append_assoc]
      rfl

/-! ## Where an attempt begins -/

/-- A step of a task in which an attempt begins. -/
inductive Opens (k n : Nat) : Client × List Notice → Prop
  | intro {c : Client} {terms : Terms} {purpose : Purpose} {m : Moved Session}
      {consistency : Consistency} {connection : Connection} :
      Execution.Begins terms.settings n consistency connection m →
      (∀ stage signal, .heard n stage signal ∉ m.acts) →
      Opens k n (c.put k (.executing terms purpose m.execution),
        m.acts.flatMap (Client.issued k terms))

theorem opens_settleExecution {m : Moved Session} {consistency : Consistency}
    {connection : Connection} (h : Execution.Begins terms.settings n consistency connection m)
    (hunheard : ∀ stage signal, .heard n stage signal ∉ m.acts) :
    Opens k n (c.settleExecution k terms purpose m) := by
  rw [Client.settleExecution_open (by simp [Execution.result?, h.undecided])]
  exact .intro h hunheard

/-- What becomes of requests that were not handed over does not matter. -/
theorem Goes.congr {x : Timeline} {step : Replies → Timeline} (h : Goes x step)
    (hx : x.Faithful f) (hsame : ∀ t ∈ handed (step f).record, f t = g t) : step f = step g := by
  have hact {x : Timeline} {time m : Nat} {moved : Client × List Notice}
      (hsame : ∀ t ∈ handed (x.act f time m moved).record, f t = g t) :
      x.act f time m moved = x.act g time m moved := by
    have hparcels : ((moved.2.filterMap ticket?).map fun t => (f t).accept time t) =
        (moved.2.filterMap ticket?).map fun t => (g t).accept time t := by
      refine List.map_congr_left fun t ht => ?_
      have : t ∈ handed (x.act f time m moved).record := by
        simp only [act, handed_append, handed_notices, List.mem_append]
        exact .inr ht
      rw [hsame t this]
    rw [act, act, hparcels]
  cases h with
  | idle => rfl
  | @writes rest time t hleaves ht =>
    have : t ∈ handed (rest.post ((f t).reach time t)).record :=
      hleaves.record ▸ (hx.mail _ ht).1
    simp only [hsame t this]
  | happens hleaves hd => exact hact hsame
  | @meets rest time i incidents hleaves hincidents =>
    cases i with
    | changes session control => rfl
    | begins o =>
      simp only [meet_begins] at hsame ⊢
      exact hact hsame

variable {x : Timeline} {s : PreparedStatement} {values : List Value} {paging : Paging}
  {step : Replies → Timeline}

/-- What a step of a task adds to the stages of an attempt comes from what the task's execution
did. -/
theorem exists_act_of_stages {m : Nat} {notices : List Notice} (hnew : stages k n record = [])
    (hrecord : stages k n (record ++ notices.map (⟨time, m, ·⟩)) ≠ []) :
    m = k ∧ ∃ act ∈ notices.filterMap Notice.act?, (act.stage? n).isSome = true := by
  rw [stages_append, hnew, List.nil_append] at hrecord
  by_cases hm : m = k
  · subst hm
    rw [stages, actsOf_notices] at hrecord
    obtain ⟨stage, hstage⟩ := List.exists_mem_of_ne_nil _ hrecord
    obtain ⟨act, hact, hstage⟩ := List.mem_filterMap.1 hstage
    exact ⟨rfl, act, hact, by rw [hstage]; rfl⟩
  · rw [stages, actsOf_notices_ne (Ne.symm hm)] at hrecord
    exact absurd rfl hrecord

/-- An execution that does something for an attempt and heard nothing of it begins it. -/
theorem exists_issued_of_stage {act : Act} (hact : act ∈ acts)
    (hstage : (act.stage? n).isSome = true)
    (hunheard : ∀ stage signal, .heard n stage signal ∉ acts) :
    ∃ stage connection request, .issued n stage connection request ∈ acts := by
  obtain ⟨stage, hstage⟩ := Option.isSome_iff_exists.1 hstage
  obtain ⟨connection, request, rfl⟩ | ⟨signal, rfl⟩ := Act.stage?_eq_some hstage
  · exact ⟨stage, connection, request, hact⟩
  · exact absurd hact (hunheard stage signal)

/-- An attempt that is on record for the first time after a step of its task begins in it. -/
theorem Kept.step_opens (hx : x.Kept f k n s values paging) (hnew : stages k n x.record = [])
    {d : Due} (hd : Comes x d) (hk : d.task = k) {act : Act}
    (hact : act ∈ (x.client.step d.time d.task d.happening).2.filterMap Notice.act?)
    (hstage : (act.stage? n).isSome = true) :
    Opens k n (x.client.step d.time d.task d.happening) := by
  subst hk
  have hunissued (stage : Stage) (connection : Connection) (request : Request) :
      .issued n stage connection request ∉ actsOf d.task x.record := fun h => by
    have := stage_mem_issued h
    rw [hnew] at this
    cases this
  cases htask : x.client.task? d.task with
  | none => simp [Client.step, htask] at hact
  | some task =>
    obtain ⟨terms, purpose, e, rfl, -⟩ := hx.serves.task _ htask
    obtain ⟨-, hreaches⟩ := hx.sound.lawful _ _ htask
    obtain ⟨event, hevent, hact⟩ := Client.step_acts htask hact
    have hunheard (stage : Stage) (signal : Signal) : .heard n stage signal ∉
        (e.step terms.environment terms.settings d.time x.client.session event).acts := by
      intro hheard
      obtain rfl := Execution.step_heard hreaches.sound hheard
      obtain ⟨⟨connection, request, hissued⟩, -⟩ := hx.faithful.signal hx.sound hd hevent
      exact hunissued _ _ _ hissued
    obtain ⟨stage, connection, request, hissued⟩ := exists_issued_of_stage hact hstage hunheard
    obtain ⟨consistency, connection, hbegins⟩ :=
      (Execution.step_hands hreaches.sound _ _ _ _ event).begins_of_issued
        (hreaches.locate_eq_none hunissued) hissued
    have hstep : x.client.step d.time d.task d.happening = x.client.settleExecution d.task terms
        purpose (e.step terms.environment terms.settings d.time x.client.session event) := by
      simp [Client.step, htask, Client.advance, hevent]
    rw [hstep]
    exact opens_settleExecution hbegins hunheard

/-- An attempt that is on record when its task begins begins with it. -/
theorem start_opens {now : Nat} {act : Act}
    (hact : act ∈ (c.start now (.execute s values paging)).2.filterMap Notice.act?)
    (hstage : (act.stage? n).isSome = true) :
    Opens c.nextTask n (c.start now (.execute s values paging)) := by
  rw [Client.start, Client.begin, Client.startCall, Client.settleExecution_acts] at hact
  obtain ⟨stage, connection, request, hissued⟩ := exists_issued_of_stage hact hstage
    (Execution.heard_notMem (Execution.start_heard _) n)
  obtain ⟨consistency, connection, hbegins⟩ :=
    (Execution.start_hands _ _ _ _ _).begins_of_issued rfl hissued
  exact opens_settleExecution hbegins (Execution.heard_notMem (Execution.start_heard _) n)

/-- An attempt that is on record for the first time begins. -/
theorem Kept.opens (hx : x.Kept f k n s values paging) (h : Goes x step)
    (hnew : stages k n x.record = []) (hrecord : stages k n (step f).record ≠ []) :
    ∃ (base : Timeline) (time : Nat) (moved : Client × List Notice), base.Faithful f ∧
      base.record = x.record ∧ Opens k n moved ∧
      ∀ replies, step replies = base.act replies time k moved := by
  cases h with
  | idle => exact absurd hnew hrecord
  | @writes rest time t hleaves ht =>
    have hsame : stages k n (rest.post ((f t).reach time t)).record = [] := by
      rw [← hnew, ← hleaves.record]
      rfl
    exact absurd hsame hrecord
  | @happens rest d hleaves hd =>
    have hnew' : stages k n rest.record = [] := hleaves.record ▸ hnew
    obtain ⟨hk, act, hact, hstage⟩ := exists_act_of_stages hnew' hrecord
    rw [hleaves.client] at hact
    refine ⟨rest, d.time, _, hleaves.faithful hx.faithful, hleaves.record, ?_,
      fun replies => by rw [← hk]; rfl⟩
    rw [hleaves.client]
    exact hx.step_opens hnew hd hk hact hstage
  | @meets rest time i incidents hleaves hincidents =>
    cases i with
    | changes session control =>
      rw [← hleaves.record] at hnew
      exact absurd hnew hrecord
    | begins o =>
      simp only [meet_begins] at hrecord ⊢
      rw [← hleaves.record] at hnew
      obtain ⟨rfl, act, hact, hstage⟩ := exists_act_of_stages hnew hrecord
      have ho := hx.serves.coming 0 (by rw [hleaves.client]; rfl)
      have hoperations : operations x.incidents = o :: operations incidents := by
        simp [operations, hincidents]
      rw [hoperations] at ho
      obtain rfl := Option.some.inj ho
      have hrest := hleaves.faithful hx.faithful
      refine ⟨{ rest with
          incidents := incidents
          ready := rest.ready ++ [⟨time, rest.client.nextTask, .resume⟩] }, time, _,
        ⟨fun d hd request signal hsignal => ?_, hrest.mail⟩, hleaves.record, ?_, fun _ => rfl⟩
      · rcases List.mem_append.1 hd with hd | hd
        · exact hrest.ready d hd request signal hsignal
        · rw [List.mem_singleton.1 hd] at hsignal
          cases hsignal
      · exact start_opens hact hstage

/-- What is due for other requests than those of an attempt is so if the attempt repeats its
request. -/
theorem Faithful.ready_repeating (hx : x.Faithful f)
    (hother : ∀ t ∈ handed x.record, t.Other k n) : x.ready.map (Due.repeating k n) = x.ready := by
  refine (List.map_congr_left fun d hd => ?_).trans (List.map_id _)
  obtain ⟨time, task, happening⟩ := d
  cases happening with
  | signal request signal =>
    have hsame := (hother _ (hx.ready _ hd request signal rfl).1).repeating_eq
    exact (Due.signal_repeating time ⟨task, request⟩ signal).symm.trans (by rw [hsame]; rfl)
  | alarm | resume =>
    unfold Due.repeating
    split <;> rfl

theorem Faithful.mail_repeating (hx : x.Faithful f)
    (hother : ∀ t ∈ handed x.record, t.Other k n) : x.mail.map (Letter.repeating k n) = x.mail := by
  refine (List.map_congr_left fun l hl => ?_).trans (List.map_id _)
  rw [Letter.repeating, (hother _ (hx.mail l hl).1).repeating_eq]
  rfl

/-- The requests that were handed over, with the times and the connections. -/
def orders (record : List Sight) : List (Nat × Ticket × Connection × Request) :=
  record.filterMap fun s => (order? s.notice).map (s.time, ·)

/-- What is on record when an attempt wrote its first request. -/
structure Asks (k n time : Nat) (connection : Connection) (request : Request)
    (record : List Sight) : Prop where
  wrote : ∃ earlier,
    orders record = earlier ++ [(time, ⟨k, .attempt n .first⟩, connection, request)] ∧
      ∀ o ∈ earlier, o.2.1.Other k n
  begun : .issued n .first connection request ∈ actsOf k record
  unheard : ∀ stage signal, .heard n stage signal ∉ actsOf k record
  first : ∀ stage ∈ stages k n record, stage = .first

theorem orders_append (record more : List Sight) :
    orders (record ++ more) = orders record ++ orders more := by
  simp [orders]

theorem handed_eq (record : List Sight) : handed record = (orders record).map (·.2.1) := by
  simp only [handed, orders, ticket?_eq, List.map_filterMap, Option.map_map, Function.comp_def]

theorem actsOf_seen (time k : Nat) (terms : Terms) (acts : List Act) :
    actsOf k (seen time k terms acts) = acts := by
  rw [seen, actsOf_notices, Client.flatMap_issued_act?]

theorem orders_seen (time k : Nat) (terms : Terms) (acts : List Act) :
    orders (seen time k terms acts) =
      (acts.filterMap Act.handed?).map fun (m, stage, connection, request) =>
        (time, ⟨k, .attempt m stage⟩, connection, request) := by
  simp only [orders, seen, List.filterMap_map, Function.comp_def]
  rw [← List.map_filterMap, orders_issued, List.map_map]
  rfl

theorem asks_of_begins {m : Moved Session} {consistency : Consistency} {connection : Connection}
    (h : Execution.Begins terms.settings n consistency connection m)
    (hunheard : ∀ stage signal, .heard n stage signal ∉ m.acts)
    (hother : ∀ t ∈ handed record, t.Other k n) (hnew : stages k n record = []) (time : Nat) :
    Asks k n time connection (terms.settings.call.request consistency)
      (record ++ seen time k terms m.acts) := by
  have hmem {stage : Stage} {connection' : Connection} {request : Request} :
      .issued n stage connection' request ∈ m.acts ↔ stage = .first ∧ connection' = connection ∧
        request = terms.settings.call.request consistency := by
    rw [Act.mem_handed, h.handed]
    simp
  refine ⟨⟨orders record, ?_, fun o ho => ?_⟩, ?_, fun stage signal hheard => ?_,
    fun stage hstage => ?_⟩
  · rw [orders_append, orders_seen, h.handed]
    rfl
  · refine hother _ ?_
    rw [handed_eq]
    exact List.mem_map_of_mem ho
  · rw [actsOf_append, actsOf_seen, List.mem_append]
    exact .inr (hmem.2 ⟨rfl, rfl, rfl⟩)
  · rw [actsOf_append, actsOf_seen, List.mem_append] at hheard
    rcases hheard with hheard | hheard
    · have := stage_mem_heard hheard
      rw [hnew] at this
      cases this
    · exact hunheard stage signal hheard
  · rw [stages_append, hnew, stages, actsOf_seen, List.nil_append] at hstage
    obtain ⟨act, hact, hstage⟩ := List.mem_filterMap.1 hstage
    obtain ⟨connection', request, rfl⟩ | ⟨signal, rfl⟩ := Act.stage?_eq_some hstage
    · exact (hmem.1 hact).1
    · exact absurd hact (hunheard stage signal)

/-- **From where an attempt begins, the detour leads to where it repeats its request.** -/
theorem Opens.detour (rank : Trigger → Nat) {base : Timeline} {moved : Client × List Notice}
    (h : Opens k n moved)
    (hbase : base.Faithful f) (hother : ∀ t ∈ handed base.record, t.Other k n)
    (hnew : stages k n base.record = []) (hsound : (base.act f time k moved).Sound)
    (hserves : (base.act f time k moved).Serves k s values paging)
    (hrefused : refused.isUnprepared = true)
    (hprepared : prepared.body = .result (.prepared s.id)) :
    ∃ terms consistency connection,
      Asks k n time connection (terms.settings.call.request consistency)
        (base.act f time k moved).record ∧
      (next (f.detour k n refused prepared) rank)^[4]
          (base.act (f.detour k n refused prepared) time k moved) =
        (base.act f time k moved).repeating k n ((base.act f time k moved).record ++
          seen time k terms (Act.detour n connection s.text
            (terms.settings.call.request consistency) refused prepared)) := by
  cases h with
  | @intro c terms purpose m consistency connection hbegins hunheard =>
  let first : Ticket := ⟨k, .attempt n .first⟩
  let x : Timeline := { base with client := c }
  have hact (g : Replies) : base.act g time k (c.put k (.executing terms purpose m.execution),
        m.acts.flatMap (Client.issued k terms)) =
      x.underway k terms purpose m.execution ((g first).accept time first)
        (seen time k terms m.acts) := by
    have htickets : (m.acts.flatMap (Client.issued k terms)).filterMap ticket? = [first] := by
      rw [funext ticket?_eq, ← List.map_filterMap, orders_issued, hbegins.handed]
      rfl
    simp [act, htickets, seen, underway, x]
  rw [hact] at hsound hserves ⊢
  have hnodup : (c.put k (.executing terms purpose m.execution)).numbers.Nodup := hsound.nodup
  have htask : (c.put k (.executing terms purpose m.execution)).task? k =
      some (.executing terms purpose m.execution) := Client.task?_put c k _
  have hwaits : m.execution.Awaits terms.environment terms.settings terms.speculation n
      (.start terms.settings.call consistency connection) := by
    obtain ⟨-, hreaches⟩ := hsound.lawful _ _ htask
    obtain ⟨fiber, hfiber, node, deadline, since, hphase⟩ := hbegins.waits
    exact ⟨⟨_, hreaches⟩, hbegins.undecided, _, _, hreaches.locate_of_mem hfiber hphase, rfl⟩
  have hcall : terms.settings.call = .execute s.id s.text (.positional values)
      (paging.pageSize s.pageSize) paging.state := by
    obtain ⟨_, _, _, heq, hcall⟩ := hserves.task _ htask
    cases heq
    exact hcall
  refine ⟨terms, consistency, connection, asks_of_begins hbegins hunheard hother hnew time, ?_⟩
  rw [hact, next_detour hcall hwaits hrefused hprepared]
  have hclient : (c.put k (.executing terms purpose m.execution)).repeating k n =
      c.put k (.executing terms purpose (m.execution.amend n .repeating)) := by
    rw [← Client.repeating_eq_put hnodup htask]
    exact Client.put_put c k _ _
  have hfirst : Ticket.repeating k n first = ⟨k, .attempt n .repeated⟩ := by
    simp [Ticket.repeating, RequestId.repeating, first]
  have haccept := accept_repeating (k := k) (n := n) (f first) time first
  rw [hfirst] at haccept
  rw [haccept]
  simp [underway, repeating, x, hclient, hbase.ready_repeating hother, hbase.mail_repeating hother,
    Parcel.repeating]

/-! ## Two timelines -/

/-- The other timeline beside one: it is the same until the attempt writes its first request, and is
from then on the one in which the attempt repeats it after a detour. -/
inductive Beside (k n : Nat) (text : String) (refused prepared : Response) (x : Timeline) :
    Timeline → Prop
  | before : stages k n x.record = [] → Beside k n text refused prepared x x
  | after {before after : List Sight} {time : Nat} {terms : Terms} {connection : Connection}
      {request : Request} :
      x.record = before ++ after → Asks k n time connection request before → Later k n after →
      Beside k n text refused prepared x (x.repeating k n
        (before ++ seen time k terms (Act.detour n connection text request refused prepared) ++
          after.map (Sight.repeating k n)))

/-- What was not begun was not handed over. -/
theorem Sound.other_of_unbegun (hx : x.Sound) (hnew : stages k n x.record = []) :
    ∀ t ∈ Timeline.handed x.record, t.Other k n := by
  rintro t ht stage rfl
  obtain ⟨connection, request, hissued⟩ := hx.issued_of_handed ht
  have := stage_mem_issued hissued
  rw [hnew] at this
  cases this

/-- **The two timelines go on beside each other.** -/
theorem Beside.next {y : Timeline} (h : Beside k n s.text refused prepared x y)
    (hx : x.Kept f k n s values paging) (hf : Knows f k n) (hrefused : refused.isUnprepared = true)
    (hprepared : prepared.body = .result (.prepared s.id)) (rank : Trigger → Nat) :
    (x.next f rank).Kept f k n s values paging ∧ ∃ m, 0 < m ∧
      Beside k n s.text refused prepared (x.next f rank)
        ((Timeline.next (f.detour k n refused prepared) rank)^[m] y) := by
  have hgoes := next_goes rank x
  have hsound : (x.next f rank).Sound := hx.sound.next
  have hserves : (x.next f rank).Serves k s values paging := hgoes.serves hx.sound hx.serves
  have kept (hfirst : ∀ stage ∈ stages k n (x.next f rank).record, stage = .first) :
      (x.next f rank).Kept f k n s values paging := ⟨hsound, hx.faithful.next, hserves, hfirst⟩
  cases h with
  | before hnew =>
    by_cases hstill : stages k n (x.next f rank).record = []
    · have hsame : x.next f rank = x.next (f.detour k n refused prepared) rank :=
        hgoes.congr hx.faithful fun t ht =>
          (detour_other f (hsound.other_of_unbegun hstill t ht)).symm
      refine ⟨kept (by simp [hstill]), 1, Nat.one_pos, ?_⟩
      rw [Function.iterate_one, ← hsame]
      exact .before hstill
    · obtain ⟨base, time, moved, hbase, hrecord, hopens, hstep⟩ := hx.opens hgoes hnew hstill
      have hother := hx.sound.other_of_unbegun hnew
      rw [← hrecord] at hnew hother
      rw [hstep] at hsound hserves
      obtain ⟨terms, consistency, connection, hasks, hdetour⟩ :=
        hopens.detour rank hbase hother hnew hsound hserves hrefused hprepared
      rw [← hstep f] at hasks hdetour
      refine ⟨kept hasks.first, 5, by omega, ?_⟩
      rw [Function.iterate_succ_apply, hstep (f.detour k n refused prepared), hdetour,
        ← List.append_nil ((x.next f rank).record ++ _)]
      exact .after (List.append_nil _).symm hasks (.nil k n)
  | @after before after time terms connection request hrecord hasks hlater =>
    have hissued : .issued n .first connection request ∈ actsOf k x.record := by
      rw [hrecord, actsOf_append]
      exact List.mem_append_left _ hasks.begun
    obtain ⟨more, hmore, hnext, hy⟩ := hx.next_repeating ⟨connection, request, hissued⟩ hf rank
      (before ++ seen time k terms (Act.detour n connection s.text request refused prepared) ++
        after.map (Sight.repeating k n)) refused prepared
    have hrecord' : (x.next f rank).record = before ++ (after ++ more) := by
      rw [hnext, hrecord, List.append_assoc]
    refine ⟨kept fun stage hstage => ?_, 1, Nat.one_pos, ?_⟩
    · rw [hrecord', stages_append, List.mem_append] at hstage
      exact hstage.elim (hasks.first stage) ((hlater.append hmore).first stage)
    · rw [Function.iterate_one, hy, List.append_assoc _ (after.map _), ← List.map_append]
      exact .after hrecord' hasks (hlater.append hmore)

/-! ## What others see -/

/-- Whether a notice is more than that a request is written or heard of. -/
def isTold : Notice → Bool
  | .execution _ (.issued ..) | .execution _ (.heard ..) | .issued .. => false
  | _ => true

/-- What was done beside writing requests and hearing of them. -/
def told (record : List Sight) : List Sight :=
  record.filter (isTold ·.notice)

/-- The request a notice says to be acknowledged, if it is one of an execution. -/
def acknowledged? (k : Nat) : Notice → Option Ticket
  | .execution _ (.heard m stage .acknowledged) => some ⟨k, .attempt m stage⟩
  | _ => none

/-- The acknowledgements that executions heard, with the times. -/
def acknowledgements (record : List Sight) : List (Nat × Ticket) :=
  record.filterMap fun s => (acknowledged? s.task s.notice).map (s.time, ·)

/-- What was handed over under a ticket. -/
def asked (record : List Sight) (t : Ticket) : List (Connection × Request) :=
  ((orders record).filter (·.2.1 = t)).map (·.2.2)

/-- The requests of executions that got onto a connection, with the times they were acknowledged. -/
def written (record : List Sight) : List (Nat × Connection × Request) :=
  (acknowledgements record).flatMap fun ack => (asked record ack.2).map (ack.1, ·)

/-- The second of two timelines is the first one with a detour of an attempt: others see the same,
and if the attempt wrote its first request, there are that request and a preparation more. -/
structure Detoured (k n : Nat) (text : String) (x y : Timeline) : Prop where
  session : y.client.session = x.client.session
  monitor : y.client.monitor = x.client.monitor
  control : y.client.control = x.client.control
  told : told y.record = told x.record
  gains :
    (∀ t ∈ handed x.record, t.Other k n) ∧ y.record = x.record ∨
    ∃ time connection request,
      (∃ earlier later,
        orders x.record = earlier ++ (time, ⟨k, .attempt n .first⟩, connection, request) :: later ∧
        orders y.record = earlier ++ (time, ⟨k, .attempt n .first⟩, connection, request) ::
          (time, ⟨k, .attempt n .reprepare⟩, connection, .prepare text) ::
          (time, ⟨k, .attempt n .repeated⟩, connection, request) :: later) ∧
      ∃ earlier later,
        written x.record = earlier ++ later ∧
        written y.record =
          earlier ++ (time, connection, request) :: (time, connection, .prepare text) :: later

theorem acknowledged?_eq_some {notice : Notice} {t : Ticket}
    (h : acknowledged? k notice = some t) : ∃ terms m stage,
      notice = .execution terms (.heard m stage .acknowledged) ∧ t = ⟨k, .attempt m stage⟩ := by
  unfold acknowledged? at h
  split at h
  · cases h
    exact ⟨_, _, _, rfl, rfl⟩
  · cases h

theorem told_repeating (record : List Sight) :
    told (record.map (Sight.repeating k n)) = told record := by
  have hsame (s : Sight) : isTold (s.repeating k n).notice = isTold s.notice ∧
      (isTold s.notice = true → s.repeating k n = s) := by
    obtain ⟨time, task, notice⟩ := s
    unfold Sight.repeating
    split
    · cases notice with
      | execution terms act => cases act <;> simp [Notice.repeating, Act.repeating, isTold]
      | _ => exact ⟨rfl, fun _ => rfl⟩
    · exact ⟨rfl, fun _ => rfl⟩
  rw [told, List.filter_map]
  have hfilter : record.filter ((isTold ·.notice) ∘ Sight.repeating k n) = told record :=
    List.filter_congr fun s _ => (hsame s).1
  rw [hfilter]
  refine (List.map_congr_left fun s hs => ?_).trans (List.map_id _)
  exact (hsame s).2 (List.mem_filter.1 hs).2

theorem orders_repeating (record : List Sight) :
    orders (record.map (Sight.repeating k n)) = orders record := by
  rw [orders, List.filterMap_map]
  refine List.filterMap_congr fun s _ => ?_
  obtain ⟨time, task, notice⟩ := s
  unfold Function.comp Sight.repeating
  split
  · cases notice <;> rfl
  · rfl

theorem acknowledgements_repeating (record : List Sight) :
    acknowledgements (record.map (Sight.repeating k n)) =
      (acknowledgements record).map fun ack => (ack.1, Ticket.repeating k n ack.2) := by
  rw [acknowledgements, List.filterMap_map, acknowledgements, List.map_filterMap]
  refine List.filterMap_congr fun s _ => ?_
  obtain ⟨time, task, notice⟩ := s
  by_cases h : task = k
  · cases notice with
    | execution terms act =>
      cases act with
      | heard m stage signal =>
        cases signal <;>
          simp [Sight.repeating, h, Notice.repeating, Act.repeating, acknowledged?,
            Ticket.repeating, RequestId.repeating]
      | _ => simp [Sight.repeating, h, Notice.repeating, Act.repeating, acknowledged?]
    | _ => simp [Sight.repeating, h, Notice.repeating, acknowledged?]
  · have hsame : Sight.repeating k n ⟨time, task, notice⟩ = ⟨time, task, notice⟩ := if_neg h
    rw [Function.comp_apply, hsame]
    cases hack : acknowledged? task notice with
    | none => rfl
    | some t =>
      obtain ⟨terms, m, stage, -, rfl⟩ := acknowledged?_eq_some hack
      simp [Ticket.repeating, h]

theorem mem_acknowledgements {stage : Stage}
    (h : (time, ⟨k, .attempt n stage⟩) ∈ acknowledgements record) :
    .heard n stage .acknowledged ∈ actsOf k record := by
  obtain ⟨⟨time', task, notice⟩, hs, heq⟩ := List.mem_filterMap.1 h
  obtain ⟨t, hack, heq⟩ := Option.map_eq_some_iff.1 heq
  obtain ⟨terms, m, stage, rfl, rfl⟩ := acknowledged?_eq_some hack
  cases heq
  exact List.mem_filterMap.2 ⟨_, List.mem_filter.2 ⟨hs, by simp⟩, rfl⟩

theorem told_append (record more : List Sight) :
    told (record ++ more) = told record ++ told more := by
  simp [told]

theorem told_detour (time k n : Nat) (terms : Terms) (connection : Connection) (text : String)
    (request : Request) (refused prepared : Response) :
    told (seen time k terms (Act.detour n connection text request refused prepared)) = [] :=
  rfl

theorem acknowledgements_append (record more : List Sight) :
    acknowledgements (record ++ more) = acknowledgements record ++ acknowledgements more := by
  simp [acknowledgements]

/-- What was handed over under each ticket, with a detour and without. -/
structure AskedAgain (k n : Nat) (connection : Connection) (text : String) (request : Request)
    (record record' : List Sight) : Prop where
  once : asked record ⟨k, .attempt n .first⟩ = [(connection, request)]
  first : asked record' ⟨k, .attempt n .first⟩ = [(connection, request)]
  reprepare : asked record' ⟨k, .attempt n .reprepare⟩ = [(connection, .prepare text)]
  repeated : asked record' ⟨k, .attempt n .repeated⟩ = [(connection, request)]
  other : ∀ t, t.Other k n → asked record' t = asked record t

theorem AskedAgain.of_orders {text : String} {connection : Connection} {request : Request}
    {record' : List Sight} {earlier later : List (Nat × Ticket × Connection × Request)}
    (hothers : ∀ o ∈ earlier ++ later, o.2.1.Other k n)
    (h : orders record =
      earlier ++ (time, ⟨k, .attempt n .first⟩, connection, request) :: later)
    (h' : orders record' = earlier ++ (time, ⟨k, .attempt n .first⟩, connection, request) ::
      (time, ⟨k, .attempt n .reprepare⟩, connection, .prepare text) ::
      (time, ⟨k, .attempt n .repeated⟩, connection, request) :: later) :
    AskedAgain k n connection text request record record' := by
  have hnone (stage : Stage) : earlier.filter (·.2.1 = ⟨k, .attempt n stage⟩) = [] ∧
      later.filter (·.2.1 = ⟨k, .attempt n stage⟩) = [] := by
    simp only [List.filter_eq_nil_iff, decide_eq_true_eq]
    exact ⟨fun o ho => hothers o (List.mem_append_left _ ho) stage,
      fun o ho => hothers o (List.mem_append_right _ ho) stage⟩
  refine ⟨by simp [asked, h, hnone], by simp [asked, h', hnone], by simp [asked, h', hnone],
    by simp [asked, h', hnone], fun t ht => ?_⟩
  have hne (stage : Stage) : (⟨k, .attempt n stage⟩ : Ticket) ≠ t := Ne.symm (ht stage)
  simp [asked, h, h', hne]

section
variable {before after : List Sight} {connection : Connection} {request : Request}
  (hasks : Asks k n time connection request before) (hlater : Later k n after)
include hasks hlater

/-- What is handed over in a detour. -/
theorem Asks.orders_detour (terms : Terms) (text : String) (refused prepared : Response) :
    ∃ earlier,
      (∀ o ∈ earlier ++ orders after, o.2.1.Other k n) ∧
      orders (before ++ after) =
        earlier ++ (time, ⟨k, .attempt n .first⟩, connection, request) :: orders after ∧
      orders (before ++
          seen time k terms (Act.detour n connection text request refused prepared) ++
            after.map (Sight.repeating k n)) =
        earlier ++ (time, ⟨k, .attempt n .first⟩, connection, request) ::
          (time, ⟨k, .attempt n .reprepare⟩, connection, .prepare text) ::
          (time, ⟨k, .attempt n .repeated⟩, connection, request) :: orders after := by
  obtain ⟨earlier, horders, hearlier⟩ := hasks.wrote
  have hdetour :
      orders (seen time k terms (Act.detour n connection text request refused prepared)) =
        [(time, ⟨k, .attempt n .reprepare⟩, connection, .prepare text),
          (time, ⟨k, .attempt n .repeated⟩, connection, request)] := rfl
  refine ⟨earlier, fun o ho => ?_, ?_, ?_⟩
  · rcases List.mem_append.1 ho with ho | ho
    · exact hearlier o ho
    · refine hlater.other _ ?_
      rw [handed_eq]
      exact List.mem_map_of_mem ho
  · simp [orders_append, horders]
  · simp [orders_append, horders, hdetour, orders_repeating]

/-- A detour adds two requests to those that got onto a connection. -/
theorem Asks.written_detour (terms : Terms) (text : String) (refused prepared : Response) :
    ∃ earlier later, written (before ++ after) = earlier ++ later ∧
      written (before ++
          seen time k terms (Act.detour n connection text request refused prepared) ++
            after.map (Sight.repeating k n)) =
        earlier ++ (time, connection, request) :: (time, connection, .prepare text) :: later := by
  obtain ⟨earlier, hothers, hleft, hright⟩ :=
    hasks.orders_detour hlater terms text refused prepared
  have hagain := AskedAgain.of_orders hothers hleft hright
  have hdetour : acknowledgements
      (seen time k terms (Act.detour n connection text request refused prepared)) =
        [(time, ⟨k, .attempt n .first⟩), (time, ⟨k, .attempt n .reprepare⟩)] := rfl
  have hacks := acknowledgements_append before after
  have hacks' : acknowledgements (before ++
      seen time k terms (Act.detour n connection text request refused prepared) ++
        after.map (Sight.repeating k n)) = acknowledgements before ++
      ((time, ⟨k, .attempt n .first⟩) :: (time, ⟨k, .attempt n .reprepare⟩) ::
        (acknowledgements after).map fun ack => (ack.1, Ticket.repeating k n ack.2)) := by
    simp [acknowledgements_append, hdetour, acknowledgements_repeating]
  -- From here on only what was asked and what was acknowledged matters.
  clear hleft hright
  generalize before ++ after = record at *
  generalize before ++
    seen time k terms (Act.detour n connection text request refused prepared) ++
      after.map (Sight.repeating k n) = record' at *
  have hbefore : ∀ ack ∈ acknowledgements before, asked record' ack.2 = asked record ack.2 :=
    fun ack hack => hagain.other _ fun stage hstage => by
      obtain ⟨time, t⟩ := ack
      obtain rfl : t = ⟨k, .attempt n stage⟩ := hstage
      exact hasks.unheard stage .acknowledged (mem_acknowledgements hack)
  have hafter : ∀ ack ∈ acknowledgements after,
      asked record' (Ticket.repeating k n ack.2) = asked record ack.2 := by
    rintro ⟨time, t⟩ hack
    by_cases ht : t.Other k n
    · rw [ht.repeating_eq, hagain.other t ht]
    · obtain ⟨stage, rfl⟩ := Ticket.exists_stage ht
      obtain rfl := hlater.first _ (stage_mem_heard (mem_acknowledgements hack))
      rw [hagain.once, ← hagain.repeated]
      simp [Ticket.repeating, RequestId.repeating]
  refine ⟨(acknowledgements before).flatMap fun ack => (asked record ack.2).map (ack.1, ·),
    (acknowledgements after).flatMap fun ack => (asked record ack.2).map (ack.1, ·), ?_, ?_⟩
  · rw [written, hacks, List.flatMap_append]
  · rw [written, hacks', List.flatMap_append, List.flatMap_cons, List.flatMap_cons,
      List.flatMap_map, List.flatMap_congr fun ack hack => by rw [hbefore ack hack],
      List.flatMap_congr (l := acknowledgements after) fun ack hack => by rw [hafter ack hack]]
    simp [hagain.first, hagain.reprepare]

end

theorem Beside.detoured {y : Timeline} {text : String}
    (h : Beside k n text refused prepared x y) (hx : x.Sound) : Detoured k n text x y := by
  cases h with
  | before hnew => exact ⟨rfl, rfl, rfl, rfl, .inl ⟨hx.other_of_unbegun hnew, rfl⟩⟩
  | @after before after time terms connection request hrecord hasks hlater =>
    obtain ⟨earlier, -, hleft, hright⟩ := hasks.orders_detour hlater terms text refused prepared
    refine ⟨rfl, rfl, rfl, ?_, .inr ⟨time, connection, request, ⟨earlier, orders after, ?_, hright⟩,
      ?_⟩⟩
    · rw [hrecord]
      simp only [repeating, told_append, told_repeating, told_detour, List.append_nil]
    · rw [hrecord, hleft]
    · rw [hrecord]
      exact hasks.written_detour hlater terms text refused prepared

/-- **Preparing a statement again goes unnoticed**, under any policies, also such as learn from what
they are told. Take any incidents one of which executes a prepared statement, any attempt of that
execution, and any replies of which the one to the attempt's first request does not say that the
statement is unknown. Let the node refuse that request instead, answer the preparation with the
statement's id, and give the same reply to the repeated request. At every point of the first
timeline the second one comes to a point at which it differs from it by the detour only. -/
theorem reprepare_transparent {client : Client} (hclient : client.tasks = [])
    (incidents : List (Nat × Incident)) (rank : Trigger → Nat) {i : Nat}
    (hoperation : (operations incidents)[i]? = some (.execute s values paging)) (n : Nat)
    {f : Replies} (hf : Knows f (client.nextTask + i) n) {refused prepared : Response}
    (hrefused : refused.isUnprepared = true)
    (hprepared : prepared.body = .result (.prepared s.id)) (j : Nat) :
    ∃ m, j ≤ m ∧ Detoured (client.nextTask + i) n s.text
      ((next f rank)^[j] (start client incidents))
      ((next (f.detour (client.nextTask + i) n refused prepared) rank)^[m]
        (start client incidents)) := by
  have hkept : (start client incidents).Kept f (client.nextTask + i) n s values paging :=
    ⟨.start hclient incidents, .start client incidents, .start hclient hoperation, by
      simp [start, stages, actsOf]⟩
  suffices h : ((next f rank)^[j] (start client incidents)).Kept f (client.nextTask + i) n s values
      paging ∧ ∃ m, j ≤ m ∧ Beside (client.nextTask + i) n s.text refused prepared
        ((next f rank)^[j] (start client incidents))
        ((next (f.detour (client.nextTask + i) n refused prepared) rank)^[m]
          (start client incidents)) by
    obtain ⟨hx, m, hm, hbeside⟩ := h
    exact ⟨m, hm, hbeside.detoured hx.sound⟩
  induction j with
  | zero => exact ⟨hkept, 0, Nat.le_refl 0, .before (by simp [start, stages, actsOf])⟩
  | succ j ih =>
    obtain ⟨hx, m, hm, hbeside⟩ := ih
    obtain ⟨hnext, m', hm', hbeside'⟩ := hbeside.next hx hf hrefused hprepared rank
    rw [Function.iterate_succ_apply']
    refine ⟨hnext, m' + m, by omega, ?_⟩
    rw [Function.iterate_add_apply]
    exact hbeside'

/-- The node of the first attempt has forgotten the statement, and says that it is overloaded when
it is asked again; the attempt at another node succeeds. Everything ends when it would have. -/
theorem reprepare_transparent_before_retry :
    let s : PreparedStatement :=
      ⟨{ StatementConfig.standard with idempotent := true }, [1, 2], "SELECT v FROM t", .unpaged⟩
    let incidents : List (Nat × Incident) := [(0, .begins (.execute s [] .unpaged))]
    let overloaded : Response := ⟨.error .overloaded "busy", .none⟩
    let f : Replies := fun t =>
      if t = ⟨0, .attempt 0 .first⟩ then ⟨.comesBack (.ok overloaded), 10, 20⟩
      else ⟨.comesBack (.ok ⟨.result .void, .none⟩), 0, 5⟩
    let refused : Response := ⟨.error (.unprepared [1, 2]) "unknown", .none⟩
    let prepared : Response := ⟨.result (.prepared [1, 2]), .none⟩
    let run (replies : Replies) (j : Nat) : Timeline :=
      (next replies fun _ => 0)^[j] (start (.fresh .sample) incidents)
    let ends (s : Sight) : Option (Nat × Nat) :=
      match s.notice with
      | .finished n _ => some (s.time, n)
      | _ => none
    (∃ m, told (run (f.detour 0 0 refused prepared) m).record = told (run f 8).record ∧
      (written (run (f.detour 0 0 refused prepared) m).record).length = 4) ∧
    (told (run f 8).record).filterMap ends = [(35, 0)] ∧
      (written (run f 8).record).map (·.1) = [10, 30] := by
  intro s incidents overloaded f refused prepared run ends
  have hwritten : (written (run f 8).record).map (·.1) = [10, 30] := by
    simp only [run]
    cbv
  have hhanded : handed (run f 8).record = [⟨0, .attempt 0 .first⟩, ⟨0, .attempt 1 .first⟩] := by
    simp only [run]
    cbv
  refine ⟨?_, by simp only [run]; cbv, hwritten⟩
  have hclient : (Client.fresh .sample).tasks = [] := rfl
  have hoperation : (operations incidents)[0]? = some (.execute s [] .unpaged) := rfl
  have hf : Knows f ((Client.fresh .sample).nextTask + 0) 0 := by
    intro r hr
    obtain rfl : overloaded = r := by
      change Effect.comesBack (.ok overloaded) = .comesBack (.ok r) at hr
      cases hr
      rfl
    rfl
  have hrefused : refused.isUnprepared = true := rfl
  have hprepared : prepared.body = .result (.prepared s.id) := rfl
  obtain ⟨m, -, h⟩ := reprepare_transparent hclient incidents (fun _ => 0) hoperation 0 hf hrefused
    hprepared 8
  refine ⟨m, h.told, ?_⟩
  rcases h.gains with ⟨hother, -⟩ | ⟨time, connection, request, -, earlier, later, hleft, hright⟩
  · exact absurd rfl (hother _ (hhanded ▸ List.mem_cons_self) .first)
  · have htwo : (written (run f 8).record).length = 2 := by
      simpa using congrArg List.length hwritten
    have hless := congrArg List.length hleft
    have hmore := congrArg List.length hright
    simp only [List.length_append, List.length_cons] at hless hmore
    have hsum : earlier.length + later.length = 2 := hless.symm.trans htwo
    exact hmore.trans (by omega)

/-- A request that an attempt repeats is not prepared for again: refused as well, it ends the
attempt with that error, though the same two replies to its first request go unnoticed. -/
theorem not_transparent_after_reprepare :
    let s : PreparedStatement := ⟨.standard, [1, 2], "SELECT v FROM t", .unpaged⟩
    let reply (body : ResponseBody) : Reply := ⟨.comesBack (.ok ⟨body, .none⟩), 0, 0⟩
    let refuse := reply (.error (.unprepared [1, 2]) "unknown")
    let prepare := reply (.result (.prepared [1, 2]))
    let answer := reply (.result .void)
    -- The replies of a connection, one after the other.
    let line (replies : List Reply) : Replies := fun t =>
      match t.request with
      | .attempt 0 stage => replies[stage.place]?.getD .standard
      | _ => .standard
    let run (replies : List Reply) : Timeline :=
      (next (line replies) fun _ => 0)^[12]
        (start (.fresh .sample) [(0, .begins (.execute s [] .unpaged))])
    let ends (s : Sight) : Option (Option AttemptError) :=
      match s.notice with
      | .finished _ (.queried (.ok _)) => some none
      | .finished _ (.queried (.error (.lastAttempt e _))) => some (some e)
      | _ => none
    let before := [refuse, prepare]
    (run (before ++ [answer])).record.filterMap ends = [none] ∧
      (run (before ++ [refuse, prepare] ++ [answer])).record.filterMap ends =
        [some (.refused (.unprepared [1, 2]) "unknown")] := by
  intro s reply refuse prepare answer line run ends before
  simp only [run, before]
  constructor
  · cbv
  · cbv

end Rehearsal.Timeline

end ClusterClient
