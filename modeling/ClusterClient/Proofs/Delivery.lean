import ClusterClient.Proofs.Timeline

/-!
# What is due along a timeline

`Timeline.Goes` lists the ways a timeline can go on, so that what holds along all of them is proved
case by case and the order in which causes come about is left aside. `Timeline.Faithful` says that
what is due or on its way is for a request that was handed over, and is what is known to become of
that request.
-/

namespace ClusterClient.Rehearsal

/-- The operations that begin. -/
def operations (incidents : List (Nat × Incident)) : List Operation :=
  incidents.filterMap fun
    | (_, .begins o) => some o
    | (_, .changes ..) => none

namespace Timeline

/-- The requests that were handed over. -/
def handed (record : List Sight) : List Ticket :=
  record.filterMap fun s => ticket? s.notice

/-- What is left of a timeline when the next thing is done. -/
structure Leaves (x rest : Timeline) : Prop where
  client : rest.client = x.client
  record : rest.record = x.record
  incidents : rest.incidents = x.incidents
  ready : rest.ready ⊆ x.ready
  mail : rest.mail ⊆ x.mail

/-- What can happen next: something that is due, a reply that is on its way, or an alarm. -/
inductive Comes (x : Timeline) : Due → Prop
  | due {d : Due} : d ∈ x.ready → Comes x d
  | reply {time : Nat} {t : Ticket} {delivery : Delivery} :
      ⟨time, t, .reply delivery⟩ ∈ x.mail → Comes x (.signal time t (.delivered delivery))
  | alarm {time task : Nat} {alarm : Alarm} : Comes x ⟨time, task, .alarm alarm⟩

/-- What can be done next. -/
inductive Drawn (x : Timeline) : Deed → Prop
  | due {d : Due} : d ∈ x.ready → Drawn x (.due d)
  | letter {l : Letter} : l ∈ x.mail → Drawn x (.cause (.letter l))
  | alarm {time task : Nat} {alarm : Alarm} : Drawn x (.cause (.alarm time task alarm))
  | incident {time : Nat} {i : Incident} {incidents : List (Nat × Incident)} :
      x.incidents = (time, i) :: incidents → Drawn x (.cause (.incident time i))

/-- The ways a timeline goes on, whatever becomes of the requests. -/
inductive Goes (x : Timeline) : (Replies → Timeline) → Prop
  | idle : Goes x fun _ => x
  | writes {rest : Timeline} {time : Nat} {t : Ticket} :
      Leaves x rest → ⟨time, t, .write⟩ ∈ x.mail →
      Goes x fun replies => rest.post ((replies t).reach time t)
  | happens {rest : Timeline} {d : Due} :
      Leaves x rest → Comes x d → Goes x fun replies => rest.happen replies d
  | meets {rest : Timeline} {time : Nat} {i : Incident} {incidents : List (Nat × Incident)} :
      Leaves x rest → x.incidents = (time, i) :: incidents →
      Goes x fun replies => { rest with incidents := incidents }.meet replies time i

variable {replies : Replies} {rank : Trigger → Nat} {x : Timeline} {step : Replies → Timeline}

theorem draw_leaves {deed : Deed} {rest : Timeline} (h : x.draw rank = some (deed, rest)) :
    Leaves x rest := by
  unfold draw at h
  split at h
  · next d later hready =>
    cases h
    exact ⟨rfl, rfl, rfl, by simp [hready], List.Subset.refl _⟩
  · obtain ⟨⟨c, others⟩, hpick, heq⟩ := Option.map_eq_some_iff.1 h
    cases heq
    refine ⟨rfl, rfl, rfl, List.Subset.refl _, ?_⟩
    rw [← causes_letters x]
    exact fun l hl => ((pick_perm hpick).filterMap Cause.letter?).subset
      (((List.sublist_cons_self c others).filterMap Cause.letter?).subset hl)

theorem draw_drawn {deed : Deed} {rest : Timeline} (h : x.draw rank = some (deed, rest)) :
    Drawn x deed := by
  unfold draw at h
  split at h
  · next d later hready =>
    cases h
    exact .due (by simp [hready])
  · obtain ⟨⟨c, others⟩, hpick, heq⟩ := Option.map_eq_some_iff.1 h
    cases heq
    have hc := mem_of_pick hpick
    cases c with
    | letter l =>
      refine .letter ?_
      rw [← causes_letters x]
      exact List.mem_filterMap.2 ⟨_, hc, rfl⟩
    | alarm time task alarm => exact .alarm
    | incident time incident =>
      have hhead : x.incidents.head? = some (time, incident) := by simpa [causes] using hc
      obtain ⟨incidents, hincidents⟩ := List.head?_eq_some_iff.1 hhead
      exact .incident hincidents

theorem next_goes (rank : Trigger → Nat) (x : Timeline) :
    Goes x fun replies => x.next replies rank := by
  unfold next
  cases hdraw : x.draw rank with
  | none => exact .idle
  | some drawn =>
    obtain ⟨deed, rest⟩ := drawn
    have hleaves := draw_leaves hdraw
    cases draw_drawn hdraw with
    | due hd => exact .happens hleaves (.due hd)
    | @letter l hl =>
      obtain ⟨time, t, freight⟩ := l
      cases freight with
      | write => exact .writes hleaves hl
      | reply delivery => exact .happens hleaves (.reply hl)
    | alarm => exact .happens hleaves .alarm
    | incident hincidents =>
      simpa [carryOut, perform, hleaves.incidents, hincidents] using Goes.meets hleaves hincidents

/-! ## What is due is known -/

/-- What becomes of a request, by what comes back for it. -/
structure Parcel.Of (r : Reply) (t : Ticket) (p : Parcel) : Prop where
  due : ∀ d ∈ p.due, ∃ time s, d = .signal time t s ∧
    ∀ delivery, s = .delivered delivery → r.effect = .comesBack delivery
  mail : ∀ l ∈ p.mail, l.ticket = t ∧
    ∀ delivery, l.freight = .reply delivery → r.effect = .comesBack delivery

theorem reach_of (r : Reply) (now : Nat) (t : Ticket) : Parcel.Of r t (r.reach now t) := by
  unfold Reply.reach
  cases he : r.effect with
  | writeFails cause | silence => exact ⟨by simp [Due.signal], by simp⟩
  | comesBack delivery =>
    dsimp only
    split
    · refine ⟨fun d hd => ?_, by simp⟩
      rcases List.mem_pair.1 hd with rfl | rfl
      · exact ⟨now, .acknowledged, rfl, by simp⟩
      · exact ⟨now, .delivered delivery, rfl, by simp [he]⟩
    · exact ⟨by simp [Due.signal], by simp [he]⟩

theorem accept_of (r : Reply) (now : Nat) (t : Ticket) : Parcel.Of r t (r.accept now t) := by
  unfold Reply.accept
  split
  · exact reach_of r now t
  · exact ⟨by simp, by simp⟩

/-- What is due or on its way is for a request that was handed over, and what comes back is what is
known to. -/
structure Faithful (replies : Replies) (x : Timeline) : Prop where
  ready : ∀ d ∈ x.ready, ∀ request s, d.happening = .signal request s →
    ⟨d.task, request⟩ ∈ handed x.record ∧
      ∀ delivery, s = .delivered delivery →
        (replies ⟨d.task, request⟩).effect = .comesBack delivery
  mail : ∀ l ∈ x.mail, l.ticket ∈ handed x.record ∧
    ∀ delivery, l.freight = .reply delivery → (replies l.ticket).effect = .comesBack delivery

theorem handed_append (record more : List Sight) :
    handed (record ++ more) = handed record ++ handed more := by
  simp [handed]

theorem handed_notices (time n : Nat) (notices : List Notice) :
    handed (notices.map (⟨time, n, ·⟩)) = notices.filterMap ticket? := by
  simp [handed, List.filterMap_map]

theorem Leaves.faithful {rest : Timeline} (h : Leaves x rest) (hx : x.Faithful replies) :
    rest.Faithful replies where
  ready d hd := h.record ▸ hx.ready d (h.ready hd)
  mail l hl := h.record ▸ hx.mail l (h.mail hl)

theorem Faithful.post (hx : x.Faithful replies) {t : Ticket} (ht : t ∈ handed x.record)
    {p : Parcel} (hp : Parcel.Of (replies t) t p) : (x.post p).Faithful replies where
  ready d hd request s hsignal := by
    rcases List.mem_append.1 hd with hd | hd
    · obtain ⟨time, s', rfl, hs'⟩ := hp.due d hd
      cases hsignal
      exact ⟨ht, hs'⟩
    · exact hx.ready d hd request s hsignal
  mail l hl := by
    rcases List.mem_append.1 hl with hl | hl
    · exact hx.mail l hl
    · obtain ⟨rfl, hdelivery⟩ := hp.mail l hl
      exact ⟨ht, hdelivery⟩

theorem Faithful.act (hx : x.Faithful replies) (time n : Nat) (moved : Client × List Notice) :
    (x.act replies time n moved).Faithful replies where
  ready d hd request s hsignal := by
    simp only [Timeline.act, handed_append, handed_notices, List.mem_append]
    rcases List.mem_append.1 hd with hd | hd
    · obtain ⟨p, hp, hd⟩ := List.mem_flatMap.1 hd
      obtain ⟨t, ht, rfl⟩ := List.mem_map.1 hp
      obtain ⟨time', s', rfl, hs'⟩ := (accept_of (replies t) time t).due d hd
      cases hsignal
      exact ⟨.inr ht, hs'⟩
    · obtain ⟨hhanded, hdelivery⟩ := hx.ready d hd request s hsignal
      exact ⟨.inl hhanded, hdelivery⟩
  mail l hl := by
    simp only [Timeline.act, handed_append, handed_notices, List.mem_append]
    rcases List.mem_append.1 hl with hl | hl
    · obtain ⟨hhanded, hdelivery⟩ := hx.mail l hl
      exact ⟨.inl hhanded, hdelivery⟩
    · obtain ⟨p, hp, hl⟩ := List.mem_flatMap.1 hl
      obtain ⟨t, ht, rfl⟩ := List.mem_map.1 hp
      obtain ⟨rfl, hdelivery⟩ := (accept_of (replies t) time t).mail l hl
      exact ⟨.inr ht, hdelivery⟩

theorem Faithful.meet (hx : x.Faithful replies) (time : Nat) (i : Incident) :
    (x.meet replies time i).Faithful replies := by
  cases i with
  | changes session control => exact ⟨hx.ready, hx.mail⟩
  | begins o =>
    obtain ⟨hready, hmail⟩ := hx.act time x.client.nextTask (x.client.start time o)
    refine ⟨fun d hd request s hsignal => ?_, hmail⟩
    rcases List.mem_append.1 hd with hd | hd
    · exact hready d hd request s hsignal
    · rw [List.mem_singleton.1 hd] at hsignal
      cases hsignal

theorem Goes.faithful (h : Goes x step) (hx : x.Faithful replies) :
    (step replies).Faithful replies := by
  cases h with
  | idle => exact hx
  | @writes rest time t hleaves ht =>
    exact (hleaves.faithful hx).post (hleaves.record ▸ (hx.mail _ ht).1) (reach_of _ _ _)
  | happens hleaves hd => exact (hleaves.faithful hx).act _ _ _
  | @meets rest time i incidents hleaves hincidents =>
    have hrest := hleaves.faithful hx
    have htail : ({ rest with incidents := incidents } : Timeline).Faithful replies :=
      ⟨hrest.ready, hrest.mail⟩
    exact htail.meet time i

/-- **Along every timeline, what is due or on its way is known.** -/
theorem Faithful.next (hx : x.Faithful replies) : (x.next replies rank).Faithful replies :=
  (next_goes rank x).faithful hx

theorem Faithful.start (client : Client) (incidents : List (Nat × Incident)) :
    (start client incidents).Faithful replies :=
  ⟨by simp [Timeline.start], by simp [Timeline.start]⟩

/-! ## The task of an operation -/

/-- A task that executes a call. -/
def Executes (call : Call) (t : Task) : Prop :=
  ∃ terms purpose e, t = .executing terms purpose e ∧ terms.settings.call = call

/-- A number is that of the task that executes a prepared statement, once the operation began. -/
structure Serves (n : Nat) (s : PreparedStatement) (values : List Value) (paging : Paging)
    (x : Timeline) : Prop where
  task : ∀ t, x.client.task? n = some t → Executes
    (.execute s.id s.text (.positional values) (paging.pageSize s.pageSize) paging.state) t
  coming : ∀ i, x.client.nextTask + i = n →
    (operations x.incidents)[i]? = some (.execute s values paging)

variable {n : Nat} {s : PreparedStatement} {values : List Value} {paging : Paging}

theorem Serves.happen (hx : x.Serves n s values paging) (d : Due) :
    (x.happen replies d).Serves n s values paging := by
  have hturned : Client.Turned (fun t _ => d.task = n → Executes
      (.execute s.id s.text (.positional values) (paging.pageSize s.pageSize) paging.state) t)
      d.task x.client (x.client.step d.time d.task d.happening) := by
    refine Client.step_turned _ _ (fun t ht hn => hx.task t (hn ▸ ht)) ?_ ?_
    · intro t ht hquiet u hu hn
      obtain ⟨terms, purpose, e, rfl, -⟩ := hx.task t (hn ▸ ht)
      cases hquiet
    · intro terms purpose e event ht m _ hn
      obtain ⟨terms, purpose, e, heq, hcall⟩ := hx.task _ (hn ▸ ht)
      cases heq
      exact ⟨_, _, _, rfl, hcall⟩
  refine ⟨fun t ht => ?_, fun i hi => hx.coming i (hturned.nextTask ▸ hi)⟩
  by_cases hn : d.task = n
  · subst hn
    exact hturned.own t ht rfl
  · exact hx.task t ((hturned.others n (Ne.symm hn)).symm.trans ht)

theorem Serves.begin (hsound : x.Sound) (hx : x.Serves n s values paging) {time : Nat}
    {o : Operation} {incidents : List (Nat × Incident)}
    (hincidents : x.incidents = (time, .begins o) :: incidents) :
    (({ x with incidents := incidents } : Timeline).meet replies time (.begins o)).Serves
      n s values paging := by
  have hoperations : operations x.incidents = o :: operations incidents := by
    simp [operations, hincidents]
  let c : Client := { x.client with nextTask := x.client.nextTask + 1 }
  have hturned : Client.Turned (fun _ _ => True) x.client.nextTask c (x.client.start time o) :=
    .of_start (hsound.numbered _ (Nat.le_refl _)).1 time o
  refine ⟨fun t ht => ?_, fun i hi => ?_⟩
  · by_cases hn : n = x.client.nextTask
    · subst hn
      -- The operation that begins is the one that was to come.
      have ho := hx.coming 0 rfl
      rw [hoperations] at ho
      obtain rfl := Option.some.inj ho
      have hexecutes : Client.Turned (fun t _ => Executes (.execute s.id s.text
          (.positional values) (paging.pageSize s.pageSize) paging.state) t) x.client.nextTask c
          (x.client.start time (.execute s values paging)) :=
        Client.settleExecution_turned fun _ => ⟨_, _, _, rfl, rfl⟩
      exact hexecutes.own t ht
    · exact hx.task t ((hturned.others n hn).symm.trans ht)
  · have hnext : x.client.nextTask + 1 + i = n := by
      rw [← hi]
      exact congrArg (· + i) hturned.nextTask.symm
    have := hx.coming (i + 1) (by omega)
    rwa [hoperations] at this

theorem Goes.serves (h : Goes x step) (hsound : x.Sound) (hx : x.Serves n s values paging) :
    (step replies).Serves n s values paging := by
  have left {rest : Timeline} (h : Leaves x rest) : rest.Serves n s values paging :=
    ⟨h.client ▸ hx.task, by rw [h.client, h.incidents]; exact hx.coming⟩
  cases h with
  | idle => exact hx
  | writes hleaves ht => exact ⟨(left hleaves).task, (left hleaves).coming⟩
  | happens hleaves hd => exact (left hleaves).happen _
  | @meets rest time i incidents hleaves hincidents =>
    have hrest : rest.Sound := hsound.congr (by rw [hleaves.client]) (by rw [hleaves.client])
      hleaves.record
    rw [← hleaves.incidents] at hincidents
    cases i with
    | begins o => exact (left hleaves).begin hrest hincidents
    | changes session control =>
      refine ⟨(left hleaves).task, fun i hi => ?_⟩
      have := (left hleaves).coming i hi
      rwa [hincidents] at this

theorem Serves.start {client : Client} (hclient : client.tasks = [])
    {incidents : List (Nat × Incident)} {i : Nat}
    (hoperation : (operations incidents)[i]? = some (.execute s values paging)) :
    (start client incidents).Serves (client.nextTask + i) s values paging where
  task t ht := by
    rw [Timeline.start, Client.task?, hclient] at ht
    cases ht
  coming j hj := by
    obtain rfl : j = i := Nat.add_left_cancel hj
    exact hoperation

end Timeline

end ClusterClient.Rehearsal
