import ClusterClient.Proofs.Course
import ClusterClient.Proofs.Story
import ClusterClient.Proofs.Timeline

/-!
# Late replies

A request is abandoned when its attempt's time runs out, or when its execution is over
(`abandoned`). What still comes back for it changes nothing (`Sound.inert`), so two timelines in
which the same is known of every other reply go on alike (`Alike.next`), however often one of them
hears of an abandoned request in between. `late_replies_inert` says that clients and records are the
same in both.
-/

namespace ClusterClient.Rehearsal

/-- Two replies that are the same until the request is written: they may differ in what comes back
then, and in when it does. -/
structure Reply.SameWrite (r r' : Reply) : Prop where
  writeAfter : r.writeAfter = r'.writeAfter
  writeFails : ∀ cause, r.effect = .writeFails cause ↔ r'.effect = .writeFails cause

/-- The request something due replies to, if it is a reply. -/
def Due.reply? : Due → Option Ticket
  | ⟨_, task, .signal request (.delivered _)⟩ => some ⟨task, request⟩
  | _ => none

/-- The request a letter replies to, if it is a reply. -/
def Letter.reply? : Letter → Option Ticket
  | ⟨_, t, .reply _⟩ => some t
  | ⟨_, _, .write⟩ => none

/-- The request a cause is the reply to, if it is one. -/
def Cause.reply? (c : Cause) : Option Ticket :=
  c.letter?.bind Letter.reply?

/-- The request something done replies to, if it is a reply. -/
def Deed.reply? : Deed → Option Ticket
  | .due d => d.reply?
  | .cause c => c.reply?

/-- Whether a request was abandoned, by what was recorded: its attempt's time ran out, or its task
is over. -/
def abandoned (record : List Sight) (t : Ticket) : Bool :=
  record.any fun s => s.task = t.task &&
    match s.notice, t.request with
    | .finished _ _, _ => true
    | .execution _ (.failed n _ _ (.timedOut _)), .attempt m _ => n = m
    | _, _ => false

namespace Timeline

/-- The request whose reply comes next, if a reply does. -/
def replied? (rank : Trigger → Nat) (x : Timeline) : Option Ticket :=
  (x.draw rank).bind fun (deed, _) => deed.reply?

/-- Replies to some requests come only after the requests were abandoned. -/
def Late (replies : Replies) (rank : Trigger → Nat) (late : Ticket → Bool) (x : Timeline) : Prop :=
  ∀ k t, ((next replies rank)^[k] x).replied? rank = some t → late t = true →
    abandoned ((next replies rank)^[k] x).record t = true

/-- Whether something is no reply to one of some requests. -/
def spared (late : Ticket → Bool) (t : Option Ticket) : Bool :=
  !t.any late

/-- Two timelines that differ at most in replies to some requests. -/
structure Alike (late : Ticket → Bool) (x y : Timeline) : Prop where
  client : x.client = y.client
  record : x.record = y.record
  incidents : x.incidents = y.incidents
  ready : x.ready.filter (spared late ·.reply?) = y.ready.filter (spared late ·.reply?)
  mail : x.mail.filter (spared late ·.reply?) = y.mail.filter (spared late ·.reply?)

variable {replies f g : Replies} {rank : Trigger → Nat} {late : Ticket → Bool} {x y : Timeline}
  {t : Ticket}

/-! ## Replies to abandoned requests -/

/-- No fiber waits for an attempt that failed. -/
theorem locate_of_failed {env : Environment Session} {settings : Settings}
    {speculation : Option Speculation} {e : Execution} {acts : List Act}
    (h : Execution.Reaches env settings speculation e acts) {n i : Nat} {node : Node}
    {error : AttemptError} (ha : .failed n i node error ∈ acts) : e.locate n = none := by
  have hstory := h.arises.story
  obtain ⟨before, after, hacts⟩ := List.append_of_mem ha
  obtain ⟨⟨connection, hbegan⟩, -⟩ := hstory.failed before n i node error after hacts
  have hlt : n < e.shared.attempts := by
    rw [← List.mem_range, ← hstory.begun]
    exact List.mem_filterMap.2 ⟨_, hacts ▸ List.mem_append_left _ hbegan, rfl⟩
  have hended : 0 < acts.countP (Act.ends n) :=
    List.countP_pos_iff.2 ⟨_, ha, by simp [Act.ends]⟩
  have hwaits : e.fibers.countP (Fiber.waitsFor n) = 0 := by
    have := hstory.ended n hlt
    omega
  cases hl : e.locate n with
  | none => rfl
  | some found =>
    obtain ⟨f, c⟩ := found
    obtain ⟨hf, hp, hc⟩ := Execution.locate_eq_some hl
    have := List.countP_eq_zero.1 hwaits f hf
    simp [Fiber.waitsFor, hp, Phase.stance, hc] at this

/-- Nothing happens to an execution for an attempt that no fiber waits for. -/
theorem step_signal_idle {env : Environment Session} {settings : Settings} {e : Execution} {n : Nat}
    (h : e.locate n = none) (now : Nat) (w : Session) (stage : Stage) (s : Signal) :
    e.step env settings now w (.signal n stage s) = ⟨e, w, []⟩ := by
  simp [Execution.step, h]

/-- **What comes back for an abandoned request changes nothing.** -/
theorem Sound.inert (hx : x.Sound) (ht : abandoned x.record t = true) (now : Nat) (s : Signal) :
    x.client.step now t.task (.signal t.request s) = (x.client, []) := by
  obtain ⟨⟨time, n, notice⟩, hsight, hcase⟩ := List.any_eq_true.1 ht
  rw [Bool.and_eq_true, decide_eq_true_eq] at hcase
  obtain ⟨rfl, hcase⟩ := hcase
  unfold Client.step
  cases htask : x.client.task? t.task with
  | none => rfl
  | some task =>
    cases notice with
    | finished m o =>
      obtain ⟨hm, hgone⟩ := hx.gone _ hsight m o rfl
      rw [hm, htask] at hgone
      cases hgone
    | execution terms act =>
      have hact : act ∈ actsOf t.task x.record :=
        List.mem_filterMap.2 ⟨_, List.mem_filter.2 ⟨hsight, by simp⟩, rfl⟩
      obtain ⟨stage, n, i, node, limit, hrequest, rfl⟩ : ∃ stage n i node limit,
          t.request = .attempt n stage ∧ act = .failed n i node (.timedOut limit) := by
        split at hcase <;> simp_all
      have hlawful := hx.lawful t.task task htask
      cases task with
      | executing terms purpose e =>
        obtain ⟨hopen, hreaches⟩ := hlawful
        simp only [Client.advance, hrequest, Client.executionEvent?,
          step_signal_idle (locate_of_failed hreaches hact)]
        exact Client.settleExecution_idle hx.nodup htask hopen
      | listing | looking | inquiring =>
        rw [show actsOf t.task x.record = [] from hlawful] at hact
        cases hact
    | _ => simp at hcase

/-! ## Two timelines -/

theorem Alike.refl (late : Ticket → Bool) (x : Timeline) : Alike late x x :=
  ⟨rfl, rfl, rfl, rfl, rfl⟩

theorem Alike.trans {z : Timeline} (h : Alike late x y) (h' : Alike late y z) : Alike late x z :=
  ⟨h.client.trans h'.client, h.record.trans h'.record, h.incidents.trans h'.incidents,
    h.ready.trans h'.ready, h.mail.trans h'.mail⟩

theorem Alike.symm (h : Alike late x y) : Alike late y x :=
  ⟨h.client.symm, h.record.symm, h.incidents.symm, h.ready.symm, h.mail.symm⟩

/-- Whether what becomes of a request differs at most in a reply that is left out. -/
def Matches (late : Ticket → Bool) (f g : Replies) : Prop :=
  ∀ t, f t = g t ∨ late t = true ∧ (f t).SameWrite (g t)

theorem reach_alike (hfg : Matches late f g) (now : Nat) (t : Ticket) :
    ((f t).reach now t).due.filter (spared late ·.reply?) =
        ((g t).reach now t).due.filter (spared late ·.reply?) ∧
      ((f t).reach now t).mail.filter (spared late ·.reply?) =
        ((g t).reach now t).mail.filter (spared late ·.reply?) := by
  rcases hfg t with heq | ⟨hlate, -, hfails⟩
  · rw [heq]
    exact ⟨rfl, rfl⟩
  -- Apart from the reply, an acknowledgement is all that comes back for a request that is written.
  · have written {r : Reply} (hr : ∀ cause, r.effect ≠ .writeFails cause) :
        (r.reach now t).due.filter (spared late ·.reply?) = [.signal now t .acknowledged] ∧
          (r.reach now t).mail.filter (spared late ·.reply?) = [] := by
      unfold Reply.reach
      split
      · exact absurd ‹_› (hr _)
      · exact ⟨rfl, rfl⟩
      · split <;> simp [spared, Due.reply?, Due.signal, Letter.reply?, hlate]
    cases hf : (f t).effect with
    | writeFails cause =>
      rw [Reply.reach, Reply.reach, hf, (hfails cause).1 hf]
      exact ⟨rfl, rfl⟩
    | comesBack | silence =>
      have hleft := written (r := f t) (by simp [hf])
      have hright := written (r := g t) fun cause hg => by
        rw [(hfails cause).2 hg] at hf
        cases hf
      rw [hleft.1, hleft.2, hright.1, hright.2]
      exact ⟨rfl, rfl⟩

theorem accept_alike (hfg : Matches late f g) (now : Nat) (t : Ticket) :
    ((f t).accept now t).due.filter (spared late ·.reply?) =
        ((g t).accept now t).due.filter (spared late ·.reply?) ∧
      ((f t).accept now t).mail.filter (spared late ·.reply?) =
        ((g t).accept now t).mail.filter (spared late ·.reply?) := by
  have hafter : (f t).writeAfter = (g t).writeAfter := by
    rcases hfg t with heq | ⟨-, hafter, -⟩
    · rw [heq]
    · exact hafter
  unfold Reply.accept
  rw [hafter]
  split
  · exact reach_alike hfg now t
  · exact ⟨rfl, rfl⟩

theorem Alike.act (h : Alike late x y) (hfg : Matches late f g) (time n : Nat)
    (moved : Client × List Notice) : Alike late (x.act f time n moved) (y.act g time n moved) where
  client := rfl
  record := by simp [Timeline.act, h.record]
  incidents := h.incidents
  ready := by
    simp only [Timeline.act, List.filter_append, List.filter_flatMap, List.flatMap_map, h.ready,
      (accept_alike hfg time _).1]
  mail := by
    simp only [Timeline.act, List.filter_append, List.filter_flatMap, List.flatMap_map, h.mail,
      (accept_alike hfg time _).2]

theorem Alike.happen (h : Alike late x y) (hfg : Matches late f g) (d : Due) :
    Alike late (x.happen f d) (y.happen g d) := by
  rw [Timeline.happen, Timeline.happen, h.client]
  exact h.act hfg _ _ _

theorem Alike.meet (h : Alike late x y) (hfg : Matches late f g) (time : Nat) (i : Incident) :
    Alike late (x.meet f time i) (y.meet g time i) := by
  cases i with
  | begins o =>
    have hact := h.act hfg time x.client.nextTask (x.client.start time o)
    simp only [Timeline.meet, ← h.client]
    refine ⟨rfl, hact.record, hact.incidents, ?_, hact.mail⟩
    rw [List.filter_append, List.filter_append, hact.ready]
  | changes session control =>
    refine ⟨?_, h.record, h.incidents, h.ready, h.mail⟩
    simp [Timeline.meet, h.client]

theorem Alike.perform (h : Alike late x y) (hfg : Matches late f g) (c : Cause) :
    Alike late (x.perform f c) (y.perform g c) := by
  cases c with
  | letter l =>
    obtain ⟨time, t, freight⟩ := l
    cases freight with
    | write =>
      obtain ⟨hdue, hmail⟩ := reach_alike hfg time t
      refine ⟨h.client, h.record, h.incidents, ?_, ?_⟩
      · simp [Timeline.perform, post, hdue, h.ready]
      · simp [Timeline.perform, post, hmail, h.mail]
    | reply delivery => exact h.happen hfg _
  | alarm time task alarm => exact h.happen hfg _
  | incident time incident =>
    have htail : Alike late { x with incidents := x.incidents.tail }
        { y with incidents := y.incidents.tail } :=
      ⟨h.client, h.record, congrArg List.tail h.incidents, h.ready, h.mail⟩
    exact htail.meet hfg time incident

/-! ## Causes -/

/-- The letters among the causes that are left. -/
theorem filter_letters (causes : List Cause) :
    (causes.filterMap Cause.letter?).filter (spared late ·.reply?) =
      (causes.filter (spared late ·.reply?)).filterMap Cause.letter? := by
  induction causes with
  | nil => rfl
  | cons c causes ih =>
    cases c with
    | letter l =>
      simp only [List.filterMap_cons, Cause.letter?, List.filter_cons, Cause.reply?,
        Option.bind_some, ih]
      split <;> simp [Cause.letter?]
    | alarm | incident =>
      rw [List.filterMap_cons_none rfl, List.filter_cons_of_pos rfl, List.filterMap_cons_none rfl,
        ih]

theorem Alike.causes (h : Alike late x y) :
    x.causes.filter (spared late ·.reply?) = y.causes.filter (spared late ·.reply?) := by
  have letters (l : List Letter) : (l.map Cause.letter).filter (spared late ·.reply?) =
      (l.filter (spared late ·.reply?)).map .letter := by
    rw [List.filter_map]
    rfl
  simp only [Timeline.causes, List.filter_append, letters, h.mail, h.client, h.incidents]

/-- What is picked among causes that differ in what is left out is the same, if it is left out on
neither side. -/
theorem pick_alike {α : Type} (key : α → Nat × Nat) {p : α → Bool} {l l' : List α}
    (hsame : l.filter p = l'.filter p)
    (hl : ∀ a others, pick key l = some (a, others) → p a = true)
    (hl' : ∀ a others, pick key l' = some (a, others) → p a = true) :
    pick key l = none ∧ pick key l' = none ∨ ∃ a others others',
      pick key l = some (a, others) ∧ pick key l' = some (a, others') ∧
        others.filter p = others'.filter p := by
  cases hpick : pick key l with
  | none =>
    rw [pick_eq_none.1 hpick, eq_comm, List.filter_nil, List.filter_eq_nil_iff] at hsame
    cases hpick' : pick key l' with
    | none => exact .inl ⟨rfl, rfl⟩
    | some picked => exact absurd (hl' _ _ hpick') (hsame _ (mem_of_pick hpick'))
  | some picked =>
    obtain ⟨a, others⟩ := picked
    have hleft := pick_filter p hpick (hl _ _ hpick)
    rw [hsame] at hleft
    cases hpick' : pick key l' with
    | none =>
      rw [pick_eq_none.1 hpick'] at hleft
      cases hleft
    | some picked' =>
      obtain ⟨a', others'⟩ := picked'
      have hright := pick_filter p hpick' (hl' _ _ hpick')
      rw [hleft, Option.some.injEq, Prod.mk.injEq] at hright
      obtain ⟨rfl, hothers⟩ := hright
      exact .inr ⟨a, others, others', rfl, rfl, hothers⟩

/-! ## In step -/

/-- Two timelines of which neither goes on with a reply that is left out go on with the same. -/
theorem Alike.draw (h : Alike late x y) (hx : spared late (x.replied? rank) = true)
    (hy : spared late (y.replied? rank) = true) :
    x.draw rank = none ∧ y.draw rank = none ∨ ∃ deed x' y',
      x.draw rank = some (deed, x') ∧ y.draw rank = some (deed, y') ∧ Alike late x' y' := by
  unfold replied? at hx hy
  unfold Timeline.draw at hx hy ⊢
  have hready := h.ready
  have keep {d : Due} {later : List Due} (hd : spared late d.reply? = true) :
      (d :: later).filter (spared late ·.reply?) = d :: later.filter (spared late ·.reply?) :=
    List.filter_cons_of_pos hd
  cases hxr : x.ready with
  | cons d later =>
    simp only [hxr] at hx hready ⊢
    rw [keep hx] at hready
    cases hyr : y.ready with
    | nil =>
      rw [hyr] at hready
      cases hready
    | cons d' later' =>
      simp only [hyr] at hy hready ⊢
      rw [keep hy] at hready
      obtain ⟨rfl, hlater⟩ := List.cons.inj hready
      exact .inr ⟨_, _, _, rfl, rfl, h.client, h.record, h.incidents, hlater, h.mail⟩
  | nil =>
    simp only [hxr] at hx hready ⊢
    cases hyr : y.ready with
    | cons d' later' =>
      simp only [hyr] at hy hready
      rw [keep hy] at hready
      cases hready
    | nil =>
      simp only [hyr] at hy ⊢
      have hpicks := pick_alike (Cause.key rank) h.causes
        (fun c others hc => by simpa [hc, Deed.reply?] using hx)
        (fun c others hc => by simpa [hc, Deed.reply?] using hy)
      rcases hpicks with ⟨hx, hy⟩ | ⟨c, others, others', hx, hy, hothers⟩
      · rw [hx, hy]
        exact .inl ⟨rfl, rfl⟩
      · rw [hx, hy]
        refine .inr ⟨_, _, _, rfl, rfl, h.client, h.record, h.incidents, rfl, ?_⟩
        rw [filter_letters, filter_letters, hothers]

theorem Alike.next (h : Alike late x y) (hfg : Matches late f g)
    (hx : spared late (x.replied? rank) = true) (hy : spared late (y.replied? rank) = true) :
    Alike late (x.next f rank) (y.next g rank) := by
  unfold Timeline.next
  rcases h.draw hx hy with ⟨hleft, hright⟩ | ⟨deed, x', y', hleft, hright, hrest⟩
  · rw [hleft, hright]
    exact h
  · rw [hleft, hright]
    cases deed with
    | due d => exact hrest.happen hfg d
    | cause c => exact hrest.perform hfg c

/-- How much is due or on its way. -/
def pending (x : Timeline) : Nat :=
  x.ready.length + x.mail.length

/-- Leaving out a reply that comes next leaves everything else as it is. -/
theorem draw_late {deed : Deed} (h : x.draw rank = some (deed, y))
    (hlate : spared late deed.reply? = false) : Alike late y x ∧ y.pending < x.pending := by
  unfold Timeline.draw at h
  cases hready : x.ready with
  | cons d later =>
    simp only [hready] at h
    cases h
    have hd : ¬ spared late d.reply? = true := Bool.not_eq_true _ ▸ hlate
    refine ⟨⟨rfl, rfl, rfl, ?_, rfl⟩, ?_⟩
    · rw [hready, List.filter_cons_of_neg (p := fun d : Due => spared late d.reply?) hd]
    · simp [pending, hready]
  | nil =>
    simp only [hready] at h
    obtain ⟨⟨c, others⟩, hpick, heq⟩ := Option.map_eq_some_iff.1 h
    cases heq
    have hothers := filter_of_pick (spared late ·.reply?) hpick hlate
    refine ⟨⟨rfl, rfl, rfl, by rw [hready], ?_⟩, ?_⟩
    · rw [filter_letters, hothers, ← filter_letters, causes_letters]
    · have hlength := ((pick_perm hpick).filterMap Cause.letter?).length_eq
      rw [causes_letters] at hlength
      cases c with
      | letter l =>
        simp only [List.filterMap_cons, Cause.letter?, List.length_cons] at hlength
        simp only [pending, hready]
        omega
      | alarm | incident => cases hlate

/-- Going on with a reply to an abandoned request is leaving it out. -/
theorem Sound.next_abandoned (hx : x.Sound) {deed : Deed} (h : x.draw rank = some (deed, y))
    (ht : deed.reply? = some t) (habandoned : abandoned x.record t = true) :
    x.next replies rank = y := by
  obtain ⟨hclient, hrecord, -⟩ := draw_frame h
  have hinert (now : Nat) (s : Signal) :
      y.client.step now t.task (.signal t.request s) = (y.client, []) := by
    rw [hclient]
    exact hx.inert habandoned now s
  rw [Timeline.next, h]
  cases deed with
  | due d =>
    obtain ⟨time, task, happening⟩ := d
    obtain ⟨request, delivery, rfl, rfl⟩ : ∃ request delivery,
        happening = .signal request (.delivered delivery) ∧ t = ⟨task, request⟩ := by
      simp only [Deed.reply?, Due.reply?] at ht
      split at ht <;> simp_all
    simp only [carryOut, Timeline.happen, hinert, act_idle]
  | cause c =>
    cases c with
    | letter l =>
      obtain ⟨time, ticket, freight⟩ := l
      cases freight with
      | write => cases ht
      | reply delivery =>
        obtain rfl := Option.some.inj ht
        show y.happen replies (.signal time ticket (.delivered delivery)) = y
        simp only [Timeline.happen, Due.signal, hinert, act_idle]
    | alarm | incident => cases ht

theorem Late.next (h : Late replies rank late x) : Late replies rank late (x.next replies rank) :=
  fun k t => by
    rw [← Function.iterate_succ_apply]
    exact h (k + 1) t

/-- What is kept of a timeline along its run. -/
structure Tame (replies : Replies) (rank : Trigger → Nat) (late : Ticket → Bool) (x : Timeline) :
    Prop where
  sound : x.Sound
  late : Late replies rank late x

theorem Tame.next (h : Tame replies rank late x) : Tame replies rank late (x.next replies rank) :=
  ⟨h.sound.next, h.late.next⟩

/-- A reply that comes next and is left out changes nothing. -/
theorem Tame.next_late (h : Tame replies rank late x)
    (hspared : ¬ spared late (x.replied? rank) = true) :
    Alike late (x.next replies rank) x ∧ (x.next replies rank).pending < x.pending := by
  obtain ⟨t, ht, hcut⟩ : ∃ t, x.replied? rank = some t ∧ late t = true := by
    simpa [spared, Option.any_eq_true] using hspared
  obtain ⟨⟨deed, y⟩, hdraw, hreply⟩ := Option.bind_eq_some_iff.1 ht
  have hreply : deed.reply? = some t := hreply
  rw [h.sound.next_abandoned hdraw hreply (h.late 0 t ht hcut)]
  exact draw_late hdraw (by simp [hreply, spared, hcut])

/-- Replies that are left out run out. -/
theorem Tame.exists_spared (h : Tame replies rank late x) : ∃ k,
    Alike late x ((Timeline.next replies rank)^[k] x) ∧
      spared late (((Timeline.next replies rank)^[k] x).replied? rank) = true ∧
      Tame replies rank late ((Timeline.next replies rank)^[k] x) := by
  induction hn : x.pending using Nat.strong_induction_on generalizing x with
  | h n ih =>
    by_cases hspared : spared late (x.replied? rank) = true
    · exact ⟨0, .refl late x, hspared, h⟩
    · obtain ⟨halike, hless⟩ := h.next_late hspared
      obtain ⟨k, hk, hrest⟩ := ih _ (hn ▸ hless) h.next rfl
      exact ⟨k + 1, halike.symm.trans hk, hrest⟩

/-- **Two timelines stay alike** as one of them goes on, if the other one goes on far enough. -/
theorem Alike.exists_next (h : Alike late x y) (hfg : Matches late f g) (hx : Tame f rank late x)
    (hy : Tame g rank late y) : ∃ k, Alike late (x.next f rank) ((Timeline.next g rank)^[k] y) ∧
      Tame g rank late ((Timeline.next g rank)^[k] y) := by
  by_cases hspared : spared late (x.replied? rank) = true
  · obtain ⟨k, halike, hz, htame⟩ := hy.exists_spared
    refine ⟨k + 1, ?_⟩
    rw [Function.iterate_succ_apply']
    exact ⟨(h.trans halike).next hfg hspared hz, htame.next⟩
  · exact ⟨0, (hx.next_late hspared).1.trans h, hy⟩

theorem Alike.exists_iterate (h : Alike late x y) (hfg : Matches late f g)
    (hx : Tame f rank late x) (hy : Tame g rank late y) (j : Nat) :
    ∃ k, Alike late ((Timeline.next f rank)^[j] x) ((Timeline.next g rank)^[k] y) := by
  obtain ⟨k, halike, -⟩ := Rehearsal.exists_iterate
    (S := fun x y => Alike late x y ∧ Tame f rank late x ∧ Tame g rank late y)
    (fun x y ⟨halike, hx, hy⟩ =>
      let ⟨m, hm, htame⟩ := halike.exists_next hfg hx hy
      ⟨m, hm, hx.next, htame⟩) ⟨h, hx, hy⟩ j
  exact ⟨k, halike⟩

/-- **Late replies are inert.** If two timelines differ at most in what comes back for some requests
and when, and if in both it comes only after those requests were abandoned, then all that the client
does is the same in both, at the same times, and so is the client with all that its policies have
learned: at every moment of one there is one of the other at which they agree. -/
theorem late_replies_inert {client : Client} (hclient : client.tasks = [])
    (incidents : List (Nat × Incident)) (rank : Trigger → Nat) (late : Ticket → Bool)
    {f g : Replies} (hfg : ∀ t, f t = g t ∨ late t = true ∧ (f t).SameWrite (g t))
    (hf : Late f rank late (start client incidents))
    (hg : Late g rank late (start client incidents)) :
    (∀ j, ∃ k,
      ((next f rank)^[j] (start client incidents)).client =
          ((next g rank)^[k] (start client incidents)).client ∧
        ((next f rank)^[j] (start client incidents)).record =
          ((next g rank)^[k] (start client incidents)).record) ∧
    ∀ k, ∃ j,
      ((next f rank)^[j] (start client incidents)).client =
          ((next g rank)^[k] (start client incidents)).client ∧
        ((next f rank)^[j] (start client incidents)).record =
          ((next g rank)^[k] (start client incidents)).record := by
  have hsound := Sound.start hclient incidents
  have halike := Alike.refl late (start client incidents)
  refine ⟨fun j => ?_, fun k => ?_⟩
  · obtain ⟨k, h⟩ := halike.exists_iterate hfg ⟨hsound, hf⟩ ⟨hsound, hg⟩ j
    exact ⟨k, h.client, h.record⟩
  · have hgf : Matches late g f := fun t => (hfg t).imp Eq.symm fun ⟨hlate, hafter, hfails⟩ =>
      ⟨hlate, hafter.symm, fun cause => (hfails cause).symm⟩
    obtain ⟨j, h⟩ := halike.exists_iterate hgf ⟨hsound, hg⟩ ⟨hsound, hf⟩ k
    exact ⟨j, h.client.symm, h.record.symm⟩

/-- Whether a timeline is at its end after some steps, and no reply to some requests comes before
they were abandoned. -/
def endsLate (replies : Replies) (rank : Trigger → Nat) (late : Ticket → Bool) :
    Nat → Timeline → Bool
  | 0, x => (x.draw rank).isNone
  | k + 1, x =>
    (x.replied? rank).all (fun t => !late t || abandoned x.record t) &&
      endsLate replies rank late k (x.next replies rank)

theorem late_of_endsLate :
    ∀ {k : Nat} {x : Timeline}, endsLate replies rank late k x = true → Late replies rank late x
  | 0, x, h => by
    have hdraw : x.draw rank = none := by simpa [endsLate] using h
    have hnext : x.next replies rank = x := by simp [Timeline.next, hdraw]
    intro k t ht
    rw [Function.iterate_fixed hnext, replied?, hdraw] at ht
    cases ht
  | k + 1, x, h => by
    rw [endsLate, Bool.and_eq_true] at h
    have hlater := late_of_endsLate h.2
    intro j t ht hcut
    cases j with
    | zero =>
      have hfirst := h.1
      rw [show x.replied? rank = some t from ht] at hfirst
      simpa [hcut] using hfirst
    | succ j => exact hlater j t ht hcut

/-- The time of the first attempt runs out, and the second one is answered. The first node switches
the keyspace ten milliseconds too late, or its connection breaks after everything is over. The retry
policy grants one retry to all its sessions together. -/
theorem late_replies_inert_after_timeout :
    let statement : Statement := { Statement.ofText "SELECT v FROM t" with
      config := { StatementConfig.standard with
        retry := some ⟨.custom ⟨"OneRetry", fun lore _ _ =>
          if lore.past.length = 1 then .nextNode none else .stop⟩, false⟩ } }
    let incidents : List (Nat × Incident) := [(0, .begins (.query statement [] .unpaged))]
    let script (first : Reply) : Replies := fun t =>
      if t = ⟨0, .attempt 0 .first⟩ then first
      else ⟨.comesBack (.ok ⟨.result .void, .none⟩), 0, 30⟩
    let f := script ⟨.comesBack (.ok ⟨.result (.setKeyspace "ks"), .none⟩), 0, 60⟩
    let g := script ⟨.comesBack (.error .closed), 0, 200⟩
    let run (replies : Replies) (k : Nat) : Timeline :=
      (next replies fun _ => 0)^[k] (start (.fresh .sample) incidents)
    let ends (s : Sight) : Option (Nat × Nat) :=
      match s.notice with
      | .finished n _ => some (s.time, n)
      | _ => none
    ∃ k, (run f 8).record = (run g k).record ∧ (run g k).client.session.keyspace = none ∧
      (run g k).record.filterMap ends = [(80, 0)] := by
  intro statement incidents script f g run ends
  let late (t : Ticket) : Bool := t = ⟨0, .attempt 0 .first⟩
  have hfg (t : Ticket) : f t = g t ∨ late t = true ∧ (f t).SameWrite (g t) := by
    by_cases ht : t = ⟨0, .attempt 0 .first⟩
    · exact .inr ⟨by simp [late, ht], by simp [f, g, script, ht], by simp [f, g, script, ht]⟩
    · exact .inl (by simp [f, g, script, ht])
  have hf : Late f (fun _ => 0) late (start (.fresh .sample) incidents) :=
    late_of_endsLate (k := 8) (by cbv)
  have hg : Late g (fun _ => 0) late (start (.fresh .sample) incidents) :=
    late_of_endsLate (k := 8) (by cbv)
  have hfresh : (Client.fresh .sample).tasks = [] := rfl
  obtain ⟨k, hclient, hrecord⟩ := (late_replies_inert hfresh incidents _ late hfg hf hg).1 8
  refine ⟨k, hrecord, ?_, ?_⟩
  · rw [← hclient]
    cbv
  · rw [← hrecord]
    cbv

end Timeline

end ClusterClient.Rehearsal
