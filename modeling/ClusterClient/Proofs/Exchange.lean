import ClusterClient.Proofs.Itinerary

/-!
# What goes over a connection

An attempt writes its requests one after the other over the connection it was begun with: the call's
own request, and for a prepared statement the node does not know, the text to prepare and the same
request once more (`Call.requests`). The request is built anew each time, at the consistency the
fiber's retry session chose last (`Act.consistencyOf`). `Execution.Exchange` says what follows for
the requests of an execution, and `Execution.Arises.exchange` that it holds under any policies and
whatever comes back.

`Act.Dialogue` counts how far an attempt has come. It is exact while the attempt is waited for
(`Attempt.Speaking`), and stays as it is once the attempt is over (`Trail.speech`).
-/

namespace ClusterClient

/-- The consistency a decision puts in the place of the one used so far. -/
def Decision.consistency? : Decision → Option Consistency
  | .sameNode consistency | .nextNode consistency => consistency
  | .stop | .ignore => none

/-- The requests an attempt writes if it has to write all of them. -/
def Call.requests (call : Call) (consistency : Consistency) : List Request :=
  let asked := call.request consistency
  match call.preparedId? with
  | none => [asked]
  | some _ => [asked, .prepare call.text, asked]

namespace Act

/-- The consistency a retry session chose. -/
def chosen? : Act → Option Consistency
  | .reported _ _ decision => decision.consistency?
  | _ => none

/-- The consistency the retry session of a fiber chose last, or the one to start with. -/
def consistencyOf (base : Consistency) (i : Nat) (acts : List Act) : Consistency :=
  ((ofFiber i acts).filterMap chosen?).getLast?.getD base

/-- What an act hands to a connection for an attempt. -/
def issue? (n : Nat) : Act → Option (Stage × Connection × Request)
  | .issued m stage connection request =>
    if m = n then some (stage, connection, request) else none
  | _ => none

/-- The request of an attempt that an act hears to be acknowledged. -/
def acknowledgement? (n : Nat) : Act → Option Stage
  | .heard m stage .acknowledged => if m = n then some stage else none
  | _ => none

/-- The requests of an attempt that were acknowledged, in that order, with the connections they were
handed to. -/
def acknowledged (n : Nat) (acts : List Act) : List (Connection × Request) :=
  (acts.filterMap (acknowledgement? n)).flatMap fun stage =>
    ((acts.filterMap (issue? n)).filter (·.1 = stage)).map (·.2)

/-- What comes before a request is handed to a connection. A call's own request is written right
after its attempt was begun, or after the node gave its statement the same identifier again; a
preparation right after the node refused the statement as unprepared. -/
def Worded (call : Call) (base : Consistency) (before : List Act) : Act → Prop
  | .issued n .first connection request => ∃ earlier i node,
      before = earlier ++ [.began n i node connection] ∧
      request = call.request (consistencyOf base i earlier)
  | .issued n .reprepare _ request => ∃ earlier r known reason id,
      before = earlier ++ [.heard n .first (.delivered (.ok r))] ∧
      r.body = .error (.unprepared known) reason ∧ call.preparedId? = some id ∧
      request = .prepare call.text
  | .issued n .repeated connection request => ∃ earlier r id i node,
      before = earlier ++ [.heard n .reprepare (.delivered (.ok r))] ∧
      r.body = .result (.prepared id) ∧ call.preparedId? = some id ∧
      .began n i node connection ∈ earlier ∧ request = call.request (consistencyOf base i earlier)
  | _ => True

/-- What comes right after an act: if a statement got another identifier when it was prepared again,
its attempt fails for that. -/
def Answered (call : Call) : Act → List Act → Prop
  | .heard n .reprepare (.delivered (.ok r)), after => ∀ id got, call.preparedId? = some id →
      r.body = .result (.prepared got) → got ≠ id →
      ∃ i node later, after = .failed n i node (.idChanged call.text id got) :: later
  | _, _ => True

end Act

/-- What the requests of an execution are, for its call and the consistency it starts with. -/
structure Execution.Exchange (call : Call) (base : Consistency) (acts : List Act) : Prop where
  /-- What an attempt gets acknowledged goes over its one connection, and is the beginning of the
  requests of its call. -/
  sequence : ∀ before n i node connection after,
    acts = before ++ .began n i node connection :: after →
    Act.acknowledged n acts <+:
      (call.requests (Act.consistencyOf base i before)).map (connection, ·)
  /-- Nothing is acknowledged but to attempts. -/
  begun : ∀ n, Act.acknowledged n acts ≠ [] →
    ∃ i node connection, .began n i node connection ∈ acts
  /-- Every request is worded as the call asks, and is written for the reason it may be. -/
  worded : ∀ before a after, acts = before ++ a :: after → Act.Worded call base before a
  /-- Another identifier ends the attempt. -/
  changed : ∀ before a after, acts = before ++ a :: after → Act.Answered call a after

/-! ## Lists -/

/-- Values looked up by the keys of a beginning are those of the beginning, if the keys differ. -/
theorem flatMap_filter_keys {κ β : Type} [DecidableEq κ] :
    ∀ (l m : List (κ × β)), ((l ++ m).map (·.1)).Nodup →
      ((l.map (·.1)).flatMap fun k => ((l ++ m).filter (·.1 = k)).map (·.2)) = l.map (·.2)
  | [], _, _ => rfl
  | (k, b) :: l, m, h => by
    rw [List.cons_append, List.map_cons, List.nodup_cons] at h
    obtain ⟨hk, hnodup⟩ := h
    have hown : (l ++ m).filter (·.1 = k) = [] := by
      rw [List.filter_eq_nil_iff]
      intro a ha hak
      exact hk (List.mem_map.2 ⟨a, ha, of_decide_eq_true hak⟩)
    have hothers : ∀ k' ∈ l.map (·.1),
        (((k, b) :: (l ++ m)).filter (·.1 = k')).map (·.2) =
          ((l ++ m).filter (·.1 = k')).map (·.2) := by
      intro k' hk'
      have hne : k ≠ k' := by
        rintro rfl
        exact hk (List.map_append ▸ List.mem_append_left _ hk')
      rw [List.filter_cons_of_neg (by simpa using hne)]
    rw [List.map_cons, List.flatMap_cons, List.cons_append, List.flatMap_congr hothers,
      flatMap_filter_keys l m hnodup]
    simp [hown]

/-- An element that gives what no other does stands in one place only. -/
theorem split_unique {α β : Type} {f : α → Option β} {v : β} {a b : α} :
    ∀ {before before' after after' : List α}, ((before ++ a :: after).filterMap f).Nodup →
      before ++ a :: after = before' ++ b :: after' → f a = some v → f b = some v →
      before = before' ∧ a = b
  | [], [], _, _, _, h, _, _ => ⟨rfl, (List.cons.inj h).1⟩
  | [], c :: before', after, after', hnodup, h, ha, hb => by
    obtain ⟨rfl, rfl⟩ := List.cons.inj h
    simp [ha, hb] at hnodup
  | c :: before, [], after, after', hnodup, h, ha, hb => by
    obtain ⟨rfl, rfl⟩ := List.cons.inj h
    simp [ha, hb] at hnodup
  | c :: before, d :: before', after, after', hnodup, h, ha, hb => by
    simp only [List.cons_append, List.cons.injEq] at h
    obtain ⟨rfl, h⟩ := h
    have htail : ((before ++ a :: after).filterMap f).Nodup := by
      rw [List.cons_append, List.filterMap_cons] at hnodup
      split at hnodup
      · exact hnodup
      · exact hnodup.of_cons
    obtain ⟨rfl, rfl⟩ := split_unique htail h ha hb
    exact ⟨rfl, rfl⟩

/-- What has to come after an element does so, for each element of a list. -/
def Sequel {α : Type} (P : α → List α → Prop) (l : List α) : Prop :=
  ∀ before a after, l = before ++ a :: after → P a after

theorem Sequel.append {α : Type} {P : α → List α → Prop}
    (hP : ∀ a after more, P a after → P a (after ++ more)) {l m : List α} (hl : Sequel P l)
    (hm : Sequel P m) : Sequel P (l ++ m) := by
  intro before a after h
  rcases List.append_eq_append_iff.1 h with ⟨between, rfl, rfl⟩ | ⟨between, rfl, hcut⟩
  · exact hm between a after rfl
  · cases between with
    | nil => exact hm [] a after hcut.symm
    | cons b bs =>
      obtain ⟨rfl, rfl⟩ := List.cons.inj hcut
      exact hP _ _ _ (hl before a bs rfl)

theorem sequel_cons {α : Type} {P : α → List α → Prop} {a : α} {l : List α} :
    Sequel P (a :: l) ↔ P a l ∧ Sequel P l := by
  refine ⟨fun h => ⟨h [] a l rfl, fun before b after hb => h (a :: before) b after (by simp [hb])⟩,
    fun ⟨ha, hl⟩ before b after hb => ?_⟩
  cases before with
  | nil =>
    obtain ⟨rfl, rfl⟩ := List.cons.inj hb
    exact ha
  | cons c cs => exact hl cs b after (List.cons.inj hb).2

/-- Nothing has to come after elements of which nothing is asked. -/
theorem sequel_of_forall {α : Type} {P : α → List α → Prop} {l : List α}
    (h : ∀ a ∈ l, ∀ after, P a after) : Sequel P l := by
  rintro before a after rfl
  exact h a (by simp) after

/-! ## How far an attempt has come -/

/-- The requests of a call with the stages they are written in and the connection they go over. -/
def Call.script (call : Call) (consistency : Consistency) (connection : Connection) :
    List (Stage × Connection × Request) :=
  [Stage.first, .reprepare, .repeated].zip ((call.requests consistency).map (connection, ·))

theorem Call.script_nodup (call : Call) (consistency : Consistency) (connection : Connection) :
    ((call.script consistency connection).map (·.1)).Nodup := by
  cases h : call.preparedId? <;> simp [script, requests, h]

theorem Call.script_map_snd (call : Call) (consistency : Consistency) (connection : Connection) :
    (call.script consistency connection).map (·.2) =
      (call.requests consistency).map (connection, ·) := by
  cases h : call.preparedId? <;> simp [script, requests, h]

namespace Act

/-- How many requests an attempt wrote, and how many of them were acknowledged. -/
structure Dialogue (script : List (Stage × Connection × Request)) (written heard n : Nat)
    (acts : List Act) : Prop where
  issued : acts.filterMap (issue? n) = script.take written
  acknowledged : acts.filterMap (acknowledgement? n) = (script.take heard).map (·.1)
  le : heard ≤ written

/-- Nothing is written for an attempt, and nothing acknowledged. -/
def Silent (n : Nat) (acts : List Act) : Prop :=
  acts.filterMap (issue? n) = [] ∧ acts.filterMap (acknowledgement? n) = []

section
variable {script : List (Stage × Connection × Request)} {written heard n : Nat}
  {acts more : List Act}

theorem answered_heard {call : Call} {n : Nat} {stage : Stage} {signal : Signal} {after : List Act}
    (h : ∀ r id got, stage = .reprepare → signal = .delivered (.ok r) →
      call.preparedId? = some id → r.body = .result (.prepared got) → got ≠ id →
      ∃ i node later, after = .failed n i node (.idChanged call.text id got) :: later) :
    Answered call (.heard n stage signal) after := by
  unfold Answered
  split
  · next heq =>
    cases heq
    exact fun id got hid hbody hne => h _ id got rfl rfl hid hbody hne
  · trivial

theorem Silent.append (h : Silent n acts) (hmore : Silent n more) : Silent n (acts ++ more) := by
  simp [Silent, h.1, h.2, hmore.1, hmore.2]

/-- An acknowledgement is heard for one attempt only. -/
theorem silent_heard {m : Nat} {stage : Stage} {signal : Signal}
    (h : m = n → signal ≠ .acknowledged) : Silent n [.heard m stage signal] := by
  refine ⟨rfl, ?_⟩
  cases signal with
  | acknowledged => simpa [acknowledgement?] using h
  | writeFailed cause => rfl
  | delivered d => rfl

theorem Silent.dialogue (h : Silent n acts) : Dialogue script 0 0 n acts :=
  ⟨by simp [h.1], by simp [h.2], Nat.le_refl _⟩

theorem Dialogue.silent (h : Dialogue script written heard n acts) (hmore : Silent n more) :
    Dialogue script written heard n (acts ++ more) :=
  ⟨by simp [h.issued, hmore.1], by simp [h.acknowledged, hmore.2], h.le⟩

/-- What was acknowledged is the beginning of the script. -/
theorem Dialogue.acknowledged_eq (h : Dialogue script written heard n acts)
    (hnodup : (script.map (·.1)).Nodup) :
    Act.acknowledged n acts = (script.take heard).map (·.2) := by
  have hsplit : script.take written =
      script.take heard ++ (script.take written).drop heard := by
    have := List.take_append_drop heard (script.take written)
    rwa [List.take_take, Nat.min_eq_left h.le, eq_comm] at this
  rw [Act.acknowledged, h.issued, h.acknowledged, hsplit]
  refine flatMap_filter_keys _ _ ?_
  rw [← hsplit]
  exact hnodup.sublist ((List.take_sublist _ _).map _)

end

end Act

/-- The place of a stage among those of an attempt. -/
def Stage.place : Stage → Nat
  | .first => 0
  | .reprepare => 1
  | .repeated => 2

namespace Attempt

/-- The requests of an attempt with the stages they are written in. -/
def script (a : Attempt) : List (Stage × Connection × Request) :=
  a.call.script a.consistency a.connection

/-- What was said so far for an attempt that is waited for. -/
structure Speaking (n : Nat) (acts : List Act) (a : Attempt) : Prop where
  dialogue : Act.Dialogue a.script (a.stage.place + 1)
    (a.stage.place + if a.acknowledged then 1 else 0) n acts
  /-- Only a prepared statement is prepared again. -/
  prepared : a.stage ≠ .first → a.call.preparedId?.isSome

variable {a b : Attempt} {n : Nat} {acts : List Act} {signal : Signal}

/-- The request under way stands in the script under its stage. -/
theorem script_place (h : a.stage ≠ .first → a.call.preparedId?.isSome) :
    a.script[a.stage.place]? = some (a.stage, a.connection, a.request) := by
  cases hs : a.stage <;> cases hid : a.call.preparedId? <;>
    simp_all [script, Call.script, Call.requests, request, Stage.place]

theorem Speaking.start {call : Call} {consistency : Consistency} {connection : Connection}
    (h : Act.Silent n acts) (i : Nat) (node : Node) :
    Speaking n (acts ++ [.began n i node connection,
      .issued n .first connection (call.request consistency)])
      (.start call consistency connection) := by
  have hplace := script_place (a := .start call consistency connection) (by simp [Attempt.start])
  refine ⟨⟨?_, ?_, Nat.le_succ _⟩, by simp [Attempt.start]⟩
  · rw [List.take_add_one, List.filterMap_append, h.1]
    simp [Attempt.start, Stage.place, Act.issue?, List.filterMap_cons] at hplace ⊢
    rw [hplace]
    rfl
  · simp [Attempt.start, Stage.place, Act.acknowledgement?, h.2, List.filterMap_cons]

/-- An attempt whose request is acknowledged has one more request acknowledged. -/
theorem Speaking.waits (h : Speaking n acts a) (he : a.expects signal = true)
    (hr : a.react signal = .waits b) : Speaking n (acts ++ [.heard n a.stage signal]) b := by
  obtain ⟨rfl, rfl⟩ := react_waits hr
  have hnone : a.acknowledged = false := by simpa [expects] using he
  refine ⟨⟨?_, ?_, by simp⟩, h.prepared⟩
  · simpa [Act.issue?, List.filterMap_cons, script] using h.dialogue.issued
  · have hheard := h.dialogue.acknowledged
    simp only [hnone, Bool.false_eq_true, if_false, Nat.add_zero] at hheard
    have hplace := script_place h.prepared
    simp only [script] at hheard hplace
    simp [Act.acknowledgement?, hheard, script, List.take_add_one, hplace]

/-- An attempt that writes another request has had the one before acknowledged. -/
theorem Speaking.sends (h : Speaking n acts a) (he : a.expects signal = true)
    (hr : a.react signal = .sends b) :
    Speaking n (acts ++ [.heard n a.stage signal, .issued n b.stage b.connection b.request]) b := by
  obtain ⟨r, id, rfl, hid, hcase⟩ := react_sends hr
  have hacknowledged : a.acknowledged = true := he
  have hsame : b.script = a.script ∧ b.stage.place = a.stage.place + 1 ∧ b.acknowledged = false ∧
      b.call = a.call := by
    rcases hcase with ⟨hs, -, rfl⟩ | ⟨hs, -, rfl⟩ <;> exact ⟨rfl, by rw [hs]; rfl, rfl, rfl⟩
  obtain ⟨hscript, hnext, hunheard, hcall⟩ := hsame
  have hprepared : b.stage ≠ .first → b.call.preparedId?.isSome := fun _ => by rw [hcall, hid]; rfl
  have hplace := script_place hprepared
  refine ⟨⟨?_, ?_, by simp [hunheard]⟩, hprepared⟩
  · rw [List.take_add_one, hplace, hscript, hnext, List.filterMap_append, h.dialogue.issued]
    simp [Act.issue?, List.filterMap_cons]
  · have hheard := h.dialogue.acknowledged
    simp only [hacknowledged, if_true] at hheard
    simp [Act.acknowledgement?, List.filterMap_cons, hheard, hscript, hnext, hunheard]

theorem Speaking.silent {more : List Act} (h : Speaking n acts a) (hmore : Act.Silent n more) :
    Speaking n (acts ++ more) a :=
  ⟨h.dialogue.silent hmore, h.prepared⟩

/-- An attempt whose statement got another identifier fails for that. -/
theorem react_changed {r : Response} {id got : Bytes} (hs : a.stage = .reprepare)
    (hid : a.call.preparedId? = some id) (hbody : r.body = .result (.prepared got))
    (hne : got ≠ id) :
    a.react (.delivered (.ok r)) = .ends a (.error (.idChanged a.call.text id got)) := by
  simp [react, receive, hs, afterReprepare, Response.answer, hbody, hid, hne]

/-- A signal that ends an attempt is no acknowledgement. -/
theorem react_ends_ne {result : Except AttemptError Answer} (h : a.react signal = .ends b result) :
    signal ≠ .acknowledged := by
  rintro rfl
  cases h

end Attempt

namespace Pose.Move

variable {ω : Type} {env : Environment ω} {settings : Settings} {p p' : Pose} {s s' : Shared}
  {acts : List Act}

/-- In a move something is said only for the attempt that is waited for after it. -/
theorem silent (h : Move env settings p s acts p' s') {n : Nat}
    (hn : ∀ c, p'.stance = .waiting c → c.number ≠ n) : Act.Silent n acts := by
  have unheard {c : Current} {error : AttemptError} {heard : List Act}
      (hf : Fiber.Falters settings c error heard) : Act.Silent n heard := by
    cases hf with
    | timedOut hl => exact ⟨rfl, rfl⟩
    | heard he hr => exact Act.silent_heard fun _ => Attempt.react_ends_ne hr
  cases h with
  | exhausted | takes =>
    simp [Act.Silent, Act.issue?, Act.acknowledgement?, List.filterMap_cons, Function.comp_def]
  | refused => exact ⟨rfl, rfl⟩
  | begins =>
    exact ⟨by simp [Act.issue?, List.filterMap_cons, hn _ rfl], rfl⟩
  | @waits c signal a hs hr he =>
    have hne : c.number ≠ n := hn { c with attempt := a } rfl
    exact Act.silent_heard fun hc => absurd hc hne
  | @sends c signal a hs hr he =>
    have hne : c.number ≠ n := hn { c with attempt := a } rfl
    have hissued : Act.Silent n [.issued c.number a.stage a.connection a.request] :=
      ⟨by simp [Act.issue?, hne], rfl⟩
    exact (Act.silent_heard fun hc => absurd hc hne).append hissued
  | succeeds hs hr he =>
    exact (Act.silent_heard fun _ => Attempt.react_ends_ne hr).append ⟨rfl, rfl⟩
  | fails hs hf hd hne => exact (unheard hf).append ⟨rfl, rfl⟩
  | ignores hs hf hd => exact (unheard hf).append ⟨rfl, rfl⟩

/-- No move makes attempts unbegun. -/
theorem attempts_le (h : Move env settings p s acts p' s') : s.attempts ≤ s'.attempts := by
  cases h <;> simp

/-- An attempt that is waited for after a move was begun in it, or was waited for before. -/
theorem speaking (h : Move env settings p s acts p' s') {before : List Act} {c' : Current}
    (hbegins : Act.Silent s.attempts before)
    (hwaits : ∀ c, p.stance = .waiting c → c.attempt.Speaking c.number before)
    (hc : p'.stance = .waiting c') : c'.attempt.Speaking c'.number (before ++ acts) := by
  cases h with
  | begins hs =>
    cases hc
    exact .start hbegins _ _
  | waits hs hr he =>
    cases hc
    exact (hwaits _ hs).waits he hr
  | sends hs hr he =>
    cases hc
    exact (hwaits _ hs).sends he hr
  | @fails c error heard lore decision hs hf hd hne => cases decision <;> cases hc
  | exhausted | takes | refused | succeeds | ignores => cases hc

end Pose.Move

namespace Trail

variable {ω : Type} {env : Environment ω} {settings : Settings} {acts : List Act} {s : Shared}
  {ps : List Pose} {p q : Pose} {i j : Nat} {c d : Current}

/-- An attempt that is waited for was begun. -/
theorem number_lt (h : Trail env settings acts s ps) (hp : ps[i]? = some p)
    (hc : p.stance = .waiting c) : c.number < s.attempts := by
  have hbegun : c.number ∈ acts.filterMap Act.begun? :=
    List.mem_filterMap.2 ⟨_, (h.underway hp hc).began, rfl⟩
  rwa [h.begun_eq, List.mem_range] at hbegun

/-- No two fibers wait for one attempt. -/
theorem waiting_unique (h : Trail env settings acts s ps) (hp : ps[i]? = some p)
    (hq : ps[j]? = some q) (hc : p.stance = .waiting c) (hd : q.stance = .waiting d)
    (hn : c.number = d.number) : i = j := by
  have hbegan := (h.underway hq hd).began
  rw [← hn] at hbegan
  have hindex := (h.began_unique (h.underway hp hc).began hbegan).1
  rwa [h.index_eq hp, h.index_eq hq] at hindex

/-- What was said for each attempt: nothing before it begins, and a beginning of its script. -/
structure Speech (settings : Settings) (acts : List Act) (s : Shared) (ps : List Pose) : Prop where
  unbegun : ∀ n, s.attempts ≤ n → Act.Silent n acts
  waiting : ∀ (i : Nat) (p : Pose) (c : Current), ps[i]? = some p → p.stance = .waiting c →
    c.attempt.Speaking c.number acts
  dialogue : ∀ n, ∃ consistency connection written heard,
    Act.Dialogue (settings.call.script consistency connection) written heard n acts

/-- **Every attempt keeps to its script.** -/
theorem speech (h : Trail env settings acts s ps) : Speech settings acts s ps := by
  induction h with
  | start =>
    have hsilent (n : Nat) : Act.Silent n [] := ⟨rfl, rfl⟩
    exact ⟨fun n _ => hsilent n, by simp, fun n => ⟨.one, ⟨.control, ⟨⟨""⟩, 0⟩⟩, 0, 0,
      (hsilent n).dialogue⟩⟩
  | @opens acts s ps rule h ih =>
    have hsilent (n : Nat) : Act.Silent n [.opened ps.length] := ⟨rfl, rfl⟩
    refine ⟨fun n hn => (ih.unbegun n hn).append (hsilent n), fun i p c hp hc => ?_, fun n => ?_⟩
    · rcases opens_cases hp with hp | ⟨-, rfl⟩
      · exact (ih.waiting i p c hp hc).silent (hsilent _)
      · cases hc
    · obtain ⟨consistency, connection, written, heard, hdialogue⟩ := ih.dialogue n
      exact ⟨consistency, connection, written, heard, hdialogue.silent (hsilent n)⟩
  | @moves acts more s s' ps p p' h hp hmove ih =>
    have hafter := h.moves hp hmove
    obtain ⟨hlt, -⟩ := List.getElem?_eq_some_iff.1 hp
    have hp' : (ps.set p.index p')[p.index]? = some p' := by simp [hlt]
    have hspeaking (c : Current) (hc : p'.stance = .waiting c) :
        c.attempt.Speaking c.number (acts ++ more) :=
      hmove.speaking (ih.unbegun _ (Nat.le_refl _)) (ih.waiting _ p · hp) hc
    refine ⟨fun n hn => ?_, fun i q c hq hc => ?_, fun n => ?_⟩
    · refine (ih.unbegun n (Nat.le_trans hmove.attempts_le hn)).append (hmove.silent fun c hc => ?_)
      exact Nat.ne_of_lt (Nat.lt_of_lt_of_le (hafter.number_lt hp' hc) hn)
    · rcases set_cases hq with ⟨-, rfl⟩ | ⟨hne, hold⟩
      · exact hspeaking c hc
      · refine (ih.waiting i q c hold hc).silent (hmove.silent fun d hd hn => hne ?_)
        exact (hafter.waiting_unique hp' hq hd hc hn).symm
    · by_cases hn : ∃ c, p'.stance = .waiting c ∧ c.number = n
      · obtain ⟨c, hc, rfl⟩ := hn
        have hdialogue := (hspeaking c hc).dialogue
        rw [Attempt.script, (hafter.underway hp' hc).call_eq] at hdialogue
        exact ⟨_, _, _, _, hdialogue⟩
      · obtain ⟨consistency, connection, written, heard, hdialogue⟩ := ih.dialogue n
        refine ⟨consistency, connection, written, heard, hdialogue.silent (hmove.silent ?_)⟩
        exact fun c hc hcn => hn ⟨c, hc, hcn⟩

/-! ## How requests are worded -/

/-- A fiber sends at the consistency its retry session chose last. -/
theorem consistency_eq (h : Trail env settings acts s ps) (hp : ps[i]? = some p) :
    p.consistency = Act.consistencyOf settings.routing.consistency i acts ∧
      ∀ c, p.stance = .waiting c → c.attempt.consistency = p.consistency := by
  refine h.own (L := fun own p =>
    p.consistency = (own.filterMap Act.chosen?).getLast?.getD settings.routing.consistency ∧
      ∀ c, p.stance = .waiting c → c.attempt.consistency = p.consistency) ?_ ?_ hp
  · exact fun rule i => ⟨rfl, by simp [Pose.fresh, Fiber.standing]⟩
  · intro acts more s s' ps p p' _ _ hmove hbefore
    obtain ⟨hchosen, hwaits⟩ := hbefore
    rw [List.filterMap_append, List.getLast?_append]
    cases hmove with
    | @fails c error heard lore decision hs hf hd hne =>
      cases decision with
      | sameNode consistency | nextNode consistency =>
        cases consistency <;>
          simp [hf.ofFiber_heard, Act.fiber?, Act.chosen?, List.filterMap_cons, Pose.obeying,
            Decision.consistency?, hchosen]
      | stop | ignore =>
        simp [hf.ofFiber_heard, Act.fiber?, Act.chosen?, List.filterMap_cons, Pose.obeying,
          Decision.consistency?, hchosen]
    | ignores hs hf hd =>
      simp [hf.ofFiber_heard, Act.fiber?, Act.chosen?, List.filterMap_cons, Pose.obeying,
        Decision.consistency?, hchosen]
    | waits hs hr he =>
      have hsame := (Attempt.react_continues (.inl hr)).2.1
      refine ⟨by simpa [Act.fiber?] using hchosen, fun c hc => ?_⟩
      cases hc
      exact hsame.trans (hwaits _ hs)
    | sends hs hr he =>
      have hsame := (Attempt.react_continues (.inr hr)).2.1
      refine ⟨by simpa [Act.fiber?] using hchosen, fun c hc => ?_⟩
      cases hc
      exact hsame.trans (hwaits _ hs)
    | _ => simp_all [Act.fiber?, Act.chosen?, List.filterMap_cons, Attempt.start]

/-- **Every request is worded as its call asks**, and is written for the reason it may be. -/
theorem journal_worded (h : Trail env settings acts s ps) :
    Journal (Act.Worded settings.call settings.routing.consistency) acts := by
  refine h.journal (fun _ _ => trivial) ?_
  intro acts more s s' ps p p' h hp hmove
  obtain ⟨hconsistency, hwaits⟩ := h.consistency_eq hp
  cases hmove with
  | begins hs =>
    simp only [journal_cons, journal_nil, and_true, List.append_nil]
    exact ⟨trivial, acts, p.index, _, rfl, by rw [hconsistency]⟩
  | @sends c signal a hs hr he =>
    simp only [journal_cons, journal_nil, and_true, List.append_nil]
    refine ⟨trivial, ?_⟩
    have hunder := h.underway hp hs
    have hcall := hunder.call_eq
    obtain ⟨r, id, rfl, hid, ⟨hstage, ⟨known, reason, hbody⟩, rfl⟩ | ⟨hstage, hbody, rfl⟩⟩ :=
      Attempt.react_sends hr
    · rw [hcall] at hid
      refine ⟨acts, r, known, reason, id, by rw [hstage], hbody, hid, ?_⟩
      simp [Attempt.request, hcall]
    · rw [hcall] at hid
      refine ⟨acts, r, id, p.index, c.node, by rw [hstage], hbody, hid, hunder.began, ?_⟩
      simp [Attempt.request, hcall, hwaits c hs, hconsistency]
  | exhausted hs hd hn =>
    refine journal_of_forall fun before a ha => ?_
    obtain ⟨q, -, rfl⟩ := List.mem_map.1 ha
    trivial
  | takes hs hd hn =>
    refine journal_of_forall fun before a ha => ?_
    simp only [List.mem_append, List.mem_map, List.mem_singleton] at ha
    obtain ⟨q, -, rfl⟩ | rfl := ha <;> trivial
  | fails hs hf hd hne | ignores hs hf hd =>
    cases hf <;> simp [Act.Worded]
  | refused | waits | succeeds => simp [Act.Worded]

/-- **Another identifier ends the attempt that prepared the statement again.** -/
theorem sequel_answered (h : Trail env settings acts s ps) :
    Sequel (Act.Answered settings.call) acts := by
  have grows (a : Act) (after more : List Act) (ha : Act.Answered settings.call a after) :
      Act.Answered settings.call a (after ++ more) := by
    unfold Act.Answered at ha ⊢
    split
    · intro id got hid hbody hne
      obtain ⟨i, node, later, rfl⟩ := ha id got hid hbody hne
      exact ⟨i, node, later ++ more, rfl⟩
    · trivial
  have unasked {more : List Act} (hmore : ∀ n stage signal, .heard n stage signal ∉ more) :
      Sequel (Act.Answered settings.call) more := by
    refine sequel_of_forall fun a ha after => ?_
    cases a with
    | heard n stage signal => exact absurd ha (hmore n stage signal)
    | _ => trivial
  induction h with
  | start => exact unasked (by simp)
  | opens rule _ ih => exact ih.append grows (unasked (by simp))
  | @moves acts more s s' ps p p' h hp hmove ih =>
    refine ih.append grows ?_
    have answered {c : Current} {signal : Signal} {later : List Act} (hs : p.stance = .waiting c)
        (hends : ∀ id got,
          c.attempt.react signal =
            .ends c.attempt (.error (.idChanged settings.call.text id got)) →
          ∃ i node rest, later =
            .failed c.number i node (.idChanged settings.call.text id got) :: rest) :
        Act.Answered settings.call (.heard c.number c.attempt.stage signal) later := by
      refine Act.answered_heard ?_
      rintro r id got hstage rfl hid hbody hne
      have hcall := (h.underway hp hs).call_eq
      rw [← hcall] at hid hends ⊢
      exact hends id got (Attempt.react_changed hstage hid hbody hne)
    have fails {c : Current} {error : AttemptError} {heard later : List Act}
        (hs : p.stance = .waiting c) (hf : Fiber.Falters settings c error heard)
        (hlater : ∀ n stage signal, .heard n stage signal ∉ later) :
        Sequel (Act.Answered settings.call)
          (heard ++ .failed c.number p.index c.node error :: later) := by
      cases hf with
      | timedOut hl => exact unasked (by simpa using hlater)
      | heard he hr =>
        refine sequel_cons.2 ⟨answered hs fun id got hends => ?_, unasked (by simpa using hlater)⟩
        rw [hr] at hends
        cases hends
        exact ⟨_, _, _, rfl⟩
    cases hmove with
    | exhausted | takes | refused | begins => exact unasked (by simp)
    | waits hs hr he | sends hs hr he | succeeds hs hr he =>
      refine sequel_cons.2 ⟨answered hs fun id got hends => ?_, unasked (by simp)⟩
      rw [hr] at hends
      cases hends
    | fails hs hf hd hne => exact fails hs hf (by simp)
    | ignores hs hf hd => exact fails hs hf (by simp)

/-- A request that was acknowledged was written in its attempt's first stage before. -/
theorem issued_of_acknowledged {call : Call} {consistency : Consistency} {connection : Connection}
    {written heard n : Nat}
    (h : Act.Dialogue (call.script consistency connection) written heard n acts)
    (hheard : heard ≠ 0) :
    .issued n .first connection (call.request consistency) ∈ acts := by
  have hle := h.le
  obtain ⟨w, rfl⟩ : ∃ w, written = w + 1 := ⟨written - 1, by omega⟩
  have hhead : (Stage.first, connection, call.request consistency) ∈
      acts.filterMap (Act.issue? n) := by
    rw [h.issued]
    cases hid : call.preparedId? <;> simp [Call.script, Call.requests, hid]
  obtain ⟨a, ha, hissue⟩ := List.mem_filterMap.1 hhead
  cases a with
  | issued m stage connection request =>
    simp only [Act.issue?] at hissue
    split at hissue
    · cases hissue
      subst m
      exact ha
    · cases hissue
  | _ => cases hissue

/-- What an attempt gets acknowledged is a beginning of the requests of its call, at the consistency
its fiber was told last before the attempt was begun. -/
theorem acknowledged_prefix (h : Trail env settings acts s ps) {n : Nat}
    (hn : Act.acknowledged n acts ≠ []) : ∃ earlier later i node connection,
      acts = earlier ++ .began n i node connection :: later ∧
      Act.acknowledged n acts <+:
        (settings.call.requests (Act.consistencyOf settings.routing.consistency i earlier)).map
          (connection, ·) := by
  obtain ⟨consistency, connection, written, heard, hdialogue⟩ := h.speech.dialogue n
  have hacknowledged := hdialogue.acknowledged_eq (Call.script_nodup _ _ _)
  have hheard : heard ≠ 0 := by
    rintro rfl
    exact hn hacknowledged
  obtain ⟨before, after, hacts⟩ := List.append_of_mem (issued_of_acknowledged hdialogue hheard)
  obtain ⟨earlier, i, node, rfl, hrequest⟩ := h.journal_worded before _ after hacts
  refine ⟨earlier, _, i, node, connection, by rw [hacts, List.append_assoc]; rfl, ?_⟩
  -- The requests of a call are made of its own request, whatever its consistency is.
  have hrequests : settings.call.requests consistency = settings.call.requests
      (Act.consistencyOf settings.routing.consistency i earlier) := by
    rw [Call.requests, Call.requests, hrequest]
  rw [hacknowledged, List.map_take, Call.script_map_snd, hrequests]
  exact List.take_prefix _ _

end Trail

namespace Execution

variable {ω : Type} {env : Environment ω} {settings : Settings} {speculation : Option Speculation}
  {since : Nat} {x : Execution} {acts : List Act}

/-- The requests of an execution are those of its call, at the consistency its settings start
with. -/
theorem Unfolds.exchanges (h : Unfolds env settings speculation since x acts) :
    Exchange settings.call settings.routing.consistency acts := by
  have htrail := h.trail
  refine
    { sequence := fun before n i node connection after hacts => ?_
      begun := fun n hn => ?_
      worded := htrail.journal_worded
      changed := htrail.sequel_answered }
  · by_cases hn : Act.acknowledged n acts = []
    · rw [hn]
      exact List.nil_prefix
    · obtain ⟨earlier, later, j, other, _, hacts', hprefix⟩ := htrail.acknowledged_prefix hn
      have hnodup : (acts.filterMap Act.begun?).Nodup := htrail.begun_eq ▸ List.nodup_range
      obtain ⟨rfl, hsame⟩ := split_unique (f := Act.begun?) (hacts ▸ hnodup)
        (hacts.symm.trans hacts') rfl rfl
      cases hsame
      exact hprefix
  · obtain ⟨earlier, later, i, node, connection, hacts, -⟩ := htrail.acknowledged_prefix hn
    exact ⟨i, node, connection, by simp [hacts]⟩

/-- **What goes over the wire**: each attempt writes the requests of its call over its one
connection and in their order, at the consistency its fiber was told last, under any policies and
whatever comes back. -/
theorem Arises.exchange {s : Session} {config : StatementConfig} {call : Call}
    (h : Arises env (Terms.ofCall s config call).settings speculation x acts) :
    Exchange call (config.consistency.getD (s.profileOf config).consistency) acts := by
  obtain ⟨_, hunfolds⟩ := h.unfolds
  exact hunfolds.exchanges

/-- The first attempt is prepared again and then refused, the second is told another consistency and
gets another identifier. -/
theorem Arises.exchange_over_reprepare :
    let id : Bytes := [1]
    let other : Bytes := [2]
    let call : Call := .execute id "SELECT v FROM t" .none .unpaged none
    let config : StatementConfig := { StatementConfig.standard with
      consistency := some .localQuorum
      retry := some ⟨.scripted [.sameNode (some .one)], false⟩ }
    let connection : Connection := ⟨.pool 0, ⟨⟨"10.0.0.1"⟩, 9042⟩⟩
    let asked (consistency : Consistency) : Request :=
      .execute id ⟨consistency, .none, .unpaged, none⟩
    ∃ acts : List Act,
      Exchange call (config.consistency.getD (Session.sample.profileOf config).consistency) acts ∧
      Act.acknowledged 0 acts = [(connection, asked .localQuorum),
        (connection, .prepare "SELECT v FROM t"), (connection, asked .localQuorum)] ∧
      Act.acknowledged 1 acts =
        [(connection, asked .one), (connection, .prepare "SELECT v FROM t")] ∧
      ∃ i node, .failed 1 i node (.idChanged "SELECT v FROM t" id other) ∈ acts := by
  intro id other call config connection asked
  let terms := Terms.ofCall Session.sample config call
  let unprepared : Signal :=
    .delivered (.ok ⟨.error (.unprepared id) "unknown statement", .none⟩)
  let prepared (id : Bytes) : Response := ⟨.result (.prepared id), .none⟩
  let events : List Event :=
    [.signal 0 .first .acknowledged, .signal 0 .first unprepared,
      .signal 0 .reprepare .acknowledged, .signal 0 .reprepare (.delivered (.ok (prepared id))),
      .signal 0 .repeated .acknowledged,
      .signal 0 .repeated (.delivered (.ok ⟨.error .overloaded "busy", .none⟩)),
      .signal 1 .first .acknowledged, .signal 1 .first unprepared,
      .signal 1 .reprepare .acknowledged, .signal 1 .reprepare (.delivered (.ok (prepared other)))]
  have hstart : Reaches terms.environment terms.settings terms.speculation _ _ :=
    .start 0 Session.sample
  have hexchange := (hstart.follow 0 Session.sample events).arises.exchange
  let first := Execution.start terms.environment terms.settings terms.speculation 0 Session.sample
  let run := first.execution.follow terms.environment terms.settings 0 Session.sample first.acts
    events
  have hheard : run.2[21]? = some (.heard 1 .reprepare (.delivered (.ok (prepared other)))) := by
    cbv
  obtain ⟨before, after, hacts⟩ := List.append_of_mem (List.mem_of_getElem? hheard)
  obtain ⟨i, node, later, hafter⟩ := hexchange.changed _ _ _ hacts id other rfl rfl (by decide)
  refine ⟨run.2, hexchange, by cbv, by cbv, i, node, ?_⟩
  rw [hacts, hafter]
  exact List.mem_append_right _ (.tail _ (.head _))

end Execution

end ClusterClient
