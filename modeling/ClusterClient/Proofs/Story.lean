import ClusterClient.Proofs.Trail
import ClusterClient.Proofs.Winner

/-!
# One story of an execution

What an execution's information lists, what its load balancer is told and what its retry sessions
are asked are three accounts of the same attempts. `Execution.Story` says how they agree, and
`Execution.Arises.story` that they do, under any policies and in any order of the fibers' turns.

Each part is a law that every move of a fiber keeps (`Trail.errors_eq`, `Trail.begun_eq`,
`Trail.balance`, `Trail.asked_eq`, `Trail.claims_eq`, `Trail.told`). `Trail.balance` is the one that
counts: what begins is waited for or has ended.
-/

namespace ClusterClient

namespace Act

/-- The failure an act makes known, with the address of the node. -/
def failure? : Act → Option (Address × AttemptError)
  | .poolFailed _ node cause => some (node.address, .poolBroken cause)
  | .failed _ _ node error => some (node.address, error)
  | _ => none

/-- The failure the load balancer is told of. -/
def blame? : Act → Option (Address × AttemptError)
  | .failed _ _ node error => some (node.address, error)
  | _ => none

/-- The attempt that begins. -/
def begun? : Act → Option Nat
  | .began n _ _ _ => some n
  | _ => none

/-- Whether an act ends an attempt. -/
def ends (n : Nat) : Act → Bool
  | .failed m _ _ _ | .succeeded m _ _ => m = n
  | _ => false

/-- Whether the load balancer is told of a result. -/
def succeeds : Act → Bool
  | .succeeded .. => true
  | _ => false

/-- Whether a failed write is taken for a done one. -/
def ignores : Act → Bool
  | .reported _ _ decision => decision = .ignore
  | _ => false

/-- The fiber whose attempt failed, and why. -/
def failedBy? : Act → Option (Nat × AttemptError)
  | .failed _ i _ error => some (i, error)
  | _ => none

/-- The fiber whose retry session is asked, and about which failure. -/
def askedBy? : Act → Option (Nat × AttemptError)
  | .reported i r _ => some (i, r.error)
  | _ => none

/-- What a retry session is told. -/
def report? : Act → Option Report
  | .reported _ r _ => some r
  | _ => none

/-- Why an attempt fails: the connection reports something that ends it in the error, or its time is
up. -/
def Failing (settings : Settings) (before : List Act) (n : Nat) (error : AttemptError) : Prop :=
  (∃ (earlier : List Act) (signal : Signal) (a : Attempt),
      before = earlier ++ [.heard n a.stage signal] ∧ a.call = settings.call ∧
        a.react signal = .ends a (.error error)) ∨
    ∃ limit, settings.timeout = some limit ∧ error = .timedOut (.ofMillis limit)

/-- What comes before a failure is made known, and before a retry session is told of it. -/
def Told (settings : Settings) (before : List Act) : Act → Prop
  | .failed n i node error =>
    (∃ connection, .began n i node connection ∈ before) ∧ Failing settings before n error
  | .reported i r _ => ∃ earlier n node connection,
      before = earlier ++ [.failed n i node r.error] ∧
      .issued n .first connection (settings.call.request r.consistency) ∈ earlier ∧
      r.retries = ((ofFiber i earlier).filterMap report?).length
  | _ => True

end Act

/-- What different elements of a list give is different, if no value is given twice. -/
theorem eq_of_nodup_filterMap {α β : Type} {f : α → Option β} {l : List α} {a b : α} {v : β}
    (h : (l.filterMap f).Nodup) (ha : a ∈ l) (hb : b ∈ l) (hfa : f a = some v)
    (hfb : f b = some v) : a = b := by
  have hpairwise := List.pairwise_filterMap.1 h
  have : Std.Symm fun a b => ∀ v, f a = some v → ∀ u, f b = some u → v ≠ u :=
    ⟨fun _ _ hne v hv u hu => (hne u hu v hv).symm⟩
  by_contra hne
  exact hpairwise.forall ha hb hne v hfa v hfb rfl

/-- Whether a fiber waits for an attempt. -/
def Stance.waitsFor (n : Nat) : Stance → Bool
  | .waiting c => c.number = n
  | _ => false

@[simp] theorem Stance.waitsFor_roaming (n : Nat) : roaming.waitsFor n = false := rfl

@[simp] theorem Stance.waitsFor_visiting (n : Nat) (node : Node) :
    (visiting node).waitsFor n = false := rfl

@[simp] theorem Stance.waitsFor_waiting (n : Nat) (c : Current) :
    (waiting c).waitsFor n = decide (c.number = n) := rfl

@[simp] theorem Stance.waitsFor_done (n : Nat) (e : Ending Success) :
    (done e).waitsFor n = false := rfl

/-- A fiber whose retry session decided waits for no attempt. -/
@[simp] theorem Pose.obeying_waitsFor (p : Pose) (c : Current) (r : Report) (decision : Decision)
    (n : Nat) : (p.obeying c r decision).stance.waitsFor n = false := by
  cases decision <;> rfl

/-- Whether a fiber waits for an attempt. -/
def Fiber.waitsFor (n : Nat) (f : Fiber) : Bool :=
  f.phase.stance.waitsFor n

/-- What a result tells of its execution, if anything. -/
def ExecutionInfo.of? : Except ExecutionError (Answer × ExecutionInfo) → Option ExecutionInfo
  | .ok (_, info) => some info
  | .error e => e.info?

/-- How the accounts of an execution agree. -/
structure Execution.Story (settings : Settings) (x : Execution) (acts : List Act) : Prop where
  /-- The information lists the failures of attempts and of pools in the order they happened. -/
  listed : ∀ r info, x.result? = some r → ExecutionInfo.of? r = some info →
    info.errors = acts.filterMap Act.failure?
  /-- The load balancer is told of the same failures, apart from those of pools. -/
  blamed : acts.filterMap Act.blame? =
    (acts.filterMap Act.failure?).filter fun e => !e.2.isPoolBroken
  begun : acts.filterMap Act.begun? = List.range x.shared.attempts
  /-- An attempt that was begun is still waited for, or it ended once. -/
  ended : ∀ n < x.shared.attempts,
    acts.countP (Act.ends n) + x.fibers.countP (Fiber.waitsFor n) = 1
  /-- A failure is that of an attempt that was begun on the node, and it has a cause. -/
  failed : ∀ before n i node error after, acts = before ++ .failed n i node error :: after →
    (∃ connection, .began n i node connection ∈ before) ∧ Act.Failing settings before n error
  /-- The load balancer is told of a result once if the fiber that won got one, else never. -/
  succeeded : acts.countP Act.succeeds ≤ 1 ∧
    ((∃ n i node, .succeeded n i node ∈ acts) ↔
      ∃ answer info before n i node stage r, x.result? = some (.ok (answer, info)) ∧
        info.successIndex = some i ∧
        acts = before ++ [.heard n stage (.delivered (.ok r)), .succeeded n i node, .claimed n i] ∧
        r.answer = .ok answer)
  /-- For each failed attempt its fiber's retry session is asked once. -/
  asked : acts.filterMap Act.failedBy? = acts.filterMap Act.askedBy?
  /-- It is asked right after the failure, and told of it, of the consistency the attempt was sent
  with, and of how often it was asked before. -/
  reported : ∀ before i r decision after, acts = before ++ .reported i r decision :: after →
    ∃ earlier n node connection, before = earlier ++ [.failed n i node r.error] ∧
      .issued n .first connection (settings.call.request r.consistency) ∈ earlier ∧
      r.retries = ((Act.ofFiber i earlier).filterMap Act.report?).length
  /-- A retry session is told of its own fiber's attempts only. -/
  told : ∀ i f, x.fibers[i]? = some f →
    f.session.told = (Act.ofFiber i acts).filterMap Act.report?

/-! ## What each move keeps -/

/-- No attempt fails for want of a connection. -/
theorem Attempt.react_not_poolBroken {a b : Attempt} {signal : Signal} {error : AttemptError}
    (h : a.react signal = .ends b (.error error)) : error.isPoolBroken = false := by
  cases signal with
  | acknowledged => cases h
  | writeFailed cause => cases h; rfl
  | delivered d =>
    cases d with
    | error cause => cases h; rfl
    | ok r =>
      simp only [react, receive, afterFirst, afterReprepare, Response.answer] at h
      grind [AttemptError.isPoolBroken]

/-- Another request of an attempt is one of the same call at the same consistency. -/
theorem Attempt.react_continues {a b : Attempt} {signal : Signal}
    (h : a.react signal = .waits b ∨ a.react signal = .sends b) :
    b.call = a.call ∧ b.consistency = a.consistency ∧ b.connection = a.connection := by
  rcases h with h | h
  · obtain ⟨-, rfl⟩ := react_waits h
    exact ⟨rfl, rfl, rfl⟩
  · obtain ⟨r, id, -, -, ⟨-, -, rfl⟩ | ⟨-, -, rfl⟩⟩ := react_sends h <;> exact ⟨rfl, rfl, rfl⟩

namespace Pose.Move

variable {ω : Type} {env : Environment ω} {settings : Settings} {p p' : Pose} {s s' : Shared}
  {acts : List Act}

/-- What is noted in a move is what is made known in it. -/
theorem errors_eq (h : Move env settings p s acts p' s') :
    s'.errors = s.errors ++ acts.filterMap Act.failure? := by
  cases h with
  | fails hp hf hd hne | ignores hp hf hd =>
    cases hf <;> simp [List.filterMap_cons, Act.failure?]
  | _ => simp [List.filterMap_cons, Act.failure?, Function.comp_def]

/-- At most one attempt begins in a move, under the next number. -/
theorem begun_eq (h : Move env settings p s acts p' s') :
    List.range s'.attempts = List.range s.attempts ++ acts.filterMap Act.begun? := by
  cases h with
  | begins hp => simp [List.filterMap_cons, Act.begun?, List.range_succ]
  | fails hp hf hd hne | ignores hp hf hd =>
    cases hf <;> simp [List.filterMap_cons, Act.begun?]
  | _ => simp [List.filterMap_cons, Act.begun?, Function.comp_def]

/-- What a fiber waits for or begins in a move it waits for after it, or it has ended. -/
theorem balance (h : Move env settings p s acts p' s') (n : Nat) :
    acts.countP (Act.ends n) + (if p'.stance.waitsFor n then 1 else 0) =
      (acts.filterMap Act.begun?).count n + (if p.stance.waitsFor n then 1 else 0) := by
  cases h with
  | exhausted hp hd hn | takes hp hd hn =>
    simp [Act.ends, Act.begun?, List.filterMap_cons, hp, Function.comp_def]
  | refused hp => simp [Act.ends, Act.begun?, List.filterMap_cons, hp]
  | begins hp => simp [Act.ends, Act.begun?, List.filterMap_cons, List.count_singleton, hp]
  | waits hp hr | sends hp hr => simp [Act.ends, Act.begun?, List.filterMap_cons, hp]
  | succeeds hp hr =>
    simp [Act.ends, Act.begun?, List.filterMap_cons, List.countP_cons, hp]
  | fails hp hf hd hne | ignores hp hf hd =>
    cases hf <;> simp [Act.ends, Act.begun?, List.filterMap_cons, List.countP_cons, hp]

/-- A retry session is asked in the move in which an attempt fails. -/
theorem asked_eq (h : Move env settings p s acts p' s') :
    acts.filterMap Act.failedBy? = acts.filterMap Act.askedBy? := by
  cases h with
  | fails hp hf hd hne | ignores hp hf hd =>
    cases hf <;> simp [List.filterMap_cons, Act.failedBy?, Act.askedBy?, reportOn]
  | _ => simp [List.filterMap_cons, Act.failedBy?, Act.askedBy?, Function.comp_def]

/-- A result is claimed in the move in which an attempt succeeds or its failure is ignored. -/
theorem claims_eq (h : Move env settings p s acts p' s') :
    acts.countP Act.succeeds + acts.countP Act.ignores = acts.countP Act.claims := by
  cases h with
  | fails hp hf hd hne =>
    cases hf <;> simp [Act.succeeds, Act.ignores, Act.claims, hne]
  | ignores hp hf hd =>
    cases hf <;> simp [List.countP_cons, Act.succeeds, Act.ignores, Act.claims]
  | _ => simp [List.countP_cons, Act.succeeds, Act.ignores, Act.claims, Function.comp_def]

/-- A retry session is told what its fiber reports, and each report but the last is one of a failure
that is retried. -/
theorem told (h : Move env settings p s acts p' s')
    (hp : (∀ e, p.stance ≠ .done e) → p.retries = p.session.told.length) :
    p'.session.told = p.session.told ++ (Act.ofFiber p.index acts).filterMap Act.report? ∧
      ((∀ e, p'.stance ≠ .done e) → p'.retries = p'.session.told.length) := by
  cases h with
  | @fails c error heard lore decision hw hf hd hne =>
    have hopen := hp (by simp [hw])
    have hown : (Act.ofFiber p.index (heard ++ [.failed c.number p.index c.node error,
        .reported p.index (p.reportOn settings c error) decision])).filterMap Act.report? =
        [p.reportOn settings c error] := by
      simp [hf.ofFiber_heard, Act.fiber?, Act.report?, List.filterMap_cons]
    rw [hown]
    cases decision <;> simp [obeying, RetrySession.heard, hopen]
  | ignores hw hf hd =>
    simp [hf.ofFiber_heard, obeying, RetrySession.heard, Act.fiber?, Act.report?,
      List.filterMap_cons]
  | exhausted hs | takes hs | refused hs | begins hs | waits hs | sends hs | succeeds hs =>
    simp_all [Act.fiber?, Act.report?, List.filterMap_cons]

end Pose.Move

namespace Trail

variable {ω : Type} {env : Environment ω} {settings : Settings} {acts : List Act} {s : Shared}
  {ps : List Pose} {p : Pose} {i : Nat}

theorem errors_eq (h : Trail env settings acts s ps) :
    s.errors = acts.filterMap Act.failure? := by
  induction h with
  | start => rfl
  | opens rule _ ih => simp [ih, List.filterMap_cons, Act.failure?]
  | moves _ _ hmove ih => rw [List.filterMap_append, hmove.errors_eq, ih]

theorem begun_eq (h : Trail env settings acts s ps) :
    acts.filterMap Act.begun? = List.range s.attempts := by
  induction h with
  | start => rfl
  | opens rule _ ih => simp [ih, List.filterMap_cons, Act.begun?]
  | moves _ _ hmove ih => rw [List.filterMap_append, hmove.begun_eq, ih]

/-- No attempt is begun twice. -/
theorem began_unique (h : Trail env settings acts s ps) {n j : Nat} {node other : Node}
    {c d : Connection} (hc : .began n i node c ∈ acts) (hd : .began n j other d ∈ acts) :
    i = j ∧ node = other ∧ c = d := by
  have hnodup : (acts.filterMap Act.begun?).Nodup := h.begun_eq ▸ List.nodup_range
  simpa using eq_of_nodup_filterMap hnodup hc hd rfl rfl

theorem asked_eq (h : Trail env settings acts s ps) :
    acts.filterMap Act.failedBy? = acts.filterMap Act.askedBy? := by
  induction h with
  | start => rfl
  | opens rule _ ih => simp [ih, List.filterMap_cons, Act.failedBy?, Act.askedBy?]
  | moves _ _ hmove ih =>
    rw [List.filterMap_append, List.filterMap_append, hmove.asked_eq, ih]

theorem claims_eq (h : Trail env settings acts s ps) :
    acts.countP Act.succeeds + acts.countP Act.ignores = acts.countP Act.claims := by
  induction h with
  | start => rfl
  | opens rule _ ih => simpa [Act.succeeds, Act.ignores, Act.claims] using ih
  | moves _ _ hmove ih =>
    have := hmove.claims_eq
    simp only [List.countP_append]
    omega

/-- **The books of attempts balance**: each one that was begun is waited for by one fiber, or it has
ended once. -/
theorem balance (h : Trail env settings acts s ps) (n : Nat) :
    acts.countP (Act.ends n) + ps.countP (·.stance.waitsFor n) =
      (acts.filterMap Act.begun?).count n := by
  induction h with
  | start => rfl
  | opens rule _ ih =>
    simpa [List.filterMap_cons, Act.ends, Act.begun?, Pose.fresh, Fiber.standing] using ih
  | @moves acts more s s' ps p p' _ hp hmove ih =>
    obtain ⟨hlt, he⟩ := List.getElem?_eq_some_iff.1 hp
    have hbalance := hmove.balance n
    have hpos : (if p.stance.waitsFor n then 1 else 0) ≤ ps.countP (·.stance.waitsFor n) := by
      split
      · next hw => exact List.countP_pos_iff.2 ⟨p, List.mem_of_getElem? hp, hw⟩
      · exact Nat.zero_le _
    rw [List.countP_append, List.filterMap_append, List.count_append, List.countP_set hlt, he]
    omega

/-- A retry session is told of its own fiber's attempts, and a fiber that is not done has retried
after each of them. -/
theorem told (h : Trail env settings acts s ps) (hp : ps[i]? = some p) :
    p.session.told = (Act.ofFiber i acts).filterMap Act.report? ∧
      ((∀ e, p.stance ≠ .done e) → p.retries = p.session.told.length) := by
  refine h.own (L := fun own p => p.session.told = own.filterMap Act.report? ∧
      ((∀ e, p.stance ≠ .done e) → p.retries = p.session.told.length)) ?_ ?_ hp
  · exact fun rule i => ⟨rfl, fun _ => rfl⟩
  · intro acts more s s' ps p p' _ _ hmove ⟨htold, hretries⟩
    have := hmove.told hretries
    rw [List.filterMap_append, ← htold]
    exact this

/-- What is known of the attempt a fiber waits for. -/
structure Underway (settings : Settings) (acts : List Act) (p : Pose) (c : Current) : Prop where
  call_eq : c.attempt.call = settings.call
  began : .began c.number p.index c.node c.attempt.connection ∈ acts
  issued : .issued c.number .first c.attempt.connection
    (settings.call.request p.consistency) ∈ acts

theorem Underway.append {c : Current} (h : Underway settings acts p c) (more : List Act) :
    Underway settings (acts ++ more) p c :=
  ⟨h.call_eq, List.mem_append_left _ h.began, List.mem_append_left _ h.issued⟩

/-- An attempt that goes on is the one that was begun. -/
theorem Underway.react {c : Current} {signal : Signal} {a : Attempt}
    (h : Underway settings acts p c)
    (hr : c.attempt.react signal = .waits a ∨ c.attempt.react signal = .sends a) (stance : Stance)
    (more : List Act) :
    Underway settings (acts ++ more) { p with stance := stance } { c with attempt := a } := by
  obtain ⟨hcall, -, hconnection⟩ := Attempt.react_continues hr
  obtain ⟨hcall', hbegan, hissued⟩ := h.append more
  refine ⟨hcall.trans hcall', ?_, ?_⟩
  · simpa [hconnection] using hbegan
  · simpa [hconnection] using hissued

/-- An attempt that is waited for was begun by the fiber that waits, at its consistency. -/
theorem underway (h : Trail env settings acts s ps) (hp : ps[i]? = some p) {c : Current}
    (hc : p.stance = .waiting c) : Underway settings acts p c := by
  induction h generalizing i p c with
  | start => simp at hp
  | opens rule _ ih =>
    rcases opens_cases hp with hp | ⟨-, rfl⟩
    · exact (ih hp hc).append _
    · cases hc
  | @moves acts more s s' ps q q' h hq hmove ih =>
    rcases set_cases hp with ⟨rfl, rfl⟩ | ⟨-, hp⟩
    · cases hmove with
      | begins hs =>
        cases hc
        exact ⟨rfl, by simp [Attempt.start], by simp [Attempt.start]⟩
      | waits hs hr =>
        cases hc
        exact (ih hq hs).react (.inl hr) _ _
      | sends hs hr =>
        cases hc
        exact (ih hq hs).react (.inr hr) _ _
      | @fails c' error heard lore decision hs hf hd hne => cases decision <;> cases hc
      | exhausted | takes | refused | succeeds | ignores => cases hc
    · exact (ih hp hc).append _

/-- A failure and the report on it come after what `Act.Told` asks for. -/
theorem told_failure {c : Current} {error : AttemptError} {heard : List Act}
    (decision : Decision) (hunder : Underway settings acts p c)
    (hretries : p.retries = ((Act.ofFiber p.index acts).filterMap Act.report?).length)
    (hf : Fiber.Falters settings c error heard) :
    Journal (fun before => Act.Told settings (acts ++ before))
      (heard ++ [.failed c.number p.index c.node error,
        .reported p.index (p.reportOn settings c error) decision]) := by
  have hfailing : Act.Failing settings (acts ++ heard) c.number error := by
    cases hf with
    | heard he hr => exact .inl ⟨acts, _, c.attempt, rfl, hunder.call_eq, hr⟩
    | timedOut hl => exact .inr ⟨_, hl, rfl⟩
  rw [journal_append]
  refine ⟨journal_of_forall fun before a ha => ?_, ?_⟩
  · cases hf with
    | heard he hr =>
      obtain rfl := List.mem_singleton.1 ha
      trivial
    | timedOut hl => cases ha
  · simp only [journal_cons, journal_nil, and_true, List.append_nil]
    refine ⟨⟨⟨_, List.mem_append_left _ hunder.began⟩, hfailing⟩, acts ++ heard, c.number, c.node,
      c.attempt.connection, by simp [Pose.reportOn], ?_, ?_⟩
    · exact List.mem_append_left _ hunder.issued
    · simp [hf.ofFiber_heard, Pose.reportOn, hretries]

/-- **Every failure and every report come after what `Act.Told` asks for.** -/
theorem journal_told (h : Trail env settings acts s ps) : Journal (Act.Told settings) acts := by
  refine h.journal (fun _ _ => trivial) ?_
  intro acts more s s' ps p p' h hp hmove
  have hretries {c : Current} (hs : p.stance = .waiting c) :
      p.retries = ((Act.ofFiber p.index acts).filterMap Act.report?).length := by
    obtain ⟨htold, hlength⟩ := h.told hp
    rw [← htold]
    exact hlength (by simp [hs])
  cases hmove with
  | @fails c error heard lore decision hs hf hd hne =>
    exact told_failure decision (h.underway hp hs) (hretries hs) hf
  | @ignores c error heard lore hs hf hd =>
    have hfailure := told_failure .ignore (h.underway hp hs) (hretries hs) hf
    simp_all [journal_append, Act.Told]
  | exhausted | takes | refused | begins | waits | sends | succeeds =>
    refine journal_of_forall fun before a ha => ?_
    simp at ha
    grind [Act.Told]

/-- An attempt that failed was begun by the fiber it is said to be of, and on the node. -/
theorem began_of_failed (h : Trail env settings acts s ps) {n i : Nat} {node : Node}
    {error : AttemptError} (ha : .failed n i node error ∈ acts) :
    ∃ connection, .began n i node connection ∈ acts := by
  obtain ⟨before, after, hacts⟩ := List.append_of_mem ha
  obtain ⟨⟨connection, hbegan⟩, -⟩ := h.journal_told before _ after hacts
  exact ⟨connection, hacts ▸ List.mem_append_left _ hbegan⟩

end Trail

namespace Execution

variable {ω : Type} {env : Environment ω} {settings : Settings} {speculation : Option Speculation}
  {since : Nat} {x : Execution} {acts : List Act}

/-- What a result tells is what the execution learned. -/
theorem errors_of_result {r : Except ExecutionError (Answer × ExecutionInfo)}
    {info : ExecutionInfo} (hr : x.result? = some r) (hinfo : ExecutionInfo.of? r = some info) :
    info.errors = x.shared.errors := by
  obtain ⟨e, -, rfl⟩ := Option.map_eq_some_iff.1 hr
  cases e with
  | succeeded v =>
    obtain rfl := Option.some.inj hinfo
    rfl
  | failed f =>
    simp only [ExecutionInfo.of?, failure_info?, Option.some.injEq] at hinfo
    rw [← hinfo]
    rfl
  | idle => cases hinfo

/-- The failures the load balancer is told of are those made known, apart from those of pools. -/
theorem Unfolds.blamed (h : Unfolds env settings speculation since x acts) :
    acts.filterMap Act.blame? =
      (acts.filterMap Act.failure?).filter fun e => !e.2.isPoolBroken := by
  rw [List.filter_filterMap]
  refine List.filterMap_congr fun a ha => ?_
  obtain ⟨before, after, hacts⟩ := List.append_of_mem ha
  have htold := h.trail.journal_told before a after hacts
  cases a with
  | failed n i node error =>
    have hpool : error.isPoolBroken = false := by
      obtain ⟨-, ⟨_, signal, b, -, -, hr⟩ | ⟨limit, -, rfl⟩⟩ := htold
      · exact Attempt.react_not_poolBroken hr
      · rfl
    simp [Act.blame?, Act.failure?, Option.filter_some, hpool]
  | poolFailed i node cause => rfl
  | _ => rfl

/-- The load balancer is told of a result exactly if a fiber won with one. -/
theorem Unfolds.succeeded (h : Unfolds env settings speculation since x acts) :
    acts.countP Act.succeeds ≤ 1 ∧
      ((∃ n i node, .succeeded n i node ∈ acts) ↔
        ∃ answer info before n i node stage r, x.result? = some (.ok (answer, info)) ∧
          info.successIndex = some i ∧
          acts = before ++
            [.heard n stage (.delivered (.ok r)), .succeeded n i node, .claimed n i] ∧
          r.answer = .ok answer) := by
  have hclaims := h.trail.claims_eq
  have hone := h.standing.claims_le_one
  refine ⟨by omega, ?_, ?_⟩
  · rintro ⟨n, i, node, hmem⟩
    have hsucceeds : 0 < acts.countP Act.succeeds := List.countP_pos_iff.2 ⟨_, hmem, rfl⟩
    obtain ⟨a, ha, hclaim⟩ := List.countP_pos_iff.1 (show 0 < acts.countP Act.claims by omega)
    obtain ⟨answer, info, hr⟩ : ∃ answer info, x.result? = some (.ok (answer, info)) := by
      cases a with
      | claimed n i => exact h.standing.result_ok_iff.2 ⟨n, i, ha⟩
      | _ => cases hclaim
    obtain ⟨n, i, node, -, hclaim, -, -, hindex⟩ := h.standing.winner hr
    cases hclaim with
    | @response before stage r answer hacts hanswer =>
      exact ⟨answer, info, before, n, i, node, stage, r, hr, hindex, hacts, hanswer⟩
    | ignored before error report hacts =>
      -- Then both a success and an ignored failure would claim the result.
      have hignores : 0 < acts.countP Act.ignores :=
        List.countP_pos_iff.2 ⟨.reported i report .ignore, by simp [hacts], rfl⟩
      omega
  · rintro ⟨answer, info, before, n, i, node, stage, r, -, -, hacts, -⟩
    exact ⟨n, i, node, by simp [hacts]⟩

/-- **One story of an execution**: its information, its load balancer and its retry sessions tell of
the same attempts, under any policies and in any order of the fibers' turns. -/
theorem Arises.story (h : Arises env settings speculation x acts) : x.Story settings acts := by
  obtain ⟨since, h⟩ := h.unfolds
  have htrail := h.trail
  have hjournal := htrail.journal_told
  refine
    { listed := ?_, blamed := h.blamed, begun := htrail.begun_eq, ended := ?_, failed := ?_,
      succeeded := h.succeeded, asked := htrail.asked_eq, reported := ?_, told := ?_ }
  · intro r info hr hinfo
    rw [errors_of_result hr hinfo, htrail.errors_eq]
  · intro n hn
    have hbalance := htrail.balance n
    rw [htrail.begun_eq, List.count_eq_one_of_mem List.nodup_range (List.mem_range.2 hn),
      List.countP_map] at hbalance
    exact hbalance
  · intro before n i node error after hacts
    exact hjournal before _ after hacts
  · intro before i r decision after hacts
    exact hjournal before _ after hacts
  · intro i f hf
    have hpose : (x.fibers.map Fiber.pose)[i]? = some f.pose := by simp [hf]
    exact (htrail.told hpose).1

/-- The first node gives no connection, the second refuses the request and then lets its time run
out, which is taken for success; the attempt on the third is dropped. -/
theorem Arises.story_with_dropped_attempt :
    let a := Node.sample "10.0.0.1" 0
    let b := Node.sample "10.0.0.2" 1
    let c := Node.sample "10.0.0.3" 2
    let refusal : AttemptError := .refused .overloaded "busy"
    let late : AttemptError := .timedOut (.ofMillis 50)
    ∃ (x : Execution) (acts : List Act) (answer : Answer) (info : ExecutionInfo),
      x.result? = some (.ok (answer, info)) ∧
      info.errors = [(a.address, .poolBroken .closed), (b.address, refusal), (b.address, late)] ∧
      acts.filterMap Act.blame? = [(b.address, refusal), (b.address, late)] ∧
      .began 1 1 c ⟨.pool 2, c.address⟩ ∈ acts ∧ acts.countP (Act.ends 1) = 0 ∧
      ∀ n i node, .succeeded n i node ∉ acts := by
  intro a b c refusal late
  let env : Environment Unit := { Environment.steady [a, b, c] with
    connect := fun n w =>
      (if n.pool = 0 then .error .closed else .ok ⟨.pool n.pool, n.address⟩, w) }
  let settings : Settings :=
    ⟨.query "UPDATE t SET n = 1" .none .unpaged none, ⟨.localQuorum, true⟩, some 50,
      .scripted [.sameNode (some .one), .ignore]⟩
  let speculation : Option Speculation := some ⟨1, 100⟩
  let events : List Event := [.launch, .signal 0 .first .acknowledged,
    .signal 0 .first (.delivered (.ok ⟨.error .overloaded "busy", .none⟩)), .expire 2]
  have hstart : Reaches env settings speculation _ _ := .start 0 ()
  have hstory := (hstart.follow 0 () events).arises.story
  let run := (Execution.start env settings speculation 0 ()).execution.follow env settings 0 ()
    (Execution.start env settings speculation 0 ()).acts events
  let info : ExecutionInfo := { ExecutionInfo.empty with
    coordinator := some ⟨b, b.address⟩
    errors := [(a.address, .poolBroken .closed), (b.address, refusal), (b.address, late)]
    speculative := 1
    successIndex := some 0 }
  have hresult : run.1.result? = some (.ok (.void, info)) := by cbv
  have hfailures : run.2.filterMap Act.failure? = info.errors :=
    (hstory.listed _ info hresult rfl).symm
  have hwaits : run.1.fibers.countP (Fiber.waitsFor 1) = 1 := by cbv
  refine ⟨run.1, run.2, .void, info, hresult, rfl, ?_, ?_, ?_, ?_⟩
  · rw [hstory.blamed, hfailures]
    cbv
  · have hbegan : run.2[10]? = some (.began 1 1 c ⟨.pool 2, c.address⟩) := by cbv
    exact List.mem_of_getElem? hbegan
  · have hended : run.2.countP (Act.ends 1) + run.1.fibers.countP (Fiber.waitsFor 1) = 1 :=
      hstory.ended 1 (by cbv)
    omega
  · have hsucceeds : run.2.countP Act.succeeds = 0 := by cbv
    intro n i node hmem
    exact List.countP_eq_zero.1 hsucceeds _ hmem rfl

end Execution

end ClusterClient
