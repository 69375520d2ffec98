import ClusterClient.Proofs.Run

/-!
# Executions move by move

A turn of a fiber is made of moves (`Pose.Move`): it takes a node, asks it for a connection, begins
an attempt, hears of it, fails, ends. Between two moves a fiber is in a `Pose`. A `Trail` is any
course of moves of any number of fibers that share a plan, with the acts so far.

`Execution.Unfolds.trail` says that every execution follows a trail, so what every move keeps holds
of every execution. `Trail.own` packs the induction for what a fiber does by itself: the other
fibers act under other numbers (`Pose.Move.ofFiber_other`) and cannot disturb it. `Journal` is for
what has to come before an act, and `Trail.journal` packs the induction for that.
-/

namespace ClusterClient

/-! ## Lists of acts -/

/-- The fiber an act is of, if it names one. -/
def Act.fiber? : Act → Option Nat
  | .opened i | .took i _ | .poolFailed i _ _ | .began _ i _ _ | .succeeded _ i _ | .failed _ i _ _
  | .reported i _ _ | .claimed _ i => some i
  | .consulted _ | .issued .. | .heard .. => none

/-- The acts that name a fiber. -/
def Act.ofFiber (i : Nat) (acts : List Act) : List Act :=
  acts.filter fun a => a.fiber? = some i

/-- What has to come before an act did so, for each act of a list. -/
def Journal {α : Type} (P : List α → α → Prop) (l : List α) : Prop :=
  ∀ before a after, l = before ++ a :: after → P before a

section
variable {α : Type} {P : List α → α → Prop}

@[simp] theorem journal_nil : Journal P [] := by
  intro before a after h
  simp at h

theorem journal_append {l m : List α} :
    Journal P (l ++ m) ↔ Journal P l ∧ Journal (fun before => P (l ++ before)) m := by
  constructor
  · intro h
    refine ⟨fun before a after hl => h before a (after ++ m) (by simp [hl]), ?_⟩
    intro before a after hm
    exact h (l ++ before) a after (by simp [hm])
  · rintro ⟨hl, hm⟩ before a after h
    rcases List.append_eq_append_iff.1 h with ⟨between, rfl, rfl⟩ | ⟨between, rfl, hcut⟩
    · exact hm between a after rfl
    · cases between with
      | nil =>
        simp only [List.nil_append] at hcut
        simpa using hm [] a after hcut.symm
      | cons b bs =>
        simp only [List.cons_append, List.cons.injEq] at hcut
        obtain ⟨rfl, rfl⟩ := hcut
        exact hl before a bs rfl

@[simp] theorem journal_cons {a : α} {l : List α} :
    Journal P (a :: l) ↔ P [] a ∧ Journal (fun before => P (a :: before)) l := by
  have h := journal_append (P := P) (l := [a]) (m := l)
  simp only [List.singleton_append] at h
  rw [h]
  refine and_congr_left fun _ => ⟨fun h => h [] a [] rfl, fun h before b after hb => ?_⟩
  cases before with
  | nil =>
    simp only [List.nil_append, List.cons.injEq] at hb
    exact hb.1 ▸ h
  | cons c cs => simp at hb

/-- Nothing has to come before acts of which nothing is asked. -/
theorem journal_of_forall {l : List α} (h : ∀ before, ∀ a ∈ l, P before a) : Journal P l := by
  rintro before a after rfl
  exact h before a (by simp)

end

@[simp] theorem Act.ofFiber_nil (i : Nat) : ofFiber i [] = [] := rfl

@[simp] theorem Act.ofFiber_cons (i : Nat) (a : Act) (acts : List Act) :
    ofFiber i (a :: acts) = if a.fiber? = some i then a :: ofFiber i acts else ofFiber i acts := by
  simp [ofFiber, List.filter_cons]

@[simp] theorem Act.ofFiber_append (i : Nat) (acts more : List Act) :
    ofFiber i (acts ++ more) = ofFiber i acts ++ ofFiber i more :=
  List.filter_append ..

@[simp] theorem Act.ofFiber_consulted (i : Nat) (questions : List Consulted) :
    ofFiber i (questions.map .consulted) = [] := by
  simp [ofFiber, fiber?]

theorem Act.mem_ofFiber {i : Nat} {acts : List Act} {a : Act} :
    a ∈ ofFiber i acts ↔ a ∈ acts ∧ a.fiber? = some i := by
  simp [ofFiber]

/-- Hearing of a failure is no act of a fiber. -/
theorem Fiber.Falters.ofFiber_heard {settings : Settings} {c : Current} {error : AttemptError}
    {heard : List Act} (h : Falters settings c error heard) (i : Nat) :
    Act.ofFiber i heard = [] := by
  cases h <;> rfl

/-! ## Moves -/

/-- Where a fiber stands between two of its moves. -/
inductive Stance where
  /-- It goes on to the next node of the plan. -/
  | roaming
  /-- It asks a node for a connection. -/
  | visiting (node : Node)
  | waiting (current : Current)
  | done (ending : Ending Success)

/-- Where a fiber stands after a turn. -/
def Phase.stance : Phase → Stance
  | .attempting c => .waiting c
  | .ended e => .done e

/-- A fiber between two of its moves. -/
structure Pose where
  index : Nat
  consistency : Consistency
  retries : Nat
  session : RetrySession
  lastError : Option AttemptError
  stance : Stance

/-- A fiber with a place to stand. -/
def Fiber.standing (f : Fiber) (stance : Stance) : Pose :=
  ⟨f.index, f.consistency, f.retries, f.session, f.lastError, stance⟩

/-- A fiber after a turn. -/
def Fiber.pose (f : Fiber) : Pose :=
  f.standing f.phase.stance

@[simp] theorem Fiber.pose_stance_attempting {f : Fiber} {c : Current}
    (h : f.phase = .attempting c) : f.pose.stance = .waiting c := by
  simp [pose, standing, h, Phase.stance]

@[simp] theorem Fiber.pose_stance_ended {f : Fiber} {e : Ending Success}
    (h : f.phase = .ended e) : f.pose.stance = .done e := by
  simp [pose, standing, h, Phase.stance]

namespace Pose

/-- A fiber that goes on to its first node. -/
def fresh (settings : Settings) (index : Nat) : Pose :=
  (Fiber.fresh settings index).standing .roaming

/-- The ending of a fiber whose plan has no further node. -/
def exhausted (p : Pose) : Ending Success :=
  match p.lastError with
  | some e => .failed (.planExhausted e)
  | none => .idle

/-- The report on a failed attempt. -/
def reportOn (settings : Settings) (p : Pose) (c : Current) (error : AttemptError) : Report :=
  ⟨error, settings.routing.idempotent, p.consistency, c.attempt.written, p.retries⟩

/-- The result a fiber claims with an answer to its attempt. -/
def success (p : Pose) (c : Current) (answer : Answer) : Success :=
  ⟨answer, c.node, c.attempt.connection.address, p.index⟩

/-- A fiber whose retry session was told of a failure and decided on it. -/
def obeying (p : Pose) (c : Current) (r : Report) : Decision → Pose
  | .sameNode consistency =>
    { p with
      session := p.session.heard r
      consistency := consistency.getD p.consistency
      retries := p.retries + 1
      stance := .visiting c.node }
  | .nextNode consistency =>
    { p with
      session := p.session.heard r
      consistency := consistency.getD p.consistency
      retries := p.retries + 1
      lastError := some r.error
      stance := .roaming }
  | .stop =>
    { p with session := p.session.heard r, stance := .done (.failed (.gaveUp r.error)) }
  | .ignore =>
    { p with session := p.session.heard r, stance := .done (.succeeded (p.success c .void)) }

/-- One move of a fiber. -/
inductive Move {ω : Type} (env : Environment ω) (settings : Settings) :
    Pose → Shared → List Act → Pose → Shared → Prop
  /-- The plan has no further node. -/
  | exhausted {p : Pose} {s : Shared} {w : ω} {d : Draw ω} :
      p.stance = .roaming → s.plan.next env.chooser w = d → d.node = none →
      Move env settings p s (d.asked.map .consulted) { p with stance := .done p.exhausted }
        { s with plan := d.plan }
  | takes {p : Pose} {s : Shared} {w : ω} {d : Draw ω} {node : Node} :
      p.stance = .roaming → s.plan.next env.chooser w = d → d.node = some node →
      Move env settings p s (d.asked.map .consulted ++ [.took p.index node])
        { p with stance := .visiting node } { s with plan := d.plan }
  | refused {p : Pose} {s : Shared} {node : Node} {cause : BrokenCause} :
      p.stance = .visiting node →
      Move env settings p s [.poolFailed p.index node cause]
        { p with lastError := some (.poolBroken cause), stance := .roaming }
        { s with errors := s.errors ++ [(node.address, .poolBroken cause)] }
  | begins {p : Pose} {s : Shared} {node : Node} {connection : Connection}
      {deadline : Option Nat} {since : Nat} :
      p.stance = .visiting node →
      Move env settings p s
        [.began s.attempts p.index node connection,
          .issued s.attempts .first connection (settings.call.request p.consistency)]
        { p with
          stance := .waiting
            ⟨s.attempts, node, .start settings.call p.consistency connection, deadline, since⟩ }
        { s with attempts := s.attempts + 1 }
  | waits {p : Pose} {s : Shared} {c : Current} {signal : Signal} {a : Attempt} :
      p.stance = .waiting c → c.attempt.react signal = .waits a →
      c.attempt.expects signal = true →
      Move env settings p s [.heard c.number c.attempt.stage signal]
        { p with stance := .waiting { c with attempt := a } } s
  | sends {p : Pose} {s : Shared} {c : Current} {signal : Signal} {a : Attempt} :
      p.stance = .waiting c → c.attempt.react signal = .sends a →
      c.attempt.expects signal = true →
      Move env settings p s
        [.heard c.number c.attempt.stage signal, .issued c.number a.stage a.connection a.request]
        { p with stance := .waiting { c with attempt := a } } s
  | succeeds {p : Pose} {s : Shared} {c : Current} {signal : Signal} {answer : Answer} :
      p.stance = .waiting c → c.attempt.react signal = .ends c.attempt (.ok answer) →
      c.attempt.expects signal = true →
      Move env settings p s
        [.heard c.number c.attempt.stage signal, .succeeded c.number p.index c.node,
          .claimed c.number p.index]
        { p with stance := .done (.succeeded (p.success c answer)) } { s with completed := true }
  | fails {p : Pose} {s : Shared} {c : Current} {error : AttemptError} {heard : List Act}
      {lore : Lore} {decision : Decision} :
      p.stance = .waiting c → Fiber.Falters settings c error heard →
      p.session.rule.decide lore p.session.told (p.reportOn settings c error) = decision →
      decision ≠ .ignore →
      Move env settings p s
        (heard ++ [.failed c.number p.index c.node error,
          .reported p.index (p.reportOn settings c error) decision])
        (p.obeying c (p.reportOn settings c error) decision)
        { s with errors := s.errors ++ [(c.node.address, error)] }
  | ignores {p : Pose} {s : Shared} {c : Current} {error : AttemptError} {heard : List Act}
      {lore : Lore} :
      p.stance = .waiting c → Fiber.Falters settings c error heard →
      p.session.rule.decide lore p.session.told (p.reportOn settings c error) = .ignore →
      Move env settings p s
        (heard ++ [.failed c.number p.index c.node error,
          .reported p.index (p.reportOn settings c error) .ignore, .claimed c.number p.index])
        (p.obeying c (p.reportOn settings c error) .ignore)
        { s with errors := s.errors ++ [(c.node.address, error)], completed := true }

/-- Some moves of one fiber. -/
inductive Moves {ω : Type} (env : Environment ω) (settings : Settings) :
    Pose → Shared → List Act → Pose → Shared → Prop
  | none {p : Pose} {s : Shared} : Moves env settings p s [] p s
  | cons {p p' p'' : Pose} {s s' s'' : Shared} {acts more : List Act} :
      Move env settings p s acts p' s' → Moves env settings p' s' more p'' s'' →
      Moves env settings p s (acts ++ more) p'' s''

variable {ω : Type} {env : Environment ω} {settings : Settings} {p p' : Pose} {s s' : Shared}
  {acts : List Act}

theorem Move.moves (h : Move env settings p s acts p' s') : Moves env settings p s acts p' s' := by
  simpa using Moves.cons h .none

/-- No move depends on the retry policy a later fiber would get. -/
theorem Move.of_retry {rule : RetryRule}
    (h : Move env { settings with retry := rule } p s acts p' s') :
    Move env settings p s acts p' s' := by
  have falters {c : Current} {error : AttemptError} {heard : List Act}
      (hf : Fiber.Falters { settings with retry := rule } c error heard) :
      Fiber.Falters settings c error heard := by
    cases hf with
    | heard he hr => exact .heard he hr
    | timedOut hl => exact .timedOut hl
  cases h with
  | exhausted hs hd hn => exact .exhausted hs hd hn
  | takes hs hd hn => exact .takes hs hd hn
  | refused hs => exact .refused hs
  | begins hs => exact .begins hs
  | waits hs hr he => exact .waits hs hr he
  | sends hs hr he => exact .sends hs hr he
  | succeeds hs hr he => exact .succeeds hs hr he
  | fails hs hf hd hne => exact .fails hs (falters hf) hd hne
  | ignores hs hf hd => exact .ignores hs (falters hf) hd

theorem Moves.of_retry {rule : RetryRule}
    (h : Moves env { settings with retry := rule } p s acts p' s') :
    Moves env settings p s acts p' s' := by
  induction h with
  | none => exact .none
  | cons hmove _ ih => exact .cons hmove.of_retry ih

@[simp] theorem obeying_index (c : Current) (r : Report) (decision : Decision) :
    (p.obeying c r decision).index = p.index := by
  cases decision <;> rfl

theorem Move.index_eq (h : Move env settings p s acts p' s') : p'.index = p.index := by
  cases h <;> simp

/-- No other fiber acts in a move. -/
theorem Move.ofFiber_other (h : Move env settings p s acts p' s') {i : Nat} (hi : i ≠ p.index) :
    Act.ofFiber i acts = [] := by
  cases h with
  | fails hp hf hd hne | ignores hp hf hd =>
    simp [hf.ofFiber_heard, Act.fiber?, Ne.symm hi]
  | _ => simp [Act.fiber?, Ne.symm hi]

/-- A fiber acts under its own number. -/
theorem Move.fiber_eq (h : Move env settings p s acts p' s') {a : Act} (ha : a ∈ acts) {i : Nat}
    (hi : a.fiber? = some i) : i = p.index := by
  by_contra hne
  have hmem := Act.mem_ofFiber.2 ⟨ha, hi⟩
  rw [h.ofFiber_other hne] at hmem
  cases hmem

end Pose

/-! ## Turns are made of moves -/

namespace Fiber

variable {ω : Type} {env : Environment ω} {settings : Settings} {now : Nat} {f : Fiber}
  {c : Current} {s : Shared} {w : ω} {t : Turn ω}

/-- Taking nodes is made of moves. -/
theorem Seeks.moves (h : Seeks env settings now f s w t) :
    Pose.Moves env settings (f.standing .roaming) s t.acts t.fiber.pose t.shared := by
  induction h with
  | exhausted hd hn => exact (Pose.Move.exhausted rfl hd hn).moves
  | @begins f s w w' d node connection hd hn hc =>
    exact .cons (.takes rfl hd hn) (Pose.Move.begins rfl).moves
  | @refused f s w w' d node cause t hd hn hc _ ih =>
    have hrefused : Pose.Move env settings (f.standing (.visiting node)) { s with plan := d.plan }
        [.poolFailed f.index node cause] _ _ := .refused rfl
    have hmoves := Pose.Moves.cons (.takes (p := f.standing .roaming) rfl hd hn)
      (.cons hrefused ih)
    simpa [standing] using hmoves

/-- Going on as the retry session decided is made of moves, the first of which tells it of the
failure. -/
theorem Obeys.moves {error : AttemptError} {heard : List Act} {lore : Lore} {decision : Decision}
    (hf : Falters settings c error heard)
    (hd : f.session.rule.decide lore f.session.told (f.reportOn settings c error) = decision)
    (h : Obeys env settings now (f.telling (f.reportOn settings c error)) c error
      { s with errors := s.errors ++ [(c.node.address, error)] } w decision t) :
    Pose.Moves env settings (f.standing (.waiting c)) s
      (heard ++ [.failed c.number f.index c.node error,
        .reported f.index (f.reportOn settings c error) decision] ++ t.acts)
      t.fiber.pose t.shared := by
  have fails (hne : decision ≠ .ignore) :=
    @Pose.Move.fails _ env _ (f.standing (.waiting c)) s _ _ _ _ _ rfl hf hd hne
  cases h with
  | stop =>
    rw [List.append_nil]
    exact (fails (by simp)).moves
  | ignore =>
    rw [List.append_assoc]
    exact (Pose.Move.ignores (p := f.standing (.waiting c)) rfl hf hd).moves
  | again hc => exact .cons (fails (by simp)) (Pose.Move.begins rfl).moves
  | onward hc hseek =>
    exact .cons (fails (by simp)) (.cons (.refused rfl) hseek.moves)
  | next hseek => exact .cons (fails (by simp)) hseek.moves

/-- A turn of a fiber that waited for an attempt is made of moves. -/
theorem Takes.moves (h : Takes env settings now f c s w t) :
    Pose.Moves env settings (f.standing (.waiting c)) s t.acts t.fiber.pose t.shared := by
  cases h with
  | waits he hr => exact (Pose.Move.waits rfl hr he).moves
  | sends he hr => exact (Pose.Move.sends rfl hr he).moves
  | succeeds he hr => exact (Pose.Move.succeeds rfl hr he).moves
  | fails hf hd ho => exact ho.moves hf hd

end Fiber

/-! ## Trails -/

/-- The courses of moves of fibers that share a plan, with the acts so far. -/
inductive Trail {ω : Type} (env : Environment ω) (settings : Settings) :
    List Act → Shared → List Pose → Prop
  | start : Trail env settings [] ⟨.fresh, [], false, 0⟩ []
  | opens {acts : List Act} {s : Shared} {ps : List Pose} (rule : RetryRule) :
      Trail env settings acts s ps →
      Trail env settings (acts ++ [.opened ps.length]) s
        (ps ++ [.fresh { settings with retry := rule } ps.length])
  | moves {acts more : List Act} {s s' : Shared} {ps : List Pose} {p p' : Pose} :
      Trail env settings acts s ps → ps[p.index]? = some p →
      Pose.Move env settings p s more p' s' →
      Trail env settings (acts ++ more) s' (ps.set p.index p')

namespace Trail

variable {ω : Type} {env : Environment ω} {settings : Settings} {acts more : List Act}
  {s s' : Shared} {ps : List Pose} {p p' : Pose}

/-- A trail goes on with any moves of one of its fibers. -/
theorem follow (h : Trail env settings acts s ps) (hp : ps[p.index]? = some p)
    (hm : Pose.Moves env settings p s more p' s') :
    Trail env settings (acts ++ more) s' (ps.set p.index p') := by
  induction hm generalizing acts ps with
  | none =>
    obtain ⟨hlt, he⟩ := List.getElem?_eq_some_iff.1 hp
    have hset := List.set_getElem_self hlt
    rw [he] at hset
    simpa [hset] using h
  | @cons p p' p'' s s' s'' first rest hmove _ ih =>
    have hi : p'.index = p.index := hmove.index_eq
    obtain ⟨hlt, -⟩ := List.getElem?_eq_some_iff.1 hp
    have hnext := ih (h.moves hp hmove) (by simp [hi, hlt])
    simpa [hi, List.append_assoc] using hnext

/-- A fiber after a move is the one that moved, or another. -/
theorem set_cases {i : Nat} {q : Pose} (h : (ps.set p.index p')[i]? = some q) :
    i = p.index ∧ q = p' ∨ i ≠ p.index ∧ ps[i]? = some q := by
  rw [List.getElem?_set] at h
  split at h
  · next hi =>
    split at h
    · cases h
      exact .inl ⟨hi.symm, rfl⟩
    · cases h
  · next hi => exact .inr ⟨Ne.symm hi, h⟩

/-- A fiber after another was opened is one from before, or the new one. -/
theorem opens_cases {i : Nat} {q r : Pose} (h : (ps ++ [r])[i]? = some q) :
    ps[i]? = some q ∨ i = ps.length ∧ q = r := by
  rw [List.getElem?_append] at h
  split at h
  · exact .inl h
  · next hi =>
    obtain ⟨h0, rfl⟩ := List.getElem?_eq_some_iff.1 h
    simp only [List.length_singleton] at h0
    exact .inr ⟨by omega, by simp⟩

/-- A fiber is found under its number. -/
theorem index_eq (h : Trail env settings acts s ps) {i : Nat} (hp : ps[i]? = some p) :
    p.index = i := by
  induction h generalizing i p with
  | start => simp at hp
  | opens rule _ ih =>
    rcases opens_cases hp with hp | ⟨rfl, rfl⟩
    · exact ih hp
    · rfl
  | moves _ hq hmove ih =>
    rcases set_cases hp with ⟨rfl, rfl⟩ | ⟨-, hp⟩
    · exact hmove.index_eq
    · exact ih hp

/-- Whoever acts was opened. -/
theorem fiber_lt (h : Trail env settings acts s ps) {a : Act} (ha : a ∈ acts) {i : Nat}
    (hi : a.fiber? = some i) : i < ps.length := by
  induction h with
  | start => cases ha
  | opens rule _ ih =>
    rw [List.length_append, List.length_singleton]
    rcases List.mem_append.1 ha with ha | ha
    · exact Nat.lt_succ_of_lt (ih ha)
    · obtain rfl := List.mem_singleton.1 ha
      obtain rfl := Option.some.inj hi
      exact Nat.lt_succ_self _
  | moves _ hp hmove ih =>
    rw [List.length_set]
    rcases List.mem_append.1 ha with ha | ha
    · exact ih ha
    · rw [hmove.fiber_eq ha hi]
      exact (List.getElem?_eq_some_iff.1 hp).1

/-- A fiber that was not opened did nothing. -/
theorem ofFiber_unopened (h : Trail env settings acts s ps) {i : Nat} (hi : ps.length ≤ i) :
    Act.ofFiber i acts = [] := by
  simp only [Act.ofFiber, List.filter_eq_nil_iff, decide_eq_true_eq]
  intro a ha hai
  have := h.fiber_lt ha hai
  omega

/-- What has to come before an act has done so along every trail, if it has within each move. -/
theorem journal {P : List Act → Act → Prop} (hopens : ∀ before i, P before (.opened i))
    (hmove : ∀ {acts more : List Act} {s s' : Shared} {ps : List Pose} {p p' : Pose},
      Trail env settings acts s ps → ps[p.index]? = some p →
      Pose.Move env settings p s more p' s' → Journal (fun before => P (acts ++ before)) more)
    (h : Trail env settings acts s ps) : Journal P acts := by
  induction h with
  | start => exact journal_nil
  | opens rule _ ih =>
    rw [journal_append]
    exact ⟨ih, by simp [hopens]⟩
  | moves h hp hm ih =>
    rw [journal_append]
    exact ⟨ih, hmove h hp hm⟩

/-- **What a fiber keeps by itself holds along every trail**: of its first act and of each of its
moves, whatever the other fibers do in between. -/
theorem own {L : List Act → Pose → Prop}
    (hfresh : ∀ (rule : RetryRule) (i : Nat),
      L [.opened i] (.fresh { settings with retry := rule } i))
    (hmove : ∀ {acts more : List Act} {s s' : Shared} {ps : List Pose} {p p' : Pose},
      Trail env settings acts s ps → ps[p.index]? = some p →
      Pose.Move env settings p s more p' s' → L (Act.ofFiber p.index acts) p →
      L (Act.ofFiber p.index acts ++ Act.ofFiber p.index more) p')
    (h : Trail env settings acts s ps) {i : Nat} (hp : ps[i]? = some p) :
    L (Act.ofFiber i acts) p := by
  induction h generalizing i p with
  | start => simp at hp
  | @opens acts s ps rule h ih =>
    rw [Act.ofFiber_append]
    rcases opens_cases hp with hold | ⟨rfl, rfl⟩
    · have hne : ps.length ≠ i := Nat.ne_of_gt (List.getElem?_eq_some_iff.1 hold).1
      simpa [Act.ofFiber, Act.fiber?, hne] using ih hold
    · rw [h.ofFiber_unopened (Nat.le_refl _)]
      simpa [Act.ofFiber, Act.fiber?] using hfresh rule ps.length
  | @moves acts more s s' ps q q' h hq hm ih =>
    rw [Act.ofFiber_append]
    rcases set_cases hp with ⟨rfl, rfl⟩ | ⟨hne, hold⟩
    · exact hmove h hq hm (ih hq)
    · rw [hm.ofFiber_other hne, List.append_nil]
      exact ih hold

end Trail

namespace Execution

variable {ω : Type} {env : Environment ω} {settings : Settings} {speculation : Option Speculation}
  {since : Nat} {x : Execution} {acts : List Act}

/-- A trail goes on with the opening of a fiber and its first turn. -/
theorem trail_fork {race : Race Success} {rule : RetryRule} {now : Nat} {w : ω} {t : Turn ω}
    (h : Trail env settings acts x.shared (x.fibers.map Fiber.pose))
    (hseek : Fiber.Seeks env { settings with retry := rule } now
      (.fresh { settings with retry := rule } x.fibers.length) x.shared w t) :
    Trail env settings (acts ++ .opened x.fibers.length :: t.acts)
      ((x.fork { settings with retry := rule } race).settle t).execution.shared
      (((x.fork { settings with retry := rule } race).settle t).execution.fibers.map
        Fiber.pose) := by
  have hi : t.fiber.index = x.fibers.length := hseek.frame.1
  have hopened := h.opens rule
  rw [List.length_map] at hopened
  have hmoved := hopened.follow (p := .fresh { settings with retry := rule } x.fibers.length)
    (by simp [Pose.fresh, Fiber.standing, Fiber.fresh]) hseek.moves.of_retry
  simpa [fork, hi, Pose.fresh, Fiber.standing, Fiber.fresh, List.map_set] using hmoved

/-- **Every execution follows a trail.** -/
theorem Unfolds.trail (h : Unfolds env settings speculation since x acts) :
    Trail env settings acts x.shared (x.fibers.map Fiber.pose) := by
  induction h with
  | first rule hseek =>
    have hstart : Trail env settings [] (initial speculation since).shared
        ((initial speculation since).fibers.map Fiber.pose) := .start
    exact trail_fork hstart hseek
  | launch rule _ hmay hseek ih => exact trail_fork ih hseek
  | @turn x acts now w t f c rule hruns hr hf hp ht ih =>
    have hi : t.fiber.index = f.index := (ht.frame (hruns.sound.unclaimed hr)).1
    have hpose : (x.fibers.map Fiber.pose)[(f.standing (.waiting c)).index]? =
        some (f.standing (.waiting c)) := by
      simp [Fiber.standing, Fiber.pose, hf, hp, Phase.stance]
    simpa [hi, List.map_set, Fiber.standing] using ih.follow hpose ht.moves.of_retry

end Execution

end ClusterClient
