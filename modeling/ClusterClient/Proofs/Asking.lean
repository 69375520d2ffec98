import ClusterClient.Proofs.Budget
import ClusterClient.Proofs.Course

/-!
# Whom an execution asks

An execution asks and tells others: nodes come from the load balancer of its terms, connections from
the pools of the nodes, decisions from the retry policy of its terms, and the policies learn how its
attempts go. `Terms.Does` lists these acts with what they make of the session, and `Terms.Performs`
is one after the other. `Execution.Reaches.step_performs` says that a step of an execution does
nothing else; it follows the functions as `Fiber.Seeks`, `Fiber.Obeys` and `Fiber.Takes` list them.

Between two strides the session may have become any other, so every stride is performed in the one
it finds (`Client.Served`). `Client.Course.kept` says this of every course, together with what the
requests, the deadlines and the number of fibers owe to the terms (`Terms.Kept`).
-/

namespace ClusterClient

/-! ## What a plan draws from a session -/

/-- What is drawn, in another world. -/
def Draw.mapWorld {ω ω' : Type} (φ : ω → ω') (d : Draw ω) : Draw ω' :=
  ⟨d.node, d.plan, φ d.world, d.asked⟩

/-- A plan draws the same where it gets the same answers. -/
theorem Plan.next_mapWorld {ω ω' : Type} {c : Chooser ω} {c' : Chooser ω'} {φ : ω → ω'}
    (hpick : ∀ w, c'.pick (φ w) = (c.pick w).map id φ)
    (hfallback : ∀ w, c'.fallback (φ w) = (c.fallback w).map id φ) (p : Plan) (w : ω) :
    p.next c' (φ w) = (p.next c w).mapWorld φ := by
  have hstart (skipped : Option Address) (w : ω) :
      startFallback c' skipped (φ w) = (startFallback c skipped w).mapWorld φ := by
    simp [startFallback, hfallback, Draw.mapWorld]
  cases p with
  | fresh =>
    simp only [next, hpick]
    rcases c.pick w with ⟨_ | n, w⟩
    · simp [hstart, Draw.mapWorld]
    · rfl
  | picked n => exact hstart _ w
  | fallback skipped nodes => rfl

namespace Session

/-- How a load balancer answers. One that is not there knows no node. -/
def ruleOf (s : Session) (i : BalancerId) : BalancerRule :=
  (s.balancers[i]?.map (·.rule)).getD (.fixed none [])

/-- The session with another rule for a load balancer. -/
def withRule (s : Session) (i : BalancerId) (rule : BalancerRule) : Session :=
  { s with balancers := s.balancers.modify i fun b => { b with rule := rule } }

/-- Why the pool of a node has no connection to give, if it has none. -/
def broken? (s : Session) (node : Node) : Option BrokenCause :=
  match s.pools[node.pool]? with
  | none => some .closed
  | some p => p.broken

section
variable {s s' : Session} {i : BalancerId} {b : Balancer} {node : Node}

theorem withRule_missing (h : s.balancers[i]? = none) (rule : BalancerRule) :
    s.withRule i rule = s := by
  rw [withRule, List.modify_eq_self (List.getElem?_eq_none_iff.1 h)]

theorem withRule_eq (h : s.balancers[i]? = some b) (rule : BalancerRule) :
    s.withRule i rule = { s with balancers := s.balancers.set i { b with rule := rule } } := by
  rw [withRule, List.modify_eq_set_getElem?, h]
  rfl

theorem withRule_ruleOf (s : Session) (i : BalancerId) : s.withRule i (s.ruleOf i) = s := by
  cases hb : s.balancers[i]? with
  | none => exact withRule_missing hb _
  | some b =>
    obtain ⟨hlt, rfl⟩ := List.getElem?_eq_some_iff.1 hb
    rw [withRule_eq hb, ruleOf, hb]
    exact congrArg (fun balancers => { s with balancers }) (List.set_getElem_self hlt)

theorem getElem?_withRule (h : s.balancers[i]? = some b) (rule : BalancerRule) :
    (s.withRule i rule).balancers[i]? = some { b with rule := rule } := by
  simp [withRule, h]

/-- The last rule for a load balancer is the one it has. -/
theorem set_withRule (h : s.balancers[i]? = some b) (rule rule' : BalancerRule) :
    ({ s.withRule i rule with
      balancers := (s.withRule i rule).balancers.set i { b with rule := rule' } } : Session) =
      s.withRule i rule' := by
  rw [withRule_eq h, withRule_eq h]
  simp [List.set_set]

theorem pick_withRule (h : s.balancers[i]? = some b) (routing : Routing) (nodes : List Node)
    (rule : BalancerRule) :
    pick i routing nodes (s.withRule i rule) =
      (rule.pick routing nodes).map id (s.withRule i) := by
  simp only [pick, getElem?_withRule h]
  exact congrArg _ (set_withRule h rule _)

theorem fallback_withRule (h : s.balancers[i]? = some b) (routing : Routing) (nodes : List Node)
    (rule : BalancerRule) :
    fallback i routing nodes (s.withRule i rule) =
      (rule.fallback routing nodes).map id (s.withRule i) := by
  simp only [fallback, getElem?_withRule h]
  exact congrArg _ (set_withRule h rule _)

/-- What a plan draws from a session is what it draws from the load balancer. -/
theorem next_eq (s : Session) (i : BalancerId) (routing : Routing) (nodes : List Node) (p : Plan) :
    p.next ⟨pick i routing nodes, fallback i routing nodes⟩ s =
      (p.next (BalancerRule.chooser routing nodes) (s.ruleOf i)).mapWorld (s.withRule i) := by
  cases hb : s.balancers[i]? with
  | none =>
    rw [Draw.mapWorld, withRule_missing hb]
    cases p <;>
      simp [Plan.next, Plan.startFallback, pick, fallback, hb, ruleOf, BalancerRule.chooser,
        BalancerRule.fixed, BalancerRule.pick, BalancerRule.fallback, takeUnskipped]
  | some b =>
    have hnext : p.next ⟨pick i routing nodes, fallback i routing nodes⟩
        (s.withRule i (s.ruleOf i)) =
        (p.next (BalancerRule.chooser routing nodes) (s.ruleOf i)).mapWorld (s.withRule i) :=
      p.next_mapWorld (pick_withRule hb routing nodes) (fallback_withRule hb routing nodes) _
    rwa [withRule_ruleOf] at hnext

/-- What a load balancer is told changes how it answers. -/
theorem notify_eq (s : Session) (i : BalancerId) (routing : Routing) (feedback : Feedback) :
    s.notify i routing feedback = s.withRule i ((s.ruleOf i).learn routing feedback) := by
  cases hb : s.balancers[i]? with
  | none =>
    rw [withRule_missing hb, notify, List.modify_eq_self (List.getElem?_eq_none_iff.1 hb)]
  | some b =>
    rw [withRule_eq hb, notify, List.modify_eq_set_getElem?, ruleOf, hb]
    rfl

theorem connect_ok {connection : Connection} (h : s.connect node = (.ok connection, s')) :
    s' = s ∧ ∃ p, s.pools[node.pool]? = some p ∧ p.broken = none ∧
      connection = ⟨.pool node.pool, p.endpoint⟩ := by
  unfold connect at h
  split at h
  · cases h
  · next p hp =>
    split at h <;> cases h
    exact ⟨rfl, p, hp, ‹_›, rfl⟩

theorem connect_error {cause : BrokenCause} (h : s.connect node = (.error cause, s')) :
    s' = s ∧ s.broken? node = some cause := by
  unfold connect at h
  unfold broken?
  split at h
  · cases h
    simp [*]
  · split at h <;> cases h
    simp [*]

end

end Session

/-! ## What is done to whom -/

/-- Whether an act is a matter between a fiber and its connection, or among the fibers. -/
def Act.internal : Act → Bool
  | .issued .. | .heard .. | .claimed .. => true
  | _ => false

namespace Terms

/-- The retry session of a fiber. -/
def retrySession (t : Terms) (fiber : Nat) : RetrySessionId :=
  ⟨t.settings.retry.name, t.call, fiber⟩

/-- One thing an execution does after some acts, with its plan and the session before and after. -/
inductive Does (t : Terms) (before : List Act) :
    Plan → Session → List Act → Plan → Session → Prop
  /-- The retry policy makes a session for a fiber. -/
  | opens {p : Plan} {s : Session} (i : Nat) :
      Does t before p s [.opened i] p
        { s with consultations := s.consultations ++ [(t.retrySession i, .opened)] }
  /-- A fiber takes a node from the plan, which asks the load balancer of the terms. -/
  | draws {p : Plan} {s : Session} {d : Draw BalancerRule} (i : Nat) :
      p.next (BalancerRule.chooser t.settings.routing t.nodes) (s.ruleOf t.balancer) = d →
      Does t before p s (d.asked.map .consulted ++ (d.node.map (Act.took i)).toList) d.plan
        (s.withRule t.balancer d.world)
  /-- The pool of the node gives a connection. -/
  | begins {p : Plan} {s : Session} {pool : Pool} (n i : Nat) (node : Node) :
      s.pools[node.pool]? = some pool → pool.broken = none →
      Does t before p s [.began n i node ⟨.pool node.pool, pool.endpoint⟩] p s
  /-- The pool of the node gives none. -/
  | refused {p : Plan} {s : Session} (i : Nat) (node : Node) {cause : BrokenCause} :
      s.broken? node = some cause →
      Does t before p s [.poolFailed i node cause] p s
  /-- The load balancer of the terms is told of a result. -/
  | succeeds {p : Plan} {s : Session} (n i latency : Nat) (node : Node) :
      Does t before p s [.succeeded n i node] p
        (s.withRule t.balancer
          ((s.ruleOf t.balancer).learn t.settings.routing (.succeeded latency node)))
  /-- The load balancer of the terms is told of a failure. -/
  | fails {p : Plan} {s : Session} (n i latency : Nat) (node : Node) (error : AttemptError) :
      Does t before p s [.failed n i node error] p
        (s.withRule t.balancer
          ((s.ruleOf t.balancer).learn t.settings.routing (.failed latency node error)))
  /-- The retry policy of the terms decides on a report, by the earlier ones on the fiber and by
  what else its sessions were asked. -/
  | reports {p : Plan} {s : Session} {decision : Decision} (i : Nat) (r : Report) :
      t.settings.retry.decide ⟨t.retrySession i, s.consultations⟩
        ((Act.ofFiber i before).filterMap Act.report?) r = decision →
      Does t before p s [.reported i r decision] p
        { s with consultations := s.consultations ++ [(t.retrySession i, .reported r)] }
  | other {p : Plan} {s : Session} {a : Act} : a.internal = true → Does t before p s [a] p s

/-- One thing after the other, each after all acts before it. -/
inductive Performs (t : Terms) : List Act → Plan → Session → List Act → Plan → Session → Prop
  | none {before : List Act} {p : Plan} {s : Session} : Performs t before p s [] p s
  | cons {before acts more : List Act} {p p' p'' : Plan} {s s' s'' : Session} :
      Does t before p s acts p' s' → Performs t (before ++ acts) p' s' more p'' s'' →
      Performs t before p s (acts ++ more) p'' s''

variable {t : Terms} {before acts more : List Act} {p p' p'' : Plan} {s s' s'' : Session}

theorem Does.performs (h : t.Does before p s acts p' s') : t.Performs before p s acts p' s' := by
  simpa using Performs.cons h .none

theorem Performs.append (h : t.Performs before p s acts p' s')
    (hmore : t.Performs (before ++ acts) p' s' more p'' s'') :
    t.Performs before p s (acts ++ more) p'' s'' := by
  induction h with
  | none => simpa using hmore
  | cons hdoes _ ih =>
    rw [List.append_assoc]
    exact .cons hdoes (ih (by simpa using hmore))

end Terms

namespace Fiber

variable {t : Terms} {settings : Settings} {now : Nat} {f : Fiber} {c : Current} {s : Shared}
  {w w' : Session} {turn : Turn Session} {d : Draw Session} {node : Node} {before : List Act}

/-- What a plan draws from a session is drawn from the load balancer of the terms. -/
theorem draw_does (h : s.plan.next t.environment.chooser w = d) (i : Nat) :
    t.Does before s.plan w (d.asked.map .consulted ++ (d.node.map (Act.took i)).toList) d.plan
      d.world := by
  rw [← h, show t.environment.chooser = ⟨_, _⟩ from rfl, Session.next_eq]
  exact .draws i rfl

theorem take_does (h : s.plan.next t.environment.chooser w = d) (hn : d.node = some node)
    (i : Nat) :
    t.Does before s.plan w (d.asked.map .consulted ++ [.took i node]) d.plan d.world := by
  simpa [hn] using draw_does h i

theorem refusal_does {cause : BrokenCause}
    (h : t.environment.connect node w = (.error cause, w')) {p : Plan} (i : Nat) :
    t.Does before p w [.poolFailed i node cause] p w' := by
  obtain ⟨rfl, hbroken⟩ := Session.connect_error h
  exact .refused i node hbroken

theorem begin_performs {connection : Connection}
    (h : t.environment.connect node w = (.ok connection, w')) :
    t.Performs before s.plan w (f.begin settings now node connection s w').acts s.plan w' := by
  obtain ⟨rfl, p, hp, hbroken, rfl⟩ := Session.connect_ok h
  exact .cons (.begins _ _ node hp hbroken) (.cons (.other rfl) .none)

theorem Seeks.performs (h : Seeks t.environment settings now f s w turn) :
    t.Performs before s.plan w turn.acts turn.shared.plan turn.world := by
  induction h generalizing before with
  | @exhausted f s w d hd hn => simpa [hn] using (draw_does hd f.index).performs
  | @begins f s w w' d node connection hd hn hc =>
    exact .cons (take_does hd hn f.index) (begin_performs (s := { s with plan := d.plan }) hc)
  | @refused f s w w' d node cause turn hd hn hc _ ih =>
    have hperforms : t.Performs before s.plan w _ turn.shared.plan turn.world :=
      .cons (take_does hd hn f.index) (.cons (refusal_does hc f.index) ih)
    simpa using hperforms

theorem Obeys.performs {error : AttemptError} {decision : Decision}
    (h : Obeys t.environment settings now f c error s w decision turn) :
    t.Performs before s.plan w turn.acts turn.shared.plan turn.world := by
  cases h with
  | stop => exact .none
  | ignore => exact (Terms.Does.other rfl).performs
  | again hc => exact begin_performs hc
  | onward hc hseek => exact .cons (refusal_does hc f.index) hseek.performs
  | next hseek => exact hseek.performs

/-- A turn of a fiber whose retry session is of the terms and was told the fiber's reports. -/
theorem Takes.performs (h : Takes t.environment settings now f c s w turn)
    (hrule : f.session.rule = t.settings.retry)
    (htold : f.session.told = (Act.ofFiber f.index before).filterMap Act.report?) :
    t.Performs before s.plan w turn.acts turn.shared.plan turn.world := by
  have learns (feedback : Feedback) : t.environment.notify feedback w = _ :=
    w.notify_eq t.balancer t.settings.routing feedback
  cases h with
  | waits he hr => exact (Terms.Does.other rfl).performs
  | sends he hr => exact .cons (.other rfl) (.cons (.other rfl) .none)
  | @succeeds signal answer he hr =>
    have hsucceeded : t.Does (before ++ [.heard c.number c.attempt.stage signal]) s.plan w
        [.succeeded c.number f.index c.node] s.plan
        (t.environment.notify (.succeeded (now - c.since) c.node) w) := by
      rw [learns]
      exact .succeeds ..
    exact .cons (.other rfl) (.cons hsucceeded (.cons (.other rfl) .none))
  | @fails error heard decision turn hf hd ho =>
    rw [hrule, htold] at hd
    have hheard : t.Performs before s.plan w heard s.plan w := by
      cases hf with
      | heard he hr => exact (Terms.Does.other rfl).performs
      | timedOut hl => exact .none
    have hfailed : t.Does (before ++ heard) s.plan w [.failed c.number f.index c.node error] s.plan
        (t.environment.notify (.failed (now - c.since) c.node error) w) := by
      rw [learns]
      exact .fails ..
    generalize t.environment.notify (.failed (now - c.since) c.node error) w = v at hd ho hfailed
    have hreported : t.Does (before ++ heard ++ [.failed c.number f.index c.node error]) s.plan v
        [.reported f.index (f.reportOn settings c error) decision] s.plan
        (t.environment.consult f.index (.reported (f.reportOn settings c error)) v) := by
      refine .reports f.index _ (Eq.trans ?_ hd)
      simp [hf.ofFiber_heard, Act.fiber?, Act.report?, List.filterMap_cons]
      rfl
    simpa using hheard.append (.cons hfailed (.cons hreported ho.performs))

end Fiber

namespace Execution

variable {t : Terms} {x : Execution} {acts : List Act}

/-- What the start of an execution asks and tells. -/
theorem start_performs (t : Terms) (now : Nat) (w : Session) :
    let m := start t.environment t.settings t.speculation now w
    t.Performs [] .fresh w m.acts m.execution.shared.plan m.world := by
  obtain ⟨turn, hseek, he⟩ := start_cases t.environment t.settings t.speculation now w
  rw [he]
  exact .cons (.opens 0) hseek.performs

/-- What a step of an execution asks and tells. -/
theorem Reaches.step_performs (h : Reaches t.environment t.settings t.speculation x acts)
    (now : Nat) (w : Session) (event : Event) :
    let m := x.step t.environment t.settings now w event
    t.Performs acts x.shared.plan w m.acts m.execution.shared.plan m.world := by
  obtain ⟨_, hruns⟩ := h.runs
  rcases step_cases t.environment t.settings hruns.sound now w event with
    hnone | ⟨-, -, turn, hseek, he⟩ | ⟨-, -, f, c, turn, hf, hp, ht, he⟩
  · rw [hnone]
    exact .none
  · rw [he]
    exact .cons (.opens _) hseek.performs
  · rw [he]
    have hpose : (x.fibers.map Fiber.pose)[f.index]? = some f.pose := by simp [hf]
    exact ht.performs (hruns.rule_eq hf) (hruns.unfolds.trail.told hpose).1

end Execution

/-! ## What attempts and fibers owe to the terms -/

/-- No attempt hears that its time is up. -/
theorem Attempt.react_not_timedOut {a b : Attempt} {signal : Signal} {limit : Duration}
    (h : a.react signal = .ends b (.error (.timedOut limit))) : False := by
  cases signal with
  | acknowledged | writeFailed cause => cases h
  | delivered d =>
    cases d with
    | error cause => cases h
    | ok r =>
      simp only [react, receive, afterFirst, afterReprepare, Response.answer] at h
      grind

/-- An attempt that began among some acts at a time, with the time limit of the settings. -/
structure Current.Began (settings : Settings) (now i : Nat) (acts : List Act) (c : Current) :
    Prop where
  deadline : c.deadline = settings.timeout.map (now + ·)
  began : ∃ connection, .began c.number i c.node connection ∈ acts

/-- An attempt that goes on where it was waited for before. -/
structure Current.Continues (c d : Current) : Prop where
  number : d.number = c.number
  node : d.node = c.node
  deadline : d.deadline = c.deadline

section
variable {ω : Type} {env : Environment ω} {settings : Settings} {speculation : Option Speculation}
  {now : Nat} {x : Execution} {acts : List Act} {f : Fiber} {c d : Current} {s : Shared} {w : ω}
  {t : Turn ω}

theorem Current.Began.append {i : Nat} (h : c.Began settings now i acts) (before : List Act) :
    c.Began settings now i (before ++ acts) :=
  ⟨h.deadline, h.began.imp fun _ => List.mem_append_right before⟩

theorem Current.Continues.began {i : Nat} (h : c.Continues d)
    (hc : c.Began settings now i acts) : d.Began settings now i acts :=
  ⟨h.deadline.trans hc.deadline, by rw [h.number, h.node]; exact hc.began⟩

namespace Fiber

/-- What a fiber that takes nodes waits for began in its turn. -/
theorem Seeks.began (h : Seeks env settings now f s w t) (hd : t.fiber.phase = .attempting d) :
    d.Began settings now t.fiber.index t.acts := by
  induction h with
  | exhausted hd' hn => cases hd
  | begins hd' hn hc =>
    cases hd
    apply Current.Began.append
    exact ⟨rfl, _, List.mem_cons_self⟩
  | refused hd' hn hc _ ih => exact (ih hd).append _

/-- What a fiber waits for after a turn began in it, or was waited for before. -/
theorem Takes.began (h : Takes env settings now f c s w t) (hd : t.fiber.phase = .attempting d) :
    d.Began settings now t.fiber.index t.acts ∨ c.Continues d := by
  cases h with
  | waits he hr | sends he hr =>
    cases hd
    exact .inr ⟨rfl, rfl, rfl⟩
  | succeeds he hr => cases hd
  | fails hf hd' ho =>
    refine .inl (.append ?_ _)
    cases ho with
    | stop | ignore => cases hd
    | again hc =>
      cases hd
      exact ⟨rfl, _, List.mem_cons_self⟩
    | onward hc hseek => exact (hseek.began hd).append _
    | next hseek => exact hseek.began hd

end Fiber

namespace Execution

theorem start_began (hf : f ∈ (start env settings speculation now w).execution.fibers)
    (hd : f.phase = .attempting d) :
    d.Began settings now f.index (start env settings speculation now w).acts := by
  obtain ⟨t, hseek, he⟩ := start_cases env settings speculation now w
  obtain ⟨i, hi⟩ := List.mem_iff_getElem?.1 hf
  rw [he] at hi ⊢
  rcases settle_fibers_cases hi with ⟨-, rfl⟩ | ⟨-, hi⟩
  · exact (hseek.began hd).append _
  · rcases fork_fibers hi with hi | ⟨-, rfl⟩
    · simp [initial] at hi
    · cases hd

/-- What a fiber waits for after a step began in it, or was waited for before. -/
theorem Sound.step_began (hx : x.Sound) {event : Event}
    (hf : f ∈ (x.step env settings now w event).execution.fibers) (hd : f.phase = .attempting d) :
    d.Began settings now f.index (x.step env settings now w event).acts ∨
      ∃ g ∈ x.fibers, g.index = f.index ∧ ∃ c, g.phase = .attempting c ∧ c.Continues d := by
  have same {g : Fiber} {i : Nat} (hg : x.fibers[i]? = some g) (hd : g.phase = .attempting d) :
      ∃ g' ∈ x.fibers, g'.index = g.index ∧ ∃ c, g'.phase = .attempting c ∧ c.Continues d :=
    ⟨g, List.mem_of_getElem? hg, rfl, d, hd, rfl, rfl, rfl⟩
  obtain ⟨i, hi⟩ := List.mem_iff_getElem?.1 hf
  rcases step_cases env settings hx now w event with
    hnone | ⟨-, -, t, hseek, he⟩ | ⟨-, hv, g, c, t, hg, hp, ht, he⟩
  · rw [hnone] at hi
    exact .inr (same hi hd)
  · rw [he] at hi ⊢
    rcases settle_fibers_cases hi with ⟨-, rfl⟩ | ⟨-, hi⟩
    · exact .inl ((hseek.began hd).append _)
    · rcases fork_fibers hi with hi | ⟨-, rfl⟩
      · exact .inr (same hi hd)
      · cases hd
  · rw [he] at hi ⊢
    rcases settle_fibers_cases hi with ⟨-, rfl⟩ | ⟨-, hi⟩
    · have hindex := (ht.frame (hx.unclaimed hv)).1
      exact (ht.began hd).imp_right fun hcontinues =>
        ⟨g, List.mem_of_getElem? hg, hindex.symm, c, hp, hcontinues⟩
    · exact .inr (same hi hd)

end Execution

end

/-- An attempt that runs out of time had the time limit of the settings. -/
theorem Execution.Arises.timedOut {ω : Type} {env : Environment ω} {settings : Settings}
    {speculation : Option Speculation} {x : Execution} {acts : List Act}
    (h : Arises env settings speculation x acts) {n i : Nat} {node : Node} {limit : Duration}
    (hmem : .failed n i node (.timedOut limit) ∈ acts) :
    ∃ time, settings.timeout = some time ∧ limit = .ofMillis time := by
  obtain ⟨before, after, hacts⟩ := List.append_of_mem hmem
  rcases (h.story.failed _ _ _ _ _ _ hacts).2 with ⟨_, _, _, -, -, hreact⟩ | ⟨time, ht, he⟩
  · exact (Attempt.react_not_timedOut hreact).elim
  · cases he
    exact ⟨time, ht, rfl⟩

namespace Client

/-- The strides in which an execution performs all it does, each in the session it finds. What it
asks and tells is known to the policies after the stride. -/
inductive Served (t : Terms) : List Stride → Plan → Prop
  | nothing : Served t [] .fresh
  | stride {strides : List Stride} {p p' : Plan} {s : Stride} {w : Session} :
      Served t strides p →
      t.Performs (strides.flatMap Stride.acts) p s.before.session s.acts p' w →
      s.after.session.balancers = w.balancers →
      s.after.session.consultations = w.consultations → Served t (strides ++ [s]) p'

end Client

/-- A stride of a task at a time. -/
inductive Stride.At (n now : Nat) : Stride → Prop
  | start (c : Client) (config : StatementConfig) (call : Call) (purpose : Purpose) :
      At n now
        ⟨c, (c.startCall now n config call purpose).1, (c.startCall now n config call purpose).2⟩
  | step (c : Client) (h : Happening) : At n now ⟨c, (c.step now n h).1, (c.step now n h).2⟩

/-- What the acts of an execution owe to its terms. -/
structure Terms.Kept (t : Terms) (n : Nat) (strides : List Stride) (x : Execution) : Prop where
  /-- Its nodes come from the load balancer of the terms, its connections from the pools of the
  nodes, its decisions from the retry policy of the terms. -/
  served : Client.Served t strides x.shared.plan
  /-- It asks for connections to the nodes it was given only. -/
  routed : Journal Act.Routed (strides.flatMap Stride.acts)
  /-- Its requests are those of the call, at the consistency of the terms until a retry session
  chooses another. -/
  exchange : Execution.Exchange t.settings.call t.settings.routing.consistency
    (strides.flatMap Stride.acts)
  /-- Each attempt has the time the terms give it, from its beginning on. -/
  deadline : ∀ f ∈ x.fibers, ∀ c, f.phase = .attempting c →
    ∃ s ∈ strides, ∃ now, s.At n now ∧ c.Began t.settings now f.index s.acts
  timedOut : ∀ n i node limit,
    .failed n i node (.timedOut limit) ∈ strides.flatMap Stride.acts →
    ∃ time, t.settings.timeout = some time ∧ limit = .ofMillis time
  /-- Its fibers are launched as the speculation of the terms says. -/
  racing : ∃ since es, x.Racing t.speculation since es

namespace Session

theorem foldl_tell_policies (nodes : List Node) (k : String) (s : Session) :
    let t := nodes.foldl (fun s n => s.tell n.pool k) s
    t.balancers = s.balancers ∧ t.consultations = s.consultations := by
  induction nodes generalizing s with
  | nil => exact ⟨rfl, rfl⟩
  | cons n nodes ih => exact ih (s.tell n.pool k)

end Session

namespace Client

variable {c : Client} {n : Nat} {purpose : Purpose} {terms : Terms} {strides : List Stride}
  {x : Execution}

/-- Taking over an execution that moved leaves the policies as they are. -/
theorem settling_policies {m : Moved Session} :
    (settling c n terms purpose m).after.session.balancers = m.world.balancers ∧
      (settling c n terms purpose m).after.session.consultations = m.world.consultations := by
  unfold settling
  cases hr : m.execution.result? with
  | none => simp [settleExecution_open hr]
  | some r =>
    rw [settleExecution_over hr]
    cases hk : switchOf? r with
    | none => simp [switchKeyspace_none hk]
    | some k =>
      simp only [switchKeyspace_some hk]
      exact Session.foldl_tell_policies m.world.nodes k { m.world with keyspace := some k }

/-- Strides are followed by one in which a client takes over what was performed. -/
theorem Served.settling {p : Plan} {m : Moved Session} (h : Served terms strides p)
    (hperforms : terms.Performs (strides.flatMap Stride.acts) p c.session m.acts
      m.execution.shared.plan m.world) :
    Served terms (strides ++ [Client.settling c n terms purpose m]) m.execution.shared.plan :=
  .stride h (by rwa [settling_acts]) settling_policies.1 settling_policies.2

/-- Everything an execution asks and tells is asked and told under its terms. -/
theorem Course.served (h : Course n purpose terms strides x) :
    Served terms strides x.shared.plan := by
  induction h with
  | start c now config call hterms =>
    subst hterms
    exact Served.nothing.settling (Execution.start_performs _ now c.session)
  | @step strides last x c now h hcourse hlast hc ih =>
    have hlaw := hcourse.law
    rcases hlaw.stride_cases hlast hc now h with ⟨hstep, hx⟩ | ⟨-, e, hstep, hx⟩
    · rw [hstep, hx]
      exact .stride ih .none rfl rfl
    · rw [hstep, hx]
      exact ih.settling (hlaw.reaches.step_performs now c.session e)

/-- Every attempt of a course began in one of its strides, and has its time from then on. -/
theorem Course.deadline (h : Course n purpose terms strides x) {f : Fiber} (hf : f ∈ x.fibers)
    {d : Current} (hd : f.phase = .attempting d) :
    ∃ s ∈ strides, ∃ now, s.At n now ∧ d.Began terms.settings now f.index s.acts := by
  induction h generalizing f d with
  | start c now config call hterms =>
    subst hterms
    refine ⟨_, List.mem_singleton_self _, now, .start c config call purpose, ?_⟩
    change d.Began _ now f.index (settling c n _ purpose _).acts
    rw [settling_acts]
    exact Execution.start_began hf hd
  | @step strides last x c now h hcourse hlast hc ih =>
    have hlaw := hcourse.law
    obtain ⟨_, hruns⟩ := hlaw.reaches.runs
    rcases hlaw.stride_cases hlast hc now h with ⟨-, hx⟩ | ⟨-, e, hstep, hx⟩
    · rw [hx] at hf
      obtain ⟨s, hs, hbegan⟩ := ih hf hd
      exact ⟨s, List.mem_append_left _ hs, hbegan⟩
    · rw [hx] at hf
      rcases hruns.sound.step_began hf hd with hbegan | ⟨g, hg, hindex, b, hb, hcontinues⟩
      · refine ⟨_, List.mem_concat_self, now, .step c h, ?_⟩
        rw [hstep]
        change d.Began _ now f.index (settling c n _ purpose _).acts
        rwa [settling_acts]
      · obtain ⟨s, hs, time, hat, hbegan⟩ := ih hg hb
        rw [hindex] at hbegan
        exact ⟨s, List.mem_append_left _ hs, time, hat, hcontinues.began hbegan⟩

/-- **An execution keeps to its terms**, whatever becomes of the session in between. -/
theorem Course.kept (h : Course n purpose terms strides x) : terms.Kept n strides x := by
  have hreaches := h.law.reaches
  obtain ⟨since, hruns⟩ := hreaches.runs
  obtain ⟨es, hracing⟩ := hruns.unfolds.racing
  exact
    { served := h.served
      routed := hruns.unfolds.trail.journal_routed
      exchange := hruns.unfolds.exchanges
      deadline := fun _ hf _ => h.deadline hf
      timedOut := fun _ _ _ _ => hreaches.arises.timedOut
      racing := ⟨since, es, hracing⟩ }

end Client

end ClusterClient
