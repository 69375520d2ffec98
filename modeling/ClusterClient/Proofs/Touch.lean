import ClusterClient.Client.Basic
import ClusterClient.Proofs.Run

/-!
# What is done to a session

An execution asks the policies and the pools of its session and changes nothing of it but what the
policies know (`Execution.step_world`, `Session.environment_keeps`). So a step of a client touches
its session in one of three ways (`Session.Touched`): all but what the policies know is kept, the
keyspace is switched, or a list of nodes is taken over. `Client.start_touched` and
`Client.step_touched` say so.

What a switch does to the pools is `Session.useKeyspace_pools`.
-/

namespace ClusterClient

/-- A view of the world that no question to a policy or a pool changes, and nothing a policy is
told. -/
structure Environment.Keeps {ω β : Type} (env : Environment ω) (view : ω → β) : Prop where
  pick : ∀ w, view (env.chooser.pick w).2 = view w
  fallback : ∀ w, view (env.chooser.fallback w).2 = view w
  connect : ∀ node w, view (env.connect node w).2 = view w
  notify : ∀ feedback w, view (env.notify feedback w) = view w
  consult : ∀ i question w, view (env.consult i question w) = view w

section
variable {ω β : Type} {env : Environment ω} {view : ω → β} {settings : Settings} {now : Nat}

theorem Plan.next_world (henv : env.Keeps view) (p : Plan) (w : ω) :
    view (p.next env.chooser w).world = view w := by
  cases p with
  | fresh =>
    have hpick := henv.pick w
    rcases h : env.chooser.pick w with ⟨_ | n, w'⟩
    · rw [h] at hpick
      simp only [next, h]
      exact (henv.fallback w').trans hpick
    · rw [h] at hpick
      simp only [next, h]
      exact hpick
  | picked n => exact henv.fallback w
  | fallback skipped nodes => rfl

namespace Fiber

theorem visit_world (henv : env.Keeps view) (f : Fiber) (node : Node) (s : Shared) (w : ω) :
    view (f.visit env settings now node s w).turn.world = view w := by
  have hconn := henv.connect node w
  unfold visit
  split
  · rfl
  · split <;> next h => rw [h] at hconn; exact hconn

theorem seek_world (henv : env.Keeps view) (f : Fiber) (s : Shared) (w : ω) :
    view (f.seek env settings now s w).world = view w := by
  fun_induction seek env settings now f s w with
  | case1 f s w draw asked h => exact Plan.next_world henv s.plan w
  | case2 f s w draw asked node h closer v turn ih =>
    have hdraw : view draw.world = view w := Plan.next_world henv s.plan w
    have hvisit : view v.turn.world = view draw.world := visit_world henv f node _ draw.world
    rw [Turn.after_world]
    by_cases hv : v.refused = true
    · rw [show turn = _ from if_pos hv, Turn.after_world, ih, hvisit, hdraw]
    · rw [show turn = _ from if_neg hv, hvisit, hdraw]

theorem complete_world (f : Fiber) (c : Current) (answer : Answer) (s : Shared) (w : ω) :
    (f.complete c answer s w).world = w := by
  unfold complete
  split <;> rfl

theorem obey_world (henv : env.Keeps view) (f : Fiber) (c : Current) (error : AttemptError)
    (s : Shared) (w : ω) (decision : Decision) :
    view (f.obey env settings now c error s w decision).world = view w := by
  cases decision with
  | sameNode consistency =>
    have hvisit (g : Fiber) : view (g.visit env settings now c.node s w).turn.world = view w :=
      visit_world henv g c.node s w
    simp only [obey]
    split
    · rw [Turn.after_world, seek_world henv, hvisit]
    · exact hvisit _
  | nextNode consistency => exact seek_world henv _ s w
  | stop => rfl
  | ignore => exact congrArg view (complete_world f c .void s w)

theorem fail_world (henv : env.Keeps view) (f : Fiber) (c : Current) (error : AttemptError)
    (s : Shared) (w : ω) : view (f.fail env settings now c error s w).world = view w :=
  (obey_world henv _ c error _ _ _).trans ((henv.consult ..).trans (henv.notify ..))

theorem succeed_world (henv : env.Keeps view) (f : Fiber) (c : Current) (answer : Answer)
    (s : Shared) (w : ω) : view (f.succeed env now c answer s w).world = view w :=
  (congrArg view (complete_world f c answer s _)).trans (henv.notify ..)

theorem react_world (henv : env.Keeps view) (f : Fiber) (c : Current) (signal : Signal)
    (s : Shared) (w : ω) : view (f.react env settings now c signal s w).world = view w := by
  unfold react
  split
  · rfl
  · rfl
  · exact succeed_world henv f _ _ s w
  · exact fail_world henv f _ _ s w

end Fiber

namespace Execution

theorem openFiber_world (henv : env.Keeps view) (x : Execution) (w : ω) :
    view (x.openFiber env settings now w).world = view w :=
  (Fiber.seek_world henv _ _ _).trans (henv.consult ..)

theorem start_world (henv : env.Keeps view) (speculation : Option Speculation) (w : ω) :
    view (start env settings speculation now w).world = view w :=
  openFiber_world henv _ w

/-- An execution leaves alone what no question to a policy or a pool changes. -/
theorem step_world (henv : env.Keeps view) (x : Execution) (w : ω) (event : Event) :
    view (x.step env settings now w event).world = view w := by
  unfold step
  split
  · rfl
  · cases event with
    | launch =>
      dsimp only
      split
      · exact openFiber_world henv _ w
      · rfl
    | signal n stage signal =>
      dsimp only
      split
      · rfl
      · split
        · exact Fiber.react_world henv _ _ _ _ w
        · rfl
    | expire n =>
      dsimp only
      split
      · exact Fiber.fail_world henv _ _ _ _ w
      · rfl

end Execution

end

namespace Session

/-- A session apart from what its policies know. -/
def apart (s : Session) : Session :=
  { s with balancers := [], consultations := [] }

theorem apart_eq {s t : Session} (h : s.apart = t.apart) :
    s.nodes = t.nodes ∧ s.keyspace = t.keyspace ∧ s.pools = t.pools := by
  cases s
  cases t
  simp_all [apart]

/-- What the policies know is all that an execution changes of a session. -/
theorem environment_keeps (balancer : BalancerId) (routing : Routing) (nodes : List Node)
    (policy : String) (call : Nat) :
    (environment balancer routing nodes policy call).Keeps apart where
  pick s := by
    simp only [environment, pick]
    split <;> rfl
  fallback s := by
    simp only [environment, fallback]
    split <;> rfl
  connect node s := by
    simp only [environment, connect]
    split
    · rfl
    · split <;> rfl
  notify feedback s := rfl
  consult i question s := rfl

@[simp] theorem tell_nodes (s : Session) (pool : PoolId) (k : String) :
    (s.tell pool k).nodes = s.nodes := rfl

@[simp] theorem tell_keyspace (s : Session) (pool : PoolId) (k : String) :
    (s.tell pool k).keyspace = s.keyspace := rfl

/-- Telling the pools of some nodes changes nothing but what those pools were told. -/
theorem foldl_tell (nodes : List Node) (k : String) (s : Session) :
    let t := nodes.foldl (fun s n => s.tell n.pool k) s
    t.nodes = s.nodes ∧ t.keyspace = s.keyspace ∧
      t.pools = s.pools.mapIdx fun i p =>
        { p with told := p.told ++ .replicate (nodes.countP (·.pool = i)) k } := by
  induction nodes generalizing s with
  | nil =>
    refine ⟨rfl, rfl, List.ext_getElem? fun i => ?_⟩
    cases h : s.pools[i]? <;> simp [h]
  | cons n nodes ih =>
    obtain ⟨hnodes, hkeyspace, hpools⟩ := ih (s.tell n.pool k)
    refine ⟨hnodes, hkeyspace, hpools.trans (List.ext_getElem? fun i => ?_)⟩
    simp only [tell, List.getElem?_mapIdx, List.getElem?_modify]
    cases s.pools[i]? with
    | none => split <;> rfl
    | some p =>
      by_cases hi : n.pool = i
      · simp [hi, List.replicate_succ]
      · simp [hi]

@[simp] theorem useKeyspace_nodes (s : Session) (k : String) :
    (s.useKeyspace k).1.nodes = s.nodes :=
  (foldl_tell s.nodes k { s with keyspace := some k }).1

@[simp] theorem useKeyspace_keyspace (s : Session) (k : String) :
    (s.useKeyspace k).1.keyspace = some k :=
  (foldl_tell s.nodes k { s with keyspace := some k }).2.1

/-- A switch tells each pool the keyspace once for every node it serves. -/
theorem useKeyspace_pools (s : Session) (k : String) :
    (s.useKeyspace k).1.pools = s.pools.mapIdx fun i p =>
      { p with told := p.told ++ .replicate (s.nodes.countP (·.pool = i)) k } :=
  (foldl_tell s.nodes k { s with keyspace := some k }).2.2

theorem useKeyspace_acts (s : Session) (k : String) :
    (s.useKeyspace k).2 = s.nodes.map fun n => .told n.pool k := rfl

/-- What one step of a client does to a session, and to its pools. -/
inductive Touched (s : Session) : Session → List PoolAct → Prop
  | kept {t : Session} : t.apart = s.apart → Touched s t []
  | switched {t : Session} (k : String) :
      t.apart = s.apart → Touched s (t.useKeyspace k).1 (t.useKeyspace k).2
  | adopted (provide : Address → Pool) (infos : List NodeInfo) :
      Touched s (s.adopt provide infos).1 (s.adopt provide infos).2

end Session

/-- What a notice says was done to a pool. -/
@[simp] def Notice.pool? : Notice → Option PoolAct
  | .pool act => some act
  | _ => none

/-- What a notice says an execution did. -/
@[simp] def Notice.act? : Notice → Option Act
  | .execution _ act => some act
  | _ => none

namespace Client

variable {c : Client} {n : Nat} {terms : Terms} {purpose : Purpose} {m : Moved Session}

@[simp] theorem flatMap_issued_act? (acts : List Act) :
    (acts.flatMap (issued n terms)).filterMap Notice.act? = acts := by
  induction acts with
  | nil => rfl
  | cons a acts ih =>
    rw [List.flatMap_cons, List.filterMap_append, ih]
    cases a <;> rfl

@[simp] theorem flatMap_issued_pool? (acts : List Act) :
    (acts.flatMap (issued n terms)).filterMap Notice.pool? = [] := by
  induction acts with
  | nil => rfl
  | cons a acts ih =>
    rw [List.flatMap_cons, List.filterMap_append, ih]
    cases a <;> rfl

@[simp] theorem filterMap_pool?_pool (acts : List PoolAct) :
    acts.filterMap (Notice.pool? ∘ Notice.pool) = acts := by
  induction acts with
  | nil => rfl
  | cons a acts ih => simp [ih]

@[simp] theorem filterMap_pool?_complaint (texts : List String) :
    texts.filterMap (Notice.pool? ∘ Notice.complaint) = [] := by
  simp

@[simp] theorem filterMap_pool?_finished (n : Nat) (o : Outcome) :
    [Notice.finished n o].filterMap Notice.pool? = [] := rfl

@[simp] theorem filterMap_act?_finished (n : Nat) (o : Outcome) :
    [Notice.finished n o].filterMap Notice.act? = [] := rfl

@[simp] theorem filterMap_act?_pool (acts : List PoolAct) :
    acts.filterMap (Notice.act? ∘ Notice.pool) = [] := by
  simp

@[simp] theorem put_session (c : Client) (n : Nat) (t : Task) :
    (c.put n t).session = c.session := by
  unfold put
  split <;> rfl

@[simp] theorem drop_session (c : Client) (n : Nat) : (c.drop n).session = c.session := rfl

@[simp] theorem task?_put (c : Client) (n : Nat) (t : Task) : (c.put n t).task? n = some t := by
  unfold put task?
  split
  · next h =>
    dsimp only
    generalize c.tasks = tasks at h ⊢
    induction tasks with
    | nil => cases h
    | cons entry tasks ih =>
      obtain ⟨k, old⟩ := entry
      by_cases hk : k = n
      · simp [hk]
      · have hn : (n == k) = false := by simpa using Ne.symm hk
        simp only [List.lookup_cons, hn, List.map_cons, if_neg hk] at h ⊢
        exact ih h
  · next h =>
    rw [Option.not_isSome_iff_eq_none] at h
    simp [List.lookup_append, h]

@[simp] theorem task?_drop (c : Client) (n : Nat) : (c.drop n).task? n = none := by
  simp only [task?, drop, List.lookup_eq_none_iff, List.mem_filter]
  rintro ⟨k, t⟩ ⟨-, hk⟩
  have hk : k ≠ n := by simpa using hk
  simpa using hk.symm

/-! ## Executions -/

/-- The keyspace a result switches to. -/
def switchOf? : Except ExecutionError (Answer × ExecutionInfo) → Option String
  | .ok (answer, _) => answer.body.keyspace?
  | .error _ => none

theorem switchKeyspace_some {r : Except ExecutionError (Answer × ExecutionInfo)} {k : String}
    (h : switchOf? r = some k) (s : Session) : switchKeyspace s r = s.useKeyspace k := by
  cases r with
  | error e => cases h
  | ok a =>
    have h : a.1.body.keyspace? = some k := h
    simp [switchKeyspace, h]

theorem switchKeyspace_none {r : Except ExecutionError (Answer × ExecutionInfo)}
    (h : switchOf? r = none) (s : Session) : switchKeyspace s r = (s, []) := by
  cases r with
  | error e => rfl
  | ok a =>
    have h : a.1.body.keyspace? = none := h
    simp [switchKeyspace, h]

/-- An execution that goes on is kept as a task. -/
theorem settleExecution_open (h : m.execution.result? = none) :
    c.settleExecution n terms purpose m =
      (({ c with session := m.world } : Client).put n (.executing terms purpose m.execution),
        m.acts.flatMap (issued n terms)) := by
  simp [settleExecution, h]

/-- An execution that has its result is over, and a switch of the keyspace takes effect. -/
theorem settleExecution_over {r : Except ExecutionError (Answer × ExecutionInfo)}
    (h : m.execution.result? = some r) :
    c.settleExecution n terms purpose m =
      ({ c.drop n with session := (switchKeyspace m.world r).1 },
        m.acts.flatMap (issued n terms) ++ (switchKeyspace m.world r).2.map .pool ++
          [.finished n (purpose.outcome r)]) := by
  simp [settleExecution, h, drop]

theorem settleExecution_touched (hw : m.world.apart = c.session.apart) :
    c.session.Touched (c.settleExecution n terms purpose m).1.session
      ((c.settleExecution n terms purpose m).2.filterMap Notice.pool?) := by
  cases hr : m.execution.result? with
  | none =>
    rw [settleExecution_open hr]
    simpa using .kept hw
  | some r =>
    rw [settleExecution_over hr]
    cases hk : switchOf? r with
    | none => simpa [switchKeyspace_none hk] using .kept hw
    | some k => simpa [switchKeyspace_some hk] using .switched k hw

theorem startCall_touched (c : Client) (now n : Nat) (config : StatementConfig) (call : Call)
    (purpose : Purpose) :
    c.session.Touched (c.startCall now n config call purpose).1.session
      ((c.startCall now n config call purpose).2.filterMap Notice.pool?) :=
  settleExecution_touched (Execution.start_world (Session.environment_keeps ..) _ _)

/-! ## Readings of the nodes -/

theorem finishListing_touched (c : Client) (n : Nat) (provide : Option (Address → Pool))
    (r : Except MetadataError Reading) :
    c.session.Touched (c.finishListing n provide r).1.session
      ((c.finishListing n provide r).2.filterMap Notice.pool?) := by
  cases r with
  | error e => cases provide <;> exact .kept rfl
  | ok reading =>
    cases provide with
    | none => simpa [finishListing] using .kept rfl
    | some provide =>
      simpa [finishListing] using .adopted provide reading.nodes

theorem settleListing_touched (c : Client) (n : Nat) (l : Listing)
    (provide : Option (Address → Pool)) :
    c.session.Touched (c.settleListing n l provide).1.session
      ((c.settleListing n l provide).2.filterMap Notice.pool?) := by
  unfold settleListing
  split
  · simpa using .kept rfl
  · exact finishListing_touched c n provide _

theorem startListing_touched (c : Client) (now n : Nat) (provide : Option (Address → Pool)) :
    c.session.Touched (c.startListing now n provide).1.session
      ((c.startListing now n provide).2.filterMap Notice.pool?) := by
  unfold startListing
  split
  · exact finishListing_touched ..
  · simpa [put?] using .kept rfl

theorem startLookup_touched (c : Client) (n : Nat) (connection : Connection) (l : Lookup) :
    c.session.Touched (c.startLookup n connection l).1.session
      ((c.startLookup n connection l).2.filterMap Notice.pool?) := by
  simpa [startLookup, put?] using .kept rfl

theorem settleLookup_touched (c : Client) (n : Nat) (l : Lookup) :
    c.session.Touched (c.settleLookup n l).1.session
      ((c.settleLookup n l).2.filterMap Notice.pool?) := by
  unfold settleLookup
  split
  · simpa using .kept rfl
  · exact .kept rfl
  · simpa using .kept rfl

theorem begin_touched (c : Client) (now n : Nat) (o : Operation) :
    c.session.Touched (c.begin now n o).1.session ((c.begin now n o).2.filterMap Notice.pool?) := by
  cases o with
  | query s values paging => exact startCall_touched ..
  | prepare s => exact startCall_touched ..
  | execute s values paging => exact startCall_touched ..
  | useKeyspace name caseSensitive =>
    simp only [begin]
    split
    · exact .kept rfl
    · exact startCall_touched ..
  | refreshCluster provide => exact startListing_touched ..
  | listNodes => exact startListing_touched ..
  | refreshNode address broadcast =>
    simp only [begin]
    split
    · exact .kept rfl
    · split
      · exact .kept rfl
      · exact startLookup_touched ..
  | findNode address =>
    simp only [begin]
    split
    · exact .kept rfl
    · exact startLookup_touched ..
  | openControl => exact .kept rfl
  | inquire connection text values limit pageSize => simpa [begin] using .kept rfl

/-- Beginning an operation touches the session in one of the three ways. -/
theorem start_touched (c : Client) (now : Nat) (o : Operation) :
    c.session.Touched (c.start now o).1.session ((c.start now o).2.filterMap Notice.pool?) :=
  begin_touched { c with nextTask := c.nextTask + 1 } now c.nextTask o

theorem advance_touched (c : Client) (now n : Nat) (t : Task) (h : Happening) :
    c.session.Touched (c.advance now n t h).1.session
      ((c.advance now n t h).2.filterMap Notice.pool?) := by
  cases t with
  | executing terms purpose x =>
    simp only [advance]
    split
    · exact .kept rfl
    · exact settleExecution_touched (Execution.step_world (Session.environment_keeps ..) _ _ _)
  | listing l provide =>
    simp only [advance]
    split
    · simpa [put?] using .kept rfl
    · exact settleListing_touched ..
  | looking l => exact settleLookup_touched ..
  | inquiring i =>
    simp only [advance, settleInquiry]
    split
    · simpa using .kept rfl
    · exact .kept rfl

/-- So does every step of an operation. -/
theorem step_touched (c : Client) (now n : Nat) (h : Happening) :
    c.session.Touched (c.step now n h).1.session ((c.step now n h).2.filterMap Notice.pool?) := by
  unfold step
  split
  · exact .kept rfl
  · exact advance_touched c now n _ h

end Client

end ClusterClient
