import ClusterClient.Proofs.Asking
import ClusterClient.Proofs.Handles
import ClusterClient.Proofs.Preparing

/-!
# Remapping handles while executions run

The handle of a statement, or that of its session, is read once, when the execution starts; what the
profile settles goes into the terms of the execution (`Terms.Under`). Policies and pools know
nothing of handles (`Environment.Ignores`), so an execution takes the same steps wherever they point
later on (`Environment.Ignores.step`), and so does the operation it belongs to
(`Client.Errand.remapping`).

`History.handles_alias` says how handles stand to each other, whatever is done with them, and what
an execution makes of them.
-/

namespace ClusterClient

section
variable {ω : Type} {env : Environment ω} {φ : ω → ω}

/-- A change of the world that policies and pools do not notice. -/
structure Environment.Ignores (env : Environment ω) (φ : ω → ω) : Prop where
  pick : ∀ w, env.chooser.pick (φ w) = (env.chooser.pick w).map id φ
  fallback : ∀ w, env.chooser.fallback (φ w) = (env.chooser.fallback w).map id φ
  connect : ∀ node w, env.connect node (φ w) = (env.connect node w).map id φ
  notify : ∀ feedback w, env.notify feedback (φ w) = φ (env.notify feedback w)
  lore : ∀ i w, env.lore i (φ w) = env.lore i w
  consult : ∀ i question w, env.consult i question (φ w) = φ (env.consult i question w)

/-- A turn that ends in the changed world. -/
def Turn.mapWorld (φ : ω → ω) (t : Turn ω) : Turn ω := { t with world := φ t.world }

/-- A visit that ends in the changed world. -/
def Visit.mapWorld (φ : ω → ω) (v : Visit ω) : Visit ω := { v with turn := v.turn.mapWorld φ }

/-- An execution that moved, in the changed world. -/
def Moved.mapWorld (φ : ω → ω) (m : Moved ω) : Moved ω := { m with world := φ m.world }

namespace Environment.Ignores

variable (settings : Settings) (now : Nat)

theorem visit (h : env.Ignores φ) (f : Fiber) (node : Node) (s : Shared) (w : ω) :
    f.visit env settings now node s (φ w) = (f.visit env settings now node s w).mapWorld φ := by
  unfold Fiber.visit
  split
  · rfl
  · rw [h.connect]
    rcases env.connect node w with ⟨_ | connection, w⟩ <;> rfl

theorem seek (h : env.Ignores φ) (f : Fiber) (s : Shared) (w : ω) :
    f.seek env settings now s (φ w) = (f.seek env settings now s w).mapWorld φ := by
  fun_induction Fiber.seek env settings now f s w with
  | case1 f s w draw asked hnone =>
    have hdraw := s.plan.next_mapWorld h.pick h.fallback w
    rw [Fiber.seek_none (by rw [hdraw]; exact hnone), hdraw]
    rfl
  | case2 f s w draw asked node hnode closer v turn ih =>
    have hdraw := s.plan.next_mapWorld h.pick h.fallback w
    have hvisit := h.visit settings now f node { s with plan := draw.plan } draw.world
    rw [Fiber.seek_some (v := v.mapWorld φ) (by rw [hdraw]; exact hnode)
      (by rw [hdraw]; exact hvisit), hdraw]
    by_cases hv : v.refused = true
    · rw [if_pos (show (v.mapWorld φ).refused = true from hv), show turn = _ from if_pos hv]
      exact congrArg (fun t => (t.after v.turn.acts).after (asked ++ [.took f.index node])) ih
    · rw [if_neg (show ¬ (v.mapWorld φ).refused = true from hv), show turn = _ from if_neg hv]
      rfl

theorem complete (f : Fiber) (c : Current) (answer : Answer) (s : Shared) (w : ω) :
    f.complete c answer s (φ w) = (f.complete c answer s w).mapWorld φ := by
  unfold Fiber.complete
  split <;> rfl

theorem obey (h : env.Ignores φ) (f : Fiber) (c : Current) (error : AttemptError) (s : Shared)
    (w : ω) (decision : Decision) :
    f.obey env settings now c error s (φ w) decision =
      (f.obey env settings now c error s w decision).mapWorld φ := by
  cases decision with
  | sameNode consistency =>
    simp only [Fiber.obey, h.visit]
    generalize Fiber.visit env settings now _ c.node s w = v
    by_cases hv : v.refused = true
    · rw [if_pos (show (v.mapWorld φ).refused = true from hv), if_pos hv]
      exact congrArg (·.after v.turn.acts) (h.seek ..)
    · rw [if_neg (show ¬ (v.mapWorld φ).refused = true from hv), if_neg hv]
      rfl
  | nextNode consistency => exact h.seek ..
  | stop => rfl
  | ignore => exact complete ..

theorem fail (h : env.Ignores φ) (f : Fiber) (c : Current) (error : AttemptError) (s : Shared)
    (w : ω) : f.fail env settings now c error s (φ w) =
      (f.fail env settings now c error s w).mapWorld φ := by
  simp only [Fiber.fail, h.notify, h.lore, h.consult, h.obey]
  rfl

theorem react (h : env.Ignores φ) (f : Fiber) (c : Current) (signal : Signal) (s : Shared) (w : ω) :
    f.react env settings now c signal s (φ w) =
      (f.react env settings now c signal s w).mapWorld φ := by
  unfold Fiber.react
  split
  · rfl
  · rfl
  · simp only [Fiber.succeed, h.notify, complete (φ := φ)]
    rfl
  · rw [h.fail]
    rfl

theorem openFiber (h : env.Ignores φ) (x : Execution) (w : ω) :
    x.openFiber env settings now (φ w) = (x.openFiber env settings now w).mapWorld φ := by
  simp only [Execution.openFiber, h.consult, h.seek]
  rfl

/-- An execution takes the same step. -/
theorem step (h : env.Ignores φ) (x : Execution) (w : ω) (event : Event) :
    x.step env settings now (φ w) event = (x.step env settings now w event).mapWorld φ := by
  unfold Execution.step
  split
  · rfl
  · cases event with
    | launch =>
      dsimp only
      split
      · exact h.openFiber ..
      · rfl
    | signal n stage signal =>
      dsimp only
      split
      · rfl
      · split
        · rw [h.react]
          rfl
        · rfl
    | expire n =>
      dsimp only
      split
      · rw [Fiber.expire, Fiber.expire, h.fail]
        rfl
      · rfl

end Environment.Ignores

end

/-- The session with other targets of the handles. -/
def Session.remapped (ts : Targets) (s : Session) : Session := { s with targets := ts }

/-- Neither policies nor pools know of handles. -/
theorem Session.environment_ignores (balancer : BalancerId) (routing : Routing)
    (nodes : List Node) (policy : String) (call : Nat) (ts : Targets) :
    (environment balancer routing nodes policy call).Ignores (remapped ts) where
  pick s := by
    simp only [environment, pick, remapped]
    split <;> rfl
  fallback s := by
    simp only [environment, fallback, remapped]
    split <;> rfl
  connect node s := by
    simp only [environment, connect, remapped]
    split
    · rfl
    · split <;> rfl
  notify feedback s := rfl
  lore i s := rfl
  consult i question s := rfl

namespace Client

/-- The client with other targets of the handles. -/
def remapped (ts : Targets) (c : Client) : Client := { c with session := c.session.remapped ts }

end Client

/-- A stride at which the handles point elsewhere. -/
def Stride.remapped (ts : Targets) (s : Stride) : Stride :=
  ⟨s.before.remapped ts, s.after.remapped ts, s.notices⟩

namespace Client

@[simp] theorem remapped_task? (ts : Targets) (c : Client) (n : Nat) :
    (c.remapped ts).task? n = c.task? n := rfl

@[simp] theorem remapped_session (ts : Targets) (c : Client) :
    (c.remapped ts).session = c.session.remapped ts := rfl

theorem put_remapped (ts : Targets) (c : Client) (n : Nat) (t : Task) :
    (c.remapped ts).put n t = (c.put n t).remapped ts := by
  unfold put
  rw [remapped_task?]
  split <;> rfl

theorem foldl_tell_remapped (ts : Targets) (nodes : List Node) (k : String) (s : Session) :
    nodes.foldl (fun s n => s.tell n.pool k) (s.remapped ts) =
      (nodes.foldl (fun s n => s.tell n.pool k) s).remapped ts := by
  induction nodes generalizing s with
  | nil => rfl
  | cons n nodes ih => exact ih (s.tell n.pool k)

theorem switchKeyspace_remapped (ts : Targets) (s : Session)
    (r : Except ExecutionError (Answer × ExecutionInfo)) :
    switchKeyspace (s.remapped ts) r = (switchKeyspace s r).map (Session.remapped ts) id := by
  unfold switchKeyspace
  split
  · split
    · next k _ =>
      exact congrArg (·, _) (foldl_tell_remapped ts s.nodes k { s with keyspace := some k })
    · rfl
  · rfl

theorem settleExecution_remapped (ts : Targets) (c : Client) (n : Nat) (terms : Terms)
    (purpose : Purpose) (m : Moved Session) :
    (c.remapped ts).settleExecution n terms purpose (m.mapWorld (Session.remapped ts)) =
      (c.settleExecution n terms purpose m).map (remapped ts) id := by
  have hresult : (m.mapWorld (Session.remapped ts)).execution.result? = m.execution.result? := rfl
  cases hr : m.execution.result? with
  | none =>
    rw [settleExecution_open hr, settleExecution_open (hresult.trans hr)]
    exact congrArg (·, _) (put_remapped ts { c with session := m.world } n _)
  | some r =>
    have hswitch := switchKeyspace_remapped ts m.world r
    rw [settleExecution_over hr, settleExecution_over (hresult.trans hr),
      show switchKeyspace (m.mapWorld (Session.remapped ts)).world r = _ from hswitch]
    rfl

/-- A step of an execution's task goes the same wherever the handles point. -/
theorem step_remapped {c : Client} {n : Nat}
    (htask : ∀ t, c.task? n = some t → ∃ terms purpose x, t = .executing terms purpose x)
    (ts : Targets) (now : Nat) (h : Happening) :
    (c.remapped ts).step now n h = (c.step now n h).map (remapped ts) id := by
  cases ht : c.task? n with
  | none =>
    rw [step_none ht, step_none (c := c.remapped ts) ht]
    rfl
  | some t =>
    obtain ⟨terms, purpose, x, rfl⟩ := htask t ht
    rw [step, step, remapped_task?, ht]
    simp only [advance]
    cases executionEvent? h with
    | none => rfl
    | some e =>
      have hignores : terms.environment.Ignores (Session.remapped ts) :=
        Session.environment_ignores ..
      have hstep := hignores.step terms.settings now x c.session e
      dsimp only
      rw [remapped_session, hstep]
      exact settleExecution_remapped ..

/-- The strides of an operation with the handles pointing elsewhere from the second on. -/
def remapping (ts : Nat → Targets) (strides : List Stride) : List Stride :=
  strides.mapIdx fun i s => if i = 0 then s else s.remapped (ts i)

section
variable {n : Nat} {o : Operation} {strides : List Stride} {hs : List Happening} {first : Stride}
  {config : StatementConfig} {call : Call} {purpose : Purpose}

theorem remapping_notices (ts : Nat → Targets) (strides : List Stride) :
    (remapping ts strides).flatMap Stride.notices = strides.flatMap Stride.notices := by
  have hnotices : (remapping ts strides).map Stride.notices = strides.map Stride.notices := by
    refine List.ext_getElem? fun i => ?_
    simp only [remapping, List.getElem?_map, List.getElem?_mapIdx, Option.map_map]
    refine Option.map_congr fun s _ => ?_
    dsimp only [Function.comp_apply]
    split <;> rfl
  rw [List.flatMap_def, hnotices, List.flatMap_def]

/-- An execution goes the same wherever the handles point once it has started. -/
theorem Errand.remapping (h : Errand n o strides hs)
    (hcall : o.call? = some (config, call, purpose)) (ts : Nat → Targets) :
    Errand n o (Client.remapping ts strides) hs := by
  induction h with
  | start c now hc => exact .start c now hc
  | @step strides last hs c now happening h hlast hc ih =>
    have hne : strides.length ≠ 0 := by
      rintro hnil
      simp [List.length_eq_zero_iff.1 hnil] at hlast
    obtain ⟨terms, x, hcourse⟩ := h.course hcall
    have htask := hc.trans (hcourse.law.task last hlast)
    have hstep := step_remapped (c := c) (n := n) (fun t ht => by
      rw [htask] at ht
      split at ht
      · exact ⟨_, _, _, (Option.some.inj ht).symm⟩
      · cases ht) (ts strides.length) now happening
    have hlast' : (Client.remapping ts strides).getLast? = some (if strides.length - 1 = 0 then last
        else last.remapped (ts (strides.length - 1))) := by
      simp [Client.remapping, List.getLast?_mapIdx, hlast]
    have hnext := ih.step (c.remapped (ts strides.length)) now happening hlast'
      (by split <;> exact hc)
    have hconcat (s : Stride) : Client.remapping ts (strides ++ [s]) =
        Client.remapping ts strides ++ [s.remapped (ts strides.length)] := by
      simp [Client.remapping, List.mapIdx_concat, hne]
    rw [hconcat]
    rwa [hstep] at hnext

/-- What an execution does is noticed under its terms. -/
theorem Course.terms_eq {terms : Terms} {x : Execution} (h : Course n purpose terms strides x)
    {terms' : Terms} {act : Act} (hmem : .execution terms' act ∈ strides.flatMap Stride.notices) :
    terms' = terms := by
  obtain hacts | ⟨act, hpool⟩ | ⟨outcome, hfinished⟩ := h.notice_cases hmem
  · obtain ⟨act', -, hnotice⟩ := List.mem_flatMap.1 hacts
    cases act' <;> simp_all [issued]
  · cases hpool
  · cases hfinished

end

end Client

/-- The terms of a call under a profile: what the statement leaves open is taken from it. -/
structure Terms.Under (terms : Terms) (p : Profile) (config : StatementConfig) (call : Call) :
    Prop where
  call : terms.settings.call = call
  routing : terms.settings.routing = ⟨config.consistency.getD p.consistency, config.idempotent⟩
  timeout : terms.settings.timeout = config.timeout.or p.timeout
  retry : terms.settings.retry = (config.retry.getD p.retry).rule
  balancer : terms.balancer = config.balancer.getD p.balancer
  speculation : terms.speculation = if config.idempotent then p.speculation else none

/-- The terms are settled by the profile the handle points at. -/
theorem Terms.ofCall_under {s : Session} {config : StatementConfig} {p : Profile}
    (h : s.targets.profile? (config.handle.getD s.handle) = some p) (call : Call) :
    (Terms.ofCall s config call).Under p config call := by
  have hp : s.profileOf config = p := by rw [Session.profileOf, h]; rfl
  constructor <;> simp [Terms.ofCall, hp]

/-- **Handles alias exactly within their families.** A handle yields what was mapped last through
any handle that is copied from the same one, or else what that one was made of, under the label it
was made with; a mapping is seen through no other handle. A profile stays as it was built, and one
built by a builder that started at a handle has what the handle pointed at then, up to the options
set on the builder.

An execution is under the profile its handle pointed at when it started, and keeps to these terms in
all it does: the nodes it is given, the requests it writes, the time of its attempts, the decisions
on its failures and the number of its fibers. With the handles pointing elsewhere at any time after
the start everything goes the same. -/
theorem History.handles_alias (past : History) :
    (∀ name, past.registry.target? name = (past.family? name).bind past.yields?) ∧
    (∀ name f, past.family? name = some f → ∃ later profile handle label earlier,
      past = later ++ .makeHandle profile handle label :: earlier ∧ f = earlier.length) ∧
    (∀ handle profile family p, past.family? handle = some family →
      past.registry.profile? profile = some p → ∀ name,
        ((registry (.map handle profile :: past)).target? name).map (·.profile) =
          if past.family? name = some family then some p
          else (past.registry.target? name).map (·.profile)) ∧
    (∀ later : List Registration,
      (∀ f < past.length, label? (later ++ past) f = past.label? f) ∧
      ∀ name, (∀ a ∈ later, a.builds? ≠ some name) →
        (registry (later ++ past)).profile? name = past.registry.profile? name) ∧
    (∀ handle t builder (later : List Registration), past.registry.target? handle = some t →
      (∀ a ∈ later, ∀ start, a ≠ .startBuilder builder start) →
      let since := later ++ .startBuilder builder (.handle handle) :: past
      ∃ change, Sets builder later (registry since).balancers change ∧ ∀ name,
        (registry (.finishBuilder builder name :: since)).profile? name =
          some (t.profile.change change)) ∧
    (∀ start base, (past.registry.startFrom start).1 = some base →
      ∀ builder name balancer change,
        (registry (.build name start balancer change :: past)).profile? name =
          (registry (.finishBuilder builder name :: .setOptions builder balancer change ::
            .startBuilder builder start :: past)).profile? name) ∧
    ∀ n o strides hs first config call purpose name, Client.Errand n o strides hs →
      strides.head? = some first → o.call? = some (config, call, purpose) →
      first.before.session.targets = past.registry.targets →
      past.registry.handles.lookup name =
        some (config.handle.getD first.before.session.handle) →
      ∃ t terms x, past.registry.target? name = some t ∧ terms.Under t.profile config call ∧
        terms.nodes = first.before.session.nodes ∧
        Client.Course n purpose terms strides x ∧
        Execution.Reaches terms.environment terms.settings terms.speculation x
          (strides.flatMap Stride.acts) ∧
        terms.Kept n strides x ∧
        (∀ terms' act, .execution terms' act ∈ strides.flatMap Stride.notices → terms' = terms) ∧
        (∀ f ∈ x.fibers, f.session.rule = terms.settings.retry) ∧
        ∀ ts, Client.Errand n o (Client.remapping ts strides) hs ∧
          (Client.remapping ts strides).flatMap Stride.notices =
            strides.flatMap Stride.notices := by
  refine ⟨past.target?_eq, fun _ _ => exists_of_family?, fun _ _ _ _ => profile_map,
    fun later => ⟨fun _ => past.label?_append later, fun _ => profile?_append⟩,
    fun handle t builder later ht hlater => ?_, fun _ _ => build_eq,
    fun n o strides hs first config call purpose name h hfirst hcall htargets hhandle => ?_⟩
  · have hstart : (past.registry.startFrom (.handle handle)).1 = some t.profile := by
      simp [Registry.startFrom, ht]
    obtain ⟨change, hbuilder, hsets⟩ := builder_eq hstart hlater
    refine ⟨change, hsets, fun name => ?_⟩
    simp [registry, Registry.register, hbuilder, Registry.profile?]
  · obtain ⟨x, hcourse⟩ := h.course_of_head hcall hfirst
    obtain ⟨t, ht⟩ := exists_target hhandle
    have hreaches := hcourse.law.reaches
    obtain ⟨_, hruns⟩ := hreaches.runs
    have hprofile : first.before.session.targets.profile?
        (config.handle.getD first.before.session.handle) = some t.profile := by
      rw [htargets, Targets.profile?, ht]
      rfl
    refine ⟨t, _, x, by rw [Registry.target?, hhandle]; exact ht, Terms.ofCall_under hprofile call,
      rfl, hcourse, hreaches, hcourse.kept, fun _ _ => hcourse.terms_eq, fun f hf => ?_,
      fun ts => ⟨h.remapping hcall ts, Client.remapping_notices ts strides⟩⟩
    obtain ⟨i, hi⟩ := List.mem_iff_getElem?.1 hf
    exact hruns.rule_eq hi

/-- Mapping the copy of a handle maps the handle, but not the other handle of the same profile. A
builder that was started before keeps the consistency there was, and loses the time limit. An
execution that was started before goes on to another node under the profile there was. -/
theorem History.handles_alias_copy :
    let made : History := [.makeHandle "one" "other" none, .copyHandle "reads" "copy",
      .makeHandle "one" "reads" (some "label"),
      .build "two" (.profile "one") none { consistency := some .two },
      .build "one" .standard none { timeout := some (some 50), consistency := some .one }]
    let started : History := .startBuilder "b" (.handle "copy") :: made
    let mapped : History := .map "copy" "two" :: started
    let built : History := .finishBuilder "b" "built" ::
      .setOptions "b" none { timeout := some none } :: mapped
    let consistency (past : History) (name : String) : Option Consistency :=
      (past.registry.target? name).map (·.profile.consistency)
    (∀ name ∈ ["reads", "copy"], consistency made name = some .one ∧
      consistency mapped name = some .two ∧
        (mapped.registry.target? name).map (·.label) = some (some "label")) ∧
    consistency mapped "other" = some .one ∧
    (built.registry.profile? "built").map (fun p => (p.consistency, p.timeout)) =
      some (.one, none) ∧
    ∃ strides hs, Client.Errand 0 (.query (.ofText "SELECT v FROM t") [] .unpaged) strides hs ∧
      ∃ terms x, Client.Course 0 .rows terms strides x ∧
        terms.settings.routing = ⟨.one, false⟩ ∧ terms.Kept 0 strides x ∧
        strides.map (·.before.session.targets) =
          [made.registry.targets, mapped.registry.targets] ∧
        .issued 1 .first ⟨.pool 1, ⟨⟨"10.0.0.2"⟩, 9042⟩⟩
          (.query "SELECT v FROM t" ⟨.one, .none, .unpaged, none⟩) ∈ strides.flatMap Stride.acts ∧
        ∀ ts, (Client.remapping ts strides).flatMap Stride.notices =
          strides.flatMap Stride.notices := by
  intro made started mapped built consistency
  obtain ⟨-, -, -, -, hbuilder, -, hexecution⟩ := made.handles_alias
  obtain ⟨-, -, hmap, -⟩ := started.handles_alias
  obtain ⟨two, htwo, hconsistency⟩ :
      ∃ p, started.registry.profile? "two" = some p ∧ p.consistency = .two := ⟨_, rfl, rfl⟩
  have hseen (name : String) : consistency mapped name =
      if started.family? name = some 2 then some .two else consistency started name := by
    have h := congrArg (Option.map Profile.consistency)
      (hmap "copy" "two" 2 two (by decide) htwo name)
    rw [Option.map_map] at h
    refine h.trans ?_
    split
    · exact congrArg some hconsistency
    · exact Option.map_map ..
  obtain ⟨one, hcopy, hstandard⟩ : ∃ t, made.registry.target? "copy" = some t ∧
      t.profile.consistency = .one := ⟨_, rfl, rfl⟩
  obtain ⟨change, hsets, hbuilt⟩ := hbuilder "copy" one "b"
    [.setOptions "b" none { timeout := some none }, .map "copy" "two"] hcopy (by simp)
  let pointing (consistency : Consistency) : Targets :=
    let profile (consistency : Consistency) : Profile :=
      { Profile.standard 0 with timeout := some 50, consistency := consistency }
    [⟨profile consistency, some "label"⟩, ⟨profile .one, none⟩]
  let s : Session := { Session.sample with targets := pointing .one }
  have h₀ := Client.Errand.of_start (Client.fresh s) 0
    (.query (.ofText "SELECT v FROM t") [] .unpaged) rfl
  have h₁ := h₀.next (fun c => c.remapped (pointing .two)) (fun _ => rfl) 1
    (.signal (.attempt 0 .first) (.writeFailed .closed))
  obtain ⟨t, terms, x, ht, hunder, -, hcourse, -, hkept, -, -, hremapped⟩ :=
    hexecution _ _ _ _ _ _ _ _ "reads" h₁ rfl rfl rfl rfl
  refine ⟨?_, ?_, ?_, _, _, h₁, terms, x, hcourse, ?_, hkept, rfl,
    List.mem_of_getElem? (i := 11) (by cbv), fun ts => (hremapped ts).2⟩
  · simp only [List.forall_mem_cons, List.not_mem_nil, false_implies, implies_true, and_true]
    exact ⟨⟨rfl, (hseen _).trans rfl, rfl⟩, rfl, (hseen _).trans rfl, rfl⟩
  · exact (hseen _).trans rfl
  · have hbuilt : built.registry.profile? "built" = _ := hbuilt "built"
    have htimeout : change.timeout = some none := hsets.timeout
    have hnone : change.consistency = none := hsets.consistency
    simp [hbuilt, Profile.change, htimeout, hnone, hstandard]
  · have hreads : (made.registry.target? "reads").map (·.profile.consistency) = some .one := rfl
    have hone : t.profile.consistency = .one := by simpa [ht] using hreads
    rw [hunder.routing, hone]
    rfl

end ClusterClient
