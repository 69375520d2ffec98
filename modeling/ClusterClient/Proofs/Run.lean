import ClusterClient.Proofs.Race
import ClusterClient.Proofs.Turn
import ClusterClient.Session.Basic

/-!
# Executions from their start on

`Execution.Reaches` is every execution that comes about by starting it and letting events happen to
it, with the acts so far. Before each step the clock and the world may be anything, so what other
operations do to the session in between is covered, and so is any behaviour of load balancers and
pools.

`Execution.Runs` lists the same executions by what their fibers do (`Reaches.runs`): the first fiber
is opened, another is launched, a fiber takes a turn.

`Execution.Arises` and `Execution.Unfolds` are the same two relations with one thing more left open:
the retry session of each fiber may decide by a rule of its own. What holds under any policies is
proved by induction on `Unfolds`. `Execution.Unfolds.racing` says that the race of an execution is
one between its fibers, so the law of a race holds of it.
-/

namespace ClusterClient

variable {ω : Type}

/-- Nodes that are tried in their order and always give a connection. -/
def Environment.steady (nodes : List Node) : Environment Unit where
  chooser := ⟨fun w => (nodes.head?, w), fun w => (nodes, w)⟩
  connect n w := (.ok ⟨.pool n.pool, n.address⟩, w)
  notify _ w := w
  lore fiber _ := ⟨⟨"", 0, fiber⟩, []⟩
  consult _ _ w := w

/-- The node at a host, served by the pool of a number. -/
def Node.sample (host : String) (pool : PoolId) : Node :=
  ⟨⟨⟨host⟩, 9042⟩, none, none, none, pool⟩

/-- A session over two nodes, which are tried in their order, with a pool to spare. -/
def Session.sample : Session :=
  { nodes := [.sample "10.0.0.1" 0, .sample "10.0.0.2" 1]
    keyspace := none
    pools := ["10.0.0.1", "10.0.0.2", "10.0.0.3"].map fun host => ⟨⟨⟨host⟩, 9042⟩, none, []⟩
    balancers :=
      [⟨.custom "Ordered" [] (fun _ _ nodes => nodes.head?) fun _ _ nodes => nodes, false⟩]
    consultations := []
    targets := [⟨{ Profile.standard 0 with
      timeout := some 50
      speculation := some ⟨2, 100⟩ }, none⟩]
    handle := 0
    controlLimit := 50 }

namespace Execution

/-- The executions that come about from the start of one, with the acts so far. -/
inductive Reaches (env : Environment ω) (settings : Settings) (speculation : Option Speculation) :
    Execution → List Act → Prop
  | start (now : Nat) (w : ω) :
      Reaches env settings speculation (start env settings speculation now w).execution
        (start env settings speculation now w).acts
  | step {x : Execution} {acts : List Act} (now : Nat) (w : ω) (event : Event) :
      Reaches env settings speculation x acts →
      Reaches env settings speculation (x.step env settings now w event).execution
        (acts ++ (x.step env settings now w event).acts)

/-- The executions that come about from the start of one under any retry policy, with the acts so
far. Each fiber's session decides by a rule of its own, which may go by the number of the report, so
a policy whose sessions share what they know is covered as well. -/
inductive Arises (env : Environment ω) (settings : Settings) (speculation : Option Speculation) :
    Execution → List Act → Prop
  | start (rule : RetryRule) (now : Nat) (w : ω) :
      Arises env settings speculation
        (start env { settings with retry := rule } speculation now w).execution
        (start env { settings with retry := rule } speculation now w).acts
  | step {x : Execution} {acts : List Act} (rule : RetryRule) (now : Nat) (w : ω) (event : Event) :
      Arises env settings speculation x acts →
      Arises env settings speculation
        (x.step env { settings with retry := rule } now w event).execution
        (acts ++ (x.step env { settings with retry := rule } now w event).acts)

/-- One policy for all fibers is one of the policies there may be. -/
theorem Reaches.arises {env : Environment ω} {settings : Settings}
    {speculation : Option Speculation} {x : Execution} {acts : List Act}
    (h : Reaches env settings speculation x acts) : Arises env settings speculation x acts := by
  induction h with
  | start now w => exact .start settings.retry now w
  | step now w event _ ih => exact .step settings.retry now w event ih

/-- An execution after some events, all at one time and in one world, with the acts so far. -/
def follow (env : Environment ω) (settings : Settings) (now : Nat) (w : ω) (x : Execution)
    (acts : List Act) (events : List Event) : Execution × List Act :=
  events.foldl
    (fun (x, acts) event =>
      ((x.step env settings now w event).execution,
        acts ++ (x.step env settings now w event).acts))
    (x, acts)

theorem Reaches.follow {env : Environment ω} {settings : Settings}
    {speculation : Option Speculation} {x : Execution} {acts : List Act}
    (h : Reaches env settings speculation x acts) (now : Nat) (w : ω) (events : List Event) :
    Reaches env settings speculation (x.follow env settings now w acts events).1
      (x.follow env settings now w acts events).2 := by
  induction events generalizing x acts with
  | nil => exact h
  | cons e es ih => exact ih (h.step now w e)

/-- An execution with a fiber that did not take a node yet. -/
def fork (settings : Settings) (x : Execution) (race : Race Success) : Execution :=
  { x with fibers := x.fibers ++ [.fresh settings x.fibers.length], race := race }

/-- The executions that come about from the start of one, by what their fibers do. -/
inductive Runs (env : Environment ω) (settings : Settings) (speculation : Option Speculation)
    (since : Nat) : Execution → List Act → Prop
  | first {w : ω} {t : Turn ω} :
      Fiber.Seeks env settings since (.fresh settings 0) (initial speculation since).shared w t →
      Runs env settings speculation since
        (settle ((initial speculation since).fork settings
          (Race.start speculation since).launchFirst) t).execution
        (.opened 0 :: t.acts)
  | launch {x : Execution} {acts : List Act} {now : Nat} {w : ω} {t : Turn ω} :
      Runs env settings speculation since x acts → x.race.mayLaunch = true →
      Fiber.Seeks env settings now (.fresh settings x.fibers.length) x.shared w t →
      Runs env settings speculation since
        ((x.fork settings (x.race.launch now)).settle t).execution
        (acts ++ .opened x.fibers.length :: t.acts)
  | turn {x : Execution} {acts : List Act} {now : Nat} {w : ω} {t : Turn ω} {f : Fiber}
      {c : Current} :
      Runs env settings speculation since x acts → x.race.verdict = none →
      x.fibers[f.index]? = some f → f.phase = .attempting c →
      Fiber.Takes env settings now f c x.shared w t →
      Runs env settings speculation since (x.settle t).execution (acts ++ t.acts)

/-- The executions that come about from the start of one under any retry policy, by what their
fibers do. -/
inductive Unfolds (env : Environment ω) (settings : Settings) (speculation : Option Speculation)
    (since : Nat) : Execution → List Act → Prop
  | first {w : ω} {t : Turn ω} (rule : RetryRule) :
      Fiber.Seeks env { settings with retry := rule } since
        (.fresh { settings with retry := rule } 0) (initial speculation since).shared w t →
      Unfolds env settings speculation since
        (settle ((initial speculation since).fork { settings with retry := rule }
          (Race.start speculation since).launchFirst) t).execution
        (.opened 0 :: t.acts)
  | launch {x : Execution} {acts : List Act} {now : Nat} {w : ω} {t : Turn ω} (rule : RetryRule) :
      Unfolds env settings speculation since x acts → x.race.mayLaunch = true →
      Fiber.Seeks env { settings with retry := rule } now
        (.fresh { settings with retry := rule } x.fibers.length) x.shared w t →
      Unfolds env settings speculation since
        ((x.fork { settings with retry := rule } (x.race.launch now)).settle t).execution
        (acts ++ .opened x.fibers.length :: t.acts)
  | turn {x : Execution} {acts : List Act} {now : Nat} {w : ω} {t : Turn ω} {f : Fiber}
      {c : Current} (rule : RetryRule) :
      Unfolds env settings speculation since x acts → x.race.verdict = none →
      x.fibers[f.index]? = some f → f.phase = .attempting c →
      Fiber.Takes env { settings with retry := rule } now f c x.shared w t →
      Unfolds env settings speculation since (x.settle t).execution (acts ++ t.acts)

theorem Runs.unfolds {env : Environment ω} {settings : Settings}
    {speculation : Option Speculation} {since : Nat} {x : Execution} {acts : List Act}
    (h : Runs env settings speculation since x acts) :
    Unfolds env settings speculation since x acts := by
  induction h with
  | first hseek => exact .first settings.retry hseek
  | launch _ hmay hseek ih => exact .launch settings.retry ih hmay hseek
  | turn _ hr hf hp ht ih => exact .turn settings.retry ih hr hf hp ht

/-- What keeps the books of an execution straight: a fiber is found under its number, and the result
is unclaimed while there is no verdict. -/
structure Sound (x : Execution) : Prop where
  index : ∀ (i : Nat) (f : Fiber), x.fibers[i]? = some f → f.index = i
  unclaimed : x.race.verdict = none → x.shared.completed = false

end Execution

namespace Fiber

variable {env : Environment ω} {settings : Settings} {now : Nat} {f : Fiber} {c : Current}
  {s : Shared} {w : ω} {t : Turn ω}

theorem exhausted_ne_succeeded (f : Fiber) (v : Success) : f.exhausted ≠ .succeeded v := by
  unfold exhausted
  split <;> simp

/-- A fiber that takes nodes keeps its number, and claims nothing. -/
theorem Seeks.frame (h : Seeks env settings now f s w t) :
    t.fiber.index = f.index ∧ t.shared.completed = s.completed ∧
      ∀ v, t.fiber.phase ≠ .ended (.succeeded v) := by
  induction h with
  | exhausted hd hn => exact ⟨rfl, rfl, fun v hv => exhausted_ne_succeeded _ v (Phase.ended.inj hv)⟩
  | begins hd hn hc => exact ⟨rfl, rfl, by simp [begin]⟩
  | refused hd hn hc _ ih => exact ih

theorem Obeys.frame {error : AttemptError} {decision : Decision}
    (h : Obeys env settings now f c error s w decision t) (hs : s.completed = false) :
    t.fiber.index = f.index ∧
      (t.shared.completed = true ↔ ∃ v, t.fiber.phase = .ended (.succeeded v)) := by
  cases h with
  | stop => simp [hs]
  | ignore => simp
  | again hc => simp [begin, hs, retrying]
  | onward hc hseek | next hseek =>
    obtain ⟨hi, hc, hv⟩ := hseek.frame
    refine ⟨hi, ?_⟩
    simp [hc, hs, hv]

/-- A fiber that waited for an attempt keeps its number, and claims the result exactly if it ends in
a success. -/
theorem Takes.frame (h : Takes env settings now f c s w t) (hs : s.completed = false) :
    t.fiber.index = f.index ∧
      (t.shared.completed = true ↔ ∃ v, t.fiber.phase = .ended (.succeeded v)) := by
  cases h with
  | waits he hr | sends he hr => simp [hs]
  | succeeds he hr => simp
  | fails hf hd ho => exact ho.frame (s := { s with errors := _ }) hs

theorem Seeks.session_eq (h : Seeks env settings now f s w t) : t.fiber.session = f.session := by
  induction h with
  | exhausted hd hn | begins hd hn hc => rfl
  | refused hd hn hc _ ih => exact ih

/-- A fiber stays with the retry policy it was launched with. -/
theorem Takes.rule_eq (h : Takes env settings now f c s w t) :
    t.fiber.session.rule = f.session.rule := by
  cases h with
  | waits he hr | sends he hr | succeeds he hr => rfl
  | fails hf hd ho =>
    cases ho with
    | stop | ignore | again hc => rfl
    | onward hc hseek | next hseek =>
      rw [Turn.after_fiber]
      simp [hseek.session_eq, retrying, telling, RetrySession.heard]

end Fiber

namespace Execution

variable {env : Environment ω} {settings : Settings} {speculation : Option Speculation}
  {since : Nat} {x : Execution} {acts : List Act} {t : Turn ω}

@[simp] theorem settle_shared : (x.settle t).execution.shared = t.shared := rfl

@[simp] theorem settle_world : (x.settle t).world = t.world := rfl

@[simp] theorem settle_acts : (x.settle t).acts = t.acts := rfl

@[simp] theorem settle_fibers :
    (x.settle t).execution.fibers = x.fibers.set t.fiber.index t.fiber := rfl

theorem settle_race_ended {e : Ending Success} (h : t.fiber.phase = .ended e) :
    (x.settle t).execution.race = x.race.finish e := by
  simp [settle, h]

theorem settle_race_attempting {c : Current} (h : t.fiber.phase = .attempting c) :
    (x.settle t).execution.race = x.race := by
  simp [settle, h]

theorem settle_left_le : (x.settle t).execution.race.left ≤ x.race.left := by
  cases h : t.fiber.phase with
  | attempting c => exact Nat.le_of_eq (congrArg Race.left (settle_race_attempting h))
  | ended e =>
    rw [settle_race_ended h]
    exact x.race.finish_left_le e

/-- An execution whose fiber took its turn is sound if the fiber claimed the result exactly by
ending in a success. -/
theorem Sound.settle (hx : ∀ (i : Nat) (f : Fiber), x.fibers[i]? = some f → f.index = i)
    (ht : t.shared.completed = true ↔ ∃ v, t.fiber.phase = .ended (.succeeded v)) :
    (x.settle t).execution.Sound where
  index i f hf := by
    rw [settle_fibers, List.getElem?_set] at hf
    split at hf
    · split at hf
      · cases hf
        assumption
      · cases hf
    · exact hx i f hf
  unclaimed hv := by
    by_contra hc
    obtain ⟨v, hp⟩ := ht.1 (by simpa using hc)
    rw [settle_race_ended hp, Race.finish_decisive _ rfl] at hv
    cases hv

/-- A fiber of an execution that was forked is one from before, or the new one. -/
theorem fork_fibers {race : Race Success} {i : Nat} {f : Fiber}
    (h : (x.fork settings race).fibers[i]? = some f) :
    x.fibers[i]? = some f ∨ i = x.fibers.length ∧ f = .fresh settings x.fibers.length := by
  simp only [fork, List.getElem?_append] at h
  split at h
  · exact .inl h
  · next hi =>
    obtain ⟨h0, rfl⟩ := List.getElem?_eq_some_iff.1 h
    simp only [List.length_singleton] at h0
    exact .inr ⟨by omega, by simp⟩

theorem fork_index {race : Race Success}
    (hx : ∀ (i : Nat) (f : Fiber), x.fibers[i]? = some f → f.index = i) (i : Nat) (f : Fiber)
    (hf : (x.fork settings race).fibers[i]? = some f) : f.index = i := by
  rcases fork_fibers hf with hf | ⟨rfl, rfl⟩
  · exact hx i f hf
  · rfl

theorem Unfolds.sound (h : Unfolds env settings speculation since x acts) : x.Sound := by
  induction h with
  | first rule hseek =>
    obtain ⟨-, hc, hv⟩ := hseek.frame
    rw [show (initial speculation since).shared.completed = false from rfl] at hc
    exact .settle (fork_index (by simp [initial])) (by simp [hc, hv])
  | launch rule _ hmay hseek ih =>
    obtain ⟨-, hc, hv⟩ := hseek.frame
    have hs := ih.unclaimed ((Race.mayLaunch_iff _).1 hmay).1
    exact .settle (fork_index ih.index) (by simp [hc, hv, hs])
  | turn rule _ hr hf hp ht ih => exact .settle ih.index (ht.frame (ih.unclaimed hr)).2

theorem Runs.sound (h : Runs env settings speculation since x acts) : x.Sound :=
  h.unfolds.sound

/-! ## The race of an execution -/

/-- A fiber after a turn is the one that took it, or another. -/
theorem settle_fibers_cases {i : Nat} {f : Fiber}
    (h : (x.settle t).execution.fibers[i]? = some f) :
    i = t.fiber.index ∧ f = t.fiber ∨ i ≠ t.fiber.index ∧ x.fibers[i]? = some f := by
  rw [settle_fibers, List.getElem?_set] at h
  split at h
  · next hi =>
    split at h
    · cases h
      exact .inl ⟨hi.symm, rfl⟩
    · cases h
  · next hi => exact .inr ⟨Ne.symm hi, h⟩

/-- The endings of a race are those of the execution's fibers. -/
structure Racing (speculation : Option Speculation) (since : Nat) (x : Execution)
    (es : List (Nat × Ending Success)) : Prop where
  runs : Race.Runs speculation since x.race es
  launched : x.fibers.length = x.race.launched
  ended : ∀ i e, (i, e) ∈ es ↔ ∃ f, x.fibers[i]? = some f ∧ f.phase = .ended e

/-- The endings after a turn are that of its fiber, if it ended, and those of the others. -/
theorem settle_ended_iff (hi : t.fiber.index < x.fibers.length) (i : Nat) (e : Ending Success) :
    (∃ f, (x.settle t).execution.fibers[i]? = some f ∧ f.phase = .ended e) ↔
      i = t.fiber.index ∧ t.fiber.phase = .ended e ∨
        i ≠ t.fiber.index ∧ ∃ f, x.fibers[i]? = some f ∧ f.phase = .ended e := by
  constructor
  · rintro ⟨f, hf, hp⟩
    rcases settle_fibers_cases hf with ⟨rfl, rfl⟩ | ⟨hne, hf⟩
    · exact .inl ⟨rfl, hp⟩
    · exact .inr ⟨hne, f, hf, hp⟩
  · rintro (⟨rfl, hp⟩ | ⟨hne, f, hf, hp⟩)
    · exact ⟨t.fiber, by simp [hi], hp⟩
    · refine ⟨f, ?_, hp⟩
      rw [settle_fibers, List.getElem?_set_ne (Ne.symm hne), hf]

/-- A new fiber has not ended. -/
theorem fork_ended_iff {race : Race Success} (i : Nat) (e : Ending Success) :
    (i ≠ x.fibers.length ∧
        ∃ f, (x.fork settings race).fibers[i]? = some f ∧ f.phase = .ended e) ↔
      ∃ f, x.fibers[i]? = some f ∧ f.phase = .ended e := by
  constructor
  · rintro ⟨hne, f, hf, hp⟩
    rcases fork_fibers hf with hf | ⟨rfl, -⟩
    · exact ⟨f, hf, hp⟩
    · exact absurd rfl hne
  · rintro ⟨f, hf, hp⟩
    obtain ⟨hlt, -⟩ := List.getElem?_eq_some_iff.1 hf
    exact ⟨Nat.ne_of_lt hlt, f, by rw [fork, List.getElem?_append_left hlt, hf], hp⟩

/-- A fiber that waits for an attempt has not ended. -/
theorem waiting_ended_iff {f : Fiber} {c : Current} (hf : x.fibers[f.index]? = some f)
    (hp : f.phase = .attempting c) (i : Nat) (e : Ending Success) :
    (i ≠ f.index ∧ ∃ g, x.fibers[i]? = some g ∧ g.phase = .ended e) ↔
      ∃ g, x.fibers[i]? = some g ∧ g.phase = .ended e := by
  refine ⟨And.right, fun ⟨g, hg, he⟩ => ⟨?_, g, hg, he⟩⟩
  rintro rfl
  rw [hf] at hg
  cases hg
  rw [hp] at he
  cases he

/-- A turn adds the ending of its fiber to those of the others, if it ends it. -/
theorem Racing.settle {es : List (Nat × Ending Success)}
    (hruns : Race.Runs speculation since x.race es) (hr : x.race.verdict = none)
    (hlaunched : x.fibers.length = x.race.launched) (hi : t.fiber.index < x.fibers.length)
    (hes : ∀ i e, (i, e) ∈ es ↔
      i ≠ t.fiber.index ∧ ∃ f, x.fibers[i]? = some f ∧ f.phase = .ended e) :
    ∃ es, Racing speculation since (x.settle t).execution es := by
  have hothers : ∀ i e, (∃ f, (x.settle t).execution.fibers[i]? = some f ∧ f.phase = .ended e) ↔
      i = t.fiber.index ∧ t.fiber.phase = .ended e ∨ (i, e) ∈ es := by
    intro i e
    rw [settle_ended_iff hi, hes]
  cases hp : t.fiber.phase with
  | attempting c =>
    refine ⟨es, ?_, ?_, fun i e => ?_⟩
    · rw [settle_race_attempting hp]
      exact hruns
    · rw [settle_race_attempting hp, settle_fibers, List.length_set, hlaunched]
    · rw [hothers]
      simp [hp]
  | ended e =>
    have hnew : t.fiber.index ∉ es.map (·.1) := by
      rintro hmem
      obtain ⟨⟨i, e⟩, hmem, rfl⟩ := List.mem_map.1 hmem
      exact ((hes _ _).1 hmem).1 rfl
    refine ⟨es ++ [(t.fiber.index, e)], ?_, ?_, fun i e' => ?_⟩
    · rw [settle_race_ended hp]
      exact .finish t.fiber.index e hruns hr (hlaunched ▸ hi) hnew
    · rw [settle_race_ended hp, settle_fibers, List.length_set, Race.finish_launched, hlaunched]
    · rw [hothers]
      simp [hp, or_comm, eq_comm]

/-- **The race of an execution is a race of its fibers**: each is launched as the race says, and
takes part in it until it ends. -/
theorem Unfolds.racing (h : Unfolds env settings speculation since x acts) :
    ∃ es, Racing speculation since x es := by
  induction h with
  | @first w t rule hseek =>
    have hi : t.fiber.index = 0 := hseek.frame.1
    refine Racing.settle .start rfl rfl (by simp [hi, fork, initial]) fun i e => ?_
    rw [hi]
    exact .trans (by simp [initial]) (fork_ended_iff (x := initial speculation since) i e).symm
  | @launch x acts now w t rule _ hmay hseek ih =>
    obtain ⟨es, hrace⟩ := ih
    have hv := ((Race.mayLaunch_iff _).1 hmay).1
    have hi : t.fiber.index = x.fibers.length := hseek.frame.1
    refine Racing.settle (.launch now hrace.runs hmay) hv ?_ ?_ fun i e => ?_
    · simp [fork, hrace.launched]
    · simp [fork, hi]
    · rw [hrace.ended, hi, fork_ended_iff]
  | @turn x acts now w t f c rule hruns hr hf hp ht ih =>
    obtain ⟨es, hrace⟩ := ih
    have hi : t.fiber.index = f.index := (ht.frame (hruns.sound.unclaimed hr)).1
    obtain ⟨hlt, -⟩ := List.getElem?_eq_some_iff.1 hf
    refine Racing.settle hrace.runs hr hrace.launched (by omega) fun i e => ?_
    rw [hrace.ended, hi, waiting_ended_iff hf hp]

/-! ## The functions do what `Runs` lists -/

theorem locate_eq_some {n : Nat} {f : Fiber} {c : Current} (h : x.locate n = some (f, c)) :
    f ∈ x.fibers ∧ f.phase = .attempting c ∧ c.number = n := by
  obtain ⟨g, hg, hs⟩ := List.exists_of_findSome?_eq_some h
  cases hp : g.phase with
  | ended e => simp [Fiber.current?, hp] at hs
  | attempting d =>
    simp only [Fiber.current?, hp, Option.bind_some] at hs
    split at hs
    · next hn =>
      cases hs
      exact ⟨hg, hp, hn⟩
    · cases hs

/-- What the start of an execution does: it opens the first fiber. -/
theorem start_cases (env : Environment ω) (settings : Settings) (speculation : Option Speculation)
    (now : Nat) (w : ω) :
    ∃ t : Turn ω,
      Fiber.Seeks env settings now (.fresh settings 0) (initial speculation now).shared
        (env.consult 0 .opened w) t ∧
      start env settings speculation now w =
        ((initial speculation now).fork settings (Race.start speculation now).launchFirst).settle
          (t.after [.opened 0]) :=
  ⟨_, Fiber.seek_seeks rfl, rfl⟩

/-- What a step of an execution does: nothing, the launch of a fiber if it is time for one, or the
turn of one if something else happens. -/
theorem step_cases (env : Environment ω) (settings : Settings) (hx : x.Sound) (now : Nat) (w : ω)
    (event : Event) :
    x.step env settings now w event = ⟨x, w, []⟩ ∨
      (event = .launch ∧ x.race.mayLaunch = true ∧ ∃ t : Turn ω,
        Fiber.Seeks env settings now (.fresh settings x.fibers.length) x.shared
          (env.consult x.fibers.length .opened w) t ∧
        x.step env settings now w event =
          (x.fork settings (x.race.launch now)).settle (t.after [.opened x.fibers.length])) ∨
      (event ≠ .launch ∧ x.race.verdict = none ∧ ∃ (f : Fiber) (c : Current) (t : Turn ω),
        x.fibers[f.index]? = some f ∧ f.phase = .attempting c ∧
        Fiber.Takes env settings now f c x.shared w t ∧
        x.step env settings now w event = x.settle t) := by
  unfold step
  split
  · exact .inl rfl
  next hv =>
  have hv : x.race.verdict = none := by simpa using hv
  have hs := hx.unclaimed hv
  have found {n : Nat} {f : Fiber} {c : Current} (h : x.locate n = some (f, c)) :
      x.fibers[f.index]? = some f ∧ f.phase = .attempting c := by
    obtain ⟨hf, hp, -⟩ := locate_eq_some h
    obtain ⟨i, hi⟩ := List.mem_iff_getElem?.1 hf
    rw [hx.index i f hi]
    exact ⟨hi, hp⟩
  cases event with
  | launch =>
    dsimp only
    split
    · next hmay => exact .inr (.inl ⟨rfl, hmay, _, Fiber.seek_seeks hs, rfl⟩)
    · exact .inl rfl
  | signal n stage signal =>
    dsimp only
    split
    · exact .inl rfl
    · next f c hl =>
      split
      · next he =>
        exact .inr (.inr ⟨nofun, hv, f, c, _, (found hl).1, (found hl).2,
          Fiber.react_takes hs he.2, rfl⟩)
      · exact .inl rfl
  | expire n =>
    dsimp only
    split
    · next f c limit hl ht =>
      exact .inr (.inr ⟨nofun, hv, f, c, _, (found hl).1, (found hl).2, Fiber.expire_takes hs ht,
        rfl⟩)
    · exact .inl rfl

/-- Every execution that comes about is one of those `Runs` lists. -/
theorem Reaches.runs (h : Reaches env settings speculation x acts) :
    ∃ since, Runs env settings speculation since x acts := by
  induction h with
  | start now w =>
    exact ⟨now, .first (Fiber.seek_seeks (s := (initial speculation now).shared) rfl)⟩
  | step now w event _ ih =>
    obtain ⟨since, ih⟩ := ih
    refine ⟨since, ?_⟩
    rcases step_cases env settings ih.sound now w event with
      hnone | ⟨-, hmay, t, hseek, he⟩ | ⟨-, hv, f, c, t, hf, hp, ht, he⟩
    · simpa [hnone] using ih
    · rw [he]
      exact .launch ih hmay hseek
    · rw [he]
      exact .turn ih hv hf hp ht

theorem Arises.unfolds (h : Arises env settings speculation x acts) :
    ∃ since, Unfolds env settings speculation since x acts := by
  induction h with
  | start rule now w =>
    exact ⟨now, .first rule (Fiber.seek_seeks (s := (initial speculation now).shared) rfl)⟩
  | step rule now w event _ ih =>
    obtain ⟨since, ih⟩ := ih
    refine ⟨since, ?_⟩
    rcases step_cases env { settings with retry := rule } ih.sound now w event with
      hnone | ⟨-, hmay, t, hseek, he⟩ | ⟨-, hv, f, c, t, hf, hp, ht, he⟩
    · simpa [hnone] using ih
    · rw [he]
      exact .launch rule ih hmay hseek
    · rw [he]
      exact .turn rule ih hv hf hp ht

end Execution

end ClusterClient
