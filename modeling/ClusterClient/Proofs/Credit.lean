import ClusterClient.Proofs.Story

/-!
# Who is credited with a result

The information of an execution names the node and the fiber a result comes from, and counts the
fibers that were launched beside the first. The three are filled in at different places: the number
of a fiber when it is launched, the node when the result is claimed, the count at the end.
`Execution.Credits` says how they agree with what the fibers did, and `Execution.Arises.credits`
that they do, under any policies and in any order of the fibers' turns.

The fibers are numbered in the order of their launches (`Trail.opened_eq`), and the launches made
and those left are together no more than the policy allows (`Race.Runs.launched_add_left`).
-/

namespace ClusterClient

/-- How many fibers a speculation policy allows beside the first. -/
def Speculation.allowance (speculation : Option Speculation) : Nat :=
  (speculation.map Speculation.max).getD 0

/-- The fiber an act launches. -/
def Act.opened? : Act → Option Nat
  | .opened i => some i
  | _ => none

/-- What the information of an execution says of its fibers. The speculation is that of the profile,
which is followed for idempotent statements only. -/
structure Execution.Credits (idempotent : Bool) (speculation : Option Speculation) (x : Execution)
    (acts : List Act) : Prop where
  /-- A result is credited to the attempt that got it or whose failure was ignored: to its node, its
  connection and its fiber. -/
  winner : ∀ answer info, x.result? = some (.ok (answer, info)) → ∃ n i node connection,
    Claim acts n i node answer ∧ .began n i node connection ∈ acts ∧
      info.coordinator = some ⟨node, connection.address⟩ ∧ info.successIndex = some i ∧
      i ≤ info.speculative
  /-- A failure is credited to nobody. -/
  nobody : ∀ e info, x.result? = some (.error e) → e.info? = some info →
    info.coordinator = none ∧ info.successIndex = none
  /-- Each fiber is launched with a retry session of its own, under the next number. -/
  launched : ∀ r info, x.result? = some r → ExecutionInfo.of? r = some info →
    x.fibers.length = info.speculative + 1 ∧
      acts.filterMap Act.opened? = List.range (info.speculative + 1)
  allowed : ∀ r info, x.result? = some r → ExecutionInfo.of? r = some info →
    info.speculative ≤ Speculation.allowance speculation
  /-- Without idempotence, or without speculation in the profile, there is but one fiber. -/
  alone : idempotent = false ∨ speculation = none → ∀ r info, x.result? = some r →
    ExecutionInfo.of? r = some info →
    info.speculative = 0 ∧ ∀ i, info.successIndex = some i → i = 0

namespace Race

variable {α : Type} {speculation : Option Speculation} {since : Nat} {r : Race α}
  {es : List (Nat × Ending α)}

/-- The first fiber is launched at once. -/
theorem Runs.launched_pos (h : Runs speculation since r es) : 0 < r.launched := by
  induction h with
  | start => exact Nat.one_pos
  | launch now _ _ _ => exact Nat.succ_pos _
  | finish fiber e _ _ _ _ ih => rwa [finish_launched]

/-- The fibers launched and those left to launch are no more than the first one and those the
policy allows. -/
theorem Runs.launched_add_left (h : Runs speculation since r es) :
    r.launched + r.left ≤ Speculation.allowance speculation + 1 := by
  induction h with
  | start =>
    cases speculation <;> simp [Race.start, launchFirst, Speculation.allowance, Nat.add_comm]
  | @launch r es now _ hmay ih =>
    have hleft := ((mayLaunch_iff _).1 hmay).2
    simp only [Race.launch]
    omega
  | @finish r es fiber e _ _ _ _ ih =>
    have hle := r.finish_left_le e
    rw [finish_launched]
    omega

end Race

/-- No fiber is launched in a move of another. -/
theorem Pose.Move.opened_eq {ω : Type} {env : Environment ω} {settings : Settings} {p p' : Pose}
    {s s' : Shared} {acts : List Act} (h : Move env settings p s acts p' s') :
    acts.filterMap Act.opened? = [] := by
  cases h with
  | fails hp hf hd hne | ignores hp hf hd =>
    cases hf <;> simp [List.filterMap_cons, Act.opened?]
  | _ => simp [List.filterMap_cons, Act.opened?, Function.comp_def]

/-- The fibers are numbered in the order of their launches. -/
theorem Trail.opened_eq {ω : Type} {env : Environment ω} {settings : Settings} {acts : List Act}
    {s : Shared} {ps : List Pose} (h : Trail env settings acts s ps) :
    acts.filterMap Act.opened? = List.range ps.length := by
  induction h with
  | start => rfl
  | opens rule _ ih =>
    rw [List.filterMap_append, ih, List.length_append, List.length_singleton, List.range_succ]
    rfl
  | moves _ _ hmove ih =>
    rw [List.filterMap_append, ih, hmove.opened_eq, List.append_nil, List.length_set]

namespace Execution

variable {ω : Type} {env : Environment ω} {settings : Settings} {speculation : Option Speculation}
  {since : Nat} {x : Execution} {acts : List Act}

/-- What a result tells of the fibers is how many were launched. -/
theorem speculative_of_result {r : Except ExecutionError (Answer × ExecutionInfo)}
    {info : ExecutionInfo} (hr : x.result? = some r) (hinfo : ExecutionInfo.of? r = some info) :
    info.speculative = x.race.launched - 1 := by
  obtain ⟨e, -, rfl⟩ := Option.map_eq_some_iff.1 hr
  cases e with
  | succeeded v =>
    obtain rfl := Option.some.inj hinfo
    rfl
  | failed f =>
    simp only [ExecutionInfo.of?, failure_info?, Option.some.injEq] at hinfo
    rw [← hinfo]
    rfl
  | idle => cases hinfo

/-- A result tells how many fibers there are, and that the policy allows them. -/
theorem Unfolds.fibers_length (h : Unfolds env settings speculation since x acts)
    {r : Except ExecutionError (Answer × ExecutionInfo)} {info : ExecutionInfo}
    (hr : x.result? = some r) (hinfo : ExecutionInfo.of? r = some info) :
    x.fibers.length = info.speculative + 1 ∧
      info.speculative ≤ Speculation.allowance speculation := by
  obtain ⟨es, hrace⟩ := h.racing
  have hlaunched := hrace.launched
  have hpos := hrace.runs.launched_pos
  have hbound := hrace.runs.launched_add_left
  rw [speculative_of_result hr hinfo]
  omega

/-- The fiber that won is one of those a result tells of. -/
theorem Unfolds.winner_le (h : Unfolds env settings speculation since x acts) {answer : Answer}
    {info : ExecutionInfo} (hr : x.result? = some (.ok (answer, info))) {i : Nat}
    (hi : info.successIndex = some i) : i ≤ info.speculative := by
  obtain ⟨n, j, node, connection, -, hbegan, -, hj⟩ := h.standing.winner hr
  obtain rfl : i = j := Option.some.inj (hi.symm.trans hj)
  have hlt := h.trail.fiber_lt hbegan rfl
  have hlength := (h.fibers_length hr rfl).1
  rw [List.length_map] at hlt
  omega

/-- What a profile's speculation allows to a call is nothing if the statement is not idempotent. -/
theorem Terms.allowance_ofCall (s : Session) (config : StatementConfig) (call : Call) :
    Speculation.allowance (Terms.ofCall s config call).speculation =
      if config.idempotent then Speculation.allowance (s.profileOf config).speculation else 0 := by
  simp only [Terms.ofCall]
  split <;> rfl

/-- **A result is credited to the node, the connection and the fiber it comes from**, and the fibers
are counted as they were launched, under any policies and in any order of the fibers' turns. -/
theorem Arises.credits {s : Session} {config : StatementConfig} {call : Call}
    (h : Arises env settings (Terms.ofCall s config call).speculation x acts) :
    x.Credits config.idempotent (s.profileOf config).speculation acts := by
  obtain ⟨since, h⟩ := h.unfolds
  have hallowance := Terms.allowance_ofCall s config call
  refine
    { winner := fun answer info hr => ?_
      nobody := fun e info he hinfo => ?_
      launched := fun r info hr hinfo => ?_
      allowed := fun r info hr hinfo => ?_
      alone := fun halone r info hr hinfo => ?_ }
  · obtain ⟨n, i, node, connection, hclaim, hbegan, hcoordinator, hindex⟩ := h.standing.winner hr
    exact ⟨n, i, node, connection, hclaim, hbegan, hcoordinator, hindex, h.winner_le hr hindex⟩
  · obtain ⟨f, -, rfl⟩ | ⟨-, rfl⟩ := result?_eq_error.1 he
    · rw [failure_info?, Option.some.injEq] at hinfo
      rw [← hinfo]
      exact ⟨rfl, rfl⟩
    · cases hinfo
  · have hlength := (h.fibers_length hr hinfo).1
    refine ⟨hlength, ?_⟩
    rw [h.trail.opened_eq, List.length_map, hlength]
  · have hle := (h.fibers_length hr hinfo).2
    rw [hallowance] at hle
    split at hle
    · exact hle
    · omega
  · have hnone : info.speculative = 0 := by
      have hle := (h.fibers_length hr hinfo).2
      rw [hallowance] at hle
      rcases halone with hidempotent | hspeculation
      · simpa [hidempotent] using hle
      · simpa [hspeculation, Speculation.allowance] using hle
    refine ⟨hnone, fun i hi => ?_⟩
    cases r with
    | ok a =>
      obtain rfl := Option.some.inj hinfo
      have := h.winner_le hr hi
      omega
    | error e =>
      obtain ⟨f, -, rfl⟩ | ⟨-, rfl⟩ := result?_eq_error.1 hr
      · simp only [ExecutionInfo.of?, failure_info?, Option.some.injEq] at hinfo
        rw [← hinfo] at hi
        cases hi
      · cases hinfo

/-- Two of the three fibers the profile allows are launched, and the second one wins. -/
theorem Arises.credits_second_fiber :
    let config : StatementConfig := { StatementConfig.standard with idempotent := true }
    let b := Node.sample "10.0.0.2" 1
    ∃ (x : Execution) (acts : List Act) (answer : Answer) (info : ExecutionInfo),
      x.Credits config.idempotent (Session.sample.profileOf config).speculation acts ∧
      x.result? = some (.ok (answer, info)) ∧
      info.coordinator = some ⟨b, b.address⟩ ∧ info.successIndex = some 1 ∧
      x.fibers.length = 2 ∧ acts.filterMap Act.opened? = [0, 1] ∧
      ∃ n i node connection, Claim acts n i node answer ∧
        .began n i node connection ∈ acts ∧ connection.address = b.address ∧ i = 1 := by
  intro config b
  let terms := Terms.ofCall Session.sample config (.query "SELECT v FROM t" .none .unpaged none)
  let void : Answer := .void
  let events : List Event := [.launch, .signal 1 .first .acknowledged,
    .signal 1 .first (.delivered (.ok ⟨.result .void, .none⟩))]
  have hstart : Reaches terms.environment terms.settings terms.speculation _ _ :=
    .start 0 Session.sample
  have hcredits := (hstart.follow 0 Session.sample events).arises.credits
  let first := Execution.start terms.environment terms.settings terms.speculation 0 Session.sample
  let run := first.execution.follow terms.environment terms.settings 0 Session.sample first.acts
    events
  let info : ExecutionInfo := { ExecutionInfo.empty with
    coordinator := some ⟨b, b.address⟩
    speculative := 1
    successIndex := some 1 }
  have hresult : run.1.result? = some (.ok (void, info)) := by cbv
  obtain ⟨hlength, hopened⟩ := hcredits.launched _ info hresult rfl
  obtain ⟨n, i, node, connection, hclaim, hbegan, hcoordinator, hindex, -⟩ :=
    hcredits.winner void info hresult
  have haddress : b.address = connection.address :=
    congrArg Coordinator.connection (Option.some.inj hcoordinator)
  exact ⟨run.1, run.2, void, info, hcredits, hresult, rfl, rfl, hlength, hopened, n, i, node,
    connection, hclaim, hbegan, haddress.symm, (Option.some.inj hindex).symm⟩

end Execution

end ClusterClient
