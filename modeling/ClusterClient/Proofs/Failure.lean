import ClusterClient.Proofs.Refresh

/-!
# Operations that fail

An operation of a session that fails leaves nodes, keyspace and pools as they would be without it
(`Client.Errand.failure_leaves`). There is one exception. The switch of the keyspace goes with the
result of the execution, before the operation looks at it; so a preparation that is answered with a
switch fails after the keyspace is switched and the pools are told
(`Client.Errand.preparation_switches`).
-/

namespace ClusterClient

/-- Whether an operation came to an error. -/
def Outcome.fails : Outcome → Bool
  | .queried (.error _) | .prepared (.error _) | .keyspaceUsed (.error _) | .refreshed (.error _)
  | .listed (.error _) | .found (.error _) | .controlOpened (.error _)
  | .inquired (.error _) => true
  | _ => false

/-- Whether an operation is one of a session, and not of its monitor alone. -/
def Operation.isOfSession : Operation → Bool
  | .query .. | .prepare _ | .execute .. | .useKeyspace .. | .refreshCluster _ => true
  | .listNodes | .refreshNode .. | .findNode _ | .openControl | .inquire .. => false

/-- The result is claimed with one answer. -/
theorem Claim.unique {acts : List Act} {n n' i i' : Nat} {node node' : Node}
    {answer answer' : Answer} (h : Claim acts n i node answer)
    (h' : Claim acts n' i' node' answer') : answer = answer' := by
  cases h with
  | response before hacts hr =>
    cases h' with
    | response before' hacts' hr' =>
      obtain ⟨-, hlast⟩ := List.append_inj' (hacts.symm.trans hacts') rfl
      cases hlast
      exact Except.ok.inj (hr.symm.trans hr')
    | ignored before' error report hacts' =>
      obtain ⟨-, hlast⟩ := List.append_inj' (hacts.symm.trans hacts') rfl
      cases hlast
  | ignored before error report hacts =>
    cases h' with
    | response before' hacts' hr' =>
      obtain ⟨-, hlast⟩ := List.append_inj' (hacts.symm.trans hacts') rfl
      cases hlast
    | ignored before' error' report' hacts' => rfl

theorem Claim.claimed {acts : List Act} {n i : Nat} {node : Node} {answer : Answer}
    (h : Claim acts n i node answer) : .claimed n i ∈ acts := by
  cases h with
  | response before hacts | ignored before error report hacts => simp [hacts]

/-- A failed call switches the keyspace only if it is a preparation. -/
theorem Purpose.switchOf?_of_fails {purpose : Purpose}
    {r : Except ExecutionError (Answer × ExecutionInfo)} (h : (purpose.outcome r).fails = true)
    {k : String} (hk : Client.switchOf? r = some k) :
    ∃ s, purpose = .preparation s ∧
      purpose.outcome r = .prepared (.error (.unexpectedResponse .result)) := by
  cases r with
  | error e => cases hk
  | ok a =>
    obtain ⟨answer, info⟩ := a
    have hk : answer.body.keyspace? = some k := hk
    cases purpose with
    | rows => cases h
    | keyspace => simp [outcome, Execution.keyspaceResult, hk, Outcome.fails] at h
    | preparation s =>
      refine ⟨s, rfl, ?_⟩
      cases hbody : answer.body with
      | setKeyspace => simp [outcome, Execution.preparedResult, hbody]
      | void | rows | prepared => simp [ResultBody.keyspace?, hbody] at hk

namespace Client

variable {n : Nat} {o : Operation} {strides : List Stride} {hs : List Happening}

/-- The result is claimed with a switch to a keyspace. -/
def Switching (strides : List Stride) (k : String) : Prop :=
  ∃ a f node answer, Claim (strides.flatMap Stride.acts) a f node answer ∧
    answer.body.keyspace? = some k

/-- What the result switches to is what it is claimed with. -/
theorem Course.switching_iff {purpose : Purpose} {terms : Terms} {x : Execution}
    (h : Course n purpose terms strides x) {k : String} :
    Switching strides k ↔ x.result?.bind switchOf? = some k := by
  obtain ⟨since, hruns⟩ := h.law.reaches.runs
  have hstanding := hruns.standing
  rw [result?_bind_switchOf?]
  constructor
  · rintro ⟨a, f, node, answer, hclaim, hk⟩
    obtain ⟨answer', info, hr⟩ := hstanding.result_ok_iff.2 ⟨a, f, hclaim.claimed⟩
    obtain ⟨_, _, _, _, hclaim', -⟩ := hstanding.winner hr
    obtain rfl := hclaim.unique hclaim'
    exact ⟨answer, info, hr, hk⟩
  · rintro ⟨answer, info, hr, hk⟩
    obtain ⟨a, f, node, connection, hclaim, -⟩ := hstanding.winner hr
    exact ⟨a, f, node, answer, hclaim, hk⟩

theorem Course.touching_of_switching {purpose : Purpose} {terms : Terms} {x : Execution}
    (h : Course n purpose terms strides x) {k : String} (hk : Switching strides k) :
    Touching strides (some k) := by
  have htouching := h.law.touching
  rwa [h.switching_iff.1 hk] at htouching

/-- An execution whose result switches to nothing touches nothing. -/
theorem Course.quiet_of_not_switching {purpose : Purpose} {terms : Terms} {x : Execution}
    (h : Course n purpose terms strides x) (hno : ∀ k, ¬ Switching strides k) :
    ∀ s ∈ strides, s.Quiet := by
  have htouching := h.law.touching
  rwa [Option.eq_none_iff_forall_ne_some.2 fun k hk => hno k (h.switching_iff.2 hk)] at htouching

/-- A name that is no keyspace's is refused at once. -/
theorem Errand.quiet_of_badName {name : String} {caseSensitive : Bool}
    (h : Errand n (.useKeyspace name caseSensitive) strides hs) {e : BadKeyspaceName}
    (hname : checkKeyspaceName name = .error e) :
    (∀ last, strides.getLast? = some last → last.after.task? n = none) ∧
      ∀ s ∈ strides, s.Quiet := by
  induction h with
  | start c now hc =>
    have hbegin : c.begin now n (.useKeyspace name caseSensitive) =
        (c, [.finished n (.keyspaceUsed (.error (.badName e)))]) := by
      simp [begin, hname]
    rw [hbegin]
    exact ⟨by simpa using hc, List.forall_mem_singleton.2 (quiet_of_session rfl rfl)⟩
  | step c now h _ hlast hc ih =>
    obtain ⟨hnone, hquiet⟩ := ih
    have hc := hc.trans (hnone _ hlast)
    rw [step_none hc]
    exact ⟨by simpa using hc,
      List.forall_mem_append.2 ⟨hquiet, List.forall_mem_singleton.2 (quiet_idle c)⟩⟩

/-- **An operation that fails touches nothing**, unless it is a preparation that is answered with a
switch of the keyspace. -/
theorem Errand.quiet_of_fails (h : Errand n o strides hs) (ho : o.isOfSession = true)
    {outcome : Outcome} (hfinished : .finished n outcome ∈ strides.flatMap Stride.notices)
    (hfails : outcome.fails = true) :
    (∀ s ∈ strides, s.Quiet) ∨ ∃ s k, o = .prepare s ∧ Switching strides k := by
  have called {config : StatementConfig} {call : Call} {purpose : Purpose}
      (hcall : o.call? = some (config, call, purpose)) :
      (∀ s ∈ strides, s.Quiet) ∨ ∃ s k, purpose = .preparation s ∧ Switching strides k := by
    obtain ⟨terms, x, hcourse⟩ := h.course hcall
    obtain ⟨r, hr, rfl⟩ := hcourse.result_of_finished hfinished
    by_cases hno : ∀ k, ¬ Switching strides k
    · exact .inl (hcourse.quiet_of_not_switching hno)
    · obtain ⟨k, hk⟩ := not_forall_not.1 hno
      have hswitch := hcourse.switching_iff.1 hk
      rw [hr] at hswitch
      obtain ⟨s, hs, -⟩ := Purpose.switchOf?_of_fails hfails hswitch
      exact .inr ⟨s, k, hs, hk⟩
  cases o with
  | query | execute =>
    rcases called rfl with hquiet | ⟨s, k, hs, -⟩
    · exact .inl hquiet
    · cases hs
  | prepare s =>
    rcases called rfl with hquiet | ⟨_, k, -, hk⟩
    · exact .inl hquiet
    · exact .inr ⟨s, k, rfl, hk⟩
  | useKeyspace name caseSensitive =>
    cases hname : checkKeyspaceName name with
    | error e => exact .inl (h.quiet_of_badName hname).2
    | ok =>
      have hcall : (Operation.useKeyspace name caseSensitive).call? =
          some (.standard, .query (useText name caseSensitive) .none .unpaged none, .keyspace) := by
        simp [Operation.call?, hname]
      rcases called hcall with hquiet | ⟨s, k, hs, -⟩
      · exact .inl hquiet
      · cases hs
  | refreshCluster provide =>
    cases h.refreshing with
    | reading _ _ _ _ _ _ _ hunfinished => exact absurd hfinished (hunfinished _)
    | failed _ _ _ _ hquiet => exact .inl hquiet
    | done _ _ honly =>
      rw [honly _ hfinished] at hfails
      cases hfails
  | listNodes | refreshNode | findNode | openControl | inquire => cases ho

/-- **A failure leaves the session as it was.** Every stride of an operation that fails leaves
keyspace, nodes and pools alone and tells no pool anything; so they are in the end what the others
alone made of them in between. This holds of all operations but a preparation whose result is
claimed with a switch of the keyspace, which switches it and fails. -/
theorem Errand.failure_leaves (h : Errand n o strides hs) (ho : o.isOfSession = true)
    {outcome : Outcome} (hfinished : .finished n outcome ∈ strides.flatMap Stride.notices)
    (hfails : outcome.fails = true) :
    ((∀ s k, o = .prepare s → ¬ Switching strides k) →
      (∀ s ∈ strides, s.Quiet) ∧ ∀ first last changes, strides.head? = some first →
        strides.getLast? = some last → Stride.Meanwhile strides changes →
        last.after.session.holdings =
          changes.foldl (fun held change => change held) first.before.session.holdings) ∧
    ∀ s k, o = .prepare s → Switching strides k →
      Touching strides (some k) ∧ outcome = .prepared (.error (.unexpectedResponse .result)) := by
  refine ⟨fun hno => ?_, ?_⟩
  · have hquiet : ∀ s ∈ strides, s.Quiet :=
      (h.quiet_of_fails ho hfinished hfails).resolve_right fun ⟨s, k, hs, hk⟩ => hno s k hs hk
    refine ⟨hquiet, fun first last changes hfirst hlast hchanges => ?_⟩
    obtain ⟨more, rfl⟩ := List.head?_eq_some_iff.1 hfirst
    exact hchanges.of_quiet hquiet hlast
  · rintro s k rfl hk
    obtain ⟨terms, x, hcourse⟩ := h.course rfl
    obtain ⟨r, hr, rfl⟩ := hcourse.result_of_finished hfinished
    have hswitch := hcourse.switching_iff.1 hk
    rw [hr] at hswitch
    obtain ⟨-, -, houtcome⟩ := Purpose.switchOf?_of_fails hfails hswitch
    exact ⟨hcourse.touching_of_switching hk, houtcome⟩

/-- A switch of the keyspace is answered with nothing while another operation switches it. -/
theorem Errand.failure_leaves_refused_switch :
    ∃ (strides : List Stride) (hs : List Happening) (last : Stride),
      Errand 0 (.useKeyspace "ks" true) (strides ++ [last]) hs ∧
      .finished 0 (.keyspaceUsed (.error .notSet)) ∈ last.notices ∧
      (∀ s ∈ strides ++ [last], s.Quiet) ∧
      last.after.session.holdings = (Session.sample.nodes, some "other", Session.sample.pools) := by
  let void : Signal := .delivered (.ok ⟨.result .void, .none⟩)
  let switched (c : Client) : Client :=
    { c with session := { c.session with keyspace := some "other" } }
  let changes : List (Holdings → Holdings) := [id, fun held => (held.1, some "other", held.2.2)]
  have leaves {first s last : Stride} {hs : List Happening}
      (h : Errand 0 (.useKeyspace "ks" true) ([] ++ [first] ++ [s] ++ [last]) hs)
      (hfinished : last.notices.getLast? = some (.finished 0 (.keyspaceUsed (.error .notSet))))
      (hs : s.before = first.after) (hlast : last.before = switched s.after) :
      .finished 0 (.keyspaceUsed (.error .notSet)) ∈ last.notices ∧
        (∀ t ∈ [] ++ [first] ++ [s] ++ [last], t.Quiet) ∧ last.after.session.holdings =
          (first.before.session.nodes, some "other", first.before.session.pools) := by
    have hmem := List.mem_of_getLast? hfinished
    obtain ⟨hleaves, -⟩ := h.failure_leaves rfl
      (List.mem_flatMap.2 ⟨_, List.mem_concat_self, hmem⟩) rfl
    obtain ⟨hquiet, hheld⟩ := hleaves (by simp)
    refine ⟨hmem, hquiet, hheld first last changes rfl rfl ⟨?_, ?_, trivial⟩⟩
    · rw [hs]
      rfl
    · rw [hlast]
      rfl
  have h₀ := Errand.of_start (fresh .sample) 0 (.useKeyspace "ks" true) rfl
  have h₁ := h₀.next id (fun _ => rfl) 1 (.signal (.attempt 0 .first) .acknowledged)
  have h₂ := h₁.next switched (fun _ => rfl) 2 (.signal (.attempt 0 .first) void)
  exact ⟨_, _, _, h₂, leaves h₂ (by cbv) rfl rfl⟩

/-- A preparation is answered with a switch of the keyspace: it fails, and the keyspace is switched
and the pools are told. -/
theorem Errand.preparation_switches :
    ∃ (strides : List Stride) (hs : List Happening) (last : Stride),
      Errand 0 (.prepare (.ofText "SELECT v FROM t")) (strides ++ [last]) hs ∧
      .finished 0 (.prepared (.error (.unexpectedResponse .result))) ∈ last.notices ∧
      last.before.session.keyspace = none ∧ last.after.session.keyspace = some "ks" ∧
      last.pools = [.told 0 "ks", .told 1 "ks"] := by
  let switch : Signal := .delivered (.ok ⟨.result (.setKeyspace "ks"), .none⟩)
  have h₀ := Errand.of_start (fresh .sample) 0 (.prepare (.ofText "SELECT v FROM t")) rfl
  have h₁ := h₀.next id (fun _ => rfl) 1 (.signal (.attempt 0 .first) .acknowledged)
  have h₂ := h₁.next id (fun _ => rfl) 2 (.signal (.attempt 0 .first) switch)
  exact ⟨_, _, _, h₂, List.mem_of_getLast? (by cbv), by cbv, by cbv, by cbv⟩

end Client

end ClusterClient
