import ClusterClient.Proofs.Course
import ClusterClient.Proofs.Timeline

/-!
# Operations among others

`Client.Errand` is every way an operation goes in a client: the stride in which it begins and those
of everything that happens to its task, with the client changed by others in between as in
`Client.Course`. An operation that executes a call (`Operation.call?`) follows a course, and ends
with what the execution's result comes to (`Errand.course`).

What others make of nodes, keyspace and pools between the strides is a list of changes
(`Stride.Meanwhile`). If all strides are quiet, there is in the end what these changes alone make of
what was there at first (`Stride.Meanwhile.of_quiet`).
-/

namespace ClusterClient

/-- The call an operation executes, with its configuration and what it is for. -/
def Operation.call? : Operation → Option (StatementConfig × Call × Purpose)
  | .query s values paging =>
    some (s.config, .query s.text (.positional values) (paging.pageSize s.pageSize) paging.state,
      .rows)
  | .prepare s => some ({ s.config with idempotent := true }, .prepare s.text, .preparation s)
  | .execute s values paging =>
    some (s.config,
      .execute s.id s.text (.positional values) (paging.pageSize s.pageSize) paging.state, .rows)
  | .useKeyspace name caseSensitive =>
    match checkKeyspaceName name with
    | .error _ => none
    | .ok () => some (.standard, .query (useText name caseSensitive) .none .unpaged none, .keyspace)
  | _ => none

/-- What the operations of a client leave to each other. -/
abbrev Holdings := List Node × Option String × List Pool

/-- The nodes, the keyspace and the pools of a session. -/
def Session.holdings (s : Session) : Holdings := (s.nodes, s.keyspace, s.pools)

namespace Stride

theorem Quiet.holdings {s : Stride} (h : s.Quiet) :
    s.after.session.holdings = s.before.session.holdings := by
  simp [Session.holdings, h.nodes, h.keyspace, h.pools]

/-- What others make of nodes, keyspace and pools from each stride to the next. -/
def Meanwhile : List Stride → List (Holdings → Holdings) → Prop
  | [_], [] => True
  | s :: t :: more, change :: changes =>
    t.before.session.holdings = change s.after.session.holdings ∧ Meanwhile (t :: more) changes
  | _, _ => False

/-- Quiet strides leave what others make of the start. -/
theorem Meanwhile.of_quiet {first last : Stride} {strides : List Stride}
    {changes : List (Holdings → Holdings)} (h : Meanwhile (first :: strides) changes)
    (hquiet : ∀ s ∈ first :: strides, s.Quiet)
    (hlast : (first :: strides).getLast? = some last) :
    last.after.session.holdings =
      changes.foldl (fun held change => change held) first.before.session.holdings := by
  induction strides generalizing first changes with
  | nil =>
    cases changes with
    | nil =>
      cases hlast
      exact (hquiet _ List.mem_cons_self).holdings
    | cons => exact h.elim
  | cons t more ih =>
    cases changes with
    | nil => exact h.elim
    | cons change changes =>
      obtain ⟨hchange, hmore⟩ := h
      rw [List.getLast?_cons_cons] at hlast
      rw [ih hmore (fun s hs => hquiet s (List.mem_cons_of_mem _ hs)) hlast, hchange,
        (hquiet first List.mem_cons_self).holdings, List.foldl_cons]

end Stride

namespace Client

theorem begin_of_call {o : Operation} {config : StatementConfig} {call : Call} {purpose : Purpose}
    (h : o.call? = some (config, call, purpose)) (c : Client) (now n : Nat) :
    c.begin now n o = c.startCall now n config call purpose := by
  cases o with
  | query | prepare | execute =>
    cases h
    rfl
  | useKeyspace name caseSensitive =>
    simp only [Operation.call?] at h
    split at h
    · cases h
    · next hname =>
      cases h
      simp [begin, hname]
  | refreshCluster | listNodes | refreshNode | findNode | openControl | inquire => cases h

/-- The strides of an operation under a number, with what happened to it. -/
inductive Errand (n : Nat) (o : Operation) : List Stride → List Happening → Prop
  | start (c : Client) (now : Nat) :
      c.task? n = none → Errand n o [⟨c, (c.begin now n o).1, (c.begin now n o).2⟩] []
  | step {strides : List Stride} {last : Stride} {hs : List Happening} (c : Client) (now : Nat)
      (h : Happening) :
      Errand n o strides hs → strides.getLast? = some last → c.task? n = last.after.task? n →
      Errand n o (strides ++ [⟨c, (c.step now n h).1, (c.step now n h).2⟩]) (hs ++ [h])

section
variable {n : Nat} {o : Operation} {strides : List Stride} {s : Stride} {hs : List Happening}

/-- An operation that is started goes on under the number it gets. -/
theorem Errand.of_start (c : Client) (now : Nat) (o : Operation)
    (hc : c.task? c.nextTask = none) :
    Errand c.nextTask o
      ([] ++ [⟨{ c with nextTask := c.nextTask + 1 }, (c.start now o).1, (c.start now o).2⟩]) [] :=
  .start { c with nextTask := c.nextTask + 1 } now hc

theorem Errand.exists_head {o : Operation} (h : Errand n o strides hs) :
    ∃ first, strides.head? = some first := by
  induction h with
  | start c now hc => exact ⟨_, rfl⟩
  | step c now h _ _ _ ih =>
    obtain ⟨first, hfirst⟩ := ih
    exact ⟨first, by simp [hfirst]⟩

/-- The stride that follows on another after the client has changed. -/
theorem Errand.next (he : Errand n o (strides ++ [s]) hs) (change : Client → Client)
    (hchange : ∀ c, (change c).task? n = c.task? n) (now : Nat) (h : Happening) :
    Errand n o
      (strides ++ [s] ++
        [⟨change s.after, ((change s.after).step now n h).1, ((change s.after).step now n h).2⟩])
      (hs ++ [h]) :=
  he.step _ now h List.getLast?_concat (hchange _)

/-- An operation that executes a call follows a course. -/
theorem Errand.course (h : Errand n o strides hs) {config : StatementConfig} {call : Call}
    {purpose : Purpose} (hcall : o.call? = some (config, call, purpose)) :
    ∃ terms x, Course n purpose terms strides x := by
  induction h with
  | start c now hc =>
    rw [begin_of_call hcall]
    exact ⟨_, _, .start c now config call rfl⟩
  | step c now h _ hlast hc ih =>
    obtain ⟨terms, x, hcourse⟩ := ih
    exact ⟨terms, _, hcourse.step c now h hlast hc⟩

/-- A course ends with what the execution's result comes to, and with nothing else. -/
theorem Course.result_of_finished {purpose : Purpose} {terms : Terms} {x : Execution}
    (h : Course n purpose terms strides x) {m : Nat} {outcome : Outcome}
    (hmem : .finished m outcome ∈ strides.flatMap Stride.notices) :
    ∃ r, x.result? = some r ∧ outcome = purpose.outcome r := by
  have settled {c : Client} {moved : Moved Session}
      (hmem : .finished m outcome ∈ (settling c n terms purpose moved).notices) :
      ∃ r, moved.execution.result? = some r ∧ outcome = purpose.outcome r := by
    unfold settling at hmem
    cases hr : moved.execution.result? with
    | none =>
      rw [settleExecution_open hr] at hmem
      exact absurd hmem (finished_notMem_issued terms _ m outcome)
    | some r =>
      rw [settleExecution_over hr] at hmem
      simp only [List.mem_append, List.mem_singleton] at hmem
      obtain (hmem | hmem) | hmem := hmem
      · exact absurd hmem (finished_notMem_issued terms _ m outcome)
      · simp at hmem
      · exact ⟨r, rfl, (Notice.finished.inj hmem).2⟩
  induction h with
  | start c now config call hterms =>
    subst hterms
    exact settled (by simpa [settling, startCall] using hmem)
  | @step strides last x c now h hcourse hlast hc ih =>
    rw [List.flatMap_append, List.mem_append] at hmem
    rcases hcourse.law.stride_cases hlast hc now h with ⟨hstep, hx⟩ | ⟨hr, e, hstep, hx⟩
    · rw [hx]
      exact ih (hmem.resolve_right (by simp [hstep]))
    · rw [hx]
      rcases hmem with hmem | hmem
      · obtain ⟨r, hr', -⟩ := ih hmem
        rw [hr] at hr'
        cases hr'
      · exact settled (by simpa [hstep, settling] using hmem)

/-- In each stride of a course its execution moves, or nothing is noticed. -/
theorem Course.settling_or_idle {purpose : Purpose} {terms : Terms} {x : Execution}
    (h : Course n purpose terms strides x) :
    ∀ s ∈ strides, (∃ c m, s = settling c n terms purpose m) ∨ s.notices = [] := by
  induction h with
  | start c now config call hterms =>
    subst hterms
    exact List.forall_mem_singleton.2 (.inl ⟨c, _, rfl⟩)
  | @step strides last x c now happening hcourse hlast hc ih =>
    refine List.forall_mem_append.2 ⟨ih, List.forall_mem_singleton.2 ?_⟩
    rcases hcourse.law.stride_cases hlast hc now happening with ⟨hstep, -⟩ | ⟨-, e, hstep, -⟩
    · exact .inr (by rw [hstep])
    · exact .inl ⟨c, _, by rw [hstep]; rfl⟩

/-- What is noticed in a stride in which an execution moves. -/
theorem settling_notice_cases {c : Client} {terms : Terms} {purpose : Purpose} {m : Moved Session}
    {notice : Notice} (hmem : notice ∈ (settling c n terms purpose m).notices) :
    notice ∈ m.acts.flatMap (issued n terms) ∨
      (∃ act, notice = .pool act) ∨ ∃ outcome, notice = .finished n outcome := by
  unfold settling at hmem
  cases hr : m.execution.result? with
  | none =>
    rw [settleExecution_open hr] at hmem
    exact .inl hmem
  | some r =>
    rw [settleExecution_over hr] at hmem
    simp only [List.mem_append, List.mem_map, List.mem_singleton] at hmem
    obtain (hmem | ⟨act, -, rfl⟩) | rfl := hmem
    · exact .inl hmem
    · exact .inr (.inl ⟨act, rfl⟩)
    · exact .inr (.inr ⟨_, rfl⟩)

/-- What is noticed on a course is what its execution does, what is done to the pools, and the
outcome. -/
theorem Course.notice_cases {purpose : Purpose} {terms : Terms} {x : Execution}
    (h : Course n purpose terms strides x) {notice : Notice}
    (hmem : notice ∈ strides.flatMap Stride.notices) :
    notice ∈ (strides.flatMap Stride.acts).flatMap (issued n terms) ∨
      (∃ act, notice = .pool act) ∨ ∃ outcome, notice = .finished n outcome := by
  obtain ⟨s, hs, hmem⟩ := List.mem_flatMap.1 hmem
  obtain ⟨c, m, rfl⟩ | hnone := h.settling_or_idle s hs
  · refine (settling_notice_cases hmem).imp_left fun hacts => ?_
    obtain ⟨act, hact, hnotice⟩ := List.mem_flatMap.1 hacts
    exact List.mem_flatMap.2
      ⟨act, List.mem_flatMap.2 ⟨_, hs, by rwa [settling_acts]⟩, hnotice⟩
  · rw [hnone] at hmem
    cases hmem

end

end Client
end ClusterClient
