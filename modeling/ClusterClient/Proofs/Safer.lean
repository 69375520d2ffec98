import ClusterClient.Proofs.Budget

/-!
# Safer reports

A report is safer than another if it says the same but that its statement may be applied again, or
that nothing was written, where the other one does not (`Report.Safer`). Two sessions of the
standard policy of which one is told safer reports throughout do not keep the same budget: the safer
one may spend the retry of a write that timed out, which the other is never granted. `Budget.Kin` is
what they have in common, and so every retry the first one decides on is decided on by the safer one
(`RetrySession.safer_retries`).

A report that spends nothing can be left out (`Prompt.Thinned`): one at a serial consistency, or of
a failure that is never retried (`Report.Futile`).
-/

namespace ClusterClient

/-- What a retry session is told: that an attempt failed, or to forget what it was told. -/
inductive Prompt where
  | failed (report : Report)
  | reset

namespace RetrySession

/-- A session after it was told something. -/
def hear (s : RetrySession) : Prompt → RetrySession
  | .failed r => (s.report r).2
  | .reset => s.reset

/-- The decision of a session of the standard policy on a report, after all it was told before. -/
def decision (told : List Prompt) (r : Report) : Decision :=
  ((told.foldl hear (fresh .standard)).report r).1

end RetrySession

open RetrySession (decision)

/-- A report, on a statement that may be applied again or not, and one that says the same but is on
a statement that may, or of a request that was not written. How often the sessions retried before
plays no part. -/
structure Report.Safer (idempotent idempotent' : Bool) (r r' : Report) : Prop where
  error : r'.error = r.error
  consistency : r'.consistency = r.consistency
  first : r.idempotent = idempotent
  second : r'.idempotent = idempotent'
  written : r'.written = true → r.written = true

/-- What two sessions are told together: the second a safer report, or both to forget all. -/
inductive Prompt.Safer (idempotent idempotent' : Bool) : Prompt → Prompt → Prop
  | failed {r r' : Report} :
      r.Safer idempotent idempotent' r' → Safer idempotent idempotent' (.failed r) (.failed r')
  | reset : Safer idempotent idempotent' .reset .reset

/-- A report of a failure that no session retries, whatever it was told before and whatever else a
report on such a statement says. -/
def Report.Futile (r : Report) : Prop :=
  ∀ (told : List Prompt) (r' : Report), r'.error = r.error → r'.idempotent = r.idempotent →
    (decision told r').isRetry = false

/-- A report that makes no difference. -/
def Report.Idle (r : Report) : Prop :=
  r.consistency.isSerial = true ∨ r.Futile

/-- What a session is told, and the same with some idle reports left out. -/
inductive Prompt.Thinned : List Prompt → List Prompt → Prop
  | nil : Thinned [] []
  | keep {told told' : List Prompt} (p : Prompt) :
      Thinned told told' → Thinned (p :: told) (p :: told')
  | leave {told told' : List Prompt} {r : Report} :
      r.Idle → Thinned told told' → Thinned (.failed r :: told) told'

/-! ## What is left of a budget -/

namespace Budget

variable {b b' : Budget} {r r' : Report} {i j : Bool}

/-- What is left of a budget after a session was told something. -/
def hear (b : Budget) : Prompt → Budget
  | .failed r => (b.decide r).2
  | .reset => full

/-- A session decides by what is left of its budget. -/
theorem decision_eq (told : List Prompt) (r : Report) :
    decision told r = ((told.foldl hear full).decide r).1 := by
  have hleft : (told.foldl RetrySession.hear (.fresh .standard)).rule = .standard ∧
      after (told.foldl RetrySession.hear (.fresh .standard)).told = told.foldl hear full := by
    induction told using List.reverseRecOn with
    | nil => exact ⟨rfl, rfl⟩
    | append_singleton told p ih =>
      obtain ⟨hrule, hbudget⟩ := ih
      rw [List.foldl_concat, List.foldl_concat, ← hbudget]
      cases p with
      | failed r => exact ⟨hrule, after_concat _ r⟩
      | reset => exact ⟨hrule, rfl⟩
  simp [decision, RetrySession.report, RetrySession.answer, hleft.1, RetryRule.decide, hleft.2]

/-- What the budgets of two sessions have in common if the second is told safer reports. Only if
the statement of the first may be applied again they agree on writes that timed out. -/
structure Kin (i : Bool) (b b' : Budget) : Prop where
  unavailable : b'.unavailable = b.unavailable
  readTimeout : b'.readTimeout = b.readTimeout
  writeTimeout : i = true → b'.writeTimeout = b.writeTimeout

/-- What is a failure of some kind on any statement is one on a statement that may be applied again;
there it may be a write that timed out besides. -/
theorem classify_safer (error : AttemptError) (hij : i = true → j = true) :
    classify error j = classify error i ∨
      i = false ∧ classify error i = none ∧ classify error j = some .writeTimeout := by
  cases i with
  | true => exact .inl (by rw [hij rfl])
  | false =>
    cases j with
    | false => exact .inl rfl
    | true =>
      by_cases hlog : classify error true = some .writeTimeout
      · refine .inr ⟨rfl, ?_, hlog⟩
        unfold classify at hlog ⊢
        split at hlog <;> simp_all
      · refine .inl ?_
        unfold classify at hlog ⊢
        split at hlog <;> simp_all

/-- A write that timed out is retried only if the statement may be applied again. -/
theorem idempotent_of_writeTimeout {error : AttemptError}
    (h : classify error i = some .writeTimeout) : i = true := by
  unfold classify at h
  split at h <;> simp_all

/-- What two sessions spend together on a failure of one kind. -/
theorem Kin.spend (h : Kin i b b') (hij : i = true → j = true) (hr : r.Safer i j r')
    {kind : Retryable} (hlog : kind = .writeTimeout → i = true) :
    Kin i (b.spend r kind).2 (b'.spend r' kind).2 ∧
      ((b.spend r kind).1.isRetry = true → (b'.spend r' kind).1 = (b.spend r kind).1) := by
  cases kind with
  | nodeUnusable => exact ⟨h, fun _ => rfl⟩
  | nodeFailed =>
    refine ⟨h, fun hretry => ?_⟩
    have hmay : (r.idempotent || !r.written) = true := by
      by_contra hno
      simp [Budget.spend, hno, Decision.isRetry] at hretry
    have hmay' : (r'.idempotent || !r'.written) = true := by
      have := hr.written
      rw [hr.first] at hmay
      rw [hr.second]
      grind
    simp [Budget.spend, hmay, hmay']
  | unavailable =>
    exact ⟨⟨rfl, h.readTimeout, h.writeTimeout⟩, fun _ => by simp [Budget.spend, h.unavailable]⟩
  | readTimeout =>
    exact ⟨⟨h.unavailable, rfl, h.writeTimeout⟩, fun _ => by simp [Budget.spend, h.readTimeout]⟩
  | writeTimeout =>
    exact ⟨⟨h.unavailable, h.readTimeout, fun _ => rfl⟩,
      fun _ => by simp [Budget.spend, h.writeTimeout (hlog rfl)]⟩

/-- **A safer report leaves the budgets alike**, and is granted every retry the other one is. -/
theorem Kin.decide (h : Kin i b b') (hij : i = true → j = true) (hr : r.Safer i j r') :
    Kin i (b.decide r).2 (b'.decide r').2 ∧
      ((b.decide r).1.isRetry = true → (b'.decide r').1 = (b.decide r).1) := by
  by_cases hserial : r.consistency.isSerial = true
  · rw [decide_serial b hserial, decide_serial b' (hr.consistency ▸ hserial)]
    exact ⟨h, fun _ => rfl⟩
  · rw [Bool.not_eq_true] at hserial
    rw [decide_eq b hserial, decide_eq b' (hr.consistency ▸ hserial), hr.error, hr.first, hr.second]
    rcases classify_safer r.error hij with heq | ⟨hi, hnone, hlog⟩
    · rw [heq]
      cases hc : classify r.error i with
      | none => exact ⟨h, nofun⟩
      | some kind => exact h.spend hij hr fun hkind => idempotent_of_writeTimeout (hkind ▸ hc)
    · -- The safer session spends a retry that the other one does not have.
      rw [hnone, hlog]
      refine ⟨⟨h.unavailable, h.readTimeout, fun hi' => ?_⟩, nofun⟩
      rw [hi] at hi'
      cases hi'

/-- Two sessions that are told alike but for safer reports have budgets that are alike. -/
theorem Kin.told (hij : i = true → j = true) {told told' : List Prompt}
    (h : List.Forall₂ (Prompt.Safer i j) told told') :
    Kin i (told.foldl hear full) (told'.foldl hear full) := by
  have hfold : ∀ b b', Kin i b b' → Kin i (told.foldl hear b) (told'.foldl hear b') := by
    induction h with
    | nil => exact fun _ _ h => h
    | cons hp _ ih =>
      intro b b' h
      cases hp with
      | failed hr => exact ih _ _ (h.decide hij hr).1
      | reset => exact ih _ _ ⟨rfl, rfl, fun _ => rfl⟩
  exact hfold full full ⟨rfl, rfl, fun _ => rfl⟩

/-- The failures that are never retried are those of no kind. -/
theorem futile_iff : r.Futile ↔ classify r.error r.idempotent = none := by
  constructor
  · intro h
    cases hc : classify r.error r.idempotent with
    | none => rfl
    | some kind =>
      -- A new session would retry it on a report that nothing was written.
      have hstops := h [] { r with consistency := .one, written := false } rfl rfl
      rw [decision_eq, decide_eq _ rfl, hc] at hstops
      cases kind <;> simp [Budget.spend, full, Decision.isRetry] at hstops
  · intro hc told r' herror hidempotent
    rw [decision_eq]
    cases hserial : r'.consistency.isSerial with
    | true => rw [decide_serial _ hserial]; rfl
    | false => rw [decide_eq _ hserial, herror, hidempotent, hc]; rfl

/-- An idle report spends nothing. -/
theorem decide_idle (h : r.Idle) (b : Budget) : (b.decide r).2 = b := by
  rcases h with hserial | hfutile
  · rw [decide_serial b hserial]
  · cases hserial : r.consistency.isSerial with
    | true => rw [decide_serial b hserial]
    | false => rw [decide_eq b hserial, futile_iff.1 hfutile]; rfl

/-- Idle reports leave no trace in a budget. -/
theorem foldl_thinned {told told' : List Prompt} (h : Prompt.Thinned told told') :
    told.foldl hear b = told'.foldl hear b := by
  induction h generalizing b with
  | nil => rfl
  | keep p _ ih => exact ih
  | leave hidle _ ih => rw [List.foldl_cons, hear, decide_idle hidle, ih]

end Budget

/-- **Being safer never loses a retry.** If one session of the standard policy is told safer reports
than another throughout, and both forget at the same times, every retry that the other decides on is
decided on by the safer one as well. A report at a serial consistency is always answered with a
stop. It can be left out, like one of a failure that is never retried, and no other decision
changes. -/
theorem RetrySession.safer_retries :
    (∀ i j : Bool, (i = true → j = true) → ∀ told told' : List Prompt,
      List.Forall₂ (Prompt.Safer i j) told told' → ∀ r r' : Report, r.Safer i j r' →
        (decision told r).isRetry = true → decision told' r' = decision told r) ∧
    (∀ (told : List Prompt) (r : Report), r.consistency.isSerial = true →
      decision told r = .stop) ∧
    ∀ told told' : List Prompt, Prompt.Thinned told told' →
      ∀ r : Report, decision told' r = decision told r := by
  simp only [Budget.decision_eq]
  refine ⟨fun i j hij told told' htold r r' hr hretry => ?_, fun told r hserial => ?_,
    fun told told' hthinned r => ?_⟩
  · exact ((Budget.Kin.told hij htold).decide hij hr).2 hretry
  · rw [Budget.decide_serial _ hserial]
  · rw [Budget.foldl_thinned hthinned]

/-- Only the safer session spends its retry of a write that timed out. Both were told of a statement
that was refused for its syntax, which may be left out. -/
theorem RetrySession.safer_retries_after_spent_log :
    let report (error : ServerError) (safe : Bool) : Report :=
      ⟨.refused error "", safe, .one, !safe, 0⟩
    let log : ServerError := .writeTimeout .two 1 2 .batchLog
    let unavailable : ServerError := .unavailable .two 2 1
    let told (safe : Bool) : List Prompt :=
      [.failed (report log safe), .failed (report .syntaxError safe), .failed (report log safe)]
    decision (told false) (report unavailable false) = .nextNode none ∧
      decision (told true) (report unavailable true) = .nextNode none ∧
      decision [.failed (report log true), .failed (report log true)] (report log true) =
        .stop := by
  intro report log unavailable told
  obtain ⟨hsafer, -, hthinned⟩ := RetrySession.safer_retries
  have hreport (error : ServerError) : (report error false).Safer false true (report error true) :=
    ⟨rfl, rfl, rfl, rfl, nofun⟩
  have hfirst : decision (told false) (report unavailable false) = .nextNode none := by decide
  have htold : List.Forall₂ (Prompt.Safer false true) (told false) (told true) :=
    .cons (.failed (hreport _)) (.cons (.failed (hreport _)) (.cons (.failed (hreport _)) .nil))
  have hsyntax : (report .syntaxError true).Idle := .inr (Budget.futile_iff.2 rfl)
  refine ⟨hfirst, ?_, ?_⟩
  · rw [hsafer false true nofun _ _ htold _ _ (hreport unavailable) (by rw [hfirst]; rfl), hfirst]
  · rw [hthinned _ _ (.keep _ (.leave hsyntax (.keep _ .nil)))]
    decide

end ClusterClient
