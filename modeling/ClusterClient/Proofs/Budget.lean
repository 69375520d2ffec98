import ClusterClient.Proofs.AtMostOnce
import ClusterClient.Proofs.Exchange

/-!
# The budget of a retry session

A session of the standard policy has one retry each for three kinds of failures, and none of them
comes back: not when the fiber goes on to another node, and not when its consistency changes. So
over the life of a fiber the retries of such a kind are counted by one flag
(`Trail.retries_eq`, from `Budget.decide_spent` for one decision).

What the policy decides is read off here once: it asks for the same node again only after a read or
a write that timed out (`Budget.decide_sameNode`), and never for another consistency
(`Trail.consistency_steady`). `Act.Standard` marks the decisions of the policy among the acts of an
execution.
-/

namespace ClusterClient

/-- Whether the failures of a kind are retried once only. -/
def Retryable.once : Retryable → Bool
  | .unavailable | .readTimeout | .writeTimeout => true
  | .nodeUnusable | .nodeFailed => false

namespace Act

/-- Whether a retry session asks for another attempt because of a failure of a kind. -/
def retries (kind : Retryable) : Act → Bool
  | .reported _ r decision => decision.isRetry && classify r.error r.idempotent = some kind
  | _ => false

/-- What a retry session of the standard policy decides is what some budget says. -/
def Standard : Act → Prop
  | .reported _ r decision => ∃ b : Budget, (b.decide r).1 = decision
  | _ => True

end Act

namespace Budget

variable {b : Budget} {r : Report} {consistency : Option Consistency}

/-- Whether the retry for a kind of failures is spent. -/
def spent (b : Budget) : Retryable → Bool
  | .unavailable => b.unavailable
  | .readTimeout => b.readTimeout
  | .writeTimeout => b.writeTimeout
  | .nodeUnusable | .nodeFailed => false

theorem after_concat (reports : List Report) (r : Report) :
    after (reports ++ [r]) = ((after reports).decide r).2 := by
  simp [after]

/-- The standard policy retries nothing at a serial consistency, and spends nothing. -/
theorem decide_serial (b : Budget) {r : Report} (h : r.consistency.isSerial = true) :
    b.decide r = (.stop, b) := by
  simp [decide, h]

/-- At any other consistency the kind of the failure decides. -/
theorem decide_eq (b : Budget) {r : Report} (h : r.consistency.isSerial = false) :
    b.decide r = ((classify r.error r.idempotent).map (b.spend r)).getD (.stop, b) := by
  simp only [decide, h, Bool.false_eq_true, if_false]
  cases classify r.error r.idempotent <;> rfl

/-- A retry of a kind that is granted once spends it, and nothing else does. -/
theorem decide_spent (b : Budget) (r : Report) {kind : Retryable} (hkind : kind.once = true) :
    ((b.decide r).2.spent kind).toNat = (b.spent kind).toNat +
      ((b.decide r).1.isRetry && classify r.error r.idempotent = some kind).toNat := by
  by_cases hserial : r.consistency.isSerial = true
  · simp [decide, hserial, Decision.isRetry]
  · cases hc : classify r.error r.idempotent with
    | none => simp [decide, hserial, hc, Decision.isRetry]
    | some found =>
      simp only [decide, hserial, hc, Bool.false_eq_true, if_false]
      cases found with
      | nodeUnusable | nodeFailed => cases kind <;> cases hkind <;> simp [spend, spent]
      | unavailable =>
        cases hb : b.unavailable <;> cases kind <;> cases hkind <;>
          simp [spend, spent, hb, Decision.isRetry]
      | readTimeout =>
        cases hb : b.readTimeout <;> cases kind <;> cases hkind <;>
          simp [spend, spent, hb, Decision.isRetry]
      | writeTimeout =>
        cases hb : b.writeTimeout <;> cases kind <;> cases hkind <;>
          simp [spend, spent, hb, Decision.isRetry]

/-- The policy asks for the same node again only after a read or a write that timed out. -/
theorem decide_sameNode (h : (b.decide r).1 = .sameNode consistency) :
    classify r.error r.idempotent = some .readTimeout ∨
      classify r.error r.idempotent = some .writeTimeout := by
  unfold decide at h
  split at h
  · cases h
  · cases hc : classify r.error r.idempotent with
    | none => simp [hc] at h
    | some kind =>
      simp only [hc] at h
      cases kind with
      | readTimeout => exact .inl rfl
      | writeTimeout => exact .inr rfl
      | nodeUnusable => cases h
      | nodeFailed | unavailable =>
        simp only [spend] at h
        split at h <;> cases h

/-- The policy never asks for another consistency. -/
theorem decide_consistency (b : Budget) (r : Report) : (b.decide r).1.consistency? = none := by
  unfold decide
  split
  · rfl
  · cases classify r.error r.idempotent with
    | none => rfl
    | some kind => cases kind <;> simp only [spend] <;> (try split) <;> rfl

end Budget

namespace Pose

variable {ω : Type} {env : Environment ω} {settings : Settings} {p p' : Pose} {s s' : Shared}
  {acts : List Act}

/-- A fiber stays with the retry policy it was launched with. -/
theorem Move.rule_eq (h : Move env settings p s acts p' s') :
    p'.session.rule = p.session.rule := by
  cases h with
  | @fails c error heard lore decision hs hf hd hne => cases decision <;> rfl
  | _ => rfl

/-- In a move of a fiber under the standard policy each retry that is granted once spends a flag. -/
theorem Move.retries_eq (h : Move env settings p s acts p' s')
    (hrule : p.session.rule = .standard) {kind : Retryable} (hkind : kind.once = true) :
    ((Budget.after p'.session.told).spent kind).toNat =
      ((Budget.after p.session.told).spent kind).toNat +
        (Act.ofFiber p.index acts).countP (Act.retries kind) := by
  cases h with
  | @fails c error heard lore decision hs hf hd hne =>
    rw [hrule] at hd
    subst hd
    have hspent := Budget.decide_spent (Budget.after p.session.told) (p.reportOn settings c error)
      hkind
    have htold (decision : Decision) :
        (p.obeying c (p.reportOn settings c error) decision).session.told =
          p.session.told ++ [p.reportOn settings c error] := by
      cases decision <;> rfl
    rw [htold, Budget.after_concat, hspent]
    simp [hf.ofFiber_heard, Act.fiber?, Act.retries, RetryRule.decide, List.countP_cons,
      Bool.toNat, Bool.cond_eq_ite]
  | ignores hs hf hd =>
    -- The standard policy takes no failure for a success.
    rw [hrule] at hd
    exact absurd hd (Budget.decide_ne_ignore _ _)
  | exhausted | takes | refused | begins | waits | sends | succeeds =>
    simp [Act.fiber?, Act.retries]

/-- In a move of a fiber under the standard policy the policy decides. -/
theorem Move.standard (h : Move env settings p s acts p' s')
    (hrule : p.session.rule = .standard) : ∀ a ∈ acts, a.Standard := by
  intro a ha
  cases h with
  | @fails c error heard lore decision hs hf hd hne =>
    rw [hrule] at hd
    rcases List.mem_append.1 ha with hheard | htold
    · cases hf with
      | heard he hr =>
        obtain rfl := List.mem_singleton.1 hheard
        trivial
      | timedOut hl => cases hheard
    · simp only [List.mem_cons, List.not_mem_nil, or_false] at htold
      rcases htold with rfl | rfl
      · trivial
      · exact ⟨_, hd⟩
  | ignores hs hf hd =>
    rw [hrule] at hd
    exact absurd hd (Budget.decide_ne_ignore _ _)
  | exhausted | takes | refused | begins | waits | sends | succeeds =>
    simp at ha
    grind [Act.Standard]

end Pose

namespace Trail

variable {ω : Type} {env : Environment ω} {settings : Settings} {acts : List Act} {s : Shared}
  {ps : List Pose} {p : Pose} {i : Nat}

/-- **A retry that is granted once is counted by its flag**, over all that a fiber did. -/
theorem retries_eq (h : Trail env settings acts s ps) (hp : ps[i]? = some p)
    (hrule : p.session.rule = .standard) {kind : Retryable} (hkind : kind.once = true) :
    (Act.ofFiber i acts).countP (Act.retries kind) =
      ((Budget.after p.session.told).spent kind).toNat := by
  refine h.own (L := fun own p => p.session.rule = .standard →
    own.countP (Act.retries kind) = ((Budget.after p.session.told).spent kind).toNat) ?_ ?_ hp hrule
  · intro rule i _
    cases kind <;> cases hkind <;> rfl
  · intro acts more s s' ps p p' _ _ hmove ih hrule
    rw [hmove.rule_eq] at hrule
    rw [List.countP_append, ih hrule, hmove.retries_eq hrule hkind]

/-- What a fiber under the standard policy is told to do is what the policy decides. -/
theorem standard (h : Trail env settings acts s ps) (hp : ps[i]? = some p)
    (hrule : p.session.rule = .standard) : ∀ a ∈ Act.ofFiber i acts, a.Standard := by
  refine h.own (L := fun own p => p.session.rule = .standard → ∀ a ∈ own, a.Standard) ?_ ?_ hp hrule
  · intro rule i _ a ha
    obtain rfl := List.mem_singleton.1 ha
    trivial
  · intro acts more s s' ps p p' _ _ hmove ih hrule a ha
    rw [hmove.rule_eq] at hrule
    rcases List.mem_append.1 ha with ha | ha
    · exact ih hrule a ha
    · exact hmove.standard hrule a (Act.mem_ofFiber.1 ha).1

/-- A fiber under the standard policy sends at the consistency it started with. -/
theorem consistency_steady (h : Trail env settings acts s ps) (hp : ps[i]? = some p)
    (hrule : p.session.rule = .standard) : p.consistency = settings.routing.consistency := by
  have hnone : (Act.ofFiber i acts).filterMap Act.chosen? = [] := by
    rw [List.filterMap_eq_nil_iff]
    intro a ha
    have hstandard := h.standard hp hrule a ha
    cases a with
    | reported j r decision =>
      obtain ⟨b, rfl⟩ := hstandard
      exact b.decide_consistency r
    | _ => rfl
  rw [(h.consistency_eq hp).1, Act.consistencyOf, hnone]
  rfl

end Trail

namespace Execution

variable {ω : Type} {env : Environment ω} {settings : Settings} {speculation : Option Speculation}
  {since : Nat} {x : Execution} {acts : List Act}

/-- Every fiber of an execution has the execution's retry policy. -/
theorem Runs.rule_eq (h : Runs env settings speculation since x acts) {i : Nat} {f : Fiber}
    (hf : x.fibers[i]? = some f) : f.session.rule = settings.retry := by
  induction h generalizing i f with
  | first hseek =>
    rcases settle_fibers_cases hf with ⟨-, rfl⟩ | ⟨-, hf⟩
    · rw [hseek.session_eq]
      rfl
    · rcases fork_fibers hf with hf | ⟨-, rfl⟩
      · simp [initial] at hf
      · rfl
  | launch _ _ hseek ih =>
    rcases settle_fibers_cases hf with ⟨-, rfl⟩ | ⟨-, hf⟩
    · rw [hseek.session_eq]
      rfl
    · rcases fork_fibers hf with hf | ⟨-, rfl⟩
      · exact ih hf
      · rfl
  | turn _ _ hg _ ht ih =>
    rcases settle_fibers_cases hf with ⟨-, rfl⟩ | ⟨-, hf⟩
    · rw [ht.rule_eq]
      exact ih hg
    · exact ih hf

end Execution

end ClusterClient
