import ClusterClient.Proofs.Run

/-!
# The winner of an execution

A fiber claims the result of its execution with the response its attempt got, or with an empty
result where its retry session has a failed write taken for a done one (`Claim`).
`Execution.Standing` relates the acts of an execution to its race: nothing is claimed until the race
is won, and then exactly once, by the fiber that won it. `Execution.Unfolds.standing` says that this
holds throughout, so no fiber can overtake the one that claimed the result, neither with a response
nor with a failure.
-/

namespace ClusterClient

/-- Whether an act claims the result. -/
def Act.claims : Act → Bool
  | .claimed _ _ => true
  | _ => false

/-- How a fiber claims the result at the end of some acts, and the answer it does so with. -/
inductive Claim (acts : List Act) (attempt fiber : Nat) (node : Node) : Answer → Prop
  /-- The attempt got a response with a result. -/
  | response (before : List Act) {stage : Stage} {r : Response} {answer : Answer} :
      acts = before ++ [.heard attempt stage (.delivered (.ok r)), .succeeded attempt fiber node,
        .claimed attempt fiber] →
      r.answer = .ok answer → Claim acts attempt fiber node answer
  /-- The attempt failed, and the failure is ignored. -/
  | ignored (before : List Act) (error : AttemptError) (report : Report) :
      acts = before ++ [.failed attempt fiber node error, .reported fiber report .ignore,
        .claimed attempt fiber] →
      Claim acts attempt fiber node .void

theorem Claim.prepend {acts : List Act} {attempt fiber : Nat} {node : Node} {answer : Answer}
    (h : Claim acts attempt fiber node answer) (earlier : List Act) :
    Claim (earlier ++ acts) attempt fiber node answer := by
  cases h with
  | @response before stage r answer hacts hr =>
    exact .response (earlier ++ before) (by rw [hacts, List.append_assoc]) hr
  | @ignored before error report hacts =>
    exact .ignored (earlier ++ before) error report (by rw [hacts, List.append_assoc])

/-- A race that was open is won by an ending exactly if that is the success. -/
theorem Race.finish_verdict_succeeded {α : Type} {r : Race α} (hr : r.verdict = none)
    (e : Ending α) (a : α) : (r.finish e).verdict = some (.succeeded a) ↔ e = .succeeded a := by
  cases h : e.decisive with
  | true =>
    rw [finish_decisive r h]
    simp
  | false =>
    have he : e ≠ .succeeded a := by
      rintro rfl
      cases h
    rw [finish_indecisive r h, close_eq]
    split
    · simp only [Ending.ofFailure, he, iff_false]
      split <;> simp
    · simp [hr, he]

namespace Fiber

variable {ω : Type} {env : Environment ω} {settings : Settings} {now : Nat} {f : Fiber}
  {c : Current} {s : Shared} {w : ω} {t : Turn ω}

/-- A turn without a claim, and with the beginning of the attempt that is under way after it. -/
structure Seeking (fiber : Nat) (t : Turn ω) : Prop where
  claimless : t.acts.countP Act.claims = 0
  begun : ∀ c, t.fiber.phase = .attempting c →
    .began c.number fiber c.node c.attempt.connection ∈ t.acts

theorem Seeking.begin {fiber : Nat} (hf : f.index = fiber) {node : Node} {connection : Connection} :
    Seeking fiber (f.begin settings now node connection s w) where
  claimless := rfl
  begun c hc := by
    cases hc
    subst hf
    exact List.mem_cons_self

theorem Seeking.after {fiber : Nat} {acts : List Act} (h : Seeking fiber t)
    (ha : acts.countP Act.claims = 0) :
    Seeking fiber (t.after acts) where
  claimless := by rw [Turn.after_acts, List.countP_append, ha, h.claimless]
  begun c hc := List.mem_append_right acts (h.begun c hc)

theorem Seeks.seeking (h : Seeks env settings now f s w t) : Seeking f.index t := by
  induction h with
  | exhausted hd hn =>
    refine ⟨by simp [Act.claims], ?_⟩
    intro c hc
    cases hc
  | begins hd hn hc =>
    exact (Seeking.begin rfl).after (by simp [List.countP_append, Act.claims])
  | refused hd hn hc _ ih =>
    exact Seeking.after ⟨ih.claimless, ih.begun⟩ (by simp [List.countP_append, Act.claims])

theorem Falters.claimless {error : AttemptError} {acts : List Act}
    (h : Falters settings c error acts) : acts.countP Act.claims = 0 := by
  cases h <;> rfl

/-- What a turn of a fiber that waited for an attempt claims, and where the attempt comes from that
is under way after it. -/
structure Claiming (fiber : Nat) (c : Current) (t : Turn ω) : Prop where
  claimless : (∀ v, t.fiber.phase ≠ .ended (.succeeded v)) → t.acts.countP Act.claims = 0
  claims : ∀ v, t.fiber.phase = .ended (.succeeded v) →
    t.acts.countP Act.claims = 1 ∧ Claim t.acts c.number fiber c.node v.answer ∧
      v.fiber = fiber ∧ v.node = c.node ∧ v.connection = c.attempt.connection.address
  begun : ∀ d, t.fiber.phase = .attempting d →
    .began d.number fiber d.node d.attempt.connection ∈ t.acts ∨
      d.number = c.number ∧ d.node = c.node ∧ d.attempt.connection = c.attempt.connection

theorem Seeking.claiming {fiber : Nat} (h : Seeking fiber t) (c : Current)
    (ht : ∀ v, t.fiber.phase ≠ .ended (.succeeded v)) : Claiming fiber c t where
  claimless _ := h.claimless
  claims v hv := absurd hv (ht v)
  begun d hd := .inl (h.begun d hd)

theorem Claiming.after {fiber : Nat} {acts : List Act} (h : Claiming fiber c t)
    (ha : acts.countP Act.claims = 0) :
    Claiming fiber c (t.after acts) where
  claimless ht := by rw [Turn.after_acts, List.countP_append, ha, h.claimless ht]
  claims v hv := by
    obtain ⟨hone, hclaim, hrest⟩ := h.claims v hv
    exact ⟨by rw [Turn.after_acts, List.countP_append, ha, hone], hclaim.prepend acts, hrest⟩
  begun d hd := (h.begun d hd).imp_left (List.mem_append_right acts)

theorem Takes.claiming (h : Takes env settings now f c s w t) : Claiming f.index c t := by
  cases h with
  | waits he hr =>
    obtain ⟨-, rfl⟩ := Attempt.react_waits hr
    refine ⟨fun _ => rfl, by simp, fun d hd => ?_⟩
    cases hd
    exact .inr ⟨rfl, rfl, rfl⟩
  | @sends signal a he hr =>
    refine ⟨fun _ => rfl, by simp, fun d hd => ?_⟩
    cases hd
    obtain ⟨r, id, -, -, ⟨-, -, rfl⟩ | ⟨-, -, rfl⟩⟩ := Attempt.react_sends hr <;>
      exact .inr ⟨rfl, rfl, rfl⟩
  | @succeeds signal answer he hr =>
    obtain ⟨r, rfl, hans⟩ := Attempt.react_succeeds hr
    refine ⟨fun hno => absurd rfl (hno _), fun v hv => ?_, by simp⟩
    cases hv
    exact ⟨rfl, .response [] rfl hans, rfl, rfl, rfl⟩
  | @fails error acts decision t hf hd ho =>
    have hzero : (acts ++ [Act.failed c.number f.index c.node error,
        .reported f.index (f.reportOn settings c error) decision]).countP Act.claims = 0 := by
      rw [List.countP_append, hf.claimless]
      rfl
    cases ho with
    | stop => exact Claiming.after ⟨fun _ => rfl, by simp, by simp⟩ hzero
    | ignore =>
      refine ⟨fun hno => absurd rfl (hno _), fun v hv => ?_, by simp⟩
      cases hv
      refine ⟨?_, .ignored acts error (f.reportOn settings c error) ?_, rfl, rfl, rfl⟩
      · rw [Turn.after_acts, List.countP_append, hzero]
        rfl
      · simp [telling]
    | again hc =>
      refine Claiming.after (Seeking.claiming ?_ c (by simp [begin])) hzero
      exact Seeking.begin (by rfl)
    | onward hc hseek =>
      exact ((hseek.seeking.claiming c hseek.frame.2.2).after rfl).after hzero
    | next hseek => exact (hseek.seeking.claiming c hseek.frame.2.2).after hzero

end Fiber

namespace Execution

variable {ω : Type} {env : Environment ω} {settings : Settings} {speculation : Option Speculation}
  {since : Nat} {x : Execution} {acts : List Act} {t : Turn ω}

/-- What the acts of an execution say about its race. -/
structure Standing (x : Execution) (acts : List Act) : Prop where
  /-- An attempt under way has been begun. -/
  begun : ∀ i f c, x.fibers[i]? = some f → f.phase = .attempting c →
    .began c.number i c.node c.attempt.connection ∈ acts
  claimless : (∀ v, x.race.verdict ≠ some (.succeeded v)) → acts.countP Act.claims = 0
  won : ∀ v, x.race.verdict = some (.succeeded v) → acts.countP Act.claims = 1 ∧
    ∃ n connection, Claim acts n v.fiber v.node v.answer ∧
      .began n v.fiber v.node connection ∈ acts ∧ v.connection = connection.address

/-- An open race is won by a turn exactly if the fiber ends in the success. -/
theorem settle_verdict_succeeded (hr : x.race.verdict = none) (v : Success) :
    (x.settle t).execution.race.verdict = some (.succeeded v) ↔
      t.fiber.phase = .ended (.succeeded v) := by
  cases h : t.fiber.phase with
  | attempting c => simp [settle_race_attempting h, hr]
  | ended e => simp [settle_race_ended h, Race.finish_verdict_succeeded hr]

/-- The acts of an open race after a turn, by what the turn did. -/
theorem Standing.settle (hr : x.race.verdict = none)
    (hothers : ∀ i f c, i ≠ t.fiber.index → x.fibers[i]? = some f → f.phase = .attempting c →
      .began c.number i c.node c.attempt.connection ∈ acts)
    (hown : ∀ c, t.fiber.phase = .attempting c →
      .began c.number t.fiber.index c.node c.attempt.connection ∈ acts)
    (hnone : (∀ v, t.fiber.phase ≠ .ended (.succeeded v)) → acts.countP Act.claims = 0)
    (hwon : ∀ v, t.fiber.phase = .ended (.succeeded v) → acts.countP Act.claims = 1 ∧
      ∃ n connection, Claim acts n v.fiber v.node v.answer ∧
        .began n v.fiber v.node connection ∈ acts ∧ v.connection = connection.address) :
    (x.settle t).execution.Standing acts where
  begun i f c hf hc := by
    rcases settle_fibers_cases hf with ⟨rfl, rfl⟩ | ⟨hi, hf⟩
    · exact hown c hc
    · exact hothers i f c hi hf hc
  claimless hv := hnone fun v hp => hv v ((settle_verdict_succeeded hr v).2 hp)
  won v hv := hwon v ((settle_verdict_succeeded hr v).1 hv)

/-- Opening a fiber claims nothing. -/
theorem Standing.fork {race : Race Success} {f : Fiber} {s : Shared} {now : Nat} {w : ω}
    (hx : ∀ i g c, x.fibers[i]? = some g → g.phase = .attempting c →
      .began c.number i c.node c.attempt.connection ∈ acts)
    (hacts : acts.countP Act.claims = 0) (hr : race.verdict = none)
    (h : Fiber.Seeks env settings now f s w t) :
    ((x.fork settings race).settle t).execution.Standing
      (acts ++ .opened x.fibers.length :: t.acts) := by
  have hs := h.seeking
  obtain ⟨hi, -, hv⟩ := h.frame
  refine .settle hr (fun i g c _ hg hc => ?_) (fun c hc => ?_) (fun _ => ?_)
    fun v hp => absurd hp (hv v)
  · rcases fork_fibers hg with hg | ⟨-, rfl⟩
    · exact List.mem_append_left _ (hx i g c hg hc)
    · cases hc
  · rw [hi]
    exact List.mem_append_right _ (List.mem_cons_of_mem _ (hs.begun c hc))
  · rw [List.countP_append, hacts, List.countP_cons_of_neg (by simp [Act.claims]), hs.claimless]

/-- **Every execution stands as its acts say.** -/
theorem Unfolds.standing (h : Unfolds env settings speculation since x acts) :
    x.Standing acts := by
  induction h with
  | @first w t rule hseek =>
    have hnone : ∀ (i : Nat) (g : Fiber) (c : Current),
        (initial speculation since).fibers[i]? = some g → g.phase = .attempting c →
          .began c.number i c.node c.attempt.connection ∈ ([] : List Act) := by
      simp [initial]
    exact Standing.fork hnone rfl rfl hseek
  | launch rule _ hmay hseek ih =>
    have hv := ((Race.mayLaunch_iff _).1 hmay).1
    exact .fork ih.begun (ih.claimless (by simp [hv])) hv hseek
  | @turn x acts now w t f c rule hruns hv hf hp ht ih =>
    have hzero := ih.claimless (by simp [hv])
    have hi := (ht.frame (hruns.sound.unclaimed hv)).1
    have hbegun := ih.begun _ f c hf hp
    have hclaim := ht.claiming
    refine .settle hv (fun i g d _ hg hd => ?_) (fun d hd => ?_) (fun hno => ?_) fun v hp => ?_
    · exact List.mem_append_left _ (ih.begun i g d hg hd)
    · rw [hi]
      rcases hclaim.begun d hd with h | ⟨hn, hnode, hconn⟩
      · exact List.mem_append_right _ h
      · rw [hn, hnode, hconn]
        exact List.mem_append_left _ hbegun
    · rw [List.countP_append, hzero, hclaim.claimless hno]
    · obtain ⟨hone, hclaims, hfiber, hnode, hconn⟩ := hclaim.claims v hp
      refine ⟨by rw [List.countP_append, hzero, hone], c.number, c.attempt.connection, ?_, ?_,
        hconn⟩
      · rw [hfiber, hnode]
        exact hclaims.prepend acts
      · rw [hfiber, hnode]
        exact List.mem_append_left _ hbegun

theorem Runs.standing (h : Runs env settings speculation since x acts) : x.Standing acts :=
  h.unfolds.standing

/-- The result is an answer exactly if a fiber ended the race with it. -/
theorem result?_eq_ok {answer : Answer} {info : ExecutionInfo} :
    x.result? = some (.ok (answer, info)) ↔ ∃ v, x.race.verdict = some (.succeeded v) ∧
      answer = v.answer ∧ info = { x.info with
        coordinator := some ⟨v.node, v.connection⟩
        successIndex := some v.fiber } := by
  unfold result?
  cases x.race.verdict with
  | none => simp
  | some e => cases e <;> simp [eq_comm]

@[simp] theorem failure_info? (f : FiberFailure) (info : ExecutionInfo) :
    (failure f info).info? = some info := by
  unfold failure
  split <;> rfl

/-- The result is an error exactly if the race is decided by a failure, or found no node. -/
theorem result?_eq_error {e : ExecutionError} :
    x.result? = some (.error e) ↔
      (∃ f, x.race.verdict = some (.failed f) ∧ e = failure f x.info) ∨
        x.race.verdict = some .idle ∧ e = .emptyPlan := by
  unfold result?
  cases x.race.verdict with
  | none => simp
  | some v => cases v <;> simp [eq_comm]

/-- At most one fiber claims the result. -/
theorem Standing.claims_le_one (h : x.Standing acts) : acts.countP Act.claims ≤ 1 := by
  by_cases hv : ∃ v, x.race.verdict = some (.succeeded v)
  · obtain ⟨v, hv⟩ := hv
    exact Nat.le_of_eq (h.won v hv).1
  · push Not at hv
    rw [h.claimless hv]
    exact Nat.zero_le 1

/-- The result is an answer exactly if a fiber claimed it: no claim is lost. -/
theorem Standing.result_ok_iff (h : x.Standing acts) :
    (∃ answer info, x.result? = some (.ok (answer, info))) ↔ ∃ n f, .claimed n f ∈ acts := by
  have hclaimed : (∃ n f, .claimed n f ∈ acts) ↔ acts.countP Act.claims ≠ 0 := by
    rw [← Nat.pos_iff_ne_zero, List.countP_pos_iff]
    constructor
    · rintro ⟨n, f, hmem⟩
      exact ⟨_, hmem, rfl⟩
    · rintro ⟨a, hmem, ha⟩
      cases a with
      | claimed n f => exact ⟨n, f, hmem⟩
      | _ => cases ha
  rw [hclaimed]
  constructor
  · rintro ⟨answer, info, hr⟩
    obtain ⟨v, hv, -⟩ := result?_eq_ok.1 hr
    rw [(h.won v hv).1]
    exact Nat.one_ne_zero
  · intro hne
    obtain ⟨v, hv⟩ : ∃ v, x.race.verdict = some (.succeeded v) := by
      by_contra hno
      push Not at hno
      exact hne (h.claimless hno)
    exact ⟨v.answer, _, result?_eq_ok.2 ⟨v, hv, rfl, rfl⟩⟩

/-- The answer is the one the result was claimed with, and the execution's information names the
attempt and the fiber that did. -/
theorem Standing.winner (h : x.Standing acts) {answer : Answer} {info : ExecutionInfo}
    (hr : x.result? = some (.ok (answer, info))) : ∃ n f node connection,
      Claim acts n f node answer ∧ .began n f node connection ∈ acts ∧
        info.coordinator = some ⟨node, connection.address⟩ ∧ info.successIndex = some f := by
  obtain ⟨v, hv, rfl, rfl⟩ := result?_eq_ok.1 hr
  obtain ⟨-, n, connection, hclaim, hbegan, hconn⟩ := h.won v hv
  exact ⟨n, v.fiber, v.node, connection, hclaim, hbegan, by rw [hconn], rfl⟩

end Execution

end ClusterClient
