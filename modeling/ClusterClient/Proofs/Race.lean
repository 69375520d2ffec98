import ClusterClient.Execution.Basic
import Mathlib

/-!
# The law of a race

`Race.Runs` is every way a race goes: its first fiber runs, further ones are launched as long as
there may be more, and each running fiber ends once, in any order. The endings are listed in the
order they come.

`Race.Tally` is what holds along the way, and `Race.Runs.tally` that it does. The verdict is the
first decisive ending (`Ending.decisive`); if there is none, it is given when every fiber has ended
and none is left to launch, and is then the last failure (`Ending.lastFailure`).
-/

namespace ClusterClient

variable {α : Type}

/-- Whether an ending is the verdict at once: a success, or a failure every node would return. -/
def Ending.decisive : Ending α → Bool
  | .succeeded _ => true
  | .failed f => !f.ignorable
  | .idle => false

/-- The failure of an ending, if it is one. -/
def Ending.failure? : Ending α → Option FiberFailure
  | .failed f => some f
  | .succeeded _ | .idle => none

/-- The last failure among endings. -/
def Ending.lastFailure (es : List (Ending α)) : Option FiberFailure :=
  (es.filterMap Ending.failure?).getLast?

/-- The ending that stands for a failure, or for none. -/
def Ending.ofFailure : Option FiberFailure → Ending α
  | some f => .failed f
  | none => .idle

namespace Race

/-- The races that go on from their start, with the endings so far and the fibers that had them. -/
inductive Runs (speculation : Option Speculation) (since : Nat) :
    Race α → List (Nat × Ending α) → Prop
  | start : Runs speculation since (Race.start speculation since).launchFirst []
  | launch {r : Race α} {es : List (Nat × Ending α)} (now : Nat) :
      Runs speculation since r es → r.mayLaunch = true → Runs speculation since (r.launch now) es
  | finish {r : Race α} {es : List (Nat × Ending α)} (fiber : Nat) (e : Ending α) :
      Runs speculation since r es → r.verdict = none → fiber < r.launched →
      fiber ∉ es.map (·.1) → Runs speculation since (r.finish e) (es ++ [(fiber, e)])

/-- How a race stands after some endings. -/
structure Tally (r : Race α) (es : List (Nat × Ending α)) : Prop where
  /-- No fiber ends twice. -/
  nodup : (es.map (·.1)).Nodup
  launched : ∀ i ∈ es.map (·.1), i < r.launched
  running : r.running + es.length = r.launched
  undecided : r.verdict = none →
    (∀ e ∈ es, e.2.decisive = false) ∧ r.lastFailure = Ending.lastFailure (es.map (·.2)) ∧
      (0 < r.running ∨ 0 < r.left)
  decided : ∀ v, r.verdict = some v → ∃ before last, es = before ++ [last] ∧
    (∀ e ∈ before, e.2.decisive = false) ∧
      (last.2.decisive = true ∧ v = last.2 ∨
        last.2.decisive = false ∧ r.running = 0 ∧ r.left = 0 ∧
          v = .ofFailure (Ending.lastFailure (es.map (·.2))))

/-! ## What ends a race -/

theorem mayLaunch_iff (r : Race α) : r.mayLaunch = true ↔ r.verdict = none ∧ 0 < r.left := by
  simp [mayLaunch, Nat.pos_iff_ne_zero]

@[simp] theorem launch_verdict (r : Race α) (now : Nat) : (r.launch now).verdict = r.verdict := rfl

@[simp] theorem launch_launched (r : Race α) (now : Nat) :
    (r.launch now).launched = r.launched + 1 := rfl

@[simp] theorem launch_running (r : Race α) (now : Nat) :
    (r.launch now).running = r.running + 1 := rfl

theorem close_eq (r : Race α) :
    r.close = if r.running = 0 ∧ r.left = 0 then
      { r with verdict := some (.ofFailure r.lastFailure) } else r := by
  unfold close Ending.ofFailure
  split
  · cases r.lastFailure <;> rfl
  · rfl

/-- A decisive ending is the verdict. -/
theorem finish_decisive (r : Race α) {e : Ending α} (h : e.decisive = true) :
    r.finish e = { r with running := r.running - 1, verdict := some e } := by
  cases e with
  | succeeded a => rfl
  | failed f => simp_all [finish, Ending.decisive]
  | idle => cases h

/-- How many launches an ending leaves. -/
def leftAfter (r : Race α) : Ending α → Nat
  | .succeeded _ => r.left
  | .failed f => if f.isPlanExhausted then 0 else r.left
  | .idle => 0

/-- Any other ending is kept if it is a failure, and closes the race if nothing is left to do. -/
theorem finish_indecisive (r : Race α) {e : Ending α} (h : e.decisive = false) :
    r.finish e = close { r with
      running := r.running - 1
      left := r.leftAfter e
      lastFailure := e.failure?.or r.lastFailure } := by
  cases e with
  | succeeded a => cases h
  | failed f => simp_all [finish, Ending.decisive, leftAfter, Ending.failure?]
  | idle => rfl

@[simp] theorem finish_launched (r : Race α) (e : Ending α) :
    (r.finish e).launched = r.launched := by
  cases h : e.decisive with
  | true => rw [finish_decisive r h]
  | false => rw [finish_indecisive r h, close_eq]; split <;> rfl

@[simp] theorem finish_running (r : Race α) (e : Ending α) :
    (r.finish e).running = r.running - 1 := by
  cases h : e.decisive with
  | true => rw [finish_decisive r h]
  | false => rw [finish_indecisive r h, close_eq]; split <;> rfl

/-- An ending leaves no more launches than there were. -/
theorem finish_left_le (r : Race α) (e : Ending α) : (r.finish e).left ≤ r.left := by
  cases h : e.decisive with
  | true =>
    have heq : (r.finish e).left = r.left := by rw [finish_decisive r h]
    exact Nat.le_of_eq heq
  | false =>
    have hle : r.leftAfter e ≤ r.left := by
      cases e with
      | succeeded a => exact Nat.le_refl _
      | failed f =>
        simp only [leftAfter]
        split
        · exact Nat.zero_le _
        · exact Nat.le_refl _
      | idle => exact Nat.zero_le _
    rw [finish_indecisive r h, close_eq]
    split <;> exact hle

end Race

theorem Ending.lastFailure_concat (es : List (Ending α)) (e : Ending α) :
    Ending.lastFailure (es ++ [e]) = e.failure?.or (Ending.lastFailure es) := by
  unfold Ending.lastFailure
  cases h : e.failure? <;> simp [h]

namespace Race

/-! ## The tally along a race -/

/-- Different numbers below a bound are at most as many as the bound. -/
theorem length_le_of_nodup {l : List Nat} {n : Nat} (hl : l.Nodup) (hn : ∀ i ∈ l, i < n) :
    l.length ≤ n := by
  have hsub : l ⊆ List.range n := fun i hi => List.mem_range.2 (hn i hi)
  simpa using (List.subperm_of_subset hl hsub).length_le

theorem Tally.start (speculation : Option Speculation) (since : Nat) :
    Tally (Race.start (α := α) speculation since).launchFirst [] where
  nodup := .nil
  launched := by simp
  running := rfl
  undecided _ := ⟨by simp, rfl, .inl Nat.one_pos⟩
  decided v h := by cases h

theorem Tally.launch {r : Race α} {es : List (Nat × Ending α)} (h : Tally r es)
    (hr : r.verdict = none) (now : Nat) : Tally (r.launch now) es where
  nodup := h.nodup
  launched i hi := Nat.lt_succ_of_lt (h.launched i hi)
  running := by
    have := h.running
    simp only [launch_running, launch_launched]
    omega
  undecided _ := ⟨(h.undecided hr).1, (h.undecided hr).2.1, .inl (Nat.succ_pos _)⟩
  decided v hv := by
    rw [launch_verdict, hr] at hv
    cases hv

theorem Tally.finish {r : Race α} {es : List (Nat × Ending α)} (h : Tally r es)
    (hr : r.verdict = none) {fiber : Nat} (hf : fiber < r.launched) (hn : fiber ∉ es.map (·.1))
    (e : Ending α) : Tally (r.finish e) (es ++ [(fiber, e)]) := by
  obtain ⟨hall, hlast, -⟩ := h.undecided hr
  have hnodup : ((es ++ [(fiber, e)]).map (·.1)).Nodup := by
    rw [List.map_append]
    exact List.Nodup.append h.nodup (List.nodup_singleton _) (by simpa using hn)
  have hlaunched : ∀ i ∈ (es ++ [(fiber, e)]).map (·.1), i < r.launched := by
    intro i hi
    rw [List.map_append, List.mem_append] at hi
    rcases hi with hi | hi
    · exact h.launched i hi
    · simp only [List.map_cons, List.map_nil, List.mem_singleton] at hi
      omega
  have hcount : r.running - 1 + (es ++ [(fiber, e)]).length = r.launched := by
    -- The endings are of different fibers, so one of those that run is left for this one.
    have hle := length_le_of_nodup hnodup hlaunched
    have := h.running
    simp only [List.length_map, List.length_append, List.length_singleton] at hle ⊢
    omega
  have hkept : e.failure?.or r.lastFailure =
      Ending.lastFailure ((es ++ [(fiber, e)]).map (·.2)) := by
    rw [List.map_append, hlast]
    exact (Ending.lastFailure_concat _ e).symm
  cases he : e.decisive with
  | true =>
    rw [finish_decisive r he]
    refine ⟨hnodup, hlaunched, hcount, by simp, fun v hv => ?_⟩
    cases hv
    exact ⟨es, (fiber, e), rfl, hall, .inl ⟨he, rfl⟩⟩
  | false =>
    rw [finish_indecisive r he, close_eq]
    split
    · next hdone =>
      refine ⟨hnodup, hlaunched, hcount, by simp, fun v hv => ?_⟩
      cases hv
      refine ⟨es, (fiber, e), rfl, hall, .inr ⟨he, hdone.1, hdone.2, ?_⟩⟩
      rw [← hkept]
    · next hopen =>
      refine ⟨hnodup, hlaunched, hcount, fun _ => ⟨?_, hkept, ?_⟩, fun v hv => ?_⟩
      · intro p hp
        rcases List.mem_append.1 hp with hp | hp
        · exact hall p hp
        · rw [List.mem_singleton.1 hp]
          exact he
      · dsimp only at hopen ⊢
        omega
      · rw [hr] at hv
        cases hv

theorem Runs.tally {speculation : Option Speculation} {since : Nat} {r : Race α}
    {es : List (Nat × Ending α)} (h : Runs speculation since r es) : Tally r es := by
  induction h with
  | start => exact .start speculation since
  | launch now _ hmay ih => exact ih.launch ((mayLaunch_iff _).1 hmay).1 now
  | finish fiber e _ hr hf hn ih => exact ih.finish hr hf hn e

/-- While a fiber runs, one of those launched has not ended. -/
theorem Tally.running_iff {r : Race α} {es : List (Nat × Ending α)} (h : Tally r es) :
    0 < r.running ↔ ∃ i, i < r.launched ∧ i ∉ es.map (·.1) := by
  have hlen : (es.map (·.1)).length = es.length := List.length_map _
  have hrun := h.running
  constructor
  · intro hpos
    by_contra hno
    push Not at hno
    have hsub : List.range r.launched ⊆ es.map (·.1) :=
      fun i hi => hno i (List.mem_range.1 hi)
    have := (List.subperm_of_subset List.nodup_range hsub).length_le
    rw [List.length_range] at this
    omega
  · rintro ⟨i, hi, hni⟩
    have hnodup : (i :: es.map (·.1)).Nodup := List.nodup_cons.2 ⟨hni, h.nodup⟩
    have := length_le_of_nodup hnodup (by
      intro j hj
      rcases List.mem_cons.1 hj with rfl | hj
      · exact hi
      · exact h.launched j hj)
    rw [List.length_cons] at this
    omega

/-- A decisive ending is the last one, and the verdict. -/
theorem Tally.verdict_of_decisive {r : Race α} {es before after : List (Nat × Ending α)}
    {last : Nat × Ending α} (h : Tally r es) (hes : es = before ++ last :: after)
    (hlast : last.2.decisive = true) : after = [] ∧ r.verdict = some last.2 := by
  have hmem : last ∈ es := by simp [hes]
  cases hv : r.verdict with
  | none =>
    have := (h.undecided hv).1 last hmem
    rw [hlast] at this
    cases this
  | some v =>
    obtain ⟨firsts, final, hfinal, hfirsts, hcase⟩ := h.decided v hv
    rcases List.eq_nil_or_concat after with rfl | ⟨init, z, rfl⟩
    · obtain ⟨rfl, hs⟩ := List.append_inj' (hes.symm.trans hfinal) rfl
      obtain rfl : last = final := by simpa using hs
      rcases hcase with ⟨-, rfl⟩ | ⟨hno, -⟩
      · exact ⟨rfl, rfl⟩
      · rw [hlast] at hno
        cases hno
    · have hcut : (before ++ last :: init) ++ [z] = firsts ++ [final] := by
        rw [← hfinal, hes]
        simp
      obtain ⟨rfl, -⟩ := List.append_inj' hcut rfl
      have := hfirsts last (by simp)
      rw [hlast] at this
      cases this

/-- Without a decisive ending there is a verdict exactly when nothing is left to do. -/
theorem Tally.verdict_of_indecisive {r : Race α} {es : List (Nat × Ending α)} (h : Tally r es)
    (hall : ∀ e ∈ es, e.2.decisive = false) :
    (r.verdict.isSome = true ↔ (∀ i, i < r.launched → i ∈ es.map (·.1)) ∧ r.left = 0) ∧
      ∀ v, r.verdict = some v → v = .ofFailure (Ending.lastFailure (es.map (·.2))) := by
  have hdone : (∀ i, i < r.launched → i ∈ es.map (·.1)) ↔ ¬ 0 < r.running := by
    rw [h.running_iff]
    push Not
    rfl
  cases hv : r.verdict with
  | none =>
    refine ⟨?_, by simp⟩
    have := (h.undecided hv).2.2
    rw [hdone]
    simp only [Option.isSome_none, Bool.false_eq_true, false_iff]
    omega
  | some v =>
    obtain ⟨firsts, final, hfinal, -, ⟨hyes, -⟩ | ⟨-, hrun, hleft, rfl⟩⟩ := h.decided v hv
    · rw [hall final (by simp [hfinal])] at hyes
      cases hyes
    · refine ⟨?_, fun v hv => (Option.some.inj hv).symm⟩
      rw [hdone]
      simp [hrun, hleft]

end Race

/-- Without a decisive ending the last failure is missing exactly if every fiber found no node. -/
theorem Ending.lastFailure_eq_none {es : List (Nat × Ending α)}
    (hall : ∀ e ∈ es, e.2.decisive = false) :
    Ending.ofFailure (α := α) (Ending.lastFailure (es.map (·.2))) = .idle ↔
      ∀ e ∈ es, e.2 = .idle := by
  have hnone : Ending.ofFailure (α := α) (Ending.lastFailure (es.map (·.2))) = .idle ↔
      ∀ e ∈ es, e.2.failure? = none := by
    unfold Ending.ofFailure
    split
    · next f hf =>
      obtain ⟨e, he, hfe⟩ : ∃ e ∈ es, e.2.failure? = some f := by
        have := List.mem_of_getLast? hf
        simpa using this
      simp only [reduceCtorEq, false_iff]
      intro hno
      rw [hno e he] at hfe
      cases hfe
    · next hf =>
      simpa [Ending.lastFailure] using hf
  rw [hnone]
  refine forall₂_congr fun e he => ?_
  have := hall e he
  cases h : e.2 with
  | succeeded a => simp [h, Ending.decisive] at this
  | failed f => simp [Ending.failure?]
  | idle => simp [Ending.failure?]

/-- Once a race is decided, nothing that happens changes its execution. -/
theorem Execution.step_decided {ω : Type} {x : Execution} (h : x.race.verdict.isSome = true)
    (env : Environment ω) (settings : Settings) (now : Nat) (w : ω) (event : Event) :
    x.step env settings now w event = ⟨x, w, []⟩ := by
  simp [step, h]

/-- **The law of a race.** The first decisive ending is the verdict, and what happens later changes
nothing. If there is none, the verdict comes exactly when every fiber launched has ended and none is
left to launch; it is the last failure, or that nothing was tried if every fiber found no node. And
as long as there is no verdict, a fiber runs or another may be launched. -/
theorem Race.Runs.verdict_law {speculation : Option Speculation} {since : Nat} {r : Race α}
    {es : List (Nat × Ending α)} (h : Race.Runs speculation since r es) :
    (∀ before last after, es = before ++ last :: after →
      (∀ e ∈ before, e.2.decisive = false) → last.2.decisive = true →
      after = [] ∧ r.verdict = some last.2) ∧
    ((∀ e ∈ es, e.2.decisive = false) →
      (r.verdict.isSome = true ↔ (∀ i, i < r.launched → i ∈ es.map (·.1)) ∧ r.left = 0) ∧
      ∀ v, r.verdict = some v →
        v = .ofFailure (Ending.lastFailure (es.map (·.2))) ∧
        (v = .idle ↔ ∀ e ∈ es, e.2 = .idle)) ∧
    (r.verdict = none → (∃ i, i < r.launched ∧ i ∉ es.map (·.1)) ∨ r.mayLaunch = true) ∧
    ∀ (x : Execution), x.race.verdict.isSome = true →
      ∀ {ω : Type} (env : Environment ω) (settings : Settings) (now : Nat) (w : ω) (event : Event),
        x.step env settings now w event = ⟨x, w, []⟩ := by
  have ht := h.tally
  refine ⟨fun before last after hes _ hlast => ht.verdict_of_decisive hes hlast, fun hall => ?_,
    fun hv => ?_, fun x hx ω env settings now w event => x.step_decided hx env settings now w event⟩
  · obtain ⟨hsome, hlast⟩ := ht.verdict_of_indecisive hall
    refine ⟨hsome, fun v hv => ?_⟩
    obtain rfl := hlast v hv
    exact ⟨rfl, Ending.lastFailure_eq_none hall⟩
  · rcases (ht.undecided hv).2.2 with hrun | hleft
    · exact .inl (ht.running_iff.1 hrun)
    · exact .inr ((Race.mayLaunch_iff r).2 ⟨hv, hleft⟩)

/-- Two fibers run; the second loses its connection, and then the first finds no node. The failure
is the verdict although it is not the last ending. -/
theorem Race.Runs.verdict_law_two_fibers :
    let lost : FiberFailure := .gaveUp (.connectionBroken .closed)
    let r := (((Race.start (α := Unit) (some ⟨1, 100⟩) 0).launchFirst.launch 100).finish
      (.failed lost)).finish .idle
    r.verdict.isSome = true ∧ ∀ v, r.verdict = some v → v = .failed lost := by
  intro lost r
  have h : Race.Runs (some ⟨1, 100⟩) 0 r [(1, .failed lost), (0, .idle)] :=
    .finish 0 .idle (.finish 1 (.failed lost) (.launch 100 .start rfl) rfl (by decide) (by simp))
      rfl (by decide) (by simp)
  obtain ⟨-, hlate, -⟩ := h.verdict_law
  obtain ⟨hdone, hlast⟩ := hlate (by simp [Ending.decisive, lost, FiberFailure.ignorable,
    AttemptError.mayDifferElsewhere])
  exact ⟨hdone.2 ⟨by decide, rfl⟩, fun v hv => (hlast v hv).1⟩

end ClusterClient
