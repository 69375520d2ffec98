import ClusterClient.Proofs.Credit

/-!
# When fibers are launched

`Race.Paced` is every way a race goes on a clock. A fiber is launched at the moment one is due, the
clock does not pass such a moment, and nothing else happens at it before the launch; fibers end
whenever they do otherwise, in any order.

Only launches move the next one, so they come at multiples of the interval (`Race.Pace`). An ending
stops them (`Ending.stops`) if it is a success, a failure every node would return, or says that the
plan ran out of nodes.

The race of an execution whose events come in that way is paced (`Execution.Pacing.step`). Its
launches and the ends of its fibers are read off its acts with their times (`Execution.launches`,
`Execution.lastActed?`).
-/

namespace ClusterClient

variable {α : Type}

/-- Whether no fiber is launched after an ending. -/
def Ending.stops : Ending α → Bool
  | .succeeded _ | .idle => true
  | .failed f => !f.ignorable || f.isPlanExhausted

/-- How a fiber ended, and when. -/
structure TimedEnding (α : Type) where
  time : Nat
  fiber : Nat
  ending : Ending α

namespace Race

/-- The races on a clock, with the launches and the endings so far, and the time by now. A launch is
listed with its time and the number of the fiber. -/
inductive Paced (s : Speculation) (since : Nat) :
    Race α → List (Nat × Nat) → List (TimedEnding α) → Nat → Prop
  | start : Paced s since (Race.start (some s) since).launchFirst [(since, 0)] [] since
  | launch {r : Race α} {launches : List (Nat × Nat)} {endings : List (TimedEnding α)}
      {now due : Nat} :
      Paced s since r launches endings now → r.due? = some due →
      Paced s since (r.launch due) (launches ++ [(due, r.launched)]) endings due
  | finish {r : Race α} {launches : List (Nat × Nat)} {endings : List (TimedEnding α)} {now : Nat}
      (fiber : Nat) (e : Ending α) :
      Paced s since r launches endings now → r.verdict = none → fiber < r.launched →
      (∀ f ∈ endings, f.fiber ≠ fiber) →
      Paced s since (r.finish e) launches (endings ++ [⟨now, fiber, e⟩]) now
  | wait {r : Race α} {launches : List (Nat × Nat)} {endings : List (TimedEnding α)}
      {now later : Nat} :
      Paced s since r launches endings now → now ≤ later →
      (∀ due, r.due? = some due → later < due) → Paced s since r launches endings later

/-- How a paced race stands. -/
structure Pace (s : Speculation) (since : Nat) (r : Race α) (launches : List (Nat × Nat))
    (endings : List (TimedEnding α)) (now : Nat) : Prop where
  interval : r.interval = s.interval
  pos : 0 < r.launched
  launches_eq : launches = (List.range r.launched).map fun k => (since + k * s.interval, k)
  nextLaunch : r.nextLaunch = since + r.launched * s.interval
  budget : r.launched + r.left ≤ s.max + 1
  last_le : since + (r.launched - 1) * s.interval ≤ now
  lt_due : r.mayLaunch = true → now < r.nextLaunch
  /-- A race that goes on was not stopped, and has all launches left that it had. -/
  goesOn : r.mayLaunch = true →
    r.launched + r.left = s.max + 1 ∧ ∀ e ∈ endings, e.ending.stops = false
  /-- One that does not go on was launched as often as it could be, or was stopped before the next
  launch. -/
  stopped : r.mayLaunch = false → r.launched = s.max + 1 ∨
    ∃ e ∈ endings, e.ending.stops = true ∧ e.time < since + r.launched * s.interval
  ended : ∀ e ∈ endings, e.time ≤ now
  /-- No launch comes after an ending that stops them. -/
  last : ∀ e ∈ endings, e.ending.stops = true → since + (r.launched - 1) * s.interval ≤ e.time

variable {s : Speculation} {since : Nat} {r : Race α} {launches : List (Nat × Nat)}
  {endings : List (TimedEnding α)} {now : Nat}

theorem due?_eq_some {due : Nat} :
    r.due? = some due ↔ r.mayLaunch = true ∧ r.nextLaunch = due := by
  unfold due?
  split <;> simp_all

theorem Pace.start (hs : 0 < s.interval) (since : Nat) :
    Pace (α := α) s since (Race.start (some s) since).launchFirst [(since, 0)] [] since where
  interval := rfl
  pos := Nat.one_pos
  launches_eq := by simp [Race.start, launchFirst]
  nextLaunch := by simp [Race.start, launchFirst]
  budget := by simp [Race.start, launchFirst, Nat.add_comm]
  last_le := by simp [Race.start, launchFirst]
  lt_due _ := by simpa [Race.start, launchFirst] using hs
  goesOn _ := by simp [Race.start, launchFirst, Nat.add_comm]
  stopped h := .inl (by simpa [mayLaunch, Race.start, launchFirst] using h)
  ended := by simp
  last := by simp

theorem Pace.wait (h : Pace s since r launches endings now) {later : Nat} (hle : now ≤ later)
    (hlt : ∀ due, r.due? = some due → later < due) : Pace s since r launches endings later :=
  { h with
    last_le := Nat.le_trans h.last_le hle
    lt_due := fun hmay => hlt _ (due?_eq_some.2 ⟨hmay, rfl⟩)
    ended := fun e he => Nat.le_trans (h.ended e he) hle }

/-- A launch comes when it is due, and the next one is due an interval later. -/
theorem Pace.launch (hs : 0 < s.interval) (h : Pace s since r launches endings now) {due : Nat}
    (hdue : r.due? = some due) :
    Pace s since (r.launch due) (launches ++ [(due, r.launched)]) endings due := by
  obtain ⟨hmay, rfl⟩ := due?_eq_some.1 hdue
  obtain ⟨hv, hleft⟩ := (mayLaunch_iff r).1 hmay
  obtain ⟨hbudget, hgoes⟩ := h.goesOn hmay
  have hnow := h.lt_due hmay
  have hnext := h.nextLaunch
  have hmul : (r.launched + 1) * s.interval = r.launched * s.interval + s.interval :=
    Nat.succ_mul _ _
  refine
    { interval := h.interval
      pos := Nat.succ_pos _
      launches_eq := by simp [h.launches_eq, List.range_succ, hnext]
      nextLaunch := ?_
      budget := ?_
      last_le := by simp [Race.launch, hnext]
      lt_due := fun _ => by simpa [Race.launch, h.interval] using hs
      goesOn := fun _ => ⟨?_, hgoes⟩
      stopped := fun hno => .inl ?_
      ended := fun e he => Nat.le_of_lt (Nat.lt_of_le_of_lt (h.ended e he) hnow)
      last := fun e he hstops => ?_ }
  · simp only [Race.launch, h.interval, hnext]
    omega
  · simp only [Race.launch]
    omega
  · simp only [Race.launch]
    omega
  · simp only [mayLaunch, Race.launch, hv] at hno ⊢
    have hnone : r.left - 1 = 0 := by simpa using hno
    omega
  · rw [hgoes e he] at hstops
    cases hstops

/-- An ending that does not stop the launches leaves as many as there were. -/
theorem leftAfter_of_not_stops {e : Ending α} (h : e.stops = false) (r : Race α) :
    e.decisive = false ∧ r.leftAfter e = r.left := by
  cases e with
  | succeeded a => cases h
  | idle => cases h
  | failed f =>
    simp only [Ending.stops, Bool.or_eq_false_iff] at h
    simp [Ending.decisive, leftAfter, h.1, h.2]

/-- After an ending that stops them there is no further launch. -/
theorem mayLaunch_of_stops {e : Ending α} (h : e.stops = true) (r : Race α) :
    (r.finish e).mayLaunch = false := by
  cases hd : e.decisive with
  | true => simp [finish_decisive r hd, mayLaunch]
  | false =>
    have hleft : r.leftAfter e = 0 := by
      cases e with
      | succeeded a => cases hd
      | idle => rfl
      | failed f => simp_all [Ending.stops, Ending.decisive, leftAfter]
    rw [finish_indecisive r hd, close_eq]
    split <;> simp [mayLaunch, hleft]

theorem finish_interval (r : Race α) (e : Ending α) : (r.finish e).interval = r.interval := by
  cases h : e.decisive with
  | true => rw [finish_decisive r h]
  | false => rw [finish_indecisive r h, close_eq]; split <;> rfl

theorem finish_nextLaunch (r : Race α) (e : Ending α) :
    (r.finish e).nextLaunch = r.nextLaunch := by
  cases h : e.decisive with
  | true => rw [finish_decisive r h]
  | false => rw [finish_indecisive r h, close_eq]; split <;> rfl

/-- An ending that does not stop the launches leaves the race as it was in that respect, and closes
it only if none was left. -/
theorem finish_of_not_stops {e : Ending α} (h : e.stops = false) (r : Race α)
    (hv : r.verdict = none) :
    (r.finish e).left = r.left ∧ (r.finish e).mayLaunch = r.mayLaunch := by
  obtain ⟨hd, hleft⟩ := leftAfter_of_not_stops h r
  rw [finish_indecisive r hd, close_eq, hleft]
  split
  · next hclosed => simp_all [mayLaunch]
  · simp [mayLaunch]

/-- An ending is not followed by a launch at the same time, and leaves the next one where it was. -/
theorem Pace.finish (h : Pace s since r launches endings now) (hv : r.verdict = none) (fiber : Nat)
    (e : Ending α) : Pace s since (r.finish e) launches (endings ++ [⟨now, fiber, e⟩]) now := by
  have hlaunched := finish_launched r e
  have hnext := finish_nextLaunch r e
  have hle := finish_left_le r e
  have hbudget := h.budget
  have hmono : (r.finish e).mayLaunch = true → r.mayLaunch = true ∧ e.stops = false := by
    intro hmay
    cases hs : e.stops with
    | true =>
      rw [mayLaunch_of_stops hs] at hmay
      cases hmay
    | false => exact ⟨(finish_of_not_stops hs r hv).2 ▸ hmay, rfl⟩
  refine
    { interval := (finish_interval r e).trans h.interval
      pos := hlaunched ▸ h.pos
      launches_eq := hlaunched ▸ h.launches_eq
      nextLaunch := by rw [hnext, h.nextLaunch, hlaunched]
      budget := by omega
      last_le := hlaunched ▸ h.last_le
      lt_due := fun hmay => hnext ▸ h.lt_due (hmono hmay).1
      goesOn := fun hmay => ?_
      stopped := fun hno => ?_
      ended := fun f hf => ?_
      last := fun f hf hstops => ?_ }
  · obtain ⟨hold, hs⟩ := hmono hmay
    obtain ⟨hall, hgoes⟩ := h.goesOn hold
    refine ⟨by rw [hlaunched, (finish_of_not_stops hs r hv).1, hall], fun f hf => ?_⟩
    rcases List.mem_append.1 hf with hf | hf
    · exact hgoes f hf
    · rw [List.mem_singleton.1 hf]
      exact hs
  · rw [hlaunched]
    cases hold : r.mayLaunch with
    | false =>
      exact (h.stopped hold).imp_right fun ⟨f, hf, hrest⟩ => ⟨f, List.mem_append_left _ hf, hrest⟩
    | true =>
      have hs : e.stops = true := by
        by_contra hs
        rw [(finish_of_not_stops (by simpa using hs) r hv).2, hold] at hno
        cases hno
      exact .inr ⟨_, List.mem_concat_self, hs, h.nextLaunch ▸ h.lt_due hold⟩
  · rcases List.mem_append.1 hf with hf | hf
    · exact h.ended f hf
    · rw [List.mem_singleton.1 hf]
  · rw [hlaunched]
    rcases List.mem_append.1 hf with hf | hf
    · exact h.last f hf hstops
    · rw [List.mem_singleton.1 hf]
      exact h.last_le

/-- **Every paced race keeps its pace.** -/
theorem Paced.pace (hs : 0 < s.interval) (h : Paced s since r launches endings now) :
    Pace s since r launches endings now := by
  induction h with
  | start => exact .start hs since
  | launch _ hdue ih => exact ih.launch hs hdue
  | finish fiber e _ hv _ _ ih => exact ih.finish hv fiber e
  | wait _ hle hlt ih => exact ih.wait hle hlt

/-- What is known of the launches of a race, whether it goes on or not. -/
structure OnTime (s : Speculation) (since : Nat) (r : Race α) (launches : List (Nat × Nat))
    (endings : List (TimedEnding α)) (now : Nat) : Prop where
  launches_eq : launches = (List.range r.launched).map fun k => (since + k * s.interval, k)
  launched_le : r.launched ≤ s.max + 1
  /-- A fiber is launched unless one ended before in a way that stops the launches. -/
  launched_iff : ∀ k ≤ s.max, r.mayLaunch = false ∨ since + k * s.interval ≤ now →
    (k < r.launched ↔ ∀ e ∈ endings, e.time < since + k * s.interval → e.ending.stops = false)
  none_after : ∀ e ∈ endings, e.ending.stops = true →
    r.due? = none ∧ ∀ l ∈ launches, l.1 ≤ e.time

/-- What is known of the launches at a time holds before it too. -/
theorem OnTime.mono (h : OnTime s since r launches endings now) {earlier : Nat}
    (hle : earlier ≤ now) : OnTime s since r launches endings earlier :=
  { h with launched_iff := fun k hk hsettled =>
      h.launched_iff k hk (hsettled.imp_right fun hpast => Nat.le_trans hpast hle) }

/-- **The fibers of a paced race are launched on time.** -/
theorem Pace.onTime (h : Pace s since r launches endings now) :
    OnTime s since r launches endings now where
  launches_eq := h.launches_eq
  launched_le := Nat.le_trans (Nat.le_add_right _ _) h.budget
  launched_iff k hk hsettled := by
    have hmono {i j : Nat} (hij : i ≤ j) : i * s.interval ≤ j * s.interval :=
      Nat.mul_le_mul_right _ hij
    constructor
    · intro hlt e he hbefore
      by_contra hstops
      have hlast := h.last e he (by simpa using hstops)
      have := hmono (show k ≤ r.launched - 1 by omega)
      omega
    · intro hnone
      by_contra hge
      have := hmono (show r.launched ≤ k by omega)
      cases hmay : r.mayLaunch with
      | true =>
        have hnow := h.lt_due hmay
        rw [h.nextLaunch] at hnow
        rcases hsettled with hno | hpast
        · rw [hmay] at hno
          cases hno
        · omega
      | false =>
        rcases h.stopped hmay with hall | ⟨e, he, hstops, hbefore⟩
        · omega
        · rw [hnone e he (by omega)] at hstops
          cases hstops
  none_after e he hstops := by
    refine ⟨?_, fun l hl => ?_⟩
    · cases hmay : r.mayLaunch with
      | true =>
        rw [(h.goesOn hmay).2 e he] at hstops
        cases hstops
      | false => simp [due?, hmay]
    · rw [h.launches_eq] at hl
      obtain ⟨k, hk, rfl⟩ := List.mem_map.1 hl
      have hlast := h.last e he hstops
      have hle : k * s.interval ≤ (r.launched - 1) * s.interval :=
        Nat.mul_le_mul_right _ (by have := List.mem_range.1 hk; omega)
      dsimp only
      omega

end Race

/-! ## The acts of a turn -/

namespace Pose

variable {ω : Type} {env : Environment ω} {settings : Settings} {p p' : Pose} {s s' : Shared}
  {acts : List Act}

/-- A fiber acts under its own number and launches no other. -/
theorem Moves.own (h : Moves env settings p s acts p' s') :
    acts.filterMap Act.opened? = [] ∧ ∀ a ∈ acts, ∀ i, a.fiber? = some i → i = p.index := by
  induction h with
  | none => simp
  | cons hmove _ ih =>
    refine ⟨by rw [List.filterMap_append, hmove.opened_eq, ih.1, List.append_nil], ?_⟩
    intro a ha i hi
    rcases List.mem_append.1 ha with ha | ha
    · exact hmove.fiber_eq ha hi
    · exact (ih.2 a ha i hi).trans hmove.index_eq

end Pose

namespace Fiber

variable {ω : Type} {env : Environment ω} {settings : Settings} {now : Nat} {f : Fiber}
  {c : Current} {s : Shared} {w : ω} {t : Turn ω}

/-- A fiber that ends does something under its number in that turn. -/
theorem Takes.acts_of_ended (h : Takes env settings now f c s w t) {e : Ending Success}
    (he : t.fiber.phase = .ended e) : ∃ a ∈ t.acts, a.fiber? = some f.index := by
  cases h with
  | waits | sends => cases he
  | succeeds => exact ⟨.claimed c.number f.index, by simp, rfl⟩
  | @fails error => exact ⟨.failed c.number f.index c.node error, by simp, rfl⟩

/-- A new fiber acts under its own number from its launch on. -/
theorem Seeks.own_of_fresh {i : Nat} (h : Seeks env settings now (.fresh settings i) s w t) :
    ∀ a ∈ (t.after [.opened i]).acts, ∀ j, a.fiber? = some j → j = t.fiber.index := by
  intro a ha j hj
  refine Eq.trans ?_ h.frame.1.symm
  rcases List.mem_cons.1 ha with rfl | ha
  · exact (Option.some.inj hj).symm
  · exact h.moves.own.2 a ha j hj

/-- The time of an attempt is up when it is begun, or later. -/
theorem Seeks.deadline_le (h : Seeks env settings now f s w t) {c : Current}
    (hc : t.fiber.phase = .attempting c) {d : Nat} (hd : c.deadline = some d) : now ≤ d := by
  induction h with
  | exhausted => cases hc
  | begins =>
    cases hc
    obtain ⟨limit, -, rfl⟩ := Option.map_eq_some_iff.1 hd
    exact Nat.le_add_right _ _
  | refused _ _ _ _ ih => exact ih hc

theorem Takes.deadline_le (h : Takes env settings now f c s w t) {c' : Current}
    (hc : t.fiber.phase = .attempting c') {d : Nat} (hd : c'.deadline = some d) :
    c.deadline = some d ∨ now ≤ d := by
  cases h with
  | waits | sends =>
    cases hc
    exact .inl hd
  | succeeds => cases hc
  | fails _ _ ho =>
    right
    cases ho with
    | stop | ignore => cases hc
    | again =>
      cases hc
      obtain ⟨limit, -, rfl⟩ := Option.map_eq_some_iff.1 hd
      exact Nat.le_add_right _ _
    | onward _ hseek | next hseek => exact hseek.deadline_le hc hd

end Fiber

/-! ## Executions on a clock -/

namespace Execution

/-- Acts that are all done at one time. -/
def timed (now : Nat) (acts : List Act) : List (Nat × Act) :=
  acts.map (now, ·)

/-- The launches among some acts, with their times. -/
def launches (past : List (Nat × Act)) : List (Nat × Nat) :=
  past.filterMap fun (time, a) => a.opened?.map (time, ·)

/-- When a fiber did something last. -/
def lastActed? (i : Nat) (past : List (Nat × Act)) : Option Nat :=
  (past.filter (·.2.fiber? = some i)).getLast?.map (·.1)

section
variable {past : List (Nat × Act)} {now i : Nat} {acts : List Act}

theorem launches_append_timed :
    launches (past ++ timed now acts) =
      launches past ++ (acts.filterMap Act.opened?).map (now, ·) := by
  simp [launches, timed, List.filterMap_append, List.filterMap_map, List.map_filterMap]

theorem lastActed?_append_timed (h : ∃ a ∈ acts, a.fiber? = some i) :
    lastActed? i (past ++ timed now acts) = some now := by
  obtain ⟨a, ha, hi⟩ := h
  have hmem : (now, a) ∈ (timed now acts).filter (·.2.fiber? = some i) :=
    List.mem_filter.2 ⟨List.mem_map.2 ⟨a, ha, rfl⟩, by simpa using hi⟩
  rw [lastActed?, List.filter_append, List.getLast?_append_of_ne_nil _ (List.ne_nil_of_mem hmem)]
  obtain ⟨b, hb⟩ := Option.ne_none_iff_exists'.1 (mt List.getLast?_eq_none_iff.1
    (List.ne_nil_of_mem hmem))
  obtain ⟨b', -, rfl⟩ := List.mem_map.1 (List.mem_of_mem_filter (List.mem_of_getLast? hb))
  rw [hb]
  rfl

theorem lastActed?_append_of_forall (h : ∀ a ∈ acts, a.fiber? ≠ some i) :
    lastActed? i (past ++ timed now acts) = lastActed? i past := by
  have hnone : (timed now acts).filter (·.2.fiber? = some i) = [] := by
    rw [List.filter_eq_nil_iff]
    intro entry hentry
    obtain ⟨a, ha, rfl⟩ := List.mem_map.1 hentry
    simpa using h a ha
  rw [lastActed?, List.filter_append, hnone, List.append_nil, lastActed?]

end

variable {ω : Type} {env : Environment ω} {settings : Settings} {s : Speculation} {since : Nat}
  {x : Execution} {past : List (Nat × Act)} {endings : List (TimedEnding Success)} {now : Nat}
  {t : Turn ω}

/-- The race of an execution on a clock, with the endings of its fibers. -/
structure Pacing (s : Speculation) (since : Nat) (x : Execution) (past : List (Nat × Act))
    (endings : List (TimedEnding Success)) (now : Nat) : Prop where
  paced : Race.Paced s since x.race (launches past) endings now
  launched : x.fibers.length = x.race.launched
  ended : ∀ i e, (∃ f ∈ endings, f.fiber = i ∧ f.ending = e) ↔
    ∃ f, x.fibers[i]? = some f ∧ f.phase = .ended e
  /-- A fiber ends when it does something last. -/
  timed : ∀ f ∈ endings, lastActed? f.fiber past = some f.time

/-- A turn adds the ending of its fiber to those of the others, if it ends it. -/
theorem Pacing.settle {launched : List (Nat × Nat)}
    (hpaced : Race.Paced s since x.race launched endings now)
    (hlaunches : launches (past ++ Execution.timed now t.acts) = launched)
    (hv : x.race.verdict = none) (hlaunched : x.fibers.length = x.race.launched)
    (hi : t.fiber.index < x.fibers.length)
    (hothers : ∀ i e, (∃ f ∈ endings, f.fiber = i ∧ f.ending = e) ↔
      i ≠ t.fiber.index ∧ ∃ f, x.fibers[i]? = some f ∧ f.phase = .ended e)
    (htimed : ∀ f ∈ endings, lastActed? f.fiber past = some f.time)
    (hown : ∀ a ∈ t.acts, ∀ i, a.fiber? = some i → i = t.fiber.index)
    (hacts : ∀ e, t.fiber.phase = .ended e → ∃ a ∈ t.acts, a.fiber? = some t.fiber.index) :
    ∃ endings, Pacing s since (x.settle t).execution (past ++ Execution.timed now t.acts) endings
      now := by
  have hne : ∀ f ∈ endings, f.fiber ≠ t.fiber.index := fun f hf =>
    ((hothers f.fiber f.ending).1 ⟨f, hf, rfl, rfl⟩).1
  have htimed : ∀ f ∈ endings,
      lastActed? f.fiber (past ++ Execution.timed now t.acts) = some f.time := by
    intro f hf
    rw [lastActed?_append_of_forall fun a ha hi => hne f hf (hown a ha _ hi), htimed f hf]
  cases hp : t.fiber.phase with
  | attempting c =>
    refine ⟨endings, ?_, ?_, fun i e => ?_, htimed⟩
    · rw [settle_race_attempting hp, hlaunches]
      exact hpaced
    · rw [settle_race_attempting hp, settle_fibers, List.length_set, hlaunched]
    · rw [settle_ended_iff hi, ← hothers]
      simp [hp]
  | ended e =>
    refine ⟨endings ++ [⟨now, t.fiber.index, e⟩], ?_, ?_, fun i e' => ?_, fun f hf => ?_⟩
    · rw [settle_race_ended hp, hlaunches]
      exact .finish t.fiber.index e hpaced hv (hlaunched ▸ hi) hne
    · rw [settle_race_ended hp, settle_fibers, List.length_set, Race.finish_launched, hlaunched]
    · rw [settle_ended_iff hi, ← hothers]
      constructor
      · rintro ⟨f, hf, rfl, rfl⟩
        rcases List.mem_append.1 hf with hf | hf
        · exact .inr ⟨f, hf, rfl, rfl⟩
        · rw [List.mem_singleton.1 hf]
          exact .inl ⟨rfl, hp⟩
      · rintro (⟨rfl, he⟩ | ⟨f, hf, hrest⟩)
        · exact ⟨_, List.mem_concat_self, rfl, Phase.ended.inj (hp.symm.trans he)⟩
        · exact ⟨f, List.mem_append_left _ hf, hrest⟩
    · rcases List.mem_append.1 hf with hf | hf
      · exact htimed f hf
      · rw [List.mem_singleton.1 hf]
        exact lastActed?_append_timed (hacts e hp)

/-- The first fiber is launched at once. -/
theorem Pacing.start (s : Speculation) (env : Environment ω) (settings : Settings) (now : Nat)
    (w : ω) :
    let m := Execution.start env settings (some s) now w
    ∃ endings, Pacing s now m.execution (Execution.timed now m.acts) endings now := by
  intro m
  obtain ⟨t, hseek, he⟩ := start_cases env settings (some s) now w
  have hi : t.fiber.index = 0 := hseek.frame.1
  have hopened := hseek.moves.own.1
  have hlaunches : launches ([] ++ Execution.timed now m.acts) = [(now, 0)] := by
    rw [launches_append_timed, show m = _ from he]
    simp [launches, Act.opened?, hopened]
  rw [show m = _ from he] at hlaunches ⊢
  refine Pacing.settle .start hlaunches rfl rfl (by simp [fork, initial, hi]) (fun i e => ?_)
    (by simp) hseek.own_of_fresh
    fun _ _ => ⟨.opened 0, List.mem_cons_self, congrArg some hi.symm⟩
  rw [Turn.after_fiber, hi]
  exact .trans (by simp [initial]) (fork_ended_iff (x := initial (some s) now) i e).symm

theorem Pacing.wait (h : Pacing s since x past endings now) {later : Nat} (hle : now ≤ later)
    (hlt : ∀ due, x.race.due? = some due → later < due) : Pacing s since x past endings later :=
  { h with paced := h.paced.wait hle hlt }

theorem step_launch (hmay : x.race.mayLaunch = true) (now : Nat) (w : ω) :
    x.step env settings now w .launch = x.launch env settings now w := by
  have hv := ((Race.mayLaunch_iff _).1 hmay).1
  simp [Execution.step, hv, hmay]

/-- **An execution keeps its pace** if fibers are launched when they are due, and the time does not
pass that moment otherwise. -/
theorem Pacing.step (h : Pacing s since x past endings now) (env : Environment ω)
    (settings : Settings) (hx : x.Sound) {later : Nat} (hle : now ≤ later) (w : ω) {event : Event}
    (hlaunch : event = .launch → x.race.mayLaunch = true → x.race.due? = some later)
    (hother : event ≠ .launch → ∀ due, x.race.due? = some due → later < due) :
    let m := x.step env settings later w event
    ∃ endings, Pacing s since m.execution (past ++ Execution.timed later m.acts) endings later := by
  intro m
  rcases step_cases env settings hx later w event with
    hnone | ⟨hevent, hmay, t, hseek, he⟩ | ⟨hevent, hv, f, c, t, hf, hp, ht, he⟩
  · have hlt : ∀ due, x.race.due? = some due → later < due := by
      intro due hdue
      refine hother (fun hevent => ?_) due hdue
      -- A fiber that is due would have been launched.
      have hmay := (Race.due?_eq_some.1 hdue).1
      rw [hevent, step_launch hmay] at hnone
      cases congrArg Moved.acts hnone
    refine ⟨endings, ?_⟩
    simpa [m, hnone, Execution.timed] using h.wait hle hlt
  · have hi : t.fiber.index = x.fibers.length := hseek.frame.1
    have hopened := hseek.moves.own.1
    have hlaunches : launches (past ++ Execution.timed later m.acts) =
        launches past ++ [(later, x.race.launched)] := by
      simp [m, he, launches_append_timed, Act.opened?, hopened, h.launched]
    rw [show m = _ from he] at hlaunches ⊢
    refine Pacing.settle (h.paced.launch (hlaunch hevent hmay)) hlaunches
      ((Race.mayLaunch_iff _).1 hmay).1 ?_ ?_ (fun i e => ?_) h.timed hseek.own_of_fresh
      fun _ _ => ⟨.opened x.fibers.length, List.mem_cons_self, congrArg some hi.symm⟩
    · simp [fork, h.launched]
    · simp [fork, hi]
    · rw [h.ended, Turn.after_fiber, hi, fork_ended_iff]
  · have hi : t.fiber.index = f.index := (ht.frame (hx.unclaimed hv)).1
    obtain ⟨hlt, -⟩ := List.getElem?_eq_some_iff.1 hf
    obtain ⟨hopened, hown⟩ := ht.moves.own
    have hlaunches : launches (past ++ Execution.timed later m.acts) = launches past := by
      simp [m, he, launches_append_timed, hopened]
    rw [show m = _ from he] at hlaunches ⊢
    refine Pacing.settle (h.paced.wait hle (hother hevent)) hlaunches hv h.launched (by omega)
      (fun i e => ?_) h.timed (fun a ha i hai => (hown a ha i hai).trans hi.symm)
      fun e hp => hi ▸ ht.acts_of_ended hp
    rw [h.ended, hi, waiting_ended_iff hf hp]

/-! ## Alarms -/

/-- The times at which the attempts under way time out. -/
def deadlines (x : Execution) : List Nat :=
  x.fibers.filterMap fun f => f.current?.bind Current.deadline

theorem mem_deadlines {d : Nat} :
    d ∈ x.deadlines ↔ ∃ f ∈ x.fibers, ∃ c, f.phase = .attempting c ∧ c.deadline = some d := by
  simp only [deadlines, List.mem_filterMap, Fiber.current?]
  refine exists_congr fun f => and_congr_right fun _ => ?_
  cases f.phase <;> simp

theorem expire_mem_alarms (hv : x.race.verdict = none) {d : Nat} (hd : d ∈ x.deadlines) :
    ∃ number, (d, .expire number) ∈ x.alarms := by
  obtain ⟨f, hf, c, hp, hc⟩ := mem_deadlines.1 hd
  refine ⟨c.number, ?_⟩
  simp only [alarms, hv, Option.isSome_none, Bool.false_eq_true, if_false]
  exact List.mem_append_left _ (List.mem_filterMap.2 ⟨f, hf, by simp [Fiber.current?, hp, hc]⟩)

theorem mem_deadlines_of_expire {d number : Nat} (h : (d, .expire number) ∈ x.alarms) :
    d ∈ x.deadlines := by
  unfold alarms at h
  split at h
  · cases h
  · rcases List.mem_append.1 h with h | h
    · obtain ⟨f, hf, h⟩ := List.mem_filterMap.1 h
      obtain ⟨c, hc, h⟩ := Option.bind_eq_some_iff.1 h
      obtain ⟨d', hd, heq⟩ := Option.map_eq_some_iff.1 h
      cases heq
      exact List.mem_filterMap.2 ⟨f, hf, by simp [hc, hd]⟩
    · simp at h

/-- There is an alarm for a launch exactly when one is due. -/
theorem launch_mem_alarms {due : Nat} :
    (due, .launch) ∈ x.alarms ↔ x.race.due? = some due := by
  unfold alarms
  split
  · next hv =>
    obtain ⟨e, hv⟩ := Option.isSome_iff_exists.1 hv
    simp [Race.due?, Race.mayLaunch, hv]
  · simp [Option.bind_eq_some_iff]

theorem settle_deadlines_le {later : Nat} (h : ∀ d ∈ x.deadlines, later ≤ d)
    (ht : ∀ c d, t.fiber.phase = .attempting c → c.deadline = some d → later ≤ d) :
    ∀ d ∈ (x.settle t).execution.deadlines, later ≤ d := by
  intro d hd
  obtain ⟨f, hf, c, hp, hc⟩ := mem_deadlines.1 hd
  rcases List.mem_or_eq_of_mem_set hf with hf | rfl
  · exact h d (mem_deadlines.2 ⟨f, hf, c, hp, hc⟩)
  · exact ht c d hp hc

theorem fork_deadlines (x : Execution) (race : Race Success) :
    (x.fork settings race).deadlines = x.deadlines := by
  simp [deadlines, fork, List.filterMap_append, Fiber.current?, Fiber.fresh]

/-- No attempt times out before the moment at which the execution was seen last. -/
theorem start_deadlines_le (env : Environment ω) (settings : Settings)
    (speculation : Option Speculation) (now : Nat) (w : ω) :
    ∀ d ∈ (Execution.start env settings speculation now w).execution.deadlines, now ≤ d := by
  obtain ⟨t, hseek, he⟩ := start_cases env settings speculation now w
  rw [he]
  refine settle_deadlines_le (fun d hd => ?_) fun c d hp hc => hseek.deadline_le hp hc
  rw [fork_deadlines] at hd
  cases hd

theorem step_deadlines_le (hx : x.Sound) {later : Nat} (h : ∀ d ∈ x.deadlines, later ≤ d) (w : ω)
    (event : Event) : ∀ d ∈ (x.step env settings later w event).execution.deadlines, later ≤ d := by
  rcases step_cases env settings hx later w event with
    hnone | ⟨-, -, t, hseek, he⟩ | ⟨-, hv, f, c, t, hf, hp, ht, he⟩
  · rw [hnone]
    exact h
  · rw [he]
    exact settle_deadlines_le (by rwa [fork_deadlines]) fun c d hp hc => hseek.deadline_le hp hc
  · rw [he]
    refine settle_deadlines_le h fun c' d hp' hc => ?_
    rcases ht.deadline_le hp' hc with hold | hle
    · exact h d (mem_deadlines.2 ⟨f, List.mem_of_getElem? hf, c, hp, hold⟩)
    · exact hle

end Execution

end ClusterClient
