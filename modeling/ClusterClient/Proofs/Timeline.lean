import ClusterClient.Proofs.Touch
import ClusterClient.Rehearsal.Timeline

/-!
# What holds along a timeline

A step of a client is one of a single task (`Client.Turned`): the others stay as they are, and a
task that is finished is gone. So along every timeline an execution under way is one that came about
from its start by what was recorded of it (`Timeline.Sound`), and what holds of every execution
holds of it.

`pick_filter` and `pick_map` say how the earliest cause is found among some of the causes, or among
causes by other names.
-/

namespace ClusterClient

/-- Whether a task executes a statement. -/
def Task.isExecuting : Task → Bool
  | .executing .. => true
  | .listing .. | .looking _ | .inquiring _ => false

namespace Client

variable {c d : Client} {n m : Nat} {t : Task}

theorem task?_congr (h : c.tasks = d.tasks) (n : Nat) : c.task? n = d.task? n := by
  rw [task?, task?, h]

theorem task?_put_ne (h : m ≠ n) : (c.put n t).task? m = c.task? m := by
  unfold put task?
  split
  · dsimp only
    generalize c.tasks = tasks
    induction tasks with
    | nil => rfl
    | cons entry tasks ih =>
      obtain ⟨k, old⟩ := entry
      by_cases hk : k = n
      · have hm : (m == k) = false := by simpa [hk] using h
        rw [List.map_cons, if_pos hk, List.lookup_cons, List.lookup_cons, hm, ih]
      · rw [List.map_cons, if_neg hk, List.lookup_cons, List.lookup_cons, ih]
  · have hm : (m == n) = false := by simpa using h
    simp [List.lookup_append, List.lookup_cons, hm]

theorem task?_drop_ne (h : m ≠ n) : (c.drop n).task? m = c.task? m := by
  unfold drop task?
  dsimp only
  generalize c.tasks = tasks
  induction tasks with
  | nil => rfl
  | cons entry tasks ih =>
    obtain ⟨k, old⟩ := entry
    by_cases hk : k = n
    · have hm : (m == k) = false := by simpa [hk] using h
      rw [List.filter_cons_of_neg (by simpa using hk), List.lookup_cons, hm, ih]
    · rw [List.filter_cons_of_pos (by simpa using hk), List.lookup_cons, List.lookup_cons, ih]

@[simp] theorem put_nextTask (c : Client) (n : Nat) (t : Task) :
    (c.put n t).nextTask = c.nextTask := by
  unfold put
  split <;> rfl

/-- The numbers of the tasks under way. -/
def numbers (c : Client) : List Nat :=
  c.tasks.map (·.1)

theorem mem_numbers : n ∈ c.numbers ↔ (c.task? n).isSome = true := by
  unfold numbers task?
  generalize c.tasks = tasks
  induction tasks with
  | nil => simp
  | cons entry tasks ih =>
    obtain ⟨k, old⟩ := entry
    by_cases hk : n = k
    · simp [hk]
    · have hn : (n == k) = false := by simpa using hk
      rw [List.map_cons, List.mem_cons, List.lookup_cons, hn]
      simp [hk, ih]

/-- No two tasks get one number. -/
theorem numbers_put_nodup (h : c.numbers.Nodup) (n : Nat) (t : Task) :
    (c.put n t).numbers.Nodup := by
  unfold put
  split
  · rw [numbers, List.map_map]
    rw [List.map_congr_left (g := (·.1)) fun entry _ => by
      simp only [Function.comp_apply]
      split <;> rfl]
    exact h
  · next hnone =>
    have hnew : n ∉ c.numbers := fun hmem => hnone (mem_numbers.1 hmem)
    simpa [numbers] using List.nodup_append.2 ⟨h, List.nodup_singleton n, by
      rintro a ha b hb rfl
      rw [List.mem_singleton] at hb
      exact hnew (hb ▸ ha)⟩

theorem numbers_drop_nodup (h : c.numbers.Nodup) (n : Nat) : (c.drop n).numbers.Nodup :=
  h.sublist (List.filter_sublist.map _)

/-- A number stands for one task. -/
theorem eq_of_mem_tasks (hnodup : c.numbers.Nodup) (h : c.task? n = some t) {u : Task}
    (hu : (n, u) ∈ c.tasks) : u = t := by
  unfold task? at h
  unfold numbers at hnodup
  revert h hnodup hu
  generalize c.tasks = tasks
  induction tasks with
  | nil => simp
  | cons entry tasks ih =>
    obtain ⟨k, old⟩ := entry
    intro hnodup h hu
    rw [List.map_cons, List.nodup_cons] at hnodup
    by_cases hk : n = k
    · subst hk
      have hold : old = t := by simpa using h
      rcases List.mem_cons.1 hu with heq | hmem
      · rw [← hold]
        exact (Prod.mk.inj heq).2
      · exact absurd (List.mem_map.2 ⟨_, hmem, rfl⟩) hnodup.1
    · have hn : (n == k) = false := by simpa using hk
      rw [List.lookup_cons, hn] at h
      refine ih hnodup.2 h ((List.mem_cons.1 hu).resolve_left fun heq => ?_)
      exact hk (Prod.mk.inj heq).1

/-- Keeping a task as it is changes nothing. -/
theorem put_same (hnodup : c.numbers.Nodup) (h : c.task? n = some t) : c.put n t = c := by
  rw [put, if_pos (by rw [h]; rfl)]
  refine congrArg (fun tasks => { c with tasks := tasks })
    ((List.map_congr_left fun entry hentry => ?_).trans (List.map_id _))
  obtain ⟨k, old⟩ := entry
  by_cases hk : k = n
  · subst hk
    simp [eq_of_mem_tasks hnodup h hentry]
  · simp [hk]

/-- Nothing changes when an execution did not move. -/
theorem settleExecution_idle (hnodup : c.numbers.Nodup) {terms : Terms} {purpose : Purpose}
    {x : Execution} (h : c.task? n = some (.executing terms purpose x))
    (hopen : x.result? = none) :
    c.settleExecution n terms purpose ⟨x, c.session, []⟩ = (c, []) := by
  rw [settleExecution_open (show (⟨x, c.session, []⟩ : Moved Session).execution.result? = none from
    hopen)]
  exact congrArg (·, []) (put_same hnodup h)

/-- What is handed over is the task's own, and the request of an attempt is what its execution
issued. -/
def Handed (n : Nat) (notices : List Notice) : Prop :=
  ∀ t connection request, .issued t connection request ∈ notices → t.task = n ∧
    ∀ m stage, t.request = .attempt m stage →
      .issued m stage connection request ∈ notices.filterMap Notice.act?

/-- What a step of one task does to the tasks. What has to hold of the task if it goes on, and of
what it did, is `own`. -/
structure Turned (own : Task → List Act → Prop) (n : Nat) (c : Client)
    (moved : Client × List Notice) : Prop where
  nextTask : moved.1.nextTask = c.nextTask
  nodup : c.numbers.Nodup → moved.1.numbers.Nodup
  others : ∀ m ≠ n, moved.1.task? m = c.task? m
  finished : ∀ m o, .finished m o ∈ moved.2 → m = n ∧ moved.1.task? n = none
  handed : Handed n moved.2
  own : ∀ t, moved.1.task? n = some t → own t (moved.2.filterMap Notice.act?)

section
variable {own : Task → List Act → Prop} {notices : List Notice}

/-- A task that is over. -/
theorem Turned.ended (hnext : d.nextTask = c.nextTask) (htasks : d.tasks = (c.drop n).tasks)
    (hfinished : ∀ m o, .finished m o ∈ notices → m = n) (hhanded : Handed n notices) :
    Turned own n c (d, notices) where
  nextTask := hnext
  nodup h := by
    rw [numbers, htasks]
    exact numbers_drop_nodup h n
  others m hm := (task?_congr htasks m).trans (task?_drop_ne hm)
  finished m o h := ⟨hfinished m o h, (task?_congr htasks n).trans (task?_drop c n)⟩
  handed := hhanded
  own t h := by
    rw [show d.task? n = none from (task?_congr htasks n).trans (task?_drop c n)] at h
    cases h

/-- A task that goes on. -/
theorem Turned.kept (hnext : d.nextTask = c.nextTask) (htasks : d.tasks = c.tasks)
    (hunfinished : ∀ m o, .finished m o ∉ notices) (hhanded : Handed n notices)
    (hown : own t (notices.filterMap Notice.act?)) : Turned own n c (d.put n t, notices) where
  nextTask := (put_nextTask d n t).trans hnext
  nodup h := numbers_put_nodup (by rwa [numbers, htasks]) n t
  others m hm := (task?_put_ne hm).trans (task?_congr htasks m)
  finished m o h := absurd h (hunfinished m o)
  handed := hhanded
  own u h := by
    rw [task?_put] at h
    cases h
    exact hown

/-- A step that leaves the tasks as they are. -/
theorem Turned.idle (hnext : d.nextTask = c.nextTask) (htasks : d.tasks = c.tasks)
    (hfinished : ∀ m o, .finished m o ∈ notices → m = n ∧ c.task? n = none)
    (hhanded : Handed n notices)
    (hown : ∀ t, c.task? n = some t → own t (notices.filterMap Notice.act?)) :
    Turned own n c (d, notices) where
  nextTask := hnext
  nodup h := by rwa [numbers, htasks]
  others m _ := task?_congr htasks m
  finished m o h := (task?_congr htasks n) ▸ hfinished m o h
  handed := hhanded
  own t h := hown t ((task?_congr htasks n).symm.trans h)

/-- An operation that ends at once, or is not there. -/
theorem Turned.none (hnext : d.nextTask = c.nextTask) (htasks : d.tasks = c.tasks)
    (hn : c.task? n = Option.none) (hfinished : ∀ m o, .finished m o ∈ notices → m = n)
    (hhanded : Handed n notices) : Turned own n c (d, notices) :=
  .idle hnext htasks (fun m o h => ⟨hfinished m o h, hn⟩) hhanded (by simp [hn])

theorem finished_notMem_issued (terms : Terms) (acts : List Act) (m : Nat) (o : Outcome) :
    .finished m o ∉ acts.flatMap (issued n terms) := by
  simp only [List.mem_flatMap, not_exists, not_and]
  intro a _ h
  cases a <;> simp [issued] at h

theorem handed_issued (terms : Terms) (acts : List Act) :
    Handed n (acts.flatMap (issued n terms)) := by
  intro t connection request h
  obtain ⟨a, ha, h⟩ := List.mem_flatMap.1 h
  rw [flatMap_issued_act?]
  cases a <;> simp only [issued, List.mem_cons, List.not_mem_nil, reduceCtorEq, or_false, false_or,
    Notice.issued.injEq] at h
  obtain ⟨rfl, rfl, rfl⟩ := h
  refine ⟨rfl, fun m stage hm => ?_⟩
  cases hm
  exact ha

/-- An inquiry is no request of an attempt. -/
theorem handed_inquiry (part : Part) (connection : Connection) (request : Request) :
    Handed n [.issued ⟨n, .inquiry part⟩ connection request] := by
  intro t _ _ h
  obtain ⟨rfl, rfl, rfl⟩ := Notice.issued.inj (List.mem_singleton.1 h)
  exact ⟨rfl, fun m stage hm => by cases hm⟩

theorem handed_put? (part : Part) (i : Inquiry) : Handed n (put? n part i) := by
  simpa [Handed, put?] using handed_inquiry part i.connection i.request

theorem settleExecution_turned {terms : Terms} {purpose : Purpose} {m : Moved Session}
    (hown : m.execution.result? = none → own (.executing terms purpose m.execution) m.acts) :
    Turned own n c (c.settleExecution n terms purpose m) := by
  cases hr : m.execution.result? with
  | none =>
    rw [settleExecution_open hr]
    exact .kept rfl rfl (finished_notMem_issued terms m.acts) (handed_issued terms m.acts)
      (by simpa using hown hr)
  | some r =>
    rw [settleExecution_over hr]
    refine .ended rfl rfl (fun k o hk => ?_) fun t connection request h => ?_
    · simp only [List.mem_append, List.mem_singleton] at hk
      obtain (hk | hk) | hk := hk
      · exact absurd hk (finished_notMem_issued terms m.acts k o)
      · simp at hk
      · exact (Notice.finished.inj hk).1
    · obtain ⟨htask, hact⟩ := handed_issued terms m.acts t connection request (by simpa using h)
      exact ⟨htask, fun k stage hk => by simpa using hact k stage hk⟩

theorem finishListing_turned (provide : Option (Address → Pool))
    (r : Except MetadataError Reading) : Turned own n c (c.finishListing n provide r) := by
  unfold finishListing
  split <;> exact .ended rfl rfl (by simp) (by simp [Handed])

theorem settleListing_turned {l : Listing} {provide : Option (Address → Pool)}
    (hown : own (.listing l provide) []) : Turned own n c (c.settleListing n l provide) := by
  unfold settleListing
  split
  · exact .kept rfl rfl (by simp) (by simp [Handed]) hown
  · exact finishListing_turned provide _

theorem settleLookup_turned {l : Lookup} (hown : own (.looking l) []) :
    Turned own n c (c.settleLookup n l) := by
  unfold settleLookup
  split
  · exact .kept rfl rfl (by simp) (by simp [Handed]) hown
  · exact .ended rfl rfl (by simp) (by simp [Handed])
  · exact .ended rfl rfl (by simp) (by simp [Handed])

theorem settleInquiry_turned {i : Inquiry} (hown : own (.inquiring i) []) :
    Turned own n c (c.settleInquiry n i) := by
  unfold settleInquiry
  split
  · exact .kept rfl rfl (by simp) (by simp [Handed]) hown
  · exact .ended rfl rfl (by simp) (by simp [Handed])

theorem startLookup_turned {connection : Connection} {l : Lookup} (hown : own (.looking l) []) :
    Turned own n c (c.startLookup n connection l) :=
  .kept rfl rfl (by simp [put?]) (handed_put? _ _) hown

/-- Beginning an operation under a number that is not taken is a step of that number. -/
theorem begin_turned (hn : c.task? n = none) (now : Nat) (o : Operation)
    (hquiet : ∀ t, t.isExecuting = false → own t [])
    (hown : ∀ terms purpose w,
      let m := Execution.start terms.environment terms.settings terms.speculation now w
      m.execution.result? = none → own (.executing terms purpose m.execution) m.acts) :
    Turned own n c (c.begin now n o) := by
  cases o with
  | query | prepare | execute => exact settleExecution_turned (hown _ _ _)
  | useKeyspace name caseSensitive =>
    simp only [begin]
    split
    · exact .none rfl rfl hn (by simp) (by simp [Handed])
    · exact settleExecution_turned (hown _ _ _)
  | refreshCluster provide | listNodes =>
    simp only [begin, startListing]
    split
    · exact finishListing_turned _ _
    · exact .kept rfl rfl (by simp [put?]) (handed_put? _ _) (hquiet _ rfl)
  | refreshNode address broadcast =>
    simp only [begin]
    split
    · exact .none rfl rfl hn (by simp) (by simp [Handed])
    · split
      · exact .none rfl rfl hn (by simp) (by simp [Handed])
      · exact startLookup_turned (hquiet _ rfl)
  | findNode address =>
    simp only [begin]
    split
    · exact .none rfl rfl hn (by simp) (by simp [Handed])
    · exact startLookup_turned (hquiet _ rfl)
  | openControl => exact .none rfl rfl hn (by simp) (by simp [Handed])
  | inquire connection text values limit pageSize =>
    exact .kept rfl rfl (by simp) (handed_inquiry _ _ _) (hquiet _ rfl)

/-- Every step of a client is one of its task. -/
theorem step_turned (now : Nat) (h : Happening) (hidle : ∀ t, c.task? n = some t → own t [])
    (hquiet : ∀ t, c.task? n = some t → t.isExecuting = false →
      ∀ u, u.isExecuting = false → own u [])
    (hown : ∀ terms purpose x e, c.task? n = some (.executing terms purpose x) →
      let m := x.step terms.environment terms.settings now c.session e
      m.execution.result? = none → own (.executing terms purpose m.execution) m.acts) :
    Turned own n c (c.step now n h) := by
  unfold step
  split
  · next hn => exact .none rfl rfl hn (by simp) (by simp [Handed])
  next t ht =>
  cases t with
  | executing terms purpose x =>
    simp only [advance]
    split
    · exact .idle rfl rfl (by simp) (by simp [Handed]) hidle
    · exact settleExecution_turned (hown terms purpose x _ ht)
  | listing l provide =>
    simp only [advance]
    split
    · refine .kept rfl rfl (fun m o hm => ?_) ?_ ?_
      · simp [Listing.askPeers, put?] at hm
      · simpa [Listing.askPeers] using handed_put? _ _
      · exact hquiet _ ht rfl _ rfl
    · exact settleListing_turned (hquiet _ ht rfl _ rfl)
  | looking l => exact settleLookup_turned (hquiet _ ht rfl _ rfl)
  | inquiring i => exact settleInquiry_turned (hquiet _ ht rfl _ rfl)

end

theorem Turned.of_step (c : Client) (now n : Nat) (h : Happening) :
    Turned (fun _ _ => True) n c (c.step now n h) :=
  step_turned now h (fun _ _ => trivial) (fun _ _ _ _ _ => trivial) fun _ _ _ _ _ _ => trivial

theorem Turned.of_start (hn : c.task? c.nextTask = Option.none) (now : Nat) (o : Operation) :
    Turned (fun _ _ => True) c.nextTask { c with nextTask := c.nextTask + 1 } (c.start now o) :=
  begin_turned (c := { c with nextTask := c.nextTask + 1 }) hn now o (fun _ _ => trivial)
    fun _ _ _ _ => trivial

end Client

namespace Rehearsal

/-- What one step keeps in step with some steps of another run, every run does. -/
theorem exists_iterate {α β : Type} {S : α → β → Prop} {step : α → α} {step' : β → β}
    (hstep : ∀ a b, S a b → ∃ m, S (step a) (step'^[m] b)) {a : α} {b : β} (h : S a b) (j : Nat) :
    ∃ k, S (step^[j] a) (step'^[k] b) := by
  induction j with
  | zero => exact ⟨0, h⟩
  | succ j ih =>
    obtain ⟨k, hk⟩ := ih
    obtain ⟨m, hm⟩ := hstep _ _ hk
    refine ⟨m + k, ?_⟩
    rwa [Function.iterate_succ_apply', Function.iterate_add_apply]

/-! ## The earliest cause -/

section
variable {α β : Type} {key : α → Nat × Nat} {a : α} {l others : List α}

theorem precedes_eq_false {a b : Nat × Nat} :
    precedes a b = false ↔ b.1 < a.1 ∨ b.1 = a.1 ∧ b.2 ≤ a.2 := by
  simp only [precedes, Bool.or_eq_false_iff, decide_eq_false_iff_not, Bool.and_eq_false_iff]
  omega

theorem precedes_asymm {a b : Nat × Nat} (h : precedes a b = true) : precedes b a = false := by
  simp only [precedes, Bool.or_eq_true, decide_eq_true_eq, Bool.and_eq_true] at h
  rw [precedes_eq_false]
  omega

theorem not_precedes_trans {a b c : Nat × Nat} (hab : precedes b a = false)
    (hbc : precedes c b = false) : precedes c a = false := by
  rw [precedes_eq_false] at hab hbc ⊢
  omega

theorem pick_eq_none : pick key l = none ↔ l = [] := by
  cases l with
  | nil => simp [pick]
  | cons a l =>
    simp only [pick, reduceCtorEq, iff_false]
    split
    · simp
    · split <;> simp

/-- No element comes before the one that is picked. -/
theorem not_precedes_of_pick :
    ∀ {l others : List α} {a : α}, pick key l = some (a, others) →
      ∀ b ∈ l, precedes (key b) (key a) = false
  | [], _, _, h => by cases h
  | b :: l, others, a, h => by
    simp only [pick] at h
    split at h
    · next hnone =>
      obtain rfl := pick_eq_none.1 hnone
      cases h
      simp [precedes]
    · next c rest hsome =>
      have ih := not_precedes_of_pick hsome
      split at h
      · next hbefore =>
        cases h
        intro d hd
        rcases List.mem_cons.1 hd with rfl | hd
        · exact precedes_asymm hbefore
        · exact ih d hd
      · next hbefore =>
        cases h
        intro d hd
        rcases List.mem_cons.1 hd with rfl | hd
        · simp [precedes]
        · exact not_precedes_trans (by simpa using hbefore) (ih d hd)

/-- What is picked and the others are all there is. -/
theorem pick_perm :
    ∀ {l others : List α} {a : α}, pick key l = some (a, others) → (a :: others).Perm l
  | [], _, _, h => by cases h
  | b :: l, others, a, h => by
    simp only [pick] at h
    split at h
    · next hnone =>
      obtain rfl := pick_eq_none.1 hnone
      cases h
      exact .refl _
    · next c rest hsome =>
      split at h
      · cases h
        exact (List.Perm.swap b a rest).trans ((pick_perm hsome).cons b)
      · cases h
        exact .refl _

theorem mem_of_pick (h : pick key l = some (a, others)) : a ∈ l :=
  (pick_perm h).mem_iff.1 List.mem_cons_self

/-- What is picked among some of the elements, if it is one of them, is what is picked among
all. -/
theorem pick_filter (p : α → Bool) :
    ∀ {l others : List α} {a : α}, pick key l = some (a, others) → p a = true →
      pick key (l.filter p) = some (a, others.filter p)
  | [], _, _, h, _ => by cases h
  | b :: l, others, a, h, ha => by
    simp only [pick] at h
    split at h
    · next hnone =>
      obtain rfl := pick_eq_none.1 hnone
      cases h
      simp [ha, pick]
    · next c rest hsome =>
      split at h
      · next hbefore =>
        cases h
        have ih := pick_filter p hsome ha
        by_cases hb : p b = true
        · rw [List.filter_cons_of_pos hb, List.filter_cons_of_pos hb, pick, ih]
          simp [hbefore]
        · rw [List.filter_cons_of_neg hb, List.filter_cons_of_neg hb, ih]
      · next hbefore =>
        cases h
        rw [List.filter_cons_of_pos ha, pick]
        cases hpick : pick key (l.filter p) with
        | none =>
          rw [pick_eq_none.1 hpick]
        | some d =>
          obtain ⟨d, rest'⟩ := d
          -- What is picked among fewer elements comes no earlier.
          have hd := not_precedes_of_pick hsome d (List.mem_of_mem_filter (mem_of_pick hpick))
          simp [not_precedes_trans (by simpa using hbefore) hd]

/-- Picking an element that is left out leaves the others as they are. -/
theorem filter_of_pick (p : α → Bool) :
    ∀ {l others : List α} {a : α}, pick key l = some (a, others) → p a = false →
      others.filter p = l.filter p
  | [], _, _, h, _ => by cases h
  | b :: l, others, a, h, ha => by
    simp only [pick] at h
    split at h
    · next hnone =>
      obtain rfl := pick_eq_none.1 hnone
      cases h
      simp [ha]
    · next c rest hsome =>
      split at h
      · cases h
        rw [List.filter_cons, List.filter_cons, filter_of_pick p hsome ha]
      · cases h
        simp [ha]

/-- Names that keep the keys keep what is picked. -/
theorem pick_map {key' : β → Nat × Nat} (φ : α → β) (hkey : ∀ a, key' (φ a) = key a) :
    ∀ l : List α,
      pick key' (l.map φ) = (pick key l).map fun (a, others) => (φ a, others.map φ)
  | [] => rfl
  | a :: l => by
    rw [List.map_cons, pick, pick, pick_map φ hkey l]
    cases pick key l with
    | none => rfl
    | some b =>
      simp only [Option.map_some, hkey]
      split <;> rfl

end

namespace Timeline

/-! ## Runs -/

/-- What a task did so far. -/
def actsOf (n : Nat) (record : List Sight) : List Act :=
  (record.filter (·.task = n)).filterMap (·.notice.act?)

/-- What is known of a task under way, by what was recorded of it: an execution came about by that,
and has no result yet. -/
def Lawful (past : List Act) : Task → Prop
  | .executing terms _ e => e.result? = none ∧
      Execution.Reaches terms.environment terms.settings terms.speculation e past
  | .listing .. | .looking _ | .inquiring _ => past = []

/-- How a client and the record of it agree. -/
structure Sound (x : Timeline) : Prop where
  nodup : x.client.numbers.Nodup
  lawful : ∀ n t, x.client.task? n = some t → Lawful (actsOf n x.record) t
  /-- Nothing is done under a number that is not given yet. -/
  numbered : ∀ n, x.client.nextTask ≤ n → x.client.task? n = none ∧ ∀ s ∈ x.record, s.task ≠ n
  gone : ∀ s ∈ x.record, ∀ n o, s.notice = .finished n o → n = s.task ∧ x.client.task? n = none
  /-- What was handed over is what the task's execution issued. -/
  handed : ∀ s ∈ x.record, ∀ t connection request, s.notice = .issued t connection request →
    t.task = s.task ∧ ∀ m stage, t.request = .attempt m stage →
      .issued m stage connection request ∈ actsOf s.task x.record

variable {replies : Replies} {rank : Trigger → Nat} {x y : Timeline} {time n : Nat}
  {moved : Client × List Notice}

@[simp] theorem actsOf_append (record more : List Sight) :
    actsOf n (record ++ more) = actsOf n record ++ actsOf n more := by
  simp [actsOf]

theorem actsOf_notices (notices : List Notice) :
    actsOf n (notices.map (⟨time, n, ·⟩)) = notices.filterMap Notice.act? := by
  simp [actsOf, List.filter_map, Function.comp_def, List.filterMap_map, -Notice.act?]

theorem actsOf_notices_ne {m : Nat} (h : m ≠ n) (notices : List Notice) :
    actsOf m (notices.map (⟨time, n, ·⟩)) = [] := by
  simp [actsOf, List.filter_map, Function.comp_def, Ne.symm h]

theorem actsOf_eq_nil {record : List Sight} (h : ∀ s ∈ record, s.task ≠ n) :
    actsOf n record = [] := by
  rw [actsOf, List.filter_eq_nil_iff.2 (by simpa using h)]
  rfl

/-- Nothing changes by a step that does nothing. -/
theorem act_idle (x : Timeline) (time n : Nat) : x.act replies time n (x.client, []) = x := by
  simp [act]

theorem Sound.congr (hx : x.Sound) (htasks : y.client.tasks = x.client.tasks)
    (hnext : y.client.nextTask = x.client.nextTask) (hrecord : y.record = x.record) :
    y.Sound where
  nodup := by
    rw [Client.numbers, htasks]
    exact hx.nodup
  lawful m t h := by
    rw [hrecord]
    exact hx.lawful m t ((Client.task?_congr htasks m).symm.trans h)
  numbered m hm := by
    rw [Client.task?_congr htasks, hrecord]
    exact hx.numbered m (hnext ▸ hm)
  gone s hs m o h := by
    rw [Client.task?_congr htasks]
    exact hx.gone s (hrecord ▸ hs) m o h
  handed := by
    rw [hrecord]
    exact hx.handed

/-- A timeline stays sound when its client takes a step of one task. -/
theorem Sound.act {c : Client} (hx : x.Sound) (htasks : c.tasks = x.client.tasks)
    (hnext : x.client.nextTask ≤ c.nextTask) (hn : n < c.nextTask)
    (hturned : Client.Turned (fun t acts => Lawful (actsOf n x.record ++ acts) t) n c moved)
    (hgone : ∀ s ∈ x.record, ∀ o, s.notice = .finished n o → moved.1.task? n = none) :
    (x.act replies time n moved).Sound where
  nodup := hturned.nodup (by rw [Client.numbers, htasks]; exact hx.nodup)
  lawful m t h := by
    by_cases hm : m = n
    · subst hm
      simpa [Timeline.act, actsOf_notices] using hturned.own t h
    · have hsame := (hturned.others m hm).trans (Client.task?_congr htasks m)
      simpa [Timeline.act, actsOf_notices_ne hm] using hx.lawful m t (hsame.symm.trans h)
  numbered m hm := by
    have hm' : c.nextTask ≤ m := hturned.nextTask ▸ hm
    have hne : m ≠ n := by omega
    obtain ⟨hnone, hrecord⟩ := hx.numbered m (Nat.le_trans hnext hm')
    refine ⟨(hturned.others m hne).trans ((Client.task?_congr htasks m).trans hnone), ?_⟩
    intro s hs
    rcases List.mem_append.1 hs with hs | hs
    · exact hrecord s hs
    · obtain ⟨notice, -, rfl⟩ := List.mem_map.1 hs
      exact Ne.symm hne
  gone s hs m o h := by
    rcases List.mem_append.1 hs with hs | hs
    · obtain ⟨rfl, hnone⟩ := hx.gone s hs m o h
      refine ⟨rfl, ?_⟩
      by_cases hm : s.task = n
      · rw [hm] at h ⊢
        exact hgone s hs o h
      · exact (hturned.others _ hm).trans ((Client.task?_congr htasks _).trans hnone)
    · obtain ⟨notice, hnotice, rfl⟩ := List.mem_map.1 hs
      obtain rfl : notice = .finished m o := h
      obtain ⟨rfl, hnone⟩ := hturned.finished m o hnotice
      exact ⟨rfl, hnone⟩
  handed s hs t connection request h := by
    rcases List.mem_append.1 hs with hs | hs
    · obtain ⟨htask, hact⟩ := hx.handed s hs t connection request h
      exact ⟨htask, fun m stage hm => by simp [Timeline.act, hact m stage hm]⟩
    · obtain ⟨notice, hnotice, rfl⟩ := List.mem_map.1 hs
      obtain rfl : notice = .issued t connection request := h
      obtain ⟨htask, hact⟩ := hturned.handed t connection request hnotice
      refine ⟨htask, fun m stage hm => ?_⟩
      simp only [Timeline.act, actsOf_append, actsOf_notices, List.mem_append]
      exact .inr (hact m stage hm)

theorem Sound.happen (hx : x.Sound) (d : Due) : (x.happen replies d).Sound := by
  cases ht : x.client.task? d.task with
  | none =>
    have hstep : x.client.step d.time d.task d.happening = (x.client, []) := by
      simp [Client.step, ht]
    rw [Timeline.happen, hstep, act_idle]
    exact hx
  | some t =>
    have hlt : d.task < x.client.nextTask := by
      by_contra hle
      rw [(hx.numbered d.task (by omega)).1] at ht
      cases ht
    refine hx.act rfl (Nat.le_refl _) hlt (Client.step_turned _ _ ?_ ?_ ?_) ?_
    · intro t h
      simpa using hx.lawful d.task t h
    · intro t h ht u hu
      have hnone : actsOf d.task x.record = [] := by
        cases t with
        | executing => cases ht
        | listing | looking | inquiring => exact hx.lawful d.task _ h
      cases u with
      | executing => cases hu
      | listing | looking | inquiring => simp [Lawful, hnone]
    · intro terms purpose e event h _ hopen
      exact ⟨hopen, (hx.lawful d.task _ h).2.step d.time x.client.session event⟩
    · intro s hs o h
      rw [(hx.gone s hs d.task o h).2] at ht
      cases ht

theorem Sound.meet (hx : x.Sound) (time : Nat) (i : Incident) :
    (x.meet replies time i).Sound := by
  cases i with
  | changes session control => exact hx.congr rfl rfl rfl
  | begins o =>
    obtain ⟨hnone, hrecord⟩ := hx.numbered x.client.nextTask (Nat.le_refl _)
    have hacts := actsOf_eq_nil hrecord
    have hbegun : (x.act replies time x.client.nextTask (x.client.start time o)).Sound := by
      refine hx.act (c := { x.client with nextTask := x.client.nextTask + 1 }) rfl
        (Nat.le_succ _) (Nat.lt_succ_self _)
        (Client.begin_turned (c := { x.client with nextTask := x.client.nextTask + 1 })
          hnone time o ?_ ?_) ?_
      · intro t ht
        cases t with
        | executing => cases ht
        | listing | looking | inquiring => simp [Lawful, hacts]
      · intro terms purpose w _ hopen
        rw [hacts]
        exact ⟨hopen, .start time w⟩
      · intro s hs o h
        exact absurd (hx.gone s hs _ o h).1.symm (hrecord s hs)
    exact hbegun.congr rfl rfl rfl

theorem Sound.perform (hx : x.Sound) (c : Cause) : (x.perform replies c).Sound := by
  cases c with
  | letter l =>
    obtain ⟨time, t, freight⟩ := l
    cases freight with
    | write => exact hx.congr rfl rfl rfl
    | reply delivery => exact hx.happen _
  | alarm time task alarm => exact hx.happen _
  | incident time incident =>
    have htail : ({ x with incidents := x.incidents.tail } : Timeline).Sound := hx.congr rfl rfl rfl
    exact htail.meet time incident

theorem causes_letters (x : Timeline) : x.causes.filterMap Cause.letter? = x.mail := by
  cases hi : x.incidents.head? <;>
    simp [causes, List.filterMap_append, List.filterMap_map, Function.comp_def, Cause.letter?, hi]

/-- What is left when something is drawn is the same client with the same record. -/
theorem draw_frame {deed : Deed} (h : x.draw rank = some (deed, y)) :
    y.client = x.client ∧ y.record = x.record ∧ y.incidents = x.incidents := by
  unfold draw at h
  split at h
  · cases h
    exact ⟨rfl, rfl, rfl⟩
  · obtain ⟨⟨c, others⟩, -, heq⟩ := Option.map_eq_some_iff.1 h
    cases heq
    exact ⟨rfl, rfl, rfl⟩

/-- **Every timeline stays sound.** -/
theorem Sound.next (hx : x.Sound) : (x.next replies rank).Sound := by
  unfold Timeline.next
  split
  · exact hx
  · next deed rest hdraw =>
    obtain ⟨hclient, hrecord, -⟩ := draw_frame hdraw
    have hrest : rest.Sound := hx.congr (by rw [hclient]) (by rw [hclient]) hrecord
    cases deed with
    | due d => exact hrest.happen d
    | cause c => exact hrest.perform c

theorem Sound.start {client : Client} (hclient : client.tasks = [])
    (incidents : List (Nat × Incident)) : (start client incidents).Sound where
  nodup := by simp [Timeline.start, Client.numbers, hclient]
  lawful m t h := by
    rw [Timeline.start, Client.task?, hclient] at h
    cases h
  numbered m _ := ⟨by simp [Timeline.start, Client.task?, hclient], by simp [Timeline.start]⟩
  gone := by simp [Timeline.start]
  handed := by simp [Timeline.start]

end Timeline

end Rehearsal

end ClusterClient
