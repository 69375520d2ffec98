import ClusterClient.Proofs.Trail

/-!
# The plan of an execution

The fibers of an execution take their nodes from one plan, which asks its load balancer only as it
must. `Plan.Hands` is what a plan may still hand out, and `Plan.Hands.of_next` says that the next
node is the first of it, whoever takes it. So the nodes taken so far and those still to come are
together the nodes of one plan of the load balancer, whichever fibers made it ask
(`Execution.PlanIs`, `Execution.Unfolds.planIs`).

A fiber ends for want of nodes only once there is none left (`Trail.spent`).
-/

namespace ClusterClient

/-- The node an act takes from the plan, and the fiber that does. -/
def Act.taking? : Act → Option (Nat × Node)
  | .took i node => some (i, node)
  | _ => none

/-- The nodes taken from the plan, in their order. -/
def Act.taken (acts : List Act) : List Node :=
  (acts.filterMap taking?).map (·.2)

@[simp] theorem Act.taken_nil : taken [] = [] := rfl

@[simp] theorem Act.taken_cons (a : Act) (acts : List Act) :
    taken (a :: acts) = (a.taking?.map (·.2)).toList ++ taken acts := by
  cases h : a.taking? <;> simp [taken, h]

@[simp] theorem Act.taken_append (acts more : List Act) :
    taken (acts ++ more) = taken acts ++ taken more := by
  simp [taken]

@[simp] theorem Act.taken_consulted (questions : List Consulted) :
    taken (questions.map .consulted) = [] := by
  simp [taken, taking?]

/-- The nodes a list of candidates gives are the one it gives next and those behind that one. -/
theorem takeUnskipped_filter (skipped : Option Address) (nodes : List Node) :
    nodes.filter (fun n => skipped ≠ some n.address) =
      (takeUnskipped skipped nodes).1.toList ++
        (takeUnskipped skipped nodes).2.filter fun n => skipped ≠ some n.address := by
  induction nodes with
  | nil => rfl
  | cons n ns ih =>
    by_cases hn : skipped = some n.address
    · simpa [takeUnskipped, hn] using ih
    · simp [takeUnskipped, hn]

/-- A list of candidates that gives none has come to its end. -/
theorem takeUnskipped_eq_none {skipped : Option Address} {nodes : List Node}
    (h : (takeUnskipped skipped nodes).1 = none) : (takeUnskipped skipped nodes).2 = [] := by
  induction nodes with
  | nil => rfl
  | cons n ns ih =>
    by_cases hn : skipped = some n.address
    · rw [takeUnskipped, if_pos hn] at h ⊢
      exact ih h
    · simp [takeUnskipped, hn] at h

namespace Plan

variable {ω : Type} {c : Chooser ω} {p : Plan} {rest : List Node}

/-- What a plan may still hand out, by what its load balancer may answer. -/
inductive Hands (c : Chooser ω) : Plan → List Node → Prop
  | fresh (w w' : ω) : Hands c .fresh (planned (c.pick w).1 (c.fallback w').1)
  | picked (node : Node) (w : ω) :
      Hands c (.picked node) ((c.fallback w).1.filter fun m => some node.address ≠ some m.address)
  | fallback (skipped : Option Address) (nodes : List Node) :
      Hands c (.fallback skipped nodes) (nodes.filter fun m => skipped ≠ some m.address)

/-- A plan always hands out something, be it no node. -/
theorem exists_hands [Nonempty ω] (c : Chooser ω) (p : Plan) : ∃ rest, Hands c p rest := by
  obtain ⟨w⟩ := ‹Nonempty ω›
  cases p with
  | fresh => exact ⟨_, .fresh w w⟩
  | picked node => exact ⟨_, .picked node w⟩
  | fallback skipped nodes => exact ⟨_, .fallback skipped nodes⟩

/-- What a plan hands out is the next node and what it hands out then. -/
theorem Hands.of_next {w : ω} (h : Hands c (p.next c w).plan rest) :
    Hands c p ((p.next c w).node.toList ++ rest) := by
  have started (skipped : Option Address) (w : ω)
      (h : Hands c (startFallback c skipped w).plan rest) :
      (startFallback c skipped w).node.toList ++ rest =
        (c.fallback w).1.filter fun m => skipped ≠ some m.address := by
    simp only [startFallback] at h ⊢
    cases h
    exact (takeUnskipped_filter _ _).symm
  cases p with
  | fresh =>
    rcases hp : c.pick w with ⟨_ | node, w'⟩
    · simp only [next, hp] at h ⊢
      rw [started none w' h]
      simpa [planned, hp] using Hands.fresh (c := c) w w'
    · simp only [next, hp] at h ⊢
      cases h with
      | picked node v => simpa [planned, hp, eq_comm] using Hands.fresh (c := c) w v
  | picked node =>
    simp only [next] at h ⊢
    rw [started (some node.address) w h]
    exact .picked node w
  | fallback skipped nodes =>
    simp only [next] at h ⊢
    cases h
    rw [← takeUnskipped_filter]
    exact .fallback skipped nodes

/-- Whether a plan has no further node. -/
def Spent (c : Chooser ω) (p : Plan) : Prop :=
  ∀ rest, Hands c p rest → rest = []

/-- A plan that gave no node has none. -/
theorem spent_of_next {w : ω} (h : (p.next c w).node = none) : Spent c (p.next c w).plan := by
  have started (skipped : Option Address) (w : ω) (h : (startFallback c skipped w).node = none) :
      Spent c (startFallback c skipped w).plan := by
    intro rest hrest
    simp only [startFallback] at h hrest
    cases hrest
    rw [takeUnskipped_eq_none h]
    rfl
  cases p with
  | fresh =>
    rcases hp : c.pick w with ⟨_ | node, w'⟩
    · simp only [next, hp] at h ⊢
      exact started none w' h
    · simp [next, hp] at h
  | picked node =>
    simp only [next] at h ⊢
    exact started (some node.address) w h
  | fallback skipped nodes =>
    intro rest hrest
    simp only [next] at h hrest
    cases hrest
    rw [takeUnskipped_eq_none h]
    rfl

/-- A plan without further nodes stays so. -/
theorem Spent.next (h : Spent c p) (w : ω) : Spent c (p.next c w).plan := by
  intro rest hrest
  exact (List.append_eq_nil_iff.1 (h _ hrest.of_next)).2

end Plan

/-! ## What is taken and what is left -/

namespace Pose

variable {ω : Type} {env : Environment ω} {settings : Settings} {p p' : Pose} {s s' : Shared}
  {acts : List Act}

/-- What the plan hands out before a move is what is taken in it and what it hands out then. -/
theorem Move.hands (h : Move env settings p s acts p' s') {rest : List Node}
    (hrest : s'.plan.Hands env.chooser rest) :
    s.plan.Hands env.chooser (Act.taken acts ++ rest) := by
  cases h with
  | exhausted hp hd hn =>
    subst hd
    simpa [hn] using hrest.of_next
  | takes hp hd hn =>
    subst hd
    simpa [Act.taking?, hn] using hrest.of_next
  | fails hp hf hd hne | ignores hp hf hd =>
    cases hf <;> simpa [Act.taking?] using hrest
  | _ => simpa [Act.taking?] using hrest

/-- A plan without further nodes stays so in a move. -/
theorem Move.spent (h : Move env settings p s acts p' s') (hs : s.plan.Spent env.chooser) :
    s'.plan.Spent env.chooser := by
  cases h with
  | exhausted hp hd hn | takes hp hd hn =>
    subst hd
    exact hs.next _
  | _ => exact hs

/-- Whether a fiber ended because it got no further node. -/
def Starved (p : Pose) : Prop :=
  p.stance = .done .idle ∨ ∃ e, p.stance = .done (.failed (.planExhausted e))

/-- A fiber gets no further node only if there is none. -/
theorem Move.starved (h : Move env settings p s acts p' s') (hp : p'.Starved) :
    s'.plan.Spent env.chooser := by
  cases h with
  | exhausted hs hd hn =>
    subst hd
    exact Plan.spent_of_next hn
  | fails hs hf hd hne => rename_i decision; cases decision <;> simp [Starved, obeying] at hp
  | takes | refused | begins | waits | sends | succeeds | ignores => simp [Starved, obeying] at hp

end Pose

namespace Trail

variable {ω : Type} {env : Environment ω} {settings : Settings} {acts : List Act} {s : Shared}
  {ps : List Pose} {p : Pose} {i : Nat}

/-- **The nodes taken so far and those still to come are the nodes of one plan**, whichever fibers
took them. -/
theorem hands (h : Trail env settings acts s ps) {rest : List Node}
    (hrest : s.plan.Hands env.chooser rest) :
    Plan.Hands env.chooser .fresh (Act.taken acts ++ rest) := by
  induction h generalizing rest with
  | start => exact hrest
  | opens rule _ ih => simpa [Act.taking?] using ih hrest
  | moves _ _ hmove ih =>
    rw [Act.taken_append, List.append_assoc]
    exact ih (hmove.hands hrest)

/-- A fiber has ended for want of nodes only if there is none left. -/
theorem spent (h : Trail env settings acts s ps) (hp : ps[i]? = some p) (hstarved : p.Starved) :
    s.plan.Spent env.chooser := by
  induction h generalizing i p with
  | start => simp at hp
  | opens rule _ ih =>
    rcases opens_cases hp with hp | ⟨-, rfl⟩
    · exact ih hp hstarved
    · simp [Pose.Starved, Pose.fresh, Fiber.standing] at hstarved
  | moves _ _ hmove ih =>
    rcases set_cases hp with ⟨-, rfl⟩ | ⟨-, hp⟩
    · exact hmove.starved hstarved
    · exact hmove.spent (ih hp hstarved)

end Trail

namespace Execution

variable {ω : Type} {env : Environment ω} {settings : Settings} {speculation : Option Speculation}
  {since : Nat} {x : Execution} {acts : List Act} {P : List Node}

/-- The nodes of an execution's plan: a first node and the candidates after it as the load balancer
may give them, of which some are taken and the others still to come. -/
structure PlanIs (env : Environment ω) (x : Execution) (acts : List Act) (P : List Node) :
    Prop where
  offered : ∃ w w', P = planned (env.chooser.pick w).1 (env.chooser.fallback w').1
  handed : ∃ rest, x.shared.plan.Hands env.chooser rest ∧ P = Act.taken acts ++ rest

/-- **Every execution has a plan.** -/
theorem Unfolds.planIs (h : Unfolds env settings speculation since x acts) :
    ∃ P, x.PlanIs env acts P := by
  have : Nonempty ω := by
    induction h with
    | @first w => exact ⟨w⟩
    | launch _ _ _ _ ih | turn _ _ _ _ _ _ ih => exact ih
  obtain ⟨rest, hrest⟩ := Plan.exists_hands env.chooser x.shared.plan
  obtain ⟨w, w', hP⟩ : ∃ w w', Act.taken acts ++ rest =
      planned (env.chooser.pick w).1 (env.chooser.fallback w').1 := by
    generalize hl : Act.taken acts ++ rest = l
    have := h.trail.hands hrest
    rw [hl] at this
    cases this with
    | fresh w w' => exact ⟨w, w', rfl⟩
  exact ⟨_, ⟨w, w', hP⟩, rest, hrest, rfl⟩

/-- A plan that is the same whenever the load balancer is asked is the plan of the execution. -/
theorem PlanIs.eq_of_steady (h : x.PlanIs env acts P) {Q : List Node}
    (hQ : ∀ w w', planned (env.chooser.pick w).1 (env.chooser.fallback w').1 = Q) : P = Q := by
  obtain ⟨w, w', hP⟩ := h.offered
  rw [hP, hQ]

/-- If a fiber ended for want of nodes, every node of the plan was taken. -/
theorem PlanIs.taken_eq (h : x.PlanIs env acts P)
    (hspent : x.shared.plan.Spent env.chooser) : Act.taken acts = P := by
  obtain ⟨rest, hrest, rfl⟩ := h.handed
  rw [hspent rest hrest, List.append_nil]

end Execution

end ClusterClient
