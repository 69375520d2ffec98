import ClusterClient.Proofs.Plan

/-!
# Plans that are drawn from

A plan is asked for its next node again and again, and whatever it asks in turn may have changed in
between. `Plan.drawn` is what each of these calls gives, in the world there is at that call, which
may be any. The plan is lazy: it asks for one node at the first call (`Plan.first`), and for the
candidates once they are needed (`Plan.candidatesIn`). `Plan.hands_out_lazily` says that its nodes
are nevertheless those of the list made of these two answers, and which questions each call puts.
-/

namespace ClusterClient

/-- The world after a question was put to a load balancer. -/
def Chooser.after {ω : Type} (c : Chooser ω) (w : ω) : Consulted → ω
  | .pick _ => (c.pick w).2
  | .fallback => (c.fallback w).2
  | .gaveNoNode => w

namespace Plan

variable {ω : Type} {c : Chooser ω} {ws : Nat → ω} {nodes : List Node} {skipped : Option Address}

/-- What the call of a number gives, where each call has its own world. -/
def drawn (c : Chooser ω) : Plan → (Nat → ω) → Nat → Draw ω
  | p, ws, 0 => p.next c (ws 0)
  | p, ws, k + 1 => drawn c (p.next c (ws 0)).plan (fun i => ws (i + 1)) k

/-- The candidates a plan has after it returned one node. -/
def unskipped (skipped : Option Address) (nodes : List Node) : List Node :=
  nodes.filter fun n => skipped ≠ some n.address

/-- The first node of a fresh plan, as the load balancer gives it at the first call. -/
def first (c : Chooser ω) (ws : Nat → ω) : Option Node :=
  (c.pick (ws 0)).1

/-- The world in which a fresh plan asks for the candidates: that of its second call, or of the
first call already if there is no first node. -/
def turning (c : Chooser ω) (ws : Nat → ω) : ω :=
  if (first c ws).isSome then ws 1 else (c.pick (ws 0)).2

/-- The candidates of a fresh plan, as the load balancer gives them when it is asked. -/
def candidatesIn (c : Chooser ω) (ws : Nat → ω) : List Node :=
  (c.fallback (turning c ws)).1

/-- The questions of the call of a number, by the answers of the load balancer. The first call asks
for a first node. If there is none it asks for the candidates as well, and complains if there is
none among them either; otherwise the second call asks for the candidates. -/
def questionsOf (first : Option Node) (candidates : List Node) : Nat → List Consulted
  | 0 => .pick first :: if first.isSome then [] else
      .fallback :: if planned first candidates = [] then [.gaveNoNode] else []
  | 1 => if first.isSome then [.fallback] else []
  | _ => []

/-- Taking a candidate gives the first one that is left, and leaves those behind it. -/
theorem takeUnskipped_eq (skipped : Option Address) (nodes : List Node) :
    (takeUnskipped skipped nodes).1 = (unskipped skipped nodes).head? ∧
      unskipped skipped (takeUnskipped skipped nodes).2 = (unskipped skipped nodes).tail := by
  have hsplit := takeUnskipped_filter skipped nodes
  have hnone := @takeUnskipped_eq_none skipped nodes
  unfold unskipped
  rw [hsplit]
  cases h : (takeUnskipped skipped nodes).1 with
  | none => simp [hnone h]
  | some n => simp

/-- What is left of the candidates is handed out in order, and nothing is asked for it. -/
theorem drawn_fallback (c : Chooser ω) (skipped : Option Address) (nodes : List Node)
    (ws : Nat → ω) (k : Nat) :
    (drawn c (.fallback skipped nodes) ws k).node = (unskipped skipped nodes)[k]? ∧
      (drawn c (.fallback skipped nodes) ws k).asked = [] ∧
      (drawn c (.fallback skipped nodes) ws k).world = ws k := by
  obtain ⟨hnode, hbehind⟩ := takeUnskipped_eq skipped nodes
  induction k generalizing nodes ws with
  | zero => simp [drawn, next, hnode, List.head?_eq_getElem?]
  | succ k ih =>
    have hrest := ih (takeUnskipped skipped nodes).2 (fun i => ws (i + 1))
      (takeUnskipped_eq _ _).1 (takeUnskipped_eq _ _).2
    rw [hbehind, List.getElem?_tail] at hrest
    exact hrest

/-- The call that asks for the candidates gives the first one. -/
theorem startFallback_spec (c : Chooser ω) (skipped : Option Address) (w : ω) :
    (startFallback c skipped w).node = (unskipped skipped (c.fallback w).1)[0]? ∧
      (startFallback c skipped w).asked = [.fallback] ∧
      (startFallback c skipped w).world = (c.fallback w).2 := by
  obtain ⟨hnode, -⟩ := takeUnskipped_eq skipped (c.fallback w).1
  exact ⟨by simp [startFallback, hnode, List.head?_eq_getElem?], rfl, rfl⟩

/-- The calls after that one give the others. -/
theorem drawn_startFallback (c : Chooser ω) (skipped : Option Address) (w : ω) (ws : Nat → ω)
    (k : Nat) :
    (drawn c (startFallback c skipped w).plan ws k).node =
        (unskipped skipped (c.fallback w).1)[k + 1]? ∧
      (drawn c (startFallback c skipped w).plan ws k).asked = [] ∧
      (drawn c (startFallback c skipped w).plan ws k).world = ws k := by
  obtain ⟨-, hbehind⟩ := takeUnskipped_eq skipped (c.fallback w).1
  have hrest := drawn_fallback c skipped (takeUnskipped skipped (c.fallback w).1).2 ws k
  rw [hbehind, List.getElem?_tail] at hrest
  exact hrest

/-- A picked node does not come again. -/
theorem planned_some (n : Node) (nodes : List Node) :
    planned (some n) nodes = n :: unskipped (some n.address) nodes := by
  simp [planned, unskipped, eq_comm]

theorem planned_none (nodes : List Node) : planned none nodes = unskipped none nodes := by
  simp [planned, unskipped]

/-- Without a first node the first call goes on to the candidates. -/
theorem drawn_fresh_of_none {w : ω} (hpick : c.pick (ws 0) = (none, w)) (k : Nat) :
    (drawn c .fresh ws k).node = (planned none (c.fallback w).1)[k]? ∧
      (drawn c .fresh ws k).asked = questionsOf none (c.fallback w).1 k ∧
      (drawn c .fresh ws k).world = (drawn c .fresh ws k).asked.foldl c.after (ws k) := by
  rw [planned_none]
  cases k with
  | zero =>
    obtain ⟨hnode, hasked, hworld⟩ := startFallback_spec c none w
    have hempty : (startFallback c none w).node = none ↔ unskipped none (c.fallback w).1 = [] := by
      rw [hnode, List.getElem?_eq_none_iff, Nat.le_zero, List.length_eq_zero_iff]
    refine ⟨by simpa [drawn, next, hpick] using hnode, ?_, ?_⟩
    · simp [drawn, next, hpick, hasked, questionsOf, planned_none, hempty]
    · simp only [drawn, next, hpick, hasked, hworld]
      split <;> simp [Chooser.after, hpick]
  | succ k =>
    obtain ⟨hnode, hasked, hworld⟩ := drawn_startFallback c none w (fun i => ws (i + 1)) k
    simp only [drawn, next, hpick]
    exact ⟨hnode, by rw [hasked]; cases k <;> rfl, by rw [hasked, hworld]; rfl⟩

/-- With a first node the second call goes on to the candidates. -/
theorem drawn_fresh_of_some {n : Node} {w : ω} (hpick : c.pick (ws 0) = (some n, w)) (k : Nat) :
    (drawn c .fresh ws k).node = (planned (some n) (c.fallback (ws 1)).1)[k]? ∧
      (drawn c .fresh ws k).asked = questionsOf (some n) (c.fallback (ws 1)).1 k ∧
      (drawn c .fresh ws k).world = (drawn c .fresh ws k).asked.foldl c.after (ws k) := by
  rw [planned_some]
  match k with
  | 0 => simp [drawn, next, hpick, questionsOf, Chooser.after]
  | 1 =>
    obtain ⟨hnode, hasked, hworld⟩ := startFallback_spec c (some n.address) (ws 1)
    simp only [drawn, next, hpick]
    exact ⟨hnode, hasked, by rw [hasked, hworld]; rfl⟩
  | k + 2 =>
    obtain ⟨hnode, hasked, hworld⟩ :=
      drawn_startFallback c (some n.address) (ws 1) (fun i => ws (i + 2)) k
    simp only [drawn, next, hpick]
    exact ⟨hnode, hasked, by rw [hasked, hworld]; rfl⟩

/-- **A plan hands out lazily the list of a picked node and the candidates.** Whatever the world is
at each call, the call of number `k` gives the node at `k` in that list, and none behind its end.
Of the questions only those that are needed are put, when they are needed; they are all a call does
to the load balancer. -/
theorem hands_out_lazily (c : Chooser ω) (ws : Nat → ω) (k : Nat) :
    (drawn c .fresh ws k).node = (planned (first c ws) (candidatesIn c ws))[k]? ∧
      (drawn c .fresh ws k).asked = questionsOf (first c ws) (candidatesIn c ws) k ∧
      (drawn c .fresh ws k).world = (drawn c .fresh ws k).asked.foldl c.after (ws k) := by
  rcases hpick : c.pick (ws 0) with ⟨_ | n, w⟩
  · have hfirst : first c ws = none := by simp [first, hpick]
    have hcandidates : candidatesIn c ws = (c.fallback w).1 := by
      simp [candidatesIn, turning, hfirst, hpick]
    rw [hfirst, hcandidates]
    exact drawn_fresh_of_none hpick k
  · have hfirst : first c ws = some n := by simp [first, hpick]
    have hcandidates : candidatesIn c ws = (c.fallback (ws 1)).1 := by
      simp [candidatesIn, turning, hfirst]
    rw [hfirst, hcandidates]
    exact drawn_fresh_of_some hpick k

/-! ## Taking all that is left -/

theorem drain_of_none {p : Plan} {w : ω} (h : (p.next c w).node = none) :
    (p.drain c w).1 = [] := by
  rw [drain]
  split
  · rfl
  · simp_all

theorem drain_of_some {p : Plan} {w : ω} {n : Node} (h : (p.next c w).node = some n) :
    (p.drain c w).1 = n :: ((p.next c w).plan.drain c (p.next c w).world).1 := by
  rw [drain]
  split
  · simp_all
  · next m hm =>
    obtain rfl : m = n := Option.some.inj (hm.symm.trans h)
    rfl

/-- Where a call takes the next candidate, and all that are behind it are taken later, all are. -/
theorem drain_of_taken {p : Plan} {w : ω}
    (hnode : (p.next c w).node = (takeUnskipped skipped nodes).1)
    (hrest : (takeUnskipped skipped nodes).1.isSome →
      ((p.next c w).plan.drain c (p.next c w).world).1 =
        unskipped skipped (takeUnskipped skipped nodes).2) :
    (p.drain c w).1 = unskipped skipped nodes := by
  obtain ⟨hhead, hbehind⟩ := takeUnskipped_eq skipped nodes
  cases htaken : (takeUnskipped skipped nodes).1 with
  | none =>
    rw [htaken] at hnode hhead
    rw [drain_of_none hnode]
    exact (List.head?_eq_none_iff.1 hhead.symm).symm
  | some n =>
    rw [htaken] at hnode hhead
    rw [drain_of_some hnode, hrest (by rw [htaken]; rfl), hbehind]
    exact List.cons_head?_tail hhead.symm

/-- All that is left of the candidates is taken at once. -/
theorem drain_fallback (c : Chooser ω) (skipped : Option Address) (nodes : List Node) (w : ω) :
    (drain c (.fallback skipped nodes) w).1 = unskipped skipped nodes := by
  induction hlength : nodes.length using Nat.strong_induction_on generalizing nodes w with
  | h length ih =>
    refine drain_of_taken rfl fun htaken => ?_
    -- There is a next candidate, so fewer are left behind it.
    obtain ⟨n, hn⟩ := Option.isSome_iff_exists.1 htaken
    exact ih _ (hlength ▸ takeUnskipped_length (Prod.ext hn rfl)) _ _ rfl

/-- After the first node, all that is left are the candidates but that node. -/
theorem drain_picked (c : Chooser ω) (n : Node) (w : ω) :
    (drain c (.picked n) w).1 = unskipped (some n.address) (c.fallback w).1 :=
  drain_of_taken rfl fun _ => drain_fallback c _ _ _

end Plan

end ClusterClient
