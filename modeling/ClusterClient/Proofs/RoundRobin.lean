import ClusterClient.Proofs.Draws
import Mathlib.Data.List.Rotate

/-!
# The round robin

All plans of a round robin share one counter. A plan reads it twice, at its first node and when it
needs a second one, and in between other plans may have moved it (`BalancerRule.Meanwhile`). So the
candidates may start anywhere, even at the node that was picked. Wherever they start they are a
rotation of the cluster, so the plan has every node once (`Plan.unskipped_rotation`), also where the
counter begins anew at zero. Only if it was not moved the candidates continue behind the first node,
and the whole plan is a rotation (`Plan.cons_unskipped_rotation`).
-/

namespace ClusterClient

/-- A list that goes round, as the library has it. -/
theorem rotation_mod (start : Nat) (nodes : List Node) :
    rotation (start % nodes.length) nodes = nodes.rotate start := by
  rw [rotation, List.rotate_eq_drop_append_take_mod]

namespace BalancerRule

variable {routing : Routing} {nodes : List Node}

/-- What other plans make of a load balancer between two calls of one: each call of theirs is over a
cluster of its own, and attempts on their nodes may be over. The number counts the calls that ask
for a first node. -/
inductive Meanwhile (b : BalancerRule) : Nat → BalancerRule → Prop
  | still : Meanwhile b 0 b
  | starts {picks : Nat} {b' : BalancerRule} (routing : Routing) (nodes : List Node) :
      Meanwhile b picks b' →
      Meanwhile b (picks + 1) (Plan.fresh.next (chooser routing nodes) b').world
  | goesOn {picks : Nat} {b' : BalancerRule} (p : Plan) (routing : Routing) (nodes : List Node) :
      p ≠ .fresh → Meanwhile b picks b' →
      Meanwhile b picks (p.next (chooser routing nodes) b').world
  | learns {picks : Nat} {b' : BalancerRule} (routing : Routing) (feedback : Feedback) :
      Meanwhile b picks b' → Meanwhile b picks (b'.learn routing feedback)

/-- A round robin gives a first node of a cluster that has any, and counts on. -/
theorem pick_roundRobin (hnodes : nodes ≠ []) (picks : UInt64) :
    (roundRobin picks).pick routing nodes =
      ((nodes.rotate picks.toNat)[0]?, roundRobin (picks + 1)) := by
  rw [pick, if_neg hnodes, List.getElem?_rotate (List.length_pos_iff.2 hnodes), Nat.zero_add]

/-- A new plan of a round robin starts with the node that is at the counter, and counts on. -/
theorem next_fresh (routing : Routing) (hnodes : nodes ≠ []) (picks : UInt64) :
    ∃ n ∈ nodes, (nodes.rotate picks.toNat)[0]? = some n ∧
      Plan.fresh.next (chooser routing nodes) (roundRobin picks) =
        ⟨some n, .picked n, roundRobin (picks + 1), [.pick (some n)]⟩ := by
  have hlength := List.length_pos_iff.2 hnodes
  obtain ⟨n, hn⟩ : ∃ n, (nodes.rotate picks.toNat)[0]? = some n := by simp [hlength]
  refine ⟨n, List.mem_rotate.1 (List.mem_of_getElem? hn), hn, ?_⟩
  simp [Plan.next, chooser, pick_roundRobin hnodes, hn]

/-- A new plan over no node leaves the counter alone. -/
theorem next_fresh_nil (picks : UInt64) :
    (Plan.fresh.next (chooser routing []) (roundRobin picks)).world = roundRobin picks :=
  rfl

/-- Only a new plan moves the counter. -/
theorem next_world {p : Plan} (hp : p ≠ .fresh) (picks : UInt64) :
    (p.next (chooser routing nodes) (roundRobin picks)).world = roundRobin picks := by
  cases p with
  | fresh => exact absurd rfl hp
  | picked | fallback => rfl

/-- Other plans leave a round robin one, which stands where it stood if none of them is new. -/
theorem Meanwhile.roundRobin {picks : UInt64} {others : Nat} {b : BalancerRule}
    (h : Meanwhile (roundRobin picks) others b) :
    ∃ picks', b = .roundRobin picks' ∧ (others = 0 → picks' = picks) := by
  induction h with
  | still => exact ⟨picks, rfl, fun _ => rfl⟩
  | starts routing nodes _ ih =>
    obtain ⟨picks', rfl, -⟩ := ih
    by_cases hnodes : nodes = []
    · exact ⟨picks', by rw [hnodes, next_fresh_nil], by simp⟩
    · obtain ⟨n, -, -, hnext⟩ := next_fresh routing hnodes picks'
      exact ⟨picks' + 1, by rw [hnext], by simp⟩
  | goesOn p routing nodes hp _ ih =>
    obtain ⟨picks', rfl, hstands⟩ := ih
    exact ⟨picks', next_world hp picks', hstands⟩
  | learns routing feedback _ ih =>
    obtain ⟨picks', rfl, hstands⟩ := ih
    exact ⟨picks', rfl, hstands⟩

end BalancerRule

namespace Plan

variable {routing : Routing} {nodes : List Node} {n : Node}

/-- In a cluster of different addresses the node of an address is one. -/
theorem unskipped_eq_erase (hdistinct : (nodes.map (·.address)).Nodup) (hn : n ∈ nodes) :
    unskipped (some n.address) nodes = nodes.erase n := by
  rw [(List.Nodup.of_map _ hdistinct).erase_eq_filter]
  refine List.filter_congr fun m hm => ?_
  have := List.inj_on_of_nodup_map hdistinct hn hm
  grind

/-- **Wherever the candidates start**, a node and the others among them are the cluster. -/
theorem unskipped_rotation (hdistinct : (nodes.map (·.address)).Nodup) (hn : n ∈ nodes)
    (start : Nat) : (n :: unskipped (some n.address) (nodes.rotate start)).Perm nodes := by
  have hperm := nodes.rotate_perm start
  rw [unskipped_eq_erase ((hperm.map _).nodup_iff.2 hdistinct) (hperm.mem_iff.2 hn)]
  exact (List.perm_cons_erase (hperm.mem_iff.2 hn)).symm.trans hperm

/-- If the candidates start behind a node, the others among them follow on it. -/
theorem cons_unskipped_rotation (hdistinct : (nodes.map (·.address)).Nodup) (start : Nat)
    (hn : (nodes.rotate start)[0]? = some n) :
    n :: unskipped (some n.address) (nodes.rotate (start + 1)) = nodes.rotate start := by
  obtain ⟨behind, hrotate⟩ := List.head?_eq_some_iff.1 (List.head?_eq_getElem?.trans hn)
  have hperm := nodes.rotate_perm start
  have hnodup : ((n :: behind).map (·.address)).Nodup :=
    hrotate ▸ (hperm.map _).nodup_iff.2 hdistinct
  rw [← List.rotate_rotate, hrotate, List.rotate_cons_succ, List.rotate_zero]
  rw [List.map_cons, List.nodup_cons] at hnodup
  have hbehind : ∀ m ∈ behind, some n.address ≠ some m.address := by
    intro m hm he
    exact hnodup.1 (Option.some.inj he ▸ List.mem_map_of_mem hm)
  simp only [unskipped, List.filter_append, List.filter_cons, List.filter_nil]
  rw [List.filter_eq_self.2 (by simpa using hbehind)]
  simp

open BalancerRule (chooser)

/-- What a plan under a round robin hands out: the node at the counter, and then the others in the
order that begins where the counter is at the second call. Only its first call moves the counter. -/
theorem drawn_roundRobin (routing : Routing) (hnodes : nodes ≠ []) {ws : Nat → BalancerRule}
    {picks picks' : UInt64} (hstart : ws 0 = .roundRobin picks)
    (hsecond : ws 1 = .roundRobin picks') :
    ∃ n ∈ nodes, (nodes.rotate picks.toNat)[0]? = some n ∧
      (∀ k, (drawn (chooser routing nodes) .fresh ws k).node =
        (n :: unskipped (some n.address) (nodes.rotate picks'.toNat))[k]?) ∧
      (∀ k, (drawn (chooser routing nodes) .fresh ws (k + 1)).world = ws (k + 1)) ∧
      ((drawn (chooser routing nodes) .fresh ws 0).plan.drain (chooser routing nodes) (ws 1)).1 =
        unskipped (some n.address) (nodes.rotate picks'.toNat) := by
  obtain ⟨n, hn, hhead, hnext⟩ := BalancerRule.next_fresh routing hnodes picks
  have hfallback : ((chooser routing nodes).fallback (ws 1)).1 = nodes.rotate picks'.toNat := by
    simp [hsecond, chooser, BalancerRule.fallback, rotation_mod]
  have hpick : (chooser routing nodes).pick (ws 0) = (some n, .roundRobin (picks + 1)) := by
    simp [chooser, hstart, BalancerRule.pick_roundRobin hnodes, hhead]
  have hdrawn := drawn_fresh_of_some hpick
  refine ⟨n, hn, hhead, fun k => ?_, fun k => ?_, ?_⟩
  · rw [(hdrawn k).1, hfallback, planned_some]
  · obtain ⟨-, hasked, hworld⟩ := hdrawn (k + 1)
    rw [hworld, hasked]
    cases k with
    | zero =>
      change ((chooser routing nodes).fallback (ws 1)).2 = ws 1
      rw [hsecond]
      rfl
    | succ k => rfl
  · rw [drawn, hstart, hnext, drain_picked, hfallback]

/-- Plans that start one after another start with the nodes in their order from the counter on. -/
theorem starts_roundRobin (hnodes : nodes ≠ []) {routings : Nat → Routing}
    {ws : Nat → BalancerRule} {picks : UInt64} (hstart : ws 0 = .roundRobin picks)
    (hothers : ∀ i, (fresh.next (chooser (routings i) nodes) (ws i)).world.Meanwhile 0 (ws (i + 1)))
    {i : Nat} (hroom : picks.toNat + i < UInt64.size) :
    (fresh.next (chooser (routings i) nodes) (ws i)).node =
      (nodes.rotate (picks.toNat + i))[0]? := by
  have hgives {i : Nat} {picks' : UInt64} (hi : ws i = .roundRobin picks') :
      (fresh.next (chooser (routings i) nodes) (ws i)).node = (nodes.rotate picks'.toNat)[0]? ∧
        (fresh.next (chooser (routings i) nodes) (ws i)).world = .roundRobin (picks' + 1) := by
    obtain ⟨n, -, hhead, hnext⟩ := BalancerRule.next_fresh (routings i) hnodes picks'
    rw [hi, hnext, hhead]
    exact ⟨rfl, rfl⟩
  have hcounter : ∃ picks', ws i = .roundRobin picks' ∧ picks'.toNat = picks.toNat + i := by
    induction i with
    | zero => exact ⟨picks, hstart, rfl⟩
    | succ i ih =>
      obtain ⟨picks', hi, hnat⟩ := ih (Nat.lt_of_succ_lt hroom)
      obtain ⟨picks'', hws, hstill⟩ := ((hgives hi).2 ▸ hothers i).roundRobin
      refine ⟨picks'', hws, ?_⟩
      rw [hstill rfl, UInt64.toNat_add, hnat]
      exact Nat.mod_eq_of_lt hroom
  obtain ⟨picks', hi, hnat⟩ := hcounter
  rw [← hnat]
  exact (hgives hi).1

/-- **A round robin covers every node once.** Whatever other plans do in between and wherever the
counter stands, a plan hands out an order of its cluster and then nothing. The order is the rotation
from the place of the counter if no other plan starts before the second node is asked for and the
counter does not begin anew. As many plans as there are nodes, started one after another without
that, start with all of them. -/
theorem round_robin_covers (hnodes : nodes ≠ []) (hdistinct : (nodes.map (·.address)).Nodup)
    (picks : UInt64) :
    (∀ (routing : Routing) (ws : Nat → BalancerRule) (others : Nat → Nat),
      ws 0 = .roundRobin picks →
      (∀ k, (drawn (chooser routing nodes) .fresh ws k).world.Meanwhile (others k) (ws (k + 1))) →
      ∃ order : List Node, order.Perm nodes ∧
        (∀ k, (drawn (chooser routing nodes) .fresh ws k).node = order[k]?) ∧
        ((drawn (chooser routing nodes) .fresh ws 0).plan.drain (chooser routing nodes)
          (ws 1)).1 = order.tail ∧
        (others 0 = 0 → picks.toNat + 1 < UInt64.size →
          order = rotation (picks.toNat % nodes.length) nodes)) ∧
    ∀ (routings : Nat → Routing) (ws : Nat → BalancerRule), ws 0 = .roundRobin picks →
      (∀ i, (fresh.next (chooser (routings i) nodes) (ws i)).world.Meanwhile 0 (ws (i + 1))) →
      picks.toNat + nodes.length ≤ UInt64.size →
      ((List.range nodes.length).map fun i =>
        (fresh.next (chooser (routings i) nodes) (ws i)).node).Perm (nodes.map some) := by
  refine ⟨fun routing ws others hstart hothers => ?_, fun routings ws hstart hothers hroom => ?_⟩
  · have hworld : (drawn (chooser routing nodes) .fresh ws 0).world = .roundRobin (picks + 1) := by
      obtain ⟨n, -, -, hnext⟩ := BalancerRule.next_fresh routing hnodes picks
      rw [drawn, hstart, hnext]
    obtain ⟨picks', hsecond, hstill⟩ := (hworld ▸ hothers 0).roundRobin
    obtain ⟨n, hn, hhead, hdrawn, -, hdrained⟩ :=
      drawn_roundRobin routing hnodes hstart hsecond
    refine ⟨_, unskipped_rotation hdistinct hn _, hdrawn, hdrained, fun hzero hroom => ?_⟩
    have hnat : picks'.toNat = picks.toNat + 1 := by
      rw [hstill hzero, UInt64.toNat_add]
      exact Nat.mod_eq_of_lt hroom
    rw [rotation_mod, hnat, cons_unskipped_rotation hdistinct _ hhead]
  · have hfirsts : ((List.range nodes.length).map fun i =>
        (fresh.next (chooser (routings i) nodes) (ws i)).node) =
          (nodes.rotate picks.toNat).map some := by
      refine List.ext_getElem (by simp) fun i hi _ => ?_
      have hi : i < nodes.length := by simpa using hi
      have hnode := starts_roundRobin hnodes hstart hothers (i := i) (by omega)
      rw [← List.rotate_rotate, List.getElem?_rotate (by simpa using Nat.zero_lt_of_lt hi)] at hnode
      rw [List.getElem_map, List.getElem_map, List.getElem_range, ← List.getElem?_eq_getElem]
      simpa [Nat.mod_eq_of_lt hi] using hnode
    rw [hfirsts]
    exact (nodes.rotate_perm _).map some

/-- The counter stands at its last number, and two plans over other clusters start before the plan
needs its second node; three plans start from the sixth count on. -/
theorem round_robin_covers_from_last_count :
    let nodes : List Node :=
      [.sample "10.0.0.1" 0, .sample "10.0.0.2" 1, .sample "10.0.0.3" 2]
    let ws : Nat → BalancerRule
      | 0 => .roundRobin (0 - 1)
      | _ => .roundRobin 2
    (∃ order : List Node, order.Perm nodes ∧ order.head? = nodes.head? ∧
      ∀ k, (drawn (chooser .standard nodes) .fresh ws k).node = order[k]?) ∧
    ((List.range 3).map fun i =>
      (fresh.next (chooser .standard nodes) (.roundRobin (.ofNat (5 + i)))).node).Perm
        (nodes.map some) := by
  intro nodes ws
  have hnodes : nodes ≠ [] := by simp [nodes]
  have hdistinct : (nodes.map (·.address)).Nodup := by decide
  obtain ⟨hcovers, -⟩ := round_robin_covers hnodes hdistinct (0 - 1)
  obtain ⟨-, hstarts⟩ := round_robin_covers hnodes hdistinct 5
  constructor
  · have hothers (k : Nat) : (drawn (chooser .standard nodes) .fresh ws k).world.Meanwhile
        (if k = 0 then 2 else 0) (ws (k + 1)) := by
      cases k with
      | zero =>
        have hstarts := (BalancerRule.Meanwhile.still.starts (b := .roundRobin 0) .standard
          (nodes.take 1)).starts .standard (nodes.take 2)
        have hzero : (drawn (chooser .standard nodes) .fresh ws 0).world = .roundRobin 0 := by cbv
        rw [hzero]
        exact (by cbv : _ = ws 1) ▸ hstarts
      | succ k =>
        have hstart : ws 0 = .roundRobin (0 - 1) := rfl
        obtain ⟨-, -, -, -, hworld, -⟩ := drawn_roundRobin .standard hnodes hstart rfl
        rw [hworld]
        exact .still
    obtain ⟨order, hperm, hgives, -⟩ := hcovers .standard ws _ rfl hothers
    refine ⟨order, hperm, ?_, hgives⟩
    rw [List.head?_eq_getElem?, ← hgives 0]
    cbv
  · refine hstarts (fun _ => .standard) (fun i => .roundRobin (.ofNat (5 + i))) rfl (fun i => ?_)
      (by decide)
    obtain ⟨n, -, -, hnext⟩ := BalancerRule.next_fresh .standard hnodes (.ofNat (5 + i))
    have hcount : UInt64.ofNat (5 + (i + 1)) = .ofNat (5 + i) + 1 := UInt64.ofNat_add (5 + i) 1
    rw [hnext, hcount]
    exact .still

end Plan

end ClusterClient
