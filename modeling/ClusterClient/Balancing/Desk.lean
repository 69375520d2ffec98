import ClusterClient.Balancing.Plan

/-!
# Plans that share a load balancer

A `Desk` holds one load balancer and any number of named plans over clusters of nodes. Its plans may
be drawn from in any order, so it shows how they meet in the balancer they share.
-/

namespace ClusterClient

/-- A load balancer with the plans that draw from it. -/
structure Desk where
  rule : BalancerRule
  plans : List (String × List Node × Plan)

/-- What to do at a desk. -/
inductive DeskRequest where
  | start (name : String) (nodes : List Node)
  | next (name : String)
  | drain (name : String)
  | pick (nodes : List Node)
  | fallback (nodes : List Node)

/-- What comes of it. -/
inductive DeskReply where
  | started
  | node (node : Option Node)
  | nodes (nodes : List Node)

/-- Whether a plan complained that there was no node. -/
def complains (asked : List Consulted) : Bool :=
  asked.contains .gaveNoNode

namespace Desk

/-- Keeps a plan under its name. -/
def keep (d : Desk) (name : String) (nodes : List Node) (p : Plan) : Desk :=
  { d with plans := (name, nodes, p) :: d.plans.filter (·.1 ≠ name) }

/-- Does what is requested; the flag tells whether a plan complained. -/
def serve (d : Desk) : DeskRequest → DeskReply × Bool × Desk
  | .start name nodes => (.started, false, d.keep name nodes .fresh)
  | .next name =>
    match d.plans.lookup name with
    | none => (.node none, false, d)
    | some (nodes, p) =>
      let draw := p.next (BalancerRule.chooser .standard nodes) d.rule
      (.node draw.node, complains draw.asked,
        { d with rule := draw.world }.keep name nodes draw.plan)
  | .drain name =>
    match d.plans.lookup name with
    | none => (.nodes [], false, d)
    | some (nodes, p) =>
      let (taken, draw) := p.drain (BalancerRule.chooser .standard nodes) d.rule
      (.nodes taken, complains draw.asked,
        { d with rule := draw.world }.keep name nodes draw.plan)
  | .pick nodes =>
    let (node, rule) := d.rule.pick .standard nodes
    (.node node, false, { d with rule := rule })
  | .fallback nodes =>
    let (candidates, rule) := d.rule.fallback .standard nodes
    (.nodes candidates, false, { d with rule := rule })

end Desk

end ClusterClient
