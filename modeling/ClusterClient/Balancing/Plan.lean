import ClusterClient.Balancing.Basic

/-!
# Query plans

A `Plan` hands out the nodes of one request in order. Only the first node is picked up front; the
candidates are asked for once a second node is needed, or if there was no first one. The node that
was picked does not come again. `Plan.next` asks a `Chooser`, which may be anything that changes
with each question, and `planned` is the list of all nodes a plan hands out.
-/

namespace ClusterClient

/-- Where the nodes of a plan come from: a first node and the candidates after it. -/
structure Chooser (ω : Type) where
  pick : ω → Option Node × ω
  fallback : ω → List Node × ω

/-- The nodes of a cluster in the order of a load balancer. -/
def BalancerRule.chooser (routing : Routing) (nodes : List Node) : Chooser BalancerRule :=
  ⟨fun b => b.pick routing nodes, fun b => b.fallback routing nodes⟩

/-- How far a plan has come. -/
inductive Plan where
  | fresh
  | picked (node : Node)
  | fallback (skipped : Option Address) (nodes : List Node)
  deriving DecidableEq, Repr, Inhabited

/-- A question a plan put to its load balancer, or its complaint that there was no node at all. -/
inductive Consulted where
  | pick (answer : Option Node)
  | fallback
  | gaveNoNode
  deriving DecidableEq, Repr

/-- What taking a node from a plan gives. -/
structure Draw (ω : Type) where
  node : Option Node
  plan : Plan
  world : ω
  asked : List Consulted

/-- The first node whose address is not the skipped one, and those behind it. -/
def takeUnskipped (skipped : Option Address) : List Node → Option Node × List Node
  | [] => (none, [])
  | n :: ns => if skipped = some n.address then takeUnskipped skipped ns else (some n, ns)

namespace Plan

variable {ω : Type}

/-- Asks for the candidates and takes the first. -/
def startFallback (c : Chooser ω) (skipped : Option Address) (w : ω) : Draw ω :=
  let (nodes, w) := c.fallback w
  let (node, behind) := takeUnskipped skipped nodes
  ⟨node, .fallback skipped behind, w, [.fallback]⟩

/-- Takes the next node. -/
def next (c : Chooser ω) (p : Plan) (w : ω) : Draw ω :=
  match p with
  | .fresh =>
    match c.pick w with
    | (some n, w) => ⟨some n, .picked n, w, [.pick (some n)]⟩
    | (none, w) =>
      let d := startFallback c none w
      { d with asked := .pick none :: d.asked ++ if d.node.isNone then [.gaveNoNode] else [] }
  | .picked n => startFallback c (some n.address) w
  | .fallback skipped nodes =>
    let (node, behind) := takeUnskipped skipped nodes
    ⟨node, .fallback skipped behind, w, []⟩

/-- How many questions a plan may still put to its load balancer. -/
def questions : Plan → Nat
  | .fresh => 2
  | .picked _ => 1
  | .fallback _ _ => 0

/-- How many candidates are left. -/
def candidates : Plan → Nat
  | .fallback _ nodes => nodes.length
  | _ => 0

theorem takeUnskipped_length {skipped : Option Address} :
    ∀ {nodes : List Node} {n : Node} {rest : List Node},
      takeUnskipped skipped nodes = (some n, rest) → rest.length < nodes.length
  | [], _, _, h => by simp [takeUnskipped] at h
  | m :: ms, n, rest, h => by
    unfold takeUnskipped at h
    split at h
    · exact Nat.lt_succ_of_lt (takeUnskipped_length h)
    · simp only [Prod.mk.injEq] at h
      simp [h.2]

/-- Taking a node brings a plan closer to its end. -/
theorem next_decreases {c : Chooser ω} {p : Plan} {w : ω} {n : Node}
    (h : (p.next c w).node = some n) :
    (p.next c w).plan.questions < p.questions ∨
      (p.next c w).plan.questions = p.questions ∧
        (p.next c w).plan.candidates < p.candidates := by
  cases p with
  | fresh =>
    left
    rcases hp : c.pick w with ⟨_ | m, w'⟩ <;> simp [next, hp, questions, startFallback]
  | picked m =>
    left
    simp [next, startFallback, questions]
  | fallback skipped nodes =>
    right
    refine ⟨by simp [next, questions], ?_⟩
    rcases ht : takeUnskipped skipped nodes with ⟨node, behind⟩
    simp only [next, ht] at h ⊢
    subst h
    exact takeUnskipped_length ht

/-- Takes every node that is left. -/
def drain (c : Chooser ω) (p : Plan) (w : ω) : List Node × Draw ω :=
  let draw := p.next c w
  match h : draw.node with
  | none => ([], draw)
  | some n =>
    have _closer := next_decreases h
    let (ns, last) := drain c draw.plan draw.world
    (n :: ns, { last with asked := draw.asked ++ last.asked })
termination_by (p.questions, p.candidates)
decreasing_by
  rcases _closer with hq | ⟨hq, hc⟩
  · exact Prod.Lex.left _ _ hq
  · rw [hq]; exact Prod.Lex.right _ hc

end Plan

/-- All nodes of a plan whose load balancer gives this first node and these candidates: the first
node, then the candidates at other addresses. -/
def planned (pick : Option Node) (fallback : List Node) : List Node :=
  match pick with
  | none => fallback
  | some n => n :: fallback.filter fun m => m.address ≠ n.address

end ClusterClient
