import ClusterClient.Proofs.Plan
import ClusterClient.Proofs.Story

/-!
# Which fiber goes where

The fibers of an execution share out the nodes of its plan: each position goes to one fiber, and
none is left out before the last one taken (`Execution.Shares`). A fiber asks only the node it took
last for connections, and takes another one only after a refusal or when its retry session sends it
on (`Act.Routed`).

`Pose.Placed` is what a fiber keeps of this by itself, `Trail.placed` that it does, and
`Trail.journal_routed` what follows for all acts.
-/

namespace ClusterClient

namespace Act

/-- The nodes a fiber took. -/
def takenBy (i : Nat) (acts : List Act) : List Node :=
  taken (ofFiber i acts)

/-- The node an act asks for a connection, and the fiber that does. -/
def trying? : Act → Option (Nat × Node)
  | .poolFailed i node _ | .began _ i node _ => some (i, node)
  | _ => none

/-- Whether a fiber is free to take a node: it did nothing yet, its node gave no connection, or its
retry session sent it on. -/
inductive Onward (i : Nat) : List Act → Prop
  | new : Onward i [.opened i]
  | refused (own : List Act) (node : Node) (cause : BrokenCause) :
      Onward i (own ++ [.poolFailed i node cause])
  | sentOn (own : List Act) (r : Report) (consistency : Option Consistency) :
      Onward i (own ++ [.reported i r (.nextNode consistency)])

/-- What comes before a node is taken, before it is asked for a connection, and before a request is
written. -/
def Routed (before : List Act) : Act → Prop
  | .took i _ => Onward i (ofFiber i before)
  | .poolFailed i node _ | .began _ i node _ => (takenBy i before).getLast? = some node
  | .issued n _ connection _ => ∃ i node, .began n i node connection ∈ before
  | _ => True

theorem mem_taking {acts : List Act} {i : Nat} {node : Node} :
    (i, node) ∈ acts.filterMap taking? ↔ .took i node ∈ acts := by
  rw [List.mem_filterMap]
  constructor
  · rintro ⟨a, ha, htake⟩
    cases a with
    | took => cases htake; exact ha
    | _ => cases htake
  · exact fun h => ⟨_, h, rfl⟩

theorem mem_taken_of_took {acts : List Act} {i : Nat} {node : Node} (h : .took i node ∈ acts) :
    node ∈ taken acts :=
  List.mem_map.2 ⟨_, mem_taking.2 h, rfl⟩

/-- What a fiber took is what was taken under its number. -/
theorem takenBy_eq (i : Nat) (acts : List Act) :
    takenBy i acts = ((acts.filterMap taking?).filter (·.1 = i)).map (·.2) := by
  rw [takenBy, taken, ofFiber, List.filterMap_filter, List.filter_filterMap]
  congr 1
  refine List.filterMap_congr fun a _ => ?_
  cases a <;> simp [fiber?, taking?, Option.filter_some]

theorem mem_takenBy {acts : List Act} {i : Nat} {node : Node} :
    node ∈ takenBy i acts ↔ .took i node ∈ acts := by
  rw [takenBy_eq, List.mem_map, ← mem_taking]
  simp

end Act

/-- What is paired with its owners from the front on. -/
theorem zip_map_append {α β : Type} (l : List (α × β)) (rest : List β) :
    (l.map (·.2) ++ rest).zip (l.map (·.1)) = l.map Prod.swap := by
  induction l with
  | nil => simp
  | cons p l ih => simp [ih, Prod.swap]

/-- The node a fiber is at. -/
def Stance.place? : Stance → Option Node
  | .visiting node => some node
  | .waiting c => some c.node
  | .roaming | .done _ => none

namespace Pose

/-- Where a fiber stands, by what it did. -/
structure Placed (own : List Act) (p : Pose) : Prop where
  onward : p.stance = .roaming →
    Act.Onward p.index own ∧ (p.lastError = none → own = [.opened p.index])
  /-- It is at the node it took last. -/
  place : ∀ node, p.stance.place? = some node → (Act.taken own).getLast? = some node
  idle : p.stance = .done .idle → own = [.opened p.index]
  /-- It asked each node it took for a connection, or is about to. -/
  tried : ∀ node ∈ Act.taken own,
    p.stance = .visiting node ∨ ∃ a ∈ own, a.trying? = some (p.index, node)

variable {ω : Type} {env : Environment ω} {settings : Settings} {p p' : Pose} {s s' : Shared}
  {own acts : List Act}

theorem exhausted_eq_idle : p.exhausted = .idle ↔ p.lastError = none := by
  unfold exhausted
  split <;> simp_all

/-- A fiber that waited for an attempt stays where it is as long as it is anywhere. -/
theorem Placed.of_waiting {q : Pose} {c : Current} {more : List Act} (hp : p.Placed own)
    (hw : p.stance = .waiting c) (hi : q.index = p.index) (hmore : Act.taken more = [])
    (hplace : ∀ node, q.stance.place? = some node → node = c.node) (hidle : q.stance ≠ .done .idle)
    (honward : q.stance = .roaming → Act.Onward p.index (own ++ more) ∧ q.lastError ≠ none) :
    q.Placed (own ++ more) where
  onward hs := by
    obtain ⟨hfree, hlast⟩ := honward hs
    exact ⟨hi ▸ hfree, fun hnone => absurd hnone hlast⟩
  place node hnode := by
    rw [Act.taken_append, hmore, List.append_nil, hplace node hnode]
    exact hp.place c.node (by simp [hw, Stance.place?])
  idle hs := absurd hs hidle
  tried node hnode := by
    rw [Act.taken_append, hmore, List.append_nil] at hnode
    obtain ⟨a, ha, htry⟩ := (hp.tried node hnode).resolve_left (by simp [hw])
    exact .inr ⟨a, List.mem_append_left _ ha, hi ▸ htry⟩

/-- A fiber that asked the node it took for a connection has asked each it took. -/
theorem Placed.tried_visiting {node : Node} {a : Act} (hp : p.Placed own)
    (hs : p.stance = .visiting node) (ha : a.trying? = some (p.index, node)) :
    ∀ m ∈ Act.taken own, ∃ b ∈ own ++ [a], b.trying? = some (p.index, m) := by
  intro m hm
  rcases hp.tried m hm with hv | ⟨b, hb, htry⟩
  · rw [hs, Stance.visiting.injEq] at hv
    exact ⟨a, by simp, hv ▸ ha⟩
  · exact ⟨b, List.mem_append_left _ hb, htry⟩

theorem Move.placed (h : Move env settings p s acts p' s') (hp : p.Placed own) :
    p'.Placed (own ++ Act.ofFiber p.index acts) := by
  cases h with
  | exhausted hs hd hn =>
    rw [Act.ofFiber_consulted, List.append_nil]
    refine ⟨by simp, by simp [Stance.place?], fun hidle => ?_, fun node hnode => ?_⟩
    · rw [Stance.done.injEq, exhausted_eq_idle] at hidle
      exact (hp.onward hs).2 hidle
    · exact .inr ((hp.tried node hnode).resolve_left (by simp [hs]))
  | @takes _ d node hs hd hn =>
    have hown : Act.ofFiber p.index (d.asked.map .consulted ++ [.took p.index node]) =
        [.took p.index node] := by
      simp [Act.fiber?]
    rw [hown]
    refine ⟨by simp, ?_, by simp, ?_⟩
    · intro m hm
      simp [Stance.place?] at hm
      simp [Act.taking?, hm]
    · intro m hm
      simp only [Act.taken_append, List.mem_append] at hm
      rcases hm with hm | hm
      · obtain ⟨a, ha, htry⟩ := (hp.tried m hm).resolve_left (by simp [hs])
        exact .inr ⟨a, List.mem_append_left _ ha, htry⟩
      · simp [Act.taking?] at hm
        exact .inl (by rw [hm])
  | @refused node cause hs =>
    have hown : Act.ofFiber p.index [.poolFailed p.index node cause] =
        [.poolFailed p.index node cause] := by
      simp [Act.fiber?]
    rw [hown]
    refine ⟨fun _ => ⟨.refused own node cause, by simp⟩, by simp [Stance.place?], by simp, ?_⟩
    intro m hm
    rw [Act.taken_append] at hm
    exact .inr (hp.tried_visiting hs rfl m (by simpa [Act.taking?] using hm))
  | @begins node connection deadline since hs =>
    have hown : Act.ofFiber p.index [.began s.attempts p.index node connection,
        .issued s.attempts .first connection (settings.call.request p.consistency)] =
        [.began s.attempts p.index node connection] := by
      simp [Act.fiber?]
    rw [hown]
    refine ⟨by simp, ?_, by simp, ?_⟩
    · intro m hm
      have hlast := hp.place m (by simpa [hs, Stance.place?] using hm)
      simpa [Act.taking?] using hlast
    · intro m hm
      rw [Act.taken_append] at hm
      exact .inr (hp.tried_visiting hs rfl m (by simpa [Act.taking?] using hm))
  | waits hs hr | sends hs hr =>
    exact hp.of_waiting hs rfl (by simp [Act.fiber?]) (by simp [Stance.place?]) (by simp) (by simp)
  | succeeds hs hr =>
    exact hp.of_waiting hs rfl (by simp [Act.fiber?, Act.taking?]) (by simp [Stance.place?])
      (by simp) (by simp)
  | @fails c error heard lore decision hs hf hd hne =>
    have hown : Act.ofFiber p.index (heard ++ [.failed c.number p.index c.node error,
        .reported p.index (p.reportOn settings c error) decision]) =
        [.failed c.number p.index c.node error,
          .reported p.index (p.reportOn settings c error) decision] := by
      simp [hf.ofFiber_heard, Act.fiber?]
    rw [hown]
    refine hp.of_waiting hs (by simp) (by simp [Act.taking?]) ?_ ?_ ?_
    · cases decision <;> simp [obeying, Stance.place?]
    · cases decision <;> simp [obeying]
    · cases decision with
      | nextNode consistency =>
        intro _
        refine ⟨?_, by simp [obeying]⟩
        have := Act.Onward.sentOn (i := p.index) (own ++ [.failed c.number p.index c.node error])
          (p.reportOn settings c error) consistency
        simpa using this
      | sameNode | stop | ignore => simp [obeying]
  | @ignores c error heard lore hs hf hd =>
    refine hp.of_waiting hs rfl ?_ (by simp [obeying, Stance.place?]) (by simp [obeying])
      (by simp [obeying])
    simp [hf.ofFiber_heard, Act.fiber?, Act.taking?]

end Pose

namespace Trail

variable {ω : Type} {env : Environment ω} {settings : Settings} {acts : List Act} {s : Shared}
  {ps : List Pose} {p : Pose} {i : Nat}

/-- A fiber stands where it went. -/
theorem placed (h : Trail env settings acts s ps) (hp : ps[i]? = some p) :
    p.Placed (Act.ofFiber i acts) := by
  refine h.own (L := fun own p => p.Placed own) (fun rule i => ?_) ?_ hp
  · exact ⟨fun _ => ⟨.new, fun _ => rfl⟩, by simp [Pose.fresh, Fiber.standing, Stance.place?],
      fun _ => rfl, by simp [Act.taking?]⟩
  · intro acts more s s' ps p p' _ _ hmove hplaced
    exact hmove.placed hplaced

/-- **Every node is taken, asked for a connection and written to after what `Act.Routed` asks
for.** -/
theorem journal_routed (h : Trail env settings acts s ps) : Journal Act.Routed acts := by
  refine h.journal (fun _ _ => trivial) ?_
  intro acts more s s' ps p p' h hp hmove
  have hplaced := h.placed hp
  have place {node : Node} (hs : p.stance.place? = some node) :
      (Act.takenBy p.index acts).getLast? = some node := hplaced.place node hs
  cases hmove with
  | @takes _ d node hs hd hn =>
    rw [journal_append]
    refine ⟨journal_of_forall fun before a ha => ?_, ?_⟩
    · obtain ⟨q, -, rfl⟩ := List.mem_map.1 ha
      trivial
    · simpa [Act.Routed] using (hplaced.onward hs).1
  | refused hs =>
    simpa [Act.Routed] using place (by simp [hs, Stance.place?])
  | @begins node connection deadline since hs =>
    simp only [journal_cons, journal_nil, and_true, List.append_nil]
    exact ⟨place (by simp [hs, Stance.place?]), p.index, node, by simp⟩
  | @sends c signal a hs hr =>
    simp only [journal_cons, journal_nil, and_true, List.append_nil]
    refine ⟨trivial, p.index, c.node, ?_⟩
    rw [(Attempt.react_continues (.inr hr)).2.2]
    exact List.mem_append_left _ (h.underway hp hs).began
  | exhausted hs hd hn =>
    refine journal_of_forall fun before a ha => ?_
    obtain ⟨q, -, rfl⟩ := List.mem_map.1 ha
    trivial
  | fails hs hf hd hne | ignores hs hf hd =>
    cases hf <;> simp [Act.Routed]
  | waits | succeeds => simp [Act.Routed]

/-- A fiber asks the node it took last. -/
theorem place (h : Trail env settings acts s ps) {before after : List Act} {a : Act} {node : Node}
    (hacts : acts = before ++ a :: after) (htry : a.trying? = some (i, node)) :
    (Act.takenBy i before).getLast? = some node := by
  have hrouted := h.journal_routed before a after hacts
  cases a with
  | poolFailed | began =>
    cases htry
    exact hrouted
  | _ => cases htry

/-- A fiber asks only nodes it took. -/
theorem took_of_trying (h : Trail env settings acts s ps) {a : Act} (ha : a ∈ acts) {node : Node}
    (htry : a.trying? = some (i, node)) : .took i node ∈ acts := by
  obtain ⟨before, after, hacts⟩ := List.append_of_mem ha
  have hlast := h.place hacts htry
  rw [hacts]
  exact List.mem_append_left _ (Act.mem_takenBy.1 (List.mem_of_getLast? hlast))

/-- A request is written on the connection its attempt was begun with. -/
theorem began_of_issued (h : Trail env settings acts s ps) {n : Nat} {stage : Stage}
    {connection : Connection} {request : Request}
    (ha : .issued n stage connection request ∈ acts) :
    ∃ i node, .began n i node connection ∈ acts := by
  obtain ⟨before, after, hacts⟩ := List.append_of_mem ha
  obtain ⟨i, node, hbegan⟩ := h.journal_routed before _ after hacts
  exact ⟨i, node, hacts ▸ List.mem_append_left _ hbegan⟩

/-- A single fiber takes all that is taken. -/
theorem takenBy_single (h : Trail env settings acts s ps) (hone : ps.length = 1)
    {before after : List Act} (hacts : acts = before ++ after) (hi : i < ps.length) :
    Act.takenBy i before = Act.taken before := by
  have hall : ∀ t ∈ before.filterMap Act.taking?, t.1 = i := by
    rintro ⟨j, node⟩ ht
    have hj : .took j node ∈ acts := hacts ▸ List.mem_append_left _ (Act.mem_taking.1 ht)
    have := h.fiber_lt hj rfl
    simp only
    omega
  rw [Act.takenBy_eq, List.filter_eq_self.2 (by simpa using hall), Act.taken]

end Trail

namespace Execution

variable {ω : Type} {env : Environment ω} {settings : Settings} {speculation : Option Speculation}
  {since : Nat} {x : Execution} {acts : List Act} {P : List Node}

/-- Whether a fiber writes a request to a node. -/
def Writes (acts : List Act) (i : Nat) (node : Node) : Prop :=
  ∃ n stage connection request, .issued n stage connection request ∈ acts ∧
    .began n i node connection ∈ acts

/-- How the fibers of an execution share out the nodes of its plan. -/
structure Shares (x : Execution) (acts : List Act) (P : List Node) : Prop where
  /-- Each position of the plan goes to one fiber, up to the last one that is taken. -/
  owners : ∃ owners : List Nat, owners.length ≤ P.length ∧ (∀ i ∈ owners, i < x.fibers.length) ∧
    ∀ i, Act.takenBy i acts = ((P.zip owners).filter (·.2 = i)).map (·.1)
  /-- A request is written by a fiber to a node it took. -/
  written : ∀ n stage connection request, .issued n stage connection request ∈ acts →
    ∃ i node, .began n i node connection ∈ acts ∧ node ∈ Act.takenBy i acts
  /-- No two fibers write to nodes at one address, unless the plan lists it twice. -/
  apart : (P.map Node.address).Nodup → ∀ i j node other, Writes acts i node →
    Writes acts j other → node.address = other.address → i = j
  /-- A fiber asks only the node it took last. -/
  place : ∀ before a i node after, acts = before ++ a :: after → a.trying? = some (i, node) →
    (Act.takenBy i before).getLast? = some node
  /-- It takes another one only after a refusal, or when its retry session sends it on. -/
  onward : ∀ before i node after, acts = before ++ .took i node :: after →
    Act.Onward i (Act.ofFiber i before)
  /-- A single fiber asks the nodes in the order of the plan. -/
  single : x.fibers.length = 1 → ∀ before a i node after, acts = before ++ a :: after →
    a.trying? = some (i, node) → ∃ k, P[k]? = some node ∧ Act.taken before = P.take (k + 1)

theorem Unfolds.shared_out (h : Unfolds env settings speculation since x acts)
    (hP : x.PlanIs env acts P) : x.Shares acts P := by
  have htrail := h.trail
  obtain ⟨rest, -, hnodes⟩ := hP.handed
  refine
    { owners := ⟨(acts.filterMap Act.taking?).map (·.1), ?_, ?_, fun i => ?_⟩
      written := ?_
      apart := ?_
      place := fun _ _ _ _ _ hacts htry => htrail.place hacts htry
      onward := fun before i node after hacts => htrail.journal_routed before _ after hacts
      single := ?_ }
  · simp [hnodes, Act.taken]
  · intro i hi
    obtain ⟨⟨i, node⟩, hmem, rfl⟩ := List.mem_map.1 hi
    simpa using htrail.fiber_lt (Act.mem_taking.1 hmem) rfl
  · rw [hnodes, Act.taken, zip_map_append, Act.takenBy_eq]
    simp [List.filter_map, Function.comp_def]
  · intro n stage connection request hissued
    obtain ⟨i, node, hbegan⟩ := htrail.began_of_issued hissued
    exact ⟨i, node, hbegan, Act.mem_takenBy.2 (htrail.took_of_trying hbegan rfl)⟩
  · rintro hnodup i j node other ⟨n, _, _, _, -, hn⟩ ⟨m, _, _, _, -, hm⟩ haddress
    have hi := Act.mem_taking.2 (htrail.took_of_trying hn rfl)
    have hj := Act.mem_taking.2 (htrail.took_of_trying hm rfl)
    have htaken : ((acts.filterMap Act.taking?).map fun t => t.2.address).Nodup := by
      rw [hnodes, List.map_append, Act.taken, List.map_map] at hnodup
      exact hnodup.of_append_left
    exact congrArg Prod.fst (List.inj_on_of_nodup_map htaken hi hj haddress)
  · intro hone before a i node after hacts htry
    have hi : i < (x.fibers.map Fiber.pose).length :=
      htrail.fiber_lt (htrail.took_of_trying (by simp [hacts]) htry) rfl
    have hlast := htrail.place hacts htry
    rw [htrail.takenBy_single (by simpa using hone) hacts hi, List.getLast?_eq_getElem?] at hlast
    obtain ⟨hlt, -⟩ := List.getElem?_eq_some_iff.1 hlast
    have hsplit : P = Act.taken before ++ (Act.taken (a :: after) ++ rest) := by
      rw [hnodes, hacts, Act.taken_append, List.append_assoc]
    refine ⟨(Act.taken before).length - 1, ?_, ?_⟩
    · rw [hsplit, List.getElem?_append_left hlt, hlast]
    · rw [Nat.sub_add_cancel (by omega), hsplit, List.take_left]

/-- **The fibers of an execution share out the nodes of its plan**, under any policies and in any
order of their turns. -/
theorem Arises.shares (h : Arises env settings speculation x acts) :
    (∃ P, x.PlanIs env acts P) ∧ ∀ P, x.PlanIs env acts P → x.Shares acts P := by
  obtain ⟨since, h⟩ := h.unfolds
  exact ⟨h.planIs, fun P hP => h.shared_out hP⟩

/-- The second node gives the second fiber no connection, and the first fiber is sent on when its
time is up. -/
theorem Arises.shares_two_fibers :
    let a := Node.sample "10.0.0.1" 0
    let b := Node.sample "10.0.0.2" 1
    let c := Node.sample "10.0.0.3" 2
    let d := Node.sample "10.0.0.4" 3
    ∃ (x : Execution) (acts : List Act), x.Shares acts [a, b, c, d] ∧ x.fibers.length = 2 ∧
      Act.takenBy 0 acts = [a, d] ∧ Act.takenBy 1 acts = [b, c] ∧
      ∀ node, Writes acts 1 node → node.address ≠ a.address := by
  intro a b c d
  let env : Environment Unit := { Environment.steady [a, b, c, d] with
    connect := fun n w =>
      (if n.pool = 1 then .error .closed else .ok ⟨.pool n.pool, n.address⟩, w) }
  let settings : Settings :=
    ⟨.query "SELECT v FROM t" .none .unpaged none, ⟨.one, true⟩, some 50,
      .scripted [.nextNode none]⟩
  let speculation : Option Speculation := some ⟨1, 100⟩
  have hstart : Reaches env settings speculation _ _ := .start 0 ()
  obtain ⟨⟨P, hP⟩, hshares⟩ := (hstart.follow 0 () [.launch, .expire 0]).arises.shares
  let run := (Execution.start env settings speculation 0 ()).execution.follow env settings 0 ()
    (Execution.start env settings speculation 0 ()).acts [.launch, .expire 0]
  obtain rfl : P = [a, b, c, d] := hP.eq_of_steady fun _ _ => by cbv
  have hshares := hshares _ hP
  have hwrites : Writes run.2 0 a := by
    have hbegan : run.2[3]? = some (.began 0 0 a ⟨.pool 0, a.address⟩) := by cbv
    have hissued : run.2[4]? = some (.issued 0 .first ⟨.pool 0, a.address⟩
      (settings.call.request .one)) := by cbv
    exact ⟨0, .first, _, _, List.mem_of_getElem? hissued, List.mem_of_getElem? hbegan⟩
  refine ⟨run.1, run.2, hshares, by cbv, by cbv, by cbv, fun node hnode heq => ?_⟩
  exact absurd (hshares.apart (by decide) 1 0 node a hnode hwrites heq) (by decide)

end Execution

end ClusterClient
