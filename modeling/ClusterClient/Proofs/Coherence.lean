import ClusterClient.Proofs.Touch

/-!
# The keyspace and the pools

Two kinds of operations change what a session and its pools agree on: a switch of the keyspace tells
the pool of every node known, and taking over a list of nodes makes pools for new ones. Each has to
leave the other's work intact, whatever comes in between. `Session.Coherent` says that all pools of
the nodes known were told the keyspace in use, and nothing else since; `Session.Coherent.touched`
that every touch of the session keeps it so.

`Client.Reached` is every client that comes about from a new session, and
`Client.Reached.session_coherent` says that all their sessions are coherent.
-/

namespace ClusterClient

/-- What a pool was told by an act, if the act is about the pool. Pools are taken for one if `same`
maps them to one. -/
def PoolAct.toldTo? (same : PoolId → PoolId) (pool : PoolId) : PoolAct → Option String
  | .told p k => if same p = same pool then some k else none
  | .opened _ _ => none

namespace Session

/-- The pools of all nodes were told the keyspace in use, and nothing else since. -/
structure Coherent (s : Session) (log : List PoolAct) : Prop where
  served : ∀ n ∈ s.nodes, n.pool < s.pools.length
  told : ∀ k, s.keyspace = some k → ∀ n ∈ s.nodes, ∃ p, s.pools[n.pool]? = some p ∧
    p.told.getLast? = some k
  recent : ∀ k, s.keyspace = some k → ∃ earlier since, log = earlier ++ since ∧
    (∀ p k', .told p k' ∈ since → k' = k) ∧ ∀ n ∈ s.nodes, .told n.pool k ∈ since

/-- Coherence is about the nodes, the keyspace, and what the pools were told. -/
theorem Coherent.congr {s t : Session} {log : List PoolAct} (h : s.Coherent log)
    (hnodes : t.nodes = s.nodes) (hkeyspace : t.keyspace = s.keyspace)
    (hpools : t.pools.map (·.told) = s.pools.map (·.told)) : t.Coherent log where
  served n hn := by
    have hlength := congrArg List.length hpools
    simp only [List.length_map] at hlength
    rw [hlength]
    exact h.served n (hnodes ▸ hn)
  told k hk n hn := by
    obtain ⟨p, hp, hlast⟩ := h.told k (hkeyspace ▸ hk) n (hnodes ▸ hn)
    have hat := congrArg (·[n.pool]?) hpools
    simp only [List.getElem?_map, hp, Option.map_some] at hat
    obtain ⟨q, hq, hqp⟩ := Option.map_eq_some_iff.1 hat
    exact ⟨q, hq, by rw [hqp, hlast]⟩
  recent k hk := by
    rw [hnodes]
    exact h.recent k (hkeyspace ▸ hk)

/-- A switch of the keyspace restores coherence, whatever the pools were told before. -/
theorem Coherent.useKeyspace {s : Session} (hs : ∀ n ∈ s.nodes, n.pool < s.pools.length)
    (k : String) (log : List PoolAct) :
    (s.useKeyspace k).1.Coherent (log ++ (s.useKeyspace k).2) where
  served n hn := by
    rw [useKeyspace_nodes] at hn
    simpa [useKeyspace_pools] using hs n hn
  told k' hk n hn := by
    rw [useKeyspace_keyspace] at hk
    cases hk
    rw [useKeyspace_nodes] at hn
    have hcount : s.nodes.countP (·.pool = n.pool) ≠ 0 := by
      rw [← Nat.pos_iff_ne_zero, List.countP_pos_iff]
      exact ⟨n, hn, by simp⟩
    simp only [useKeyspace_pools, List.getElem?_mapIdx, List.getElem?_eq_getElem (hs n hn),
      Option.map_some, Option.some.injEq, exists_eq_left']
    simp [List.getLast?_append, List.getLast?_replicate, hcount]
  recent k' hk := by
    rw [useKeyspace_keyspace] at hk
    cases hk
    rw [useKeyspace_nodes, useKeyspace_acts]
    refine ⟨log, _, rfl, fun p k' hmem => ?_, fun n hn => List.mem_map.2 ⟨n, hn, rfl⟩⟩
    obtain ⟨n, -, he⟩ := List.mem_map.1 hmem
    cases he
    rfl

/-! ## Taking over a list of nodes -/

/-- A node as it is taken over. -/
def entry (info : NodeInfo) (address : Address) (pool : PoolId) : Node :=
  ⟨address, info.broadcast, info.datacenter, info.rack, pool⟩

/-- One node is left out, keeps the pool of a known one, or gets a new pool. -/
theorem adoptOne_cases (provide : Address → Pool) (known : List Node) (s : Session)
    (nodes : List Node) (acts : List PoolAct) (info : NodeInfo) :
    info.connect = none ∧ adoptOne provide known (s, nodes, acts) info = (s, nodes, acts) ∨
    (∃ address n, info.connect = some address ∧ known.find? (·.address = address) = some n ∧
      adoptOne provide known (s, nodes, acts) info =
        (s, nodes ++ [entry info address n.pool], acts)) ∨
    ∃ address, info.connect = some address ∧ known.find? (·.address = address) = none ∧
      adoptOne provide known (s, nodes, acts) info =
        ((s.openPool (provide address) address s.keyspace).1,
          nodes ++ [entry info address s.pools.length],
          acts ++ (s.openPool (provide address) address s.keyspace).2) := by
  unfold adoptOne
  cases info.connect with
  | none => exact .inl ⟨rfl, rfl⟩
  | some address =>
    dsimp only
    cases h : known.find? (·.address = address) with
    | some n => exact .inr (.inl ⟨address, n, rfl, h, rfl⟩)
    | none => exact .inr (.inr ⟨address, rfl, h, rfl⟩)

/-- A new pool comes behind the others. If a keyspace is in use it is told that one, and nothing
else is told anything. -/
theorem openPool_spec (s : Session) (pool : Pool) (address : Address) (keyspace : Option String) :
    let t := s.openPool pool address keyspace
    t.1.keyspace = s.keyspace ∧ t.1.pools.length = s.pools.length + 1 ∧
      (∀ i < s.pools.length, t.1.pools[i]? = s.pools[i]?) ∧
      (∀ p k, .told p k ∈ t.2 ↔ p = s.pools.length ∧ keyspace = some k) ∧
      ∀ k, keyspace = some k →
        ∃ p, t.1.pools[s.pools.length]? = some p ∧ p.told.getLast? = some k := by
  cases keyspace with
  | none =>
    refine ⟨rfl, by simp [openPool], fun i hi => ?_, by simp [openPool], nofun⟩
    simp [openPool, List.getElem?_append_left hi]
  | some k =>
    refine ⟨rfl, by simp [openPool, tell], fun i hi => ?_, by simp [openPool, eq_comm], ?_⟩
    · simp only [openPool, tell, List.getElem?_modify, if_neg (Nat.ne_of_gt hi)]
      rw [List.getElem?_append_left hi]
      exact Option.map_id'
    · rintro k' ⟨⟩
      simp [openPool, tell]

/-- How far a session has come with taking over nodes: what was there is as it was, and the pools
made since were told the keyspace in use. -/
structure Adopting (s t : Session) (nodes : List Node) (acts : List PoolAct) : Prop where
  keyspace : t.keyspace = s.keyspace
  length : s.pools.length ≤ t.pools.length
  pools : ∀ i < s.pools.length, t.pools[i]? = s.pools[i]?
  served : ∀ n ∈ nodes, (∃ m ∈ s.nodes, m.pool = n.pool) ∨
    s.pools.length ≤ n.pool ∧ n.pool < t.pools.length
  told : ∀ p k, .told p k ∈ acts → s.keyspace = some k
  opened : ∀ k, s.keyspace = some k → ∀ i, s.pools.length ≤ i → i < t.pools.length →
    .told i k ∈ acts ∧ ∃ p, t.pools[i]? = some p ∧ p.told.getLast? = some k

theorem Adopting.start (s : Session) : Adopting s s [] [] where
  keyspace := rfl
  length := Nat.le_refl _
  pools _ _ := rfl
  served _ hn := nomatch hn
  told _ _ h := nomatch h
  opened _ _ _ hle hlt := absurd hle (Nat.not_le_of_lt hlt)

theorem Adopting.one {s t : Session} {nodes : List Node} {acts : List PoolAct}
    (h : Adopting s t nodes acts) (provide : Address → Pool) (info : NodeInfo) :
    let u := adoptOne provide s.nodes (t, nodes, acts) info
    Adopting s u.1 u.2.1 u.2.2 := by
  rcases adoptOne_cases provide s.nodes t nodes acts info with
    ⟨-, he⟩ | ⟨address, m, -, hm, he⟩ | ⟨address, -, -, he⟩
  · rw [he]
    exact h
  · rw [he]
    refine { h with served := fun n hn => ?_ }
    rcases List.mem_append.1 hn with hn | hn
    · exact h.served n hn
    · rw [List.mem_singleton.1 hn]
      exact .inl ⟨m, List.mem_of_find?_eq_some hm, rfl⟩
  · have hspec := openPool_spec t (provide address) address t.keyspace
    have hle := h.length
    rw [he]
    generalize t.openPool (provide address) address t.keyspace = u at hspec
    obtain ⟨hkeyspace, hlength, hpools, htold, hopened⟩ := hspec
    dsimp only
    refine ⟨hkeyspace.trans h.keyspace, by omega, fun i hi => ?_, fun n hn => ?_,
      fun p k hmem => ?_, fun k hk i hge hlt => ?_⟩
    · rw [hpools i (by omega), h.pools i hi]
    · rcases List.mem_append.1 hn with hn | hn
      · rcases h.served n hn with hold | ⟨hge, hlt⟩
        · exact .inl hold
        · exact .inr ⟨hge, Nat.lt_of_lt_of_le hlt (by omega)⟩
      · rw [List.mem_singleton.1 hn]
        exact .inr ⟨hle, by rw [hlength]; exact Nat.lt_succ_self _⟩
    · rcases List.mem_append.1 hmem with hmem | hmem
      · exact h.told p k hmem
      · rw [← h.keyspace]
        exact ((htold p k).1 hmem).2
    · have hk' : t.keyspace = some k := h.keyspace.trans hk
      by_cases hi : i < t.pools.length
      · obtain ⟨hmem, p, hp, hlast⟩ := h.opened k hk i hge hi
        exact ⟨List.mem_append_left _ hmem, p, by rw [hpools i hi, hp], hlast⟩
      · obtain rfl : i = t.pools.length := by omega
        exact ⟨List.mem_append_right _ ((htold _ k).2 ⟨rfl, hk'⟩), hopened k hk'⟩

/-- Taking over a list of nodes leaves what was there as it was, and new pools are told the keyspace
in use. -/
theorem adopt_adopting (s : Session) (provide : Address → Pool) (infos : List NodeInfo) :
    Adopting s (s.adopt provide infos).1 (s.adopt provide infos).1.nodes
      (s.adopt provide infos).2 := by
  have hfold : ∀ state : Session × List Node × List PoolAct,
      Adopting s state.1 state.2.1 state.2.2 →
      let u := infos.foldl (adoptOne provide s.nodes) state
      Adopting s u.1 u.2.1 u.2.2 := by
    induction infos with
    | nil => exact fun state h => h
    | cons info infos ih => exact fun state h => ih _ (h.one provide info)
  obtain ⟨hkeyspace, hlength, hpools, hserved, htold, hopened⟩ := hfold (s, [], []) (.start s)
  exact ⟨hkeyspace, hlength, hpools, hserved, htold, hopened⟩

/-- Taking over a list of nodes keeps a session coherent. -/
theorem Coherent.adopt {s : Session} {log : List PoolAct} (h : s.Coherent log)
    (provide : Address → Pool) (infos : List NodeInfo) :
    (s.adopt provide infos).1.Coherent (log ++ (s.adopt provide infos).2) := by
  have ha := adopt_adopting s provide infos
  refine ⟨fun n hn => ?_, fun k hk n hn => ?_, fun k hk => ?_⟩
  · rcases ha.served n hn with ⟨m, hm, he⟩ | ⟨-, hlt⟩
    · rw [← he]
      exact Nat.lt_of_lt_of_le (h.served m hm) ha.length
    · exact hlt
  · have hk : s.keyspace = some k := ha.keyspace ▸ hk
    rcases ha.served n hn with ⟨m, hm, he⟩ | ⟨hge, hlt⟩
    · rw [← he, ha.pools _ (h.served m hm)]
      exact h.told k hk m hm
    · exact (ha.opened k hk _ hge hlt).2
  · have hk : s.keyspace = some k := ha.keyspace ▸ hk
    obtain ⟨earlier, since, rfl, honly, hall⟩ := h.recent k hk
    refine ⟨earlier, since ++ _, List.append_assoc .., fun p k' hmem => ?_, fun n hn => ?_⟩
    · rcases List.mem_append.1 hmem with hmem | hmem
      · exact honly p k' hmem
      · have := ha.told p k' hmem
        rw [hk] at this
        exact (Option.some.inj this).symm
    · rcases ha.served n hn with ⟨m, hm, he⟩ | ⟨hge, hlt⟩
      · rw [← he]
        exact List.mem_append_left _ (hall m hm)
      · exact List.mem_append_right _ (ha.opened k hk _ hge hlt).1

/-- **Whatever touches a session keeps it coherent.** -/
theorem Coherent.touched {s t : Session} {log acts : List PoolAct} (h : s.Coherent log)
    (ht : s.Touched t acts) : t.Coherent (log ++ acts) := by
  cases ht with
  | kept he =>
    obtain ⟨hnodes, hkeyspace, hpools⟩ := apart_eq he
    rw [List.append_nil]
    exact h.congr hnodes hkeyspace (by rw [hpools])
  | switched k he =>
    obtain ⟨hnodes, -, hpools⟩ := apart_eq he
    exact .useKeyspace (by rw [hnodes, hpools]; exact h.served) k log
  | adopted provide infos => exact h.adopt provide infos

/-- A new session is coherent. -/
theorem Coherent.start {nodes : List Node} {pools : List Pool}
    (hserved : ∀ n ∈ nodes, n.pool < pools.length) (balancers : List Balancer) (targets : Targets)
    (handle : HandleId) (controlLimit : Nat) (keyspace : Option String) :
    let s := start nodes pools balancers targets handle controlLimit keyspace
    s.1.Coherent s.2 := by
  cases keyspace with
  | none => exact ⟨hserved, nofun, nofun⟩
  | some k =>
    exact Coherent.useKeyspace
      (s := ⟨nodes, none, pools, balancers, [], targets, handle, controlLimit⟩) hserved k []

end Session

namespace PoolAct

/-- What the pools that are taken for one were told, oldest first. -/
def toldTo (same : PoolId → PoolId) (pool : PoolId) (log : List PoolAct) : List String :=
  log.filterMap (toldTo? same pool)

/-- A pool that is told one keyspace over and over is told that one last. -/
theorem getLast?_toldTo {earlier since : List PoolAct} {k : String} {pool : PoolId}
    (same : PoolId → PoolId) (honly : ∀ p k', .told p k' ∈ since → k' = k)
    (hmem : .told pool k ∈ since) : (toldTo same pool (earlier ++ since)).getLast? = some k := by
  have hall : ∀ k' ∈ toldTo same pool since, k' = k := by
    intro k' hk'
    obtain ⟨act, hact, he⟩ := List.mem_filterMap.1 hk'
    cases act with
    | told p k'' =>
      simp only [toldTo?] at he
      split at he
      · cases he
        exact honly p _ hact
      · cases he
    | opened p address => cases he
  have hk : k ∈ toldTo same pool since := List.mem_filterMap.2 ⟨_, hmem, by simp [toldTo?]⟩
  rw [toldTo, List.filterMap_append, List.getLast?_append]
  cases hlast : (since.filterMap (toldTo? same pool)).getLast? with
  | none =>
    rw [List.getLast?_eq_none_iff] at hlast
    rw [toldTo, hlast] at hk
    cases hk
  | some k' =>
    rw [hall k' (List.mem_of_getLast? hlast)]
    rfl

end PoolAct

namespace Client

/-- The clients that come about from a new session by operations that take turns in any order, with
what was done to the pools so far. Nodes, keyspace and what pools were told are the operations'
only; all else of a client may change at any time, and operations may be given up. -/
inductive Reached : Client → List PoolAct → Prop
  | new (nodes : List Node) (pools : List Pool) (balancers : List Balancer) (targets : Targets)
      (handle : HandleId) (controlLimit : Nat) (keyspace : Option String) (monitor : Monitor)
      (control : Control) :
      (∀ n ∈ nodes, n.pool < pools.length) →
      Reached
        ⟨(Session.start nodes pools balancers targets handle controlLimit keyspace).1, monitor,
          control, [], 0⟩
        (Session.start nodes pools balancers targets handle controlLimit keyspace).2
  | start {c : Client} {log : List PoolAct} (now : Nat) (o : Operation) :
      Reached c log →
      Reached (c.start now o).1 (log ++ (c.start now o).2.filterMap Notice.pool?)
  | step {c : Client} {log : List PoolAct} (now n : Nat) (h : Happening) :
      Reached c log →
      Reached (c.step now n h).1 (log ++ (c.step now n h).2.filterMap Notice.pool?)
  | elsewhere {c d : Client} {log : List PoolAct} :
      Reached c log → d.session.nodes = c.session.nodes →
      d.session.keyspace = c.session.keyspace →
      d.session.pools.map (·.told) = c.session.pools.map (·.told) →
      d.tasks.Sublist c.tasks → d.nextTask = c.nextTask → Reached d log

/-- **Every client's session is coherent.** -/
theorem Reached.session_coherent {c : Client} {log : List PoolAct} (h : Reached c log) :
    c.session.Coherent log := by
  induction h with
  | new nodes pools balancers targets handle controlLimit keyspace monitor control hserved =>
    exact .start hserved balancers targets handle controlLimit keyspace
  | start now o _ ih => exact ih.touched (start_touched _ now o)
  | step now n h _ ih => exact ih.touched (step_touched _ now n h)
  | elsewhere _ hnodes hkeyspace hpools _ _ ih => exact ih.congr hnodes hkeyspace hpools

/-- **The pools follow the keyspace.** In every client, however its operations are interleaved, the
pool of each node was told the keyspace in use last, also if several pools are one and the same. -/
theorem Reached.coherent {c : Client} {log : List PoolAct} (h : Reached c log) {k : String}
    (hk : c.session.keyspace = some k) {n : Node} (hn : n ∈ c.session.nodes) :
    (∃ p, c.session.pools[n.pool]? = some p ∧ p.told.getLast? = some k) ∧
    ∀ same : PoolId → PoolId, (PoolAct.toldTo same n.pool log).getLast? = some k := by
  have hc := h.session_coherent
  obtain ⟨earlier, since, rfl, honly, hall⟩ := hc.recent k hk
  exact ⟨hc.told k hk n hn, fun same => PoolAct.getLast?_toldTo same honly (hall n hn)⟩

/-- The keyspace is switched while the nodes are read: the pool made for the node that was read is
told the keyspace although that came after the question. -/
theorem Reached.coherent_switch_while_reading :
    ∃ (c : Client) (log : List PoolAct), Reached c log ∧ c.session.keyspace = some "ks" ∧
      c.session.nodes = [.sample "10.0.0.2" 1] ∧
      ∀ n ∈ c.session.nodes, ∃ p, c.session.pools[n.pool]? = some p ∧
        p.told.getLast? = some "ks" := by
  let pool (a : Address) : Pool := ⟨a, none, []⟩
  let a : Address := ⟨⟨"10.0.0.1"⟩, 9042⟩
  let answer (body : ResultBody) : Signal := .delivered (.ok ⟨.result body, .none⟩)
  let row : Rows := .ofCells ["rpc_address"] [[some (.inet ⟨"10.0.0.2"⟩)]] none
  have h : Reached _ _ := .new [.sample "10.0.0.1" 0] [pool a] Session.sample.balancers
    Session.sample.targets 0 50 none (.fresh 50 id) ⟨a, none, []⟩ (by decide)
  have h := h.start 0 (.refreshCluster pool)
  have h := h.start 0 (.query (.ofText "USE ks") [] .unpaged)
  have h := h.step 1 0 .resume
  have h := h.step 2 0 (.signal (.inquiry .localTable) .acknowledged)
  have h := h.step 2 0 (.signal (.inquiry .localTable) (answer (.rows row)))
  have h := h.step 3 1 (.signal (.attempt 0 .first) .acknowledged)
  have h := h.step 3 1 (.signal (.attempt 0 .first) (answer (.setKeyspace "ks")))
  have h := h.step 4 0 (.signal (.inquiry .peersTable) .acknowledged)
  have h := h.step 4 0 (.signal (.inquiry .peersTable) (answer .void))
  have hboth {c log} (hc : Reached c log)
      (hs : (c.session.keyspace, c.session.nodes) = (some "ks", [.sample "10.0.0.2" 1])) :
      c.session.keyspace = some "ks" ∧ c.session.nodes = [.sample "10.0.0.2" 1] ∧
        ∀ n ∈ c.session.nodes, ∃ p, c.session.pools[n.pool]? = some p ∧
          p.told.getLast? = some "ks" := by
    obtain ⟨hk, hn⟩ := Prod.mk.inj hs
    exact ⟨hk, hn, fun n hn => (hc.coherent hk hn).1⟩
  exact ⟨_, _, h, hboth h (by cbv)⟩

end Client

end ClusterClient
