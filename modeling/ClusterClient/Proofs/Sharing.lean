import ClusterClient.Proofs.Refresh

/-!
# Nodes that share a pool

A switch of the keyspace tells the pools node by node, so a pool is told it once for every node it
serves. In a session whose nodes had a pool each at first, two nodes come to share one if a reading
names an address twice that was known by then: both get the pool of the first node known there. An
address that was not known gets as many new pools as it is named times.

`Client.Descends` is every client that comes about from another one, with the addresses known before
its nodes last changed, and `Session.Shares` what these addresses say about the pools.
`Client.Course.tells_pools` is what a switch does then, and `Client.Course.tells_pool_twice` one that
tells a pool twice.
-/

namespace ClusterClient

namespace Session

variable {provide : Address → Pool} {s t : Session} {infos : List NodeInfo} {nodes : List Node}
  {acts : List PoolAct} {known : List Address} {n : Node}

theorem lacks_eq_false : s.lacks n = false ↔ n.address ∈ s.nodes.map (·.address) := by
  simp [lacks]

/-- Which nodes share a pool, where `known` are the addresses known before the nodes last changed. -/
structure Shares (known : List Address) (s : Session) : Prop where
  served : ∀ n ∈ s.nodes, n.pool < s.pools.length
  /-- Only nodes at one address do. -/
  address : ∀ n ∈ s.nodes, ∀ m ∈ s.nodes, n.pool = m.pool → n.address = m.address
  /-- None do exactly if no known address was named twice. -/
  nodup_iff : (s.nodes.map (·.pool)).Nodup ↔
    ((s.nodes.filter (·.address ∈ known)).map (·.address)).Nodup

/-- Nodes that had a pool each from the start share none. -/
theorem Shares.start (hserved : ∀ n ∈ s.nodes, n.pool < s.pools.length)
    (hdistinct : (s.nodes.map (·.pool)).Nodup) : s.Shares [] where
  served := hserved
  address n hn m hm hpool := by rw [List.inj_on_of_nodup_map hdistinct hn hm hpool]
  nodup_iff := by simp [hdistinct]

/-- Sharing is about the nodes, as long as no pool is lost. -/
theorem Shares.congr (h : s.Shares known) (hnodes : t.nodes = s.nodes)
    (hlength : s.pools.length ≤ t.pools.length) : t.Shares known where
  served n hn := Nat.lt_of_lt_of_le (h.served n (hnodes ▸ hn)) hlength
  address := by
    rw [hnodes]
    exact h.address
  nodup_iff := by
    rw [hnodes]
    exact h.nodup_iff

/-- No pool is lost by whatever touches a session. -/
theorem Touched.length_le (h : s.Touched t acts) : s.pools.length ≤ t.pools.length := by
  cases h with
  | kept he => rw [(apart_eq he).2.2]
  | switched k he => simp [useKeyspace_pools, (apart_eq he).2.2]
  | adopted provide infos => simp [(adopts_adopt provide s infos).pools]

/-- There is a first node at a known address. -/
theorem exists_first (h : s.lacks n = false) :
    ∃ m, s.nodes.find? (·.address = n.address) = some m :=
  Option.isSome_iff_exists.1 (by simpa [lacks] using h)

/-- A node at a known address gets the pool of the first node there. -/
theorem Adopts.pool_of_known (h : Adopts provide s t infos nodes acts) (hn : n ∈ nodes)
    (hlacks : s.lacks n = false) : ∃ m ∈ s.nodes, m.address = n.address ∧ n.pool = m.pool := by
  obtain ⟨m, hm⟩ := exists_first hlacks
  exact ⟨m, List.mem_of_find?_eq_some hm, by simpa using List.find?_some hm, h.known n hn m hm⟩

/-- Every other node gets a pool that was not there. -/
theorem Adopts.pool_of_new (h : Adopts provide s t infos nodes acts) (hn : n ∈ nodes)
    (hlacks : s.lacks n = true) : s.pools.length ≤ n.pool ∧ n.pool < t.pools.length := by
  have hmem : n.pool ∈ (nodes.filter s.lacks).map (·.pool) :=
    List.mem_map.2 ⟨n, List.mem_filter.2 ⟨hn, hlacks⟩, rfl⟩
  rw [h.numbers, List.mem_range'_1] at hmem
  have hlength : t.pools.length = s.pools.length + (nodes.filter s.lacks).length := by
    rw [h.pools, List.length_append, List.length_map]
  rw [hlength]
  exact hmem

/-- No two nodes get the same new pool. -/
theorem Adopts.nodup_new (h : Adopts provide s t infos nodes acts) :
    ((nodes.filter s.lacks).map (·.pool)).Nodup := by
  rw [h.numbers]
  exact List.nodup_range'

/-- A new pool is none that was there. -/
theorem Adopts.ne_of_lacks (h : Adopts provide s t infos nodes acts)
    (hserved : ∀ n ∈ s.nodes, n.pool < s.pools.length) {m : Node} (hn : n ∈ nodes) (hm : m ∈ nodes)
    (hnew : s.lacks n = true) (hknown : s.lacks m = false) : n.pool ≠ m.pool := by
  obtain ⟨m', hm', -, hpool⟩ := h.pool_of_known hm hknown
  rw [hpool]
  exact Nat.ne_of_gt (Nat.lt_of_lt_of_le (hserved m' hm') (h.pool_of_new hn hnew).1)

/-- The nodes taken over have a pool each if those at known addresses do. -/
theorem Adopts.nodup_iff_known (h : Adopts provide s t infos nodes acts)
    (hserved : ∀ n ∈ s.nodes, n.pool < s.pools.length) :
    (nodes.map (·.pool)).Nodup ↔ ((nodes.filter (!s.lacks ·)).map (·.pool)).Nodup := by
  have hperm := (List.filter_append_perm s.lacks nodes).map (·.pool)
  rw [← hperm.nodup_iff, List.map_append, List.nodup_append]
  constructor
  · exact fun hnodup => hnodup.2.1
  · -- New pools differ from each other, so they only have to be none of the old ones.
    refine fun hnodup => ⟨h.nodup_new, hnodup, fun p hp q hq => ?_⟩
    obtain ⟨n, hn, rfl⟩ := List.mem_map.1 hp
    obtain ⟨m, hm, rfl⟩ := List.mem_map.1 hq
    obtain ⟨hn, hnew⟩ := List.mem_filter.1 hn
    obtain ⟨hm, hknown⟩ := List.mem_filter.1 hm
    exact h.ne_of_lacks hserved hn hm hnew (by simpa using hknown)

/-- Nodes that share a pool after they were taken over are at one address. -/
theorem Adopts.address_eq (h : Adopts provide s t infos nodes acts) (hs : s.Shares known) {m : Node}
    (hn : n ∈ nodes) (hm : m ∈ nodes) (hpool : n.pool = m.pool) : n.address = m.address := by
  cases hnlacks : s.lacks n with
  | true =>
    cases hmlacks : s.lacks m with
    | true =>
      have hmem {v : Node} (hv : v ∈ nodes) (hlacks : s.lacks v = true) :
          v ∈ nodes.filter s.lacks := List.mem_filter.2 ⟨hv, hlacks⟩
      rw [List.inj_on_of_nodup_map h.nodup_new (hmem hn hnlacks) (hmem hm hmlacks) hpool]
    | false => exact absurd hpool (h.ne_of_lacks hs.served hn hm hnlacks hmlacks)
  | false =>
    cases hmlacks : s.lacks m with
    | true => exact absurd hpool.symm (h.ne_of_lacks hs.served hm hn hmlacks hnlacks)
    | false =>
      obtain ⟨n', hn', hnaddress, hnpool⟩ := h.pool_of_known hn hnlacks
      obtain ⟨m', hm', hmaddress, hmpool⟩ := h.pool_of_known hm hmlacks
      rw [← hnaddress, ← hmaddress]
      exact hs.address n' hn' m' hm' (by rw [← hnpool, hpool, hmpool])

/-- At known addresses the pool says which address it is, and the other way round. -/
theorem Adopts.pool_eq_iff (h : Adopts provide s t infos nodes acts) (hs : s.Shares known) {m : Node}
    (hn : n ∈ nodes) (hm : m ∈ nodes) (hknown : s.lacks n = false) :
    n.pool = m.pool ↔ n.address = m.address := by
  constructor
  · exact h.address_eq hs hn hm
  · intro haddress
    obtain ⟨first, hfirst⟩ := exists_first hknown
    rw [h.known n hn first hfirst, h.known m hm first (by rw [← haddress]; exact hfirst)]

/-- **Nodes taken over share a pool exactly if their address was known and is named again.** -/
theorem Adopts.shares_known (h : Adopts provide s t infos t.nodes acts) (hs : s.Shares known) :
    t.Shares (s.nodes.map (·.address)) where
  served n hn := by
    cases hlacks : s.lacks n with
    | true => exact (h.pool_of_new hn hlacks).2
    | false =>
      obtain ⟨m, hm, -, hpool⟩ := h.pool_of_known hn hlacks
      have hlength : s.pools.length ≤ t.pools.length := by simp [h.pools]
      rw [hpool]
      exact Nat.lt_of_lt_of_le (hs.served m hm) hlength
  address n hn m hm := h.address_eq hs hn hm
  nodup_iff := by
    have hfilter : t.nodes.filter (!s.lacks ·) =
        t.nodes.filter (·.address ∈ s.nodes.map (·.address)) := by
      refine List.filter_congr fun n _ => ?_
      rw [Bool.eq_iff_iff, Bool.not_eq_true', lacks_eq_false, decide_eq_true_eq]
    rw [h.nodup_iff_known hs.served, ← hfilter, List.Nodup, List.Nodup, List.pairwise_map,
      List.pairwise_map]
    refine List.Pairwise.iff_of_mem fun {n m} hn hm => not_congr ?_
    obtain ⟨hn, hknown⟩ := List.mem_filter.1 hn
    exact h.pool_eq_iff hs hn (List.mem_filter.1 hm).1 (by simpa using hknown)

/-- The addresses known before the nodes last changed, after a step. -/
def knownAfter (s t : Session) (known : List Address) : List Address :=
  if t.nodes = s.nodes then known else s.nodes.map (·.address)

/-- Whatever touches a session keeps what the known addresses say about the pools. -/
theorem Shares.touched (h : s.Shares known) (ht : s.Touched t acts) :
    t.Shares (s.knownAfter t known) := by
  unfold knownAfter
  split
  · next hnodes => exact h.congr hnodes ht.length_le
  · next hnodes =>
    -- Only taking nodes over changes them.
    cases ht with
    | kept he => exact absurd (apart_eq he).1 hnodes
    | switched k he => exact absurd ((useKeyspace_nodes _ k).trans (apart_eq he).1) hnodes
    | adopted provide infos => exact (adopts_adopt provide s infos).shares_known h

end Session

namespace Client

/-- The clients that come about from one, with the addresses known before their nodes last changed.
All but the nodes and the number of pools may change at any time. -/
inductive Descends (c₀ : Client) : List Address → Client → Prop
  | self : Descends c₀ [] c₀
  | start {known : List Address} {c : Client} (now : Nat) (o : Operation) :
      Descends c₀ known c →
      Descends c₀ (c.session.knownAfter (c.start now o).1.session known) (c.start now o).1
  | step {known : List Address} {c : Client} (now n : Nat) (h : Happening) :
      Descends c₀ known c →
      Descends c₀ (c.session.knownAfter (c.step now n h).1.session known) (c.step now n h).1
  | elsewhere {known : List Address} {c d : Client} :
      Descends c₀ known c → d.session.nodes = c.session.nodes →
      d.session.pools.length = c.session.pools.length → Descends c₀ known d

variable {c₀ c : Client} {known : List Address}

/-- **In every client that comes from one with a pool for each node, two nodes share a pool only if
their address was known before and is named twice since.** -/
theorem Descends.sharing (h : c₀.Descends known c)
    (hserved : ∀ n ∈ c₀.session.nodes, n.pool < c₀.session.pools.length)
    (hdistinct : (c₀.session.nodes.map (·.pool)).Nodup) : c.session.Shares known := by
  induction h with
  | self => exact .start hserved hdistinct
  | start now o _ ih => exact ih.touched (start_touched _ now o)
  | step now n h _ ih => exact ih.touched (step_touched _ now n h)
  | elsewhere _ hnodes hlength ih => exact ih.congr hnodes (Nat.le_of_eq hlength.symm)

/-- A refresh by itself: what happens to it from the start until it has heard from both tables. -/
def reading (own peers : List String) : List Happening :=
  let rows (hosts : List String) : Rows :=
    .ofCells ["rpc_address"] (hosts.map fun host => [some (.inet ⟨host⟩)]) none
  let answer (hosts : List String) : Signal := .delivered (.ok ⟨.result (.rows (rows hosts)), .none⟩)
  [.resume, .signal (.inquiry .localTable) .acknowledged,
    .signal (.inquiry .peersTable) .acknowledged, .signal (.inquiry .localTable) (answer own),
    .signal (.inquiry .peersTable) (answer peers)]

/-- What comes of a client by what happens to a task, with the addresses known before. -/
def follow (n : Nat) (state : List Address × Client) (hs : List Happening) :
    List Address × Client :=
  hs.foldl (fun (known, c) h =>
    (c.session.knownAfter (c.step 0 n h).1.session known, (c.step 0 n h).1)) state

theorem Descends.follow (h : c₀.Descends known c) (n : Nat) (hs : List Happening) :
    c₀.Descends (Client.follow n (known, c) hs).1 (Client.follow n (known, c) hs).2 := by
  induction hs generalizing known c with
  | nil => exact h
  | cons e hs ih => exact ih (h.step 0 n e)

/-- A refresh that comes about by itself leaves a client that has the nodes and as many pools as
another one. -/
theorem Descends.of_reading (provide : Address → Pool) (own peers : List String) {d : Client}
    (hd : let started := (c₀.start 0 (.refreshCluster provide)).1
      let state := Client.follow c₀.nextTask
        (c₀.session.knownAfter started.session [], started) (reading own peers)
      (state.1, state.2.session.nodes, state.2.session.pools.length) =
        (known, d.session.nodes, d.session.pools.length)) : c₀.Descends known d := by
  have h : c₀.Descends [] c₀ := .self
  have h := (h.start 0 (.refreshCluster provide)).follow c₀.nextTask (reading own peers)
  simp only [Prod.mk.injEq] at hd
  obtain ⟨rfl, hnodes, hlength⟩ := hd
  exact h.elsewhere hnodes.symm hlength.symm

section
variable {n : Nat} {purpose : Purpose} {terms : Terms} {strides : List Stride} {x : Execution}

/-- No stride of an execution changes the nodes. -/
theorem Course.nodes_eq (h : Course n purpose terms strides x) {s : Stride} (hs : s ∈ strides) :
    s.after.session.nodes = s.before.session.nodes := by
  have htouching := h.law.touching
  cases hk : x.result?.bind switchOf? with
  | none =>
    rw [hk] at htouching
    exact (htouching s hs).nodes
  | some k =>
    rw [hk] at htouching
    obtain ⟨earlier, d, later, rfl, hd, -, hquiet⟩ := htouching
    rw [List.mem_append, List.mem_cons] at hs
    obtain hs | rfl | hs := hs
    · exact (hquiet s (List.mem_append_left _ hs)).nodes
    · exact hd.nodes
    · exact (hquiet s (List.mem_append_right _ hs)).nodes

/-- A call that is executed starts a course. -/
theorem Descends.course (hc : c₀.Descends known c) (now : Nat) {o : Operation}
    {config : StatementConfig} {call : Call} (ho : o.call? = some (config, call, purpose)) :
    let terms := Terms.ofCall c.session config call
    let s : Stride :=
      ⟨{ c with nextTask := c.nextTask + 1 }, (c.start now o).1, (c.start now o).2⟩
    Course c.nextTask purpose terms ([] ++ [s])
      (Execution.start terms.environment terms.settings terms.speculation now
        c.session).execution ∧
    ∀ t ∈ [] ++ [s], c₀.Descends known t.before ∧ c₀.Descends known t.after := by
  intro terms s
  have hcourse : Course c.nextTask purpose terms ([] ++ [s])
      (Execution.start terms.environment terms.settings terms.speculation now
        c.session).execution := by
    simp only [s, Client.start, begin_of_call ho]
    exact .start _ now config call rfl
  have hafter := hc.start now o
  rw [Session.knownAfter, if_pos (hcourse.nodes_eq List.mem_concat_self)] at hafter
  exact ⟨hcourse, List.forall_mem_singleton.2 ⟨hc.elsewhere rfl rfl, hafter⟩⟩

/-- A course goes on by itself. -/
theorem Course.onward {s : Stride} (h : Course n purpose terms (strides ++ [s]) x)
    (hs : ∀ t ∈ strides ++ [s], c₀.Descends known t.before ∧ c₀.Descends known t.after) (now : Nat)
    (e : Happening) :
    let d : Stride := ⟨s.after, (s.after.step now n e).1, (s.after.step now n e).2⟩
    Course n purpose terms (strides ++ [s] ++ [d]) (x.proceed terms now s.after.session e) ∧
    ∀ t ∈ strides ++ [s] ++ [d], c₀.Descends known t.before ∧ c₀.Descends known t.after := by
  intro d
  have hcourse : Course n purpose terms (strides ++ [s] ++ [d])
      (x.proceed terms now s.after.session e) := h.next id (fun _ => rfl) now e
  have hbefore := (hs s List.mem_concat_self).2
  have hafter := hbefore.step now n e
  rw [Session.knownAfter, if_pos (hcourse.nodes_eq List.mem_concat_self)] at hafter
  exact ⟨hcourse, List.forall_mem_append.2 ⟨hs, List.forall_mem_singleton.2 ⟨hbefore, hafter⟩⟩⟩

/-- **Which pools a switch tells how often.** In all clients that come from one with a pool for each
node, an execution that switches the keyspace tells the pools in one stride, once for each node
known by then. Two nodes share a pool only if they are at one address. Each pool is told once exactly
if no address that was known before the nodes last changed was named twice then. -/
theorem Course.tells_pools (h : Course n purpose terms strides x)
    (hserved : ∀ n ∈ c₀.session.nodes, n.pool < c₀.session.pools.length)
    (hdistinct : (c₀.session.nodes.map (·.pool)).Nodup)
    (hfrom : ∀ s ∈ strides, ∃ known, c₀.Descends known s.before)
    {answer : Answer} {info : ExecutionInfo} {k : String}
    (hr : x.result? = some (.ok (answer, info))) (hk : answer.body.keyspace? = some k) :
    ∃ earlier d later, strides = earlier ++ d :: later ∧ (∀ s ∈ earlier ++ later, s.pools = []) ∧
      let nodes := d.before.session.nodes
      d.after.session.nodes = nodes ∧ d.pools = nodes.map (.told ·.pool k) ∧
      (∀ n ∈ nodes, ∀ m ∈ nodes, n.pool = m.pool → n.address = m.address) ∧
      ∀ known, c₀.Descends known d.before →
        ((∀ n ∈ nodes, d.pools.count (.told n.pool k) = 1) ↔
          ((nodes.filter (·.address ∈ known)).map (·.address)).Nodup) := by
  have htouching := h.law.touching
  rw [result?_bind_switchOf?.2 ⟨answer, info, hr, hk⟩] at htouching
  obtain ⟨earlier, d, later, rfl, hd, -, hquiet⟩ := htouching
  obtain ⟨known, hknown⟩ := hfrom d (by simp)
  refine ⟨earlier, d, later, rfl, fun s hs => (hquiet s hs).untold, hd.nodes, hd.told,
    (hknown.sharing hserved hdistinct).address, fun known hknown => ?_⟩
  rw [← (hknown.sharing hserved hdistinct).nodup_iff, List.nodup_iff_count_eq_one, hd.told]
  have hcount (p : PoolId) : (d.before.session.nodes.map fun n => PoolAct.told n.pool k).count
      (.told p k) = (d.before.session.nodes.map (·.pool)).count p := by
    have hinjective : Function.Injective (PoolAct.told · k) := fun p q hpq => by simpa using hpq
    rw [← List.count_map_of_injective _ _ hinjective, List.map_map]
    rfl
  simp [hcount]

end

/-- A reading names a known node, and twice an address that is not known. Each of the three pools is
told once. -/
theorem Course.tells_pools_new_named_twice :
    let nodes : List Node := [.sample "10.0.0.1" 0, .sample "10.0.0.9" 3, .sample "10.0.0.9" 4]
    ∃ (n : Nat) (terms : Terms) (strides : List Stride) (x : Execution),
      Course n .rows terms strides x ∧
      (∀ s ∈ strides, ∃ known, (fresh .sample).Descends known s.before) ∧
      ∃ d ∈ strides, d.before.session.nodes = nodes ∧
        ∀ n ∈ nodes, d.pools.count (.told n.pool "ks") = 1 := by
  intro nodes
  let pool (host : String) : Pool := ⟨⟨⟨host⟩, 9042⟩, none, []⟩
  let known : List Address := [⟨⟨"10.0.0.1"⟩, 9042⟩, ⟨⟨"10.0.0.2"⟩, 9042⟩]
  let c : Client := fresh { Session.sample with
    nodes := nodes
    pools := ["10.0.0.1", "10.0.0.2", "10.0.0.3", "10.0.0.9", "10.0.0.9"].map pool }
  have hc : (fresh .sample).Descends known c :=
    .of_reading (⟨·, none, []⟩) ["10.0.0.1"] ["10.0.0.9", "10.0.0.9"] (by cbv)
  obtain ⟨h₀, e₀⟩ := hc.course 4 (o := .query (.ofText "USE ks") [] .unpaged) rfl
  obtain ⟨h₁, e₁⟩ := h₀.onward e₀ 5 (.signal (.attempt 0 .first) .acknowledged)
  obtain ⟨h₂, e₂⟩ := h₁.onward e₁ 6 (.signal (.attempt 0 .first)
    (.delivered (.ok ⟨.result (.setKeyspace "ks"), .none⟩)))
  let info : ExecutionInfo := { ExecutionInfo.empty with
    coordinator := some ⟨.sample "10.0.0.1" 0, ⟨⟨"10.0.0.1"⟩, 9042⟩⟩
    successIndex := some 0 }
  have once {n : Nat} {terms : Terms} {strides : List Stride} {x : Execution}
      (h : Course n .rows terms strides x)
      (hs : ∀ s ∈ strides, (fresh .sample).Descends known s.before ∧
        (fresh .sample).Descends known s.after)
      (hr : x.result? = some (.ok (⟨.setKeyspace "ks", .none⟩, info)))
      (hnodes : strides.map (·.before.session.nodes) = .replicate 3 nodes) :
      ∃ d ∈ strides, d.before.session.nodes = nodes ∧
        ∀ n ∈ nodes, d.pools.count (.told n.pool "ks") = 1 := by
    obtain ⟨earlier, d, later, hstrides, -, -, -, -, hiff⟩ :=
      h.tells_pools (by decide) (by decide) (fun s hmem => ⟨known, (hs s hmem).1⟩) hr rfl
    have hd : d ∈ strides := by simp [hstrides]
    have hdnodes : d.before.session.nodes = nodes :=
      List.eq_of_mem_replicate (hnodes ▸ List.mem_map.2 ⟨d, hd, rfl⟩)
    rw [hdnodes] at hiff
    exact ⟨d, hd, hdnodes, (hiff known (hs d hd).1).2 (by decide)⟩
  exact ⟨_, _, _, _, h₂, fun s hmem => ⟨_, (e₂ s hmem).1⟩, once h₂ e₂ (by cbv) (by cbv)⟩

/-- A reading names one known node twice. The pool of that node is told twice. -/
theorem Course.tells_pool_twice :
    let nodes : List Node := [.sample "10.0.0.1" 0, .sample "10.0.0.2" 1, .sample "10.0.0.2" 1]
    ((fresh .sample).session.nodes.map (·.pool)).Nodup ∧
    ∃ (n : Nat) (terms : Terms) (strides : List Stride) (x : Execution) (info : ExecutionInfo)
      (d : Stride), Course n .rows terms strides x ∧
      (∀ s ∈ strides, ∃ known, (fresh .sample).Descends known s.before) ∧
      x.result? = some (.ok (⟨.setKeyspace "ks", .none⟩, info)) ∧
      d ∈ strides ∧ d.after.session.nodes = nodes ∧
      d.pools = [.told 0 "ks", .told 1 "ks", .told 1 "ks"] := by
  intro nodes
  let c : Client := fresh { Session.sample with nodes := nodes }
  have hc : (fresh .sample).Descends [⟨⟨"10.0.0.1"⟩, 9042⟩, ⟨⟨"10.0.0.2"⟩, 9042⟩] c :=
    .of_reading (⟨·, none, []⟩) ["10.0.0.1"] ["10.0.0.2", "10.0.0.2"] (by cbv)
  obtain ⟨h₀, e₀⟩ := hc.course 4 (o := .query (.ofText "USE ks") [] .unpaged) rfl
  obtain ⟨h₁, e₁⟩ := h₀.onward e₀ 5 (.signal (.attempt 0 .first) .acknowledged)
  obtain ⟨h₂, e₂⟩ := h₁.onward e₁ 6 (.signal (.attempt 0 .first)
    (.delivered (.ok ⟨.result (.setKeyspace "ks"), .none⟩)))
  let info : ExecutionInfo := { ExecutionInfo.empty with
    coordinator := some ⟨.sample "10.0.0.1" 0, ⟨⟨"10.0.0.1"⟩, 9042⟩⟩
    successIndex := some 0 }
  exact ⟨(by decide), _, _, _, _, info, _, h₂, fun s hmem => ⟨_, (e₂ s hmem).1⟩, by cbv,
    List.mem_concat_self, by cbv, by cbv⟩

end Client

end ClusterClient
