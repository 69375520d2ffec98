import ClusterClient.Proofs.Coherence
import ClusterClient.Proofs.Errand

/-!
# Refreshing the nodes

When the nodes of the cluster were read, a session takes them over (`Session.adopt`). There is one
node for each that can be connected to, in the order of the reading; a node at a known address has
the pool of the first known node there, and each other node a new pool, which is told the keyspace
in use (`Session.Adopts`).

`Client.Refreshing` says how far a refresh has come: both tables are read, and then the nodes are
taken over in one stride, from what came for the two questions. All its other strides are quiet, and
a refresh that fails has none but these. Since every step of a client keeps the nodes or takes some
over, a node's pool stays with its address (`Client.Holding.poolAt_eq`).
-/

namespace ClusterClient

/-- What a reading says of a node that can be connected to. -/
def NodeInfo.described? (info : NodeInfo) :
    Option (Address × Option Host × Option String × Option String) :=
  info.connect.map (·, info.broadcast, info.datacenter, info.rack)

/-- The same of a known node. -/
def Node.described (n : Node) : Address × Option Host × Option String × Option String :=
  (n.address, n.broadcast, n.datacenter, n.rack)

/-- The nodes of a reading: the control node, then its peers in their order. -/
def Listing.infos (resolve : Address → Address) (port : UInt16) (own : Row) (peers : List Row) :
    List NodeInfo :=
  .ofRow resolve port .localNode own :: peers.map (.ofRow resolve port .peers)

namespace Session

/-- Whether no known node is at the address of a node. -/
def lacks (s : Session) (n : Node) : Bool :=
  (s.nodes.find? (·.address = n.address)).isNone

/-- A new pool, which is told the keyspace in use. -/
def welcome (s : Session) (pool : Pool) : Pool :=
  { pool with told := pool.told ++ s.keyspace.toList }

/-- What is done to make the pool of a node. -/
def welcoming (s : Session) (n : Node) : List PoolAct :=
  .opened n.pool n.address :: s.keyspace.toList.map (.told n.pool)

/-- How far a session has come with taking over the nodes of a reading, where `t` is the session by
now and `nodes` are those taken over. -/
structure Adopts (provide : Address → Pool) (s t : Session) (infos : List NodeInfo)
    (nodes : List Node) (acts : List PoolAct) : Prop where
  keyspace : t.keyspace = s.keyspace
  described : nodes.map Node.described = infos.filterMap NodeInfo.described?
  known : ∀ n ∈ nodes, ∀ m, s.nodes.find? (·.address = n.address) = some m → n.pool = m.pool
  numbers : (nodes.filter s.lacks).map (·.pool) =
    List.range' s.pools.length (nodes.filter s.lacks).length
  pools : t.pools = s.pools ++ (nodes.filter s.lacks).map fun n => s.welcome (provide n.address)
  acts_eq : acts = (nodes.filter s.lacks).flatMap s.welcoming

variable {provide : Address → Pool} {s t : Session} {infos : List NodeInfo} {nodes : List Node}
  {acts : List PoolAct}

theorem openPool_eq (t : Session) (pool : Pool) (address : Address) :
    t.openPool pool address t.keyspace =
      ({ t with pools := t.pools ++ [t.welcome pool] },
        .opened t.pools.length address :: t.keyspace.toList.map (.told t.pools.length)) := by
  cases hk : t.keyspace with
  | none => simp [openPool, welcome, hk]
  | some k =>
    simp only [openPool, tell, welcome, hk, Option.toList_some, List.map_cons, List.map_nil]
    rw [List.modify_eq_take_drop]
    simp

theorem Adopts.start (provide : Address → Pool) (s : Session) : Adopts provide s s [] [] [] where
  keyspace := rfl
  described := rfl
  known := nofun
  numbers := rfl
  pools := by simp
  acts_eq := rfl

/-- One more node is taken over. -/
theorem Adopts.one (h : Adopts provide s t infos nodes acts) (info : NodeInfo) :
    let u := adoptOne provide s.nodes (t, nodes, acts) info
    Adopts provide s u.1 (infos ++ [info]) u.2.1 u.2.2 := by
  rcases adoptOne_cases provide s.nodes t nodes acts info with
    ⟨hconnect, he⟩ | ⟨address, m, hconnect, hm, he⟩ | ⟨address, hconnect, hm, he⟩
  · rw [he]
    exact { h with described := by simp [h.described, NodeInfo.described?, hconnect] }
  · rw [he]
    have hlacks : s.lacks (entry info address m.pool) = false :=
      congrArg Option.isNone hm
    refine ⟨h.keyspace, ?_, ?_, ?_, ?_, ?_⟩
    · simp [h.described, NodeInfo.described?, hconnect, Node.described, entry]
    · intro n hn m' hm'
      rcases List.mem_append.1 hn with hn | hn
      · exact h.known n hn m' hm'
      · obtain rfl := List.mem_singleton.1 hn
        rw [show (entry info address m.pool).address = address from rfl, hm] at hm'
        cases hm'
        rfl
    all_goals simp only [List.filter_append, List.filter_cons, hlacks, List.filter_nil,
      List.append_nil, Bool.false_eq_true, if_false]
    · exact h.numbers
    · exact h.pools
    · exact h.acts_eq
  · rw [he, openPool_eq]
    have hlength : t.pools.length = s.pools.length + (nodes.filter s.lacks).length := by
      rw [h.pools, List.length_append, List.length_map]
    have hlacks : s.lacks (entry info address t.pools.length) = true :=
      congrArg Option.isNone hm
    have hfilter : (nodes ++ [entry info address t.pools.length]).filter s.lacks =
        nodes.filter s.lacks ++ [entry info address t.pools.length] := by
      simp [hlacks]
    refine ⟨h.keyspace, ?_, ?_, ?_, ?_, ?_⟩
    · simp [h.described, NodeInfo.described?, hconnect, Node.described, entry]
    · intro n hn m' hm'
      rcases List.mem_append.1 hn with hn | hn
      · exact h.known n hn m' hm'
      · obtain rfl := List.mem_singleton.1 hn
        rw [show (entry info address t.pools.length).address = address from rfl, hm] at hm'
        cases hm'
    · rw [hfilter, List.map_append, h.numbers, List.length_append, List.length_singleton,
        List.range'_concat]
      simp [entry, hlength]
    · rw [hfilter, List.map_append, ← List.append_assoc, ← h.pools]
      simp [entry, welcome, h.keyspace]
    · rw [hfilter, List.flatMap_append, ← h.acts_eq]
      simp [entry, welcoming, h.keyspace]

/-- **Taking over a reading** gives its nodes, and new pools to those that are not known. -/
theorem adopts_adopt (provide : Address → Pool) (s : Session) (infos : List NodeInfo) :
    Adopts provide s (s.adopt provide infos).1 infos (s.adopt provide infos).1.nodes
      (s.adopt provide infos).2 := by
  have hfold : ∀ (done todo : List NodeInfo) (state : Session × List Node × List PoolAct),
      Adopts provide s state.1 done state.2.1 state.2.2 →
      let u := todo.foldl (adoptOne provide s.nodes) state
      Adopts provide s u.1 (done ++ todo) u.2.1 u.2.2 := by
    intro done todo
    induction todo generalizing done with
    | nil => simp
    | cons info todo ih =>
      intro state h
      simpa using ih (done ++ [info]) _ (h.one info)
  obtain ⟨hkeyspace, hdescribed, hknown, hnumbers, hpools, hacts⟩ :=
    hfold [] infos (s, [], []) (.start provide s)
  exact ⟨hkeyspace, hdescribed, hknown, hnumbers, hpools, hacts⟩

/-- The pool of the first node at an address. -/
def poolAt (s : Session) (a : Address) : Option PoolId :=
  (s.nodes.find? (·.address = a)).map (·.pool)

theorem poolAt_congr (h : s.nodes = t.nodes) (a : Address) : s.poolAt a = t.poolAt a := by
  rw [poolAt, poolAt, h]

/-- An address that is there before and after the nodes are taken over keeps its pool. -/
theorem Adopts.poolAt_eq (h : Adopts provide s t infos t.nodes acts) {a : Address}
    (hs : a ∈ s.nodes.map (·.address)) (ht : a ∈ t.nodes.map (·.address)) :
    t.poolAt a = s.poolAt a := by
  have found {u : Session} (hu : a ∈ u.nodes.map (·.address)) :
      ∃ n, u.nodes.find? (·.address = a) = some n ∧ n.address = a := by
    obtain ⟨n, hn, ha⟩ := List.mem_map.1 hu
    have hsome : (u.nodes.find? (·.address = a)).isSome := by
      rw [List.find?_isSome]
      exact ⟨n, hn, by simpa using ha⟩
    obtain ⟨m, hm⟩ := Option.isSome_iff_exists.1 hsome
    exact ⟨m, hm, by simpa using List.find?_some hm⟩
  obtain ⟨m, hm, -⟩ := found hs
  obtain ⟨n, hn, rfl⟩ := found ht
  have hpool := h.known n (List.mem_of_find?_eq_some hn) m hm
  simp [poolAt, hn, hm, hpool]

/-- Whatever touches a session leaves the pool to an address that stays. -/
theorem Touched.poolAt_eq (h : s.Touched t acts) {a : Address}
    (hs : a ∈ s.nodes.map (·.address)) (ht : a ∈ t.nodes.map (·.address)) :
    t.poolAt a = s.poolAt a := by
  cases h with
  | kept he => exact poolAt_congr (apart_eq he).1 a
  | switched k he => exact poolAt_congr ((useKeyspace_nodes _ k).trans (apart_eq he).1) a
  | adopted provide infos => exact (adopts_adopt provide s infos).poolAt_eq hs ht

end Session

theorem Listing.nodes_of_result {m : Monitor} {l : Listing} {reading : Reading}
    (h : l.result? m = some (.ok reading)) : ∃ own others peers,
      l.localInquiry.result = some (.ok (own :: others)) ∧
      l.peersInquiry.bind (·.result) = some (.ok peers) ∧
      reading.nodes = infos m.resolve l.port own peers := by
  unfold result? at h
  split at h
  · cases h
  · cases h
  · next own peers hown hpeers =>
    cases own with
    | nil => simp [combine] at h
    | cons own others =>
      refine ⟨own, others, peers, hown, hpeers, ?_⟩
      simp only [combine, Option.some.injEq, Except.ok.injEq] at h
      subst h
      simp [Reading.nodes, infos, Monitor.info, Function.comp_def]
  · cases h

/-- What a node answered an inquiry with, among what happened. -/
def Happening.Answered (part : Part) (rows : List Row) (hs : List Happening) : Prop :=
  ∃ before r after, hs = before ++ .signal (.inquiry part) (.delivered (.ok r)) :: after ∧
    .signal (.inquiry part) .acknowledged ∈ before ∧ Inquiry.rowsOf r = .ok rows

theorem Happening.Answered.append {part : Part} {rows : List Row} {hs : List Happening}
    (h : Answered part rows hs) (more : List Happening) : Answered part rows (hs ++ more) := by
  obtain ⟨before, r, after, rfl, hacknowledged, hr⟩ := h
  exact ⟨before, r, after ++ more, by simp, hacknowledged, hr⟩

/-- An inquiry has what came for it and nothing else. -/
structure Inquiry.Heard (part : Part) (hs : List Happening) (i : Inquiry) : Prop where
  acknowledged : i.acknowledged = true → .signal (.inquiry part) .acknowledged ∈ hs
  result : ∀ rows, i.result = some (.ok rows) → Happening.Answered part rows hs

/-- For an inquiry that has just been put, nothing came yet. -/
theorem Inquiry.Heard.fresh {i : Inquiry} (hacknowledged : i.acknowledged = false)
    (hresult : i.result = none) (part : Part) (hs : List Happening) : i.Heard part hs :=
  ⟨by simp [hacknowledged], by simp [hresult]⟩

theorem Inquiry.Heard.append {part : Part} {hs : List Happening} {i : Inquiry}
    (hi : i.Heard part hs) (h : Happening) : i.Heard part (hs ++ [h]) :=
  ⟨fun ha => List.mem_append_left _ (hi.acknowledged ha),
    fun rows hr => (hi.result rows hr).append _⟩

namespace Client

theorem heard_inquiryAfter {part : Part} {hs : List Happening} {i : Inquiry}
    (hi : i.Heard part hs) (h : Happening) : (inquiryAfter part h i).Heard part (hs ++ [h]) := by
  have hold : i.Heard part (hs ++ [h]) := hi.append h
  unfold inquiryAfter
  split
  · next p signal =>
    split
    · next hp =>
      subst hp
      unfold Inquiry.react
      split
      · next he =>
        cases signal with
        | acknowledged => exact ⟨fun _ => by simp, hold.result⟩
        | writeFailed cause => exact ⟨hold.acknowledged, by simp⟩
        | delivered d =>
          cases d with
          | error cause => exact ⟨hold.acknowledged, by simp⟩
          | ok r =>
            refine ⟨hold.acknowledged, fun rows hr => ⟨hs, r, [], rfl, hi.acknowledged ?_, ?_⟩⟩
            · simpa [Inquiry.expects] using (Bool.and_eq_true_iff.1 he).2
            · simpa using hr
      · exact hold
    · exact hold
  · split
    · unfold Inquiry.expire
      split
      · exact hold
      · exact ⟨hold.acknowledged, by simp⟩
    · exact hold
  · exact hold

/-- The stride in which a refresh takes the nodes over: those that were read in the two tables, at
the port the monitor has for its connection at first. -/
structure TakesOver (n : Nat) (provide : Address → Pool) (first d : Stride)
    (hs : List Happening) : Prop where
  finished : .finished n (.refreshed (.ok ())) ∈ d.notices
  adopts : ∃ connection own others peers, first.before.control.connection = .ok connection ∧
    Happening.Answered .localTable (own :: others) hs ∧ Happening.Answered .peersTable peers hs ∧
    d.before.session.Adopts provide d.after.session
      (Listing.infos d.before.monitor.resolve (first.before.monitor.sharedPort connection) own
        peers)
      d.after.session.nodes d.pools

theorem TakesOver.append {n : Nat} {provide : Address → Pool} {first d : Stride}
    {hs : List Happening} (ht : TakesOver n provide first d hs) (h : Happening) :
    TakesOver n provide first d (hs ++ [h]) where
  finished := ht.finished
  adopts := by
    obtain ⟨connection, own, others, peers, hconnection, hown, hpeers, hadopts⟩ := ht.adopts
    exact ⟨connection, own, others, peers, hconnection, hown.append _, hpeers.append _, hadopts⟩

/-- How far a refresh has come. -/
inductive Refreshing (n : Nat) (provide : Address → Pool) (strides : List Stride)
    (hs : List Happening) : Prop
  | reading {first last : Stride} {connection : Connection} {l : Listing} :
      strides.head? = some first → strides.getLast? = some last →
      last.after.task? n = some (.listing l (some provide)) →
      first.before.control.connection = .ok connection →
      l.port = first.before.monitor.sharedPort connection →
      l.localInquiry.Heard .localTable hs →
      (∀ i, l.peersInquiry = some i → i.Heard .peersTable hs) →
      (∀ o, .finished n o ∉ strides.flatMap Stride.notices) → (∀ s ∈ strides, s.Quiet) →
      Refreshing n provide strides hs
  | failed {last : Stride} (e : MetadataError) :
      strides.getLast? = some last → last.after.task? n = none →
      (∀ o, .finished n o ∈ strides.flatMap Stride.notices → o = .refreshed (.error e)) →
      (∀ s ∈ strides, s.Quiet) → Refreshing n provide strides hs
  | done {first last d : Stride} {earlier later : List Stride} :
      strides.getLast? = some last → last.after.task? n = none →
      (∀ o, .finished n o ∈ strides.flatMap Stride.notices → o = .refreshed (.ok ())) →
      strides = earlier ++ d :: later → strides.head? = some first →
      (∀ s ∈ earlier ++ later, s.Quiet) → TakesOver n provide first d hs →
      Refreshing n provide strides hs

section
variable {n : Nat} {provide : Address → Pool} {strides : List Stride} {hs : List Happening}

/-- A stride that leaves the session as it is and does nothing to the pools is quiet. -/
theorem quiet_of_session {s : Stride} (h : s.after.session = s.before.session)
    (hpools : s.pools = []) : s.Quiet :=
  ⟨by rw [h], by rw [h], by rw [h], hpools⟩

/-- A refresh goes on, fails or takes the nodes over when its questions have moved. -/
theorem Refreshing.settle {first : Stride} {connection : Connection} {l : Listing} (c : Client)
    (hfirst : strides.head? = some first)
    (hconnection : first.before.control.connection = .ok connection)
    (hport : l.port = first.before.monitor.sharedPort connection)
    (hlocal : l.localInquiry.Heard .localTable hs)
    (hpeers : ∀ i, l.peersInquiry = some i → i.Heard .peersTable hs)
    (hunfinished : ∀ o, .finished n o ∉ strides.flatMap Stride.notices)
    (hquiet : ∀ s ∈ strides, s.Quiet) :
    Refreshing n provide
      (strides ++ [⟨c, (c.settleListing n l (some provide)).1,
        (c.settleListing n l (some provide)).2⟩]) hs := by
  have hhead (s : Stride) : (strides ++ [s]).head? = some first := by simp [hfirst]
  have hall {s : Stride} (hs : s.Quiet) : ∀ t ∈ strides ++ [s], t.Quiet := by
    simpa [or_imp, forall_and] using ⟨hquiet, hs⟩
  cases hr : l.result? c.monitor with
  | none =>
    have hsettle : c.settleListing n l (some provide) =
        (c.put n (.listing l (some provide)), []) := by
      simp [settleListing, hr]
    rw [hsettle]
    refine .reading (hhead _) List.getLast?_concat (task?_put c n _) hconnection hport hlocal hpeers
      (by simpa using hunfinished) (hall (quiet_of_session ?_ rfl))
    exact put_session c n _
  | some r =>
    cases r with
    | error e =>
      have hsettle : c.settleListing n l (some provide) =
          (c.drop n, [.finished n (.refreshed (.error e))]) := by
        simp [settleListing, hr, finishListing]
      rw [hsettle]
      refine .failed e List.getLast?_concat (task?_drop c n) (fun o ho => ?_)
        (hall (quiet_of_session rfl rfl))
      simpa [hunfinished] using ho
    | ok reading =>
      have hsettle : c.settleListing n l (some provide) =
          ({ c.drop n with session := (c.session.adopt provide reading.nodes).1 },
            reading.complaints.map .complaint ++
              (c.session.adopt provide reading.nodes).2.map .pool ++
                [.finished n (.refreshed (.ok ()))]) := by
        simp [settleListing, hr, finishListing]
      obtain ⟨own, others, peers, hown, hothers, hreading⟩ := Listing.nodes_of_result hr
      obtain ⟨i, hi, hresult⟩ := Option.bind_eq_some_iff.1 hothers
      rw [hsettle]
      refine .done List.getLast?_concat (task?_drop c n) (fun o ho => ?_) rfl (hhead _)
        (by simpa using hquiet) ⟨by simp, connection, own, others, peers, hconnection,
          hlocal.result _ hown, (hpeers i hi).result _ hresult, ?_⟩
      · simpa [hunfinished] using ho
      · rw [← hport, ← hreading]
        simpa [Stride.pools] using Session.adopts_adopt provide c.session reading.nodes

/-- **Every refresh reads both tables and then takes the nodes over.** -/
theorem Errand.refreshing (h : Errand n (.refreshCluster provide) strides hs) :
    Refreshing n provide strides hs := by
  induction h with
  | start c now hc =>
    cases hconnection : c.control.connection with
    | error e =>
      have hbegin : c.begin now n (.refreshCluster provide) =
          (c.drop n, [.finished n (.refreshed (.error e))]) := by
        simp [begin, startListing, hconnection, finishListing]
      rw [hbegin]
      exact .failed e rfl (task?_drop c n) (by simp)
        (List.forall_mem_singleton.2 (quiet_of_session rfl rfl))
    | ok connection =>
      let l := Listing.start c.monitor connection now
      have hbegin : c.begin now n (.refreshCluster provide) =
          (({ c with monitor := c.monitor.capture connection } : Client).put n
            (.listing l (some provide)), put? n .localTable l.localInquiry) := by
        simp [begin, startListing, hconnection, l]
      rw [hbegin]
      refine .reading (l := l) rfl rfl (task?_put _ n _) hconnection rfl (.fresh rfl rfl _ _)
        (by simp [l, Listing.start]) (by simp [put?])
        (List.forall_mem_singleton.2 (quiet_of_session ?_ ?_))
      · simp
      · simp [Stride.pools, put?]
  | @step strides last hs c now h _ hlast hc ih =>
    cases ih with
    | @reading first last' connection l hfirst hlast' htask hconnection hport hlocal hpeers
        hunfinished hquiet =>
      obtain rfl : last = last' := Option.some.inj (hlast.symm.trans hlast')
      have hstep : c.step now n h = c.advance now n (.listing l (some provide)) h := by
        simp [Client.step, hc, htask]
      rw [hstep]
      simp only [advance]
      split
      · next hnone =>
        refine .reading (by simp [hfirst]) List.getLast?_concat (task?_put c n _) hconnection hport
          (hlocal.append _) (fun i hi => ?_) (by simpa [Listing.askPeers, put?] using hunfinished)
          (List.forall_mem_append.2 ⟨hquiet, List.forall_mem_singleton.2 (quiet_of_session ?_ ?_)⟩)
        · simp only [Listing.askPeers, Option.some.injEq] at hi
          subst hi
          exact .fresh rfl rfl _ _
        · simp
        · simp [Stride.pools, Listing.askPeers, put?]
      · refine .settle c hfirst hconnection hport (heard_inquiryAfter hlocal _) (fun i hi => ?_)
          hunfinished hquiet
        obtain ⟨j, hj, rfl⟩ := Option.map_eq_some_iff.1 hi
        exact heard_inquiryAfter (hpeers j hj) _
    | @failed last' e hlast' htask hfinished hquiet =>
      obtain rfl : last = last' := Option.some.inj (hlast.symm.trans hlast')
      have hnone := hc.trans htask
      rw [step_none hnone]
      exact .failed e List.getLast?_concat hnone (by simpa using hfinished)
        (List.forall_mem_append.2 ⟨hquiet, List.forall_mem_singleton.2 (quiet_idle c)⟩)
    | @done first last' d earlier later hlast' htask hfinished hstrides hfirst hquiet htakes =>
      obtain rfl : last = last' := Option.some.inj (hlast.symm.trans hlast')
      have hnone := hc.trans htask
      rw [step_none hnone]
      refine .done List.getLast?_concat hnone (by simpa using hfinished)
        (by rw [hstrides, List.append_assoc, List.cons_append]) (by simp [hfirst]) ?_
        (htakes.append h)
      rw [← List.append_assoc]
      exact List.forall_mem_append.2 ⟨hquiet, List.forall_mem_singleton.2 (quiet_idle c)⟩

/-- The clients that come about from one as long as an address is that of a known node. All but the
nodes may change at any time. -/
inductive Holding (a : Address) (c : Client) : Client → Prop
  | here : a ∈ c.session.nodes.map (·.address) → Holding a c c
  | start {d : Client} (now : Nat) (o : Operation) :
      Holding a c d → a ∈ (d.start now o).1.session.nodes.map (·.address) →
      Holding a c (d.start now o).1
  | step {d : Client} (now n : Nat) (h : Happening) :
      Holding a c d → a ∈ (d.step now n h).1.session.nodes.map (·.address) →
      Holding a c (d.step now n h).1
  | elsewhere {d e : Client} :
      Holding a c d → e.session.nodes = d.session.nodes → Holding a c e

theorem Holding.mem {a : Address} {c d : Client} (h : Holding a c d) :
    a ∈ d.session.nodes.map (·.address) := by
  induction h with
  | here hmem | start _ _ _ hmem | step _ _ _ _ hmem => exact hmem
  | elsewhere _ hnodes ih => rwa [hnodes]

/-- **An address keeps its pool** as long as it is that of a known node. -/
theorem Holding.poolAt_eq {a : Address} {c d : Client} (h : Holding a c d) :
    d.session.poolAt a = c.session.poolAt a := by
  induction h with
  | here _ => rfl
  | start now o h hmem ih => exact ((start_touched _ now o).poolAt_eq h.mem hmem).trans ih
  | step now n h hd hmem ih => exact ((step_touched _ now n h).poolAt_eq hd.mem hmem).trans ih
  | elsewhere _ hnodes ih => exact (Session.poolAt_congr hnodes a).trans ih

/-- **Refreshing keeps pools.** A refresh that succeeds takes over, in one stride, one node for each
that was read with an address, and leaves its pool to every address that was known by then; each
other node gets a pool of its own. A refresh that fails changes no node and makes no pool. So an
address keeps the pool of its first node as long as it is known. -/
theorem Errand.refresh_keeps_pools (h : Errand n (.refreshCluster provide) strides hs) :
    (.finished n (.refreshed (.ok ())) ∈ strides.flatMap Stride.notices →
      ∃ earlier d later first, strides = earlier ++ d :: later ∧ strides.head? = some first ∧
        (∀ s ∈ earlier ++ later, s.Quiet) ∧ TakesOver n provide first d hs) ∧
    (∀ e, .finished n (.refreshed (.error e)) ∈ strides.flatMap Stride.notices →
      ∀ s ∈ strides, s.Quiet) ∧
    ∀ a c d, Holding a c d → d.session.poolAt a = c.session.poolAt a := by
  refine ⟨fun hfinished => ?_, fun e hfailed => ?_, fun a c d => Holding.poolAt_eq⟩
  · cases h.refreshing with
    | reading _ _ _ _ _ _ _ hunfinished => exact absurd hfinished (hunfinished _)
    | failed e _ _ honly => cases honly _ hfinished
    | done _ _ _ hstrides hfirst hquiet htakes =>
      exact ⟨_, _, _, _, hstrides, hfirst, hquiet, htakes⟩
  · cases h.refreshing with
    | reading _ _ _ _ _ _ _ hunfinished => exact absurd hfailed (hunfinished _)
    | failed _ _ _ _ hquiet => exact hquiet
    | done _ _ honly => cases honly _ hfailed

end

/-- The keyspace is switched while the nodes are read. The control node is known, one peer is not
and is named twice, and another has no address. -/
theorem Errand.refresh_keeps_pools_switch_while_reading :
    let provide (a : Address) : Pool := ⟨a, none, []⟩
    let a : Address := ⟨⟨"10.0.0.9"⟩, 9042⟩
    ∃ (strides : List Stride) (hs : List Happening) (first d : Stride),
      Errand 0 (.refreshCluster provide) (strides ++ [d]) hs ∧ TakesOver 0 provide first d hs ∧
      (∀ s ∈ strides, s.Quiet) ∧ d.pools = [.opened 3 a, .told 3 "ks", .opened 4 a, .told 4 "ks"] ∧
      d.after.session.nodes =
        [.sample "10.0.0.2" 1, .sample "10.0.0.9" 3, .sample "10.0.0.9" 4] := by
  intro provide a
  let rows (hosts : List (Option String)) : Signal :=
    .delivered (.ok ⟨.result (.rows (.ofCells ["rpc_address"]
      (hosts.map fun host => [host.map fun h => .inet ⟨h⟩]) none)), .none⟩)
  have h₀ := Errand.of_start (fresh .sample) 0 (.refreshCluster provide) rfl
  have h₁ := h₀.next id (fun _ => rfl) 0 .resume
  have h₂ := h₁.next id (fun _ => rfl) 1 (.signal (.inquiry .localTable) .acknowledged)
  have h₃ := h₂.next id (fun _ => rfl) 1 (.signal (.inquiry .peersTable) .acknowledged)
  have h₄ := h₃.next id (fun _ => rfl) 2
    (.signal (.inquiry .localTable) (rows [some "10.0.0.2"]))
  have h₅ := h₄.next (fun c => { c with session := (c.session.useKeyspace "ks").1 })
    (fun _ => rfl) 3
    (.signal (.inquiry .peersTable) (rows [some "10.0.0.9", none, some "10.0.0.9"]))
  have takes {strides : List Stride} {d : Stride} {hs : List Happening} {acts : List PoolAct}
      {nodes : List Node} (h : Errand 0 (.refreshCluster provide) (strides ++ [d]) hs)
      (hd : (d.notices.getLast?, d.pools, d.after.session.nodes) =
        (some (.finished 0 (.refreshed (.ok ()))), acts, nodes)) (hacts : acts ≠ []) :
      (∃ first, TakesOver 0 provide first d hs) ∧ (∀ s ∈ strides, s.Quiet) ∧ d.pools = acts ∧
        d.after.session.nodes = nodes := by
    simp only [Prod.mk.injEq] at hd
    obtain ⟨hfinished, hpools, hnodes⟩ := hd
    obtain ⟨hdone, -⟩ := h.refresh_keeps_pools
    obtain ⟨earlier, d', later, first, hstrides, -, hquiet, htakes⟩ := hdone
      (List.mem_flatMap.2 ⟨d, List.mem_concat_self, List.mem_of_getLast? hfinished⟩)
    -- The last stride is not quiet, so it is the one that takes the nodes over.
    rcases List.eq_nil_or_concat' later with rfl | ⟨later, s, rfl⟩
    · obtain ⟨rfl, hd⟩ := List.append_inj' hstrides rfl
      cases hd
      exact ⟨⟨first, htakes⟩, by simpa using hquiet, hpools, hnodes⟩
    · rw [← List.cons_append, ← List.append_assoc] at hstrides
      obtain ⟨-, hd⟩ := List.append_inj' hstrides rfl
      cases hd
      exact absurd (hpools.symm.trans (hquiet d (by simp)).untold) hacts
  obtain ⟨⟨first, htakes⟩, hquiet, hpools, hnodes⟩ := takes h₅ (by cbv) (by simp)
  exact ⟨_, _, first, _, h₅, htakes, hquiet, hpools, hnodes⟩

end Client

end ClusterClient
