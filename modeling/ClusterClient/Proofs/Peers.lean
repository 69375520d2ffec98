import ClusterClient.Proofs.Reading
import ClusterClient.Proofs.Story

/-!
# Ways to read a peer

A peer is read in three ways: with all nodes, by looking for its address among all peers, and by
asking for its host inside the cluster. `Vantage.readings_agree` says that they give the same. The
first two always do; for the third the node has to answer by its table of peers, with no host and no
address in it twice (`Vantage.Keyed`), and address and host have to be those of one row or of none.
-/

namespace ClusterClient

/-- The one element that gives a value is found, if no value is given twice. -/
theorem find?_of_nodup_filterMap {α β : Type} [DecidableEq β] {f : α → Option β} {l : List α}
    {a : α} {b : β} (h : (l.filterMap f).Nodup) (ha : a ∈ l) (hb : f a = some b) :
    l.find? (f · = some b) = some a := by
  cases hfind : l.find? (f · = some b) with
  | none => exact absurd hb (by simpa using List.find?_eq_none.1 hfind a ha)
  | some c =>
    have hc : f c = some b := by simpa using List.find?_some hfind
    rw [eq_of_nodup_filterMap h ha (List.mem_of_find?_eq_some hfind) hb hc]

namespace Vantage

open Client (Errand Puts step_none)

variable {v : Vantage} {n : Nat} {strides : List Stride} {hs : List Happening} {rows : List Row}
  {a : Address} {host : Host}

/-- The first peer at an address. -/
def peerAt (v : Vantage) (a : Address) : Except MetadataError (Option NodeInfo) :=
  v.peers.map (·.find? (·.connect = some a))

/-- Once what it asks is answered, an operation ends with an outcome and with no other, whatever
others do meanwhile. -/
def Yields (v : Vantage) (o : Operation) (outcome : Outcome) : Prop :=
  ∀ n strides hs, v.Reads n o strides hs →
    ∀ out, .finished n out ∈ strides.flatMap Stride.notices ↔ out = outcome

/-- The node answers by a table of its peers, with no host and no address in it twice. -/
structure Keyed (v : Vantage) (rows : List Row) : Prop where
  all : v.node SystemTable.peers.request = .ok rows
  byHost : ∀ host, v.node (peerRequest host) = .ok (rows.filter (·.host? "peer" = some host))
  hosts : (rows.filterMap (·.host? "peer")).Nodup
  addresses : (rows.filterMap (NodeInfo.connectAddress? v.resolve v.port)).Nodup

/-- An address and a host are those of one row, or of none. -/
def Pairs (v : Vantage) (rows : List Row) (a : Address) (host : Host) : Prop :=
  (∃ r ∈ rows, NodeInfo.connectAddress? v.resolve v.port r = some a ∧
    r.host? "peer" = some host) ∨
  ∀ r ∈ rows, NodeInfo.connectAddress? v.resolve v.port r ≠ some a ∧ r.host? "peer" ≠ some host

/-- Looking for an address among all peers finds the first of them there. -/
theorem lookedUp_at (v : Vantage) (a : Address) :
    v.lookedUp (.at a) (v.node SystemTable.peers.request) = v.peerAt a := by
  unfold lookedUp peerAt peers
  cases v.node SystemTable.peers.request with
  | error e => rfl
  | ok rows =>
    simp only [Except.mapError, Except.map, wantedRow?, List.find?_map, Function.comp_def]
    rfl

/-- Asking for a host finds the same row as looking for the address that goes with it. -/
theorem Keyed.find?_eq (hk : v.Keyed rows) (hp : v.Pairs rows a host) :
    (rows.filter (·.host? "peer" = some host)).head? =
      rows.find? (NodeInfo.connectAddress? v.resolve v.port · = some a) := by
  rw [List.head?_filter]
  obtain ⟨r, hr, ha, hhost⟩ | hnone := hp
  · rw [find?_of_nodup_filterMap hk.hosts hr hhost, find?_of_nodup_filterMap hk.addresses hr ha]
  · rw [List.find?_eq_none.2 fun r hr => by simpa using (hnone r hr).2,
      List.find?_eq_none.2 fun r hr => by simpa using (hnone r hr).1]

theorem Keyed.lookedUp_first (hk : v.Keyed rows) (hp : v.Pairs rows a host) :
    v.lookedUp .first (v.node (peerRequest host)) = v.peerAt a := by
  rw [← lookedUp_at, hk.all, hk.byHost]
  simp only [lookedUp, Except.mapError, Except.map, wantedRow?, hk.find?_eq hp]

/-- Reading the control node by itself asks nothing. -/
theorem notices_of_control {broadcast : Option Host}
    (he : Errand n (.refreshNode v.connection.address broadcast) strides hs)
    (hv : v.Holds strides) :
    strides.flatMap Stride.notices = [.finished n (.found (.ok none))] ∧
      ∀ last, strides.getLast? = some last → last.after.task? n = none := by
  induction he with
  | start c now hc =>
    obtain ⟨hconnection, -⟩ := hv.opened _ rfl
    have hbegin : c.begin now n (.refreshNode v.connection.address broadcast) =
        ({ c with monitor := c.monitor.capture v.connection },
          [.finished n (.found (.ok none))]) := by
      simp only [Client.begin, hconnection, if_true]
    rw [hbegin]
    refine ⟨rfl, fun last hlast => ?_⟩
    cases hlast
    exact hc
  | @step strides last hs c now h _ hlast hc ih =>
    obtain ⟨hnotices, htask⟩ := ih hv.init
    have hnone := hc.trans (htask last hlast)
    rw [step_none hnone]
    refine ⟨by simpa using hnotices, fun last' hlast' => ?_⟩
    obtain rfl : _ = last' := by simpa using hlast'
    exact hnone

theorem reads_of_control {broadcast : Option Host}
    (he : Errand n (.refreshNode v.connection.address broadcast) strides hs)
    (hv : v.Holds strides) :
    v.Reads n (.refreshNode v.connection.address broadcast) strides hs where
  errand := he
  holds := hv
  served part request hputs := by
    obtain ⟨connection, hmem⟩ := hputs
    rw [(notices_of_control he hv).1] at hmem
    simp at hmem

/-- **All ways to read a peer agree.** With all nodes come the peers in the order of their table.
Looking for a node by its address, or reading a node again whose host is not known, gives the first
of these peers at the address, if there is one. If no host and no address is twice in the table of
peers, asking for a host gives the same as looking for the address that goes with it. Nothing is
asked about the control node. -/
theorem readings_agree (v : Vantage) :
    (∀ own others, v.node SystemTable.localNode.request = .ok (own :: others) →
      ∀ n strides hs, v.Reads n .listNodes strides hs → ∀ out,
        .finished n out ∈ strides.flatMap Stride.notices ↔
          Puts n strides .peersTable SystemTable.peers.request ∧
          out = .listed (v.peers.map (.ofRow v.resolve v.port .localNode own :: ·))) ∧
    (∀ a, v.Yields (.findNode a) (.found (v.peerAt a))) ∧
    (∀ a, a ≠ v.connection.address → v.Yields (.refreshNode a none) (.found (v.peerAt a))) ∧
    (∀ rows a host, v.Keyed rows → v.Pairs rows a host → a ≠ v.connection.address →
      v.Yields (.refreshNode a (some host)) (.found (v.peerAt a))) ∧
    ∀ broadcast n strides hs,
      v.Reads n (.refreshNode v.connection.address broadcast) strides hs →
      strides.flatMap Stride.notices = [.finished n (.found (.ok none))] := by
  refine ⟨fun own others hown n strides hs hr out => hr.listed hown out,
    fun a n strides hs hr out => ?_, fun a ha n strides hs hr out => ?_,
    fun rows a host hk hp ha n strides hs hr out => ?_,
    fun broadcast n strides hs hr => (notices_of_control hr.errand hr.holds).1⟩
  · rw [hr.looked rfl, lookedUp_at]
  · rw [hr.looked (by simp only [Operation.lookup?, if_neg ha]; rfl), lookedUp_at]
  · rw [hr.looked (by simp only [Operation.lookup?, if_neg ha]; rfl), hk.lookedUp_first hp]

/-- Clients reach one peer at another address than it reports, and one has no address for clients.
The first of the two is read in each way. -/
theorem readings_agree_translated_peer :
    let row (peer : String) (rpc : Option String) : Row :=
      ⟨["peer", "rpc_address"], [some (.inet ⟨peer⟩), rpc.map fun host => .inet ⟨host⟩]⟩
    let own : Row := ⟨["rpc_address"], [some (.inet ⟨"10.0.0.1"⟩)]⟩
    let rows := [row "10.0.0.3" none, row "10.0.0.2" (some "10.0.0.2")]
    let a : Address := ⟨⟨"192.0.2.7"⟩, 9042⟩
    let resolve := AddressMap.apply [(⟨⟨"10.0.0.2"⟩, 9042⟩, a)]
    let node (request : Request) : Except AttemptError (List Row) :=
      match request with
      | .query _ ⟨_, .named [(_, .inet host)], _, _⟩ =>
        .ok (rows.filter (·.host? "peer" = some host))
      | .query text _ => .ok (if text = SystemTable.peers.selectAll then rows else [own])
      | _ => .ok []
    let v : Vantage := ⟨⟨.control, ⟨⟨"10.0.0.1"⟩, 9042⟩⟩, 9042, resolve, 50, node⟩
    let infos := rows.map (.ofRow resolve 9042 .peers)
    v.Keyed rows ∧ v.Pairs rows a ⟨"10.0.0.2"⟩ ∧
      (∃ strides hs, v.Reads 0 .listNodes strides hs ∧
        .finished 0 (.listed (.ok (.ofRow resolve 9042 .localNode own :: infos))) ∈
          strides.flatMap Stride.notices) ∧
      (∀ o ∈ [.findNode a, .refreshNode a none, .refreshNode a (some ⟨"10.0.0.2"⟩)],
        ∃ strides hs, v.Reads 0 o strides hs ∧
          .finished 0 (.found (.ok infos[1]?)) ∈ strides.flatMap Stride.notices) ∧
      ∃ strides hs, v.Reads 0 (.refreshNode v.connection.address none) strides hs ∧
        strides.flatMap Stride.notices = [.finished 0 (.found (.ok none))] := by
  intro row own rows a resolve node v infos
  obtain ⟨hlisted, hfound, hscanned, hasked, hcontrol⟩ := v.readings_agree
  have hkeyed : v.Keyed rows := ⟨rfl, fun _ => rfl, by decide, by decide⟩
  have hpairs : v.Pairs rows a ⟨"10.0.0.2"⟩ :=
    .inl ⟨row "10.0.0.2" (some "10.0.0.2"), by simp [rows], by decide, by decide⟩
  let c : Client := { Client.fresh .sample with monitor := .fresh 50 resolve }
  let begun (o : Operation) : Stride :=
    ⟨{ c with nextTask := 1 }, (c.start 0 o).1, (c.start 0 o).2⟩
  let onward (s : Stride) (now : Nat) (e : Happening) : Stride :=
    ⟨s.after, (s.after.step now 0 e).1, (s.after.step now 0 e).2⟩
  have start (o : Operation) : Errand 0 o ([] ++ [begun o]) [] ∧ v.Holds ([] ++ [begun o]) := by
    refine ⟨.of_start c 0 o rfl, ?_, List.forall_mem_singleton.2 ⟨rfl, rfl⟩⟩
    rintro s ⟨⟩
    exact ⟨rfl, rfl⟩
  have next {o : Operation} {strides : List Stride} {s : Stride} {hs : List Happening}
      (h : Errand 0 o (strides ++ [s]) hs ∧ v.Holds (strides ++ [s])) (now : Nat) (e : Happening) :
      Errand 0 o (strides ++ [s] ++ [onward s now e]) (hs ++ [e]) ∧
        v.Holds (strides ++ [s] ++ [onward s now e]) :=
    ⟨h.1.next id (fun _ => rfl) now e, h.2.next h.1 id (fun _ => ⟨rfl, rfl⟩) now e⟩
  let written (part : Part) : Happening := .signal (.inquiry part) .acknowledged
  let answered (part : Part) (rows : List Row) : Happening :=
    .signal (.inquiry part) (.delivered (.ok ⟨.result (.rows ⟨[], rows, none⟩), .none⟩))
  have reads {o : Operation} {wanted : Wanted} {request : Request}
      (ho : o.lookup? v.connection = some (wanted, request)) {rows : List Row}
      (hrows : v.node request = .ok rows) : ∃ strides hs, v.Reads 0 o strides hs := by
    obtain ⟨he, hv⟩ := next (next (start o) 10 (written .only)) 20 (answered .only rows)
    exact ⟨_, _, reads_of_lookup he hv ho fun deadline => by rw [hrows]; rfl⟩
  refine ⟨hkeyed, hpairs, ?_, ?_, ?_⟩
  · have hputs := next (next (next (start .listNodes) 0 .resume) 10 (written .localTable)) 10
      (written .peersTable)
    obtain ⟨he, hv⟩ := next (next hputs 20 (answered .peersTable rows)) 30
      (answered .localTable [own])
    have hreads : v.Reads _ _ _ _ := reads_of_listing he hv rfl (fun _ => rfl) fun _ => rfl
    obtain ⟨first, -, hl⟩ := listed_of_errand he hv
    obtain ⟨_, hl⟩ := hl nofun
    exact ⟨_, _, hreads,
      (hlisted own [] rfl 0 _ _ hreads _).2 ⟨(hl.puts_iff _ _).2 (.inr ⟨rfl, rfl, rfl⟩), rfl⟩⟩
  · have hat : v.peerAt a = .ok infos[1]? := rfl
    have ha : a ≠ v.connection.address := by decide
    have reached {o : Operation} (hreads : ∃ strides hs, v.Reads 0 o strides hs)
        (hyields : v.Yields o (.found (v.peerAt a))) : ∃ strides hs, v.Reads 0 o strides hs ∧
          .finished 0 (.found (.ok infos[1]?)) ∈ strides.flatMap Stride.notices := by
      obtain ⟨strides, hs, hr⟩ := hreads
      exact ⟨strides, hs, hr, (hyields 0 strides hs hr _).2 (by rw [hat])⟩
    simp only [List.forall_mem_cons, List.not_mem_nil, false_implies, implies_true, and_true]
    exact ⟨reached (reads rfl rfl) (hfound a), reached (reads rfl rfl) (hscanned a ha),
      reached (reads rfl rfl) (hasked rows a _ hkeyed hpairs ha)⟩
  · obtain ⟨he, hv⟩ := start (.refreshNode v.connection.address none)
    have hreads := reads_of_control he hv
    exact ⟨_, _, hreads, hcontrol none 0 _ _ hreads⟩

end Vantage

end ClusterClient
