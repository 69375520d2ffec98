import ClusterClient.Proofs.Refresh

/-!
# Operations that read the system tables

A reading puts its questions over the control connection and is over once they are answered
(`Client.Stands`). A `Vantage` is what it reads through: the connection that is open when it begins,
the port all nodes share, how the monitor resolves addresses and limits its queries, and what the
node at the other end answers. `Vantage.Reads` is every reading through a vantage, whatever others
do meanwhile.

`Vantage.Reads.looked` says what comes of a reading of one node, and `Vantage.Reads.listed` what
comes of one of all nodes. The latter ends at the first failure, so while the answer about the
control node itself is open, a result may still be replaced in `Listing.result?`, and what is kept
along the strides holds unless that question fails (`Listing.Sound`).
-/

namespace ClusterClient

/-- A question after what happened to its operation. -/
def Inquiry.after (i : Inquiry) (part : Part) (hs : List Happening) : Inquiry :=
  hs.foldl (fun i h => Client.inquiryAfter part h i) i

/-- The request for all rows of a table. -/
def SystemTable.request (t : SystemTable) : Request :=
  .query t.selectAll ⟨.one, .none, .unpaged, none⟩

/-- The request for the peer with a host inside the cluster. -/
def peerRequest (host : Host) : Request :=
  .query selectPeer ⟨.one, .named [("address", .inet host)], .unpaged, none⟩

/-- Whether an operation may go on. -/
def Happening.isResume : Happening → Bool
  | .resume => true
  | _ => false

/-- What happens to a question, of what happens to its operation. The question for the peers of a
list is put when the operation goes on. -/
def Happening.since (part : Part) (hs : List Happening) : List Happening :=
  match part with
  | .peersTable => hs.dropWhile (!·.isResume)
  | .only | .localTable => hs

/-- What the system tables are read through. -/
structure Vantage where
  connection : Connection
  port : UInt16
  resolve : Address → Address
  /-- The time of each query, in milliseconds. -/
  limit : Nat
  /-- What the control node answers to a request. -/
  node : Request → Except AttemptError (List Row)

namespace Inquiry

variable {i : Inquiry} {part : Part} {hs : List Happening} {r : Except AttemptError (List Row)}

theorem after_concat (i : Inquiry) (part : Part) (hs : List Happening) (h : Happening) :
    i.after part (hs ++ [h]) = Client.inquiryAfter part h (i.after part hs) := by
  simp [after]

/-- An answer is final. -/
theorem result_inquiryAfter (hr : i.result = some r) (part : Part) (h : Happening) :
    (Client.inquiryAfter part h i).result = some r := by
  unfold Client.inquiryAfter
  split
  · split
    · next signal _ => cases signal <;> simp [react, expects, hr]
    · exact hr
  · split
    · simp [expire, hr]
    · exact hr
  · exact hr

end Inquiry

namespace Client

@[simp] theorem put_monitor (c : Client) (n : Nat) (t : Task) :
    (c.put n t).monitor = c.monitor := by
  unfold put
  split <;> rfl

@[simp] theorem drop_monitor (c : Client) (n : Nat) : (c.drop n).monitor = c.monitor :=
  rfl

@[simp] theorem settleExecution_monitor (c : Client) (n : Nat) (terms : Terms) (purpose : Purpose)
    (moved : Moved Session) : (c.settleExecution n terms purpose moved).1.monitor = c.monitor := by
  unfold settleExecution
  split <;> simp

@[simp] theorem finishListing_monitor (c : Client) (n : Nat) (provide : Option (Address → Pool))
    (r : Except MetadataError Reading) : (c.finishListing n provide r).1.monitor = c.monitor := by
  unfold finishListing
  split <;> rfl

/-- An operation begins with the monitor as it is, or keeps the shared port. -/
theorem begin_monitor (c : Client) (now n : Nat) (o : Operation) :
    (c.begin now n o).1.monitor = c.monitor ∨
      ∃ connection, (c.begin now n o).1.monitor = c.monitor.capture connection := by
  cases o with
  | query | prepare | execute => exact .inl (settleExecution_monitor ..)
  | useKeyspace name caseSensitive =>
    simp only [begin]
    split
    · exact .inl rfl
    · exact .inl (settleExecution_monitor ..)
  | refreshCluster | listNodes =>
    simp only [begin, startListing]
    split
    · simp
    · exact .inr ⟨_, put_monitor ..⟩
  | refreshNode address broadcast =>
    simp only [begin, startLookup]
    split
    · exact .inl rfl
    · split
      · exact .inr ⟨_, rfl⟩
      · exact .inr ⟨_, put_monitor ..⟩
  | findNode address =>
    simp only [begin, startLookup]
    split
    · exact .inl rfl
    · exact .inr ⟨_, put_monitor ..⟩
  | openControl => exact .inl rfl
  | inquire => exact .inl (put_monitor ..)

/-- A step leaves the monitor as it is. -/
theorem step_monitor (c : Client) (now n : Nat) (h : Happening) :
    (c.step now n h).1.monitor = c.monitor := by
  cases htask : c.task? n with
  | none => rw [step_none htask]
  | some t =>
    rw [step, htask]
    cases t with
    | executing =>
      simp only [advance]
      split
      · rfl
      · exact settleExecution_monitor ..
    | listing =>
      simp only [advance]
      split
      · exact put_monitor ..
      · simp only [settleListing]
        split
        · exact put_monitor ..
        · exact finishListing_monitor ..
    | looking =>
      simp only [advance, settleLookup]
      split
      · exact put_monitor ..
      · rfl
      · rfl
    | inquiring =>
      simp only [advance, settleInquiry]
      split
      · exact put_monitor ..
      · rfl

/-- An operation never changes how the monitor resolves addresses and limits its queries. -/
theorem Errand.settled {n : Nat} {o : Operation} {strides : List Stride} {hs : List Happening}
    (he : Errand n o strides hs) : ∀ s ∈ strides,
      s.after.monitor.resolve = s.before.monitor.resolve ∧
        s.after.monitor.limit = s.before.monitor.limit := by
  induction he with
  | start c now _ =>
    refine List.forall_mem_singleton.2 ?_
    obtain h | ⟨connection, h⟩ := begin_monitor c now n o <;> simp [h, Monitor.capture]
  | step c now h _ _ _ ih =>
    exact List.forall_mem_append.2 ⟨ih, by simp [step_monitor]⟩

/-- What an operation puts over the control connection. -/
def Puts (n : Nat) (strides : List Stride) (part : Part) (request : Request) : Prop :=
  ∃ connection, .issued ⟨n, .inquiry part⟩ connection request ∈ strides.flatMap Stride.notices

theorem Puts.concat {n : Nat} {strides : List Stride} {part : Part} {request : Request}
    {s : Stride} (h : Puts n strides part request) : Puts n (strides ++ [s]) part request := by
  obtain ⟨connection, h⟩ := h
  exact ⟨connection, by simp [List.mem_flatMap.1 h]⟩

/-- How an operation stands that asks questions: those it put, and what came of it or else the task
that goes on. -/
structure Stands (n : Nat) (strides : List Stride) (puts : Part → Request → Prop) (t : Task)
    (outcome : Option Outcome) : Prop where
  puts_iff : ∀ part request, Puts n strides part request ↔ puts part request
  task : ∀ last, strides.getLast? = some last →
    last.after.task? n = if outcome.isNone then some t else none
  finished_iff : ∀ o, .finished n o ∈ strides.flatMap Stride.notices ↔ outcome = some o

namespace Stands

variable {n now : Nat} {strides : List Stride} {last : Stride} {puts : Part → Request → Prop}
  {t : Task} {c : Client} {h : Happening} {o : Outcome}

/-- An operation begins with a question. -/
theorem start (c d : Client) (n : Nat) (t : Task) (part : Part) (i : Inquiry) :
    Stands n [⟨c, d.put n t, put? n part i⟩] (fun p r => p = part ∧ r = i.request) t none where
  puts_iff := by simp [Puts, put?]
  task last hlast := by
    cases hlast
    exact task?_put d n t
  finished_iff := by simp [put?]

/-- An operation that is over stays so. -/
theorem rests (hs : Stands n strides puts t (some o)) (hlast : strides.getLast? = some last)
    (hc : c.task? n = last.after.task? n) (now : Nat) (h : Happening) (t' : Task) :
    Stands n (strides ++ [⟨c, (c.step now n h).1, (c.step now n h).2⟩]) puts t' (some o) := by
  have hnone : c.task? n = none := hc.trans (hs.task last hlast)
  rw [step_none hnone]
  refine ⟨fun part request => ?_, fun last' hlast' => ?_, fun o => ?_⟩
  · simpa [Puts] using hs.puts_iff part request
  · obtain rfl : _ = last' := by simpa using hlast'
    exact hnone
  · simpa using hs.finished_iff o

theorem step_eq (hs : Stands n strides puts t none) (hlast : strides.getLast? = some last)
    (hc : c.task? n = last.after.task? n) : c.step now n h = c.advance now n t h := by
  have htask : c.task? n = some t := hc.trans (hs.task last hlast)
  rw [step, htask]

/-- An operation puts another question. -/
theorem asks (hs : Stands n strides puts t none) (hlast : strides.getLast? = some last)
    (hc : c.task? n = last.after.task? n) {t' : Task} {part : Part} {i : Inquiry}
    (hstep : c.advance now n t h = (c.put n t', put? n part i)) :
    Stands n (strides ++ [⟨c, (c.step now n h).1, (c.step now n h).2⟩])
      (fun p r => puts p r ∨ p = part ∧ r = i.request) t' none := by
  rw [hs.step_eq hlast hc, hstep]
  refine ⟨fun p r => ?_, fun last' hlast' => ?_, fun o => ?_⟩
  · rw [← hs.puts_iff p r]
    simp [Puts, put?, exists_or]
  · obtain rfl : _ = last' := by simpa using hlast'
    exact task?_put c n t'
  · simpa [put?] using hs.finished_iff o

/-- An operation waits for more. -/
theorem goesOn (hs : Stands n strides puts t none) (hlast : strides.getLast? = some last)
    (hc : c.task? n = last.after.task? n) {t' : Task}
    (hstep : c.advance now n t h = (c.put n t', [])) :
    Stands n (strides ++ [⟨c, (c.step now n h).1, (c.step now n h).2⟩]) puts t' none := by
  rw [hs.step_eq hlast hc, hstep]
  refine ⟨fun p r => ?_, fun last' hlast' => ?_, fun o => ?_⟩
  · simpa [Puts] using hs.puts_iff p r
  · obtain rfl : _ = last' := by simpa using hlast'
    exact task?_put c n t'
  · simpa using hs.finished_iff o

/-- An operation ends, with complaints at most besides. -/
theorem ends (hs : Stands n strides puts t none) (hlast : strides.getLast? = some last)
    (hc : c.task? n = last.after.task? n) (t' : Task) {complaints : List String}
    (hstep : c.advance now n t h =
      (c.drop n, complaints.map .complaint ++ [.finished n o])) :
    Stands n (strides ++ [⟨c, (c.step now n h).1, (c.step now n h).2⟩]) puts t' (some o) := by
  rw [hs.step_eq hlast hc, hstep]
  refine ⟨fun p r => ?_, fun last' hlast' => ?_, fun o' => ?_⟩
  · simpa [Puts] using hs.puts_iff p r
  · obtain rfl : _ = last' := by simpa using hlast'
    exact task?_drop c n
  · have hnone : .finished n o' ∉ strides.flatMap Stride.notices := by
      simp [hs.finished_iff o']
    rw [List.flatMap_append, List.mem_append, or_iff_right hnone]
    simp [eq_comm]

end Stands

end Client

/-- Whether the control node has not failed to answer about itself. -/
def Listing.Sound (l : Listing) : Prop :=
  ∀ e, l.localInquiry.result ≠ some (.error e)

namespace Listing

variable {l l' : Listing} {m m' : Monitor}

theorem result?_congr (hm : m.resolve = m'.resolve) (l : Listing) : l.result? m = l.result? m' := by
  have hcombine : combine m = combine m' := by
    funext port own peers
    cases own <;> simp [combine, Monitor.info, hm]
  simp [result?, hcombine]

/-- What a result comes from, unless the control node failed to answer about itself. -/
theorem result?_eq_some_iff (hs : l.Sound) {r : Except MetadataError Reading} :
    l.result? m = some r ↔
      (∃ e, l.peersInquiry.bind (·.result) = some (.error e) ∧
        r = .error (.query SystemTable.peers.name e)) ∨
      ∃ own peers, l.localInquiry.result = some (.ok own) ∧
        l.peersInquiry.bind (·.result) = some (.ok peers) ∧ r = combine m l.port own peers := by
  rcases hl : l.localInquiry.result with _ | e | own
  · rcases hp : l.peersInquiry.bind (·.result) with _ | e | peers <;>
      simp [result?, hl, hp, eq_comm]
  · exact absurd hl (hs e)
  · rcases hp : l.peersInquiry.bind (·.result) with _ | e | peers <;>
      simp [result?, hl, hp, eq_comm]

theorem result?_eq_none (hs : l.Sound) (hp : l.peersInquiry.bind (·.result) = none) (m : Monitor) :
    l.result? m = none :=
  Option.eq_none_iff_forall_ne_some.2 fun r hr => by
    simp [result?_eq_some_iff hs, hp] at hr

theorem Sound.of_result (hs : l'.Sound)
    (hlocal : ∀ r, l.localInquiry.result = some r → l'.localInquiry.result = some r) : l.Sound :=
  fun e he => hs e (hlocal _ he)

/-- A result is final unless the control node fails to answer about itself later on. -/
theorem result?_of_result (hs : l'.Sound)
    (hlocal : ∀ r, l.localInquiry.result = some r → l'.localInquiry.result = some r)
    (hpeers : ∀ r, l.peersInquiry.bind (·.result) = some r →
      l'.peersInquiry.bind (·.result) = some r)
    (hport : l'.port = l.port) {r : Except MetadataError Reading} (hr : l.result? m = some r) :
    l'.result? m = some r := by
  rw [result?_eq_some_iff hs, hport]
  obtain ⟨e, he, rfl⟩ | ⟨own, peers, hown, hp, rfl⟩ :=
    (result?_eq_some_iff (hs.of_result hlocal)).1 hr
  · exact .inl ⟨e, hpeers _ he, rfl⟩
  · exact .inr ⟨own, peers, hlocal _ hown, hpeers _ hp, rfl⟩

/-- Once the control node answered about itself, the answer about its peers makes the result. -/
theorem result?_of_own {own : Row} {others : List Row}
    (hl : l.localInquiry.result = some (.ok (own :: others))) (m : Monitor) :
    (l.result? m).map (·.map Reading.nodes) =
      (l.peersInquiry.bind (·.result)).map fun r =>
        (r.mapError (.query SystemTable.peers.name)).map (infos m.resolve l.port own) := by
  cases hp : l.peersInquiry.bind (·.result) with
  | none => simp [result?, hl, hp]
  | some r =>
    cases r with
    | error e => simp [result?, hl, hp]; rfl
    | ok rows =>
      simp [result?, hl, hp, combine, Except.mapError, Except.map, Reading.nodes, infos,
        Monitor.info, Function.comp_def]

end Listing

namespace Vantage

open Client (Errand Puts Stands)

variable {v : Vantage} {n : Nat} {o : Operation} {strides : List Stride} {s : Stride}
  {hs : List Happening}

/-- A question as it is put. -/
def question (v : Vantage) (request : Request) (deadline : Nat) : Inquiry :=
  ⟨v.connection, request, v.limit, deadline, false, none⟩

/-- The strides of an operation that begins at a vantage: the connection is open then, and the
monitor resolves and limits in the same way throughout. -/
structure Holds (v : Vantage) (strides : List Stride) : Prop where
  opened : ∀ s, strides.head? = some s → s.before.control.connection = .ok v.connection ∧
    s.before.monitor.sharedPort v.connection = v.port
  settled : ∀ s ∈ strides, s.before.monitor.resolve = v.resolve ∧ s.before.monitor.limit = v.limit

theorem Holds.init (h : v.Holds (strides ++ [s])) : v.Holds strides where
  opened t ht := h.opened t (by simp [ht])
  settled t ht := h.settled t (List.mem_append_left _ ht)

theorem Holds.concat (h : v.Holds (strides ++ [s])) :
    s.before.monitor.resolve = v.resolve ∧ s.before.monitor.limit = v.limit :=
  h.settled s (by simp)

/-- An operation goes on at its vantage if others keep how the monitor resolves and limits. -/
theorem Holds.next (hv : v.Holds (strides ++ [s])) (he : Errand n o (strides ++ [s]) hs)
    (change : Client → Client) (hchange : ∀ c, (change c).monitor.resolve = c.monitor.resolve ∧
      (change c).monitor.limit = c.monitor.limit) (now : Nat) (h : Happening) :
    v.Holds (strides ++ [s] ++
      [⟨change s.after, ((change s.after).step now n h).1,
        ((change s.after).step now n h).2⟩]) where
  opened u hu := hv.opened u (by cases strides <;> simpa using hu)
  settled := by
    refine List.forall_mem_append.2 ⟨hv.settled, List.forall_mem_singleton.2 ?_⟩
    obtain ⟨hresolve, hlimit⟩ := he.settled s List.mem_concat_self
    obtain ⟨hresolve', hlimit'⟩ := hv.concat
    obtain ⟨hr, hl⟩ := hchange s.after
    exact ⟨hr.trans (hresolve.trans hresolve'), hl.trans (hlimit.trans hlimit')⟩

/-- The operations that read through a vantage: whatever one asks is answered by the control node,
sooner or later. -/
structure Reads (v : Vantage) (n : Nat) (o : Operation) (strides : List Stride)
    (hs : List Happening) : Prop where
  errand : Errand n o strides hs
  holds : v.Holds strides
  served : ∀ part request, Puts n strides part request → ∀ deadline,
    ((v.question request deadline).after part (Happening.since part hs)).result =
      some (v.node request)

/-! ## Reading one node -/

/-- The row that is looked for among those that come back. -/
def wantedRow? (v : Vantage) (wanted : Wanted) (rows : List Row) : Option Row :=
  match wanted with
  | .first => rows.head?
  | .at address => rows.find? fun r => NodeInfo.connectAddress? v.resolve v.port r = some address

/-- What a reading of one node comes to by what is answered. -/
def lookedUp (v : Vantage) (wanted : Wanted) (r : Except AttemptError (List Row)) :
    Except MetadataError (Option NodeInfo) :=
  (r.mapError (.query SystemTable.peers.name)).map fun rows =>
    (v.wantedRow? wanted rows).map (.ofRow v.resolve v.port .peers)

theorem choose_nodes {m : Monitor} (hm : m.resolve = v.resolve) (wanted : Wanted)
    (rows : List Row) :
    (Lookup.choose m v.port wanted rows).nodes.head? =
      (v.wantedRow? wanted rows).map (.ofRow v.resolve v.port .peers) := by
  cases wanted <;>
    simp [Lookup.choose, Reading.nodes, wantedRow?, Monitor.info, Option.head?_toList, hm,
      Function.comp_def]

/-- A reading of one node that has no answer goes on. -/
theorem settleLookup_open {i : Inquiry} (hi : i.result = none) (c : Client) (n : Nat)
    (port : UInt16) (wanted : Wanted) :
    c.settleLookup n ⟨port, wanted, i⟩ = (c.put n (.looking ⟨port, wanted, i⟩), []) := by
  simp [Client.settleLookup, Lookup.result?, hi]

/-- One that has its answer is over, with complaints at most besides. -/
theorem settleLookup_over {c : Client} (hc : c.monitor.resolve = v.resolve) {i : Inquiry}
    {r : Except AttemptError (List Row)} (hi : i.result = some r) (n : Nat) (wanted : Wanted) :
    ∃ complaints : List String, c.settleLookup n ⟨v.port, wanted, i⟩ =
      (c.drop n, complaints.map .complaint ++ [.finished n (.found (v.lookedUp wanted r))]) := by
  cases r with
  | error e => exact ⟨[], by simp [Client.settleLookup, Lookup.result?, hi, lookedUp]; rfl⟩
  | ok rows =>
    refine ⟨(Lookup.choose c.monitor v.port wanted rows).complaints, ?_⟩
    simp only [Client.settleLookup, Lookup.result?, hi, Option.map_some, choose_nodes hc]
    rfl

/-- How far a reading of one node has come that asked a question. -/
def Looking (v : Vantage) (n : Nat) (wanted : Wanted) (i : Inquiry) (strides : List Stride)
    (hs : List Happening) : Prop :=
  Stands n strides (fun part request => part = .only ∧ request = i.request)
    (.looking ⟨v.port, wanted, i.after .only hs⟩)
    ((i.after .only hs).result.map fun r => .found (v.lookedUp wanted r))

end Vantage

/-- The node an operation looks for over a connection, and what it asks. Nothing is asked about the
control node. -/
def Operation.lookup? (connection : Connection) : Operation → Option (Wanted × Request)
  | .findNode address => some (.at address, SystemTable.peers.request)
  | .refreshNode address broadcast =>
    if address = connection.address then none
    else
      match broadcast with
      | some host => some (.first, peerRequest host)
      | none => some (.at address, SystemTable.peers.request)
  | _ => none

namespace Client

/-- An operation that looks for a node asks its question. -/
theorem begin_of_lookup {o : Operation} {connection : Connection} {wanted : Wanted}
    {request : Request} (ho : o.lookup? connection = some (wanted, request)) {c : Client}
    (hc : c.control.connection = .ok connection) (now n : Nat) :
    c.begin now n o = c.startLookup n connection ⟨c.monitor.sharedPort connection, wanted,
      ⟨connection, request, c.monitor.limit, now + c.monitor.limit, false, none⟩⟩ := by
  cases o with
  | findNode address =>
    cases ho
    simp only [begin, hc]
    rfl
  | refreshNode address broadcast =>
    simp only [Operation.lookup?] at ho
    split at ho
    · cases ho
    · next hne =>
      simp only [begin, hc, if_neg hne]
      cases broadcast <;> (cases ho; rfl)
  | query | prepare | execute | useKeyspace | refreshCluster | listNodes | openControl | inquire =>
    cases ho

end Client

namespace Vantage

open Client

section
variable {v : Vantage} {n : Nat} {o : Operation} {strides : List Stride} {last : Stride}
  {hs : List Happening} {wanted : Wanted} {request : Request} {i : Inquiry}

/-- A reading of one node begins with its question. -/
theorem Looking.start (ho : o.lookup? v.connection = some (wanted, request)) {c : Client}
    {now : Nat} (hv : v.Holds [⟨c, (c.begin now n o).1, (c.begin now n o).2⟩]) :
    v.Looking n wanted (v.question request (now + v.limit))
      [⟨c, (c.begin now n o).1, (c.begin now n o).2⟩] [] := by
  obtain ⟨hconnection, hport⟩ := hv.opened _ rfl
  obtain ⟨-, hlimit⟩ := hv.settled _ List.mem_cons_self
  have hbegin : c.begin now n o =
      (({ c with monitor := c.monitor.capture v.connection } : Client).put n
        (.looking ⟨v.port, wanted, v.question request (now + v.limit)⟩),
        put? n .only (v.question request (now + v.limit))) := by
    rw [begin_of_lookup ho hconnection, hport, hlimit]
    rfl
  rw [hbegin]
  exact Stands.start c _ n _ .only _

/-- A reading of one node goes on until its question is answered. -/
theorem Looking.step (hl : v.Looking n wanted i strides hs) (hlast : strides.getLast? = some last)
    {c : Client} (hc : c.task? n = last.after.task? n) (hresolve : c.monitor.resolve = v.resolve)
    (now : Nat) (h : Happening) :
    v.Looking n wanted i (strides ++ [⟨c, (c.step now n h).1, (c.step now n h).2⟩])
      (hs ++ [h]) := by
  unfold Looking at hl ⊢
  have hafter := i.after_concat .only hs h
  cases hr : (i.after .only hs).result with
  | some r =>
    rw [hr] at hl
    rw [hafter, Inquiry.result_inquiryAfter hr .only h]
    exact hl.rests hlast hc now h _
  | none =>
    rw [hr] at hl
    have hadvance : c.advance now n (.looking ⟨v.port, wanted, i.after .only hs⟩) h =
        c.settleLookup n ⟨v.port, wanted, i.after .only (hs ++ [h])⟩ := by
      rw [hafter]
      rfl
    cases hr' : (i.after .only (hs ++ [h])).result with
    | none => exact hl.goesOn hlast hc (hadvance.trans (settleLookup_open hr' c n v.port wanted))
    | some r =>
      obtain ⟨_, hsettle⟩ := settleLookup_over hresolve hr' n wanted
      exact hl.ends hlast hc _ (hadvance.trans hsettle)

/-- **Every reading of one node** asks one question, and is over once that is answered. -/
theorem looking_of_errand (he : Errand n o strides hs) (hv : v.Holds strides)
    (ho : o.lookup? v.connection = some (wanted, request)) :
    ∃ deadline, v.Looking n wanted (v.question request deadline) strides hs := by
  induction he with
  | start c now _ => exact ⟨_, .start ho hv⟩
  | step c now h _ hlast hc ih =>
    obtain ⟨deadline, hl⟩ := ih hv.init
    exact ⟨deadline, hl.step hlast hc hv.concat.1 now h⟩

/-- **What comes of a reading of one node** is what the answer to its question comes to. -/
theorem Reads.looked (hr : v.Reads n o strides hs)
    (ho : o.lookup? v.connection = some (wanted, request)) (outcome : Outcome) :
    .finished n outcome ∈ strides.flatMap Stride.notices ↔
      outcome = .found (v.lookedUp wanted (v.node request)) := by
  obtain ⟨deadline, hl⟩ := looking_of_errand hr.errand hr.holds ho
  have hserved : ((v.question request deadline).after .only hs).result = some (v.node request) :=
    hr.served .only request ((hl.puts_iff _ _).2 ⟨rfl, rfl⟩) deadline
  rw [hl.finished_iff, hserved]
  simp [eq_comm]

/-- An operation that looks for a node reads through a vantage once its question is answered. -/
theorem reads_of_lookup (he : Errand n o strides hs) (hv : v.Holds strides)
    (ho : o.lookup? v.connection = some (wanted, request))
    (hserved : ∀ deadline, ((v.question request deadline).after .only hs).result =
      some (v.node request)) : v.Reads n o strides hs where
  errand := he
  holds := hv
  served part request' hputs deadline := by
    obtain ⟨_, hl⟩ := looking_of_errand he hv ho
    obtain ⟨rfl, rfl⟩ := (hl.puts_iff part request').1 hputs
    exact hserved deadline

/-! ## Reading all nodes -/

/-- What the node answers about its peers. -/
def peers (v : Vantage) : Except MetadataError (List NodeInfo) :=
  ((v.node SystemTable.peers.request).mapError (.query SystemTable.peers.name)).map
    (·.map (.ofRow v.resolve v.port .peers))

/-- The monitor at a vantage. -/
def monitor (v : Vantage) : Monitor := ⟨some v.port, v.limit, v.resolve⟩

/-- The reading of all nodes after what happened to it, by the deadlines of its questions. The
second question is put when the operation goes on. -/
def listing (v : Vantage) (first second : Nat) (hs : List Happening) : Listing where
  connection := v.connection
  port := v.port
  localInquiry := (v.question SystemTable.localNode.request first).after .localTable hs
  peersInquiry :=
    if hs.any Happening.isResume then
      some ((v.question SystemTable.peers.request second).after .peersTable
        (Happening.since .peersTable hs))
    else none

theorem listing_start (v : Vantage) (first second : Nat) : v.listing first second [] =
    ⟨v.connection, v.port, v.question SystemTable.localNode.request first, none⟩ :=
  rfl

/-- Until the operation goes on, the second question does not matter. -/
theorem listing_congr (hhs : hs.any Happening.isResume = false) (v : Vantage)
    (first second second' : Nat) : v.listing first second hs = v.listing first second' hs := by
  simp [listing, hhs]

/-- When the operation goes on for the first time, it puts the second question. -/
theorem listing_resume (hhs : hs.any Happening.isResume = false) (v : Vantage)
    (first second : Nat) :
    v.listing first second (hs ++ [.resume]) =
      { v.listing first second hs with
        peersInquiry := some (v.question SystemTable.peers.request second) } := by
  have hdrop : hs.dropWhile (!·.isResume) = [] := by simpa using hhs
  have hsince : Happening.since .peersTable (hs ++ [.resume]) = [.resume] := by
    rw [Happening.since, List.dropWhile_append, hdrop]
    rfl
  have hany : (hs ++ [Happening.resume]).any Happening.isResume = true := by
    rw [List.any_append, hhs]
    rfl
  rw [listing, hsince, hany, if_pos rfl]
  simp [listing, Inquiry.after, inquiryAfter]

/-- Whatever else happens to the operation happens to both questions. -/
theorem listing_concat {h : Happening}
    (hh : hs.any Happening.isResume = true ∨ h.isResume = false) (v : Vantage)
    (first second : Nat) :
    v.listing first second (hs ++ [h]) =
      { v.listing first second hs with
        localInquiry := inquiryAfter .localTable h (v.listing first second hs).localInquiry
        peersInquiry :=
          (v.listing first second hs).peersInquiry.map (inquiryAfter .peersTable h) } := by
  cases hhs : hs.any Happening.isResume with
  | true =>
    have hdrop : (hs.dropWhile (!·.isResume)).isEmpty = false := by simpa using hhs
    have hsince : Happening.since .peersTable (hs ++ [h]) =
        Happening.since .peersTable hs ++ [h] := by
      simp [Happening.since, List.dropWhile_append, hdrop]
    simp [listing, hhs, hsince, Inquiry.after_concat]
  | false => simp [listing, hhs, hh.resolve_left (by simp [hhs]), Inquiry.after_concat]

/-- What happens to the question about the control node itself. -/
theorem localInquiry_concat (v : Vantage) (first second : Nat) (hs : List Happening)
    (h : Happening) :
    (v.listing first second (hs ++ [h])).localInquiry =
      inquiryAfter .localTable h (v.listing first second hs).localInquiry :=
  Inquiry.after_concat ..

/-- A reading of all nodes that has its result is over, with complaints at most besides. -/
theorem finishListing_listed (c : Client) (n : Nat) (r : Except MetadataError Reading) :
    ∃ complaints : List String, c.finishListing n none r =
      (c.drop n, complaints.map .complaint ++ [.finished n (.listed (r.map Reading.nodes))]) := by
  cases r with
  | error e => exact ⟨[], rfl⟩
  | ok reading => exact ⟨reading.complaints, rfl⟩

/-- The questions a reading of all nodes has put. -/
def listingPuts (hs : List Happening) (part : Part) (request : Request) : Prop :=
  part = .localTable ∧ request = SystemTable.localNode.request ∨
    hs.any Happening.isResume = true ∧ part = .peersTable ∧ request = SystemTable.peers.request

/-- How far a reading of all nodes has come. -/
def Listed (v : Vantage) (n first second : Nat) (strides : List Stride) (hs : List Happening) :
    Prop :=
  Stands n strides (listingPuts hs) (.listing (v.listing first second hs) none)
    (((v.listing first second hs).result? v.monitor).map fun r => .listed (r.map Reading.nodes))

/-- The question for the rows of a table, as the monitor puts it. -/
theorem inquiry_selectAll {m : Monitor} (hm : m.limit = v.limit) (t : SystemTable) (now : Nat) :
    m.inquiry v.connection t.selectAll .none now = v.question t.request (now + v.limit) := by
  rw [Monitor.inquiry, hm]
  rfl

/-- A reading of all nodes begins with the question about the control node itself. -/
theorem Listed.start {c : Client} {now : Nat}
    (hv : v.Holds [⟨c, (c.begin now n .listNodes).1, (c.begin now n .listNodes).2⟩]) :
    v.Listed n (now + v.limit) (now + v.limit)
      [⟨c, (c.begin now n .listNodes).1, (c.begin now n .listNodes).2⟩] [] := by
  obtain ⟨hconnection, hport⟩ := hv.opened _ rfl
  have hlimit : c.monitor.limit = v.limit := (hv.settled _ List.mem_cons_self).2
  let l := v.listing (now + v.limit) (now + v.limit) []
  have hl : Listing.start c.monitor v.connection now = l := by
    simp only [Listing.start, inquiry_selectAll hlimit, l, listing_start]
    rw [← hport]
  have hbegin : c.begin now n .listNodes =
      (({ c with monitor := c.monitor.capture v.connection } : Client).put n (.listing l none),
        put? n .localTable l.localInquiry) := by
    simp [begin, startListing, hconnection, hl]
  rw [hbegin]
  have hputs : listingPuts [] = fun part request =>
      part = .localTable ∧ request = l.localInquiry.request := by
    funext part request
    simp [listingPuts, l, listing_start, question]
  rw [Listed, hputs]
  exact Stands.start c _ n _ .localTable l.localInquiry

/-- When the operation goes on for the first time, it asks for the peers. -/
theorem Listed.resume {first second : Nat} (hl : v.Listed n first second strides hs)
    (hsound : (v.listing first second hs).Sound) (hhs : hs.any Happening.isResume = false)
    (hlast : strides.getLast? = some last) {c : Client} (hc : c.task? n = last.after.task? n)
    (hlimit : c.monitor.limit = v.limit) (now : Nat) :
    v.Listed n first (now + v.limit)
      (strides ++ [⟨c, (c.step now n .resume).1, (c.step now n .resume).2⟩]) (hs ++ [.resume]) := by
  have hpeers : (v.listing first second hs).peersInquiry = none := by simp [listing, hhs]
  have hnext : (v.listing first second hs).askPeers c.monitor now =
      v.listing first (now + v.limit) (hs ++ [.resume]) := by
    rw [listing_resume hhs, listing_congr hhs v first _ second, ← inquiry_selectAll hlimit]
    rfl
  have hadvance : c.advance now n (.listing (v.listing first second hs) none) .resume =
      (c.put n (.listing (v.listing first (now + v.limit) (hs ++ [.resume])) none),
        put? n .peersTable (v.question SystemTable.peers.request (now + v.limit))) := by
    simp only [advance, hpeers, hnext]
    simp [listing_resume hhs]
  have hputs : listingPuts (hs ++ [.resume]) = fun part request => listingPuts hs part request ∨
      part = .peersTable ∧
        request = (v.question SystemTable.peers.request (now + v.limit)).request := by
    funext part request
    simp [listingPuts, hhs, question, Happening.isResume]
  unfold Listed at hl ⊢
  rw [Listing.result?_eq_none hsound (by simp [hpeers])] at hl
  have hopen : (v.listing first (now + v.limit) (hs ++ [.resume])).result? v.monitor = none := by
    rw [listing_resume hhs]
    refine Listing.result?_eq_none ?_ ?_ _
    · exact hsound
    · rfl
  rw [hputs, hopen]
  exact hl.asks hlast hc hadvance

/-- A reading of all nodes goes on until both questions are answered. Going on for the first time is
`Listed.resume`. -/
theorem Listed.step {first second : Nat} (hl : v.Listed n first second strides hs) {h : Happening}
    (hsound : (v.listing first second (hs ++ [h])).Sound)
    (hh : hs.any Happening.isResume = true ∨ h.isResume = false)
    (hlast : strides.getLast? = some last) {c : Client} (hc : c.task? n = last.after.task? n)
    (hresolve : c.monitor.resolve = v.resolve) (now : Nat) :
    v.Listed n first second (strides ++ [⟨c, (c.step now n h).1, (c.step now n h).2⟩])
      (hs ++ [h]) := by
  have hputs : listingPuts (hs ++ [h]) = listingPuts hs := by
    have hany : (hs ++ [h]).any Happening.isResume = hs.any Happening.isResume := by
      rcases hh with hh | hh <;> simp [hh]
    unfold listingPuts
    rw [hany]
  have hconcat := listing_concat hh v first second
  unfold Listed at hl ⊢
  rw [hputs]
  cases hr : (v.listing first second hs).result? v.monitor with
  | some r =>
    have hr' : (v.listing first second (hs ++ [h])).result? v.monitor = some r := by
      refine Listing.result?_of_result (l := v.listing first second hs) hsound (fun r hr => ?_)
        (fun r hr => ?_) rfl hr
      · rw [localInquiry_concat]
        exact Inquiry.result_inquiryAfter hr .localTable h
      · obtain ⟨i, hi, hir⟩ := Option.bind_eq_some_iff.1 hr
        simp [hconcat, hi, Inquiry.result_inquiryAfter hir .peersTable h]
    rw [hr] at hl
    rw [hr']
    exact hl.rests hlast hc now h _
  | none =>
    rw [hr] at hl
    have hadvance : c.advance now n (.listing (v.listing first second hs) none) h =
        c.settleListing n (v.listing first second (hs ++ [h])) none := by
      -- A question for the peers that is under way keeps a resume from putting it again.
      rw [hconcat]
      cases h with
      | signal | alarm => rfl
      | resume =>
        have hasked : hs.any Happening.isResume = true :=
          hh.resolve_right (by simp [Happening.isResume])
        obtain ⟨i, hi⟩ : ∃ i, (v.listing first second hs).peersInquiry = some i :=
          ⟨_, by rw [listing, if_pos hasked]⟩
        simp [advance, hi]
    have hmonitor : (v.listing first second (hs ++ [h])).result? c.monitor =
        (v.listing first second (hs ++ [h])).result? v.monitor :=
      Listing.result?_congr hresolve _
    rw [settleListing, hmonitor] at hadvance
    cases hr' : (v.listing first second (hs ++ [h])).result? v.monitor with
    | none =>
      rw [hr'] at hadvance
      exact hl.goesOn hlast hc hadvance
    | some r =>
      obtain ⟨_, hfinish⟩ := finishListing_listed c n r
      rw [hr'] at hadvance
      exact hl.ends hlast hc _ (hadvance.trans hfinish)

/-- **Every reading of all nodes** asks about the control node itself, then about the peers, and
unless the first question fails it is over once both are answered or the second fails. -/
theorem listed_of_errand (he : Errand n .listNodes strides hs) (hv : v.Holds strides) :
    ∃ first, Puts n strides .localTable SystemTable.localNode.request ∧
      ((v.listing first first hs).Sound → ∃ second, v.Listed n first second strides hs) := by
  induction he with
  | start c now _ =>
    have hl := Listed.start hv
    exact ⟨_, (hl.puts_iff _ _).2 (.inl ⟨rfl, rfl⟩), fun _ => ⟨_, hl⟩⟩
  | @step strides last hs c now h _ hlast hc ih =>
    obtain ⟨first, hputs, hlisted⟩ := ih hv.init
    obtain ⟨hresolve, hlimit⟩ := hv.concat
    refine ⟨first, hputs.concat, fun hsound => ?_⟩
    have hsound' : (v.listing first first hs).Sound := by
      refine hsound.of_result fun r hr => ?_
      rw [localInquiry_concat]
      exact Inquiry.result_inquiryAfter hr .localTable h
    obtain ⟨second, hl⟩ := hlisted hsound'
    by_cases hh : hs.any Happening.isResume = true ∨ h.isResume = false
    · exact ⟨second, hl.step hsound hh hlast hc hresolve now⟩
    · obtain ⟨hhs, hh⟩ := not_or.1 hh
      obtain rfl : h = .resume := by
        cases h with
        | signal | alarm => exact absurd rfl hh
        | resume => rfl
      exact ⟨_, hl.resume hsound' (by simpa using hhs) hlast hc hlimit now⟩

/-- **What comes of a reading of all nodes**, where the control node answers about itself: it is
over once the question for the peers is put, with the control node and what is answered about its
peers. -/
theorem Reads.listed (hr : v.Reads n .listNodes strides hs) {own : Row} {others : List Row}
    (hown : v.node SystemTable.localNode.request = .ok (own :: others)) (outcome : Outcome) :
    .finished n outcome ∈ strides.flatMap Stride.notices ↔
      Puts n strides .peersTable SystemTable.peers.request ∧
        outcome = .listed (v.peers.map (.ofRow v.resolve v.port .localNode own :: ·)) := by
  obtain ⟨first, hputs, hlisted⟩ := listed_of_errand hr.errand hr.holds
  have hlocal (second : Nat) :
      (v.listing first second hs).localInquiry.result = some (.ok (own :: others)) :=
    hown ▸ hr.served .localTable _ hputs first
  obtain ⟨second, hl⟩ := hlisted fun e he => by simp [hlocal] at he
  have hresult := congrArg (Option.map Outcome.listed)
    (Listing.result?_of_own (hlocal second) v.monitor)
  rw [Option.map_map, Function.comp_def] at hresult
  rw [hl.finished_iff, hresult]
  by_cases hp : Puts n strides .peersTable SystemTable.peers.request
  · have hasked : hs.any Happening.isResume = true := by
      simpa [listingPuts] using (hl.puts_iff _ _).1 hp
    have hpeers : (v.listing first second hs).peersInquiry.bind (·.result) =
        some (v.node SystemTable.peers.request) := by
      rw [listing, if_pos hasked]
      exact hr.served .peersTable _ hp second
    have hlist : ((v.node SystemTable.peers.request).mapError
        (.query SystemTable.peers.name)).map (Listing.infos v.resolve v.port own) =
          v.peers.map (.ofRow v.resolve v.port .localNode own :: ·) := by
      rw [peers]
      cases v.node SystemTable.peers.request <;> rfl
    simp only [hpeers, hp, ← hlist, Option.map_some, Option.some.injEq, true_and]
    exact eq_comm
  · have hasked : hs.any Happening.isResume = false := by
      simpa [listingPuts] using mt (hl.puts_iff _ _).2 hp
    simp [listing, hasked, hp]

/-- A reading of all nodes reads through a vantage once both questions are answered. -/
theorem reads_of_listing (he : Errand n .listNodes strides hs) (hv : v.Holds strides)
    {own : List Row} (hown : v.node SystemTable.localNode.request = .ok own)
    (hlocal : ∀ deadline, ((v.question SystemTable.localNode.request deadline).after .localTable
      hs).result = some (.ok own))
    (hpeers : ∀ deadline, ((v.question SystemTable.peers.request deadline).after .peersTable
      (Happening.since .peersTable hs)).result = some (v.node SystemTable.peers.request)) :
    v.Reads n .listNodes strides hs where
  errand := he
  holds := hv
  served part request hputs deadline := by
    obtain ⟨first, -, hlisted⟩ := listed_of_errand he hv
    obtain ⟨_, hl⟩ := hlisted fun e he => by simp [listing, hlocal] at he
    obtain ⟨rfl, rfl⟩ | ⟨-, rfl, rfl⟩ := (hl.puts_iff part request).1 hputs
    · rw [hown]
      exact hlocal deadline
    · exact hpeers deadline

end

end Vantage

end ClusterClient
