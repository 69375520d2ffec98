import ClusterClient.Proofs.Reading

/-!
# The shared port

The system tables know hosts only. The addresses of the nodes get the port that is taken from the
control connection the first time it is needed, wherever that connection goes later on.

`Client.Lifetime` is every run of a client from a monitor that has read nothing, with whatever
others do to the session and to the control connection meanwhile. It keeps the calls, each with the
control connection as it was, and the addresses the monitor hands to its resolver
(`Client.asked`): a run goes the same with every resolver that agrees on these.
`Client.Lifetime.port_captured` says which port is shared, and that all these addresses have it.
-/

namespace ClusterClient

namespace NodeInfo

variable {resolve resolve' : Address → Address} {port : UInt16} {r : Row}

/-- The address a row gives for clients, before it is resolved. -/
def reported? (port : UInt16) (r : Row) : Option Address :=
  (r.host? "rpc_address").map (⟨·, port⟩)

theorem port_of_reported {a : Address} (h : reported? port r = some a) : a.port = port := by
  obtain ⟨host, -, rfl⟩ := Option.map_eq_some_iff.1 h
  rfl

theorem connectAddress?_eq (resolve : Address → Address) (port : UInt16) (r : Row) :
    connectAddress? resolve port r = (reported? port r).map resolve := by
  simp [connectAddress?, reported?, Function.comp_def]

/-- A row is read with its reported address resolved, and nothing else is. -/
theorem ofRow_congr (h : ∀ a ∈ reported? port r, resolve' a = resolve a) (t : SystemTable) :
    ofRow resolve' port t r = ofRow resolve port t r := by
  have hconnect : connectAddress? resolve' port r = connectAddress? resolve port r := by
    rw [connectAddress?_eq, connectAddress?_eq]
    exact Option.map_congr h
  simp only [ofRow, hconnect]

end NodeInfo

open NodeInfo (reported? port_of_reported connectAddress?_eq ofRow_congr)

/-- What a reading of all nodes asks the resolver: the address of the control node, then those of
the peers, once it has both answers. -/
def Listing.asked (l : Listing) : List Address :=
  match l.localInquiry.result, l.peersInquiry.bind (·.result) with
  | some (.ok (own :: _)), some (.ok peers) => (own :: peers).filterMap (reported? l.port)
  | _, _ => []

namespace Lookup

/-- What a search for an address asks the resolver: the rows in turn up to the one it finds, and
that one again to read it. -/
def scanned (resolve : Address → Address) (port : UInt16) (address : Address) :
    List Row → List Address
  | [] => []
  | r :: rows =>
    match reported? port r with
    | none => scanned resolve port address rows
    | some a => if resolve a = address then [a, a] else a :: scanned resolve port address rows

/-- What a reading of one node asks the resolver, once it has its answer. -/
def asked (resolve : Address → Address) (l : Lookup) : List Address :=
  match l.inquiry.result, l.wanted with
  | some (.ok rows), .first => (rows.head?.bind (reported? l.port)).toList
  | some (.ok rows), .at address => scanned resolve l.port address rows
  | _, _ => []

end Lookup

/-- The monitor with another resolver. -/
def Monitor.resolving (m : Monitor) (resolve : Address → Address) : Monitor :=
  { m with resolve }

section
variable {m : Monitor} {resolve : Address → Address}

theorem Listing.port_of_asked {l : Listing} {a : Address} (h : a ∈ l.asked) : a.port = l.port := by
  unfold asked at h
  split at h
  · obtain ⟨r, -, hr⟩ := List.mem_filterMap.1 h
    exact port_of_reported hr
  · cases h

/-- A reading of all nodes depends on what the resolver makes of what it is asked. -/
theorem Listing.result?_resolving {l : Listing} (h : ∀ a ∈ l.asked, resolve a = m.resolve a) :
    l.result? (m.resolving resolve) = l.result? m := by
  have hcombine (own peers : List Row) (hl : l.localInquiry.result = some (.ok own))
      (hp : l.peersInquiry.bind (·.result) = some (.ok peers)) :
      combine (m.resolving resolve) l.port own peers = combine m l.port own peers := by
    cases own with
    | nil => rfl
    | cons own others =>
      have info (t : SystemTable) (r : Row) (hr : r ∈ own :: peers) :
          (m.resolving resolve).info l.port t r = m.info l.port t r := by
        refine ofRow_congr (fun a ha => h a ?_) t
        simp only [asked, hl, hp]
        exact List.mem_filterMap.2 ⟨r, hr, ha⟩
      simp only [combine, info _ own List.mem_cons_self]
      rw [List.map_congr_left fun r hr => by rw [info _ r (List.mem_cons_of_mem _ hr)]]
  rcases hl : l.localInquiry.result with _ | e | own <;>
    rcases hp : l.peersInquiry.bind (·.result) with _ | e | peers <;> simp only [result?, hl, hp]
  rw [hcombine own peers hl hp]

namespace Lookup

variable {port : UInt16} {address : Address}

theorem port_of_scanned {rows : List Row} {a : Address}
    (h : a ∈ scanned resolve port address rows) : a.port = port := by
  induction rows with
  | nil => cases h
  | cons r rows ih =>
    unfold scanned at h
    split at h
    · exact ih h
    · next hr =>
      split at h
      · obtain rfl : a = _ := by simpa using h
        exact port_of_reported hr
      · rcases List.mem_cons.1 h with rfl | h
        · exact port_of_reported hr
        · exact ih h

theorem port_of_asked {l : Lookup} {a : Address} (h : a ∈ l.asked resolve) : a.port = l.port := by
  unfold asked at h
  split at h
  · obtain ⟨r, -, hr⟩ := Option.bind_eq_some_iff.1 (Option.mem_toList.1 h)
    exact port_of_reported hr
  · exact port_of_scanned h
  · cases h

/-- A search depends on what the resolver makes of what it is asked, and asks no more for it. -/
theorem scan_resolving {rows : List Row}
    (h : ∀ a ∈ scanned m.resolve port address rows, resolve a = m.resolve a) :
    choose (m.resolving resolve) port (.at address) rows = choose m port (.at address) rows ∧
      scanned resolve port address rows = scanned m.resolve port address rows := by
  induction rows with
  | nil => exact ⟨rfl, rfl⟩
  | cons r rows ih =>
    have hconnect (m : Monitor) := connectAddress?_eq m.resolve port r
    cases hr : reported? port r with
    | none =>
      have hskip (m : Monitor) : choose m port (.at address) (r :: rows) =
          choose m port (.at address) rows := by
        simp [choose, hconnect m, hr]
      simp only [scanned, hr, hskip] at h ⊢
      exact ih h
    | some a =>
      have ha : resolve a = m.resolve a := h a (by
        simp only [scanned, hr]
        split <;> exact List.mem_cons_self)
      by_cases hit : m.resolve a = address
      · have hfound (m : Monitor) (hm : m.resolve a = address) :
            choose m port (.at address) (r :: rows) = [(.peers, m.info port .peers r)] := by
          simp [choose, hconnect m, hr, hm]
        have hinfo : (m.resolving resolve).info port .peers r = m.info port .peers r :=
          ofRow_congr (fun b hb => Option.some.inj (hr.symm.trans hb) ▸ ha) _
        rw [hfound m hit, hfound (m.resolving resolve) (ha.trans hit), hinfo]
        simp [scanned, hr, ha, hit]
      · have hskip (m : Monitor) (hm : m.resolve a ≠ address) :
            choose m port (.at address) (r :: rows) = choose m port (.at address) rows := by
          simp [choose, hconnect m, hr, hm]
        simp only [scanned, hr, if_neg hit, List.mem_cons, forall_eq_or_imp] at h
        obtain ⟨hchoose, hscanned⟩ := ih h.2
        rw [hskip m hit, hskip (m.resolving resolve) (ha.trans_ne hit)]
        simp [scanned, hr, ha, hit, hchoose, hscanned]

/-- So does a reading of one node. -/
theorem resolving_eq {l : Lookup} (h : ∀ a ∈ l.asked m.resolve, resolve a = m.resolve a) :
    l.result? (m.resolving resolve) = l.result? m ∧ l.asked resolve = l.asked m.resolve := by
  obtain ⟨port, wanted, i⟩ := l
  rcases hi : i.result with _ | e | rows
  · simp [result?, asked, hi]
  · simp [result?, asked, hi]
  cases wanted with
  | first =>
    refine ⟨?_, by simp [asked, hi]⟩
    have hinfo (r : Row) (hr : rows.head? = some r) :
        (m.resolving resolve).info port .peers r = m.info port .peers r :=
      ofRow_congr (fun a ha => h a (by simpa [asked, hi, hr] using ha)) _
    cases hr : rows.head? with
    | none => simp [result?, hi, choose, hr]
    | some r => simp [result?, hi, choose, hr, hinfo r hr]
  | «at» address =>
    simp only [asked, hi] at h
    obtain ⟨hchoose, hscanned⟩ := scan_resolving h
    exact ⟨by simp [result?, hi, hchoose], by simp [asked, hi, hscanned]⟩

end Lookup

end

/-- The connection an operation obtains, if it reads nodes and the control connection is open. -/
def Operation.connection? (o : Operation) (control : Control) : Option Connection :=
  match o with
  | .refreshCluster _ | .listNodes | .refreshNode .. | .findNode _ => control.connection.toOption
  | _ => none

/-- The port a reading works with. -/
def Task.port? : Task → Option UInt16
  | .listing l _ => some l.port
  | .looking l => some l.port
  | .executing .. | .inquiring _ => none

namespace Client

/-- What the monitor asks its resolver as a task goes on. -/
def asked (c : Client) (n : Nat) (h : Happening) : List Address :=
  match c.task? n with
  | some (.listing l _) =>
    Listing.asked
      { l with
        localInquiry := inquiryAfter .localTable h l.localInquiry
        peersInquiry := l.peersInquiry.map (inquiryAfter .peersTable h) }
  | some (.looking l) =>
    Lookup.asked c.monitor.resolve { l with inquiry := inquiryAfter .only h l.inquiry }
  | _ => []

/-- Every run of a client from a monitor that has read nothing: the operations that were started,
each with the control connection it found, what the monitor asked its resolver, what was noticed,
and the client. Between the steps others do what they like to the session and to the control
connection, and abandon tasks. -/
inductive Lifetime (limit : Nat) (resolve : Address → Address) :
    List (Operation × Control) → List Address → List Notice → Client → Prop
  | fresh (c : Client) : c.monitor = .fresh limit resolve → c.tasks = [] →
      Lifetime limit resolve [] [] [] c
  | start {calls : List (Operation × Control)} {handed : List Address} {notices : List Notice}
      {c : Client} (now : Nat) (o : Operation) : Lifetime limit resolve calls handed notices c →
      Lifetime limit resolve (calls ++ [(o, c.control)]) handed (notices ++ (c.start now o).2)
        (c.start now o).1
  | step {calls : List (Operation × Control)} {handed : List Address} {notices : List Notice}
      {c : Client} (now n : Nat) (h : Happening) : Lifetime limit resolve calls handed notices c →
      Lifetime limit resolve calls (handed ++ c.asked n h) (notices ++ (c.step now n h).2)
        (c.step now n h).1
  | meanwhile {calls : List (Operation × Control)} {handed : List Address} {notices : List Notice}
      {c : Client} (d : Client) : d.monitor = c.monitor → d.nextTask = c.nextTask →
      (∀ n t, d.task? n = some t → c.task? n = some t) →
      Lifetime limit resolve calls handed notices c → Lifetime limit resolve calls handed notices d

/-- Every reading under way works with the shared port. -/
def SharesPort (c : Client) : Prop :=
  ∀ n t p, c.task? n = some t → t.port? = some p → c.monitor.port = some p

/-- A task after a step was there before, or is the step's own. -/
theorem Turned.task? {own : Task → List Act → Prop} {n : Nat} {c : Client}
    {moved : Client × List Notice} (h : Turned own n c moved) {k : Nat} {t : Task}
    (ht : moved.1.task? k = some t) :
    c.task? k = some t ∨ own t (moved.2.filterMap Notice.act?) := by
  by_cases hk : k = n
  · subst hk
    exact .inr (h.own t ht)
  · exact .inl ((h.others k hk).symm.trans ht)

section
variable {c : Client}

/-- The first connection that is obtained gives the port. -/
theorem begin_port (c : Client) (now n : Nat) (o : Operation) :
    (c.begin now n o).1.monitor.port =
      c.monitor.port.or ((o.connection? c.control).map (·.address.port)) := by
  have capture (connection : Connection) : (c.monitor.capture connection).port =
      c.monitor.port.or (some connection.address.port) := by
    cases hp : c.monitor.port <;> simp [Monitor.capture, Monitor.sharedPort, hp]
  cases o with
  | query | prepare | execute =>
    simp [begin, startCall, Operation.connection?]
  | useKeyspace =>
    simp only [begin, startCall, Operation.connection?]
    split <;> simp
  | refreshCluster | listNodes =>
    simp only [begin, startListing, Operation.connection?]
    split
    · next hc => simp [hc, Except.toOption]
    · next hc => simp [hc, Except.toOption, capture]
  | refreshNode address broadcast =>
    simp only [begin, startLookup, Operation.connection?]
    split
    · next hc => simp [hc, Except.toOption]
    · next hc => split <;> simp [hc, Except.toOption, capture]
  | findNode =>
    simp only [begin, startLookup, Operation.connection?]
    split
    · next hc => simp [hc, Except.toOption]
    · next hc => simp [hc, Except.toOption, capture]
  | openControl | inquire => simp [begin, Operation.connection?]

/-- A shared port stays. -/
theorem begin_port_of_some {p : UInt16} (h : c.monitor.port = some p) (now n : Nat)
    (o : Operation) : (c.begin now n o).1.monitor.port = some p := by
  simp [begin_port, h]

theorem SharesPort.of_tasks (h : c.SharesPort) {d : Client}
    (hport : ∀ p, c.monitor.port = some p → d.monitor.port = some p)
    (htasks : ∀ k t, d.task? k = some t →
      c.task? k = some t ∨ ∀ p, t.port? = some p → d.monitor.port = some p) : d.SharesPort := by
  intro k t p ht hp
  obtain hold | hnew := htasks k t ht
  · exact hport p (h k t p hold hp)
  · exact hnew p hp

/-- A task that is kept works with the port there is. -/
theorem SharesPort.put (h : c.SharesPort) {t : Task}
    (ht : ∀ p, t.port? = some p → c.monitor.port = some p) (n : Nat) : (c.put n t).SharesPort := by
  refine h.of_tasks (fun p hp => by rwa [put_monitor]) fun k u hu => ?_
  by_cases hk : k = n
  · subst hk
    obtain rfl : t = u := Option.some.inj ((task?_put c k t).symm.trans hu)
    exact .inr (by simpa using ht)
  · exact .inl ((task?_put_ne hk).symm.trans hu)

theorem SharesPort.capture (h : c.SharesPort) (connection : Connection) :
    SharesPort { c with monitor := c.monitor.capture connection } :=
  h.of_tasks (fun p hp => by simp [Monitor.capture, Monitor.sharedPort, hp]) fun _ _ => .inl

/-- What an execution does to the tasks does not matter, nor does a reading that is over. -/
theorem SharesPort.turned (h : c.SharesPort) {n : Nat} {moved : Client × List Notice}
    (hmoved : Turned (fun t _ => ∀ p, t.port? = some p → c.monitor.port = some p) n c moved)
    (hmonitor : moved.1.monitor = c.monitor) : moved.1.SharesPort :=
  h.of_tasks (fun p hp => by rwa [hmonitor]) fun k t ht => by
    rw [hmonitor]
    exact hmoved.task? ht

theorem SharesPort.begin (h : c.SharesPort) (now n : Nat) (o : Operation) :
    (c.begin now n o).1.SharesPort := by
  cases o with
  | query | prepare | execute =>
    exact h.turned (settleExecution_turned fun _ _ hp => by cases hp) (settleExecution_monitor ..)
  | useKeyspace =>
    simp only [Client.begin]
    split
    · exact h
    · exact h.turned (settleExecution_turned fun _ _ hp => by cases hp) (settleExecution_monitor ..)
  | refreshCluster | listNodes =>
    simp only [Client.begin, startListing]
    split
    · exact h.turned (finishListing_turned _ _) (finishListing_monitor ..)
    · exact (h.capture _).put (by simp [Task.port?, Listing.start, Monitor.capture]) n
  | refreshNode address broadcast =>
    simp only [Client.begin, startLookup]
    split
    · exact h
    · split
      · exact h.capture _
      · refine (h.capture _).put ?_ n
        cases broadcast <;>
          simp [Task.port?, Lookup.byBroadcast, Lookup.scan, Monitor.capture]
  | findNode =>
    simp only [Client.begin, startLookup]
    split
    · exact h
    · exact (h.capture _).put (by simp [Task.port?, Lookup.scan, Monitor.capture]) n
  | openControl => exact h
  | inquire => exact h.put (t := .inquiring _) (fun _ hp => by cases hp) n

theorem SharesPort.step (h : c.SharesPort) (now n : Nat) (e : Happening) :
    (c.step now n e).1.SharesPort := by
  cases htask : c.task? n with
  | none => rwa [step_none htask]
  | some t =>
    have hport (p : UInt16) := h n t p htask
    refine h.turned (n := n) ?_ (step_monitor c now n e)
    rw [Client.step, htask]
    cases t with
    | executing terms purpose x =>
      simp only [advance]
      split
      · refine .idle rfl rfl (by simp) (by simp [Handed]) fun u hu => ?_
        exact Option.some.inj (htask.symm.trans hu) ▸ hport
      · exact settleExecution_turned fun _ _ hp => by cases hp
    | listing l provide =>
      simp only [advance]
      split
      · exact .kept rfl rfl (by simp [Listing.askPeers, put?])
          (handed_put? .peersTable (c.monitor.inquiry ..)) hport
      · exact settleListing_turned hport
    | looking l => exact settleLookup_turned hport
    | inquiring i => exact settleInquiry_turned fun _ hp => by cases hp

/-- A reading asks about addresses at its port. -/
theorem SharesPort.port_of_asked (h : c.SharesPort) {n : Nat} {e : Happening} {a : Address}
    (ha : a ∈ c.asked n e) : c.monitor.port = some a.port := by
  unfold asked at ha
  split at ha
  · next htask => exact h n _ _ htask (congrArg some (Listing.port_of_asked ha).symm)
  · next htask => exact h n _ _ htask (congrArg some (Lookup.port_of_asked ha).symm)
  · cases ha

/-- The client with another resolver. -/
def resolving (c : Client) (resolve : Address → Address) : Client :=
  { c with monitor := c.monitor.resolving resolve }

section
variable (c : Client) (resolve : Address → Address) (now n : Nat)

@[simp] theorem resolving_task? : (c.resolving resolve).task? n = c.task? n := rfl

@[simp] theorem resolving_control : (c.resolving resolve).control = c.control := rfl

@[simp] theorem resolving_monitor :
    (c.resolving resolve).monitor = c.monitor.resolving resolve := rfl

theorem put_resolving (t : Task) :
    (c.resolving resolve).put n t = (c.put n t).resolving resolve := by
  unfold put
  rw [resolving_task?]
  split <;> rfl

theorem settleExecution_resolving (terms : Terms) (purpose : Purpose) (m : Moved Session) :
    (c.resolving resolve).settleExecution n terms purpose m =
      ((c.settleExecution n terms purpose m).1.resolving resolve,
        (c.settleExecution n terms purpose m).2) := by
  cases hr : m.execution.result? with
  | none =>
    rw [settleExecution_open hr, settleExecution_open hr, ← put_resolving]
    rfl
  | some r =>
    rw [settleExecution_over hr, settleExecution_over hr]
    rfl

theorem finishListing_resolving (provide : Option (Address → Pool))
    (r : Except MetadataError Reading) :
    (c.resolving resolve).finishListing n provide r =
      ((c.finishListing n provide r).1.resolving resolve, (c.finishListing n provide r).2) := by
  cases r <;> cases provide <;> rfl

/-- An operation begins without the resolver. -/
theorem begin_resolving (o : Operation) :
    (c.resolving resolve).begin now n o =
      ((c.begin now n o).1.resolving resolve, (c.begin now n o).2) := by
  have reading (connection : Connection) (t : Task) :=
    put_resolving { c with monitor := c.monitor.capture connection } resolve n t
  cases o with
  | query | prepare | execute => exact settleExecution_resolving ..
  | useKeyspace =>
    simp only [begin]
    split
    · rfl
    · exact settleExecution_resolving ..
  | refreshCluster | listNodes =>
    simp only [begin, startListing, resolving_control]
    split
    · exact finishListing_resolving ..
    · exact congrArg (·, _) (reading _ _)
  | refreshNode address broadcast =>
    simp only [begin, startLookup, resolving_control]
    split
    · rfl
    · split
      · rfl
      · cases broadcast <;> exact congrArg (·, _) (reading _ _)
  | findNode =>
    simp only [begin, startLookup, resolving_control]
    split
    · rfl
    · exact congrArg (·, _) (reading _ _)
  | openControl => rfl
  | inquire => exact congrArg (·, _) (put_resolving ..)

end

/-- A step goes the same with a resolver that agrees on what it is asked. -/
theorem step_resolving {resolve : Address → Address} {n : Nat} {e : Happening}
    (h : ∀ a ∈ c.asked n e, resolve a = c.monitor.resolve a) (now : Nat) :
    (c.resolving resolve).step now n e =
        ((c.step now n e).1.resolving resolve, (c.step now n e).2) ∧
      (c.resolving resolve).asked n e = c.asked n e := by
  cases htask : c.task? n with
  | none => simp [Client.step, asked, htask]
  | some t =>
    simp only [asked, Client.step, resolving_task?, htask] at h ⊢
    cases t with
    | executing terms purpose x =>
      refine ⟨?_, rfl⟩
      simp only [advance]
      split
      · rfl
      · exact settleExecution_resolving ..
    | listing l provide =>
      refine ⟨?_, rfl⟩
      simp only [advance]
      split
      · exact congrArg (·, _) (put_resolving ..)
      · simp only [settleListing]
        rw [resolving_monitor, Listing.result?_resolving h]
        split
        · exact congrArg (·, _) (put_resolving ..)
        · exact finishListing_resolving ..
    | looking l =>
      obtain ⟨hresult, hasked⟩ := Lookup.resolving_eq h
      refine ⟨?_, hasked⟩
      simp only [advance, settleLookup]
      rw [resolving_monitor, hresult]
      split
      · exact congrArg (·, _) (put_resolving ..)
      · rfl
      · rfl
    | inquiring i =>
      refine ⟨?_, rfl⟩
      simp only [advance, settleInquiry]
      split
      · exact congrArg (·, _) (put_resolving ..)
      · rfl

end

namespace Lifetime

variable {limit : Nat} {resolve : Address → Address} {calls : List (Operation × Control)}
  {handed : List Address} {notices : List Notice} {c : Client}

/-- The control connection breaks, or is there, or moves. -/
theorem reconnect (h : Lifetime limit resolve calls handed notices c) (control : Control) :
    Lifetime limit resolve calls handed notices { c with control } :=
  .meanwhile (c := c) _ rfl rfl (fun _ _ => id) h

theorem resolve_eq (h : Lifetime limit resolve calls handed notices c) :
    c.monitor.resolve = resolve := by
  induction h with
  | fresh c hc => rw [hc]; rfl
  | @start _ _ _ c now o _ ih =>
    obtain h | ⟨connection, h⟩ :=
      begin_monitor { c with nextTask := c.nextTask + 1 } now c.nextTask o <;>
        rw [Client.start, h] <;> exact ih
  | step now n e _ ih => rw [step_monitor, ih]
  | meanwhile d hd _ _ _ ih => rw [hd, ih]

theorem sharesPort (h : Lifetime limit resolve calls handed notices c) : c.SharesPort := by
  induction h with
  | fresh c _ htasks => simp [SharesPort, task?, htasks]
  | @start _ _ _ c now o _ ih =>
    exact SharesPort.begin (c := { c with nextTask := c.nextTask + 1 }) ih now _ o
  | step now n e _ ih => exact ih.step now n e
  | meanwhile d hd _ htasks _ ih =>
    refine ih.of_tasks (fun p hp => by rwa [hd]) fun k t ht => .inl (htasks k t ht)

theorem port_eq (h : Lifetime limit resolve calls handed notices c) :
    c.monitor.port = (calls.findSome? fun (o, control) => o.connection? control).map
      (·.address.port) := by
  induction h with
  | fresh c hc => rw [hc]; rfl
  | start now o _ ih =>
    rw [Client.start, begin_port, List.findSome?_append, List.findSome?_singleton, Option.map_or]
    exact congrArg (Option.or · _) ih
  | step now n e _ ih => rw [step_monitor, ih]
  | meanwhile d hd _ _ _ ih => rw [hd, ih]

theorem port_of_handed (h : Lifetime limit resolve calls handed notices c) :
    ∀ a ∈ handed, c.monitor.port = some a.port := by
  induction h with
  | fresh => simp
  | @start _ _ _ c now o _ ih =>
    exact fun a ha => begin_port_of_some (c := { c with nextTask := c.nextTask + 1 }) (ih a ha) now
      c.nextTask o
  | step now n e h ih =>
    rw [step_monitor]
    exact List.forall_mem_append.2 ⟨ih, fun a => h.sharesPort.port_of_asked⟩
  | meanwhile d hd _ _ _ ih => rwa [hd]

/-- A client goes on the same if its resolver makes the same of what it is asked. -/
theorem with_resolver (h : Lifetime limit resolve calls handed notices c)
    {resolve' : Address → Address} (hagree : ∀ a ∈ handed, resolve' a = resolve a) :
    Lifetime limit resolve' calls handed notices (c.resolving resolve') := by
  induction h with
  | fresh c hc htasks =>
    refine .fresh _ ?_ htasks
    simp [resolving, hc, Monitor.resolving, Monitor.fresh]
  | @start calls handed notices c now o _ ih =>
    have hstart : (c.resolving resolve').start now o =
        ((c.start now o).1.resolving resolve', (c.start now o).2) :=
      begin_resolving { c with nextTask := c.nextTask + 1 } resolve' now c.nextTask o
    have hnext := (ih hagree).start now o
    rwa [hstart] at hnext
  | step now n e h ih =>
    obtain ⟨hbefore, hasked⟩ := List.forall_mem_append.1 hagree
    obtain ⟨hstep, hsame⟩ := step_resolving (h.resolve_eq ▸ hasked) now
    have hnext := (ih hbefore).step now n e
    rwa [hstep, hsame] at hnext
  | @meanwhile _ _ _ c d hd hnext htasks _ ih =>
    have hmonitor : (d.resolving resolve').monitor = (c.resolving resolve').monitor :=
      congrArg (Monitor.resolving · resolve') hd
    exact .meanwhile _ hmonitor hnext htasks (ih hagree)

/-- **The shared port is captured once.** It is that of the connection which the first operation
that reads nodes and finds the control connection open obtains, whatever comes of that operation,
and there is none before; where the control connection goes later on does not matter. Every address
the monitor ever asks its resolver about has this port, and it asks about no others: with a
resolver that makes the same of these, everything goes the same. -/
theorem port_captured (h : Lifetime limit resolve calls handed notices c) :
    c.monitor.port = (calls.findSome? fun (o, control) => o.connection? control).map
      (·.address.port) ∧
    (∀ a ∈ handed, c.monitor.port = some a.port) ∧
    ∀ resolve', (∀ a ∈ handed, resolve' a = resolve a) →
      Lifetime limit resolve' calls handed notices (c.resolving resolve') :=
  ⟨h.port_eq, h.port_of_handed, fun _ => h.with_resolver⟩

/-- There is no port while the control connection is down. The port is taken when the control node
itself is to be read, though nothing is asked then, and it stays when the peers are searched over a
connection to another port; a resolver that differs there makes no difference. -/
theorem port_captured_moved :
    let down : Control := ⟨⟨⟨"10.0.0.1"⟩, 9042⟩, some .closed, []⟩
    let there : Control := { down with unavailable := none }
    let moved : Control := ⟨⟨⟨"10.0.0.2"⟩, 9142⟩, none, []⟩
    let a : Address := ⟨⟨"127.0.0.3"⟩, 9042⟩
    let b : Address := ⟨⟨"127.0.0.4"⟩, 9042⟩
    let early : List (Operation × Control) := [(.openControl, down), (.listNodes, down)]
    let calls := early ++ [(.refreshNode there.address none, there), (.findNode b, moved)]
    let other (x : Address) : Address := if x.port = 9142 then a else x
    (∃ notices c, Lifetime 50 id early [] notices c ∧ c.monitor.port = none) ∧
      ∃ notices c, Lifetime 50 id calls [a, b, b] notices c ∧ c.control = moved ∧
        c.monitor.port = some 9042 ∧ (∀ x ∈ [a, b, b], c.monitor.port = some x.port) ∧
        Lifetime 50 other calls [a, b, b] notices (c.resolving other) := by
  intro down there moved a b early calls other
  let row (x : Address) : Row := ⟨["rpc_address"], [some (.inet x.host)]⟩
  let written : Happening := .signal (.inquiry .only) .acknowledged
  let answered : Happening := .signal (.inquiry .only)
    (.delivered (.ok ⟨.result (.rows ⟨[], [row a, row b, row a], none⟩), .none⟩))
  let c₀ : Client := ⟨.sample, .fresh 50 id, down, [], 0⟩
  let c₁ := (c₀.start 0 .openControl).1
  let c₂ := (c₁.start 1 .listNodes).1
  let c₃ := ({ c₂ with control := there }.start 2 (.refreshNode there.address none)).1
  let c₄ := ({ c₃ with control := moved }.start 3 (.findNode b)).1
  let c₅ := (c₄.step 4 3 written).1
  have hwritten : c₄.asked 3 written = [] := by cbv
  have hanswered : c₅.asked 3 answered = [a, b, b] := by cbv
  have h₂ : Lifetime 50 id early [] _ c₂ := ((Lifetime.fresh c₀ rfl rfl).start 0 _).start 1 _
  have h₃ : Lifetime 50 id (early ++ [(.refreshNode there.address none, there)]) [] _ c₃ :=
    (h₂.reconnect there).start 2 _
  have h₄ : Lifetime 50 id calls [] _ c₄ := (h₃.reconnect moved).start 3 _
  have h₅ := h₄.step 4 3 written
  have h₆ := h₅.step 5 3 answered
  rw [hwritten, hanswered] at h₆
  obtain ⟨hearly, -, -⟩ := h₂.port_captured
  obtain ⟨hport, hhanded, hresolver⟩ := h₆.port_captured
  exact ⟨⟨_, _, h₂, hearly⟩, _, _, h₆, by cbv, hport, hhanded, hresolver other (by decide)⟩

end Lifetime

end Client

end ClusterClient
