import ClusterClient.Client.Operation

/-!
# Clients

A `Client` is a session, a monitor of the cluster's nodes, and the operations under way, each a
numbered `Task`. It is a transition system: `Client.start` begins an operation, and `Client.step`
goes on with a task after a `Happening`. Tasks meet only in what they share, and only where they
step, so a list of happenings is one interleaving of the operations. Happenings for a task that is
over change nothing.
-/

namespace ClusterClient

/-- What a statement is executed for. -/
inductive Purpose where
  | rows
  | preparation (statement : Statement)
  | keyspace

/-- An operation under way. -/
inductive Task where
  | executing (terms : Terms) (purpose : Purpose) (execution : Execution)
  /-- Reading all nodes, to take them over if the pools of new ones can be made. -/
  | listing (listing : Listing) (provide : Option (Address → Pool))
  | looking (lookup : Lookup)
  | inquiring (inquiry : Inquiry)

/-- A session, a monitor and the operations under way. -/
structure Client where
  session : Session
  monitor : Monitor
  control : Control
  /-- The tasks under way, oldest first. -/
  tasks : List (Nat × Task)
  nextTask : Nat

/-- What can happen to a task by itself. -/
inductive Alarm where
  | launch
  | attempt (number : Nat)
  | inquiry (part : Part)
  deriving DecidableEq, Repr

/-- What happens to a task. -/
inductive Happening where
  | signal (request : RequestId) (signal : Signal)
  | alarm (alarm : Alarm)
  /-- What the task started waits, and it may go on. -/
  | resume

namespace Execution

/-- The result of a prepared call: the identifier makes the statement a prepared one. -/
def preparedResult (statement : Statement) :
    Except ExecutionError (Answer × ExecutionInfo) → Except ExecutionError PreparedStatement
  | .error e => .error e
  | .ok (a, _) =>
    match a.body with
    | .prepared id => .ok ⟨statement.config, id, statement.text, statement.pageSize⟩
    | _ => .error (.unexpectedResponse .result)

/-- The result of a call that switches the keyspace. -/
def keyspaceResult :
    Except ExecutionError (Answer × ExecutionInfo) → Except UseKeyspaceError Unit
  | .error e => .error (.execution e)
  | .ok (a, _) => if a.body.keyspace?.isSome then .ok () else .error .notSet

/-- The result of a statement. -/
def queryResult :
    Except ExecutionError (Answer × ExecutionInfo) → Except ExecutionError QueryResult
  | .error e => .error e
  | .ok (a, info) => .ok (.ofAnswer a info)

end Execution

/-- What comes of an execution, by what it was for. -/
def Purpose.outcome (p : Purpose) (r : Except ExecutionError (Answer × ExecutionInfo)) : Outcome :=
  match p with
  | .rows => .queried (Execution.queryResult r)
  | .preparation statement => .prepared (Execution.preparedResult statement r)
  | .keyspace => .keyspaceUsed (Execution.keyspaceResult r)

namespace Client

/-- The task of a number. -/
def task? (c : Client) (n : Nat) : Option Task :=
  c.tasks.lookup n

/-- Ends a task. -/
def drop (c : Client) (n : Nat) : Client :=
  { c with tasks := c.tasks.filter (·.1 ≠ n) }

/-- Keeps a task under its number. -/
def put (c : Client) (n : Nat) (t : Task) : Client :=
  if (c.task? n).isSome then
    { c with tasks := c.tasks.map fun (k, old) => if k = n then (k, t) else (k, old) }
  else { c with tasks := c.tasks ++ [(n, t)] }

/-- The requests an execution hands to connections. -/
def issued (n : Nat) (terms : Terms) : Act → List Notice
  | .issued attempt stage connection request =>
    [.execution terms (.issued attempt stage connection request),
      .issued ⟨n, .attempt attempt stage⟩ connection request]
  | act => [.execution terms act]

/-- Gives the session a keyspace an execution switched to. -/
def switchKeyspace (s : Session) (r : Except ExecutionError (Answer × ExecutionInfo)) :
    Session × List PoolAct :=
  match r with
  | .ok (a, _) =>
    match a.body.keyspace? with
    | some k => s.useKeyspace k
    | none => (s, [])
  | .error _ => (s, [])

/-- Takes over an execution that moved. One that has its result is over; a switch of the keyspace
takes effect then. -/
def settleExecution (c : Client) (n : Nat) (terms : Terms) (purpose : Purpose)
    (m : Moved Session) : Client × List Notice :=
  let notices := m.acts.flatMap (issued n terms)
  let c := { c with session := m.world }
  match m.execution.result? with
  | none => (c.put n (.executing terms purpose m.execution), notices)
  | some r =>
    let (session, acts) := switchKeyspace c.session r
    ({ c.drop n with session := session },
      notices ++ acts.map .pool ++ [.finished n (purpose.outcome r)])

/-- Ends a reading of all nodes. -/
def finishListing (c : Client) (n : Nat) (provide : Option (Address → Pool))
    (r : Except MetadataError Reading) : Client × List Notice :=
  let c := c.drop n
  match r, provide with
  | .error e, none => (c, [.finished n (.listed (.error e))])
  | .error e, some _ => (c, [.finished n (.refreshed (.error e))])
  | .ok reading, none =>
    (c, reading.complaints.map .complaint ++ [.finished n (.listed (.ok reading.nodes))])
  | .ok reading, some provide =>
    let (session, acts) := c.session.adopt provide reading.nodes
    ({ c with session := session },
      reading.complaints.map .complaint ++ acts.map .pool ++ [.finished n (.refreshed (.ok ()))])

/-- Takes over a reading of all nodes, which is over once it has its result. -/
def settleListing (c : Client) (n : Nat) (l : Listing) (provide : Option (Address → Pool)) :
    Client × List Notice :=
  match l.result? c.monitor with
  | none => (c.put n (.listing l provide), [])
  | some r => c.finishListing n provide r

/-- Takes over a reading of one node. -/
def settleLookup (c : Client) (n : Nat) (l : Lookup) : Client × List Notice :=
  match l.result? c.monitor with
  | none => (c.put n (.looking l), [])
  | some (.error e) => (c.drop n, [.finished n (.found (.error e))])
  | some (.ok reading) =>
    (c.drop n, reading.complaints.map .complaint ++
      [.finished n (.found (.ok reading.nodes.head?))])

/-- Takes over a single inquiry. -/
def settleInquiry (c : Client) (n : Nat) (i : Inquiry) : Client × List Notice :=
  match i.result with
  | none => (c.put n (.inquiring i), [])
  | some r => (c.drop n, [.finished n (.inquired r)])

/-- What is seen of a query over the control connection. -/
def put? (n : Nat) (part : Part) (i : Inquiry) : List Notice :=
  let text := match i.request with
    | .query text _ => text
    | _ => ""
  [.inquiring text i.limit, .issued ⟨n, .inquiry part⟩ i.connection i.request]

/-- Starts executing a call. -/
def startCall (c : Client) (now n : Nat) (config : StatementConfig) (call : Call)
    (purpose : Purpose) : Client × List Notice :=
  let terms := Terms.ofCall c.session config call
  c.settleExecution n terms purpose
    (Execution.start terms.environment terms.settings terms.speculation now c.session)

/-- Starts reading all nodes. -/
def startListing (c : Client) (now n : Nat) (provide : Option (Address → Pool)) :
    Client × List Notice :=
  match c.control.connection with
  | .error e => c.finishListing n provide (.error e)
  | .ok connection =>
    let l := Listing.start c.monitor connection now
    let c := { c with monitor := c.monitor.capture connection }
    (c.put n (.listing l provide), put? n .localTable l.localInquiry)

/-- Starts reading one node over the control connection. -/
def startLookup (c : Client) (n : Nat) (connection : Connection) (l : Lookup) :
    Client × List Notice :=
  let c := { c with monitor := c.monitor.capture connection }
  (c.put n (.looking l), put? n .only l.inquiry)

/-- Begins an operation under a number. -/
def begin (c : Client) (now n : Nat) : Operation → Client × List Notice
  | .query s values paging =>
    c.startCall now n s.config
      (.query s.text (.positional values) (paging.pageSize s.pageSize) paging.state) .rows
  | .prepare s =>
    c.startCall now n { s.config with idempotent := true } (.prepare s.text) (.preparation s)
  | .execute s values paging =>
    c.startCall now n s.config
      (.execute s.id s.text (.positional values) (paging.pageSize s.pageSize) paging.state)
      .rows
  | .useKeyspace name caseSensitive =>
    match checkKeyspaceName name with
    | .error e => (c, [.finished n (.keyspaceUsed (.error (.badName e)))])
    | .ok () =>
      c.startCall now n .standard (.query (useText name caseSensitive) .none .unpaged none)
        .keyspace
  | .refreshCluster provide => c.startListing now n (some provide)
  | .listNodes => c.startListing now n none
  | .refreshNode address broadcast =>
    match c.control.connection with
    | .error e => (c, [.finished n (.found (.error e))])
    | .ok connection =>
      if address = connection.address then
        ({ c with monitor := c.monitor.capture connection }, [.finished n (.found (.ok none))])
      else
        c.startLookup n connection <|
          match broadcast with
          | some host => .byBroadcast c.monitor connection host now
          | none => .scan c.monitor connection address now
  | .findNode address =>
    match c.control.connection with
    | .error e => (c, [.finished n (.found (.error e))])
    | .ok connection => c.startLookup n connection (.scan c.monitor connection address now)
  | .openControl =>
    let (r, control) := c.control.init
    ({ c with control := control }, [.controlOpening, .finished n (.controlOpened r)])
  | .inquire connection text values limit pageSize =>
    let i := Inquiry.start connection text values limit pageSize now
    (c.put n (.inquiring i), [.issued ⟨n, .inquiry .only⟩ connection i.request])

/-- Begins an operation. -/
def start (c : Client) (now : Nat) (o : Operation) : Client × List Notice :=
  { c with nextTask := c.nextTask + 1 }.begin now c.nextTask o

/-- What happens to an execution. -/
def executionEvent? : Happening → Option Event
  | .signal (.attempt number stage) signal => some (.signal number stage signal)
  | .alarm (.attempt number) => some (.expire number)
  | .alarm .launch => some .launch
  | _ => none

/-- An inquiry after what happened to it. -/
def inquiryAfter (part : Part) (h : Happening) (i : Inquiry) : Inquiry :=
  match h with
  | .signal (.inquiry p) signal => if p = part then i.react signal else i
  | .alarm (.inquiry p) => if p = part then i.expire else i
  | _ => i

/-- Goes on with a task. -/
def advance (c : Client) (now n : Nat) (t : Task) (h : Happening) : Client × List Notice :=
  match t with
  | .executing terms purpose x =>
    match executionEvent? h with
    | none => (c, [])
    | some e =>
      c.settleExecution n terms purpose
        (x.step terms.environment terms.settings now c.session e)
  | .listing l provide =>
    match h, l.peersInquiry with
    | .resume, none =>
      let l := l.askPeers c.monitor now
      (c.put n (.listing l provide), (l.peersInquiry.map (put? n .peersTable)).getD [])
    | _, _ =>
      c.settleListing n
        { l with
          localInquiry := inquiryAfter .localTable h l.localInquiry
          peersInquiry := l.peersInquiry.map (inquiryAfter .peersTable h) }
        provide
  | .looking l => c.settleLookup n { l with inquiry := inquiryAfter .only h l.inquiry }
  | .inquiring i => c.settleInquiry n (inquiryAfter .only h i)

/-- Goes on with the task of a number, if it is under way. -/
def step (c : Client) (now n : Nat) (h : Happening) : Client × List Notice :=
  match c.task? n with
  | none => (c, [])
  | some t => c.advance now n t h

/-- Whether a signal for a request would be heard. -/
def awaits (c : Client) (ticket : Ticket) (signal : Signal) : Bool :=
  match c.task? ticket.task, ticket.request with
  | some (.executing _ _ x), .attempt number stage => x.awaits number stage signal
  | some (.listing l _), .inquiry .localTable => l.localInquiry.expects signal
  | some (.listing l _), .inquiry .peersTable =>
    (l.peersInquiry.map (·.expects signal)).getD false
  | some (.looking l), .inquiry .only => l.inquiry.expects signal
  | some (.inquiring i), .inquiry .only => i.expects signal
  | _, _ => false

/-- The times at which something happens to a task by itself. -/
def taskAlarms : Task → List (Nat × Alarm)
  | .executing _ _ x =>
    x.alarms.filterMap fun
      | (t, .launch) => some (t, .launch)
      | (t, .expire number) => some (t, .attempt number)
      | (_, .signal ..) => none
  | .listing l _ =>
    (l.localInquiry.due?.map (·, Alarm.inquiry .localTable)).toList ++
      ((l.peersInquiry.bind (·.due?)).map (·, Alarm.inquiry .peersTable)).toList
  | .looking l => (l.inquiry.due?.map (·, Alarm.inquiry .only)).toList
  | .inquiring i => (i.due?.map (·, Alarm.inquiry .only)).toList

/-- The times at which something happens by itself, with the task it happens to. -/
def alarms (c : Client) : List (Nat × Nat × Alarm) :=
  c.tasks.flatMap fun (n, t) => (taskAlarms t).map fun (time, a) => (time, n, a)

/-- Whether a task waits to be resumed. -/
def wantsResume (c : Client) (n : Nat) : Bool :=
  match c.task? n with
  | some (.listing l _) => l.peersInquiry.isNone
  | _ => false

end Client

end ClusterClient
