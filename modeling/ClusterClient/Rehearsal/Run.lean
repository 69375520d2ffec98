import ClusterClient.Rehearsal.Bound
import ClusterClient.Rehearsal.Record

/-!
# Rehearsals

A `Play` runs a client against scripted connections with a clock of whole milliseconds.
Computation takes no time. At a moment the cues of the scene have a round of turns, in their order
(`Play.turn`): a cue goes on as long as something is due for it, a write that is through, a time
that is up, a reply that came. After the round replies land; they are looked at in another round.
When no reply lands any more, the clock moves to the next moment at which something happens, and
there is a round if it happens to a cue. So a time that is up counts before a reply of the same
moment.

A cue that would wait forever is given up `patience` milliseconds after it began, on its own: the
other cues of its scene go on. A scene is played for `Script.bound` steps at most; the cues that are
not over by then are stuck. `Script.play` plays a whole script.
-/

namespace ClusterClient.Rehearsal

/-- What is to be done at once. -/
inductive Work where
  | notice (notice : Notice)
  | signal (ticket : Ticket) (signal : Signal)

/-- Where a cue stands. -/
inductive Standing where
  | waiting
  | sleeping (since : Nat) (till : Nat)
  /-- The turns are those that the cue had since its task began. -/
  | running (since : Nat) (task : Nat) (turns : Nat)
  | ended (ending : CueEnd)

/-- A cue of the scene, with the time it starts at. -/
structure Branch where
  start : Nat
  cue : Cue
  standing : Standing

/-- A client with its scripted connections, the clock, and the scene that is played. -/
structure Play where
  script : Script
  client : Client
  transport : Transport
  now : Nat
  handles : List (String × HandleId)
  prepared : List (String × PreparedStatement)
  /-- When the scene began. -/
  since : Nat
  branches : List Branch
  /-- The places of the branches that still have their turn in this round. -/
  round : List Nat
  works : List Work
  /-- The replies that came and were not looked at, in the order they landed. -/
  letters : List (Ticket × Delivery)
  entries : List (Nat × Entry)

/-- How long a cue is waited for, in milliseconds. -/
def patience : Nat := 1000000000

namespace Branch

/-- When something happens to a branch by itself: it begins, its time to wait is over, or it is
given up. -/
def due? (b : Branch) : Option Nat :=
  match b.standing with
  | .waiting => some b.start
  | .sleeping since till => some (min till (since + patience))
  | .running since _ _ => some (since + patience)
  | .ended _ => none

/-- How a branch ended. -/
def ending (b : Branch) : CueEnd :=
  match b.standing with
  | .ended e => e
  | _ => .stuck

end Branch

namespace Play

/-- Writes down what was seen now. -/
def note (p : Play) (es : List Entry) : Play :=
  { p with entries := p.entries ++ es.map fun e => (p.now - p.since, e) }

/-- Puts something to be done first. -/
def push (p : Play) (ws : List Work) : Play :=
  { p with works := ws ++ p.works }

/-- Lets a client take over. -/
def act (p : Play) (moved : Client × List Notice) : Play :=
  { p with client := moved.1 }.push (moved.2.map .notice)

/-- Takes over what the transport did for a request. -/
def carry (p : Play) (ticket : Ticket) (c : Carried) : Play :=
  ({ p with transport := c.transport }.note (c.seen.map .transport)).push
    (c.signals.map (.signal ticket))

/-- Keeps a statement that a cue prepared. -/
def keepPrepared (p : Play) (cue : Cue) (o : Outcome) : Play :=
  match cue, o with
  | .prepare _ name _, .prepared (.ok s) => { p with prepared := (name, s) :: p.prepared }
  | _, _ => p

/-- Ends the cue whose task is over. -/
def finish (p : Play) (task : Nat) (o : Outcome) : Play :=
  p.branches.foldl
    (fun p b =>
      match b.standing with
      | .running since n _ =>
        if n = task then
          let p := p.keepPrepared b.cue o
          { p with branches := p.branches ++
              [{ b with standing := .ended (.came (.ofOutcome p.client o) (p.now - since)) }] }
        else { p with branches := p.branches ++ [b] }
      | _ => { p with branches := p.branches ++ [b] })
    { p with branches := [] }

/-- Does what a notice asks for, and writes it down. -/
def attend (p : Play) : Notice → Play
  | .execution terms a => p.note (Entry.ofAct terms a)
  | .issued ticket connection request =>
    p.carry ticket (p.transport.accept p.now ticket connection.id request)
  | .pool (.opened id address) =>
    { p with
      transport := p.transport.setLine (.pool id) (p.script.laterPool address).replies }.note
      [.pool (.opened id address)]
  | .pool a => p.note [.pool a]
  | .controlOpening => p.note [.controlOpening]
  | .inquiring text limit =>
    if p.script.monitor.recorded then p.note [.inquiring text limit] else p
  | .complaint text => p.note [.warning text]
  | .finished task o => p.finish task o

/-- Lets something happen to a task. -/
def happen (p : Play) (task : Nat) (h : Happening) : Play :=
  p.act (p.client.step p.now task h)

/-- The nodes the session starts with, each with a pool of its own. -/
def firstNodes (p : Play) : List Node :=
  p.script.nodes.zipIdx.map fun (n, i) => ⟨n.address, n.broadcast, n.datacenter, n.rack, i⟩

/-- Makes a load balancer. -/
def makeBalancer (p : Play) (b : BalancerScript) (observed : Bool) :
    BalancerId × Play :=
  let initial := p.firstNodes
  let rule : BalancerRule :=
    match b with
    | .roundRobin => .roundRobin 0
    | .fixed pick fallback => .fixed (pick.bind (initial[·]?)) (fallback.filterMap (initial[·]?))
  let (id, session) := p.client.session.addBalancer ⟨rule, observed⟩
  (id, { p with client := { p.client with session := session } })

/-- Makes the load balancer of a setting, if it sets one. -/
def makeBalancer? (p : Play) : Option BalancerScript → Option BalancerId × Play
  | none => (none, p)
  | some b =>
    let (id, p) := p.makeBalancer b true
    (some id, p)

/-- The profile a named handle points at. -/
def pointee? (p : Play) (name : String) : Option Profile :=
  (p.handles.lookup name).bind p.client.session.targets.profile?

/-- Builds a profile. One that starts from nothing has a load balancer of its own. -/
def buildProfile (p : Play) (profile : ProfileScript) : Profile × Play :=
  let (base, p) : Profile × Play :=
    match profile.start.bind p.pointee? with
    | some base => (base, p)
    | none =>
      let (id, p) := p.makeBalancer .roundRobin false
      (.standard id, p)
  let (balancer, p) := p.makeBalancer? profile.balancer
  (base.change
    { timeout := profile.timeout
      consistency := profile.consistency
      balancer := balancer
      retry := profile.retry.map fun retry => ⟨retry.rule, true⟩
      speculation := profile.speculation }, p)

/-- Builds the settings of a statement. -/
def buildChange (p : Play) (c : ConfigScript) : StatementChange × Play :=
  let (balancer, p) : Option (Option BalancerId) × Play :=
    match c.balancer with
    | none => (none, p)
    | some b =>
      let (id, p) := p.makeBalancer? b
      (some id, p)
  ({ consistency := c.consistency
     idempotent := c.idempotent
     timeout := c.timeout
     handle := c.handle.map fun name => name.bind fun name => p.handles.lookup name
     balancer := balancer
     retry := c.retry.map fun retry => retry.map fun retry => ⟨retry.rule, true⟩
     pageSize := c.pageSize }, p)

/-- The connection of an identifier. -/
def connectionOf (p : Play) (id : ConnectionId) : Connection :=
  match id with
  | .control => ⟨id, p.client.control.address⟩
  | .pool n => ⟨id, ((p.client.session.pools[n]?).map (·.endpoint)).getD default⟩

/-- What a cue is: something to be done at once with its result, an operation of the client, or a
time to wait. -/
inductive Deed where
  | atOnce (result : Result)
  | operation (o : Operation)
  | wait (time : Nat)

/-- Changes the session of the client. -/
def withSession (p : Play) (f : Session → Session) : Play :=
  { p with client := { p.client with session := f p.client.session } }

/-- Changes the control connection. -/
def withControl (p : Play) (f : Control → Control) : Play :=
  { p with client := { p.client with control := f p.client.control } }

/-- Prepares to do a cue. -/
def deed (p : Play) : Cue → Deed × Play
  | .query text values paging config =>
    let (change, p) := p.buildChange config
    (.operation (.query ((Statement.ofText text).change change) values paging), p)
  | .prepare text _ config =>
    let (change, p) := p.buildChange config
    (.operation (.prepare ((Statement.ofText text).change change)), p)
  | .execute name values paging config =>
    match p.prepared.lookup name with
    | none => (.atOnce .notPrepared, p)
    | some s =>
      let (change, p) := p.buildChange config
      (.operation (.execute (s.change change) values paging), p)
  | .useKeyspace name caseSensitive => (.operation (.useKeyspace name caseSensitive), p)
  | .push connection replies =>
    (.atOnce .nothing, { p with transport := p.transport.push connection replies })
  | .breakPool pool cause =>
    (.atOnce .nothing, p.withSession fun s =>
      { s with pools := s.pools.modify pool fun pool => { pool with broken := cause } })
  | .sleep time => (.wait time, p)
  | .mapProfile handle profile =>
    let (profile, p) := p.buildProfile profile
    match p.handles.lookup handle with
    | none => (.atOnce .nothing, p)
    | some h =>
      (.atOnce .nothing, p.withSession fun s => { s with targets := s.targets.map h profile })
  | .reconnect address replies =>
    (.atOnce .nothing,
      { p.withControl fun c => { c with address := address } with
        transport := p.transport.setLine .control replies })
  | .breakControl cause =>
    (.atOnce .nothing, p.withControl fun c => { c with unavailable := cause })
  | .overview => (.atOnce (.overview (.of p.client)), p)
  | .openControl => (.operation .openControl, p)
  | .listNodes => (.operation .listNodes, p)
  | .refreshNode address broadcast => (.operation (.refreshNode address broadcast), p)
  | .findNode address => (.operation (.findNode address), p)
  | .port => (.atOnce (.port p.client.monitor.port), p)
  | .refreshCluster =>
    (.operation (.refreshCluster fun address => (p.script.laterPool address).pool address), p)
  | .inquire connection text values limit pageSize =>
    (.operation (.inquire (p.connectionOf connection) text values limit pageSize), p)

/-- Starts the cue of a branch. -/
def begin (p : Play) (i : Nat) (b : Branch) : Play :=
  let (deed, p) := p.deed b.cue
  let keep (p : Play) (standing : Standing) : Play :=
    { p with branches := p.branches.set i { b with standing := standing } }
  match deed with
  | .atOnce result => keep p (.ended (.came result 0))
  | .wait time => keep p (.sleeping p.now (p.now + time))
  | .operation o =>
    let p := keep p (.running p.now p.client.nextTask 0)
    p.act (p.client.start p.now o)

/-- The requests a task waits for, in the order they are looked at. Those of an execution for which
a reply came are first, the others follow in the order their attempts began. The two questions of a
listing are first in turns. -/
def order (p : Play) (task turns : Nat) : List RequestId :=
  match p.client.task? task with
  | some (.executing _ _ x) =>
    ((p.letters.filter (·.1.task = task)).map (·.1.request)) ++
      x.pending.map fun (n, stage) => .attempt n stage
  | some (.listing ..) =>
    if turns % 2 = 0 then [.inquiry .localTable, .inquiry .peersTable]
    else [.inquiry .peersTable, .inquiry .localTable]
  | some _ => [.inquiry .only]
  | none => []

/-- The alarm that ends the wait for a request. -/
def alarmOf : RequestId → Alarm
  | .attempt n _ => .attempt n
  | .inquiry part => .inquiry part

/-- Whether an alarm of a task is due by now. -/
def isDue (p : Play) (task : Nat) (a : Alarm) : Bool :=
  p.client.alarms.any fun (time, n, b) => time ≤ p.now && n = task && a = b

/-- Goes on with a request that is waited for, if it has a reply, its write is through or its time
is up. -/
def attendRequest? (p : Play) (task : Nat) (r : RequestId) : Option Play :=
  let ticket : Ticket := ⟨task, r⟩
  match p.letters.lookup ticket with
  | some delivery =>
    some ({ p with letters := p.letters.filter (·.1 ≠ ticket) }.happen task
      (.signal r (.delivered delivery)))
  | none =>
    match p.transport.written? p.now ticket with
    | some carried => some (p.carry ticket carried)
    | none =>
      if p.isDue task (alarmOf r) then some (p.happen task (.alarm (alarmOf r))) else none

/-- Goes on with a task for which something is due. -/
def attendTask? (p : Play) (task turns : Nat) : Option Play :=
  match (p.order task turns).findSome? (p.attendRequest? task) with
  | some p => some p
  | none =>
    if p.isDue task .launch then some (p.happen task (.alarm .launch))
    else if p.client.wantsResume task then some (p.happen task .resume)
    else none

/-- Gives a branch its turn: the next thing that is due for it is done, or its turn is over. A cue
that still runs after all that time is given up, and its task with it. -/
def turn (p : Play) (i : Nat) (later : List Nat) : Play :=
  let passed : Play := { p with round := later }
  match p.branches[i]? with
  | none => passed
  | some b =>
    let stand (p : Play) (standing : Standing) : Play :=
      { p with branches := p.branches.set i { b with standing := standing } }
    let isDue := b.due?.any (· ≤ p.now)
    match b.standing with
    | .waiting => if isDue then p.begin i b else passed
    | .sleeping since till =>
      if isDue then
        stand p (.ended (if till ≤ p.now then .came .nothing (p.now - since) else .stuck))
      else passed
    | .running since task turns =>
      match p.attendTask? task turns with
      | some p => p
      | none =>
        if isDue then stand { p with client := p.client.drop task } (.ended .stuck)
        else stand passed (.running since task (turns + 1))
    | .ended _ => passed

/-- Begins a round, in which every branch has its turn. -/
def beginRound (p : Play) : Play :=
  { p with round := List.range p.branches.length }

/-- What lands: a reply is kept if it is still waited for. A write that lands is one that nobody
looked after, and nothing comes of it. -/
def land (p : Play) (f : Flight) : Play :=
  match f.transit with
  | .writing .. => p
  | .replying delivery =>
    if p.client.awaits f.ticket (.delivered delivery) then
      { p with letters := p.letters ++ [(f.ticket, delivery)] }
    else p.note [.transport (.discarded f.connection)]

/-- Whether something happens to a branch or its task by now. -/
def isWoken (p : Play) : Bool :=
  p.branches.any (fun b => b.due?.any (· ≤ p.now)) ||
    p.client.alarms.any (fun (time, _) => time ≤ p.now) ||
    p.transport.flights.any fun f =>
      f.isWrite && f.time ≤ p.now && p.client.awaits f.ticket .acknowledged

/-- Whether a reply came that is still waited for. -/
def hasLetter (p : Play) : Bool :=
  p.letters.any fun (ticket, delivery) => p.client.awaits ticket (.delivered delivery)

/-- The times at which something happens. -/
def moments (p : Play) : List Nat :=
  p.transport.flights.map (·.time) ++ p.client.alarms.map (·.1) ++ p.branches.filterMap (·.due?)

/-- Moves the clock to the next moment. -/
def tick (p : Play) : Option Play :=
  p.moments.min?.map fun time =>
    let p := { p with now := time }
    if p.isWoken then p.beginRound else p

/-- Whether every branch has ended. -/
def isDone (p : Play) : Bool :=
  p.branches.all fun b => b.due?.isNone

/-- Does the next thing, or moves the clock; nothing if the scene is over. -/
def step (p : Play) : Option Play :=
  match p.works, p.round with
  | .notice n :: works, _ => some ({ p with works := works }.attend n)
  | .signal ticket s :: works, _ =>
    some ({ p with works := works }.happen ticket.task (.signal ticket.request s))
  | [], i :: later => some (p.turn i later)
  | [], [] =>
    if p.isDone then none
    else
      match p.transport.land? p.now with
      | some (f, transport) => some ({ p with transport := transport }.land f)
      | none => if p.hasLetter then some p.beginRound else p.tick

/-- Does one thing after the other until the scene is over, at most a number of times. -/
def run : Nat → Play → Play
  | 0, p => p
  | fuel + 1, p =>
    match p.step with
    | none => p
    | some p => run fuel p

/-- Plays a scene and writes down what was seen. -/
def runScene (bound : Nat) (p : Play) (scene : Scene) : SceneRecord × Play :=
  let cues : List (Nat × Cue) :=
    match scene with
    | .single cue => [(0, cue)]
    | .together cues => cues
  let p := { p with
    since := p.now
    branches := cues.map fun (start, cue) => ⟨p.now + start, cue, .waiting⟩
    letters := []
    entries := [] }
  let p := p.beginRound.run bound
  let endings := p.branches.map (·.ending)
  let ending : SceneEnd :=
    match scene, endings with
    | .single _, e :: _ => .single e
    | _, es => .together es (if es.any (·.isStuck) then none else some (p.now - p.since))
  (⟨p.entries, ending, p.client.session.keyspace⟩, p)

/-- Plays the scenes one after the other. -/
def runScenes (bound : Nat) : Play → List Scene → List SceneRecord
  | _, [] => []
  | p, scene :: scenes =>
    let (record, p) := p.runScene bound scene
    record :: runScenes bound p scenes

end Play

/-- A client as a script has it at the start, before the profiles are built. -/
def Play.blank (s : Script) : Play :=
  let pools := s.nodes.map fun n => n.pool.pool n.address
  let session : Session := ⟨[], none, pools, [], [], [], 0, s.controlLimit⟩
  let limit :=
    s.monitor.limit.getD (if s.monitor.standalone then standardControlLimit else s.controlLimit)
  { script := s
    client :=
      { session := session
        monitor := .fresh limit s.addressMap.apply
        control := ⟨s.control.address, s.control.unavailable, s.control.openings⟩
        tasks := []
        nextTask := 0 }
    transport :=
      { lines := (.control, s.control.replies) ::
          s.nodes.zipIdx.map fun (n, i) => (.pool i, n.pool.replies)
        flights := [] }
    now := 0
    handles := []
    prepared := []
    since := 0
    branches := []
    round := []
    works := []
    letters := []
    entries := [] }

/-- Builds a profile and makes a handle for it. -/
def Play.addHandle (p : Play) (profile : ProfileScript) (label : Option String) :
    HandleId × Play :=
  let (built, p) := p.buildProfile profile
  let (id, targets) := p.client.session.targets.add built label
  (id, p.withSession fun s => { s with targets := targets })

/-- Builds the profiles of a script, each with a handle of its name, and the handle of statements
that have none of their own. -/
def Play.makeHandles (p : Play) : Play :=
  let p := p.script.profiles.foldl
    (fun p (name, profile) =>
      let (id, p) := p.addHandle profile (some name)
      { p with handles := (name, id) :: p.handles }) p
  match p.script.handle.bind fun name => p.handles.lookup name with
  | some h => p.withSession fun s => { s with handle := h }
  | none =>
    let (h, p) := p.addHandle ⟨none, none, none, none, none, none⟩ none
    p.withSession fun s => { s with handle := h }

/-- Opens the session over the nodes of the script. -/
def Play.openSession (p : Play) : List Entry × Play :=
  let s := p.client.session
  let (session, acts) := Session.start p.firstNodes s.pools s.balancers s.targets s.handle
    s.controlLimit p.script.keyspace
  (acts.map .pool, p.withSession fun _ => session)

/-- Plays a script. -/
def Script.play (s : Script) : Record :=
  let (entries, p) := (Play.blank s).makeHandles.openSession
  ⟨entries, p.client.session.keyspace, p.runScenes s.bound s.scenes⟩

end ClusterClient.Rehearsal
