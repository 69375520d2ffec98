import ClusterClient.Rehearsal.Script

/-!
# Timelines

A `Timeline` runs a client against nodes of which is known beforehand what becomes of each request
(`Replies`). A `Play` has one order for what happens at one moment; a timeline takes any, which is
given by ranks (`Trigger`). Any number of operations may be under way, and whatever else changes the
session or the control connection comes in from outside (`Incident`). Load balancers and retry
policies are part of the session and learn as it goes on: they may answer by all they were asked and
told before (`BalancerRule.learn`, `Lore`).

Computation takes no time: what is due at once goes first, without interruption. Then the earliest
cause comes about (`Timeline.next`): a write is through or a reply arrives, an alarm goes off, or
something comes in from outside. All that the client does is recorded with its time.
-/

namespace ClusterClient.Rehearsal

/-- What becomes of each request. -/
abbrev Replies := Ticket → Reply

/-- What comes in from outside. -/
inductive Incident where
  | begins (operation : Operation)
  /-- The session and the control connection change from elsewhere. -/
  | changes (session : Session → Session) (control : Control → Control)

/-- Something that is to happen to a task at a time. -/
structure Due where
  time : Nat
  task : Nat
  happening : Happening

/-- What is on its way for a request. -/
inductive Freight where
  | write
  | reply (delivery : Delivery)

/-- Something on its way for a request, with the time it arrives. -/
structure Letter where
  time : Nat
  ticket : Ticket
  freight : Freight

/-- What comes about at a time of its own. -/
inductive Cause where
  | letter (letter : Letter)
  | alarm (time task : Nat) (alarm : Alarm)
  | incident (time : Nat) (incident : Incident)

/-- What is done next: something due at once, or what comes about at its time. -/
inductive Deed where
  | due (due : Due)
  | cause (cause : Cause)

/-- What a cause is ranked by among those of the same moment. The requests of one attempt have the
same rank. -/
inductive Trigger where
  | write (task : Nat) (of : Nat ⊕ Part)
  | reply (task : Nat) (of : Nat ⊕ Part)
  | alarm (task : Nat) (alarm : Alarm)
  | incident

/-- Something the client did, with the time and the task it did it for. -/
structure Sight where
  time : Nat
  task : Nat
  notice : Notice

/-- What handing over a request gives: what is due at once, and what is on its way. -/
structure Parcel where
  due : List Due
  mail : List Letter

/-- Something that comes back for a request. -/
def Due.signal (time : Nat) (t : Ticket) (s : Signal) : Due :=
  ⟨time, t.task, .signal t.request s⟩

namespace Reply

/-- Goes on with a request whose write is through. -/
def reach (r : Reply) (now : Nat) (t : Ticket) : Parcel :=
  match r.effect with
  | .writeFails cause => ⟨[.signal now t (.writeFailed cause)], []⟩
  | .silence => ⟨[.signal now t .acknowledged], []⟩
  | .comesBack delivery =>
    if r.after = 0 then
      ⟨[.signal now t .acknowledged, .signal now t (.delivered delivery)], []⟩
    else ⟨[.signal now t .acknowledged], [⟨now + r.after, t, .reply delivery⟩]⟩

/-- Takes a request. -/
def accept (r : Reply) (now : Nat) (t : Ticket) : Parcel :=
  if r.writeAfter = 0 then r.reach now t else ⟨[], [⟨now + r.writeAfter, t, .write⟩]⟩

end Reply

/-- What a request belongs to: an attempt, or a question of a reading. -/
def party : RequestId → Nat ⊕ Part
  | .attempt number _ => .inl number
  | .inquiry part => .inr part

/-- The request a notice hands over. -/
def ticket? : Notice → Option Ticket
  | .issued ticket _ _ => some ticket
  | _ => none

namespace Cause

/-- The letter a cause is, if it is one. -/
def letter? : Cause → Option Letter
  | .letter l => some l
  | .alarm .. | .incident .. => none

/-- The time a cause comes about, and its rank among those of the same moment. -/
def key (rank : Trigger → Nat) : Cause → Nat × Nat
  | .letter ⟨time, ⟨task, request⟩, .write⟩ => (time, rank (.write task (party request)))
  | .letter ⟨time, ⟨task, request⟩, .reply _⟩ => (time, rank (.reply task (party request)))
  | .alarm time task a => (time, rank (.alarm task a))
  | .incident time _ => (time, rank .incident)

end Cause

/-- Whether a key comes before another: it is earlier, or of the same moment and ranked before. -/
def precedes (a b : Nat × Nat) : Bool :=
  a.1 < b.1 || a.1 = b.1 && a.2 < b.2

/-- The first element of the smallest key, and the others. -/
def pick {α : Type} (key : α → Nat × Nat) : List α → Option (α × List α)
  | [] => none
  | a :: l =>
    match pick key l with
    | none => some (a, [])
    | some (b, others) => if precedes (key b) (key a) then some (b, a :: others) else some (a, l)

/-- A client among its nodes. -/
structure Timeline where
  client : Client
  /-- What is due at once. -/
  ready : List Due
  mail : List Letter
  /-- What comes in from outside, with the times. -/
  incidents : List (Nat × Incident)
  record : List Sight

namespace Timeline

/-- A client to which nothing happened yet. -/
def start (client : Client) (incidents : List (Nat × Incident)) : Timeline :=
  ⟨client, [], [], incidents, []⟩

/-- Goes on with what handing over a request gives. -/
def post (x : Timeline) (p : Parcel) : Timeline :=
  { x with ready := p.due ++ x.ready, mail := x.mail ++ p.mail }

/-- Lets a client take over what it does for a task, and hands over its requests. -/
def act (replies : Replies) (time task : Nat) (x : Timeline) (moved : Client × List Notice) :
    Timeline :=
  let parcels := (moved.2.filterMap ticket?).map fun t => (replies t).accept time t
  { x with
    client := moved.1
    ready := parcels.flatMap (·.due) ++ x.ready
    mail := x.mail ++ parcels.flatMap (·.mail)
    record := x.record ++ moved.2.map fun notice => ⟨time, task, notice⟩ }

/-- Lets something happen to a task. -/
def happen (replies : Replies) (x : Timeline) (d : Due) : Timeline :=
  x.act replies d.time d.task (x.client.step d.time d.task d.happening)

/-- Lets something come in from outside. What an operation starts waits at once. -/
def meet (replies : Replies) (time : Nat) (x : Timeline) : Incident → Timeline
  | .begins o =>
    let n := x.client.nextTask
    let x := x.act replies time n (x.client.start time o)
    { x with ready := x.ready ++ [⟨time, n, .resume⟩] }
  | .changes session control =>
    { x with client := { x.client with
        session := session x.client.session
        control := control x.client.control } }

/-- What may come about next. -/
def causes (x : Timeline) : List Cause :=
  x.mail.map .letter ++
    (x.client.alarms.map fun (time, task, alarm) => .alarm time task alarm) ++
    (x.incidents.head?.map fun (time, incident) => .incident time incident).toList

/-- Lets a cause come about. -/
def perform (replies : Replies) (x : Timeline) : Cause → Timeline
  | .letter ⟨time, t, .write⟩ => x.post ((replies t).reach time t)
  | .letter ⟨time, t, .reply delivery⟩ => x.happen replies (.signal time t (.delivered delivery))
  | .alarm time task alarm => x.happen replies ⟨time, task, .alarm alarm⟩
  | .incident time incident =>
    { x with incidents := x.incidents.tail }.meet replies time incident

/-- What is done next, and what is left: what is due at once goes before the earliest cause. -/
def draw (rank : Trigger → Nat) (x : Timeline) : Option (Deed × Timeline) :=
  match x.ready with
  | d :: later => some (.due d, { x with ready := later })
  | [] => (pick (Cause.key rank) x.causes).map fun (c, others) =>
    (.cause c, { x with mail := others.filterMap Cause.letter? })

/-- Does something. -/
def carryOut (replies : Replies) (x : Timeline) : Deed → Timeline
  | .due d => x.happen replies d
  | .cause c => x.perform replies c

/-- Does what is to be done next; nothing if there is nothing to do. -/
def next (replies : Replies) (rank : Trigger → Nat) (x : Timeline) : Timeline :=
  match x.draw rank with
  | none => x
  | some (deed, rest) => rest.carryOut replies deed

end Timeline

end ClusterClient.Rehearsal
