import ClusterClient.Rehearsal.Script

/-!
# Scripted connections

A `Transport` holds what each connection still replies and what is on its way. `Transport.accept`
takes a request, `Transport.reach` goes on once its write is through. What takes no time is given
back at once as signals; all else is a `Flight`: the write of a request is looked after by whoever
waits for it (`Transport.written?`), a reply lands by itself (`Transport.land?`).
-/

namespace ClusterClient.Rehearsal

/-- What others see of a request. -/
inductive Sighting where
  | sent (connection : ConnectionId) (request : Request)
  | writeFailed (connection : ConnectionId)
  /-- What came back was not waited for any more. -/
  | discarded (connection : ConnectionId)

/-- What is on its way. -/
inductive Transit where
  | writing (request : Request) (reply : Reply)
  | replying (delivery : Delivery)

/-- Something on its way, with the time it arrives. -/
structure Flight where
  time : Nat
  ticket : Ticket
  connection : ConnectionId
  transit : Transit

/-- Whether it is a request that is being written. -/
def Flight.isWrite (f : Flight) : Bool :=
  match f.transit with
  | .writing .. => true
  | .replying _ => false

/-- What the connections still reply and what is on its way, in the order it set out. -/
structure Transport where
  lines : List (ConnectionId × List Reply)
  flights : List Flight

/-- What a transport does at once. -/
structure Carried where
  transport : Transport
  seen : List Sighting
  signals : List Signal

namespace Transport

/-- What a connection still replies. -/
def line (t : Transport) (c : ConnectionId) : List Reply :=
  (t.lines.lookup c).getD []

/-- Sets what a connection replies. -/
def setLine (t : Transport) (c : ConnectionId) (replies : List Reply) : Transport :=
  { t with lines := (c, replies) :: t.lines.filter (·.1 ≠ c) }

/-- Adds to what a connection replies. -/
def push (t : Transport) (c : ConnectionId) (replies : List Reply) : Transport :=
  t.setLine c (t.line c ++ replies)

/-- Takes the next reply of a connection. -/
def take (t : Transport) (c : ConnectionId) : Reply × Transport :=
  match t.line c with
  | [] => (.standard, t)
  | r :: later => (r, t.setLine c later)

/-- Sends something on its way. -/
def dispatch (t : Transport) (f : Flight) : Transport :=
  { t with flights := t.flights ++ [f] }

/-- Goes on with a request whose write is through. -/
def reach (t : Transport) (now : Nat) (ticket : Ticket) (c : ConnectionId) (request : Request)
    (reply : Reply) : Carried :=
  match reply.effect with
  | .writeFails cause => ⟨t, [.writeFailed c], [.writeFailed cause]⟩
  | .silence => ⟨t, [.sent c request], [.acknowledged]⟩
  | .comesBack delivery =>
    if reply.after = 0 then ⟨t, [.sent c request], [.acknowledged, .delivered delivery]⟩
    else
      ⟨t.dispatch ⟨now + reply.after, ticket, c, .replying delivery⟩, [.sent c request],
        [.acknowledged]⟩

/-- Takes a request for a connection. -/
def accept (t : Transport) (now : Nat) (ticket : Ticket) (c : ConnectionId) (request : Request) :
    Carried :=
  let (reply, t) := t.take c
  if reply.writeAfter = 0 then t.reach now ticket c request reply
  else
    ⟨t.dispatch ⟨now + reply.writeAfter, ticket, c, .writing request reply⟩, [], []⟩

/-- Takes out the first flight that passes a test. -/
def takeFirst? (test : Flight → Bool) : List Flight → Option (Flight × List Flight)
  | [] => none
  | f :: fs =>
    if test f then some (f, fs)
    else (takeFirst? test fs).map fun (g, gs) => (g, f :: gs)

/-- Goes on with a request that is being written, if its write is through by now. -/
def written? (t : Transport) (now : Nat) (ticket : Ticket) : Option Carried :=
  match takeFirst? (fun f => f.isWrite && f.ticket = ticket && f.time ≤ now) t.flights with
  | some (⟨_, _, c, .writing request reply⟩, later) =>
    some ({ t with flights := later }.reach now ticket c request reply)
  | _ => none

/-- Takes out the first flight that is over by now. -/
def land? (t : Transport) (now : Nat) : Option (Flight × Transport) :=
  (takeFirst? (fun f => f.time ≤ now) t.flights).map fun (f, later) =>
    (f, { t with flights := later })

end Transport

end ClusterClient.Rehearsal
