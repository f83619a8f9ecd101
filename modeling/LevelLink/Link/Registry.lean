import Std.Data.TreeMap
import LevelLink.Link.Program

/-!
# The registry

The registry numbers requests, sends them, and keeps the subscribers by number.  A frame is dispatched to the
subscriber with the frame's number, if the names agree as well (`Registry.dispatch`).

A subscriber is taken out of the registry while its listeners run and put back afterwards, unless it was
removed meanwhile.  There is one place to note the subscriber that is out.  A listener that dispatches itself
uses that place anew, and afterwards it is empty.

A subscriber is added, looked for and removed by `add`, `contains` and `remove`; `send` queues a message for the peer, and
`post` one for the client itself.  `listen` delivers a message to the listeners of one subscriber.
-/

namespace LevelLink

/-- The subscribers of a link, its two queues, and the world around them. -/
structure Registry (ω : Type) where
  live : Std.TreeMap SubscriberId (Subscriber ω) := ∅
  nextId : SubscriberId := 1
  /-- The subscriber that is out while its listeners run. -/
  out : Option SubscriberId := none
  /-- Whether the subscriber that is out has been removed. -/
  outRemoved : Bool := false
  /-- Frames for the peer, the earliest first. -/
  outbox : Array Bytes := #[]
  /-- How many more frames for the peer are taken, where that is limited. -/
  room : Option Nat := none
  /-- Messages that wait to be dispatched, the earliest first. -/
  inbox : List Message := []
  world : ω

namespace Registry

variable {ω : Type} (r : Registry ω)

/-! ### Subscribers and queues -/

/-- The number after `id`.  Numbers stay non-negative. -/
def successor (id : SubscriberId) : SubscriberId := if id = Int32.maxValue then 0 else id + 1

/-- Why nothing can be sent any more. -/
def writerStopped : TransportError := .connectionClosed "writer stopped"

/-- Queues a frame for the peer. -/
def sendFrame (frame : Bytes) : Except TransportError Unit × Registry ω :=
  match r.room with
  | some 0 => (.error writerStopped, r)
  | room => (.ok (), { r with outbox := r.outbox.push frame, room := room.map (· - 1) })

/-- Sends a message that expects no reply. -/
def send (m : Message) : Except TransportError Unit × Registry ω := r.sendFrame m.frame

/-- Queues a message as if it had arrived. -/
def post (m : Message) : Registry ω := { r with inbox := r.inbox ++ [m] }

/-- Gives the subscriber the next number, sends its request and keeps it.  The number is used up even when
the request cannot be sent. -/
def add (s : Subscriber ω) : Except TransportError SubscriberId × Registry ω :=
  let id := r.nextId
  let request := (s.request.withId id).prepare
  match { r with nextId := successor id }.sendFrame request.bytes with
  | (.ok (), r) => (.ok id, { r with live := r.live.insert id { s with request } })
  | (.error e, r) => (.error e, r)

/-- Adding a subscriber, as an attempt. -/
def adding (s : Subscriber ω) : Attempt TransportError (Registry ω) SubscriberId := .of fun r => r.add s

/-- The registry in a changed world. -/
def changed (change : ω → ω) : Registry ω := { r with world := change r.world }

/-- Whether a subscriber is registered; one that is out counts until it is removed. -/
def contains (id : SubscriberId) : Bool :=
  r.live.contains id || (r.out == some id && !r.outRemoved)

/-- The number of registered subscribers; one that is out counts until it is removed. -/
def size : Nat := r.live.size + (if r.out.isSome && !r.outRemoved then 1 else 0)

/-- Removes a subscriber, and tells whether there was one to remove. -/
def remove (id : SubscriberId) : Bool × Registry ω :=
  match r.live[id]? with
  | some s => (true, { r with live := r.live.erase id, world := s.release id r.world })
  | none =>
    if r.out == some id && !r.outRemoved then
      (true, { r with outRemoved := true })
    else
      (false, r)

/-! ### Running listeners -/

/-- Runs a program.  `nested` dispatches the messages that the program dispatches itself. -/
def runWith (nested : Message → Registry ω → Nat × Registry ω) :
    Program ω → Registry ω → Option StreamError × Registry ω
  | .done, r => (none, r)
  | .fail e, r => (some e, r)
  | .look next, r => runWith nested (next r.world) r
  | .edit change next, r => runWith nested next (r.changed change)
  | .add s next, r =>
    let (a, r) := r.add s
    runWith nested (next a) r
  | .remove id next, r =>
    let (a, r) := r.remove id
    runWith nested (next a) r
  | .contains id next, r => runWith nested (next (r.contains id)) r
  | .size next, r => runWith nested (next r.size) r
  | .send m next, r =>
    let (a, r) := r.send m
    runWith nested (next a) r
  | .post m next, r => runWith nested next (r.post m)
  | .dispatch m next, r =>
    let (n, r) := nested m r
    runWith nested (next n) r

variable (nested : Message → Registry ω → Nat × Registry ω) (id : SubscriberId) (m : Message)

/-- Runs one callback, and gives what is left of it. -/
def call (c : Callback (Program ω)) (r : Registry ω) : Callback (Program ω) × Registry ω :=
  match c with
  | .each run => (c, (runWith nested (run id m) r).2)
  | .once run => (.spent, (runWith nested (run id m) (r.remove id).2).2)
  | .spent => (.spent, (r.remove id).2)

/-- Runs callbacks in order, whatever becomes of the subscriber meanwhile. -/
def callAll : List (Callback (Program ω)) → Registry ω → List (Callback (Program ω)) × Registry ω
  | [], r => ([], r)
  | c :: rest, r =>
    let (c, r) := call nested id m c r
    let (rest, r) := callAll rest r
    (c :: rest, r)

/-- Runs the listeners of a subscriber that is out.  When the stream handler fails, its error listener runs
instead of the callbacks and the subscriber is removed. -/
def listen (s : Subscriber ω) (r : Registry ω) : Subscriber ω × Registry ω :=
  let callbacks (r : Registry ω) :=
    let (callbacks, r) := callAll nested id m s.callbacks r
    ({ s with callbacks }, r)
  match s.handler with
  | none => callbacks r
  | some h =>
    match runWith nested (h.onFrame id m) r with
    | (none, r) => callbacks r
    | (some e, r) => (s, ((runWith nested (h.onError id e) r).2.remove id).2)

/-- Notes that a subscriber is out. -/
def takeOut (id : SubscriberId) : Registry ω :=
  { r with live := r.live.erase id, out := some id, outRemoved := false }

/-- Puts the subscriber back that was out, or lets it go if it was removed. -/
def putBack (s : Subscriber ω) (id : SubscriberId) : Registry ω :=
  let back := { r with out := none, outRemoved := false }
  if r.outRemoved then
    { back with world := s.release id back.world }
  else
    { back with live := back.live.insert id s }

/-- Dispatches a message to the subscriber it is for, and tells how many got it.  Dispatches nest at most
`depth` deep; deeper ones reach nobody. -/
def dispatch : (depth : Nat) → Message → Registry ω → Nat × Registry ω
  | 0, _, r => (0, r)
  | depth + 1, m, r =>
    match r.live[m.id]? with
    | none => (0, r)
    | some s =>
      if s.accepts m then
        let (s, r) := listen (dispatch depth) m.id m s (r.takeOut m.id)
        (1, r.putBack s m.id)
      else
        (0, r)

/-! ### The inbox -/

/-- How much has been dispatched. -/
structure Tally where
  frames : Nat := 0
  /-- The number of times that a subscriber got a frame. -/
  deliveries : Nat := 0
  deriving DecidableEq, Repr

/-- Dispatches the messages that wait, and those that this makes wait, up to `fuel` of them. -/
def drain (depth : Nat) : (fuel : Nat) → Registry ω → Tally × Registry ω
  | 0, r => ({}, r)
  | fuel + 1, r =>
    match r.inbox with
    | [] => ({}, r)
    | m :: rest =>
      let (n, r) := dispatch depth m { r with inbox := rest }
      let (tally, r) := drain depth fuel r
      (⟨tally.frames + 1, tally.deliveries + n⟩, r)

/-- Takes a frame from the peer in: dispatches it, and then what waits.  Tells how many times a subscriber got
a frame. -/
def deliver (depth fuel : Nat) (frame : Bytes) (r : Registry ω) : Except ProtocolError Nat × Registry ω :=
  match Message.ofFrame frame with
  | .error e => (.error e, r)
  | .ok m =>
    let (n, r) := dispatch depth m r
    let (tally, r) := drain depth fuel r
    (.ok (n + tally.deliveries), r)

end Registry
end LevelLink
