import LevelLink.Client.Config
import LevelLink.Link.Framing
import LevelLink.Link.World

/-!
# Connections

A session on a stream of bytes to the peer and one from it.  Incoming bytes are cut into frames and wait in
the inbox until the application has them processed; outgoing frames wait in the outbox until they are
written.  Once the link is down it stays down: what waits in the inbox can still be processed, and nothing can
be sent.

Processing goes on while bytes arrive, so it is given in single steps (`Connection.advance`), between which
other events may happen.  `Connection.process` takes the steps without a pause.

`receive` is the side that reads, `writeOut` the side that writes, and `beat` the heartbeat.  The two ends of the socket are
left to the caller, who hands on bytes and takes frames.
-/

namespace LevelLink

/-- A session with the state of its link. -/
structure Connection (υ : Type) where
  number : Nat
  /-- The largest body of an incoming frame that is accepted. -/
  limit : Nat
  session : Session υ
  /-- Bytes from the peer that do not make up a frame yet. -/
  pending : Bytes := []
  /-- Whether the link is up. -/
  up : Bool := true

namespace Connection

variable {υ : Type}

/-- Connects to the peer that a configuration names.  `socket` is how the system has answered. -/
def start (config : ConnectionConfig) (socket : Except IoError Unit) (number : Nat) (app : υ)
    (files : Files.Store) : Except TransportError (Connection υ) :=
  match socket with
  | .ok () => .ok { number, limit := config.maxFrameSize.toNat, session := .start app files }
  | .error e => .error (.connectFailed config.address e)

/-- The name of a connection in messages. -/
def label (number : Nat) : String := s!"conn-{number}"

variable (c : Connection υ)

/-- Changes the counts of traffic. -/
def count (change : Traffic → Traffic) : Connection υ :=
  { c with session := c.session.changed fun w => { w with traffic := change w.traffic } }

/-! ### The link -/

/-- Takes the link down. -/
def hangUp : Connection υ := { c with up := false, session := { c.session with room := some 0 } }

/-- Takes a frame in.  A body that is no message is counted and dropped. -/
def accept (id : Int32) (body : Bytes) : Connection υ :=
  let c := c.count fun t => { t with
    bytesReceived := t.bytesReceived + Message.headerLength + body.length
    framesReceived := t.framesReceived + 1 }
  match Message.ofBody id body with
  | .ok m => { c with session := c.session.post m }
  | .error _ => c

/-- Takes bytes from the peer in. -/
def receive (bs : Bytes) : Connection υ :=
  if c.up then
    let (frames, tail) := Framing.frames c.limit (c.pending ++ bs)
    let c := frames.foldl (fun c (id, body) => c.accept id body) c
    match tail with
    | .unfinished rest => { c with pending := rest }
    | .broken _ => { c with pending := [] }.hangUp
  else
    c

/-- Takes the frames off that wait to be written. -/
def writeOut : List Bytes × Connection υ :=
  if c.up then
    let frames := c.session.outbox.toList
    let c := { c with session := { c.session with outbox := #[] } }
    (frames, c.count fun t => { t with
      bytesSent := t.bytesSent + frames.flatten.length
      framesSent := t.framesSent + frames.length })
  else
    ([], c)

/-- Sends the frame that keeps the link alive. -/
def beat : Connection υ := { c with session := (c.session.send (Message.start "HEARTBEAT" "")).2 }

/-! ### Processing -/

/-- How far a processing has come. -/
inductive Phase where
  /-- It waits for a first message, or for the link to go down. -/
  | waiting
  /-- It has found no first message, and looks whether the link is down. -/
  | watching
  | draining (processed : Nat)
  /-- It has found nothing to process. -/
  | checking
  | returned (result : Except TransportError Nat)

/-- The error of a connection that is down. -/
def linkDown : TransportError := .connectionClosed (label c.number ++ " link down")

/-- Dispatches the first message that waits. -/
def takeFirst? (depth : Nat) : Option (Connection υ) :=
  match c.session.inbox with
  | [] => none
  | m :: rest => some { c with session := (Registry.dispatch depth m { c.session with inbox := rest }).2 }

/-- One step of a processing. -/
def advance (depth : Nat) : Phase → Phase × Connection υ
  | .waiting =>
    match c.takeFirst? depth with
    | some c => (.draining 1, c)
    | none => (.watching, c)
  | .watching => (if c.up then .waiting else .draining 0, c)
  | .draining n =>
    match c.takeFirst? depth with
    | some c => (.draining (n + 1), c)
    | none => (if n = 0 then .checking else .returned (.ok n), c)
  | .checking => (.returned (if c.up then .ok 0 else .error c.linkDown), c)
  | .returned r => (.returned r, c)

/-- Takes up to `fuel` steps of a processing, without a result if that is not enough. -/
def finish (depth : Nat) : (fuel : Nat) → Phase → Connection υ → Option (Except TransportError Nat) × Connection υ
  | _, .returned r, c => (some r, c)
  | 0, _, c => (none, c)
  | fuel + 1, phase, c =>
    let (phase, c) := c.advance depth phase
    finish depth fuel phase c

/-- Processes the messages that wait, and tells how many there were.  With `wait` there has to be one, unless
the link is down. -/
def process (depth fuel : Nat) (wait : Bool) : Option (Except TransportError Nat) × Connection υ :=
  finish depth fuel (if wait then .waiting else .draining 0) c

end Connection
end LevelLink
