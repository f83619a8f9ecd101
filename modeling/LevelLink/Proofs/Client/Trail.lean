import Mathlib.Algebra.Ring.Nat
import Mathlib.Data.List.Basic
import LevelLink.Client.Connection
import LevelLink.Proofs.Link.Posting
import LevelLink.Proofs.Link.Splitting

/-!
# What happens on a connection

A `Trail` is a connection with a record of what has happened on it: what the peer has sent, which messages were put in
the inbox and by whom, which of them were dispatched, and what the processings have returned.  A `Run` is any
interleaving of what the peer, the application and a processing do.  A processing takes one step of
`Connection.advance` at a time.

What is dispatched and what waits is what was put in the inbox, in that order (`Run.inOrder`), and the counts that are
returned add up to what was dispatched (`Run.paced`).
-/

namespace LevelLink

/-! ### Taking bytes in -/

/-- What a session has taken in when it has become `s'`: these frames. -/
structure Session.TookIn {υ : Type} (s s' : Session υ) (frames : List (Int32 × Bytes)) : Prop where
  inbox : s'.inbox = s.inbox ++ Framing.messages frames
  bytesReceived :
    s'.world.traffic.bytesReceived = s.world.traffic.bytesReceived + (frames.flatMap Framing.bytes).length
  framesReceived : s'.world.traffic.framesReceived = s.world.traffic.framesReceived + frames.length

theorem Session.TookIn.refl {υ : Type} (s : Session υ) : s.TookIn s [] := ⟨(List.append_nil _).symm, rfl, rfl⟩

theorem Session.TookIn.trans {υ : Type} {s s' s'' : Session υ} {front back : List (Int32 × Bytes)}
    (h : s.TookIn s' front) (h' : s'.TookIn s'' back) : s.TookIn s'' (front ++ back) := by
  refine ⟨?_, ?_, ?_⟩
  · rw [h'.inbox, h.inbox, Framing.messages_append, List.append_assoc]
  · rw [h'.bytesReceived, h.bytesReceived, List.flatMap_append, List.length_append, Nat.add_assoc]
  · rw [h'.framesReceived, h.framesReceived, List.length_append, Nat.add_assoc]

namespace Connection

variable {υ : Type}

theorem tookIn_accept {limit : Nat} (c : Connection υ) {frame : Int32 × Bytes} (h : Framing.Fits limit frame) :
    ∃ s, c.accept frame.1 frame.2 = { c with session := s } ∧ c.session.TookIn s [frame] := by
  have hmessages : Framing.messages [frame] = (Message.ofBody frame.1 frame.2).toOption.toList := by
    rw [← h.ofFrame_bytes]
    rfl
  have hbytes : ([frame].flatMap Framing.bytes).length = Message.headerLength + frame.2.length := by
    rw [List.flatMap_singleton, Framing.length_bytes]
  unfold accept
  rcases hbody : Message.ofBody frame.1 frame.2 with e | m
  · refine ⟨_, rfl, ?_, ?_, rfl⟩
    · rw [hmessages, hbody]
      exact (List.append_nil _).symm
    · rw [hbytes, ← Nat.add_assoc]
      rfl
  · refine ⟨_, rfl, ?_, ?_, rfl⟩
    · rw [hmessages, hbody]
      rfl
    · rw [hbytes, ← Nat.add_assoc]
      rfl

theorem tookIn_foldl_accept {limit : Nat} (c : Connection υ) {frames : List (Int32 × Bytes)}
    (h : ∀ frame ∈ frames, Framing.Fits limit frame) :
    ∃ s, frames.foldl (fun c frame => c.accept frame.1 frame.2) c = { c with session := s } ∧
      c.session.TookIn s frames := by
  induction frames generalizing c with
  | nil => exact ⟨c.session, rfl, .refl c.session⟩
  | cons frame frames ih =>
    obtain ⟨s, hs, hfirst⟩ := c.tookIn_accept (h frame List.mem_cons_self)
    obtain ⟨s', hs', hrest⟩ := ih { c with session := s } fun f hf => h f (List.mem_cons_of_mem _ hf)
    rw [List.foldl_cons, hs, hs']
    exact ⟨s', rfl, hfirst.trans hrest⟩

/-- What becomes of a connection that is up when bytes come: it takes the frames in that are complete with them, and
is down if what is left can be no frame. -/
structure Read (c : Connection υ) (bs : Bytes) (frames : List (Int32 × Bytes)) (rest : Bytes) (c' : Connection υ) :
    Prop where
  splits : Framing.Splits c.limit (c.pending ++ bs) frames rest
  session : c.session.TookIn c'.session frames
  limit : c'.limit = c.limit
  up : c'.up = true ↔ ¬ Framing.Broken c.limit rest
  pending : c'.up = true → c'.pending = rest

theorem exists_read {c : Connection υ} (hup : c.up = true) (bs : Bytes) :
    ∃ frames rest, c.Read bs frames rest (c.receive bs) := by
  obtain ⟨rest, hsplits, hends⟩ := Framing.splits_frames c.limit (c.pending ++ bs)
  obtain ⟨s, hs, htook⟩ := c.tookIn_foldl_accept hsplits.fits
  refine ⟨(Framing.frames c.limit (c.pending ++ bs)).1, rest, ?_⟩
  unfold receive
  rw [if_pos hup]
  dsimp only
  rw [hs]
  generalize (Framing.frames c.limit (c.pending ++ bs)).2 = tail at hends
  cases hends with
  | unfinished hbroken => exact ⟨hsplits, htook, rfl, iff_of_true hup hbroken, fun _ => rfl⟩
  | broken e hbroken =>
    exact ⟨hsplits, ⟨htook.inbox, htook.bytesReceived, htook.framesReceived⟩, rfl,
      iff_of_false Bool.false_ne_true (not_not_intro hbroken), nofun⟩

theorem receive_of_down {c : Connection υ} (hdown : c.up = false) (bs : Bytes) : c.receive bs = c := by
  unfold receive
  rw [if_neg (by simp [hdown])]

end Connection

/-! ### Trails -/

open Connection (Phase)

deriving instance DecidableEq for Phase

namespace Connection.Phase

/-- Whether the next step of a processing looks for a message. -/
def looks : Phase → Bool
  | .waiting | .draining _ => true
  | _ => false

/-- How many messages have been dispatched. -/
def processed : Phase → Nat
  | .draining n | .returned (.ok n) => n
  | _ => 0

end Connection.Phase

theorem Connection.advance_of_some {υ : Type} {c c' : Connection υ} {phase : Phase} {depth : Nat}
    (hlooks : phase.looks = true) (htake : c.takeFirst? depth = some c') :
    c.advance depth phase = (.draining (phase.processed + 1), c') := by
  cases phase with
  | waiting | draining =>
    rw [advance, htake]
    rfl
  | watching | checking | returned => cases hlooks

/-- A message that was put in the inbox. -/
structure Arrival where
  message : Message
  /-- Whether it came from the peer; otherwise it was posted on this side. -/
  fromPeer : Bool

/-- The messages that came from the peer. -/
def Arrival.ofPeer (arrivals : List Arrival) : List Message := (arrivals.filter Arrival.fromPeer).map Arrival.message

/-- The messages that were posted on this side. -/
def Arrival.posted (arrivals : List Arrival) : List Message :=
  (arrivals.filter fun a => !a.fromPeer).map Arrival.message

/-- A connection, and what has happened on it. -/
structure Trail (υ : Type) where
  conn : Connection υ
  /-- What the peer has sent, also behind what was read last. -/
  sent : Bytes := []
  /-- Whether the peer has closed. -/
  closed : Bool := false
  /-- What was put in the inbox, the earliest first. -/
  queued : List Arrival := []
  dispatched : List Message := []
  /-- What had been put in the inbox when a processing last looked for a message. -/
  seen : List Arrival := []
  /-- Whether the link was up then. -/
  upThen : Bool := true
  /-- How far the processing has come that is running. -/
  running : Option Phase := none
  /-- Whether it waits for a message, or the last one has. -/
  waits : Bool := false
  /-- What the processings have returned. -/
  results : List (Except TransportError Nat) := []

namespace Trail

variable {υ : Type} (t : Trail υ)

/-- The trail on which a connection comes to be `c`.  The messages behind `left` are new in its inbox. -/
def become (fromPeer : Bool) (left : List Message) (c : Connection υ) : Trail υ :=
  { t with
    conn := c
    queued := t.queued ++ (c.session.inbox.drop left.length).map fun m => ⟨m, fromPeer⟩ }

/-- The peer sends bytes. -/
def read (bs : Bytes) : Trail υ :=
  { t.become true t.conn.session.inbox (t.conn.receive bs) with sent := t.sent ++ bs }

/-- The peer closes. -/
def close : Trail υ := { t with conn := t.conn.hangUp, closed := true }

/-- Something else is done on the session. -/
def use (s : Session υ) : Trail υ := t.become false t.conn.session.inbox { t.conn with session := s }

/-- A processing begins. -/
def call (waits : Bool) : Trail υ :=
  { t with running := some (if waits then .waiting else .draining 0), waits }

/-- The running processing comes to a phase. -/
def goTo : Phase → Trail υ
  | .returned result => { t with running := none, results := t.results ++ [result] }
  | phase => { t with running := some phase }

/-- A processing looks for a message, and dispatches `taken`, which leaves the connection `c`. -/
def look (taken : Option Message) (c : Connection υ) : Trail υ :=
  { t.become false (t.conn.session.inbox.drop taken.toList.length) c with
    dispatched := t.dispatched ++ taken.toList
    seen := t.queued
    upThen := t.conn.up }

/-- The running processing takes a step. -/
def step (depth : Nat) : Trail υ :=
  match t.running with
  | none => t
  | some phase =>
    let (next, c) := t.conn.advance depth phase
    (if phase.looks then t.look t.conn.session.inbox.head? c else t).goTo next

/-- Two sessions that have taken the same in. -/
def SameReceived (s s' : Session υ) : Prop :=
  s'.world.traffic.bytesReceived = s.world.traffic.bytesReceived ∧
    s'.world.traffic.framesReceived = s.world.traffic.framesReceived

/-- What can happen on a connection where dispatches nest at most `depth` deep.  Only the peer takes the link down,
and only taking bytes in changes what is counted as received. -/
inductive Move (depth : Nat) : Trail υ → Trail υ → Prop where
  | read {t : Trail υ} (hopen : t.closed = false) (bs : Bytes) : Move depth t (t.read bs)
  | close (t : Trail υ) : Move depth t t.close
  /-- The application uses the session, or a frame is written, or a sender reports. -/
  | use {t : Trail υ} {s : Session υ} (hinbox : t.conn.session.inbox <+: s.inbox)
      (hreceived : SameReceived t.conn.session s) : Move depth t (t.use s)
  | call {t : Trail υ} (hidle : t.running = none) (waits : Bool) : Move depth t (t.call waits)
  | step {t : Trail υ} (hreceived : SameReceived t.conn.session (t.step depth).conn.session) :
      Move depth t (t.step depth)

/-- Any interleaving of moves. -/
inductive Run (depth : Nat) (t : Trail υ) : Trail υ → Prop where
  | refl : Run depth t t
  | move {t' t'' : Trail υ} (run : Run depth t t') (move : Move depth t' t'') : Run depth t t''

/-- A step whose listeners leave the counts of the traffic alone. -/
theorem Run.step {depth : Nat} {t t' : Trail υ} (run : Run depth t t')
    (h : (t'.step depth).conn.session.world.traffic = t'.conn.session.world.traffic) : Run depth t (t'.step depth) :=
  run.move (.step ⟨congrArg Traffic.bytesReceived h, congrArg Traffic.framesReceived h⟩)

/-- A connection on which nothing has happened. -/
def start (c : Connection υ) : Trail υ := { conn := c }

/-! ### What a step of a processing does -/

/-- What a step does in a phase. -/
inductive Stepped (t : Trail υ) : Phase → Trail υ → Prop where
  /-- It finds a message and dispatches it; what was posted meanwhile comes behind those that wait. -/
  | found {phase : Phase} {m : Message} {rest : List Message} {s : Session υ} (hlooks : phase.looks = true)
      (hinbox : t.conn.session.inbox = m :: rest) (hrest : rest <+: s.inbox) :
      Stepped t phase ((t.look (some m) { t.conn with session := s }).goTo (.draining (phase.processed + 1)))
  | notYet (hinbox : t.conn.session.inbox = []) : Stepped t .waiting ((t.look none t.conn).goTo .watching)
  | none (hinbox : t.conn.session.inbox = []) : Stepped t (.draining 0) ((t.look none t.conn).goTo .checking)
  | noMore (hinbox : t.conn.session.inbox = []) (n : Nat) :
      Stepped t (.draining (n + 1)) ((t.look none t.conn).goTo (.returned (.ok (n + 1))))
  | watch : Stepped t .watching (t.goTo (if t.conn.up then .waiting else .draining 0))
  | check : Stepped t .checking (t.goTo (.returned (if t.conn.up then .ok 0 else .error t.conn.linkDown)))
  | handled (result : Except TransportError Nat) : Stepped t (.returned result) (t.goTo (.returned result))

theorem step_of_running {phase : Phase} (depth : Nat) (hrunning : t.running = some phase) :
    t.step depth =
      (if phase.looks then t.look t.conn.session.inbox.head? (t.conn.advance depth phase).2 else t).goTo
        (t.conn.advance depth phase).1 := by
  unfold step
  rw [hrunning]

theorem stepped {phase : Phase} (depth : Nat) (hrunning : t.running = some phase) : t.Stepped phase (t.step depth) := by
  rw [t.step_of_running depth hrunning]
  by_cases hlooks : phase.looks = true
  · rw [if_pos hlooks]
    rcases hinbox : t.conn.session.inbox with _ | ⟨m, rest⟩
    · have htake : t.conn.takeFirst? depth = Option.none := by
        unfold Connection.takeFirst?
        rw [hinbox]
      cases phase with
      | waiting =>
        rw [Connection.advance, htake]
        exact .notYet hinbox
      | draining n =>
        rw [Connection.advance, htake]
        cases n with
        | zero => exact .none hinbox
        | succ n => exact .noMore hinbox n
      | watching | checking | returned => cases hlooks
    · have htake : t.conn.takeFirst? depth = some { t.conn with
          session := (Registry.dispatch depth m { t.conn.session with inbox := rest }).2 } := by
        unfold Connection.takeFirst?
        rw [hinbox]
      have hadvance := Connection.advance_of_some hlooks htake
      rw [hadvance]
      exact .found hlooks hinbox (Registry.prefix_dispatch depth m { t.conn.session with inbox := rest })
  · rw [if_neg hlooks]
    cases phase with
    | waiting | draining => exact absurd rfl hlooks
    | watching => exact .watch
    | checking => exact .check
    | returned result => exact .handled result

@[simp] theorem conn_goTo (phase : Phase) : (t.goTo phase).conn = t.conn := by cases phase <;> rfl

@[simp] theorem sent_goTo (phase : Phase) : (t.goTo phase).sent = t.sent := by cases phase <;> rfl

@[simp] theorem closed_goTo (phase : Phase) : (t.goTo phase).closed = t.closed := by cases phase <;> rfl

@[simp] theorem queued_goTo (phase : Phase) : (t.goTo phase).queued = t.queued := by cases phase <;> rfl

@[simp] theorem dispatched_goTo (phase : Phase) : (t.goTo phase).dispatched = t.dispatched := by cases phase <;> rfl

@[simp] theorem seen_goTo (phase : Phase) : (t.goTo phase).seen = t.seen := by cases phase <;> rfl

@[simp] theorem upThen_goTo (phase : Phase) : (t.goTo phase).upThen = t.upThen := by cases phase <;> rfl

@[simp] theorem waits_goTo (phase : Phase) : (t.goTo phase).waits = t.waits := by cases phase <;> rfl

theorem step_of_idle (depth : Nat) (hidle : t.running = none) : t.step depth = t := by
  unfold step
  rw [hidle]

/-! ### The queue -/

/-- What was put in the inbox is dispatched, or it waits. -/
structure InOrder (t : Trail υ) : Prop where
  queue : t.dispatched ++ t.conn.session.inbox = t.queued.map Arrival.message
  seen : t.seen <+: t.queued

variable {t}

theorem queued_become {c : Connection υ} {left more : List Message} (h : c.session.inbox = left ++ more)
    (fromPeer : Bool) :
    (t.become fromPeer left c).queued = t.queued ++ more.map fun m => ⟨m, fromPeer⟩ := by
  unfold become
  rw [h, List.drop_left]

theorem queued_become_self (fromPeer : Bool) (c : Connection υ) :
    (t.become fromPeer c.session.inbox c).queued = t.queued := by
  rw [queued_become (List.append_nil _).symm, List.map_nil, List.append_nil]

/-- Looking for a message leaves the others in the inbox. -/
theorem queued_look {taken : Option Message} {left : List Message} (hinbox : t.conn.session.inbox = taken.toList ++ left)
    (c : Connection υ) : (t.look taken c).queued = (t.become false left c).queued := by
  unfold look
  rw [hinbox, List.drop_left]

theorem map_message_arrivals (ms : List Message) (fromPeer : Bool) :
    (ms.map fun m => (⟨m, fromPeer⟩ : Arrival)).map Arrival.message = ms := by
  rw [List.map_map]
  exact List.map_id ms

namespace InOrder

/-- The queue goes on behind what is left of the inbox. -/
theorem queue_become {taken left : List Message} {c : Connection υ} (h : InOrder t)
    (hinbox : t.conn.session.inbox = taken ++ left) (hleft : left <+: c.session.inbox) (fromPeer : Bool) :
    (t.dispatched ++ taken) ++ c.session.inbox = (t.become fromPeer left c).queued.map Arrival.message := by
  obtain ⟨more, hmore⟩ := hleft
  have hqueue := h.queue
  rw [hinbox] at hqueue
  rw [queued_become hmore.symm, List.map_append, map_message_arrivals, ← hqueue, ← hmore]
  simp only [List.append_assoc]

theorem become {c : Connection υ} (h : InOrder t) (hinbox : t.conn.session.inbox <+: c.session.inbox)
    (fromPeer : Bool) : InOrder (t.become fromPeer t.conn.session.inbox c) := by
  have hqueue := h.queue_become (List.nil_append _).symm hinbox fromPeer
  rw [List.append_nil] at hqueue
  exact ⟨hqueue, h.seen.trans (List.prefix_append _ _)⟩

theorem look {taken : Option Message} {left : List Message} {c : Connection υ} (h : InOrder t)
    (hinbox : t.conn.session.inbox = taken.toList ++ left) (hleft : left <+: c.session.inbox) :
    InOrder (t.look taken c) := by
  refine ⟨?_, ?_⟩
  · rw [queued_look hinbox]
    exact h.queue_become hinbox hleft false
  · exact List.prefix_append _ _

theorem look_none (h : InOrder t) : InOrder (t.look none t.conn) :=
  h.look (List.nil_append _).symm List.prefix_rfl

theorem goTo (h : InOrder t) (phase : Phase) : InOrder (t.goTo phase) := by
  refine ⟨?_, ?_⟩
  · rw [dispatched_goTo, conn_goTo, queued_goTo]
    exact h.queue
  · rw [seen_goTo, queued_goTo]
    exact h.seen

theorem stepped {t' : Trail υ} {phase : Phase} (h : InOrder t) (hstepped : Stepped t phase t') : InOrder t' := by
  cases hstepped with
  | found hlooks hinbox hrest => exact (h.look hinbox hrest).goTo _
  | notYet | none | noMore => exact h.look_none.goTo _
  | watch | check | handled => exact h.goTo _

theorem step (h : InOrder t) (depth : Nat) : InOrder (t.step depth) := by
  rcases hrunning : t.running with _ | phase
  · rw [t.step_of_idle depth hrunning]
    exact h
  · exact h.stepped (t.stepped depth hrunning)

end InOrder

/-- Bytes that come add to the inbox, if anything. -/
theorem prefix_receive (c : Connection υ) (bs : Bytes) : c.session.inbox <+: (c.receive bs).session.inbox := by
  cases hup : c.up with
  | true =>
    obtain ⟨frames, rest, hread⟩ := Connection.exists_read hup bs
    exact ⟨_, hread.session.inbox.symm⟩
  | false =>
    exact ⟨[], by rw [Connection.receive_of_down hup, List.append_nil]⟩

theorem Move.inOrder {t' : Trail υ} {depth : Nat} (move : Move depth t t') (h : InOrder t) : InOrder t' := by
  cases move with
  | read _ bs =>
    have hread := h.become (prefix_receive t.conn bs) true
    exact ⟨hread.queue, hread.seen⟩
  | close => exact ⟨h.queue, h.seen⟩
  | @use s hinbox _ =>
    have huse : t.conn.session.inbox <+: ({ t.conn with session := s } : Connection υ).session.inbox := hinbox
    exact h.become huse false
  | call => exact ⟨h.queue, h.seen⟩
  | step => exact h.step depth

/-- What is dispatched and what waits is what was put in the inbox, in this order. -/
theorem Run.inOrder {depth : Nat} {c : Connection υ} (hempty : c.session.inbox = []) (run : Run depth (start c) t) :
    InOrder t := by
  induction run with
  | refl => exact ⟨hempty, List.prefix_rfl⟩
  | move _ move ih => exact move.inOrder ih

/-! ### The results -/

/-- How many messages a processing with this result has dispatched. -/
def countOf (result : Except TransportError Nat) : Nat := Phase.processed (.returned result)

/-- How many messages all processings have dispatched, the running one included. -/
def counted (t : Trail υ) : Nat := (t.results.map countOf).sum + t.running.elim 0 Phase.processed

theorem counted_of_running {phase : Phase} (hrunning : t.running = some phase) :
    t.counted = (t.results.map countOf).sum + phase.processed := by
  unfold counted
  rw [hrunning]
  rfl

theorem counted_goTo (t : Trail υ) (phase : Phase) :
    (t.goTo phase).counted = (t.results.map countOf).sum + phase.processed := by
  cases phase with
  | returned result =>
    show ((t.results ++ [result]).map countOf).sum + 0 = _
    rw [List.map_append, List.sum_append, List.map_singleton, List.sum_singleton]
    rfl
  | waiting | watching | draining | checking => rfl

/-- The counts are right, and a processing that has looked for a message and found none has dispatched all that came
before. -/
structure Paced (t : Trail υ) : Prop where
  counted : t.counted = t.dispatched.length
  caughtUp : (∀ n, t.running ≠ some (.draining (n + 1))) → t.dispatched = t.seen.map Arrival.message
  underWay : ∀ result, t.running ≠ some (.returned result)

namespace Paced

/-- Nothing was found, so all that was put in the inbox is dispatched. -/
theorem look_none (order : InOrder t) (hinbox : t.conn.session.inbox = []) :
    (t.look none t.conn).dispatched = (t.look none t.conn).seen.map Arrival.message := by
  have hqueue := order.queue
  rw [hinbox] at hqueue
  exact hqueue

/-- Going to a phase with the same count, all that was seen being dispatched. -/
theorem goTo {phase : Phase} (hcounted : (t.results.map countOf).sum + phase.processed = t.dispatched.length)
    (hdispatched : t.dispatched = t.seen.map Arrival.message) : Paced (t.goTo phase) := by
  refine ⟨?_, ?_, ?_⟩
  · rw [counted_goTo, dispatched_goTo]
    exact hcounted
  · intro _
    rw [dispatched_goTo, seen_goTo]
    exact hdispatched
  · cases phase <;> nofun

theorem stepped {t' : Trail υ} {phase : Phase} (order : InOrder t) (h : Paced t) (hrunning : t.running = some phase)
    (hstepped : Stepped t phase t') : Paced t' := by
  have hcounted := h.counted
  have hcaughtUp := h.caughtUp
  rw [counted_of_running hrunning] at hcounted
  rw [hrunning] at hcaughtUp
  have hmissed (hinbox : t.conn.session.inbox = []) {next : Phase} (hnext : next.processed = phase.processed) :
      Paced ((t.look none t.conn).goTo next) := by
    refine goTo ?_ (look_none order hinbox)
    rw [hnext]
    exact hcounted.trans (congrArg List.length (List.append_nil _).symm)
  cases hstepped with
  | @found _ m _ _ hlooks hinbox hrest =>
    refine ⟨?_, fun hnone => absurd rfl (hnone phase.processed), nofun⟩
    rw [counted_goTo]
    show (t.results.map countOf).sum + (phase.processed + 1) = (t.dispatched ++ [m]).length
    rw [List.length_append, ← hcounted]
    rfl
  | notYet hinbox => exact hmissed hinbox rfl
  | none hinbox => exact hmissed hinbox rfl
  | noMore hinbox n => exact hmissed hinbox rfl
  | watch =>
    refine goTo ?_ (hcaughtUp nofun)
    cases t.conn.up <;> exact hcounted
  | check =>
    refine goTo ?_ (hcaughtUp nofun)
    cases t.conn.up <;> exact hcounted
  | handled result => exact absurd hrunning (h.underWay result)

theorem step (order : InOrder t) (h : Paced t) (depth : Nat) : Paced (t.step depth) := by
  rcases hrunning : t.running with _ | phase
  · rw [t.step_of_idle depth hrunning]
    exact h
  · exact h.stepped order hrunning (t.stepped depth hrunning)

theorem call (h : Paced t) (hidle : t.running = none) (waits : Bool) : Paced (t.call waits) := by
  have hcounted := h.counted
  have hcaughtUp := h.caughtUp
  unfold Trail.counted at hcounted
  rw [hidle] at hcounted hcaughtUp
  cases waits with
  | true => exact ⟨hcounted, fun _ => hcaughtUp nofun, nofun⟩
  | false => exact ⟨hcounted, fun _ => hcaughtUp nofun, nofun⟩

end Paced

theorem Move.paced {t' : Trail υ} {depth : Nat} (move : Move depth t t') (order : InOrder t) (h : Paced t) :
    Paced t' := by
  cases move with
  | read | close | use => exact ⟨h.counted, h.caughtUp, h.underWay⟩
  | call hidle waits => exact h.call hidle waits
  | step => exact h.step order depth

/-- The counts that processings return add up to what was dispatched. -/
theorem Run.paced {depth : Nat} {c : Connection υ} (hempty : c.session.inbox = []) (run : Run depth (start c) t) :
    Paced t := by
  induction run with
  | refl => exact ⟨rfl, fun _ => rfl, nofun⟩
  | move run move ih => exact move.paced (run.inOrder hempty) ih

end Trail
end LevelLink
