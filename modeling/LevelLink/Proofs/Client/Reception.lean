import LevelLink.Proofs.Client.Trail

/-!
# What is received

However the bytes of the peer are cut into reads, and whatever happens between the reads, the messages that come in are
those of the frames that the bytes are split into, up to the first one that is not complete or that no frame can be
(`Run.received`).  A processing that is not disturbed returns and has dispatched all that waited (`idle_of_steps`), so
processings hand the messages on in the order of the frames, each once (`reception_of_run`).
-/

namespace LevelLink

namespace Arrival

variable (front back : List Arrival) (ms : List Message)

theorem ofPeer_append : ofPeer (front ++ back) = ofPeer front ++ ofPeer back := by
  unfold ofPeer
  rw [List.filter_append, List.map_append]

theorem ofPeer_from_peer : ofPeer (ms.map fun m => ⟨m, true⟩) = ms := by
  unfold ofPeer
  rw [List.filter_map, List.map_map]
  simp [Function.comp_def]

theorem ofPeer_posted : ofPeer (ms.map fun m => ⟨m, false⟩) = [] := by
  unfold ofPeer
  rw [List.filter_map, List.map_map]
  simp [Function.comp_def]

/-- Where nothing was posted, all messages came from the peer. -/
theorem ofPeer_of_posted {arrivals : List Arrival} (h : posted arrivals = []) :
    ofPeer arrivals = arrivals.map Arrival.message := by
  have hall : ∀ a ∈ arrivals, a.fromPeer = true := by
    unfold posted at h
    rw [List.map_eq_nil_iff, List.filter_eq_nil_iff] at h
    simpa using h
  unfold ofPeer
  rw [List.filter_eq_self.mpr hall]

end Arrival

namespace Trail

open Connection (Phase)
open Framing (Splits Broken Fits)

variable {υ : Type} {limit depth : Nat} {t t' : Trail υ} {frames : List (Int32 × Bytes)} {rest : Bytes}

/-! ### Taking frames in -/

/-- What the peer has sent is split into these frames and this rest, and the messages in the frames have been put in the
inbox; the link is up as long as the peer has not closed and the rest can become a frame. -/
structure Received (limit : Nat) (t : Trail υ) (frames : List (Int32 × Bytes)) (rest : Bytes) : Prop where
  splits : Splits limit t.sent frames rest
  messages : Arrival.ofPeer t.queued = Framing.messages frames
  bytesReceived : t.conn.session.world.traffic.bytesReceived = (frames.flatMap Framing.bytes).length
  framesReceived : t.conn.session.world.traffic.framesReceived = frames.length
  bound : t.conn.limit = limit
  up : t.conn.up = true ↔ t.closed = false ∧ ¬ Broken limit rest
  pending : t.conn.up = true → t.conn.pending = rest

/-- What is not the peer's doing leaves the link and what has come over it. -/
structure SameLink (t t' : Trail υ) : Prop where
  sent : t'.sent = t.sent
  closed : t'.closed = t.closed
  messages : Arrival.ofPeer t'.queued = Arrival.ofPeer t.queued
  limit : t'.conn.limit = t.conn.limit
  up : t'.conn.up = t.conn.up
  pending : t'.conn.pending = t.conn.pending

namespace SameLink

theorem refl (t : Trail υ) : SameLink t t := ⟨rfl, rfl, rfl, rfl, rfl, rfl⟩

theorem become {left : List Message} {s : Session υ} (hleft : left <+: s.inbox) :
    SameLink t (t.become false left { t.conn with session := s }) := by
  obtain ⟨more, hmore⟩ := hleft
  have hqueued := queued_become (t := t) (c := { t.conn with session := s }) hmore.symm false
  refine ⟨rfl, rfl, ?_, rfl, rfl, rfl⟩
  rw [hqueued, Arrival.ofPeer_append, Arrival.ofPeer_posted, List.append_nil]

theorem look {taken : Option Message} {left : List Message} {s : Session υ}
    (hinbox : t.conn.session.inbox = taken.toList ++ left) (hleft : left <+: s.inbox) :
    SameLink t (t.look taken { t.conn with session := s }) := by
  refine ⟨rfl, rfl, ?_, rfl, rfl, rfl⟩
  rw [queued_look hinbox]
  exact (become hleft).messages

theorem goTo (h : SameLink t t') (phase : Phase) : SameLink t (t'.goTo phase) := by
  constructor
  · rw [sent_goTo, h.sent]
  · rw [closed_goTo, h.closed]
  · rw [queued_goTo, h.messages]
  · rw [conn_goTo, h.limit]
  · rw [conn_goTo, h.up]
  · rw [conn_goTo, h.pending]

theorem stepped {phase : Phase} (hstepped : Stepped t phase t') : SameLink t t' := by
  cases hstepped with
  | found hlooks hinbox hrest => exact (look hinbox hrest).goTo _
  | notYet | none | noMore => exact (look (List.nil_append _).symm List.prefix_rfl).goTo _
  | watch | check | handled => exact (refl t).goTo _

theorem step (t : Trail υ) (depth : Nat) : SameLink t (t.step depth) := by
  rcases hrunning : t.running with _ | phase
  · rw [t.step_of_idle depth hrunning]
    exact refl t
  · exact stepped (t.stepped depth hrunning)

end SameLink

namespace Received

theorem of_sameLink (h : Received limit t frames rest) (same : SameLink t t')
    (hreceived : SameReceived t.conn.session t'.conn.session) : Received limit t' frames rest := by
  refine ⟨?_, ?_, ?_, ?_, ?_, ?_, ?_⟩
  · rw [same.sent]
    exact h.splits
  · rw [same.messages, h.messages]
  · rw [hreceived.1, h.bytesReceived]
  · rw [hreceived.2, h.framesReceived]
  · rw [same.limit, h.bound]
  · rw [same.up, same.closed]
    exact h.up
  · rw [same.up, same.pending]
    exact h.pending

/-- Bytes that come while the link is up go on where the last ones have ended. -/
theorem read_of_up (h : Received limit t frames rest) (hopen : t.closed = false) (hup : t.conn.up = true) (bs : Bytes) :
    ∃ frames' rest', Received limit (t.read bs) frames' rest' := by
  obtain ⟨more, rest', hread⟩ := Connection.exists_read hup bs
  have hsplits := hread.splits
  rw [h.bound, h.pending hup] at hsplits
  have hqueued : (t.read bs).queued = t.queued ++ (Framing.messages more).map fun m => ⟨m, true⟩ :=
    queued_become hread.session.inbox true
  refine ⟨frames ++ more, rest', h.splits.append hsplits, ?_, ?_, ?_, ?_, ?_, hread.pending⟩
  · rw [hqueued, Arrival.ofPeer_append, Arrival.ofPeer_from_peer, h.messages, Framing.messages_append]
  · have hbytes := hread.session.bytesReceived
    rw [h.bytesReceived, ← List.length_append, ← List.flatMap_append] at hbytes
    exact hbytes
  · have hframes := hread.session.framesReceived
    rw [h.framesReceived, ← List.length_append] at hframes
    exact hframes
  · exact hread.limit.trans h.bound
  · have hbroken := hread.up
    rw [h.bound] at hbroken
    show (t.conn.receive bs).up = true ↔ t.closed = false ∧ _
    rw [hbroken, hopen]
    exact (and_iff_right rfl).symm

/-- Bytes that come when the link is down already, because of what has come before, are not read. -/
theorem read_of_down (h : Received limit t frames rest) (hopen : t.closed = false) (hdown : t.conn.up = false)
    (bs : Bytes) : Received limit (t.read bs) frames (rest ++ bs) := by
  have hbroken : Broken limit rest := by
    by_contra hnot
    rw [h.up.mpr ⟨hopen, hnot⟩] at hdown
    cases hdown
  have hreceive := Connection.receive_of_down hdown bs
  have hqueued : (t.read bs).queued = t.queued := by
    unfold read
    rw [hreceive]
    exact queued_become_self true t.conn
  have hconn : (t.read bs).conn = t.conn := hreceive
  refine ⟨h.splits.append_broken hbroken bs, ?_, ?_, ?_, ?_, ?_, ?_⟩
  · rw [hqueued, h.messages]
  · rw [hconn, h.bytesReceived]
  · rw [hconn, h.framesReceived]
  · rw [hconn, h.bound]
  · rw [hconn, hdown]
    exact iff_of_false Bool.false_ne_true fun hup => hup.2 (hbroken.append bs)
  · rw [hconn, hdown]
    nofun

theorem read (h : Received limit t frames rest) (hopen : t.closed = false) (bs : Bytes) :
    ∃ frames' rest', Received limit (t.read bs) frames' rest' := by
  cases hup : t.conn.up with
  | true => exact h.read_of_up hopen hup bs
  | false => exact ⟨_, _, h.read_of_down hopen hup bs⟩

theorem move (h : Received limit t frames rest) (move : Move depth t t') :
    ∃ frames' rest', Received limit t' frames' rest' := by
  cases move with
  | read hopen bs => exact h.read hopen bs
  | close =>
    exact ⟨frames, rest, h.splits, h.messages, h.bytesReceived, h.framesReceived, h.bound,
      iff_of_false Bool.false_ne_true fun hup => absurd hup.1 nofun, nofun⟩
  | use hinbox hreceived => exact ⟨frames, rest, h.of_sameLink (.become hinbox) hreceived⟩
  | call => exact ⟨frames, rest, h.of_sameLink ⟨rfl, rfl, rfl, rfl, rfl, rfl⟩ ⟨rfl, rfl⟩⟩
  | step hreceived => exact ⟨frames, rest, h.of_sameLink (.step t depth) hreceived⟩

end Received

/-- A connection that has just been made. -/
theorem received_start {config : ConnectionConfig} {number : Nat} {app : υ} {files : Files.Store} {c : Connection υ}
    (hstart : Connection.start config (.ok ()) number app files = .ok c) :
    Received config.maxFrameSize.toNat (start c) [] [] := by
  obtain rfl := Except.ok.inj hstart
  refine ⟨.nil, rfl, rfl, rfl, rfl, iff_of_true rfl ⟨rfl, ?_⟩, fun _ => rfl⟩
  rintro ⟨hlong, -⟩
  exact absurd hlong (by decide)

/-- Along every run the messages that come in are those of the frames in what the peer has sent. -/
theorem Run.received {c : Connection υ} (hstart : Received limit (start c) [] []) (run : Run depth (start c) t) :
    ∃ frames rest, Received limit t frames rest := by
  induction run with
  | refl => exact ⟨[], [], hstart⟩
  | move _ move ih =>
    obtain ⟨frames, rest, hreceived⟩ := ih
    exact hreceived.move move

/-! ### Processings that are not disturbed -/

/-- The running processing takes steps, and nothing else happens. -/
def steps (depth : Nat) : Nat → Trail υ → Trail υ
  | 0, t => t
  | n + 1, t => steps depth n (t.step depth)

theorem steps_add (depth n k : Nat) (t : Trail υ) : t.steps depth (n + k) = (t.steps depth n).steps depth k := by
  induction n generalizing t with
  | zero => rw [Nat.zero_add, steps]
  | succ n ih => rw [Nat.succ_add, steps, steps, ih]

theorem steps_of_idle (hidle : t.running = none) (depth n : Nat) : t.steps depth n = t := by
  induction n with
  | zero => rfl
  | succ n ih => rw [steps, t.step_of_idle depth hidle, ih]

/-- Nothing is put in the inbox while the running processing takes steps. -/
def Quiet (depth : Nat) (t : Trail υ) : Prop := ∀ n, (t.steps depth n).queued = t.queued

theorem Quiet.step (h : Quiet depth t) : Quiet depth (t.step depth) := fun n => (h (n + 1)).trans (h 1).symm

/-- A processing that finds a message leaves the others. -/
theorem step_of_quiet {phase : Phase} {m : Message} {ms : List Message} (hrunning : t.running = some phase)
    (hlooks : phase.looks = true) (hinbox : t.conn.session.inbox = m :: ms) (hquiet : Quiet depth t) :
    (t.step depth).running = some (.draining (phase.processed + 1)) ∧ (t.step depth).conn.session.inbox = ms := by
  have hstepped := t.stepped depth hrunning
  have hqueued : (t.step depth).queued = t.queued := hquiet 1
  generalize t.step depth = t' at hstepped hqueued
  cases hstepped with
  | @found _ m' rest s _ hfound hrest =>
    obtain ⟨rfl, rfl⟩ := List.cons.inj (hinbox.symm.trans hfound)
    obtain ⟨more, hmore⟩ := hrest
    rw [queued_goTo, queued_look (show _ = (some m).toList ++ ms from hinbox), queued_become hmore.symm] at hqueued
    obtain rfl : more = [] := by simpa using hqueued
    refine ⟨rfl, ?_⟩
    rw [conn_goTo]
    exact hmore.symm.trans (List.append_nil ms)
  | notYet hnone | none hnone | noMore hnone =>
    rw [hinbox] at hnone
    cases hnone
  | watch | check | handled => cases hlooks

/-- What remains of a processing that has found nothing more. -/
theorem idle_of_empty {k : Nat} (hrunning : t.running = some (.draining k)) (hinbox : t.conn.session.inbox = []) :
    (t.steps depth 2).running = none ∧ (t.steps depth 2).conn.session.inbox = [] := by
  have hstepped := t.stepped depth hrunning
  rw [steps, steps, steps]
  generalize t.step depth = t' at hstepped ⊢
  cases hstepped with
  | found _ hfound =>
    rw [hinbox] at hfound
    cases hfound
  | none =>
    have hchecked := ((t.look none t.conn).goTo .checking).stepped depth rfl
    generalize ((t.look none t.conn).goTo .checking).step depth = t'' at hchecked ⊢
    cases hchecked with
    | found hlooks => cases hlooks
    | check =>
      refine ⟨rfl, ?_⟩
      rw [conn_goTo]
      exact hinbox
  | noMore _ n =>
    rw [step_of_idle _ depth rfl]
    exact ⟨rfl, hinbox⟩

/-- A processing that drains the inbox comes to its end. -/
theorem idle_of_draining {ms : List Message} {k : Nat} (hrunning : t.running = some (.draining k))
    (hinbox : t.conn.session.inbox = ms) (hquiet : Quiet depth t) :
    (t.steps depth (ms.length + 2)).running = none ∧ (t.steps depth (ms.length + 2)).conn.session.inbox = [] := by
  induction ms generalizing t k with
  | nil => exact idle_of_empty hrunning hinbox
  | cons m ms ih =>
    obtain ⟨hrunning', hinbox'⟩ := step_of_quiet hrunning rfl hinbox hquiet
    exact ih hrunning' hinbox' hquiet.step

/-- A processing that waits finds the link down. -/
theorem draining_of_down (depth : Nat) (hrunning : t.running = some .waiting) (hinbox : t.conn.session.inbox = [])
    (hdown : t.conn.up = false) :
    (t.steps depth 2).running = some (.draining 0) ∧ (t.steps depth 2).conn.session.inbox = [] := by
  have hstepped := t.stepped depth hrunning
  rw [steps, steps, steps]
  generalize t.step depth = t' at hstepped ⊢
  cases hstepped with
  | found _ hfound =>
    rw [hinbox] at hfound
    cases hfound
  | notYet =>
    have hwatched := ((t.look none t.conn).goTo .watching).stepped depth rfl
    generalize ((t.look none t.conn).goTo .watching).step depth = t'' at hwatched ⊢
    cases hwatched with
    | found hlooks => cases hlooks
    | watch =>
      have hlink : ((t.look none t.conn).goTo .watching).conn.up = false := hdown
      rw [hlink]
      exact ⟨rfl, hinbox⟩

theorem Quiet.steps (h : Quiet depth t) (n : Nat) : Quiet depth (t.steps depth n) := by
  intro k
  rw [← steps_add, h (n + k), h n]

/-- A processing that is not disturbed returns and leaves nothing in the inbox, unless it waits for a message on a link
that is up. -/
theorem idle_of_steps {waits : Bool} (hwaits : waits = true → t.conn.session.inbox ≠ [] ∨ t.conn.up = false)
    (hquiet : Quiet depth (t.call waits)) :
    ((t.call waits).steps depth (t.conn.session.inbox.length + 4)).running = none ∧
      ((t.call waits).steps depth (t.conn.session.inbox.length + 4)).conn.session.inbox = [] := by
  have henough {n : Nat} (hn : n ≤ t.conn.session.inbox.length + 4)
      (h : ((t.call waits).steps depth n).running = none ∧ ((t.call waits).steps depth n).conn.session.inbox = []) :
      ((t.call waits).steps depth (t.conn.session.inbox.length + 4)).running = none ∧
        ((t.call waits).steps depth (t.conn.session.inbox.length + 4)).conn.session.inbox = [] := by
    obtain ⟨k, hk⟩ := Nat.exists_eq_add_of_le hn
    rw [hk, steps_add, steps_of_idle h.1]
    exact h
  cases waits with
  | false =>
    have hrunning : (t.call false).running = some (.draining 0) := rfl
    have hinbox : (t.call false).conn.session.inbox = t.conn.session.inbox := rfl
    exact henough (by omega) (idle_of_draining hrunning hinbox hquiet)
  | true =>
    by_cases hinbox : t.conn.session.inbox = []
    · have hdown : t.conn.up = false := (hwaits rfl).resolve_left (not_not_intro hinbox)
      obtain ⟨hrunning, hempty⟩ := draining_of_down (t := t.call true) depth rfl hinbox hdown
      exact henough (n := 4) (by omega) (idle_of_draining hrunning hempty (hquiet.steps 2))
    · obtain ⟨m, ms, hcons⟩ := List.exists_cons_of_ne_nil hinbox
      obtain ⟨hrunning, hrest⟩ := step_of_quiet (t := t.call true) rfl rfl hcons hquiet
      have hlength : ms.length + 3 ≤ t.conn.session.inbox.length + 4 := by
        rw [hcons, List.length_cons]
        omega
      exact henough hlength (idle_of_draining hrunning hrest hquiet.step)

/-! ### What a call returns -/

/-- Steps keep what holds along every run. -/
theorem InOrder.steps (h : InOrder t) (depth n : Nat) : InOrder (t.steps depth n) := by
  induction n generalizing t with
  | zero => exact h
  | succ n ih => exact ih (h.step depth)

theorem Paced.steps (order : InOrder t) (h : Paced t) (depth n : Nat) : Paced (t.steps depth n) := by
  induction n generalizing t with
  | zero => exact h
  | succ n ih => exact ih (order.step depth) (h.step order depth)

theorem conn_step {phase : Phase} (hrunning : t.running = some phase) (depth : Nat) :
    (t.step depth).conn = (t.conn.advance depth phase).2 := by
  rw [t.step_of_running depth hrunning, conn_goTo]
  cases phase <;> rfl

theorem exists_step_eq_goTo {phase : Phase} (hrunning : t.running = some phase) (depth : Nat) :
    ∃ before : Trail υ, before.results = t.results ∧ t.step depth = before.goTo (t.conn.advance depth phase).1 := by
  refine ⟨_, ?_, t.step_of_running depth hrunning⟩
  split <;> rfl

theorem goTo_of_not_returned {phase : Phase} (hphase : ∀ result, phase ≠ .returned result) (t : Trail υ) :
    t.goTo phase = { t with running := some phase } := by
  cases phase with
  | returned result => exact absurd rfl (hphase result)
  | waiting | watching | draining | checking => rfl

theorem finish_returned (c : Connection υ) (depth n : Nat) (result : Except TransportError Nat) :
    c.finish depth n (.returned result) = (some result, c) := by
  cases n <;> rfl

/-- A call takes the steps of a processing without a pause. -/
theorem finish_eq_steps {phase : Phase} (hrunning : t.running = some phase)
    (hphase : ∀ result, phase ≠ .returned result) (depth n : Nat) :
    (t.conn.finish depth n phase).2 = (t.steps depth n).conn ∧
      ((t.steps depth n).running = none →
        ∃ result, (t.conn.finish depth n phase).1 = some result ∧ (t.steps depth n).results = t.results ++ [result]) := by
  induction n generalizing t phase with
  | zero =>
    refine ⟨?_, fun hidle => absurd (hrunning.symm.trans hidle) nofun⟩
    cases phase with
    | returned result => exact absurd rfl (hphase result)
    | waiting | watching | draining | checking => rfl
  | succ n ih =>
    have hfinish : t.conn.finish depth (n + 1) phase =
        (t.step depth).conn.finish depth n (t.conn.advance depth phase).1 := by
      rw [conn_step hrunning]
      cases phase with
      | returned result => exact absurd rfl (hphase result)
      | waiting | watching | draining | checking => rfl
    obtain ⟨before, hresults, hstep⟩ := exists_step_eq_goTo hrunning depth
    rw [hfinish, steps, ← hresults, hstep]
    generalize (t.conn.advance depth phase).1 = next
    by_cases hnext : ∃ result, next = .returned result
    · obtain ⟨result, rfl⟩ := hnext
      rw [finish_returned, steps_of_idle rfl]
      exact ⟨rfl, fun _ => ⟨result, rfl, rfl⟩⟩
    · have hgoing : ∀ result, next ≠ .returned result := fun result h => hnext ⟨result, h⟩
      rw [goTo_of_not_returned hgoing]
      exact ih rfl hgoing

theorem counted_of_idle (hidle : t.running = none) : t.counted = (t.results.map countOf).sum := by
  unfold counted
  rw [hidle]
  rfl

/-- What a call does that is not disturbed: it returns how many messages waited, and has dispatched them. -/
theorem process_of_quiet {waits : Bool} (order : InOrder t) (paced : Paced t) (hidle : t.running = none)
    (hwaits : waits = true → t.conn.session.inbox ≠ [] ∨ t.conn.up = false) (hquiet : Quiet depth (t.call waits)) :
    ∃ result c, t.conn.process depth (t.conn.session.inbox.length + 4) waits = (some result, c) ∧
      countOf result = t.conn.session.inbox.length ∧ c.session.inbox = [] := by
  have hphase : ∀ result, (if waits then Phase.waiting else .draining 0) ≠ .returned result := by
    cases waits <;> nofun
  obtain ⟨hreturned, hempty⟩ := idle_of_steps hwaits hquiet
  obtain ⟨hconn, hresult⟩ := finish_eq_steps (t := t.call waits) rfl hphase depth (t.conn.session.inbox.length + 4)
  obtain ⟨result, hfinish, hresults⟩ := hresult hreturned
  have hcall : InOrder (t.call waits) := ⟨order.queue, order.seen⟩
  have hlength : t.dispatched.length + t.conn.session.inbox.length =
      ((t.call waits).steps depth (t.conn.session.inbox.length + 4)).dispatched.length := by
    have hqueue := (hcall.steps depth (t.conn.session.inbox.length + 4)).queue
    rw [hempty, List.append_nil, hquiet] at hqueue
    rw [hqueue, ← List.length_append]
    exact congrArg List.length order.queue
  have hcounts : (t.results.map countOf).sum + countOf result =
      ((t.call waits).steps depth (t.conn.session.inbox.length + 4)).dispatched.length := by
    have hcounted := ((paced.call hidle waits).steps hcall depth (t.conn.session.inbox.length + 4)).counted
    rw [counted_of_idle hreturned, hresults, List.map_append, List.sum_append] at hcounted
    exact hcounted
  have hbefore := paced.counted
  rw [counted_of_idle hidle] at hbefore
  exact ⟨result, _, Prod.ext hfinish rfl, by omega, (congrArg (fun c => c.session.inbox) hconn).trans hempty⟩

/-! ### The whole way -/

/-- What processings have made of the frames, where nothing else was put in the inbox. -/
structure HandedOn (depth : Nat) (t : Trail υ) (frames : List (Int32 × Bytes)) : Prop where
  /-- What is dispatched and what waits are the messages of the frames, in their order. -/
  order : t.dispatched ++ t.conn.session.inbox = Framing.messages frames
  /-- The counts that the calls have returned add up to what is dispatched. -/
  counts : t.running = none → (t.results.map countOf).sum = t.dispatched.length
  /-- One more call hands on all that waits, if it is not disturbed and need not wait for the peer. -/
  call : t.running = none → ∀ waits, (waits = true → t.conn.session.inbox ≠ [] ∨ t.conn.up = false) →
    Quiet depth (t.call waits) →
      ∃ result c, t.conn.process depth (t.conn.session.inbox.length + 4) waits = (some result, c) ∧
        countOf result = t.conn.session.inbox.length ∧ c.session.inbox = []

/-- Along every run of a new connection, what the peer has sent is split into frames in the one way there is, and the
messages in the frames are what has come in.  Where nothing is posted on this side, processings hand on just these
messages.  So the frames of messages that may be so long are read as these messages. -/
theorem reception_of_run {config : ConnectionConfig} {number : Nat} {app : υ} {files : Files.Store} {c : Connection υ}
    (hstart : Connection.start config (.ok ()) number app files = .ok c) (run : Run depth (start c) t) :
    ∃ frames rest, Received config.maxFrameSize.toNat t frames rest ∧
      (∀ frames' rest', Splits config.maxFrameSize.toNat t.sent frames' rest' → frames' = frames ∧ rest' = rest) ∧
      (Arrival.posted t.queued = [] → HandedOn depth t frames) ∧
      ∀ ms : List Message, (∀ m ∈ ms, Fits config.maxFrameSize.toNat (m.id, m.body)) →
        t.sent = ms.flatMap Message.frame → Framing.messages frames = ms.map Framing.received := by
  have hempty : c.session.inbox = [] := by
    obtain rfl := Except.ok.inj hstart
    rfl
  have horder := run.inOrder hempty
  have hpaced := run.paced hempty
  obtain ⟨frames, rest, hreceived⟩ := run.received (received_start hstart)
  refine ⟨frames, rest, hreceived, fun frames' rest' h => h.unique hreceived.splits, ?_, ?_⟩
  · intro hposted
    refine ⟨?_, ?_, ?_⟩
    · rw [horder.queue, ← Arrival.ofPeer_of_posted hposted, hreceived.messages]
    · intro hidle
      rw [← counted_of_idle hidle]
      exact hpaced.counted
    · intro hidle waits hwaits hquiet
      exact process_of_quiet horder hpaced hidle hwaits hquiet
  · intro ms hfits hsent
    obtain ⟨hsplits, hmessages⟩ := Framing.messages_of_frames hfits
    rw [← hsent] at hsplits
    rw [(hreceived.splits.unique hsplits).1, hmessages]

section Sample

/-- A connection on which nothing has happened. -/
def sampleConnection : Connection Unit := { number := 1, limit := 16777216, session := .start () }

/-- A request under a number. -/
def samplePing (id : Int32) : Message := (Message.start "A" "X").withId id

/-- Two requests, a frame between them that is no message, and half a header. -/
def sampleSent : Bytes :=
  (samplePing 1).frame ++ (Framing.bytes (2, [0]) ++ ((samplePing 3).frame ++ [18, 0, 0, 0]))

/-- The bytes come in two pieces, between which a call processes the first request, and a second call processes the
other one. -/
def sampleTrail : Trail Unit :=
  ((((((start sampleConnection).read (sampleSent.take 21)).call false).steps 1 3).read
    (sampleSent.drop 21)).call true).steps 1 3

theorem run_sampleTrail : Run 1 (start sampleConnection) sampleTrail := by
  have hread : Run 1 (start sampleConnection) ((start sampleConnection).read (sampleSent.take 21)) :=
    .move .refl (.read rfl (sampleSent.take 21))
  have hcalled := hread.move (.call rfl false)
  have hprocessed := ((hcalled.step (by decide +kernel)).step (by decide +kernel)).step (by decide +kernel)
  have hmore := hprocessed.move (.read (by decide +kernel) (sampleSent.drop 21))
  have hagain := hmore.move (.call (by decide +kernel) true)
  exact ((hagain.step (by decide +kernel)).step (by decide +kernel)).step (by decide +kernel)

/-- Both requests are dispatched, and each of the two calls has returned 1. -/
theorem reception_of_sampleTrail :
    Connection.start .default (.ok ()) 1 () {} = .ok sampleConnection ∧ Run 1 (start sampleConnection) sampleTrail ∧
      sampleTrail.results.map countOf = [1, 1] ∧
      sampleTrail.dispatched = [Framing.received (samplePing 1), Framing.received (samplePing 3)] ∧
      ∃ frames rest, Received 16777216 sampleTrail frames rest ∧ Framing.messages frames = sampleTrail.dispatched := by
  have hstart : Connection.start .default (.ok ()) 1 () {} = .ok sampleConnection := rfl
  obtain ⟨frames, rest, hreceived, -, hhanded, -⟩ := reception_of_run hstart run_sampleTrail
  have horder := (hhanded (by decide +kernel)).order
  have hinbox : sampleTrail.conn.session.inbox = [] := by decide +kernel
  rw [hinbox, List.append_nil] at horder
  exact ⟨hstart, run_sampleTrail, by decide +kernel, by decide +kernel, frames, rest, hreceived, horder.symm⟩

end Sample

end Trail
end LevelLink
