import Mathlib.Logic.Function.Iterate
import LevelLink.Proofs.Transfer.SenderSteps
import LevelLink.Proofs.Transfer.Upload

/-!
# Completed uploads

An upload learns from a frame that its sender has sent everything.  In a run in which the peer sends whatever it
likes, and the sender works step by step beside it, an upload is completed only when everything has been sent, as long
as the peer does not send such a frame itself (`completion_of_run`).  If the peer does, the upload is completed at
once (`completed_sampleForgery`).
-/

namespace LevelLink

namespace Step

variable {ω α : Type} {r : Reader α} {m : Message}

theorem on_read_ok {x : α × Message} (h : r.inStream m = .ok x) (w : ω) : (read r m).on w = (.ok x, w) := by
  rw [read, h]
  rfl

theorem fails_read {e : StreamError} (h : r.inStream m = .error e) (w : ω) : (read r m).Fails w := by
  rw [read, h]
  exact ⟨e, rfl⟩

end Step

namespace UploadStream

variable {υ : Type} {start : Offer υ} {self : SubscriberId} {m : Message} {w : World υ} {o : Offer υ}

/-! ### What the handler of an upload does with a message -/

/-- The answer of a status frame is an acceptance, or it is a failure. -/
theorem readStatus_cases (context : String) (m : Message) (w : World υ) :
    (Transfer.readStatus context m).Fails w ∨ (Transfer.readStatus context m).on w = (.ok (), w) := by
  by_cases haccepted : TransferFrame.accepted.CarriedBy (Bytes.ofInt32 TransferOp.status.code ++ m.unread)
  · right
    obtain ⟨rest, hunread⟩ := haccepted.eq_append
    rw [TransferFrame.payload, List.append_assoc] at hunread
    exact Transfer.on_readStatus_accepted (List.append_cancel_left hunread) context w
  · left
    exact Transfer.fails_readStatus haccepted context w

/-- A report is a failure, or it says that everything is sent. -/
theorem complete_cases (start : Offer υ) (self : SubscriberId) (m : Message) (w : World υ) :
    (complete start self m).Fails w ∨ ∃ rest, Reader.int32.inStream m = .ok (TransferStatus.accepted.code, rest) := by
  rcases hread : Reader.int32.inStream m with e | ⟨status, rest⟩
  · left
    exact (Step.fails_read hread w).bind _
  · by_cases hstatus : status = TransferStatus.accepted.code
    · right
      exact ⟨rest, hstatus ▸ rfl⟩
    · left
      refine Attempt.fails_bind_of_ok (Step.on_read_ok hread w) ?_
      simp only [ne_eq, hstatus, not_false_eq_true, if_true]
      exact Attempt.fails_lift_bind fun _ _ => Attempt.fails_throw _ w

/-- A message fails, or starts the sender, or says that everything is sent. -/
theorem step_cases (start : Offer υ) (self : SubscriberId) (m : Message) (w : World υ) :
    (step start self m).Fails w ∨ (step start self m).on w = (.ok .stay, startSender start self w) ∨ SaysSent m := by
  rcases hread : Reader.int32.inStream m with e | ⟨opcode, rest⟩
  · left
    exact (Step.fails_read hread w).bind _
  · have hok := Step.on_read_ok hread w
    rcases hcode : TransferOp.ofCode? opcode with _ | op
    · by_cases hreport : opcode = reportCode
      · rcases complete_cases start self rest w with hfails | ⟨rest', hstatus⟩
        · left
          refine Attempt.fails_bind_of_ok hok ?_
          simp only [hreport, ofCode?_reportCode, if_true]
          exact hfails.bind _
        · right; right
          exact ⟨rest, rest', hreport ▸ hread, hstatus⟩
      · left
        refine Attempt.fails_bind_of_ok hok ?_
        simp only [hcode, hreport, if_false]
        exact Attempt.fails_throw _ w
    · cases op with
      | status =>
        rcases readStatus_cases "upload" rest w with hfails | hstatus
        · left
          refine Attempt.fails_bind_of_ok hok ?_
          simp only [hcode]
          exact Attempt.Fails.bind hfails _
        · right; left
          rw [step, Attempt.on_bind_of_ok hok]
          simp only [hcode]
          rw [Attempt.on_bind_of_ok hstatus, Attempt.on_bind_of_ok (Attempt.on_modify _ w), Attempt.on_pure]
      | protocolError =>
        left
        refine Attempt.fails_bind_of_ok hok ?_
        simp only [hcode]
        exact Attempt.fails_lift_bind fun _ _ => Attempt.fails_throw _ w
      | _ =>
        left
        refine Attempt.fails_bind_of_ok hok ?_
        simp only [hcode]
        exact Attempt.fails_throw _ w

/-! ### What a message does to an upload in progress -/

section Meets

variable {id : SubscriberId} {s : Session υ} {p : Progress} {act : Completion υ}

/-- All that a message with the number of an upload can do: it does not reach the upload, it starts the sender, it
comes after that, or it ends the upload, and cancels the sender unless everything is sent. -/
inductive Meets (start : Offer υ) (id : SubscriberId) (act : Completion υ) (o : Offer υ) (p : Progress) (m : Message)
    (s s' : Session υ) : Prop where
  | misses (hsame : s' = s)
  | starts (hstarted : o.started = false)
      (stands : Stands start id { o with started := true } { p with state := .transferring } s')
      (hjobs : s'.world.jobs = s.world.jobs ++ [{ id := id, file := start.file }])
      (happ : s'.world.app = s.world.app)
  | repeats (hstarted : o.started = true) (stands : Stands start id o p s') (hworld : s'.world = s.world)
  | completes (hsaid : SaysSent m) (ends : Ends start id act
      (.ok ⟨start.file.fileName, start.file.path, start.file.size, none⟩) { p with state := .done } s s')
  | fails {e : StreamError} (ends : Ends start id act (.error e) { p with state := .failed } s s')
      (hjobs : s'.world.jobs = (cancel id s.world).jobs)

/-- The failure of an upload cancels its sender. -/
theorem Stands.jobs_of_fails (h : Stands start id o p s) (hact : o.completion = some act)
    (haddr : m.AddressedTo start.file.endpoint.node start.file.endpoint.name id)
    (hfails : (step start id m).Fails s.world) (depth : Nat) :
    (Registry.dispatch (depth + 1) m s).2.world.jobs = (cancel id s.world).jobs := by
  obtain ⟨e, hstep⟩ := hfails
  obtain ⟨live, hdispatch, -⟩ := h.hears.dispatch_fail haddr rfl depth hstep rfl
  rw [hdispatch]
  show (abandon start id e s.world).jobs = (cancel id s.world).jobs
  simp only [abandon, h.offer, hact]
  rfl

theorem Stands.meets (h : Stands start id o p s) (hact : o.completion = some act) (hm : m.id = id) (depth : Nat) :
    Meets start id act o p m s (Registry.dispatch depth m s).2 := by
  by_cases haddr : m.AddressedTo start.file.endpoint.node start.file.endpoint.name id
  · cases depth with
    | zero => exact .misses rfl
    | succ depth =>
      rcases step_cases start id m s.world with hfails | hstay | hsaid
      · obtain ⟨e, ends⟩ := h.lose depth hact haddr hfails
        exact .fails ends (h.jobs_of_fails hact haddr hfails depth)
      · rcases hstarted : o.started with _ | _
        · obtain ⟨stands, hjobs, -, happ⟩ := h.starts depth hstarted haddr hstay
          exact .starts hstarted stands hjobs happ
        · obtain ⟨stands, hworld⟩ := h.starts_once depth hstarted haddr hstay
          exact .repeats hstarted stands hworld
      · exact .completes hsaid (h.complete depth hact haddr hsaid)
  · exact .misses (by rw [h.hears.dispatch_of_not_addressedTo hm haddr depth])

end Meets

/-! ### Runs beside the sender -/

/-- Whatever else happens has left alone that the upload listens, how it stands, and the state of the stream. -/
structure Spared (u : UploadStream) (id : SubscriberId) (s s' : Session υ) : Prop where
  live : s'.live[id]? = s.live[id]?
  offer : s'.world.offers[id]? = s.world.offers[id]?
  state : (u.progress s').state = (u.progress s).state

/-- A session with an upload in it, the senders that the upload has started, and the frames these have queued. -/
structure Course (υ : Type) where
  session : Session υ
  senders : List (SendJob × SendJob.Stage) := []
  frames : List Bytes := []

namespace Course

/-- A message is dispatched, which may start a sender. -/
def receive (depth : Nat) (m : Message) (c : Course υ) : Course υ :=
  let s := (Registry.dispatch depth m c.session).2
  { c with
    session := s
    senders := c.senders ++ (s.world.jobs.drop c.session.world.jobs.length).map fun j => (j, .opening) }

/-- A message that starts no sender changes the session alone. -/
theorem receive_of_length {depth : Nat} {m : Message} {c : Course υ}
    (h : (Registry.dispatch depth m c.session).2.world.jobs.length = c.session.world.jobs.length) :
    c.receive depth m = { c with session := (Registry.dispatch depth m c.session).2 } := by
  rw [receive, List.drop_eq_nil_of_le (Nat.le_of_eq h), List.map_nil, List.append_nil]

/-- A message that nobody listens to changes nothing. -/
theorem receive_of_gone {depth : Nat} {m : Message} {c : Course υ} (h : c.session.live[m.id]? = none) :
    c.receive depth m = c := by
  have hsame : Registry.dispatch depth m c.session = (0, c.session) := Registry.dispatch_of_getElem?_eq_none h depth
  rw [receive_of_length (by rw [hsame]), hsame]

/-- A message that starts a sender adds it. -/
theorem receive_of_append {depth : Nat} {m : Message} {c : Course υ} {j : SendJob}
    (h : (Registry.dispatch depth m c.session).2.world.jobs = c.session.world.jobs ++ [j]) :
    c.receive depth m =
      { c with session := (Registry.dispatch depth m c.session).2, senders := c.senders ++ [(j, .opening)] } := by
  rw [receive, h, List.drop_left]
  rfl

/-- What can happen next: something that spares the upload, any message of the peer to it that does not say that
everything is sent, a step of a sender, whether the upload has been given up or not, or the arrival of the report that
a sender has posted. -/
inductive Move (u : UploadStream) (id : SubscriberId) (depth : Nat) : Course υ → Course υ → Prop where
  | others {c : Course υ} {s' : Session υ} (spared : u.Spared id c.session s') :
      Move u id depth c { c with session := s' }
  | peer {c : Course υ} (m : Message) (haddr : m.AddressedTo u.node u.name id) (hnot : ¬ SaysSent m) :
      Move u id depth c (c.receive (depth + 1) m)
  | sender {s s' : Session υ} {front back : List (SendJob × SendJob.Stage)} {frames : List Bytes} {j : SendJob}
      {stage stage' : SendJob.Stage} (cancelled : Bool) (hnext : j.advance cancelled stage s = (stage', s')) :
      Move u id depth ⟨s, front ++ (j, stage) :: back, frames⟩
        ⟨s', front ++ (j, stage') :: back, frames ++ s'.outbox.toList.drop s.outbox.size⟩
  | report {c : Course υ} {j : SendJob} {result : Except StreamError Unit} {rest : List Message}
      (hreported : (j, .reported result) ∈ c.senders) (hinbox : c.session.inbox = j.report result :: rest) :
      Move u id depth c
        ({ c with session := { c.session with inbox := rest } }.receive (depth + 1) (j.report result))

/-- A run, from where the upload has just been started. -/
def Run (u : UploadStream) (id : SubscriberId) (depth : Nat) (s : Session υ) : Course υ → Prop :=
  Relation.ReflTransGen (Move u id depth) ⟨s, [], []⟩

end Course

/-! ### What holds along a run -/

section Sound

variable {u : UploadStream} {id : SubscriberId} {s s' : Session υ} {p : Progress} {j : SendJob}
  {completion : Completion υ} {c c' : Course υ} {started : Bool} {depth : Nat}

/-- An upload has one sender at most, once it has been started, and this has queued what its stage says. -/
inductive Tracked (start : Offer υ) (id : SubscriberId) : Bool → Course υ → Prop where
  | unsent {s : Session υ} : Tracked start id false ⟨s, [], []⟩
  | underway {s : Session υ} {j : SendJob} {stage : SendJob.Stage} {frames : List Bytes} (hid : j.id = id)
      (hfile : j.file = start.file) (hwrote : j.Wrote stage frames) : Tracked start id true ⟨s, [(j, stage)], frames⟩

/-- An upload waits for what is to come, or it is over; then it is done only if its sender has reported that everything
is sent. -/
inductive Sound (start : Offer υ) (id : SubscriberId) (completion : Completion υ) : Course υ → Prop where
  | waits {c : Course υ} {o : Offer υ} {p : Progress} (stands : Stands start id o p c.session)
      (tracked : Tracked start id o.started c) (hact : o.completion = some completion) (hstate : p.state ≠ .done) :
      Sound start id completion c
  | ended {c : Course υ} {started : Bool} (hgone : c.session.live[id]? = none) (tracked : Tracked start id started c)
      (hdone : (c.session.world.progressOf start.file.endpoint.stream).state = .done →
        ∃ j, c.senders = [(j, .reported (.ok ()))]) : Sound start id completion c

/-- The session may change below the senders. -/
theorem Tracked.congr (tracked : Tracked start id started c) (s' : Session υ) :
    Tracked start id started { c with session := s' } := by
  cases tracked with
  | unsent => exact .unsent
  | underway hid hfile hwrote => exact .underway hid hfile hwrote

theorem Stands.of_spared (h : Stands start id o p s) (hu : start.file.endpoint = u.toEndpoint)
    (hs : u.Spared id s s') : ∃ p', p'.state = p.state ∧ Stands start id o p' s' := by
  refine ⟨_, ?_, h.congr hs.live hs.offer⟩
  rw [← h.progress, hu]
  exact hs.state

/-- What spares the upload does not matter. -/
theorem Sound.spared (sound : Sound start id completion c) (hu : start.file.endpoint = u.toEndpoint)
    (hs : u.Spared id c.session s') : Sound start id completion { c with session := s' } := by
  cases sound with
  | waits stands tracked hact hstate =>
    obtain ⟨p', hp', stands'⟩ := stands.of_spared hu hs
    exact .waits stands' (tracked.congr s') hact (hp' ▸ hstate)
  | ended hgone tracked hdone =>
    refine .ended (hs.live.trans hgone) (tracked.congr s') ?_
    intro hstate
    refine hdone ?_
    rw [hu] at hstate ⊢
    exact hs.state.symm.trans hstate

/-- The sender is started once. -/
theorem Tracked.starts (tracked : Tracked start id false c) (s' : Session υ) : Tracked start id true
    { c with session := s', senders := c.senders ++ [({ id := id, file := start.file }, .opening)] } := by
  cases tracked
  exact .underway rfl rfl rfl

/-- A sender that works is the only one. -/
theorem Tracked.eq_singleton {x : SendJob × SendJob.Stage} (tracked : Tracked start id started c) (hx : x ∈ c.senders) :
    c.senders = [x] ∧ started = true ∧ x.1.id = id ∧ x.1.file = start.file ∧ x.1.Wrote x.2 c.frames := by
  cases tracked with
  | unsent => cases hx
  | underway hid hfile hwrote =>
    obtain rfl := List.mem_singleton.mp hx
    exact ⟨rfl, rfl, hid, hfile, hwrote⟩

theorem spared_of_moved {fs : List TransferFrame} (h : j.Moved fs s s') (u : UploadStream) (id : SubscriberId) :
    u.Spared id s s' :=
  ⟨by rw [h.live], by rw [h.offers], h.state u.stream⟩

section Advance

variable {front back : List (SendJob × SendJob.Stage)} {frames : List Bytes} {stage stage' : SendJob.Stage}
  {cancelled : Bool}

/-- A sender among one alone is this one. -/
theorem eq_of_append_eq_singleton {x y : SendJob × SendJob.Stage} (h : front ++ x :: back = [y]) :
    front = [] ∧ x = y ∧ back = [] := by
  rcases List.append_eq_singleton_iff.mp h with ⟨hfront, hback⟩ | ⟨-, hback⟩
  · exact ⟨hfront, List.cons.inj hback⟩
  · cases hback

/-- A step of the sender leaves it the only one. -/
theorem Tracked.advance (tracked : Tracked start id started ⟨s, front ++ (j, stage) :: back, frames⟩)
    (hchunk : 0 < start.file.chunk) (hnext : j.advance cancelled stage s = (stage', s')) :
    Tracked start id started ⟨s', front ++ (j, stage') :: back, frames ++ s'.outbox.toList.drop s.outbox.size⟩ ∧
      ∃ fs, j.Moved fs s s' := by
  have hmem : (j, stage) ∈ front ++ (j, stage) :: back := List.mem_append_right _ List.mem_cons_self
  obtain ⟨hsingle, rfl, hid, hfile, hwrote⟩ := tracked.eq_singleton hmem
  obtain ⟨rfl, -, rfl⟩ := eq_of_append_eq_singleton hsingle
  obtain ⟨fs, hmoved, hwrites⟩ := j.moved_advance cancelled stage s
  have hwrote' := hwrites (hfile ▸ hchunk) frames hwrote
  rw [hnext] at hmoved hwrote'
  rw [SendJob.drop_outbox hmoved.outbox]
  exact ⟨.underway hid hfile hwrote', fs, hmoved⟩

/-- A step of the sender. -/
theorem Sound.advance (sound : Sound start id completion ⟨s, front ++ (j, stage) :: back, frames⟩)
    (hu : start.file.endpoint = u.toEndpoint) (hchunk : 0 < start.file.chunk)
    (hnext : j.advance cancelled stage s = (stage', s')) :
    Sound start id completion ⟨s', front ++ (j, stage') :: back, frames ++ s'.outbox.toList.drop s.outbox.size⟩ := by
  cases sound with
  | waits stands tracked hact hstate =>
    obtain ⟨tracked', fs, hmoved⟩ := tracked.advance hchunk hnext
    obtain ⟨p', hp', stands'⟩ := stands.of_spared hu (spared_of_moved hmoved u id)
    exact .waits stands' tracked' hact (hp' ▸ hstate)
  | ended hgone tracked hdone =>
    obtain ⟨tracked', fs, hmoved⟩ := tracked.advance hchunk hnext
    refine .ended (hmoved.live ▸ hgone) tracked' ?_
    intro hstate
    -- a sender that has reported does nothing more
    obtain ⟨j', hj'⟩ : ∃ j', front ++ (j, stage) :: back = [(j', .reported (.ok ()))] :=
      hdone ((hmoved.state _).symm.trans hstate)
    obtain ⟨rfl, hsame, rfl⟩ := eq_of_append_eq_singleton hj'
    obtain ⟨rfl, rfl⟩ := Prod.mk.inj hsame
    obtain ⟨rfl, -⟩ := Prod.mk.inj hnext
    exact ⟨j, rfl⟩

end Advance

/-- A message to the upload that does not say that everything is sent, or that says so when everything is sent. -/
theorem Sound.receive (sound : Sound start id completion c)
    (haddr : m.AddressedTo start.file.endpoint.node start.file.endpoint.name id)
    (hsaid : SaysSent m → ∃ j, (j, .reported (.ok ())) ∈ c.senders) (depth : Nat) :
    Sound start id completion (c.receive (depth + 1) m) := by
  cases sound with
  | ended hgone tracked hdone =>
    rw [Course.receive_of_gone (haddr.2.2.symm ▸ hgone)]
    exact .ended hgone tracked hdone
  | @waits o p stands tracked hact hstate =>
    cases stands.meets hact haddr.2.2 (depth + 1) with
    | misses hsame =>
      rw [Course.receive_of_length (by rw [hsame]), hsame]
      exact .waits stands tracked hact hstate
    | starts hstarted stands' hjobs =>
      rw [Course.receive_of_append hjobs]
      exact .waits stands' ((hstarted ▸ tracked).starts _) hact nofun
    | repeats _ stands' hworld =>
      rw [Course.receive_of_length (by rw [hworld])]
      exact .waits stands' (tracked.congr _) hact hstate
    | completes hsent ends =>
      obtain ⟨j, hj⟩ := hsaid hsent
      rw [Course.receive_of_length ends.jobs]
      exact .ended (Registry.getElem?_of_contains ends.contains) (tracked.congr _)
        fun _ => ⟨j, (tracked.eq_singleton hj).1⟩
    | fails ends =>
      rw [Course.receive_of_length ends.jobs]
      refine .ended (Registry.getElem?_of_contains ends.contains) (tracked.congr _) ?_
      intro hdone
      rw [ends.progress] at hdone
      cases hdone

/-- Whether it waits or is over, an upload has one sender at most. -/
theorem Sound.tracked (sound : Sound start id completion c) : ∃ started, Tracked start id started c := by
  cases sound with
  | waits _ tracked => exact ⟨_, tracked⟩
  | ended _ tracked => exact ⟨_, tracked⟩

/-- A message that does not say that everything is sent tells of no success. -/
theorem Sound.told (sound : Sound start id completion c)
    (haddr : m.AddressedTo start.file.endpoint.node start.file.endpoint.name id) (hnot : ¬ SaysSent m) (depth : Nat) :
    (Registry.dispatch (depth + 1) m c.session).2.world.app = c.session.world.app ∨
      ∃ e, (Registry.dispatch (depth + 1) m c.session).2.world.app = completion (.error e) c.session.world.app := by
  cases sound with
  | ended hgone =>
    left
    rw [Registry.dispatch_of_getElem?_eq_none (haddr.2.2.symm ▸ hgone)]
  | waits stands _ hact =>
    cases stands.meets hact haddr.2.2 (depth + 1) with
    | misses hsame => exact .inl (by rw [hsame])
    | starts _ _ _ happ => exact .inl happ
    | repeats _ _ hworld => exact .inl (congrArg World.app hworld)
    | completes hsent => exact absurd hsent hnot
    | fails ends => exact .inr ⟨_, ends.app⟩

/-- A message that says so tells of one, if the upload still waits. -/
theorem Sound.told_success (sound : Sound start id completion c)
    (haddr : m.AddressedTo start.file.endpoint.node start.file.endpoint.name id) (hsaid : SaysSent m)
    (hlive : id ∈ c.session.live) (depth : Nat) : ∃ p : Progress, p.state = .done ∧
      Ends start id completion (.ok ⟨start.file.fileName, start.file.path, start.file.size, none⟩) p c.session
        (Registry.dispatch (depth + 1) m c.session).2 := by
  cases sound with
  | ended hgone =>
    rw [Std.TreeMap.mem_iff_isSome_getElem?, hgone] at hlive
    cases hlive
  | waits stands _ hact => exact ⟨_, rfl, stands.complete depth hact haddr hsaid⟩

/-- A sender that has reported success has queued the whole file. -/
theorem Tracked.frames_eq (tracked : Tracked start id started c) (hreported : (j, .reported (.ok ())) ∈ c.senders) :
    ∃ bytes : Bytes, bytes.length = start.file.size ∧ c.frames = (start.file.endpoint.stamped id
      (SendJob.frames start.file.fileName start.file.chunk start.file.size bytes)).map Message.frame := by
  obtain ⟨-, -, rfl, hfile, bytes, hlen, hframes⟩ := tracked.eq_singleton hreported
  rw [← hfile]
  exact ⟨bytes, hlen, hframes⟩

/-- Every move of a run. -/
theorem Sound.move (sound : Sound start id completion c) (hu : start.file.endpoint = u.toEndpoint)
    (hchunk : 0 < start.file.chunk) (move : Course.Move u id depth c c') : Sound start id completion c' := by
  cases move with
  | others spared => exact sound.spared hu spared
  | peer m haddr hnot =>
    refine sound.receive ?_ (fun hsent => absurd hsent hnot) depth
    rw [hu]
    exact haddr
  | sender cancelled hnext => exact sound.advance hu hchunk hnext
  | @report _ j result rest hreported hinbox =>
    obtain ⟨started, tracked⟩ := sound.tracked
    obtain ⟨-, -, hid, hfile, -⟩ := tracked.eq_singleton hreported
    have haddr := j.addressedTo_report result
    rw [hfile, hid] at haddr
    have taken : Sound start id completion { c with session := { c.session with inbox := rest } } :=
      sound.spared hu ⟨rfl, rfl, rfl⟩
    refine taken.receive haddr ?_ depth
    intro hsent
    cases result with
    | ok => exact ⟨j, hreported⟩
    | error e => exact absurd hsent (not_saysSent_report j e)

theorem Sound.run (sound : Sound start id completion ⟨s, [], []⟩) (hu : start.file.endpoint = u.toEndpoint)
    (hchunk : 0 < start.file.chunk) (run : Course.Run u id depth s c) : Sound start id completion c := by
  induction run with
  | refl => exact sound
  | tail _ move ih => exact ih.move hu hchunk move

end Sound

/-! ### Completion -/

section Whole

variable {u : UploadStream} {id : SubscriberId} {name node service dir : String} {chunk depth : Nat}
  {completion : Completion υ} {s₀ s s₁ : Session υ} {c : Course υ}

/-- A run of an upload in which no frame of the peer says that everything is sent.  When the upload is done, or its
sender posts a report that says so, the announcement of the file, all pieces and the end have been queued.  No other
message lets the application know of a success; one that says so lets it know whenever it comes. -/
theorem completion_of_run (hu : (UploadStream.start node service dir chunk s₀).1 = u)
    (hupload : (u.upload name completion).on s = (.ok true, s₁)) (hid : u.latest? s₁ = some id)
    (run : Course.Run u id depth s₁ c) :
    ∃ size, s.world.files.size (Files.Path.join u.dir name) = .ok size ∧
      let chunk := max 1 (min chunk maxSize)
      let SentAll := ∃ bytes : Bytes, bytes.length = size ∧
        c.frames = (u.stamped id (SendJob.frames name chunk size bytes)).map Message.frame
      ((u.progress c.session).state = .done → SentAll) ∧
      (∀ j result, (j, .reported result) ∈ c.senders → SaysSent (j.report result) → SentAll) ∧
      (∀ m : Message, m.AddressedTo u.node u.name id →
        let s' := (Registry.dispatch (depth + 1) m c.session).2
        (¬ SaysSent m → s'.world.app = c.session.world.app ∨
          ∃ e, s'.world.app = completion (.error e) c.session.world.app) ∧
        (SaysSent m → id ∈ c.session.live → (u.progress s').state = .done ∧
          s'.world.app = completion (.ok ⟨name, Files.Path.join u.dir name, size, none⟩) c.session.world.app)) := by
  obtain ⟨size, hsize, -, stands⟩ := stands_of_started hupload hid
  obtain ⟨hpiece, hpos⟩ := chunk_of_start hu
  have sound : Sound (u.offer name size completion) id completion c :=
    Sound.run (.waits stands .unsent rfl nofun) rfl hpos run
  refine ⟨size, hsize, ?_⟩
  rw [← hpiece]
  obtain ⟨started, tracked⟩ := sound.tracked
  refine ⟨?_, ?_, ?_⟩
  · intro hstate
    cases sound with
    | waits stands _ _ hne =>
      rw [← stands.progress] at hne
      exact absurd hstate hne
    | ended _ tracked hdone =>
      obtain ⟨j, hj⟩ := hdone hstate
      exact tracked.frames_eq (hj ▸ List.mem_singleton.mpr rfl)
  · intro j result hreported hsent
    cases result with
    | ok => exact tracked.frames_eq hreported
    | error e => exact absurd hsent (not_saysSent_report j e)
  · intro m haddr
    refine ⟨fun hnot => sound.told haddr hnot depth, ?_⟩
    intro hsent hlive
    obtain ⟨p, hdone, ends⟩ := sound.told_success haddr hsent hlive depth
    exact ⟨(congrArg Progress.state ends.progress).trans hdone, ends.app⟩

end Whole

section Sample

namespace Course

/-- The first sender takes a step. -/
def work (c : Course υ) : Course υ :=
  match c.senders with
  | [] => c
  | (j, stage) :: rest =>
    let next := j.advance false stage c.session
    ⟨next.2, (j, next.1) :: rest, c.frames ++ next.2.outbox.toList.drop c.session.outbox.size⟩

theorem Run.work {u : UploadStream} {id : SubscriberId} {depth : Nat} {s : Session υ} {c : Course υ}
    (run : Run u id depth s c) : Run u id depth s c.work := by
  obtain ⟨s', senders, frames⟩ := c
  cases senders with
  | nil => exact run
  | cons x rest => exact run.tail (.sender false rfl : Move u id depth ⟨s', [] ++ x :: rest, frames⟩ _)

theorem Run.works {u : UploadStream} {id : SubscriberId} {depth : Nat} {s : Session υ} {c : Course υ}
    (run : Run u id depth s c) (n : Nat) : Run u id depth s (Course.work^[n] c) := by
  induction n with
  | zero => exact run
  | succ n ih =>
    rw [Function.iterate_succ_apply']
    exact ih.work

end Course

/-- The peer has accepted the upload. -/
def sampleWaiting : Course (List (Except StreamError Outcome)) :=
  Course.receive 1 (sampleAcceptance sampleUpload.toEndpoint) ⟨sampleSession, [], []⟩

/-- The sender has opened the file and announced it, has looked, read, sent and noted twice, has sent the end and posted
its report. -/
def sampleSent : Course (List (Except StreamError Outcome)) := Course.work^[2 + 4 * 2 + 2] sampleWaiting

def sampleJob : SendJob := { id := 1, file := ⟨sampleUpload.toEndpoint, "a", "a", 3, 2⟩ }

/-- The report has arrived. -/
def sampleCompleted : Course (List (Except StreamError Outcome)) :=
  { sampleSent with session := { sampleSent.session with inbox := [] } }.receive 1 (sampleJob.report (.ok ()))

theorem run_sampleCompleted : Course.Run sampleUpload 1 0 sampleSession sampleCompleted := by
  have hnot : ¬ SaysSent (sampleAcceptance sampleUpload.toEndpoint) := by
    rintro ⟨m₁, -, hop, -⟩
    have hcode : (Reader.int32.inStream (sampleAcceptance sampleUpload.toEndpoint)).map Prod.fst =
        .ok TransferOp.status.code := by decide +kernel
    rw [hop] at hcode
    have hcodes : reportCode = TransferOp.status.code := Except.ok.inj hcode
    exact absurd hcodes (by decide)
  have waiting : Course.Run sampleUpload 1 0 sampleSession sampleWaiting :=
    Relation.ReflTransGen.single (.peer _ ⟨rfl, rfl, rfl⟩ hnot)
  have sent : Course.Run sampleUpload 1 0 sampleSession sampleSent := waiting.works _
  exact sent.tail (.report (by decide +kernel) (by decide +kernel))

/-- The upload is done, and its frames have been queued. -/
theorem completion_of_sampleCompleted :
    Course.Run sampleUpload 1 0 sampleSession sampleCompleted ∧
    (sampleUpload.progress sampleCompleted.session).state = .done ∧
    ∃ bytes : Bytes, bytes.length = 3 ∧ sampleCompleted.frames =
      (sampleUpload.stamped 1 (SendJob.frames "a" 2 3 bytes)).map Message.frame := by
  have hid : sampleUpload.latest? sampleSession = some 1 := by decide +kernel
  have hdone : (sampleUpload.progress sampleCompleted.session).state = .done := by decide +kernel
  obtain ⟨size, hsize, hcompleted, -⟩ := completion_of_run (u := sampleUpload) rfl upload_sampleUpload hid
    run_sampleCompleted
  have hthree : sampleStart.2.world.files.size (Files.Path.join sampleUpload.dir "a") = .ok 3 := by decide +kernel
  obtain rfl := Except.ok.inj (hsize.symm.trans hthree)
  exact ⟨run_sampleCompleted, hdone, hcompleted hdone⟩

/-- A frame of the peer that says that everything is sent. -/
def sampleForgery : Message :=
  (sampleUpload.message (Bytes.ofInt32 reportCode ++ Bytes.ofInt32 TransferStatus.accepted.code)).withId 1

/-- The upload has just been requested; the frame completes it, and nothing has been sent. -/
theorem completed_sampleForgery :
    (sampleUpload.upload "a" fun r told => told ++ [r]).on sampleStart.2 = (.ok true, sampleSession) ∧
    sampleForgery.AddressedTo sampleUpload.node sampleUpload.name 1 ∧
    (sampleUpload.progress (Registry.dispatch 1 sampleForgery sampleSession).2).state = .done ∧
    (Registry.dispatch 1 sampleForgery sampleSession).2.world.app = [.ok ⟨"a", "a", 3, none⟩] ∧
    (Registry.dispatch 1 sampleForgery sampleSession).2.world.jobs = [] ∧
    (Registry.dispatch 1 sampleForgery sampleSession).2.outbox = sampleSession.outbox := by
  refine ⟨upload_sampleUpload, ⟨rfl, rfl, rfl⟩, ?_⟩
  decide +kernel

end Sample

end UploadStream
end LevelLink
