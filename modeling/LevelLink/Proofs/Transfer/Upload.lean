import LevelLink.Proofs.Transfer.Download
import LevelLink.Proofs.Transfer.Sender
import LevelLink.Proofs.Wire.Frames

/-!
# Runs of an upload

An upload goes through three steps: the peer accepts it, which starts the sender; the sender runs; and its report
reaches the upload.  Between them anything may happen that leaves alone what the link keeps for the upload
(`UploadStream.Undisturbed`), and `UploadStream.Stands` says what that is.  The frames of a whole upload are those of
a whole download (`SendJob.complete_frames`).
-/

namespace LevelLink

namespace SendJob

variable {name : String} {chunk size : Nat} {bytes : Bytes}

/-! ### Frames of an upload as frames of a download -/

theorem toNatClampNeg_ofNat_size (h : size ≤ UploadStream.maxSize) : (Int32.ofNat size).toNatClampNeg = size :=
  Int32.toNatClampNeg_ofNat_of_lt (Nat.lt_succ_of_le h)

theorem length_piece_le {piece : Bytes} (h : piece ∈ pieces chunk size bytes) : piece.length ≤ size := by
  obtain ⟨i, -, rfl⟩ := List.mem_map.mp h
  rw [SendJob.piece, List.extract_eq_take_drop, List.length_take]
  omega

theorem sayable_frames (hname : (Utf8.encode name).length < Bytes.lengthLimit) (hsize : size ≤ UploadStream.maxSize) :
    ∀ f ∈ frames name chunk size bytes, f.Sayable := by
  intro f hf
  rcases List.mem_append.mp hf with hf | hf
  · rcases List.mem_cons.mp hf with rfl | hf
    · exact hname
    · obtain ⟨piece, hpiece, rfl⟩ := List.mem_map.mp hf
      exact Nat.lt_succ_of_le (Nat.le_trans (length_piece_le hpiece) hsize)
  · obtain rfl := List.mem_singleton.mp hf
    trivial

theorem dataOf_map_data (pieces : List Bytes) : Download.dataOf (pieces.map .data) = pieces.flatten := by
  rw [Download.dataOf, List.flatMap_map]
  exact List.flatMap_id

theorem dataOf_frames (name : String) (hchunk : 0 < chunk) :
    Download.dataOf (frames name chunk size bytes) = bytes.take size := by
  rw [frames, Download.dataOf_concat, ← flatten_pieces hchunk, ← dataOf_map_data]
  exact List.append_nil _

theorem lastChecksum_frames (name : String) (chunk size : Nat) (bytes : Bytes) :
    Download.lastChecksum (frames name chunk size bytes) = none := by
  have hpieces : ((pieces chunk size bytes).map TransferFrame.data).filterMap TransferFrame.checksum? = [] := by
    rw [List.filterMap_eq_nil_iff]
    intro f hf
    obtain ⟨piece, -, rfl⟩ := List.mem_map.mp hf
    rfl
  rw [frames, Download.lastChecksum_concat]
  show ((((pieces chunk size bytes).map TransferFrame.data).filterMap TransferFrame.checksum?).getLast?) = none
  rw [hpieces]
  rfl

/-- The frames of an upload, behind an acceptance, are those of a whole download. -/
theorem complete_frames (hchunk : 0 < chunk) (hsize : size ≤ UploadStream.maxSize) (hlen : size ≤ bytes.length) :
    Download.Complete (.accepted :: frames name chunk size bytes) (Int32.ofNat size) := by
  refine ⟨.accepted :: .transfer name (Int32.ofNat size) (Int32.ofNat chunk) :: (pieces chunk size bytes).map .data,
    rfl, ⟨[.accepted], name, Int32.ofNat chunk, _, rfl, ?_, ?_, ?_⟩, ?_⟩
  · exact fun f hf => List.mem_singleton.mp hf ▸ trivial
  · rw [Int32.le_iff_toInt_le, Int32.toInt_zero, Int32.toInt_ofNat_of_lt (Nat.lt_succ_of_le hsize)]
    exact Int.natCast_nonneg size
  · intro f hf
    obtain ⟨piece, -, rfl⟩ := List.mem_map.mp hf
    exact .inr trivial
  · show (Download.dataOf (frames name chunk size bytes)).length = _
    rw [dataOf_frames name hchunk, toNatClampNeg_ofNat_size hsize, List.length_take, Nat.min_eq_left hlen]

end SendJob

namespace DownloadStream

/-- The download has ended well, with these bytes in its file. -/
structure Rebuilt {υ : Type} (stream : DownloadStream) (name : String) (completion : Completion υ) (id : SubscriberId)
    (bytes : Bytes) (s s' : Session υ) : Prop where
  app : s'.world.app = completion (.ok ⟨name, Files.Path.join stream.dir name, bytes.length, none⟩) s.world.app
  content : s'.world.files.read (Files.Path.join stream.dir name) = .ok bytes
  state : (stream.progress s').state = .done
  contains : s'.contains id = false

/-- A download that was accepted ends well when these frames are addressed to it, with these bytes in its file.  So it does
when the messages are dispatched, however long these are, and when their byte frames are received, if the sizes of these can
be said.  One that is longer has a negative size in its header, and is not read. -/
def Rebuilds (fs : List TransferFrame) (bytes : Bytes) : Prop :=
  ∀ (υ : Type) (stream : DownloadStream) (name : String) (checksum : Option String) (completion : Completion υ)
    (s s₁ : Session υ) (id : SubscriberId) (m : Message) (depth : Nat),
    (stream.download name checksum completion).on s = (.ok true, s₁) → stream.latest? s₁ = some id →
    m.AddressedTo stream.node stream.name id → TransferFrame.accepted.CarriedBy m.unread →
    s₁.world.files.Takes (Files.Path.join stream.dir name) bytes.length →
    let ms := stream.stamped id fs
    stream.Rebuilt name completion id bytes s₁ (s₁.dispatchAll (depth + 1) (m :: ms)) ∧
    ((∀ q ∈ ms, q.body.length < Bytes.lengthLimit) → stream.Rebuilt name completion id bytes s₁
      ((Registry.dispatch (depth + 1) m s₁).2.receiveAll (depth + 1) (ms.map Message.frame))) ∧
    ∀ q ∈ ms, Bytes.lengthLimit ≤ q.body.length → q.body.length < 2 * Bytes.lengthLimit →
      (Bytes.toInt32 q.frame).toInt < 0 ∧ Message.ofFrame q.frame = .error (.frameSize 0 q.body.length)

theorem unread_stamped (e : Endpoint) (id : SubscriberId) (fs : List TransferFrame) :
    (e.stamped id fs).map Message.unread = fs.map TransferFrame.payload := by
  rw [Endpoint.stamped, List.map_map]
  rfl

theorem addressedTo_stamped {e : Endpoint} {id : SubscriberId} {fs : List TransferFrame} {m : Message}
    (h : m ∈ e.stamped id fs) : m.AddressedTo e.node e.name id ∧ m.taken = [] := by
  obtain ⟨f, -, rfl⟩ := List.mem_map.mp h
  exact ⟨⟨rfl, rfl, rfl⟩, rfl⟩

section Rebuilding

variable {υ : Type} {stream : DownloadStream} {name name' : String} {checksum : Option String}
  {completion : Completion υ} {s s₁ : Session υ} {id : SubscriberId} {m : Message} {ms : List Message} {depth : Nat}
  {chunk size : Nat} {bytes : Bytes}

/-- Messages with the payloads of an upload rebuild the file. -/
theorem rebuilt_of_payloads (hname : (Utf8.encode name').length < Bytes.lengthLimit) (hchunk : 0 < chunk)
    (hsize : size ≤ UploadStream.maxSize) (hlen : size ≤ bytes.length)
    (hstart : (stream.download name checksum completion).on s = (.ok true, s₁)) (hid : stream.latest? s₁ = some id)
    (haddr : m.AddressedTo stream.node stream.name id) (haccepted : TransferFrame.accepted.CarriedBy m.unread)
    (htakes : s₁.world.files.Takes (Files.Path.join stream.dir name) (bytes.take size).length)
    (haddrs : ∀ q ∈ ms, q.AddressedTo stream.node stream.name id)
    (hpayloads : ms.map Message.unread = (SendJob.frames name' chunk size bytes).map TransferFrame.payload) :
    stream.Rebuilt name completion id (bytes.take size) s₁ (s₁.dispatchAll (depth + 1) (m :: ms)) := by
  have going := going_of_download hstart hid htakes
  have haddressed : ∀ q ∈ m :: ms, Begun.Addressed ⟨stream, name, completion, id, s₁.world⟩ q :=
    List.forall_mem_cons.mpr ⟨haddr, haddrs⟩
  have hcarried : List.Forall₂ TransferFrame.CarriedBy (.accepted :: SendJob.frames name' chunk size bytes)
      ((m :: ms).map Message.unread) := by
    rw [List.map_cons, hpayloads]
    exact .cons haccepted (Download.forall₂_carriedBy_payload (SendJob.sayable_frames hname hsize))
  have hfinishes : Download.Finishes ((m :: ms).map Message.unread) (.accepted :: SendJob.frames name' chunk size bytes)
      (Int32.ofNat size) :=
    ⟨_, List.prefix_rfl, hcarried, SendJob.complete_frames hchunk hsize hlen⟩
  have hdata : Download.dataOf (.accepted :: SendJob.frames name' chunk size bytes) = bytes.take size :=
    SendJob.dataOf_frames name' hchunk
  have hsum : Download.lastChecksum (.accepted :: SendJob.frames name' chunk size bytes) = none :=
    SendJob.lastChecksum_frames name' chunk size bytes
  have fits := Download.fitsIn_of_carried hcarried
  rw [hdata] at fits
  obtain ⟨hfinished, hgone⟩ := Begun.finished_of_finishes depth haddressed going fits hfinishes
  rw [hdata, hsum] at hfinished
  have happ := hfinished.app
  rw [SendJob.toNatClampNeg_ofNat_size hsize] at happ
  refine ⟨?_, hfinished.content, congrArg Progress.state hfinished.progress, hgone.contains⟩
  rw [List.length_take, Nat.min_eq_left hlen]
  exact happ

end Rebuilding

/-- The frames of an upload rebuild the file. -/
theorem rebuilds_frames {name : String} {chunk size : Nat} {bytes : Bytes}
    (hname : (Utf8.encode name).length < Bytes.lengthLimit) (hchunk : 0 < chunk)
    (hsize : size ≤ UploadStream.maxSize) (hlen : size ≤ bytes.length) :
    Rebuilds (SendJob.frames name chunk size bytes) (bytes.take size) := by
  intro υ stream name' checksum completion s s₁ id m depth hstart hid haddr haccepted htakes ms
  have hrebuilt {ms : List Message} (haddrs : ∀ q ∈ ms, q.AddressedTo stream.node stream.name id)
      (hpayloads : ms.map Message.unread = (SendJob.frames name chunk size bytes).map TransferFrame.payload) :
      stream.Rebuilt name' completion id (bytes.take size) s₁ (s₁.dispatchAll (depth + 1) (m :: ms)) :=
    rebuilt_of_payloads hname hchunk hsize hlen hstart hid haddr haccepted htakes haddrs hpayloads
  refine ⟨hrebuilt (fun q hq => (addressedTo_stamped hq).1) (unread_stamped ..), fun hshort => ?_,
    fun q _ => Message.ofFrame_frame_of_le⟩
  have hread : ∀ frame ∈ ms.map Message.frame, ∃ q : Message, Message.ofFrame frame = .ok q ∧
      q.AddressedTo stream.node stream.name id := by
    intro frame hframe
    obtain ⟨q, hq, rfl⟩ := List.mem_map.mp hframe
    exact ⟨_, Message.ofFrame_frame_of_lt (hshort q hq), (addressedTo_stamped hq).1⟩
  obtain ⟨received, hall, hpayloads, haddrs⟩ := Registry.exists_dispatchAll_eq_receiveAll (depth + 1) hread
  rw [hall]
  refine hrebuilt haddrs (hpayloads.symm.trans ?_)
  rw [← unread_stamped stream.toEndpoint id, List.map_map]
  refine List.map_congr_left fun q hq => ?_
  have htaken := (addressedTo_stamped hq).2
  rw [Function.comp_apply, Message.payloadOf_eq (Message.ofFrame_frame_of_lt (hshort q hq))]
  simp [Message.payload, htaken]

end DownloadStream

namespace UploadStream

/-! ### Steps of an upload -/

variable {υ : Type} {start : Offer υ} {self : SubscriberId} {m : Message} {w : World υ} {o : Offer υ}

theorem on_step_accepted (h : TransferFrame.accepted.CarriedBy m.unread) (w : World υ) :
    (step start self m).on w = (.ok .stay, startSender start self w) := by
  obtain ⟨rest, h⟩ := h.eq_append
  rw [TransferFrame.payload, List.append_assoc] at h
  obtain ⟨m₁, hop, hstatus⟩ := (Reader.reads_int32 _).goes_on h
  simp only [step, Step.read, Attempt.on_lift, Attempt.on_bind, hop, TransferOp.ofCode?_code,
    Transfer.on_readStatus_accepted hstatus, Attempt.on_pure, Attempt.on_modify]

/-- An upload that has not started its sender starts it. -/
theorem startSender_of_current (h : current start self w = o) (hstarted : o.started = false) :
    startSender start self w =
      { (keep self { o with started := true } w).setState o.file.endpoint.stream .transferring with
        jobs := w.jobs ++ [{ id := self, file := o.file }] } := by
  rw [startSender, h, hstarted]
  rfl

/-- A message says that everything has been sent, as the report of a sender does that has sent everything. -/
def SaysSent (m : Message) : Prop :=
  ∃ m₁ rest, Reader.int32.inStream m = .ok (reportCode, m₁) ∧
    Reader.int32.inStream m₁ = .ok (TransferStatus.accepted.code, rest)

theorem saysSent_report (j : SendJob) : SaysSent (j.report (.ok ())) := by
  have hunread : (j.report (.ok ())).unread =
      Bytes.ofInt32 reportCode ++ (Bytes.ofInt32 TransferStatus.accepted.code ++ []) := rfl
  obtain ⟨m₁, hop, hstatus⟩ := (Reader.reads_int32 _).goes_on hunread
  obtain ⟨m₂, hstatus, -⟩ := (Reader.reads_int32 _).goes_on hstatus
  exact ⟨m₁, m₂, hop, hstatus⟩

/-- No opcode of the peer is that of a report. -/
theorem ofCode?_reportCode : TransferOp.ofCode? reportCode = none := by decide

/-- A message that says so completes the upload. -/
theorem on_step_of_saysSent {act : Completion υ} (h : current start self w = o) (hact : o.completion = some act)
    (hsaid : SaysSent m) : (step start self m).on w =
      (.ok .close, keep self { o with completion := none } ((w.setState o.file.endpoint.stream .done).tell
        (act (.ok ⟨o.file.fileName, o.file.path, o.file.size, none⟩)))) := by
  obtain ⟨m₁, rest, hop, hstatus⟩ := hsaid
  simp only [step, complete, Step.read, Attempt.on_lift, Attempt.on_bind, Attempt.on_get, Attempt.on_modify,
    Attempt.on_pure, hop, ofCode?_reportCode, hstatus, if_true, ne_eq, not_true_eq_false, if_false, h, hact]

/-- The report of a sender that has failed gives a refusal. -/
theorem reads_report_error (j : SendJob) (e : StreamError) :
    ∃ m₁ m₂, Reader.int32.inStream (j.report (.error e)) = .ok (reportCode, m₁) ∧
      Reader.int32.inStream m₁ = .ok (TransferStatus.refused.code, m₂) := by
  have hunread : (j.report (.error e)).unread = Bytes.ofInt32 reportCode ++
      (Bytes.ofInt32 TransferStatus.refused.code ++ (Utf8.encode e.message).block) := by
    show (Bytes.ofInt32 reportCode ++ Bytes.ofInt32 TransferStatus.refused.code) ++ (Utf8.encode e.message).block = _
    rw [List.append_assoc]
  obtain ⟨m₁, hop, hstatus⟩ := (Reader.reads_int32 _).goes_on hunread
  obtain ⟨m₂, hstatus, -⟩ := (Reader.reads_int32 _).goes_on hstatus
  exact ⟨m₁, m₂, hop, hstatus⟩

theorem not_saysSent_report (j : SendJob) (e : StreamError) : ¬ SaysSent (j.report (.error e)) := by
  rintro ⟨m₁, rest, hop, hstatus⟩
  obtain ⟨m₁', m₂, hop', hstatus'⟩ := reads_report_error j e
  obtain rfl : m₁ = m₁' := (Prod.mk.inj (Except.ok.inj (hop.symm.trans hop'))).2
  have hcodes : TransferStatus.accepted.code = TransferStatus.refused.code :=
    (Prod.mk.inj (Except.ok.inj (hstatus.symm.trans hstatus'))).1
  exact absurd hcodes (by decide)

/-- The report of a sender that has failed fails the upload. -/
theorem fails_step_report (e : StreamError) (j : SendJob) (w : World υ) :
    (step start self (j.report (.error e))).Fails w := by
  obtain ⟨m₁, m₂, hop, hstatus⟩ := reads_report_error j e
  have hcomplete : (complete start self m₁).Fails w := by
    rw [complete, Step.read, hstatus]
    refine Attempt.fails_bind_of_ok (Attempt.on_lift _ w) ?_
    exact Attempt.fails_lift_bind fun _ _ => Attempt.fails_throw _ w
  rw [step, Step.read, hop]
  refine Attempt.fails_bind_of_ok (Attempt.on_lift _ w) ?_
  simp only [ofCode?_reportCode, if_true]
  exact Attempt.Fails.bind hcomplete _

/-! ### How an upload stands -/

/-- What the link keeps for the upload: it listens, its offer is `o` and its progress is `p`. -/
structure Stands (start : Offer υ) (id : SubscriberId) (o : Offer υ) (p : Progress) (s : Session υ) : Prop where
  hears : s.Hears start.file.endpoint.node start.file.endpoint.name id (handler start)
  offer : current start id s.world = o
  file : o.file = start.file
  progress : s.world.progressOf start.file.endpoint.stream = p

/-- Nobody has interfered with an upload meanwhile: what the link keeps for it is as it was. -/
structure Undisturbed (u : UploadStream) (id : SubscriberId) (s s' : Session υ) : Prop where
  live : s'.live[id]? = s.live[id]?
  offer : s'.world.offers[id]? = s.world.offers[id]?
  progress : u.progress s' = u.progress s

variable {u : UploadStream} {id : SubscriberId} {s s' : Session υ} {p : Progress} {j : SendJob} {act : Completion υ}

theorem Undisturbed.refl (u : UploadStream) (id : SubscriberId) (s : Session υ) : u.Undisturbed id s s :=
  ⟨rfl, rfl, rfl⟩

theorem Stands.mem_live (h : Stands start id o p s) : id ∈ s.live := by
  obtain ⟨request, -, -, hlive⟩ := h.hears
  rw [Std.TreeMap.mem_iff_isSome_getElem?, hlive]
  rfl

theorem Stands.progress_eq (h : Stands start id o p s) (hu : start.file.endpoint = u.toEndpoint) : u.progress s = p := by
  rw [Endpoint.progress, ← hu]
  exact h.progress

/-- Only who listens, the offer and the progress matter. -/
theorem Stands.congr (h : Stands start id o p s) (hlive : s'.live[id]? = s.live[id]?)
    (hoffer : s'.world.offers[id]? = s.world.offers[id]?) :
    Stands start id o (s'.world.progressOf start.file.endpoint.stream) s' := by
  obtain ⟨⟨request, hnode, hname, hlive₀⟩, hoffer₀, hfile, -⟩ := h
  refine ⟨⟨request, hnode, hname, hlive.trans hlive₀⟩, ?_, hfile, rfl⟩
  rw [current, Std.TreeMap.getD_eq_getD_getElem?, hoffer, ← Std.TreeMap.getD_eq_getD_getElem?]
  exact hoffer₀

theorem Stands.of_undisturbed (h : Stands start id o p s) (hu : start.file.endpoint = u.toEndpoint)
    (hs : u.Undisturbed id s s') : Stands start id o p s' := by
  have hprogress : s'.world.progressOf start.file.endpoint.stream = p := by
    rw [← h.progress, hu]
    exact hs.progress
  rw [← hprogress]
  exact h.congr hs.live hs.offer

theorem Stands.of_reported {result : Except StreamError Unit} {fs : List TransferFrame} {moved : Nat}
    (h : Stands start id o p s) (hj : j.file = start.file) (hs : j.Reported result fs moved s s') :
    Stands start id o { p with moved } s' := by
  have hprogress : s'.world.progressOf start.file.endpoint.stream = { p with moved } := by
    rw [← hj, hs.progress, hj, h.progress]
  rw [← hprogress]
  exact h.congr (by rw [hs.live]) (by rw [hs.offers])

section Dispatch

variable (h : Stands start id o p s) (depth : Nat)
include h

/-- A status that is taken starts the sender. -/
theorem Stands.starts (hstarted : o.started = false)
    (haddr : m.AddressedTo start.file.endpoint.node start.file.endpoint.name id)
    (hstep : (step start id m).on s.world = (.ok .stay, startSender start id s.world)) :
    Stands start id { o with started := true } { p with state := .transferring }
        (Registry.dispatch (depth + 1) m s).2 ∧
      (Registry.dispatch (depth + 1) m s).2.world.jobs = s.world.jobs ++ [{ id := id, file := start.file }] ∧
      (Registry.dispatch (depth + 1) m s).2.outbox = s.outbox ∧
      (Registry.dispatch (depth + 1) m s).2.world.app = s.world.app := by
  rw [startSender_of_current h.offer hstarted] at hstep
  obtain ⟨live, hdispatch, hears⟩ := h.hears.dispatch_stay haddr rfl depth hstep
  rw [hdispatch, ← h.progress, ← h.file]
  exact ⟨⟨hears, Std.TreeMap.getD_insert_self, h.file, h.file ▸ Std.TreeMap.getD_insert_self⟩, rfl, rfl, rfl⟩

/-- Another one changes nothing. -/
theorem Stands.starts_once (hstarted : o.started = true)
    (haddr : m.AddressedTo start.file.endpoint.node start.file.endpoint.name id)
    (hstep : (step start id m).on s.world = (.ok .stay, startSender start id s.world)) :
    Stands start id o p (Registry.dispatch (depth + 1) m s).2 ∧
      (Registry.dispatch (depth + 1) m s).2.world = s.world := by
  have hsame : startSender start id s.world = s.world := by
    rw [startSender, h.offer, hstarted]
    rfl
  rw [hsame] at hstep
  obtain ⟨live, hdispatch, hears⟩ := h.hears.dispatch_stay haddr rfl depth hstep
  rw [hdispatch]
  exact ⟨⟨hears, h.offer, h.file, h.progress⟩, rfl⟩

/-- The acceptance of the peer starts the sender. -/
theorem Stands.accept (hstarted : o.started = false)
    (haddr : m.AddressedTo start.file.endpoint.node start.file.endpoint.name id)
    (haccepted : TransferFrame.accepted.CarriedBy m.unread) :
    Stands start id { o with started := true } { p with state := .transferring }
        (Registry.dispatch (depth + 1) m s).2 ∧
      (Registry.dispatch (depth + 1) m s).2.world.jobs = s.world.jobs ++ [{ id := id, file := start.file }] ∧
      (Registry.dispatch (depth + 1) m s).2.outbox = s.outbox ∧
      (Registry.dispatch (depth + 1) m s).2.world.app = s.world.app :=
  h.starts depth hstarted haddr (on_step_accepted haccepted s.world)

/-- An upload is over: the application has been told how, the progress says so, and nobody listens any more. -/
structure Ends (start : Offer υ) (id : SubscriberId) (act : Completion υ) (result : Except StreamError Outcome)
    (p : Progress) (s s' : Session υ) : Prop where
  app : s'.world.app = act result s.world.app
  progress : s'.world.progressOf start.file.endpoint.stream = p
  contains : s'.contains id = false
  jobs : s'.world.jobs.length = s.world.jobs.length

/-- A message that says that everything is sent completes the upload. -/
theorem Stands.complete (hact : o.completion = some act)
    (haddr : m.AddressedTo start.file.endpoint.node start.file.endpoint.name id) (hsaid : SaysSent m) :
    Ends start id act (.ok ⟨start.file.fileName, start.file.path, start.file.size, none⟩) { p with state := .done } s
      (Registry.dispatch (depth + 1) m s).2 := by
  have hstep := on_step_of_saysSent h.offer hact hsaid
  obtain ⟨live, hdispatch, hlive⟩ := h.hears.dispatch_close haddr rfl depth hstep
  rw [hdispatch, ← h.progress, ← h.file]
  refine ⟨rfl, ?_, s.contains_delivered _ hlive, rfl⟩
  rw [← h.file]
  exact Std.TreeMap.getD_insert_self

/-- A frame that cannot be handled fails the upload. -/
theorem Stands.lose (hact : o.completion = some act)
    (haddr : m.AddressedTo start.file.endpoint.node start.file.endpoint.name id)
    (hfails : (step start id m).Fails s.world) :
    ∃ e, Ends start id act (.error e) { p with state := .failed } s (Registry.dispatch (depth + 1) m s).2 := by
  obtain ⟨e, hstep⟩ := hfails
  have habandon : abandon start id e s.world =
      ((keep id { o with completion := none } (cancel id s.world)).setState o.file.endpoint.stream .failed).tell
        (act (.error e)) := by
    simp only [abandon, h.offer, hact]
  obtain ⟨live, hdispatch, hlive⟩ := h.hears.dispatch_fail haddr rfl depth hstep rfl
  rw [hdispatch, habandon, ← h.progress, ← h.file]
  refine ⟨e, rfl, ?_, s.contains_delivered _ hlive, List.length_map ..⟩
  rw [← h.file]
  exact Std.TreeMap.getD_insert_self

/-- The report of a sender that has sent everything completes the upload. -/
theorem Stands.finish (hact : o.completion = some act)
    (haddr : (j.report (.ok ())).AddressedTo start.file.endpoint.node start.file.endpoint.name id) :
    (Registry.dispatch (depth + 1) (j.report (.ok ())) s).2.world.app =
        act (.ok ⟨start.file.fileName, start.file.path, start.file.size, none⟩) s.world.app ∧
      (Registry.dispatch (depth + 1) (j.report (.ok ())) s).2.world.progressOf start.file.endpoint.stream =
        { p with state := .done } ∧
      (Registry.dispatch (depth + 1) (j.report (.ok ())) s).2.contains id = false := by
  obtain ⟨happ, hprogress, hcontains, -⟩ := h.complete depth hact haddr (saysSent_report j)
  exact ⟨happ, hprogress, hcontains⟩

/-- A frame that cannot be handled fails the upload. -/
theorem Stands.fail (hact : o.completion = some act)
    (haddr : m.AddressedTo start.file.endpoint.node start.file.endpoint.name id)
    (hfails : (step start id m).Fails s.world) :
    (∃ e, (Registry.dispatch (depth + 1) m s).2.world.app = act (.error e) s.world.app) ∧
      (Registry.dispatch (depth + 1) m s).2.world.progressOf start.file.endpoint.stream =
        { p with state := .failed } ∧
      (Registry.dispatch (depth + 1) m s).2.contains id = false := by
  obtain ⟨e, happ, hprogress, hcontains, -⟩ := h.lose depth hact haddr hfails
  exact ⟨⟨e, happ⟩, hprogress, hcontains⟩

end Dispatch

/-! ### Starting an upload -/

/-- The offer of a file before the peer has answered. -/
def offer (u : UploadStream) (name : String) (size : Nat) (completion : Completion υ) : Offer υ :=
  { file := ⟨u.toEndpoint, name, Files.Path.join u.dir name, size, u.chunk⟩, completion := some completion }

section Upload

variable {name : String} {completion : Completion υ} {file : Nat} {s₁ : Session υ}

theorem measure_cases (name path : String) (files : Files.Store) :
    (∃ e, measure name path files = .error (.io e)) ∨
    ∃ size, measure name path files = .ok size ∧ files.size path = .ok size ∧ size ≤ maxSize := by
  rw [measure]
  rcases hsize : files.size path with e | size
  · exact .inl ⟨e, rfl⟩
  · by_cases hle : maxSize < size
    · exact .inl ⟨_, if_pos hle⟩
    · exact .inr ⟨size, if_neg hle, rfl, Nat.le_of_not_lt hle⟩

/-- An upload that has been requested waits for the answer. -/
theorem stands_of_requested {size : Nat}
    (h : u.Requested (u.opening name size) (handler (u.offer name size completion))
      { state := .awaitingOpenAck, fileName := name, total := size } id s s₁) :
    Stands (u.offer name size completion) id (u.offer name size completion)
      { state := .awaitingOpenAck, fileName := name, total := size } s₁ := by
  refine ⟨h.hears, ?_, rfl, h.progress⟩
  rw [current, Std.TreeMap.getD_eq_getD_getElem?, h.offer]
  rfl

/-- What comes of starting an upload: one is in progress, and nothing happens; or it does not come to the request; or
the request cannot be sent; or the upload waits for the answer. -/
inductive Offers (u : UploadStream) (name : String) (completion : Completion υ) (s : Session υ) :
    Except StreamError Bool × Session υ → Prop where
  | refused (hbusy : u.isBusy s = true) : Offers u name completion s (.ok false, s)
  | refrains {e : IoError} (hidle : u.isBusy s = false) : Offers u name completion s (.error (.io e), s)
  | fails {e : TransportError} {s' : Session υ} {size : Nat} (hidle : u.isBusy s = false)
      (hprogress : u.progress s' = { state := .failed, fileName := name, total := size }) (hlive : s'.live = s.live)
      (happ : s'.world.app = s.world.app) : Offers u name completion s (.error (.transport e), s')
  | taken {id : SubscriberId} {s' : Session υ} {size : Nat} (hidle : u.isBusy s = false)
      (hsize : s.world.files.size (Files.Path.join u.dir name) = .ok size) (hle : size ≤ maxSize)
      (hid : u.latest? s' = some id) (stands : Stands (u.offer name size completion) id (u.offer name size completion)
        { state := .awaitingOpenAck, fileName := name, total := size } s')
      (hothers : ∀ other, other ≠ id → s'.live[other]? = s.live[other]?) (happ : s'.world.app = s.world.app) :
      Offers u name completion s (.ok true, s')

theorem offers_request {size : Nat} (hidle : u.isBusy s = false)
    (hsize : s.world.files.size (Files.Path.join u.dir name) = .ok size) (hle : size ≤ maxSize) :
    u.Offers name completion s ((u.request (u.opening name size) (handler (u.offer name size completion))
      { state := .awaitingOpenAck, fileName := name, total := size }).on s) := by
  rcases Endpoint.request_cases u.toEndpoint (u.opening name size) (handler (u.offer name size completion))
    { state := .awaitingOpenAck, fileName := name, total := size } s with
    ⟨id, s', hrequest, requested, hothers⟩ | ⟨e, s', hrequest, hprogress, hlive, happ⟩
  · rw [hrequest]
    exact .taken hidle hsize hle requested.latest (stands_of_requested requested) hothers requested.app
  · rw [hrequest]
    exact .fails hidle hprogress hlive happ

theorem offers_upload (u : UploadStream) (name : String) (completion : Completion υ) (s : Session υ) :
    u.Offers name completion s ((u.upload name completion).on s) := by
  rw [upload, Attempt.on_bind_of_ok (Attempt.on_get s)]
  by_cases hbusy : u.isBusy s = true
  · rw [if_pos hbusy]
    exact .refused hbusy
  · rw [if_neg hbusy, Attempt.on_bind_of_ok (Attempt.on_get s)]
    have hidle : u.isBusy s = false := Bool.eq_false_iff.mpr hbusy
    split
    · exact .refrains hidle
    · rcases Transfer.resolve_cases u.dir name with ⟨e, hresolve⟩ | hresolve
      · rw [hresolve]
        exact .refrains hidle
      · rw [hresolve, Attempt.on_bind_of_ok (Attempt.on_lift _ s), Attempt.on_bind_of_ok (Attempt.on_get s)]
        rcases measure_cases name (Files.Path.join u.dir name) s.world.files with
          ⟨e, hmeasure⟩ | ⟨size, hmeasure, hsize, hle⟩
        · rw [hmeasure]
          exact .refrains hidle
        · rw [hmeasure, Attempt.on_bind_of_ok (Attempt.on_lift _ s)]
          exact offers_request hidle hsize hle

theorem stands_of_started (h : (u.upload name completion).on s = (.ok true, s₁)) (hid : u.latest? s₁ = some id) :
    ∃ size, s.world.files.size (Files.Path.join u.dir name) = .ok size ∧ size ≤ maxSize ∧
      Stands (u.offer name size completion) id (u.offer name size completion)
        { state := .awaitingOpenAck, fileName := name, total := size } s₁ := by
  have offers := u.offers_upload name completion s
  rw [h] at offers
  cases offers with
  | @taken id' _ size _ hsize hle hid' stands =>
    obtain rfl : id' = id := Option.some.inj (hid'.symm.trans hid)
    exact ⟨size, hsize, hle, stands⟩

/-- The size of a file is the number of its bytes. -/
theorem stands_of_upload (h : (u.upload name completion).on s = (.ok true, s₁)) (hid : u.latest? s₁ = some id)
    (hfile : s.world.files.find (Files.Path.join u.dir name) = .ok (.file file)) :
    (s.world.files.content file).length ≤ maxSize ∧
      Stands (u.offer name (s.world.files.content file).length completion) id
        (u.offer name (s.world.files.content file).length completion)
        { state := .awaitingOpenAck, fileName := name, total := (s.world.files.content file).length } s₁ := by
  obtain ⟨size, hsize, hle, hstands⟩ := stands_of_started h hid
  rw [Files.Store.size, hfile] at hsize
  obtain rfl := Except.ok.inj hsize
  exact ⟨hle, hstands⟩

end Upload

/-- A name that a file was found under can be said. -/
theorem length_name_lt {dir name : String} {files : Files.Store} {found : Files.Node}
    (h : files.find (Files.Path.join dir name) = .ok found) : (Utf8.encode name).length < Bytes.lengthLimit := by
  have hjoin : name.utf8ByteSize ≤ (Files.Path.join dir name).utf8ByteSize :=
    Files.Store.utf8ByteSize_le_join dir name
  have hpath := Files.Store.utf8ByteSize_lt_of_find h
  exact Nat.lt_of_le_of_lt hjoin (Nat.lt_trans hpath (by decide))

/-- The pieces of an upload are as large as was configured, within what a piece can be. -/
theorem chunk_of_start {node name dir : String} {chunk : Nat} (h : (UploadStream.start node name dir chunk s).1 = u) :
    u.chunk = max 1 (min chunk maxSize) ∧ 0 < u.chunk := by
  subst h
  exact ⟨rfl, Nat.lt_of_lt_of_le Nat.one_pos (Nat.le_max_left _ _)⟩

/-! ### A whole upload -/

section Whole

variable {name node service dir : String} {chunk file : Nat} {completion : Completion υ} {s₀ s₁ s₁' : Session υ}

/-- The upload has been completed, and the application knows. -/
structure Completed (u : UploadStream) (id : SubscriberId) (name : String) (size : Nat) (completion : Completion υ)
    (s s' : Session υ) : Prop where
  app : s'.world.app = completion (.ok ⟨name, Files.Path.join u.dir name, size, none⟩) s.world.app
  progress : u.progress s' = { state := .done, fileName := name, total := size, moved := size }
  contains : s'.contains id = false

/-- The upload has failed, and the application knows. -/
structure Failed (u : UploadStream) (id : SubscriberId) (completion : Completion υ) (s s' : Session υ) : Prop where
  app : ∃ e, s'.world.app = completion (.error e) s.world.app
  progress : (u.progress s').state = .failed
  contains : s'.contains id = false

/-- What becomes of an upload that the peer accepts, if nobody interferes with it.  One sender is started.  When it
runs and the file still has the announced bytes, it queues the announcement, the pieces of these bytes and the end,
its report completes the upload, and the frames rebuild the bytes at the other end of a download.  If the file has
become shorter, it queues no end, and its report fails the upload. -/
theorem outcome_of_upload (hu : (UploadStream.start node service dir chunk s₀).1 = u)
    (hupload : (u.upload name completion).on s = (.ok true, s₁)) (hid : u.latest? s₁ = some id)
    (hfile : s.world.files.find (Files.Path.join u.dir name) = .ok (.file file))
    (hs : u.Undisturbed id s₁ s₁') (haddr : m.AddressedTo u.node u.name id)
    (haccepted : TransferFrame.accepted.CarriedBy m.unread) (depth : Nat) :
    let size := (s.world.files.content file).length
    let chunk := max 1 (min chunk maxSize)
    let s₂ := (Registry.dispatch (depth + 1) m s₁').2
    ∃ j : SendJob, s₂.world.jobs = s₁'.world.jobs ++ [j] ∧ s₂.outbox = s₁'.outbox ∧ s₂.world.app = s₁'.world.app ∧
      ∀ (s₂' : Session υ) (file' : Nat), u.Undisturbed id s₂ s₂' → s₂'.room = none →
        s₂'.world.files.find (Files.Path.join u.dir name) = .ok (.file file') →
        let bytes := (s₂'.world.files.content file').all
        let s₃ := j.run s₂'
        ∃ report, s₃.inbox = s₂'.inbox ++ [report] ∧ s₃.world.app = s₂'.world.app ∧
          (size ≤ bytes.length →
            s₃.outbox = s₂'.outbox ++
              ((u.stamped id (SendJob.frames name chunk size bytes)).map Message.frame).toArray ∧
            (∀ s₃', u.Undisturbed id s₃ s₃' →
              u.Completed id name size completion s₃' (Registry.dispatch (depth + 1) report s₃').2) ∧
            DownloadStream.Rebuilds (SendJob.frames name chunk size bytes) (bytes.take size)) ∧
          (bytes.length < size →
            s₃.outbox = s₂'.outbox ++
              ((u.stamped id (SendJob.shortFrames name chunk size bytes)).map Message.frame).toArray ∧
            ∀ s₃', u.Undisturbed id s₃ s₃' →
              u.Failed id completion s₃' (Registry.dispatch (depth + 1) report s₃').2) := by
  intro size piece s₂
  obtain ⟨hsize, hstands⟩ := stands_of_upload hupload hid hfile
  obtain ⟨hpiece, hpos⟩ : u.chunk = piece ∧ 0 < u.chunk := chunk_of_start hu
  obtain ⟨hstands₂, hjobs, houtbox, happ⟩ := (hstands.of_undisturbed rfl hs).accept depth rfl haddr haccepted
  let j : SendJob := { id, file := (u.offer name size completion).file }
  refine ⟨j, hjobs, houtbox, happ, ?_⟩
  intro s₂' file' hs₂ hroom hfile' bytes s₃
  have hwaiting := hstands₂.of_undisturbed rfl hs₂
  have hmoved : (s₂'.world.progressOf u.stream).moved = 0 := congrArg Progress.moved hwaiting.progress
  rw [← hpiece]
  rcases Nat.lt_or_ge bytes.length size with hshort | hlen
  · obtain ⟨e, s', hput, hsent⟩ := SendJob.on_putFile_short (j := j) hfile' hroom rfl hmoved hpos hshort
    have hreported := hsent.reported hput
    have hfails : ∀ s₃', u.Undisturbed id s₃ s₃' →
        u.Failed id completion s₃' (Registry.dispatch (depth + 1) (j.report (.error e)) s₃').2 := by
      intro s₃' hs₃
      have hstands₃ := (hwaiting.of_reported rfl hreported).of_undisturbed rfl hs₃
      obtain ⟨htold, hprogress, hgone⟩ :=
        hstands₃.fail depth rfl (j.addressedTo_report _) (fails_step_report e j _)
      exact ⟨htold, congrArg Progress.state hprogress, hgone⟩
    refine ⟨j.report (.error e), hreported.inbox, hreported.app, ?_, ?_⟩
    · intro hlen
      exact absurd hshort (Nat.not_lt.mpr hlen)
    · intro _
      exact ⟨hreported.outbox, hfails⟩
  · obtain ⟨s', hput, hsent⟩ := SendJob.on_putFile (j := j) hfile' hroom rfl hmoved hpos hlen
    have hreported := hsent.reported hput
    have hcompletes : ∀ s₃', u.Undisturbed id s₃ s₃' →
        u.Completed id name size completion s₃' (Registry.dispatch (depth + 1) (j.report (.ok ())) s₃').2 := by
      intro s₃' hs₃
      have hstands₃ := (hwaiting.of_reported rfl hreported).of_undisturbed rfl hs₃
      obtain ⟨htold, hprogress, hgone⟩ := hstands₃.finish depth rfl (j.addressedTo_report _)
      exact ⟨htold, hprogress, hgone⟩
    have hrebuilds := DownloadStream.rebuilds_frames (length_name_lt hfile) hpos hsize hlen
    refine ⟨j.report (.ok ()), hreported.inbox, hreported.app, ?_, ?_⟩
    · intro _
      exact ⟨hreported.outbox, hcompletes, hrebuilds⟩
    · intro hshort
      exact absurd hshort (Nat.not_lt.mpr hlen)

end Whole

section Sample

def sampleFiles : Files.Store :=
  { nodes := .ofList [(["a"], Files.Node.file 0)], contents := .ofList [(0, Files.Content.ofBytes [1, 2, 3])]
    nextFile := 1 }

/-- A session with an upload endpoint for pieces of two bytes. -/
def sampleStart : UploadStream × Session (List (Except StreamError Outcome)) :=
  UploadStream.start "ASSETS" "PUT" "" 2 (Session.start [] sampleFiles)

def sampleUpload : UploadStream := sampleStart.1

/-- An upload that notes what it is told has just been started. -/
def sampleSession : Session (List (Except StreamError Outcome)) :=
  ((sampleUpload.upload "a" fun r told => told ++ [r]).on sampleStart.2).2

def sampleAcceptance (e : Endpoint) : Message := (e.message TransferFrame.accepted.payload).withId 1

/-- The peer has accepted the upload. -/
def sampleAccepted : Session (List (Except StreamError Outcome)) :=
  (Registry.dispatch 1 (sampleAcceptance sampleUpload.toEndpoint) sampleSession).2

theorem upload_sampleUpload :
    (sampleUpload.upload "a" fun r told => told ++ [r]).on sampleStart.2 = (.ok true, sampleSession) :=
  Prod.ext (by decide +kernel) rfl

theorem carriedBy_sampleAcceptance (e : Endpoint) : TransferFrame.accepted.CarriedBy (sampleAcceptance e).unread :=
  ⟨trivial, List.prefix_rfl⟩

/-- A whole upload is told, and its frames rebuild the file at a download. -/
theorem outcome_of_sampleUpload : ∃ (j : SendJob) (report : Message),
    sampleAccepted.world.jobs = [j] ∧ (j.run sampleAccepted).inbox = [report] ∧
    (Registry.dispatch 1 report (j.run sampleAccepted)).2.world.app = [.ok ⟨"a", "a", 3, none⟩] ∧
    (DownloadStream.sampleSession.dispatchAll 1 (sampleAcceptance DownloadStream.sampleStream.toEndpoint ::
      DownloadStream.sampleStream.stamped 1 (SendJob.frames "a" 2 3 [1, 2, 3]))).world.files.read "a" =
      .ok [1, 2, 3] := by
  have hfile : sampleStart.2.world.files.find (Files.Path.join sampleUpload.dir "a") = .ok (.file 0) := by
    decide +kernel
  have hfile' : sampleAccepted.world.files.find (Files.Path.join sampleUpload.dir "a") = .ok (.file 0) := by
    decide +kernel
  have hid : sampleUpload.latest? sampleSession = some 1 := by decide +kernel
  have hroom : sampleAccepted.room = none := by decide +kernel
  have hbefore : sampleSession.world.jobs = [] ∧ sampleAccepted.inbox = [] ∧ sampleAccepted.world.app = [] := by
    decide +kernel
  have hsize : (sampleStart.2.world.files.content 0).length = 3 := by decide +kernel
  have hbytes : (sampleAccepted.world.files.content 0).all = [1, 2, 3] := by decide +kernel
  obtain ⟨j, hjobs, -, happ, hrun⟩ := outcome_of_upload (u := sampleUpload) rfl upload_sampleUpload hid hfile
    (.refl _ _ _) ⟨rfl, rfl, rfl⟩ (carriedBy_sampleAcceptance sampleUpload.toEndpoint) 0
  obtain ⟨report, hinbox, happ', hwhole, -⟩ := hrun sampleAccepted 0 (.refl _ _ _) hroom hfile'
  rw [hsize, hbytes] at hwhole
  obtain ⟨-, hcompleted, hrebuilds⟩ := hwhole (by decide)
  rw [hbefore.1] at hjobs
  rw [hbefore.2.1] at hinbox
  refine ⟨j, report, hjobs, hinbox, ?_, ?_⟩
  · rw [(hcompleted _ (.refl _ _ _)).app, happ', hbefore.2.2]
    rfl
  · have htakes : DownloadStream.sampleSession.world.files.Takes
        (Files.Path.join DownloadStream.sampleStream.dir "a") (([1, 2, 3] : Bytes).take 3).length :=
      Files.Store.takes_of_isOk (by decide +kernel) (by decide +kernel) nofun
    exact (hrebuilds _ DownloadStream.sampleStream "a" none _ _ _ 1 _ 0 DownloadStream.download_sampleStream
      DownloadStream.latest?_sampleSession ⟨rfl, rfl, rfl⟩ (carriedBy_sampleAcceptance _) htakes).1.content

end Sample

end UploadStream
end LevelLink
