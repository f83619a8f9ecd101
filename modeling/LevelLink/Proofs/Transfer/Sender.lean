import LevelLink.Proofs.Link.Delivery
import LevelLink.Proofs.Transfer.Language
import LevelLink.Transfer.Sender

/-!
# What a sender queues

While the link takes frames, a sender queues the announcement of the file, its pieces and then the end
(`SendJob.on_putFile`); a file that has become shorter stops it behind the last piece that is still full
(`SendJob.on_putFile_short`).  `SendJob.Sent` is what else it changes: how many bytes count as moved.
-/

namespace LevelLink

/-- Frames as messages to an endpoint, under the number of a transfer. -/
def Endpoint.stamped (e : Endpoint) (id : SubscriberId) (fs : List TransferFrame) : List Message :=
  fs.map fun f => (e.message f.payload).withId id

namespace SendJob

/-! ### Pieces -/

/-- The bytes of a file that the `i`-th piece carries. -/
def piece (chunk size : Nat) (bytes : Bytes) (i : Nat) : Bytes :=
  bytes.extract (i * chunk) (min size ((i + 1) * chunk))

/-- The number of pieces, the last one being counted even if it is not full. -/
def pieceCount (chunk size : Nat) : Nat := (size + chunk - 1) / chunk

/-- The pieces of `size` bytes. -/
def pieces (chunk size : Nat) (bytes : Bytes) : List Bytes :=
  (List.range (pieceCount chunk size)).map (piece chunk size bytes)

/-- The frames of a whole upload. -/
def frames (name : String) (chunk size : Nat) (bytes : Bytes) : List TransferFrame :=
  .transfer name (Int32.ofNat size) (Int32.ofNat chunk) :: (pieces chunk size bytes).map .data ++ [.ended]

/-- The frames of an upload whose file has only these bytes left: its full pieces, and no end. -/
def shortFrames (name : String) (chunk size : Nat) (bytes : Bytes) : List TransferFrame :=
  .transfer name (Int32.ofNat size) (Int32.ofNat chunk) ::
    ((pieces chunk size bytes).take (bytes.length / chunk)).map .data

section Pieces

variable {chunk size : Nat} {bytes : Bytes}

theorem pieceCount_eq (hchunk : 0 < chunk) :
    pieceCount chunk size = size / chunk + if size % chunk = 0 then 0 else 1 := by
  have hdiv := Nat.div_add_mod size chunk
  have hlt := Nat.mod_lt size hchunk
  rw [pieceCount]
  split
  · next hmod =>
    have hsize : size + chunk - 1 = chunk - 1 + chunk * (size / chunk) := by omega
    rw [hsize, Nat.add_mul_div_left _ _ hchunk, Nat.div_eq_of_lt (by omega)]
    omega
  · next hmod =>
    have hsize : size + chunk - 1 = size % chunk - 1 + chunk * (size / chunk + 1) := by
      rw [Nat.mul_add]
      omega
    rw [hsize, Nat.add_mul_div_left _ _ hchunk, Nat.div_eq_of_lt (by omega)]
    omega

/-- A piece before the last is full. -/
theorem piece_of_lt {i : Nat} (hi : i < size / chunk) :
    piece chunk size bytes i = (bytes.drop (i * chunk)).take chunk := by
  have hle : (i + 1) * chunk ≤ size := Nat.le_trans (Nat.mul_le_mul_right _ hi) (Nat.div_mul_le_self size chunk)
  rw [piece, List.extract_eq_take_drop, Nat.min_eq_right hle, Nat.add_mul, Nat.one_mul, Nat.add_sub_cancel_left]

/-- The last piece has what is left. -/
theorem piece_last (hchunk : 0 < chunk) :
    piece chunk size bytes (size / chunk) = (bytes.drop (size / chunk * chunk)).take (size % chunk) := by
  have hdiv := Nat.div_add_mod size chunk
  have hlt := Nat.mod_lt size hchunk
  have hle : size ≤ (size / chunk + 1) * chunk := by
    rw [Nat.add_mul, Nat.mul_comm]
    omega
  have hrest : size - size / chunk * chunk = size % chunk := by
    rw [Nat.mul_comm]
    omega
  rw [piece, List.extract_eq_take_drop, Nat.min_eq_left hle, hrest]

/-- Full pieces and the last one. -/
theorem pieces_eq (hchunk : 0 < chunk) : pieces chunk size bytes =
    (List.range (size / chunk)).map (fun i => (bytes.drop (i * chunk)).take chunk) ++
      if size % chunk = 0 then [] else [(bytes.drop (size / chunk * chunk)).take (size % chunk)] := by
  have hfull : (List.range (size / chunk)).map (piece chunk size bytes) =
      (List.range (size / chunk)).map fun i => (bytes.drop (i * chunk)).take chunk :=
    List.map_congr_left fun i hi => piece_of_lt (List.mem_range.mp hi)
  rw [pieces, pieceCount_eq hchunk]
  split
  · rw [Nat.add_zero, hfull, List.append_nil]
  · rw [List.range_succ, List.map_append, hfull, List.map_singleton, piece_last hchunk]

theorem flatten_fullPieces (bytes : Bytes) (chunk k : Nat) :
    ((List.range k).map fun i => (bytes.drop (i * chunk)).take chunk).flatten = bytes.take (k * chunk) := by
  induction k with
  | zero => rw [Nat.zero_mul, List.take_zero]; rfl
  | succ k ih =>
    rw [List.range_succ, List.map_append, List.flatten_append, ih, List.map_singleton, List.flatten_singleton,
      Nat.add_mul, Nat.one_mul, List.take_add]

/-- The pieces together are the bytes. -/
theorem flatten_pieces (hchunk : 0 < chunk) : (pieces chunk size bytes).flatten = bytes.take size := by
  have hdiv := Nat.div_add_mod size chunk
  rw [pieces_eq hchunk, List.flatten_append, flatten_fullPieces]
  rw [Nat.mul_comm] at hdiv
  split
  · next hmod =>
    rw [List.flatten_nil, List.append_nil]
    congr 1
    omega
  · rw [List.flatten_singleton, ← List.take_add, hdiv]

/-- What is behind the size has no part in the pieces. -/
theorem pieces_take : pieces chunk size (bytes.take size) = pieces chunk size bytes := by
  refine List.map_congr_left fun i _ => ?_
  rw [piece, piece, List.extract_eq_take_drop, List.extract_eq_take_drop, List.drop_take, List.take_take]
  congr 1
  omega

/-- As many pieces as have a full chunk in `n` bytes. -/
theorem take_pieces (hchunk : 0 < chunk) {n : Nat} (h : n < size) : (pieces chunk size bytes).take (n / chunk) =
    (List.range (n / chunk)).map fun i => (bytes.drop (i * chunk)).take chunk := by
  have hle : n / chunk ≤ size / chunk := Nat.div_le_div_right (Nat.le_of_lt h)
  rw [pieces_eq hchunk, List.take_append_of_le_length (by rw [List.length_map, List.length_range]; exact hle),
    ← List.map_take, List.take_range, Nat.min_eq_left hle]

end Pieces

/-! ### Sending -/

variable {υ : Type} {j : SendJob} {s s' s'' : Session υ} {fs fs' : List TransferFrame} {moved moved' : Nat}

/-- The frames have been queued, and so many bytes count as moved; nothing else has changed. -/
structure Sent (j : SendJob) (fs : List TransferFrame) (moved : Nat) (s s' : Session υ) : Prop where
  outbox : s'.outbox = s.outbox ++ ((j.file.endpoint.stamped j.id fs).map Message.frame).toArray
  progress : s'.world.progressOf j.file.endpoint.stream =
    { s.world.progressOf j.file.endpoint.stream with moved }
  live : s'.live = s.live
  inbox : s'.inbox = s.inbox
  room : s'.room = s.room
  files : s'.world.files = s.world.files
  offers : s'.world.offers = s.world.offers
  app : s'.world.app = s.world.app

theorem Sent.refl (h : (s.world.progressOf j.file.endpoint.stream).moved = moved) : j.Sent [] moved s s :=
  ⟨(Array.append_empty).symm, by rw [← h], rfl, rfl, rfl, rfl, rfl, rfl⟩

theorem Sent.trans (h : j.Sent fs moved s s') (h' : j.Sent fs' moved' s' s'') :
    j.Sent (fs ++ fs') moved' s s'' := by
  refine ⟨?_, ?_, h'.live.trans h.live, h'.inbox.trans h.inbox, h'.room.trans h.room, h'.files.trans h.files,
    h'.offers.trans h.offers, h'.app.trans h.app⟩
  · rw [h'.outbox, h.outbox, Endpoint.stamped, Endpoint.stamped, Endpoint.stamped, List.map_append, List.map_append,
      Array.append_assoc, ← List.append_toArray]
  · rw [h'.progress, h.progress]

theorem Sent.moved_eq (h : j.Sent fs moved s s') : (s'.world.progressOf j.file.endpoint.stream).moved = moved := by
  rw [h.progress]

section Run

variable (hroom : s.room = none)
include hroom

theorem on_put (f : TransferFrame) : ∃ s', (j.put f).on s = (.ok (), s') ∧
    j.Sent [f] (s.world.progressOf j.file.endpoint.stream).moved s s' := by
  refine ⟨{ s with outbox := s.outbox.push (j.message f.payload).frame, room := none }, ?_, ?_⟩
  · rw [put, Attempt.on_mapError, Attempt.on_of, Registry.send, Registry.sendFrame, hroom]
    rfl
  · exact ⟨Array.push_eq_append, rfl, rfl, rfl, hroom.symm, rfl, rfl, rfl⟩

variable {sent n chunk : Nat} {bytes : Bytes}

/-- A piece that is there is sent. -/
theorem on_putPieces_cons (hlen : n ≤ bytes.length) (sizes : List Nat) :
    ∃ s', (j.putPieces (n :: sizes) sent bytes).on s = (j.putPieces sizes (sent + n) (bytes.drop n)).on s' ∧
      j.Sent [.data (bytes.take n)] (sent + n) s s' := by
  obtain ⟨s₁, hput, hsent⟩ := on_put (j := j) hroom (.data (bytes.take n))
  refine ⟨s₁.changed (j.note (sent + n)), ?_, ?_⟩
  · rw [putPieces]
    dsimp only
    rw [if_neg (by rw [List.length_take]; omega), Attempt.on_bind_of_ok hput,
      Attempt.on_bind_of_ok (Attempt.on_modify _ _)]
  · refine ⟨hsent.outbox, ?_, hsent.live, hsent.inbox, hsent.room, hsent.files, hsent.offers, hsent.app⟩
    show (s₁.world.setProgress _ _).progressOf j.file.endpoint.stream = _
    rw [World.progressOf, World.setProgress, Std.TreeMap.getD_insert_self, hsent.progress]

/-- Full pieces are sent as long as they are there. -/
theorem on_putPieces_replicate (hmoved : (s.world.progressOf j.file.endpoint.stream).moved = sent) {k : Nat}
    (hlen : k * chunk ≤ bytes.length) (sizes : List Nat) :
    ∃ s', (j.putPieces (List.replicate k chunk ++ sizes) sent bytes).on s =
        (j.putPieces sizes (sent + k * chunk) (bytes.drop (k * chunk))).on s' ∧
      j.Sent ((List.range k).map fun i => .data ((bytes.drop (i * chunk)).take chunk)) (sent + k * chunk) s s' := by
  induction k generalizing s sent bytes with
  | zero =>
    refine ⟨s, ?_, ?_⟩
    · rw [List.replicate_zero, List.nil_append, Nat.zero_mul, Nat.add_zero, List.drop_zero]
    · rw [Nat.zero_mul, Nat.add_zero]
      exact .refl hmoved
  | succ k ih =>
    rw [Nat.add_mul, Nat.one_mul] at hlen ⊢
    have hfirst : chunk ≤ bytes.length := by omega
    have hrest : k * chunk ≤ (bytes.drop chunk).length := by
      rw [List.length_drop]
      omega
    have hmore : sent + (k * chunk + chunk) = sent + chunk + k * chunk := by omega
    obtain ⟨s₁, hput₁, hsent₁⟩ :=
      on_putPieces_cons (j := j) hroom hfirst (List.replicate k chunk ++ sizes)
    obtain ⟨s₂, hput₂, hsent₂⟩ := ih (hsent₁.room.trans hroom) hsent₁.moved_eq hrest
    refine ⟨s₂, ?_, ?_⟩
    · rw [List.replicate_succ, List.cons_append, hput₁, hput₂, List.drop_drop, hmore, Nat.add_comm chunk]
    · have hpieces : ((List.range (k + 1)).map fun i => TransferFrame.data ((bytes.drop (i * chunk)).take chunk)) =
          [.data (bytes.take chunk)] ++
            (List.range k).map fun i => .data (((bytes.drop chunk).drop (i * chunk)).take chunk) := by
        rw [List.range_succ_eq_map, List.map_cons, Nat.zero_mul, List.drop_zero, List.map_map, List.singleton_append]
        refine congrArg _ (List.map_congr_left fun i _ => ?_)
        rw [Function.comp_apply, List.drop_drop, Nat.succ_mul, Nat.add_comm]
      rw [hpieces, hmore]
      exact hsent₁.trans hsent₂

end Run

/-- A piece that is not there in full stops the sender. -/
theorem fails_putPieces {sent n : Nat} {bytes : Bytes} (hlen : bytes.length < n) (sizes : List Nat) (s : Session υ) :
    (j.putPieces (n :: sizes) sent bytes).Fails s := by
  rw [putPieces]
  dsimp only
  rw [if_pos (by rw [List.length_take]; omega)]
  exact Attempt.Fails.bind (Attempt.fails_throw _ s) _

/-! ### A whole file -/

/-- The size of the first piece that `n` bytes are not enough for. -/
theorem exists_pieceSizes_eq {chunk size n : Nat} (hchunk : 0 < chunk) (h : n < size) :
    ∃ next rest, pieceSizes chunk size = List.replicate (n / chunk) chunk ++ next :: rest ∧ n % chunk < next := by
  have hle : n / chunk ≤ size / chunk := Nat.div_le_div_right (Nat.le_of_lt h)
  obtain ⟨k, hk⟩ := Nat.exists_eq_add_of_le hle
  rw [pieceSizes, hk, List.replicate_add, List.append_assoc]
  cases k with
  | zero =>
    -- all full pieces are there, so it is the rest that is short
    have hdiv := Nat.div_add_mod n chunk
    have hdiv' := Nat.div_add_mod size chunk
    rw [hk, Nat.add_zero] at hdiv'
    have hlt : n % chunk < size % chunk := by omega
    rw [if_neg (Nat.ne_of_gt (Nat.zero_lt_of_lt hlt))]
    exact ⟨size % chunk, [], rfl, hlt⟩
  | succ k => exact ⟨chunk, _, rfl, Nat.mod_lt n hchunk⟩

section Sizes

variable {chunk size : Nat} {bytes : Bytes} (hroom : s.room = none)
  (hmoved : (s.world.progressOf j.file.endpoint.stream).moved = 0) (hchunk : 0 < chunk)
include hroom hmoved hchunk

/-- All pieces are sent if all bytes are there. -/
theorem on_putPieces (hlen : size ≤ bytes.length) :
    ∃ s', (j.putPieces (pieceSizes chunk size) 0 bytes).on s = (.ok (), s') ∧
      j.Sent ((pieces chunk size bytes).map .data) size s s' := by
  have hdiv := Nat.div_add_mod size chunk
  rw [Nat.mul_comm] at hdiv
  have hfull : size / chunk * chunk ≤ bytes.length := by omega
  rw [pieceSizes, pieces_eq hchunk]
  obtain ⟨s₁, hput, hsent⟩ := on_putPieces_replicate (j := j) hroom hmoved hfull
    (if size % chunk = 0 then [] else [size % chunk])
  rw [Nat.zero_add] at hput hsent
  split
  · next hmod =>
    rw [if_pos hmod] at hput
    have hsize : size / chunk * chunk = size := by omega
    rw [hsize] at hsent
    refine ⟨s₁, hput.trans rfl, ?_⟩
    rw [List.append_nil, List.map_map]
    exact hsent
  · next hmod =>
    rw [if_neg hmod] at hput
    have hlast : size % chunk ≤ (bytes.drop (size / chunk * chunk)).length := by
      rw [List.length_drop]
      omega
    obtain ⟨s₂, hlast, hsent'⟩ := on_putPieces_cons (j := j) (hsent.room.trans hroom) hlast []
    refine ⟨s₂, hput.trans (hlast.trans rfl), ?_⟩
    rw [List.map_append, List.map_map, List.map_singleton]
    rw [hdiv] at hsent'
    exact hsent.trans hsent'

/-- The pieces are sent up to the first that is not there in full. -/
theorem on_putPieces_short (hlen : bytes.length < size) :
    ∃ e s', (j.putPieces (pieceSizes chunk size) 0 bytes).on s = (.error e, s') ∧
      j.Sent (((pieces chunk size bytes).take (bytes.length / chunk)).map .data)
        (bytes.length / chunk * chunk) s s' := by
  have hdiv := Nat.div_add_mod bytes.length chunk
  rw [Nat.mul_comm] at hdiv
  have hfull : bytes.length / chunk * chunk ≤ bytes.length := by omega
  obtain ⟨next, rest, hsizes, hnext⟩ := exists_pieceSizes_eq hchunk hlen
  obtain ⟨s₁, hput, hsent⟩ := on_putPieces_replicate (j := j) hroom hmoved hfull (next :: rest)
  rw [Nat.zero_add] at hput hsent
  have hshort : (bytes.drop (bytes.length / chunk * chunk)).length < next := by
    rw [List.length_drop]
    omega
  obtain ⟨e, hfails⟩ := fails_putPieces (j := j) hshort rest s₁
  refine ⟨e, s₁, ?_, ?_⟩
  · rw [hsizes]
    exact hput.trans hfails
  · rw [take_pieces hchunk hlen, List.map_map]
    exact hsent

end Sizes

section File

variable {file : Nat} (hfile : s.world.files.find j.file.path = .ok (.file file)) (hroom : s.room = none)
  (hcancelled : j.cancelled = false)
include hfile hroom hcancelled

/-- The announcement, the pieces and the end. -/
theorem on_putFile_eq : ∃ s', j.putFile.on s =
      ((do
        j.putPieces (pieceSizes j.file.chunk j.file.size) 0 ((s.world.files.content file).all.take j.file.size)
        j.put .ended : Step (Session υ) Unit)).on s' ∧
    j.Sent [.transfer j.file.fileName (Int32.ofNat j.file.size) (Int32.ofNat j.file.chunk)]
      (s.world.progressOf j.file.endpoint.stream).moved s s' := by
  obtain ⟨s₁, hput, hsent⟩ := on_put (j := j) hroom
    (.transfer j.file.fileName (Int32.ofNat j.file.size) (Int32.ofNat j.file.chunk))
  have hnode : (Attempt.lift ((s.world.files.find j.file.path).mapError .io) : Step (Session υ) Files.Node).on s =
      (.ok (.file file), s) := by
    rw [hfile]
    rfl
  refine ⟨s₁, ?_, hsent⟩
  rw [putFile, Attempt.on_bind_of_ok (Attempt.on_get s), Attempt.on_bind_of_ok hnode, Attempt.on_bind_of_ok hput]
  by_cases hsize : 0 < j.file.size
  · simp only [if_pos hsize, putData, hcancelled, Bool.false_eq_true, if_false]
    rw [Attempt.on_bind, Attempt.on_bind_of_ok (Attempt.on_get s₁), hsent.files, Files.Content.take_eq,
      ← Attempt.on_bind]
  · have hzero : j.file.size = 0 := Nat.eq_zero_of_not_pos hsize
    rw [hzero]
    simp [pieceSizes, putPieces]

variable (hmoved : (s.world.progressOf j.file.endpoint.stream).moved = 0) (hchunk : 0 < j.file.chunk)
include hmoved hchunk

/-- A file that still has the announced bytes is sent. -/
theorem on_putFile (hlen : j.file.size ≤ (s.world.files.content file).all.length) :
    ∃ s', j.putFile.on s = (.ok (), s') ∧
      j.Sent (frames j.file.fileName j.file.chunk j.file.size (s.world.files.content file).all) j.file.size s s' := by
  obtain ⟨s₁, hfirst, hsent₁⟩ := on_putFile_eq hfile hroom hcancelled
  rw [hmoved] at hsent₁
  have htake : j.file.size ≤ ((s.world.files.content file).all.take j.file.size).length := by
    rw [List.length_take]
    omega
  obtain ⟨s₂, hpieces, hsent₂⟩ := on_putPieces (j := j) (hsent₁.room.trans hroom) hsent₁.moved_eq hchunk htake
  obtain ⟨s₃, hend, hsent₃⟩ := on_put (j := j) (hsent₂.room.trans (hsent₁.room.trans hroom)) .ended
  rw [hsent₂.moved_eq] at hsent₃
  refine ⟨s₃, ?_, ?_⟩
  · rw [hfirst, Attempt.on_bind_of_ok hpieces, hend]
  · rw [pieces_take] at hsent₂
    exact (hsent₁.trans hsent₂).trans hsent₃

/-- A file that has become shorter is sent as far as it has full pieces. -/
theorem on_putFile_short (hlen : (s.world.files.content file).all.length < j.file.size) :
    ∃ e s', j.putFile.on s = (.error e, s') ∧
      j.Sent (shortFrames j.file.fileName j.file.chunk j.file.size (s.world.files.content file).all)
        ((s.world.files.content file).all.length / j.file.chunk * j.file.chunk) s s' := by
  obtain ⟨s₁, hfirst, hsent₁⟩ := on_putFile_eq hfile hroom hcancelled
  rw [hmoved] at hsent₁
  rw [List.take_of_length_le (Nat.le_of_lt hlen)] at hfirst
  obtain ⟨e, s₂, hpieces, hsent₂⟩ :=
    on_putPieces_short (j := j) (hsent₁.room.trans hroom) hsent₁.moved_eq hchunk hlen
  refine ⟨e, s₂, ?_, hsent₁.trans hsent₂⟩
  rw [hfirst, Attempt.on_bind_of_error hpieces]

end File

/-! ### A run -/

/-- The report is a message to the upload. -/
theorem addressedTo_report (j : SendJob) (result : Except StreamError Unit) :
    (j.report result).AddressedTo j.file.endpoint.node j.file.endpoint.name j.id := by
  cases result with
  | ok => exact ⟨rfl, rfl, rfl⟩
  | error e => exact ⟨rfl, rfl, rfl⟩

/-- The sender has queued these frames, counts so many bytes as moved, and has posted its report. -/
structure Reported (j : SendJob) (result : Except StreamError Unit) (fs : List TransferFrame) (moved : Nat)
    (s s' : Session υ) : Prop where
  outbox : s'.outbox = s.outbox ++ ((j.file.endpoint.stamped j.id fs).map Message.frame).toArray
  inbox : s'.inbox = s.inbox ++ [j.report result]
  progress : s'.world.progressOf j.file.endpoint.stream =
    { s.world.progressOf j.file.endpoint.stream with moved }
  live : s'.live = s.live
  offers : s'.world.offers = s.world.offers
  app : s'.world.app = s.world.app

theorem Sent.reported {result : Except StreamError Unit} (hput : j.putFile.on s = (result, s'))
    (h : j.Sent fs moved s s') : j.Reported result fs moved s (j.run s) := by
  rw [run, hput]
  refine ⟨h.outbox, ?_, h.progress, h.live, h.offers, h.app⟩
  show s'.inbox ++ [j.report result] = _
  rw [h.inbox]

end SendJob
end LevelLink
