import Mathlib.Algebra.Ring.Nat
import Mathlib.Data.List.Flatten
import Mathlib.Logic.Relation
import LevelLink.Proofs.Transfer.Sender

/-!
# A sender step by step

A sender works beside everything else.  It waits for the file to be opened and for every piece to be read, and what it
has found out before, it does not look at again: between its look whether the upload has been given up and the queueing
of a piece, and between that and the note of it, anything may happen.  `SendJob.advance` takes a sender from one such
point to the next; without interruption this comes to what `SendJob.run` does (`SendJob.reaches_run`).  `SendJob.Wrote`
says what a sender has queued at each stage, whatever happens in between.
-/

namespace LevelLink

namespace SendJob

/-- Where a sender is. -/
inductive Stage where
  | opening
  /-- The file is open, and has not been announced. -/
  | announcing (node : Files.Node)
  /-- Pieces of these sizes are still to be sent, behind so many bytes that are sent and noted. -/
  | sending (node : Files.Node) (sizes : List Nat) (sent : Nat)
  /-- The sender has seen that it is to go on, and waits for the next piece, of `n` bytes. -/
  | reading (node : Files.Node) (n : Nat) (sizes : List Nat) (sent : Nat)
  /-- The next piece is read, and not sent. -/
  | holding (node : Files.Node) (piece : Bytes) (sizes : List Nat) (sent : Nat)
  /-- The next piece, of `n` bytes, is sent, and not noted. -/
  | noting (node : Files.Node) (n : Nat) (sizes : List Nat) (sent : Nat)
  /-- The result is known, and the upload does not know it. -/
  | finished (result : Except StreamError Unit)
  | reported (result : Except StreamError Unit)
  deriving DecidableEq

/-- What is next may fail. -/
def Stage.isOpen : Stage → Bool
  | .opening | .announcing _ | .sending _ _ _ | .reading _ _ _ _ | .holding _ _ _ _ => true
  | .noting _ _ _ _ | .finished _ | .reported _ => false

variable {υ : Type} (j : SendJob)

/-- The first frame of an upload. -/
def announcement : TransferFrame :=
  .transfer j.file.fileName (Int32.ofNat j.file.size) (Int32.ofNat j.file.chunk)

/-! ### Steps -/

/-- Opens the file. -/
def openFile : Step (Session υ) Stage := do
  let node ← .lift (((← get).world.files.find j.file.path).mapError .io)
  return .announcing node

/-- Announces the file. -/
def announce (node : Files.Node) : Step (Session υ) Stage := do
  j.put j.announcement
  return .sending node (pieceSizes j.file.chunk j.file.size) 0

/-- Goes on with a piece of `n` bytes, unless the upload has been given up. -/
def goOn (cancelled : Bool) (node : Files.Node) (n : Nat) (sizes : List Nat) (sent : Nat) :
    Step (Session υ) Stage := do
  if cancelled then
    throw (.io (.custom .interrupted "upload cancelled"))
  return .reading node n sizes sent

/-- What a file still has of the announced bytes behind those that are sent. -/
def ahead (file sent : Nat) (s : Session υ) : Bytes := ((s.world.files.content file).take j.file.size).drop sent

/-- Reads a piece of `n` bytes behind those that are sent. -/
def readPiece (node : Files.Node) (n : Nat) (sizes : List Nat) (sent : Nat) : Step (Session υ) Stage := do
  match node with
  | .directory => throw (.io (.system .isADirectory))
  | .file id =>
    let bytes := j.ahead id sent (← get)
    if bytes.length < n then
      throw (.io (.custom .unexpectedEof "early eof"))
    return .holding node (bytes.take n) sizes sent

/-- Sends a piece. -/
def sendPiece (node : Files.Node) (piece : Bytes) (sizes : List Nat) (sent : Nat) : Step (Session υ) Stage := do
  j.put (.data piece)
  return .noting node piece.length sizes sent

/-- Sends the end. -/
def sendEnd : Step (Session υ) Stage := do
  j.put .ended
  return .finished (.ok ())

/-- A stage that is reached by an attempt; a failure finishes the sender. -/
def settle (a : Step (Session υ) Stage) (s : Session υ) : Stage × Session υ :=
  match a.on s with
  | (.ok stage, s) => (stage, s)
  | (.error e, s) => (.finished (.error e), s)

/-- Takes a sender one step on. -/
def advance (cancelled : Bool) : Stage → Session υ → Stage × Session υ
  | .opening, s => settle j.openFile s
  | .announcing node, s => settle (j.announce node) s
  | .sending _ [] _, s => settle j.sendEnd s
  | .sending node (n :: sizes) sent, s => settle (goOn cancelled node n sizes sent) s
  | .reading node n sizes sent, s => settle (j.readPiece node n sizes sent) s
  | .holding node piece sizes sent, s => settle (j.sendPiece node piece sizes sent) s
  | .noting node n sizes sent, s => (.sending node sizes (sent + n), s.changed (j.note (sent + n)))
  | .finished result, s => (.reported result, s.post (j.report result))
  | .reported result, s => (.reported result, s)

/-! ### What a step does -/

variable {j} {s s' : Session υ} {cancelled : Bool} {node : Files.Node} {n sent file : Nat} {sizes : List Nat}
  {piece : Bytes}

theorem settle_ok {a : Step (Session υ) Stage} {stage : Stage} (h : a.on s = (.ok stage, s')) :
    settle a s = (stage, s') := by
  rw [settle, h]

theorem settle_error {a : Step (Session υ) Stage} {e : StreamError} (h : a.on s = (.error e, s')) :
    settle a s = (.finished (.error e), s') := by
  rw [settle, h]

/-- The session with one frame of the sender more. -/
def queue (j : SendJob) (f : TransferFrame) (s : Session υ) : Session υ :=
  { s with outbox := s.outbox.push (j.message f.payload).frame, room := s.room.map (· - 1) }

/-- A frame is queued, or the sender fails. -/
theorem put_cases (j : SendJob) (f : TransferFrame) (s : Session υ) :
    (j.put f).Fails s ∨ (j.put f).on s = (.ok (), j.queue f s) := by
  unfold Attempt.Fails
  rw [put, Attempt.on_mapError, Attempt.on_of, Registry.send, Registry.sendFrame]
  rcases hroom : s.room with _ | _ | n
  · exact .inr (by rw [queue, hroom]; rfl)
  · exact .inl ⟨_, rfl⟩
  · exact .inr (by rw [queue, hroom]; rfl)

/-- The next stage is reached by a frame, or the sender fails. -/
theorem settle_put_cases (j : SendJob) (f : TransferFrame) (stage : Stage) (s : Session υ) :
    let a : Step (Session υ) Stage := do
      j.put f
      return stage
    (∃ e, (j.put f).on s = (.error e, s) ∧ settle a s = (.finished (.error e), s)) ∨
      (j.put f).on s = (.ok (), j.queue f s) ∧ settle a s = (stage, j.queue f s) := by
  intro a
  rcases j.put_cases f s with ⟨e, hput⟩ | hput
  · exact .inl ⟨e, hput, settle_error (Attempt.on_bind_of_error hput _)⟩
  · exact .inr ⟨hput, settle_ok (Attempt.on_bind_of_ok hput _)⟩

/-- The file is there, or opening it changes nothing. -/
theorem openFile_cases (j : SendJob) (s : Session υ) :
    (∃ e, (s.world.files.find j.file.path).mapError StreamError.io = .error e ∧
      settle j.openFile s = (.finished (.error e), s)) ∨
    ∃ node, (s.world.files.find j.file.path).mapError StreamError.io = .ok node ∧
      settle j.openFile s = (.announcing node, s) := by
  rcases hfind : (s.world.files.find j.file.path).mapError StreamError.io with e | node
  all_goals have hopen : j.openFile.on s = _ := Attempt.on_bind_of_ok (Attempt.on_get s) _
  · rw [hfind, Attempt.on_bind_of_error (Attempt.on_lift _ s)] at hopen
    exact .inl ⟨e, rfl, settle_error hopen⟩
  · rw [hfind, Attempt.on_bind_of_ok (Attempt.on_lift _ s)] at hopen
    exact .inr ⟨node, rfl, settle_ok hopen⟩

theorem settle_goOn_of_cancelled (node : Files.Node) (n : Nat) (sizes : List Nat) (sent : Nat) (s : Session υ) :
    settle (goOn true node n sizes sent) s = (.finished (.error (.io (.custom .interrupted "upload cancelled"))), s) := by
  rfl

theorem settle_goOn (node : Files.Node) (n : Nat) (sizes : List Nat) (sent : Nat) (s : Session υ) :
    settle (goOn false node n sizes sent) s = (.reading node n sizes sent, s) := by
  rfl

/-- A directory has no pieces. -/
theorem settle_readPiece_directory (j : SendJob) (n : Nat) (sizes : List Nat) (sent : Nat) (s : Session υ) :
    settle (j.readPiece .directory n sizes sent) s = (.finished (.error (.io (.system .isADirectory))), s) := by
  rfl

/-- A piece is read in full, or not at all. -/
theorem settle_readPiece_of_lt (hlen : (j.ahead file sent s).length < n) (sizes : List Nat) :
    settle (j.readPiece (.file file) n sizes sent) s =
      (.finished (.error (.io (.custom .unexpectedEof "early eof"))), s) := by
  refine settle_error ?_
  rw [readPiece]
  dsimp only
  rw [Attempt.on_bind_of_ok (Attempt.on_get s), if_pos hlen, Attempt.on_bind_of_error (Attempt.on_throw _ s)]

theorem settle_readPiece_of_le (hlen : n ≤ (j.ahead file sent s).length) (sizes : List Nat) :
    settle (j.readPiece (.file file) n sizes sent) s =
      (.holding (.file file) ((j.ahead file sent s).take n) sizes sent, s) := by
  refine settle_ok ?_
  rw [readPiece]
  dsimp only
  rw [Attempt.on_bind_of_ok (Attempt.on_get s), if_neg (Nat.not_lt.mpr hlen)]
  rfl

/-- All that a step of a sender can do, by its stage. -/
inductive Advances (j : SendJob) (cancelled : Bool) : Stage → Session υ → Stage → Session υ → Prop where
  | opens {s : Session υ} (node : Files.Node) : Advances j cancelled .opening s (.announcing node) s
  | announces {s : Session υ} {node : Files.Node} : Advances j cancelled (.announcing node) s
      (.sending node (pieceSizes j.file.chunk j.file.size) 0) (j.queue j.announcement s)
  | goes {s : Session υ} {node : Files.Node} {n sent : Nat} {sizes : List Nat} (hgoes : cancelled = false) :
      Advances j cancelled (.sending node (n :: sizes) sent) s (.reading node n sizes sent) s
  | reads {s : Session υ} {node : Files.Node} {n sent : Nat} {sizes : List Nat} (piece : Bytes)
      (hlen : piece.length = n) :
      Advances j cancelled (.reading node n sizes sent) s (.holding node piece sizes sent) s
  | sends {s : Session υ} {node : Files.Node} {piece : Bytes} {sent : Nat} {sizes : List Nat} :
      Advances j cancelled (.holding node piece sizes sent) s (.noting node piece.length sizes sent)
        (j.queue (.data piece) s)
  | notes {s : Session υ} {node : Files.Node} {n sent : Nat} {sizes : List Nat} :
      Advances j cancelled (.noting node n sizes sent) s (.sending node sizes (sent + n))
        (s.changed (j.note (sent + n)))
  | ends {s : Session υ} {node : Files.Node} {sent : Nat} :
      Advances j cancelled (.sending node [] sent) s (.finished (.ok ())) (j.queue .ended s)
  | stops {s : Session υ} {stage : Stage} (e : StreamError) (hopen : stage.isOpen = true) :
      Advances j cancelled stage s (.finished (.error e)) s
  | reports {s : Session υ} {result : Except StreamError Unit} :
      Advances j cancelled (.finished result) s (.reported result) (s.post (j.report result))
  | rests {s : Session υ} {result : Except StreamError Unit} :
      Advances j cancelled (.reported result) s (.reported result) s

theorem advances {stage stage' : Stage} (h : j.advance cancelled stage s = (stage', s')) :
    j.Advances cancelled stage s stage' s' := by
  cases stage with
  | opening =>
    rcases j.openFile_cases s with ⟨e, -, hopen⟩ | ⟨node, -, hopen⟩
    · cases hopen.symm.trans h
      exact .stops e rfl
    · cases hopen.symm.trans h
      exact .opens node
  | announcing node =>
    rcases j.settle_put_cases j.announcement _ s with ⟨e, -, hput⟩ | ⟨-, hput⟩
    · cases hput.symm.trans h
      exact .stops e rfl
    · cases hput.symm.trans h
      exact .announces
  | sending node sizes sent =>
    cases sizes with
    | nil =>
      rcases j.settle_put_cases .ended _ s with ⟨e, -, hput⟩ | ⟨-, hput⟩
      · cases hput.symm.trans h
        exact .stops e rfl
      · cases hput.symm.trans h
        exact .ends
    | cons n sizes =>
      cases cancelled with
      | true =>
        cases h
        exact .stops _ rfl
      | false =>
        cases h
        exact .goes rfl
  | reading node n sizes sent =>
    cases node with
    | directory =>
      cases h
      exact .stops _ rfl
    | file file =>
      rcases Nat.lt_or_ge (j.ahead file sent s).length n with hlen | hlen
      · cases (settle_readPiece_of_lt hlen sizes).symm.trans h
        exact .stops _ rfl
      · cases (settle_readPiece_of_le hlen sizes).symm.trans h
        exact .reads _ (List.length_take_of_le hlen)
  | holding node piece sizes sent =>
    rcases j.settle_put_cases (.data piece) _ s with ⟨e, -, hput⟩ | ⟨-, hput⟩
    · cases hput.symm.trans h
      exact .stops e rfl
    · cases hput.symm.trans h
      exact .sends
  | noting =>
    cases h
    exact .notes
  | finished =>
    cases h
    exact .reports
  | reported =>
    cases h
    exact .rests

/-! ### Without interruption -/

/-- One step follows the other at once. -/
def Reaches (j : SendJob) (cancelled : Bool) : Stage × Session υ → Stage × Session υ → Prop :=
  Relation.ReflTransGen fun x y => j.advance cancelled x.1 x.2 = y

theorem Reaches.step {x y : Stage × Session υ} {stage : Stage} (hnext : j.advance cancelled stage s = y)
    (h : j.Reaches cancelled y x) : j.Reaches cancelled (stage, s) x :=
  .head hnext h

theorem pieceSizes_eq_nil_iff {chunk size : Nat} : pieceSizes chunk size = [] ↔ size = 0 := by
  have hdiv := Nat.div_add_mod size chunk
  rw [pieceSizes, List.append_eq_nil_iff, List.replicate_eq_nil_iff]
  constructor
  · rintro ⟨hfull, hrest⟩
    split at hrest
    · next hmod => rw [← hdiv, hfull, hmod, Nat.mul_zero]
    · cases hrest
  · rintro rfl
    simp

/-- The end, or a failure to send it. -/
theorem reaches_end (s : Session υ) : j.Reaches cancelled (.sending node [] sent, s)
    (.finished ((j.put .ended).on s).1, ((j.put .ended).on s).2) := by
  rcases j.settle_put_cases .ended (.finished (.ok ())) s with ⟨e, hput, hnext⟩ | ⟨hput, hnext⟩
  all_goals
    rw [hput]
    exact .step hnext .refl

section File

variable {bytes : Bytes}

theorem on_putPieces_of_lt (hlen : bytes.length < n) (sizes : List Nat) :
    (j.putPieces (n :: sizes) sent bytes).on s = (.error (.io (.custom .unexpectedEof "early eof")), s) := by
  have htake : (bytes.take n).length < n := Nat.lt_of_le_of_lt (List.length_take_le' n bytes) hlen
  rw [putPieces]
  dsimp only
  rw [if_pos htake, Attempt.on_bind_of_error (Attempt.on_throw _ s)]

theorem on_putPieces_of_le (hlen : n ≤ bytes.length) (sizes : List Nat) :
    (j.putPieces (n :: sizes) sent bytes).on s =
      ((do
        j.put (.data (bytes.take n))
        modify (·.changed (j.note (sent + n)))
        j.putPieces sizes (sent + n) (bytes.drop n) : Step (Session υ) Unit)).on s := by
  have htake : ¬ (bytes.take n).length < n := by
    rw [List.length_take_of_le hlen]
    exact Nat.lt_irrefl n
  rw [putPieces]
  dsimp only
  rw [if_neg htake]

/-- The pieces and the end. -/
theorem reaches_pieces (file : Nat) (s : Session υ) (sizes : List Nat) (sent : Nat) :
    let all : Step (Session υ) Unit := do
      j.putPieces sizes sent (j.ahead file sent s)
      j.put .ended
    j.Reaches false (.sending (.file file) sizes sent, s) (.finished (all.on s).1, (all.on s).2) := by
  induction sizes generalizing s sent with
  | nil => exact reaches_end s
  | cons n sizes ih =>
    intro all
    refine .step (settle_goOn (.file file) n sizes sent s) ?_
    rcases Nat.lt_or_ge (j.ahead file sent s).length n with hlen | hlen
    · have hall : all.on s = (.error (.io (.custom .unexpectedEof "early eof")), s) :=
        Attempt.on_bind_of_error (on_putPieces_of_lt hlen sizes) _
      rw [hall]
      exact .step (settle_readPiece_of_lt hlen sizes) .refl
    · refine .step (settle_readPiece_of_le hlen sizes) ?_
      have hpieces : (j.putPieces (n :: sizes) sent (j.ahead file sent s)).on s = _ := on_putPieces_of_le hlen sizes
      have hpiece : ((j.ahead file sent s).take n).length = n := List.length_take_of_le hlen
      rcases j.settle_put_cases (.data ((j.ahead file sent s).take n))
        (.noting (.file file) ((j.ahead file sent s).take n).length sizes sent) s with ⟨e, hput, hnext⟩ | ⟨hput, hnext⟩
      · rw [Attempt.on_bind_of_error hput] at hpieces
        have hall : all.on s = (.error e, s) := Attempt.on_bind_of_error hpieces _
        rw [hall]
        exact .step hnext .refl
      · rw [Attempt.on_bind_of_ok hput, Attempt.on_bind_of_ok (Attempt.on_modify _ _)] at hpieces
        have hall : all.on s = ((do
            j.putPieces sizes (sent + n) ((j.ahead file sent s).drop n)
            j.put .ended : Step (Session υ) Unit)).on
            ((j.queue (.data ((j.ahead file sent s).take n)) s).changed (j.note (sent + n))) := by
          rw [Attempt.on_bind, hpieces, ← Attempt.on_bind]
        -- queueing a frame leaves the file alone
        have hahead : (j.ahead file sent s).drop n = j.ahead file (sent + n)
            ((j.queue (.data ((j.ahead file sent s).take n)) s).changed (j.note (sent + n))) := List.drop_drop ..
        have hnote : j.advance false (.noting (.file file) ((j.ahead file sent s).take n).length sizes sent)
            (j.queue (.data ((j.ahead file sent s).take n)) s) = (.sending (.file file) sizes (sent + n),
              (j.queue (.data ((j.ahead file sent s).take n)) s).changed (j.note (sent + n))) := by
          rw [hpiece]
          rfl
        rw [hall, hahead]
        exact .step hnext (.step hnote (ih _ _))

/-- What follows the announcement. -/
theorem reaches_finished (node : Files.Node) (s : Session υ) :
    let rest : Step (Session υ) Unit := do
      if 0 < j.file.size then
        j.putData node
      j.put .ended
    j.Reaches j.cancelled (.sending node (pieceSizes j.file.chunk j.file.size) 0, s)
      (.finished (rest.on s).1, (rest.on s).2) := by
  intro rest
  by_cases hsize : 0 < j.file.size
  · obtain ⟨n, sizes, hsizes⟩ : ∃ n sizes, pieceSizes j.file.chunk j.file.size = n :: sizes := by
      refine List.exists_cons_of_ne_nil fun hnil => ?_
      exact Nat.ne_of_gt hsize (pieceSizes_eq_nil_iff.mp hnil)
    have hfails {e : StreamError} (hput : (j.putData node).on s = (.error e, s)) : rest.on s = (.error e, s) := by
      simp only [rest, if_pos hsize]
      exact Attempt.on_bind_of_error hput _
    rcases hcancelled : j.cancelled with _ | _
    · cases node with
      | directory =>
        have hput : (j.putData .directory).on s = (.error (.io (.system .isADirectory)), s) := by
          simp only [putData, hcancelled, Bool.false_eq_true, if_false, Attempt.on_throw]
        rw [hfails hput, hsizes]
        exact .step (settle_goOn .directory n sizes 0 s) (.step (j.settle_readPiece_directory n sizes 0 s) .refl)
      | file file =>
        have hrest : rest.on s = ((do
            j.putPieces (pieceSizes j.file.chunk j.file.size) 0 (j.ahead file 0 s)
            j.put .ended : Step (Session υ) Unit)).on s := by
          simp only [rest, if_pos hsize, putData, hcancelled, Bool.false_eq_true, if_false]
          rw [Attempt.on_bind, Attempt.on_bind_of_ok (Attempt.on_get s), ← Attempt.on_bind]
          rfl
        rw [hrest]
        exact reaches_pieces file s _ 0
    · have hput : (j.putData node).on s = (.error (.io (.custom .interrupted "upload cancelled")), s) := by
        simp only [putData, hcancelled, if_true]
        exact Attempt.on_bind_of_error (Attempt.on_throw _ s) _
      rw [hfails hput, hsizes]
      exact .step (settle_goOn_of_cancelled node n sizes 0 s) .refl
  · have hzero : j.file.size = 0 := Nat.eq_zero_of_not_pos hsize
    have hrest : rest.on s = (j.put .ended).on s := by
      simp only [rest, if_neg hsize]
    rw [hrest, pieceSizes_eq_nil_iff.mpr hzero]
    exact reaches_end s

/-- Without interruption a sender does what running it to its end does. -/
theorem reaches_run (j : SendJob) (s : Session υ) :
    ∃ result, j.Reaches j.cancelled (.opening, s) (.reported result, j.run s) := by
  have hfinished : j.Reaches j.cancelled (.opening, s) (.finished (j.putFile.on s).1, (j.putFile.on s).2) := by
    have hput : j.putFile.on s = _ := Attempt.on_bind_of_ok (Attempt.on_get s) _
    rcases j.openFile_cases s with ⟨e, hfind, hopen⟩ | ⟨node, hfind, hopen⟩
    · rw [hfind, Attempt.on_bind_of_error (Attempt.on_lift _ s)] at hput
      rw [hput]
      exact .step hopen .refl
    · rw [hfind, Attempt.on_bind_of_ok (Attempt.on_lift _ s)] at hput
      refine .step hopen ?_
      rcases j.settle_put_cases j.announcement _ s with ⟨e, hannounce, hnext⟩ | ⟨hannounce, hnext⟩
      · rw [hput.trans (Attempt.on_bind_of_error hannounce _)]
        exact .step hnext .refl
      · rw [hput.trans (Attempt.on_bind_of_ok hannounce _)]
        exact .step hnext (reaches_finished node _)
  exact ⟨(j.putFile.on s).1, hfinished.tail rfl⟩

end File

/-! ### What a sender has queued -/

section Lengths

variable {chunk size : Nat} {bytes : Bytes} {ps : List Bytes}

theorem sum_pieceSizes (chunk size : Nat) : (pieceSizes chunk size).sum = size := by
  have hdiv := Nat.div_add_mod size chunk
  rw [pieceSizes, List.sum_append, List.sum_replicate_nat, Nat.mul_comm]
  split
  · next hmod =>
    rw [hmod] at hdiv
    exact hdiv
  · simpa using hdiv

theorem map_length_pieces (hchunk : 0 < chunk) (h : size ≤ bytes.length) :
    (pieces chunk size bytes).map List.length = pieceSizes chunk size := by
  have hdiv := Nat.div_add_mod size chunk
  rw [Nat.mul_comm] at hdiv
  have hfull : (List.range (size / chunk)).map (fun i => ((bytes.drop (i * chunk)).take chunk).length) =
      List.replicate (size / chunk) chunk := by
    rw [List.eq_replicate_iff]
    refine ⟨by simp, ?_⟩
    intro n hn
    obtain ⟨i, hi, rfl⟩ := List.mem_map.mp hn
    have hle : (i + 1) * chunk ≤ size / chunk * chunk := Nat.mul_le_mul_right _ (List.mem_range.mp hi)
    rw [Nat.add_mul, Nat.one_mul] at hle
    rw [List.length_take, List.length_drop]
    omega
  rw [pieces_eq hchunk, List.map_append, List.map_map, pieceSizes]
  congr 1
  split
  · rfl
  · rw [List.map_singleton, List.length_take, List.length_drop]
    congr 1
    omega

/-- Pieces of the right sizes are the pieces of some bytes. -/
theorem eq_pieces_flatten (hchunk : 0 < chunk) (h : ps.map List.length = pieceSizes chunk size) :
    ps.flatten.length = size ∧ ps = pieces chunk size ps.flatten := by
  have hlen : ps.flatten.length = size := by
    rw [List.length_flatten, h, sum_pieceSizes]
  refine ⟨hlen, List.eq_iff_flatten_eq.mpr ⟨?_, ?_⟩⟩
  · rw [flatten_pieces hchunk, List.take_of_length_le (Nat.le_of_eq hlen)]
  · rw [h, map_length_pieces hchunk (Nat.le_of_eq hlen.symm)]

end Lengths

/-- Frames of a sender as they are queued. -/
def queued (j : SendJob) (fs : List TransferFrame) : List Bytes :=
  (j.file.endpoint.stamped j.id fs).map Message.frame

theorem queued_append (j : SendJob) (fs fs' : List TransferFrame) : j.queued (fs ++ fs') = j.queued fs ++ j.queued fs' := by
  rw [queued, Endpoint.stamped, List.map_append, List.map_append]
  rfl

/-- What has been queued is what is behind in the queue. -/
theorem drop_outbox {fs : List TransferFrame} (h : s'.outbox = s.outbox ++ (j.queued fs).toArray) :
    s'.outbox.toList.drop s.outbox.size = j.queued fs := by
  rw [h]
  simp

/-- These frames are those of the whole file as it was read. -/
def WroteAll (j : SendJob) (frames : List Bytes) : Prop :=
  ∃ bytes : Bytes, bytes.length = j.file.size ∧
    frames = j.queued (SendJob.frames j.file.fileName j.file.chunk j.file.size bytes)

/-- The announcement is queued, and of the pieces all but those of these sizes. -/
def WroteBut (j : SendJob) (left : List Nat) (frames : List Bytes) : Prop :=
  ∃ ps : List Bytes, ps.map List.length ++ left = pieceSizes j.file.chunk j.file.size ∧
    frames = j.queued (j.announcement :: ps.map .data)

/-- What a sender has queued at a stage. -/
def Wrote (j : SendJob) : Stage → List Bytes → Prop
  | .opening, frames | .announcing _, frames => frames = []
  | .sending _ sizes _, frames | .noting _ _ sizes _, frames => j.WroteBut sizes frames
  | .reading _ n sizes _, frames => j.WroteBut (n :: sizes) frames
  | .holding _ piece sizes _, frames => j.WroteBut (piece.length :: sizes) frames
  | .finished (.ok _), frames | .reported (.ok _), frames => j.WroteAll frames
  | .finished (.error _), _ | .reported (.error _), _ => True

theorem WroteBut.sends {frames : List Bytes} (h : j.WroteBut (piece.length :: sizes) frames) :
    j.WroteBut sizes (frames ++ j.queued [.data piece]) := by
  obtain ⟨ps, hsizes, rfl⟩ := h
  refine ⟨ps ++ [piece], ?_, ?_⟩
  · rw [List.map_append, List.append_assoc]
    exact hsizes
  · rw [← queued_append, List.map_append]
    rfl

/-- Behind all pieces the end completes the file. -/
theorem WroteBut.wroteAll {frames : List Bytes} (h : j.WroteBut [] frames) (hchunk : 0 < j.file.chunk) :
    j.WroteAll (frames ++ j.queued [.ended]) := by
  obtain ⟨ps, hsizes, rfl⟩ := h
  rw [List.append_nil] at hsizes
  obtain ⟨hlen, hps⟩ := eq_pieces_flatten hchunk hsizes
  refine ⟨ps.flatten, hlen, ?_⟩
  rw [← queued_append, SendJob.frames, ← hps]
  rfl

/-- A sender has queued some frames; it leaves alone what the link keeps for transfers. -/
structure Moved (j : SendJob) (fs : List TransferFrame) (s s' : Session υ) : Prop where
  outbox : s'.outbox = s.outbox ++ (j.queued fs).toArray
  live : s'.live = s.live
  fetches : s'.world.fetches = s.world.fetches
  offers : s'.world.offers = s.world.offers
  state : ∀ stream, (s'.world.progressOf stream).state = (s.world.progressOf stream).state
  app : s'.world.app = s.world.app

theorem Moved.refl (j : SendJob) (s : Session υ) : j.Moved [] s s :=
  ⟨Array.append_empty.symm, rfl, rfl, rfl, fun _ => rfl, rfl⟩

theorem moved_queue (j : SendJob) (f : TransferFrame) (s : Session υ) : j.Moved [f] s (j.queue f s) :=
  ⟨Array.push_eq_append, rfl, rfl, rfl, fun _ => rfl, rfl⟩

theorem Moved.note {fs : List TransferFrame} (h : j.Moved fs s s') (n : Nat) : j.Moved fs s (s'.changed (j.note n)) := by
  refine ⟨h.outbox, h.live, h.fetches, h.offers, ?_, h.app⟩
  intro stream
  rw [← h.state]
  show ((s'.world.setProgress _ _).progressOf stream).state = _
  rw [World.progressOf, World.setProgress, Std.TreeMap.getD_insert]
  split
  · next heq =>
    rw [Std.LawfulEqCmp.eq_of_compare heq]
  · rfl

/-- A step of a sender queues what its stage asks for. -/
theorem moved_advance (j : SendJob) (cancelled : Bool) (stage : Stage) (s : Session υ) :
    ∃ fs, j.Moved fs s (j.advance cancelled stage s).2 ∧
      (0 < j.file.chunk → ∀ frames, j.Wrote stage frames →
        j.Wrote (j.advance cancelled stage s).1 (frames ++ j.queued fs)) := by
  have hnothing (frames : List Bytes) : frames ++ j.queued [] = frames := List.append_nil _
  rcases hnext : j.advance cancelled stage s with ⟨stage', s'⟩
  cases advances hnext with
  | announces =>
    refine ⟨[j.announcement], moved_queue j _ s, fun _ frames h => ⟨[], rfl, ?_⟩⟩
    rw [show frames = [] from h]
    rfl
  | ends => exact ⟨[.ended], moved_queue j _ s, fun hchunk frames h => WroteBut.wroteAll h hchunk⟩
  | sends => exact ⟨[.data _], moved_queue j _ s, fun _ frames h => WroteBut.sends h⟩
  | stops => exact ⟨[], .refl j s, fun _ _ _ => trivial⟩
  | opens | goes | rests =>
    refine ⟨[], .refl j s, fun _ frames h => ?_⟩
    rw [hnothing]
    exact h
  | reads piece hlen =>
    refine ⟨[], .refl j s, fun _ frames h => ?_⟩
    rw [hnothing]
    subst hlen
    exact h
  | notes =>
    refine ⟨[], (Moved.refl j s).note _, fun _ frames h => ?_⟩
    rw [hnothing]
    exact h
  | @reports _ result =>
    refine ⟨[], ⟨Array.append_empty.symm, rfl, rfl, rfl, fun _ => rfl, rfl⟩, fun _ frames h => ?_⟩
    rw [hnothing]
    cases result with
    | ok => exact h
    | error => trivial

end SendJob
end LevelLink
