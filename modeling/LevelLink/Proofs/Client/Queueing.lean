import Mathlib.Logic.Relation
import LevelLink.Client.Connection
import LevelLink.Proofs.Link.Log
import LevelLink.Proofs.Link.Upkeep
import LevelLink.Proofs.Transfer.SenderSteps
import LevelLink.Proofs.Wire.Buffer

/-!
# What is queued for the peer

Whatever happens on a connection, every frame that is queued for the peer is the frame of a message
(`Connection.framed_of_run`), and the frame of a message is read again as that message.  The message may have been made
by any sequence of operations (`Message.sound_of_edits`).
-/

namespace LevelLink

/-! ### Queues of frames -/

namespace Registry

variable {ω : Type} (r : Registry ω)

/-- Every frame that waits to be written is the frame of a message. -/
def Framed : Prop := ∀ f ∈ r.outbox, ∃ m : Message, m.frame = f

variable {r}

theorem Framed.push (h : r.Framed) (m : Message) : ∀ f ∈ r.outbox.push m.frame, ∃ m : Message, m.frame = f := by
  intro f hf
  rcases Array.mem_push.mp hf with hf | rfl
  · exact h f hf
  · exact ⟨m, rfl⟩

theorem Framed.send (h : r.Framed) (m : Message) : (r.send m).2.Framed := by
  unfold Registry.send sendFrame
  rcases r.room with _ | _ | n
  · exact h.push m
  · exact h
  · exact h.push m

theorem Framed.add (h : r.Framed) (s : Subscriber ω) : (r.add s).2.Framed := by
  unfold Registry.add sendFrame
  rcases r.room with _ | _ | n
  · exact h.push (s.request.withId r.nextId)
  · exact h
  · exact h.push (s.request.withId r.nextId)

theorem upheld_framed : Upheld fun r : Registry ω => r.Framed where
  changed _ _ h := h
  add s _ h := h.add s
  remove id r h := fun f hf => h f ((r.queues_remove id).2 ▸ hf)
  send m _ h := h.send m
  post _ _ h := h
  takeOut _ _ h := h
  putBack s id r h := fun f hf => h f ((r.queues_putBack s id).2 ▸ hf)

theorem Framed.drain (h : r.Framed) (depth fuel : Nat) : (Registry.drain depth fuel r).2.Framed := by
  induction fuel generalizing r with
  | zero => exact h
  | succ fuel ih =>
    unfold Registry.drain
    rcases r.inbox with _ | ⟨m, rest⟩
    · exact h
    · exact ih (upheld_framed.dispatch (r := { r with inbox := rest }) depth m h)

theorem Framed.deliver (h : r.Framed) (depth fuel : Nat) (frame : Bytes) :
    (Registry.deliver depth fuel frame r).2.Framed := by
  unfold Registry.deliver
  rcases Message.ofFrame frame with e | m
  · exact h
  · exact (upheld_framed.dispatch depth m h).drain depth fuel

end Registry

/-- A sender queues frames of messages. -/
theorem SendJob.Moved.framed {υ : Type} {j : SendJob} {fs : List TransferFrame} {s s' : Session υ}
    (h : j.Moved fs s s') (hs : s.Framed) : s'.Framed := by
  intro f hf
  rw [h.outbox] at hf
  rcases Array.mem_append.mp hf with hf | hf
  · exact hs f hf
  · obtain ⟨m, -, rfl⟩ := List.mem_map.mp (List.mem_toArray.mp hf)
    exact ⟨m, rfl⟩

/-! ### Everything that happens on a connection -/

namespace Connection

variable {υ : Type} {depth : Nat} {c c' : Connection υ}

/-- What can happen on a connection where dispatches nest at most `depth` deep. -/
inductive Move (depth : Nat) (c : Connection υ) : Connection υ → Prop where
  /-- The application uses the registry, or changes the world. -/
  | use (p : Program (World υ)) : Move depth c { c with session := c.session.after depth p }
  | receive (bs : Bytes) : Move depth c (c.receive bs)
  | advance (phase : Phase) : Move depth c (c.advance depth phase).2
  /-- A frame is handed to the subscribers at once. -/
  | deliver (fuel : Nat) (frame : Bytes) :
      Move depth c { c with session := (c.session.deliver depth fuel frame).2 }
  /-- A sender takes a step. -/
  | sender (j : SendJob) (cancelled : Bool) (stage : SendJob.Stage) :
      Move depth c { c with session := (j.advance cancelled stage c.session).2 }
  | beat : Move depth c c.beat
  | writeOut : Move depth c c.writeOut.2
  | hangUp : Move depth c c.hangUp

/-- Any sequence of moves. -/
def Run (depth : Nat) : Connection υ → Connection υ → Prop := Relation.ReflTransGen (Move depth)

theorem framed_accept (h : c.session.Framed) (id : Int32) (body : Bytes) : (c.accept id body).session.Framed := by
  unfold accept
  rcases Message.ofBody id body with e | m
  · exact h
  · exact h

theorem framed_receive (h : c.session.Framed) (bs : Bytes) : (c.receive bs).session.Framed := by
  unfold receive
  split
  · dsimp only
    have hfold : ∀ (frames : List (Int32 × Bytes)) {c : Connection υ}, c.session.Framed →
        (frames.foldl (fun c frame => c.accept frame.1 frame.2) c).session.Framed := by
      intro frames
      induction frames with
      | nil => exact id
      | cons frame frames ih => exact fun h => ih (framed_accept h frame.1 frame.2)
    split
    · exact hfold _ h
    · exact hfold _ h
  · exact h

theorem framed_advance (h : c.session.Framed) (phase : Phase) : (c.advance depth phase).2.session.Framed := by
  have htake : ∀ {c'}, c.takeFirst? depth = some c' → c'.session.Framed := by
    intro c' htake
    unfold takeFirst? at htake
    split at htake
    · cases htake
    · obtain rfl := Option.some.inj htake
      exact Registry.upheld_framed.dispatch depth _ h
  cases phase with
  | waiting | draining =>
    rw [advance]
    rcases hfirst : c.takeFirst? depth with _ | c'
    · exact h
    · exact htake hfirst
  | watching | checking | returned => exact h

theorem Move.framed (h : Move depth c c') (hc : c.session.Framed) : c'.session.Framed := by
  cases h with
  | use p => exact Registry.upheld_framed.runWith (fun m _ => Registry.upheld_framed.dispatch depth m) p hc
  | receive bs => exact framed_receive hc bs
  | advance phase => exact framed_advance hc phase
  | deliver fuel frame => exact hc.deliver depth fuel frame
  | sender j cancelled stage =>
    obtain ⟨fs, hmoved, -⟩ := j.moved_advance cancelled stage c.session
    exact hmoved.framed hc
  | beat => exact hc.send _
  | writeOut =>
    unfold Connection.writeOut
    split
    · exact fun f hf => absurd hf (Array.not_mem_empty f)
    · exact hc
  | hangUp => exact hc

/-- Whatever is queued on a connection is the frame of a message. -/
theorem framed_of_run (h : Run depth c c') (hc : c.session.Framed) : c'.session.Framed := by
  induction h with
  | refl => exact hc
  | tail _ hmove ih => exact hmove.framed ih

/-- What is queued, and is short enough, is read again as a message, which has the same frame. -/
theorem ofFrame_of_run (h : Run depth c c') (hempty : c.session.outbox = #[]) {f : Bytes} (hf : f ∈ c'.session.outbox)
    (hlimit : f.length < Bytes.lengthLimit) : ∃ m, Message.ofFrame f = .ok m ∧ m.frame = f := by
  have hstart : c.session.Framed := fun f hf => absurd (hempty ▸ hf) (Array.not_mem_empty f)
  obtain ⟨m, rfl⟩ := framed_of_run h hstart f hf
  have hbody : m.body.length < Bytes.lengthLimit := by
    change m.prepare.bytes.length < _ at hlimit
    rw [Message.length_bytes, Message.length, Message.body_prepare] at hlimit
    omega
  refine ⟨_, Message.ofFrame_frame_of_lt hbody, ?_⟩
  rw [Message.frame_eq, Message.frame_eq]
  rfl

end Connection

/-! ### Messages from any sequence of operations -/

namespace Message

/-- A message that is made by any sequence of operations, whose readings may fail, can be kept in a buffer: the
operations in place come to a buffer that is the message, and in which what stands beside the bytes agrees with them.
Its frame is read again, with the same names, the same id and the same body, and with the whole payload still to read.
So is every frame that is queued on a connection. -/
theorem sound_of_edits {source : Source} {edits : List Edit} {m : Message}
    (hmade : source.message.map (edits.foldl apply) = .ok m) (hlimit : m.length < Bytes.lengthLimit) :
    (∃ b, (Buffer.ofSource source).map (edits.foldl Buffer.apply) = .ok b ∧ b.Represents m ∧ b.Sound ∧
      Buffer.ofFrame b.prepare.data = .ok b.reopened) ∧
    ofFrame m.frame = .ok { m.prepare with taken := [], unread := m.payload } ∧
    ∀ {υ : Type} {depth : Nat} {c c' : Connection υ}, Connection.Run depth c c' → c.session.outbox = #[] →
      ∀ f ∈ c'.session.outbox, f.length < Bytes.lengthLimit → ∃ m', ofFrame f = .ok m' ∧ m'.frame = f := by
  have hbody : m.body.length < Bytes.lengthLimit := by
    rw [length] at hlimit
    omega
  refine ⟨?_, ofFrame_frame_of_lt hbody, fun hrun hempty f hf => Connection.ofFrame_of_run hrun hempty hf⟩
  -- The two sources agree, and then the same edits are made on both sides.
  have hagree := Buffer.agree_ofSource source
  rcases hmessage : source.message with e | m₀
  · rw [hmessage] at hmade
    cases hmade
  rw [hmessage] at hmade hagree
  obtain rfl := Except.ok.inj hmade
  rcases hbuffer : Buffer.ofSource source with e | b₀
  · rw [hbuffer] at hagree
    cases hagree
  · rw [hbuffer] at hagree
    cases hagree with
    | ok h =>
      have hedited := h.foldl_apply edits
      exact ⟨edits.foldl Buffer.apply b₀, rfl, hedited, hedited.sound, hedited.ofFrame_prepare hbody⟩

/-- A text is written and a wrong id is set right; of two readings the second fails, and its length word is put back. -/
def sampleEdits : List Edit :=
  [.write (.text "up"), .write (.int32 (-5)), .withId 7, .read .text, .prepare, .read .text, .write (.reply .ack), .withId 9]

def sampleEdited : Message :=
  ⟨"A", "X", 9, 20, [112, 117, 0, 0, 0, 2], [251, 255, 255, 255, 3, 0, 0, 0, 65, 67, 75]⟩

theorem sound_of_sampleEdits :
    (Source.start "A" "X").message.map (sampleEdits.foldl apply) = .ok sampleEdited ∧
      sampleEdited.length < Bytes.lengthLimit ∧
      (∃ b, (Buffer.ofSource (.start "A" "X")).map (sampleEdits.foldl Buffer.apply) = .ok b ∧
        b.Represents sampleEdited ∧ b.Sound ∧ b.cursor = 24 ∧ Buffer.ofFrame b.prepare.data = .ok b.reopened) ∧
      ofFrame sampleEdited.frame =
        .ok ⟨"A", "X", 9, 27, [], [2, 0, 0, 0, 117, 112, 251, 255, 255, 255, 3, 0, 0, 0, 65, 67, 75]⟩ ∧
      ∃ m', ofFrame (Message.start "HEARTBEAT" "").frame = .ok m' ∧ m'.frame = (Message.start "HEARTBEAT" "").frame := by
  have hmade : (Source.start "A" "X").message.map (sampleEdits.foldl apply) = .ok sampleEdited := by decide +kernel
  have hlimit : sampleEdited.length < Bytes.lengthLimit := by decide +kernel
  obtain ⟨⟨b, hb, hrepresents, hsound, hreopened⟩, hframe, hqueued⟩ := sound_of_edits hmade hlimit
  refine ⟨hmade, hlimit, ⟨b, hb, hrepresents, hsound, ?_, hreopened⟩, ?_, ?_⟩
  · rw [hrepresents.cursor]
    decide +kernel
  · rw [hframe]
    decide +kernel
  · -- A frame that keeps the link alive is queued.
    let c : Connection Unit := { number := 1, limit := 16777216, session := .start () }
    have hrun : Connection.Run 1 c c.beat := .single .beat
    exact hqueued hrun rfl _ (Array.mem_singleton.mpr rfl) (by decide +kernel)

end Message
end LevelLink
