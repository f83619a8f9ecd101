import LevelLink.Proofs.Transfer.Language
import LevelLink.Transfer.Download

/-!
# One frame of a download

The download handler reads a frame and does what the frame says (`DownloadStream.act`): it does the same however the
frame is written, and a payload that carries no frame fails and changes nothing.
-/

namespace LevelLink

namespace DownloadStream

open Reader

variable {υ : Type} {start : Fetch υ} {self : SubscriberId} {m : Message} {w : World υ} {rest : Bytes}

/-! ### Frames apart from their bytes -/

/-- Takes an announced size. -/
def announce (start : Fetch υ) (self : SubscriberId) (size : Int32) : Step (World υ) Unit := do
  let f := current start self (← get)
  let stream := f.endpoint.stream
  if ((← get).progressOf stream).state ≠ .awaitingOpenAck then
    throw (Transfer.unexpected "download TRANSFER after transfer started" TransferOp.transfer.code)
  if size < 0 then
    throw (.protocol (.negativeLength size))
  let file ← makeFile f.path
  keep self { f with writer := some { file }, created := true }
  modify fun w => w.setProgress stream
    { w.progressOf stream with state := .transferring, total := size.toNatClampNeg }

/-- Takes a piece of the data. -/
def store (start : Fetch υ) (self : SubscriberId) (bytes : Bytes) : Step (World υ) Unit := do
  let f := current start self (← get)
  match f.writer with
  | none => throw (Transfer.unexpected "download DATA before TRANSFER" TransferOp.data.code)
  | some writer =>
    let writer ← onFiles ((writer.write bytes).mapError .system)
    keep self { f with writer := some writer }
    let stream := f.endpoint.stream
    modify fun w => w.setProgress stream
      { w.progressOf stream with moved := (w.progressOf stream).moved + bytes.length }

/-- What a frame does. -/
def act (start : Fetch υ) (self : SubscriberId) : TransferFrame → Step (World υ) Verdict
  | .accepted => return .stay
  | .metadata _ checksum => do
    keep self { current start self (← get) with checksum := some checksum }
    return .stay
  | .transfer _ size _ => do
    announce start self size
    return .stay
  | .data bytes => do
    store start self bytes
    return .stay
  | .ended => do
    finish start self
    return .close
  | .refused text | .problem text => throw (.remote "download" text)

theorem on_begin {m₁ m₂ m₃ : Message} {name : String} {size chunk : Int32}
    (hname : text.inStream m = .ok (name, m₁)) (hsize : int32.inStream m₁ = .ok (size, m₂))
    (hchunk : int32.inStream m₂ = .ok (chunk, m₃)) (w : World υ) :
    (begin start self m).on w = (announce start self size).on w := by
  simp only [begin, announce, Attempt.on_bind, Attempt.on_get]
  by_cases hstate : (w.progressOf (current start self w).endpoint.stream).state ≠ .awaitingOpenAck
  · simp only [if_pos hstate, Attempt.on_bind, Attempt.on_throw]
  · simp only [if_neg hstate, Step.read, Attempt.on_bind, Attempt.on_lift, hname, hsize, hchunk]

theorem on_append {m₁ : Message} {bytes : Bytes} (hbytes : block.inStream m = .ok (bytes, m₁)) (w : World υ) :
    (append start self m).on w = (store start self bytes).on w := by
  simp only [append, store, Attempt.on_bind, Attempt.on_get]
  cases (current start self w).writer with
  | none => rfl
  | some writer => simp only [Step.read, Attempt.on_bind, Attempt.on_lift, hbytes]

/-- A frame does the same however it is written. -/
theorem on_step_of_carriedBy {f : TransferFrame} (hf : f.CarriedBy m.unread) (w : World υ) :
    (step start self m).on w = (act start self f).on w := by
  obtain ⟨hsay, rest, hrest⟩ := hf
  have h := hrest.symm
  cases f with
  | accepted =>
    rw [TransferFrame.payload, List.append_assoc] at h
    obtain ⟨m₁, hop, h⟩ := (reads_int32 _).goes_on h
    simp only [step, act, Step.read, Attempt.on_lift, Attempt.on_bind, hop, TransferOp.ofCode?_code,
      Transfer.on_readStatus_accepted h, Attempt.on_pure]
  | refused text =>
    rw [TransferFrame.payload, List.append_assoc, List.append_assoc] at h
    obtain ⟨m₁, hop, h⟩ := (reads_int32 _).goes_on h
    obtain ⟨m₂, hstatus, h⟩ := (reads_int32 _).goes_on h
    obtain ⟨m₃, htext, h⟩ := (reads_text hsay).goes_on h
    simp only [step, act, Step.read, Attempt.on_lift, Transfer.readStatus, Attempt.on_bind, hop, hstatus, htext,
      TransferOp.ofCode?_code,
      TransferStatus.ofCode?_code, Attempt.on_throw]
  | metadata name checksum =>
    rw [TransferFrame.payload, List.append_assoc, List.append_assoc] at h
    obtain ⟨m₁, hop, h⟩ := (reads_int32 _).goes_on h
    obtain ⟨m₂, hname, h⟩ := (reads_text hsay.1).goes_on h
    obtain ⟨m₃, hsum, h⟩ := (reads_text hsay.2).goes_on h
    simp only [step, act, Step.read, Attempt.on_lift, Attempt.on_bind, hop, hname, hsum, TransferOp.ofCode?_code]
  | transfer name size chunk =>
    rw [TransferFrame.payload, List.append_assoc, List.append_assoc, List.append_assoc] at h
    obtain ⟨m₁, hop, h⟩ := (reads_int32 _).goes_on h
    obtain ⟨m₂, hname, h⟩ := (reads_text hsay).goes_on h
    obtain ⟨m₃, hsize, h⟩ := (reads_int32 _).goes_on h
    obtain ⟨m₄, hchunk, h⟩ := (reads_int32 _).goes_on h
    simp only [step, act, Step.read, Attempt.on_lift, Attempt.on_bind, hop, TransferOp.ofCode?_code,
      on_begin hname hsize hchunk]
  | data bytes =>
    rw [TransferFrame.payload, List.append_assoc] at h
    obtain ⟨m₁, hop, h⟩ := (reads_int32 _).goes_on h
    obtain ⟨m₂, hbytes, h⟩ := (reads_block hsay).goes_on h
    simp only [step, act, Step.read, Attempt.on_lift, Attempt.on_bind, hop, TransferOp.ofCode?_code,
      on_append hbytes]
  | problem text =>
    rw [TransferFrame.payload, List.append_assoc] at h
    obtain ⟨m₁, hop, h⟩ := (reads_int32 _).goes_on h
    obtain ⟨m₂, htext, h⟩ := (reads_text hsay).goes_on h
    simp only [step, act, Step.read, Attempt.on_lift, Attempt.on_bind, hop, htext, TransferOp.ofCode?_code]
  | ended =>
    obtain ⟨m₁, hop, h⟩ := (reads_int32 _).goes_on h
    simp only [step, act, Step.read, Attempt.on_lift, Attempt.on_bind, hop, TransferOp.ofCode?_code]

theorem fails_begin (h : ∀ (name : String) (size chunk : Int32), (Utf8.encode name).length < Bytes.lengthLimit →
    ∀ rest, m.unread ≠ (Utf8.encode name).block ++ (Bytes.ofInt32 size ++ (Bytes.ofInt32 chunk ++ rest)))
    (w : World υ) : (begin start self m).Fails w := by
  refine Attempt.fails_bind_of_ok (Attempt.on_get w) (Attempt.fails_bind_of_ok (Attempt.on_get w) ?_)
  split
  · exact Attempt.Fails.bind (Attempt.fails_throw _ w) _
  · refine Attempt.fails_lift_bind fun ⟨name, m₁⟩ hname => ?_
    refine Attempt.fails_lift_bind fun ⟨size, m₂⟩ hsize => ?_
    refine Attempt.fails_lift_bind fun ⟨chunk, m₃⟩ hchunk => ?_
    obtain ⟨hlen, hm⟩ := text_took hname
    rw [int32_took hsize, int32_took hchunk] at hm
    exact (h name size chunk hlen _ hm).elim

theorem fails_append (h : ∀ bytes : Bytes, bytes.length < Bytes.lengthLimit → ∀ rest, m.unread ≠ bytes.block ++ rest)
    (w : World υ) : (append start self m).Fails w := by
  refine Attempt.fails_bind_of_ok (Attempt.on_get w) ?_
  dsimp only
  split
  · exact Attempt.fails_throw _ w
  · refine Attempt.fails_lift_bind fun ⟨bytes, m₁⟩ hbytes => ?_
    obtain ⟨hlen, hm⟩ := block_took hbytes
    exact (h bytes hlen _ hm).elim

/-- A payload that carries no frame fails. -/
theorem fails_step (h : ∀ f : TransferFrame, ¬ f.CarriedBy m.unread) (w : World υ) : (step start self m).Fails w := by
  refine Attempt.fails_lift_bind fun ⟨opcode, m₁⟩ hop => ?_
  dsimp only
  have hm := int32_took hop
  rcases hcode : TransferOp.ofCode? opcode with _ | op
  · exact Attempt.fails_throw _ w
  · obtain rfl := TransferOp.code_of_ofCode? hcode
    cases op with
    | metadata =>
      refine Attempt.fails_lift_bind fun ⟨name, m₂⟩ hname => ?_
      refine Attempt.fails_lift_bind fun ⟨checksum, m₃⟩ hsum => ?_
      obtain ⟨hlen, hm₁⟩ := text_took hname
      obtain ⟨hlen', hm₂⟩ := text_took hsum
      refine (h (.metadata name checksum) ⟨⟨hlen, hlen'⟩, m₃.unread, ?_⟩).elim
      rw [hm, hm₁, hm₂, TransferFrame.payload, List.append_assoc, List.append_assoc]
    | transfer =>
      refine Attempt.Fails.bind (fails_begin (fun name size chunk hlen rest hm₁ => ?_) w) _
      refine h (.transfer name size chunk) ⟨hlen, rest, ?_⟩
      rw [hm, hm₁, TransferFrame.payload, List.append_assoc, List.append_assoc, List.append_assoc]
    | data =>
      refine Attempt.Fails.bind (fails_append (fun bytes hlen rest hm₁ => ?_) w) _
      refine h (.data bytes) ⟨hlen, rest, ?_⟩
      rw [hm, hm₁, TransferFrame.payload, List.append_assoc]
    | protocolError => exact Attempt.fails_lift_bind fun _ _ => Attempt.fails_throw _ w
    | opening => exact Attempt.fails_throw _ w
    | status =>
      refine Attempt.Fails.bind (Transfer.fails_readStatus (fun haccepted => h .accepted ?_) "download" w) _
      rwa [hm]
    | ended => exact (h .ended ⟨trivial, m₁.unread, hm.symm⟩).elim

end DownloadStream
end LevelLink
