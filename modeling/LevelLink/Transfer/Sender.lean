import LevelLink.Transfer.Upload

/-!
# Senders

A sender announces a file, sends its data in pieces and then the end, and posts a report to its upload.  It
sends exactly as many bytes as were offered, or it fails.

`putFile` sends a file, and `run` is the whole task of a sender, from its start to the report.  Here it runs without a
pause; step by step it is in `LevelLink.Proofs.Transfer.SenderSteps`.
-/

namespace LevelLink

/-- The sizes of the pieces that `size` bytes are cut into. -/
def pieceSizes (chunk size : Nat) : List Nat :=
  List.replicate (size / chunk) chunk ++ (if size % chunk = 0 then [] else [size % chunk])

namespace SendJob

variable {υ : Type} (j : SendJob)

/-- A message on the stream of the upload. -/
def message (payload : Bytes) : Message := (j.file.endpoint.message payload).withId j.id

/-- Sends a frame. -/
def put (f : TransferFrame) : Step (Session υ) Unit :=
  .mapError .transport (.of fun s => s.send (j.message f.payload))

/-- Notes how many bytes are sent. -/
def note (sent : Nat) (w : World υ) : World υ :=
  w.setProgress j.file.endpoint.stream { w.progressOf j.file.endpoint.stream with moved := sent }

/-- Sends pieces of the given sizes, `sent` bytes being sent already. -/
def putPieces : (sizes : List Nat) → (sent : Nat) → Bytes → Step (Session υ) Unit
  | [], _, _ => return
  | n :: sizes, sent, bytes => do
    let piece := bytes.take n
    if piece.length < n then
      throw (.io (.custom .unexpectedEof "early eof"))
    j.put (.data piece)
    modify (·.changed (j.note (sent + n)))
    putPieces sizes (sent + n) (bytes.drop n)

/-- Sends the data. -/
def putData (node : Files.Node) : Step (Session υ) Unit := do
  if j.cancelled then
    throw (.io (.custom .interrupted "upload cancelled"))
  match node with
  | .directory => throw (.io (.system .isADirectory))
  | .file id =>
    let content := (← get).world.files.content id
    j.putPieces (pieceSizes j.file.chunk j.file.size) 0 (content.take j.file.size)

/-- Sends a file. -/
def putFile : Step (Session υ) Unit := do
  let node ← .lift (((← get).world.files.find j.file.path).mapError .io)
  j.put (.transfer j.file.fileName (Int32.ofNat j.file.size) (Int32.ofNat j.file.chunk))
  if 0 < j.file.size then
    j.putData node
  j.put .ended

/-- The message that reports a result to the upload. -/
def report (result : Except StreamError Unit) : Message :=
  let m := j.message (Bytes.ofInt32 UploadStream.reportCode)
  match result with
  | .ok () => m.writeInt32 TransferStatus.accepted.code
  | .error e => (m.writeInt32 TransferStatus.refused.code).writeText e.message

/-- Runs a sender to its end. -/
def run (s : Session υ) : Session υ :=
  let (result, s) := j.putFile.on s
  s.post (j.report result)

end SendJob

/-- Runs all senders that have been started, the earliest first. -/
def Session.runSenders {υ : Type} (s : Session υ) : Session υ :=
  s.world.jobs.foldl (fun s j => j.run s) (s.changed fun w => { w with jobs := [] })

end LevelLink
