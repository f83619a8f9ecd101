import LevelLink.Transfer.Endpoint

/-!
# Uploads

An upload offers a file to the peer and starts a sender when the peer accepts it.  The sender works on its
own (`LevelLink.Transfer.Sender`) and reports its result by a message that it posts to the upload, so the
upload is completed like everything else by a frame.

An upload is started by `upload`.  Its handler takes messages by `step`, of which `startSender` takes the acceptance and
`complete` the report of the sender; `abandon` is what it does on an error.
-/

namespace LevelLink

/-- The transfer stream of an endpoint that files are uploaded to. -/
structure UploadStream extends Endpoint where
  /-- The number of bytes in a piece. -/
  chunk : Nat
  deriving DecidableEq, Repr

namespace UploadStream

variable {υ : Type}

/-- The opcode of a sender's report.  No opcode of the peer is negative. -/
def reportCode : Int32 := -1

/-! ### Frames -/

section Frames

variable (start : Offer υ) (self : SubscriberId)

/-- The upload as it stands; `start` is how it began. -/
def current (w : World υ) : Offer υ := w.offers.getD self start

def keep (o : Offer υ) (w : World υ) : World υ := { w with offers := w.offers.insert self o }

/-- Starts the sender, unless that has been done. -/
def startSender (w : World υ) : World υ :=
  let o := current start self w
  if o.started then
    w
  else
    let w := (keep self { o with started := true } w).setState o.file.endpoint.stream .transferring
    { w with jobs := w.jobs ++ [{ id := self, file := o.file }] }

/-- Takes the report of the sender. -/
def complete (m : Message) : Step (World υ) Unit := do
  let (status, m) ← Step.read Reader.int32 m
  if status ≠ TransferStatus.accepted.code then
    let (text, _) ← Step.read Reader.text m
    throw (.io (.custom .other text))
  let o := current start self (← get)
  modify (·.setState o.file.endpoint.stream .done)
  if let some act := o.completion then
    modify (·.tell (act (.ok ⟨o.file.fileName, o.file.path, o.file.size, none⟩)))
  modify (keep self { o with completion := none })

/-- Takes a frame. -/
def step (m : Message) : Step (World υ) Verdict := do
  let (opcode, m) ← Step.read Reader.int32 m
  match TransferOp.ofCode? opcode with
  | some .status =>
    Transfer.readStatus "upload" m
    modify (startSender start self)
    return .stay
  | some .protocolError =>
    let (text, _) ← Step.read Reader.text m
    throw (.remote "upload" text)
  | some .ended => throw (.remote "upload" "server ended the stream before the upload finished")
  | some .metadata | some .transfer | some .data | some .opening =>
    throw (Transfer.unexpected "upload" opcode)
  | none =>
    if opcode = reportCode then
      complete start self m
      return .close
    else
      throw (Transfer.unexpected "upload" opcode)

/-- Cancels the sender of an upload if it has not run. -/
def cancel (w : World υ) : World υ :=
  { w with jobs := w.jobs.map fun j => if j.id = self then { j with cancelled := true } else j }

/-- Gives an upload up. -/
def abandon (e : StreamError) (w : World υ) : World υ :=
  let o := current start self w
  let w := (keep self { o with completion := none } (cancel self w)).setState o.file.endpoint.stream .failed
  match o.completion with
  | some act => w.tell (act (.error e))
  | none => w

end Frames

def handler (start : Offer υ) : Handler (World υ) (Program (World υ)) where
  onFrame self m := .react self (step start self m)
  onError self e := .edit (abandon start self e) .done
  release self w := { w with offers := w.offers.erase self }

/-! ### Starting an upload -/

/-- The largest number that a size field holds. -/
def maxSize : Nat := 2147483647

/-- The upload endpoint of a session.  A piece has at least one byte, and its size fits its field. -/
def start (node name dir : String) (chunk : Nat) (s : Session υ) : UploadStream × Session υ :=
  let (endpoint, s) := Endpoint.start node name dir s
  ({ endpoint with chunk := max 1 (min chunk maxSize) }, s)

variable (u : UploadStream)

/-- The offer of a file. -/
def opening (name : String) (size : Nat) : Message :=
  ((u.message (Bytes.ofInt32 TransferOp.opening.code)).writeText name).writeInt32 (Int32.ofNat size)

/-- The size of a file that is to be sent. -/
def measure (name path : String) (files : Files.Store) : Except StreamError Nat := do
  let size ← (files.size path).mapError .io
  if maxSize < size then
    throw (.io (.custom .invalidInput s!"{name} is {size} bytes, over the transfer limit"))
  return size

/-- Offers a file, unless an upload is in progress, and tells whether it has. -/
def upload (name : String) (completion : Completion υ) : Step (Session υ) Bool := do
  if u.isBusy (← get) then
    return false
  if !(← get).world.canSend then
    throw (.io (.custom .other "upload requires a tokio runtime"))
  let path ← .lift (Transfer.resolve u.dir name)
  let size ← .lift (measure name path (← get).world.files)
  let start : Offer υ :=
    { file := ⟨u.toEndpoint, name, path, size, u.chunk⟩, completion := some completion }
  u.request (u.opening name size) (handler start)
    { state := .awaitingOpenAck, fileName := name, total := size }

end UploadStream
end LevelLink
