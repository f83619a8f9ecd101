import LevelLink.Transfer.Endpoint

/-!
# Downloads

A download asks the peer for a file and writes what arrives below the directory of its endpoint.  The frames
are: any number of acceptances and descriptions, the announcement of the size, the data in pieces, the end.
A download that fails removes the file that it has made.

A download is started by `download`.  Its handler takes messages by `step`, of which `begin`, `append` and `finish` take the
announcement, a piece and the end; `abandon` is what it does on an error.
-/

namespace LevelLink

/-- The transfer stream of an endpoint that files are downloaded from. -/
structure DownloadStream extends Endpoint
  deriving DecidableEq, Repr

namespace Fetch

variable {υ : Type} (f : Fetch υ)

/-- Closes the destination.  What then cannot be written is lost. -/
def close (files : Files.Store) : Files.Store :=
  match f.writer with
  | some w => (w.flush.on files).2
  | none => files

end Fetch

namespace DownloadStream

variable {υ : Type}

/-! ### Frames -/

section Frames

variable (start : Fetch υ) (self : SubscriberId)

/-- The download as it stands; `start` is how it began. -/
def current (w : World υ) : Fetch υ := w.fetches.getD self start

def keep (f : Fetch υ) : Step (World υ) Unit := modify fun w => { w with fetches := w.fetches.insert self f }

/-- An operation on the files. -/
def onFiles {α : Type} (op : Attempt IoError Files.Store α) : Step (World υ) α :=
  .of fun w =>
    let (r, files) := op.on w.files
    (r.mapError .io, { w with files })

/-- Makes the destination and the directories above it. -/
def makeFile (path : String) : Step (World υ) Nat := do
  onFiles (.of fun files => files.createDirs (Files.Path.parent path))
  onFiles (.of fun files =>
    match files.create path with
    | .ok (id, files) => (.ok id, files)
    | .error e => (.error e, files))

/-- Takes the announcement of the size. -/
def begin (m : Message) : Step (World υ) Unit := do
  let f := current start self (← get)
  let stream := f.endpoint.stream
  if ((← get).progressOf stream).state ≠ .awaitingOpenAck then
    throw (Transfer.unexpected "download TRANSFER after transfer started" TransferOp.transfer.code)
  let (_, m) ← Step.read Reader.text m
  let (size, m) ← Step.read Reader.int32 m
  let _ ← Step.read Reader.int32 m
  if size < 0 then
    throw (.protocol (.negativeLength size))
  let file ← makeFile f.path
  keep self { f with writer := some { file }, created := true }
  modify fun w => w.setProgress stream
    { w.progressOf stream with state := .transferring, total := size.toNatClampNeg }

/-- Takes a piece of the data. -/
def append (m : Message) : Step (World υ) Unit := do
  let f := current start self (← get)
  match f.writer with
  | none => throw (Transfer.unexpected "download DATA before TRANSFER" TransferOp.data.code)
  | some writer =>
    let (bytes, _) ← Step.read Reader.block m
    let writer ← onFiles ((writer.write bytes).mapError .system)
    keep self { f with writer := some writer }
    let stream := f.endpoint.stream
    modify fun w => w.setProgress stream
      { w.progressOf stream with moved := (w.progressOf stream).moved + bytes.length }

/-- Takes the end of the data. -/
def finish : Step (World υ) Unit := do
  let f := current start self (← get)
  match f.writer with
  | none => throw (Transfer.unexpected "download END before TRANSFER" TransferOp.ended.code)
  | some writer =>
    keep self { f with writer := none }
    let _ ← onFiles (writer.flush.mapError .system)
  let stream := f.endpoint.stream
  let p := (← get).progressOf stream
  if p.total ≠ p.moved then
    throw (.incompleteTransfer p.total p.moved)
  modify (·.setState stream .done)
  if let some act := f.completion then
    modify (·.tell (act (.ok ⟨f.fileName, f.path, p.moved, f.checksum⟩)))
  keep self { f with writer := none, completion := none, checksum := none }

/-- Takes a frame. -/
def step (m : Message) : Step (World υ) Verdict := do
  let (opcode, m) ← Step.read Reader.int32 m
  match TransferOp.ofCode? opcode with
  | some .status =>
    Transfer.readStatus "download" m
    return .stay
  | some .metadata =>
    let (_, m) ← Step.read Reader.text m
    let (checksum, _) ← Step.read Reader.text m
    keep self { current start self (← get) with checksum := some checksum }
    return .stay
  | some .transfer =>
    begin start self m
    return .stay
  | some .data =>
    append start self m
    return .stay
  | some .protocolError =>
    let (text, _) ← Step.read Reader.text m
    throw (.remote "download" text)
  | some .ended =>
    finish start self
    return .close
  | some .opening | none => throw (Transfer.unexpected "download" opcode)

/-- Gives a download up: the destination is removed, if the download has made it. -/
def abandon (e : StreamError) (w : World υ) : World υ :=
  let f := current start self w
  let files := f.close w.files
  let w := { w with
    files := if f.created then files.remove f.path else files
    fetches := w.fetches.insert self { f with writer := none, completion := none } }
  let w := w.setState f.endpoint.stream .failed
  match f.completion with
  | some act => w.tell (act (.error e))
  | none => w

/-- Lets a download go, and closes its destination. -/
def release (w : World υ) : World υ :=
  { w with files := (current start self w).close w.files, fetches := w.fetches.erase self }

end Frames

def handler (start : Fetch υ) : Handler (World υ) (Program (World υ)) where
  onFrame self m := .react self (step start self m)
  onError self e := .edit (abandon start self e) .done
  release := release start

/-! ### Starting a download -/

variable (d : DownloadStream)

/-- The request for a file.  The checksum of a copy at hand may go with it. -/
def opening (name : String) (checksum : Option String) : Message :=
  let m := (d.message (Bytes.ofInt32 TransferOp.opening.code)).writeText name
  match checksum with
  | some c => m.writeText c
  | none => m

/-- Asks for a file, unless a download is in progress, and tells whether it has. -/
def download (name : String) (checksum : Option String) (completion : Completion υ) :
    Step (Session υ) Bool := do
  if d.isBusy (← get) then
    return false
  let path ← .lift (Transfer.resolve d.dir name)
  let start : Fetch υ :=
    { endpoint := d.toEndpoint, fileName := name, path, completion := some completion }
  d.request (d.opening name checksum) (handler start) { state := .awaitingOpenAck, fileName := name }

end DownloadStream
end LevelLink
