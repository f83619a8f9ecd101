import LevelLink.Transfer.Download
import LevelLink.Transfer.Upload

/-!
# Assets

The assets of a level: their names, and their files in one local directory.  One download and one upload can
be in progress at a time.

The names are asked for by `list`, and `readList` reads the reply.  Downloads and uploads are those of the two transfer
streams.
-/

namespace LevelLink

/-- The assets of a session. -/
structure AssetService where
  dir : String
  download : DownloadStream
  upload : UploadStream
  deriving DecidableEq, Repr

namespace AssetService

variable {υ : Type}

/-- The node that serves assets. -/
def node : String := "ASSET_SVR"

/-- The assets in a directory, which are uploaded in pieces of `chunk` bytes. -/
def start (dir : String) (chunk : Nat) (s : Session υ) : AssetService × Session υ :=
  let (download, s) := Endpoint.start node "ASSET_DOWNLOAD_STREAM" dir s
  let (upload, s) := UploadStream.start node "ASSET_UPLOAD_STREAM" dir chunk s
  (⟨dir, { toEndpoint := download }, upload⟩, s)

/-! ### Listing -/

def listRequest : Message := Message.start node "ASSET_LIST"

/-- A reading that counts the texts it tries. -/
abbrev Counting := Attempt ProtocolError (Message × Nat)

/-- Tries to read a text.  It counts whether or not there is one. -/
def tryText : Counting String := .of fun (m, tried) =>
  let (text, m) := Reader.text.on m
  (text, m, tried + 1)

/-- Reads `n` names behind those in `done`, the latest of which is first.  A reading that fails ends at once, so
no more names are tried than the payload has room for. -/
def readNames : (n : Nat) → (done : List String) → Counting (List String)
  | 0, done => return done.reverse
  | n + 1, done => do readNames n ((← tryText) :: done)

/-- Reads the answer to the request for a list, and gives the number of names that are tried with it. -/
def countList (reply : Message) : Except StreamError (List String) × Nat :=
  match Reply.read.inStream reply with
  | .error e => (.error e, 0)
  | .ok (.nack r, _) => (.error (.rejected r), 0)
  | .ok (.ack, m) =>
    match Reader.int32.inStream m with
    | .error e => (.error e, 0)
    | .ok (count, m) =>
      if count < 0 then
        (.error (.protocol (.negativeLength count)), 0)
      else
        let (names, _, tried) := (readNames count.toNatClampNeg []).on (m, 0)
        (names.mapError .protocol, tried)

/-- Reads the answer to the request for a list. -/
def readList (reply : Message) : Except StreamError (List String) := (countList reply).1

/-- Asks for the names of all assets. -/
def list (act : Except StreamError (List String) → υ → υ) :
    Attempt TransportError (Session υ) SubscriberId :=
  Registry.adding (.once listRequest fun _ reply => .edit (·.tell (act (readList reply))) .done)

/-! ### Progress -/

variable (a : AssetService) (s : Session υ)

def isDownloading : Bool := a.download.isBusy s

def isUploading : Bool := a.upload.isBusy s

end AssetService
end LevelLink
