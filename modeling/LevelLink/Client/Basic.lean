import LevelLink.Client.Connection
import LevelLink.Digest.Sha256
import LevelLink.Service.Assets
import LevelLink.Service.Builds
import LevelLink.Stream.Metrics
import LevelLink.Stream.Objects
import LevelLink.Stream.Plugins
import LevelLink.Stream.Presence

/-!
# The client

One connection with the services on it.  A service whose request cannot be sent fails as the connection does;
a transfer that cannot be started fails as a stream does.
-/

namespace LevelLink

/-- The services of a client, and how it digests a password. -/
structure Client where
  assets : AssetService
  builds : BuildService
  plugins : PluginService
  digest : String → Bytes

namespace Client

variable {υ : Type}

/-- The digest of a password that the peer compares. -/
def passwordDigest (password : String) : Bytes := Sha256.digest (Utf8.encode password)

/-- What a client does on its connection. -/
abbrev Action (υ : Type) := Attempt ClientError (Connection υ)

/-- Connects a client.  `socket` is how the system has answered. -/
def connect (config : ClientConfig) (socket : Except IoError Unit) (number : Nat) (app : υ)
    (files : Files.Store) (digest : String → Bytes := passwordDigest) :
    Except ClientError (Client × Connection υ) := do
  let c ← (Connection.start config.connection socket number app files).mapError .transport
  let (assets, s) := AssetService.start config.assetDir config.transfer.chunkSize.toNat c.session
  let (builds, s) := BuildService.start config.buildDir s
  let (plugins, s) := PluginService.start s
  return (⟨assets, builds, plugins, digest⟩, { c with session := s })

/-- An attempt on the session of the connection. -/
def onSession {ε α : Type} (wrap : ε → ClientError) (a : Attempt ε (Session υ) α) : Action υ α :=
  .of fun c =>
    let (r, s) := a.on c.session
    (r.mapError wrap, { c with session := s })

/-! ### Login -/

/-- The request to log in with the digest of a password. -/
def loginRequest (user : String) (digest : Bytes) : Message :=
  ((Message.start "LOGIN_SVR" "LOGIN").writeText user).writeBlock digest

/-- Reads the answer to a login. -/
def readLogin (reply : Message) : Except StreamError Unit := do
  match ← Reply.read.inStream reply with
  | (.ack, _) => return ()
  | (.nack r, _) => throw (.rejected r)

variable (client : Client)

/-- Logs in, and tells the application how it went. -/
def login (user password : String) (act : Except StreamError Unit → υ → υ) : Action υ SubscriberId :=
  onSession .transport <|
    Registry.adding (.once (loginRequest user (client.digest password)) fun _ reply =>
      .edit (·.tell (act (readLogin reply))) .done)

/-! ### Streams and services -/

def openObjects (hook : ObjectEvent → υ → υ) : Action υ ObjectStream :=
  onSession .transport (ObjectStream.subscribe hook)

def openPresence (hook : PresenceEvent → υ → υ) : Action υ PresenceStream :=
  onSession .transport (PresenceStream.subscribe hook)

def openMetrics : Action υ MetricStream := onSession .transport MetricStream.subscribe

/-- Asks for the names of all assets. -/
def listAssets (act : Except StreamError (List String) → υ → υ) : Action υ SubscriberId :=
  onSession .transport (AssetService.list act)

def downloadAsset (name : String) (checksum : Option String) (completion : Completion υ) : Action υ Bool :=
  onSession .stream (client.assets.download.download name checksum completion)

def uploadAsset (name : String) (completion : Completion υ) : Action υ Bool :=
  onSession .stream (client.assets.upload.upload name completion)

def downloadArtefact (name : String) (completion : Completion υ) : Action υ Bool :=
  onSession .stream (client.builds.fetch name completion)

def schedulePlugin (name : String) : Action υ Bool :=
  onSession .transport (client.plugins.schedule name)

end Client
end LevelLink
