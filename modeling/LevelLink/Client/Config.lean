import LevelLink.Client.Error
import LevelLink.Files.Store
import LevelLink.Json.Document

/-!
# Configuration

What a client needs to start, with a default for every setting.  A configuration is written as a JSON
document (`ClientConfig.render`) and read from one (`ClientConfig.parse`): a document only names the settings
it changes.

Each record of settings may be an object, in which unknown keys are skipped and known ones stand at most
once, or an array of its settings in order, from which settings may be missing at the end.
-/

namespace LevelLink

/-! ### Settings -/

/-- A span of time. -/
structure Interval where
  secs : UInt64
  nanos : Fin 1000000000
  deriving DecidableEq, Repr

/-- The settings of the connection. -/
structure ConnectionConfig where
  host : String
  port : UInt16
  /-- How often a keep-alive frame is sent. -/
  heartbeatInterval : Interval
  /-- The largest body of an incoming frame that is accepted. -/
  maxFrameSize : UInt64
  /-- Whether frames are sent without waiting for more. -/
  nodelay : Bool
  deriving DecidableEq, Repr

/-- The settings of transfers. -/
structure TransferConfig where
  /-- The number of bytes in a data frame of an upload. -/
  chunkSize : UInt64
  deriving DecidableEq, Repr

/-- The settings of a client. -/
structure ClientConfig where
  connection : ConnectionConfig
  transfer : TransferConfig
  assetDir : String
  buildDir : String
  deriving DecidableEq, Repr

namespace ConnectionConfig

def default : ConnectionConfig := ⟨"127.0.0.1", 9888, ⟨30, 0⟩, 16777216, true⟩

/-- The default settings for a host. -/
def forHost (host : String) : ConnectionConfig := { default with host }

/-- Host and port, for messages. -/
def address (c : ConnectionConfig) : String := s!"{c.host}:{c.port}"

end ConnectionConfig

def TransferConfig.default : TransferConfig := ⟨1024⟩

namespace ClientConfig

def default : ClientConfig := ⟨.default, .default, "assets", "builds"⟩

/-- The default settings for a host. -/
def forHost (host : String) : ClientConfig := { default with connection := .forHost host }

/-- Whether two configurations make the same settings.  A directory may be spelled in more ways than one. -/
def same (c d : ClientConfig) : Bool :=
  c.connection = d.connection && c.transfer = d.transfer &&
    Files.Path.same c.assetDir d.assetDir && Files.Path.same c.buildDir d.buildDir

end ClientConfig

/-! ### Reading -/

namespace JsonValue

/-- The value of every key in `names`, if the members give one, when each key of the members has a text and
none of `names` stands twice. -/
def membersByName? (names : List String) (members : List (JsonText × JsonValue)) :
    Option (List (Option JsonValue)) := do
  let named ← members.mapM fun (k, v) => do return (← k.text?, v)
  names.mapM fun name =>
    match named.filter fun m => m.1 == name with
    | [] => some none
    | [m] => some (some m.2)
    | _ => none

/-- The settings called `names`, in that order, as far as a record gives them. -/
def settings? (names : List String) : JsonValue → Option (List (Option JsonValue))
  | .object members => membersByName? names members
  | .array items =>
    if items.length ≤ names.length then
      some (items.map some ++ List.replicate (names.length - items.length) none)
    else
      none
  | _ => none

/-- A setting, or its default where it is not given. -/
def settingOr {α : Type} (d : α) (read : JsonValue → Option α) : Option JsonValue → Option α
  | none => some d
  | some v => read v

end JsonValue

open JsonValue (settings? settingOr natBelow?)

/-- Reads an interval.  Both parts have to be there and no others; a second or more of nanoseconds is carried
over. -/
def Interval.ofJson? (v : JsonValue) : Option Interval := do
  let known :=
    match v with
    | .object members => members.length == 2
    | .array items => items.length == 2
    | _ => false
  if known then
    match ← settings? ["secs", "nanos"] v with
    | [some secs, some nanos] =>
      let secs ← natBelow? UInt64.size secs
      let nanos ← natBelow? UInt32.size nanos
      let total := secs + nanos / 1000000000
      if total < UInt64.size then
        some ⟨UInt64.ofNat total, ⟨nanos % 1000000000, Nat.mod_lt _ (by decide)⟩⟩
      else
        none
    | _ => none
  else
    none

def ConnectionConfig.ofJson? (v : JsonValue) : Option ConnectionConfig := do
  match ← settings? ["host", "port", "heartbeat_interval", "max_frame_size", "nodelay"] v with
  | [host, port, heartbeat, maxFrame, nodelay] => do
    let d := ConnectionConfig.default
    return ⟨← settingOr d.host JsonValue.text? host,
      ← settingOr d.port (fun v => UInt16.ofNat <$> natBelow? UInt16.size v) port,
      ← settingOr d.heartbeatInterval Interval.ofJson? heartbeat,
      ← settingOr d.maxFrameSize (fun v => UInt64.ofNat <$> natBelow? UInt64.size v) maxFrame,
      ← settingOr d.nodelay JsonValue.bool? nodelay⟩
  | _ => none

def TransferConfig.ofJson? (v : JsonValue) : Option TransferConfig := do
  match ← settings? ["chunk_size"] v with
  | [chunk] => do
    let size ← settingOr TransferConfig.default.chunkSize (fun v => UInt64.ofNat <$> natBelow? UInt64.size v) chunk
    return ⟨size⟩
  | _ => none

namespace ClientConfig

def ofJson? (v : JsonValue) : Option ClientConfig := do
  match ← settings? ["connection", "transfer", "asset_dir", "build_dir"] v with
  | [connection, transfer, assetDir, buildDir] => do
    let d := ClientConfig.default
    return ⟨← settingOr d.connection ConnectionConfig.ofJson? connection,
      ← settingOr d.transfer TransferConfig.ofJson? transfer,
      ← settingOr d.assetDir JsonValue.text? assetDir,
      ← settingOr d.buildDir JsonValue.text? buildDir⟩
  | _ => none

/-- The configuration that a document describes.  A refusal does not say what is wrong with the document. -/
def parse (json : String) : Except ClientError ClientConfig :=
  match JsonValue.parse? json >>= ofJson? with
  | some c => .ok c
  | none => .error (.config "not a configuration")

/-- Reads the configuration from a file. -/
def load (files : Files.Store) (path : String) : Except ClientError ClientConfig := do
  let content ← (files.read path).mapError .io
  match Utf8.decode? content with
  | some json => parse json
  | none => throw (.io (.custom .invalidData "stream did not contain valid UTF-8"))

end ClientConfig

/-! ### Writing -/

/-- An object with keys of plain text. -/
def JsonValue.record (members : List (String × JsonValue)) : JsonValue :=
  .object (members.map fun (k, v) => (JsonText.ofString k, v))

def Interval.toJson (i : Interval) : JsonValue :=
  .record [("secs", .ofNat i.secs.toNat), ("nanos", .ofNat i.nanos.val)]

def ConnectionConfig.toJson (c : ConnectionConfig) : JsonValue :=
  .record [("host", .ofString c.host), ("port", .ofNat c.port.toNat),
    ("heartbeat_interval", c.heartbeatInterval.toJson), ("max_frame_size", .ofNat c.maxFrameSize.toNat),
    ("nodelay", .bool c.nodelay)]

def TransferConfig.toJson (c : TransferConfig) : JsonValue :=
  .record [("chunk_size", .ofNat c.chunkSize.toNat)]

namespace ClientConfig

def toJson (c : ClientConfig) : JsonValue :=
  .record [("connection", c.connection.toJson), ("transfer", c.transfer.toJson),
    ("asset_dir", .ofString c.assetDir), ("build_dir", .ofString c.buildDir)]

/-- The document of a configuration. -/
def render (c : ClientConfig) : String := c.toJson.render

end ClientConfig
end LevelLink
