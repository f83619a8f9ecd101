import LevelLink.Proofs.Client.Settings
import LevelLink.Proofs.Json.Documents

/-!
# What a configuration document says

A document chooses some of the settings and leaves the others at their defaults.  `ClientChoice.Document` says which
texts are documents of a choice, without the reader: the order of keys, white space, spelling and unknown members are
free.  Such a document is read as the defaults with the chosen settings in their place (`ClientChoice.parse_of_document`),
and a document in which a known key stands twice in one object is refused (`ClientConfig.ofJson?_of_repeats`).  The
document that is written for a configuration chooses all settings, so it is read as that configuration.
-/

namespace LevelLink

open JsonValue (settings? settingOr)

/-! ### Values of settings -/

namespace JsonValue

/-- The value is a string with this text. -/
def IsText (v : JsonValue) (s : String) : Prop := ∃ t, v = .string t ∧ t.text? = some s

theorem has_record (members : List (String × JsonValue)) : (record members).Has members :=
  ⟨_, members, rfl, by simp [keyed?, Function.comp_def], .refl members⟩

theorem writable_record {members : List (String × JsonValue)} (h : ∀ m ∈ members, m.2.Writable) :
    (record members).Writable := by
  refine writable_object fun m hm => ?_
  obtain ⟨m', hm', rfl⟩ := List.mem_map.mp hm
  exact ⟨JsonText.spelt_ofString m'.1, h m' hm'⟩

theorem isText_ofString (s : String) : (ofString s).IsText s := ⟨_, rfl, JsonText.text?_ofString s⟩

theorem text?_of_isText {v : JsonValue} {s : String} (h : v.IsText s) : v.text? = some s := by
  obtain ⟨t, rfl, ht⟩ := h
  exact ht

theorem natBelow?_ofNat {n limit : Nat} (h : n < limit) : natBelow? limit (ofNat n) = some n := by
  have hdigits : JsonNumber.ofDigits (Nat.toDigits 10 n) = n := Nat.ofDigitChars_ten_toDigits
  rw [ofNat, natBelow?, JsonNumber.readBelow?_eq (by omega), hdigits, if_pos h]

section

variable {α β : Type} {read : JsonValue → Option α} {value : Option JsonValue}

/-- A setting is its default unless a value is written for it. -/
theorem settingOr_map_of_rel {r : JsonValue → β → Prop} {choice : Option β} {f : β → α} (d : α)
    (h : Option.Rel r value choice) (hread : ∀ {v b}, r v b → read v = some (f b)) :
    settingOr d read value = some ((choice.map f).getD d) := by
  cases h with
  | none => rfl
  | some h => exact hread h

theorem settingOr_of_rel {r : JsonValue → α → Prop} {choice : Option α} (d : α) (h : Option.Rel r value choice)
    (hread : ∀ {v a}, r v a → read v = some a) : settingOr d read value = some (choice.getD d) := by
  rw [settingOr_map_of_rel (f := id) d h hread, Option.map_id, id]

end

end JsonValue

/-! ### Choices of settings -/

/-- The settings of a connection that a document chooses. -/
structure ConnectionChoice where
  host : Option String
  port : Option UInt16
  heartbeatInterval : Option Interval
  maxFrameSize : Option UInt64
  nodelay : Option Bool
  deriving DecidableEq, Repr

/-- The settings of transfers that a document chooses. -/
structure TransferChoice where
  chunkSize : Option UInt64
  deriving DecidableEq, Repr

/-- The settings of a client that a document chooses. -/
structure ClientChoice where
  connection : Option ConnectionChoice
  transfer : Option TransferChoice
  assetDir : Option String
  buildDir : Option String
  deriving DecidableEq, Repr

/-- The defaults with the chosen settings in their place. -/
def ConnectionChoice.config (c : ConnectionChoice) : ConnectionConfig :=
  let d := ConnectionConfig.default
  ⟨c.host.getD d.host, c.port.getD d.port, c.heartbeatInterval.getD d.heartbeatInterval,
    c.maxFrameSize.getD d.maxFrameSize, c.nodelay.getD d.nodelay⟩

/-- The defaults with the chosen settings in their place. -/
def TransferChoice.config (c : TransferChoice) : TransferConfig := ⟨c.chunkSize.getD TransferConfig.default.chunkSize⟩

/-- The defaults with the chosen settings in their place. -/
def ClientChoice.config (c : ClientChoice) : ClientConfig :=
  let d := ClientConfig.default
  ⟨(c.connection.map ConnectionChoice.config).getD d.connection, (c.transfer.map TransferChoice.config).getD d.transfer,
    c.assetDir.getD d.assetDir, c.buildDir.getD d.buildDir⟩

/-! ### How choices are written -/

/-- The value is an object with the seconds and the nanoseconds of the interval, in either order.  The nanoseconds may
be a second or more. -/
def Interval.Written (i : Interval) (v : JsonValue) : Prop :=
  ∃ secs nanos, v.Has [("secs", .ofNat secs), ("nanos", .ofNat nanos)] ∧ secs < UInt64.size ∧ nanos < UInt32.size ∧
    secs * 1000000000 + nanos = i.secs.toNat * 1000000000 + i.nanos.val

/-- The value is an object that gives the chosen settings, and perhaps others that are unknown. -/
def ConnectionChoice.Written (c : ConnectionChoice) (v : JsonValue) : Prop :=
  ∃ host port heartbeat maxFrame nodelay,
    v.Gives [("host", host), ("port", port), ("heartbeat_interval", heartbeat), ("max_frame_size", maxFrame),
      ("nodelay", nodelay)] ∧
    Option.Rel JsonValue.IsText host c.host ∧
    Option.Rel (fun v (n : UInt16) => v = .ofNat n.toNat) port c.port ∧
    Option.Rel (fun v (i : Interval) => i.Written v) heartbeat c.heartbeatInterval ∧
    Option.Rel (fun v (n : UInt64) => v = .ofNat n.toNat) maxFrame c.maxFrameSize ∧
    Option.Rel (fun v b => v = .bool b) nodelay c.nodelay

/-- The value is an object that gives the chosen settings, and perhaps others that are unknown. -/
def TransferChoice.Written (c : TransferChoice) (v : JsonValue) : Prop :=
  ∃ chunk, v.Gives [("chunk_size", chunk)] ∧ Option.Rel (fun v (n : UInt64) => v = .ofNat n.toNat) chunk c.chunkSize

/-- The value is an object that gives the chosen settings, and perhaps others that are unknown. -/
def ClientChoice.Written (c : ClientChoice) (v : JsonValue) : Prop :=
  ∃ connection transfer assetDir buildDir,
    v.Gives [("connection", connection), ("transfer", transfer), ("asset_dir", assetDir), ("build_dir", buildDir)] ∧
    Option.Rel (fun v (c : ConnectionChoice) => c.Written v) connection c.connection ∧
    Option.Rel (fun v (c : TransferChoice) => c.Written v) transfer c.transfer ∧
    Option.Rel JsonValue.IsText assetDir c.assetDir ∧ Option.Rel JsonValue.IsText buildDir c.buildDir

/-- The text is a document that chooses these settings, with any white space. -/
def ClientChoice.Document (c : ClientChoice) (text : String) : Prop := ∃ v, c.Written v ∧ v.Document text

/-! ### Choices are read -/

theorem Interval.ofJson?_of_written {i : Interval} {v : JsonValue} (h : i.Written v) : ofJson? v = some i := by
  obtain ⟨secs, nanos, hhas, hsecs, hnanos, htime⟩ := h
  have hgives : v.Gives [("secs", some (.ofNat secs)), ("nanos", some (.ofNat nanos))] := ⟨[], by simp, hhas⟩
  have hsettings := JsonValue.settings?_of_gives hgives (by simp)
  simp only [List.map_cons, List.map_nil] at hsettings
  obtain ⟨written, named, rfl, hkeys, hperm⟩ := hhas
  have hlength : written.length = 2 := by
    have := congrArg List.length hkeys
    simpa [hperm.length_eq] using this
  have htotal : secs + nanos / 1000000000 = i.secs.toNat := by omega
  have hrest : nanos % 1000000000 = i.nanos.val := by omega
  simp [ofJson?, hlength, hsettings, JsonValue.natBelow?_ofNat hsecs, JsonValue.natBelow?_ofNat hnanos, htotal, hrest,
    i.secs.toNat_lt, -UInt64.ofNat_add]

/-- Numbers of 16 bits are read from their digits. -/
theorem port_of_written {v : JsonValue} {n : UInt16} (h : v = .ofNat n.toNat) :
    UInt16.ofNat <$> JsonValue.natBelow? UInt16.size v = some n := by
  rw [h, JsonValue.natBelow?_ofNat n.toNat_lt]
  simp

theorem size_of_written {v : JsonValue} {n : UInt64} (h : v = .ofNat n.toNat) :
    UInt64.ofNat <$> JsonValue.natBelow? UInt64.size v = some n := by
  rw [h, JsonValue.natBelow?_ofNat n.toNat_lt]
  simp

theorem ConnectionChoice.ofJson?_of_written {c : ConnectionChoice} {v : JsonValue} (h : c.Written v) :
    ConnectionConfig.ofJson? v = some c.config := by
  obtain ⟨host, port, heartbeat, maxFrame, nodelay, hgives, hhost, hport, hheartbeat, hmaxFrame, hnodelay⟩ := h
  have hsettings := JsonValue.settings?_of_gives hgives (by simp)
  simp only [List.map_cons, List.map_nil] at hsettings
  have hbool {v : JsonValue} {b : Bool} (h : v = .bool b) : v.bool? = some b := h ▸ rfl
  simp only [ConnectionConfig.ofJson?, hsettings, Option.bind_eq_bind, Option.bind_some,
    JsonValue.settingOr_of_rel _ hhost JsonValue.text?_of_isText, JsonValue.settingOr_of_rel _ hport port_of_written,
    JsonValue.settingOr_of_rel _ hheartbeat Interval.ofJson?_of_written,
    JsonValue.settingOr_of_rel _ hmaxFrame size_of_written, JsonValue.settingOr_of_rel _ hnodelay hbool]
  rfl

theorem TransferChoice.ofJson?_of_written {c : TransferChoice} {v : JsonValue} (h : c.Written v) :
    TransferConfig.ofJson? v = some c.config := by
  obtain ⟨chunk, hgives, hchunk⟩ := h
  have hsettings := JsonValue.settings?_of_gives hgives (by simp)
  simp only [List.map_cons, List.map_nil] at hsettings
  simp only [TransferConfig.ofJson?, hsettings, Option.bind_eq_bind, Option.bind_some,
    JsonValue.settingOr_of_rel _ hchunk size_of_written]
  rfl

theorem ClientChoice.ofJson?_of_written {c : ClientChoice} {v : JsonValue} (h : c.Written v) :
    ClientConfig.ofJson? v = some c.config := by
  obtain ⟨connection, transfer, assetDir, buildDir, hgives, hconnection, htransfer, hassetDir, hbuildDir⟩ := h
  have hsettings := JsonValue.settings?_of_gives hgives (by simp)
  simp only [List.map_cons, List.map_nil] at hsettings
  simp only [ClientConfig.ofJson?, hsettings, Option.bind_eq_bind, Option.bind_some,
    JsonValue.settingOr_map_of_rel _ hconnection ConnectionChoice.ofJson?_of_written,
    JsonValue.settingOr_map_of_rel _ htransfer TransferChoice.ofJson?_of_written,
    JsonValue.settingOr_of_rel _ hassetDir JsonValue.text?_of_isText,
    JsonValue.settingOr_of_rel _ hbuildDir JsonValue.text?_of_isText]
  rfl

/-- A document is read as the defaults with the chosen settings in their place. -/
theorem ClientChoice.parse_of_document {c : ClientChoice} {text : String} (h : c.Document text) :
    ClientConfig.parse text = .ok c.config := by
  obtain ⟨v, hv, htext⟩ := h
  rw [ClientConfig.parse, JsonValue.parse?_of_document htext, Option.bind_eq_bind, Option.bind_some,
    ClientChoice.ofJson?_of_written hv]

/-! ### Keys that stand twice -/

namespace ClientConfig

def connectionNames : List String := ["host", "port", "heartbeat_interval", "max_frame_size", "nodelay"]

def clientNames : List String := ["connection", "transfer", "asset_dir", "build_dir"]

/-- A known key stands twice in an object of the document: in the record of the client, of the connection, of the
heartbeat interval or of the transfers. -/
inductive Repeats (v : JsonValue) : Prop
  | client (h : v.Repeats clientNames)
  | connection {w : JsonValue} (hw : v.Holds clientNames "connection" w) (h : w.Repeats connectionNames)
  | heartbeat {w u : JsonValue} (hw : v.Holds clientNames "connection" w)
      (hu : w.Holds connectionNames "heartbeat_interval" u) (h : u.Repeats ["secs", "nanos"])
  | transfer {w : JsonValue} (hw : v.Holds clientNames "transfer" w) (h : w.Repeats ["chunk_size"])

/-- Where the record of a connection is read, what it holds for the heartbeat interval is read. -/
theorem heartbeat_of_ofJson? {w : JsonValue} {c : ConnectionConfig} (h : ConnectionConfig.ofJson? w = some c) :
    ∀ u, w.Holds connectionNames "heartbeat_interval" u → Interval.ofJson? u = some c.heartbeatInterval := by
  intro u hu
  obtain ⟨values, hsettings, hread⟩ := Option.bind_eq_some_iff.mp h
  split at hread
  case h_1 host port heartbeat maxFrame nodelay =>
    obtain rfl : heartbeat = some u := by
      simpa using JsonValue.getElem?_settings hsettings hu (by decide) (i := 2) rfl
    simp only [Option.bind_eq_bind, Option.bind_eq_some_iff] at hread
    obtain ⟨_, _, _, _, heartbeat', hheartbeat, _, _, _, _, hc⟩ := hread
    cases hc
    exact hheartbeat
  case h_2 => cases hread

/-- Where the record of a client is read, what it holds for the connection and for the transfers is read. -/
theorem parts_of_ofJson? {v : JsonValue} {c : ClientConfig} (h : ofJson? v = some c) :
    (∀ w, v.Holds clientNames "connection" w → ConnectionConfig.ofJson? w = some c.connection) ∧
      ∀ w, v.Holds clientNames "transfer" w → TransferConfig.ofJson? w = some c.transfer := by
  obtain ⟨values, hsettings, hread⟩ := Option.bind_eq_some_iff.mp h
  split at hread
  case h_1 connection transfer assetDir buildDir =>
    simp only [Option.bind_eq_bind, Option.bind_eq_some_iff] at hread
    obtain ⟨connection', hconnection, transfer', htransfer, _, _, _, _, hc⟩ := hread
    cases hc
    refine ⟨fun w hw => ?_, fun w hw => ?_⟩
    · obtain rfl : connection = some w := by
        simpa using JsonValue.getElem?_settings hsettings hw (by decide) (i := 0) rfl
      exact hconnection
    · obtain rfl : transfer = some w := by
        simpa using JsonValue.getElem?_settings hsettings hw (by decide) (i := 1) rfl
      exact htransfer
  case h_2 => cases hread

/-- A record in which a known key stands twice is not read. -/
theorem ofJson?_of_repeats {v : JsonValue} (h : Repeats v) : ofJson? v = none := by
  refine Option.eq_none_iff_forall_ne_some.mpr fun c hc => ?_
  cases h with
  | client h =>
    obtain ⟨values, hsettings, -⟩ := Option.bind_eq_some_iff.mp hc
    cases (JsonValue.settings?_of_repeats h).symm.trans hsettings
  | connection hw h =>
    obtain ⟨values, hsettings, -⟩ := Option.bind_eq_some_iff.mp ((parts_of_ofJson? hc).1 _ hw)
    cases (JsonValue.settings?_of_repeats h).symm.trans hsettings
  | heartbeat hw hu h =>
    have hread := heartbeat_of_ofJson? ((parts_of_ofJson? hc).1 _ hw) _ hu
    simp [Interval.ofJson?, JsonValue.settings?_of_repeats h] at hread
  | transfer hw h =>
    obtain ⟨values, hsettings, -⟩ := Option.bind_eq_some_iff.mp ((parts_of_ofJson? hc).2 _ hw)
    cases (JsonValue.settings?_of_repeats h).symm.trans hsettings

/-- A document stands for the default configuration with exactly the chosen settings in their place, in whatever order,
white space and spelling it is written and whatever unknown members stand in between.  So two documents that choose the
same settings are read alike.  A document in which a known key stands twice in one object is refused. -/
theorem parse_partial :
    (∀ (c : ClientChoice) (text : String), c.Document text → parse text = .ok c.config) ∧
      (∀ (c : ClientChoice) (text text' : String), c.Document text → c.Document text' → parse text = parse text') ∧
      ∀ (v : JsonValue) (text : String), v.Document text → Repeats v → ∃ reason, parse text = .error (.config reason) := by
  refine ⟨fun c text h => c.parse_of_document h, fun c text text' h h' => ?_, fun v text htext h => ?_⟩
  · rw [c.parse_of_document h, c.parse_of_document h']
  · rw [parse, JsonValue.parse?_of_document htext, Option.bind_eq_bind, Option.bind_some, ofJson?_of_repeats h]
    exact ⟨_, rfl⟩

/-- A choice of three settings in two records. -/
def sampleChoice : ClientChoice := ⟨some ⟨none, some 7, none, none, some false⟩, none, some "in", none⟩

/-- The settings of `sampleChoice` in another order, with unknown members in both records. -/
def sampleMixed : JsonValue :=
  .record [("asset_dir", .ofString "in"), ("extra", .record [("port", .bool true)]),
    ("connection", .record [("nodelay", .bool false), ("note", .ofNat 1), ("port", .ofNat 7)])]

/-- The settings of `sampleChoice` in order. -/
def samplePlain : JsonValue :=
  .record [("connection", .record [("port", .ofNat 7), ("nodelay", .bool false)]), ("asset_dir", .ofString "in")]

/-- Two records of transfers. -/
def sampleTwice : JsonValue := .record [("transfer", .record []), ("transfer", .record [("chunk_size", .ofNat 1)])]

theorem parse_partial_sampleChoice :
    sampleMixed.render =
        "\x7b\"asset_dir\":\"in\",\"extra\":\x7b\"port\":true\x7d,\"connection\":" ++
          "\x7b\"nodelay\":false,\"note\":1,\"port\":7\x7d\x7d" ∧
      parse sampleMixed.render = .ok sampleChoice.config ∧ parse sampleMixed.render = parse samplePlain.render ∧
      parse " \n\x7b \x7d" = .ok default ∧ ∃ reason, parse sampleTwice.render = .error (.config reason) := by
  have hrotate (a b c : String × JsonValue) : ([a, b] ++ [c]).Perm ([c] ++ [a, b]) := List.perm_append_comm
  have hmixed : sampleChoice.Document sampleMixed.render := by
    refine ⟨sampleMixed, ?_, JsonValue.document_render ?_⟩
    · refine ⟨some _, none, some _, none, ⟨[("extra", .record [("port", .bool true)])], by simp,
        (JsonValue.has_record _).perm (hrotate _ _ _)⟩, .some ?_, .none, .some (JsonValue.isText_ofString _), .none⟩
      exact ⟨none, some _, none, none, some _, ⟨[("note", .ofNat 1)], by simp,
        (JsonValue.has_record _).perm (hrotate _ _ _)⟩, .none, .some rfl, .none, .none, .some rfl⟩
    · exact JsonValue.writable_record (by
        simp [JsonValue.writable_ofString, JsonValue.writable_ofNat, JsonValue.writable_bool, JsonValue.writable_record])
  have hplain : sampleChoice.Document samplePlain.render := by
    refine ⟨samplePlain, ?_, JsonValue.document_render ?_⟩
    · refine ⟨some _, none, some _, none, ⟨[], by simp, JsonValue.has_record _⟩, .some ?_, .none,
        .some (JsonValue.isText_ofString _), .none⟩
      exact ⟨none, some _, none, none, some _, ⟨[], by simp, JsonValue.has_record _⟩, .none, .some rfl, .none, .none,
        .some rfl⟩
    · exact JsonValue.writable_record (by
        simp [JsonValue.writable_ofString, JsonValue.writable_ofNat, JsonValue.writable_bool, JsonValue.writable_record])
  have hempty : ClientChoice.Document ⟨none, none, none, none⟩ " \n\x7b \x7d" := by
    refine ⟨.record [], ⟨none, none, none, none, ⟨[], by simp, JsonValue.has_record []⟩, .none, .none, .none, .none⟩, ?_⟩
    have hclose : JsonToken.Spells [.closeObject] ([' '] ++ (['\x7d'] ++ [])) :=
      .cons (by simp [JsonToken.isBlank]) .closeObject (.nil (List.forall_mem_nil _))
    have hopen : JsonToken.Spells [.openObject, .closeObject]
        ([' ', '\n'] ++ (['\x7b'] ++ ([' '] ++ (['\x7d'] ++ [])))) :=
      .cons (by simp [JsonToken.isBlank]) .openObject hclose
    exact hopen
  have htwice : sampleTwice.Document sampleTwice.render :=
    JsonValue.document_render (JsonValue.writable_record (by simp [JsonValue.writable_ofNat, JsonValue.writable_record]))
  have hrepeats : Repeats sampleTwice := .client ⟨_, rfl, "transfer", by decide, by decide⟩
  exact ⟨rfl, parse_partial.1 _ _ hmixed, parse_partial.2.1 _ _ _ hmixed hplain, parse_partial.1 _ _ hempty,
    parse_partial.2.2 _ _ htwice hrepeats⟩

end ClientConfig

/-! ### The document of a configuration -/

theorem Interval.written_toJson (i : Interval) : i.Written i.toJson :=
  ⟨i.secs.toNat, i.nanos.val, JsonValue.has_record _, i.secs.toNat_lt, i.nanos.isLt.trans (by decide), rfl⟩

namespace ClientConfig

/-- All settings are chosen. -/
def choice (c : ClientConfig) : ClientChoice :=
  ⟨some ⟨some c.connection.host, some c.connection.port, some c.connection.heartbeatInterval,
    some c.connection.maxFrameSize, some c.connection.nodelay⟩, some ⟨some c.transfer.chunkSize⟩, some c.assetDir,
    some c.buildDir⟩

theorem written_toJson (c : ClientConfig) : c.choice.Written c.toJson := by
  refine ⟨some c.connection.toJson, some c.transfer.toJson, some (.ofString c.assetDir), some (.ofString c.buildDir),
    ⟨[], by simp, JsonValue.has_record _⟩, .some ?_, .some ?_, .some (JsonValue.isText_ofString _),
    .some (JsonValue.isText_ofString _)⟩
  · exact ⟨some (.ofString c.connection.host), some (.ofNat c.connection.port.toNat),
      some c.connection.heartbeatInterval.toJson, some (.ofNat c.connection.maxFrameSize.toNat),
      some (.bool c.connection.nodelay), ⟨[], by simp, JsonValue.has_record _⟩,
      .some (JsonValue.isText_ofString _), .some rfl, .some (Interval.written_toJson _), .some rfl, .some rfl⟩
  · exact ⟨some (.ofNat c.transfer.chunkSize.toNat), ⟨[], by simp, JsonValue.has_record _⟩, .some rfl⟩

theorem writable_toJson (c : ClientConfig) : c.toJson.Writable := by
  have hheartbeat : c.connection.heartbeatInterval.toJson.Writable :=
    JsonValue.writable_record (by simp [JsonValue.writable_ofNat])
  have hconnection : c.connection.toJson.Writable :=
    JsonValue.writable_record (by
      simp [JsonValue.writable_ofString, JsonValue.writable_ofNat, JsonValue.writable_bool, hheartbeat])
  have htransfer : c.transfer.toJson.Writable := JsonValue.writable_record (by simp [JsonValue.writable_ofNat])
  exact JsonValue.writable_record (by simp [hconnection, htransfer, JsonValue.writable_ofString])

/-- The document that is written for a configuration is read as this configuration, whatever its texts and numbers. -/
theorem parse_render (c : ClientConfig) : parse c.render = .ok c :=
  ClientChoice.parse_of_document (c := c.choice)
    ⟨c.toJson, written_toJson c, JsonValue.document_render (writable_toJson c)⟩

end ClientConfig
end LevelLink
