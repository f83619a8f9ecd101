import LevelLink.Level.Record
import LevelLink.Metric.Sum

/-!
# Metrics and their reports

A metric has a kind, a name, labels and a value.  A set of metrics begins with three counters of the client's
own.  When the peer collects, these are brought up to date (`MetricSet.collected`), and then every metric is
reported once: positions, then counters, then gauges (`MetricSet.inOrder`).
-/

namespace LevelLink

/-- The kinds of metric. -/
inductive MetricKind where
  | pos | counter | gauge
  deriving DecidableEq, Repr

namespace MetricKind

/-- The kinds, in the order in which they are reported. -/
def all : List MetricKind := [pos, counter, gauge]

def text : MetricKind → String
  | pos => "pos"
  | counter => "counter"
  | gauge => "gauge"

end MetricKind

/-- A metric.  Only a position uses all of the value; the others use its first number. -/
structure Metric where
  name : String
  kind : MetricKind
  labels : String := ""
  value : Vec3 := ⟨0, 0, 0⟩
  deriving DecidableEq, Repr

/-- Traffic on a connection.  A connection counts in words of 64 bits, which begin at zero again; these numbers go on, so
they are what it counts until `2 ^ 64` bytes have gone over it in one direction. -/
structure Traffic where
  bytesSent : Nat := 0
  bytesReceived : Nat := 0
  framesSent : Nat := 0
  framesReceived : Nat := 0
  deriving DecidableEq, Repr

namespace Metric

/-- The node that collects metrics. -/
def node : String := "METRIC_SVR"

def collectionStream : String := "METRIC_COLLECTION"

/-- The part of the value that is reported. -/
def valueBytes (m : Metric) : Bytes :=
  match m.kind with
  | .pos => m.value.bytes
  | .counter | .gauge => Bytes.ofUInt64 m.value.x

/-- The request that reports a metric. -/
def report (m : Metric) : Message :=
  ((((Message.start node "REPORT_METRIC").writeText m.name).writeText m.kind.text).writeText m.labels).write
    m.valueBytes

/-- The metric with `bits` as the first number of its value. -/
def setFirst (m : Metric) (bits : UInt64) : Metric := { m with value := { m.value with x := bits } }

/-- The metric with its first number increased. -/
def increased (m : Metric) (amount : UInt64) : Metric := m.setFirst (sum m.value.x amount)

end Metric

/-- The metrics of one reporter, in the order in which they were registered. -/
abbrev MetricSet := List Metric

namespace MetricSet

/-- The counters of the client's own: collections, bytes received, bytes sent. -/
def builtIn : MetricSet :=
  [{ name := "oxygen_client_num_metric_collections_counter", kind := .counter },
   { name := "oxygen_client_bytes_received_total", kind := .counter },
   { name := "oxygen_client_bytes_sent_total", kind := .counter }]

/-- The metrics at the start of a collection. -/
def collected (t : Traffic) : MetricSet → MetricSet
  | collections :: received :: sent :: rest =>
    collections.increased (Metric.ofNat 1) :: received.setFirst (Metric.ofNat t.bytesReceived) ::
      sent.setFirst (Metric.ofNat t.bytesSent) :: rest
  | ms => ms

/-- The metrics in the order in which they are reported. -/
def inOrder (ms : MetricSet) : MetricSet := MetricKind.all.flatMap fun k => ms.filter fun m => m.kind = k

end MetricSet
end LevelLink
