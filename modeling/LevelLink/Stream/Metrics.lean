import LevelLink.Stream.Basic

/-!
# The collection of metrics

Every frame on the collection stream asks for a report of all metrics.  A report is a request of its own, and
its reply is of no interest.

The reporter is opened by `subscribe`; counters, gauges and positions are added by `register` and changed by their handles,
and `handler` answers a collection.
-/

namespace LevelLink

/-- The open collection stream. -/
structure MetricStream extends OpenStream
  deriving DecidableEq, Repr

/-- A metric of a reporter, by its place in the set. -/
structure MetricHandle where
  stream : MetricStream
  place : Nat
  deriving DecidableEq, Repr

namespace MetricStream

variable {υ : Type}

/-- Reports metrics in order, until a request cannot be sent. -/
def reportAll : List Metric → Program (World υ)
  | [] => .done
  | m :: rest =>
    .add (.once m.report fun _ _ => .done) fun
      | .ok _ => reportAll rest
      | .error e => .fail (.transport e)

/-- Brings the counters of the client's own up to date. -/
def collect (self : SubscriberId) (w : World υ) : World υ :=
  { w with metrics := w.metrics.insert self ((w.metricsOf self).collected w.traffic) }

def handler : Handler (World υ) (Program (World υ)) where
  onFrame self _ := .edit (collect self) (.look fun w => reportAll (w.metricsOf self).inOrder)
  onError _ _ := .done

/-- Opens the stream. -/
def subscribe : Attempt TransportError (Session υ) MetricStream := do
  return ⟨← OpenStream.subscribe Metric.node Metric.collectionStream handler⟩

variable (o : MetricStream) (s : Session υ)

/-- All metrics, in the order in which they were registered. -/
def metrics : MetricSet := s.world.metricsOf o.id

/-- Changes the set of metrics. -/
def edit (change : MetricSet → MetricSet) : Session υ :=
  s.changed fun w => { w with metrics := w.metrics.insert o.id (change (w.metricsOf o.id)) }

/-- Registers a metric. -/
def register (kind : MetricKind) (name : String) : MetricHandle × Session υ :=
  (⟨o, (o.metrics s).length⟩, o.edit s (·.concat { name, kind : Metric }))

end MetricStream

namespace MetricHandle

variable {υ : Type} (h : MetricHandle) (s : Session υ)

/-- The metric as it is now. -/
def get? : Option Metric := (h.stream.metrics s)[h.place]?

/-- Changes the metric. -/
def edit (change : Metric → Metric) : Session υ := h.stream.edit s (·.modify h.place change)

/-- Adds to a counter. -/
def increase (amount : UInt64) : Session υ := h.edit s (·.increased amount)

/-- Sets a counter or a gauge. -/
def set (value : UInt64) : Session υ := h.edit s (·.setFirst value)

/-- Sets a position. -/
def setPosition (value : Vec3) : Session υ := h.edit s fun m => { m with value }

/-- Sets the labels that go with every report. -/
def setLabels (labels : String) : Session υ := h.edit s fun m => { m with labels }

end MetricHandle
end LevelLink
