import LevelLink.Level.Presence
import LevelLink.Level.Snapshots
import LevelLink.Link.Registry
import LevelLink.Metric.Report
import LevelLink.Transfer.Basic

/-!
# The world around a link

What the streams of one link remember, the files they work on, and the state `υ` of the application.  The
table of a stream is found under the number of its subscriber, and a service under a number of its own.
-/

namespace LevelLink

/-- The plugins of one service. -/
structure PluginTable (υ : Type) where
  /-- The notification stream of every running plugin. -/
  running : Std.TreeMap String SubscriberId := ∅
  /-- What the application does when a plugin has completed its task. -/
  onCompleted : Option (String → υ → υ) := none

/-- What the streams of a link remember. -/
structure World (υ : Type) where
  files : Files.Store := {}
  objects : Std.TreeMap SubscriberId Snapshots := ∅
  users : Std.TreeMap SubscriberId (List User) := ∅
  metrics : Std.TreeMap SubscriberId MetricSet := ∅
  plugins : Std.TreeMap Nat (PluginTable υ) := ∅
  /-- The progress of every transfer stream. -/
  progress : Std.TreeMap Nat Progress := ∅
  /-- The subscriber of the current or last transfer of every transfer stream. -/
  latest : Std.TreeMap Nat SubscriberId := ∅
  fetches : Std.TreeMap SubscriberId (Fetch υ) := ∅
  offers : Std.TreeMap SubscriberId (Offer υ) := ∅
  /-- The senders that are started and have not run, the earliest first. -/
  jobs : List SendJob := []
  /-- Whether senders can be started. -/
  canSend : Bool := true
  /-- The number of the next service. -/
  nextService : Nat := 0
  traffic : Traffic := {}
  app : υ

namespace World

variable {υ : Type} (w : World υ)

/-- Lets the application act. -/
def tell (act : υ → υ) : World υ := { w with app := act w.app }

/-- A number for a new service. -/
def newService : Nat × World υ := (w.nextService, { w with nextService := w.nextService + 1 })

def objectsOf (id : SubscriberId) : Snapshots := w.objects.getD id ∅

def usersOf (id : SubscriberId) : List User := w.users.getD id []

def metricsOf (id : SubscriberId) : MetricSet := w.metrics.getD id MetricSet.builtIn

def pluginsOf (service : Nat) : PluginTable υ := w.plugins.getD service {}

/-- Changes the plugins of a service. -/
def editPlugins (service : Nat) (edit : PluginTable υ → PluginTable υ) : World υ :=
  { w with plugins := w.plugins.insert service (edit (w.pluginsOf service)) }

def progressOf (stream : Nat) : Progress := w.progress.getD stream {}

def setProgress (stream : Nat) (p : Progress) : World υ :=
  { w with progress := w.progress.insert stream p }

/-- Changes the state of a transfer. -/
def setState (stream : Nat) (state : TransferState) : World υ :=
  w.setProgress stream { w.progressOf stream with state }

end World

/-- A registry with the streams of a link around it. -/
abbrev Session (υ : Type) := Registry (World υ)

/-- A session in which nothing has happened. -/
def Session.start {υ : Type} (app : υ) (files : Files.Store := {}) : Session υ :=
  { world := { files, app } }

/-- A number for a new service of a session. -/
def Session.newService {υ : Type} (s : Session υ) : Nat × Session υ :=
  let (n, w) := s.world.newService
  (n, s.changed fun _ => w)

end LevelLink
