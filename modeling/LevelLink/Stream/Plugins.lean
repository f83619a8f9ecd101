import LevelLink.Stream.Basic

/-!
# Plugins

A plugin is scheduled by two requests: one opens a notification stream with its name, one asks the peer to run
it.  It counts as running until its stream has ended or the peer refuses to run it.

A plugin is scheduled by `schedule`, and `onScheduled` takes the reply to its request.  `onFrame` is what the handler of a
notification stream does with a message; an error only makes the service forget the plugin.
-/

namespace LevelLink

namespace PluginTable

variable {υ : Type} (t : PluginTable υ) (name : String)

/-- The table in which `stream` notifies of a plugin. -/
def add (stream : SubscriberId) : PluginTable υ := { t with running := t.running.insert name stream }

/-- The table without a plugin. -/
def forget : PluginTable υ := { t with running := t.running.erase name }

end PluginTable

/-- A service that runs plugins, by its number. -/
structure PluginService where
  number : Nat
  deriving DecidableEq, Repr

namespace PluginService

variable {υ : Type}

/-- The node that runs plugins. -/
def node : String := "PLUGIN_SVR"

/-- A new service, on which nothing runs. -/
def start (s : Session υ) : PluginService × Session υ :=
  let (n, s) := s.newService
  (⟨n⟩, s)

variable (p : PluginService) (name : String)

/-! ### Requests -/

def streamRequest : Message := (Message.start node "NOTIFICATION_STREAM").writeText name

def scheduleRequest : Message := ((Message.start node "SCHEDULE_PLUGIN").writeText name).writeInt32 1

def closeRequest : Message := (Message.start node "CLOSE_NOTIFICATION_STREAM").writeText name

/-! ### Listeners -/

/-- Takes a plugin off the table. -/
def forget (w : World υ) : World υ := w.editPlugins p.number (·.forget name)

/-- Tells the application that a plugin has completed its task. -/
def complete (w : World υ) : World υ :=
  match (w.pluginsOf p.number).onCompleted with
  | some act => w.tell (act name)
  | none => w

/-- Takes a frame of the notification stream of a plugin.  When the task is completed, the peer is asked to
end the stream. -/
def onFrame (self : SubscriberId) (m : Message) : Program (World υ) :=
  match Reader.int32.inStream m with
  | .error e => .fail e
  | .ok (opcode, _) =>
    match PluginOp.ofCode? opcode with
    | some .taskStarted => .done
    | some .taskCompleted =>
      .add (.once (closeRequest name) fun _ _ => .done) fun
        | .ok _ => .edit (p.complete name) .done
        | .error e => .fail (.transport e)
    | some .streamEnded => .edit (p.forget name) (.remove self fun _ => .done)
    | none => .fail (.protocol (.unexpectedOpcode "plugin notification" opcode))

def handler : Handler (World υ) (Program (World υ)) where
  onFrame := p.onFrame name
  onError _ _ := .edit (p.forget name) .done

/-- Takes the reply to the request to run a plugin.  A refusal ends the stream that the table has then. -/
def onScheduled (reply : Message) : Program (World υ) :=
  match Reply.read.parse reply with
  | .ok (.nack _, _) =>
    .look fun w =>
      match (w.pluginsOf p.number).running[name]? with
      | some stream => .edit (p.forget name) (.remove stream fun _ => .done)
      | none => .done
  | _ => .done

/-! ### The service -/

variable (s : Session υ)

def isRunning : Bool := (s.world.pluginsOf p.number).running.contains name

/-- The names of the plugins that run, in order. -/
def running : List String := (s.world.pluginsOf p.number).running.keys

/-- Sets what the application does when a plugin has completed its task. -/
def onCompleted (act : String → υ → υ) : Session υ :=
  s.changed (·.editPlugins p.number fun t => { t with onCompleted := some act })

/-- Schedules a plugin unless it runs already, and tells whether it has. -/
def schedule : Attempt TransportError (Session υ) Bool := do
  if p.isRunning name (← get) then
    return false
  let stream ← Registry.adding (.stream (streamRequest name) (p.handler name))
  modify (·.changed (·.editPlugins p.number (·.add name stream)))
  let ask := Registry.adding (.once (scheduleRequest name) fun _ reply => p.onScheduled name reply)
  let _ ← tryCatch ask fun e => do
    modify fun s => ((s.changed (p.forget name)).remove stream).2
    throw e
  return true

/-- A line that lists what runs. -/
def summary : String :=
  let names := ", ".intercalate ((p.running s).map Text.quoted)
  "PluginService \x7b running: [" ++ names ++ "] \x7d"

end PluginService
end LevelLink
