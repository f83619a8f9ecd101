import LevelLink.Stream.Basic

/-!
# The presence stream

The stream that keeps the list of users up to date.  The application is told of a frame after the list has
changed, and can look at the list then; of a frame that cannot be read it is told nothing.

On the wire this is the event stream of a level.  It is opened by `watch` or `subscribe`, and `step` handles its messages.
-/

namespace LevelLink

/-- The open presence stream. -/
structure PresenceStream extends OpenStream
  deriving DecidableEq, Repr

namespace PresenceStream

variable {υ : Type} (hook : PresenceEvent → List User → υ → υ)

/-- Takes a frame. -/
def step (self : SubscriberId) (m : Message) : Step (World υ) Verdict := do
  let (event, _) ← Step.read PresenceEvent.read m
  modify fun w => { w with users := w.users.insert self (event.apply (w.usersOf self)) }
  modify fun w => w.tell (hook event (w.usersOf self))
  match event with
  | .closed => return .close
  | _ => return .stay

def handler : Handler (World υ) (Program (World υ)) where
  onFrame self m := .react self (step hook self m)
  onError _ _ := .done

/-- Opens the stream for an application that looks at the users when it is told of an event.  Nobody is there yet. -/
def watch : Attempt TransportError (Session υ) PresenceStream := do
  let o ← OpenStream.subscribe levelNode PresenceEvent.streamName (handler hook)
  modify (·.changed fun w => { w with users := w.users.insert o.id [] })
  return ⟨o⟩

/-- Opens the stream for an application that is only told of the events. -/
def subscribe (hook : PresenceEvent → υ → υ) : Attempt TransportError (Session υ) PresenceStream :=
  watch fun event _ => hook event

variable (o : PresenceStream) (s : Session υ)

/-- The users, in the order of arrival. -/
def users : List User := s.world.usersOf o.id

/-- The first user with an id. -/
def user? (id : Int64) : Option User := (o.users s).find? fun u => u.id = id

end PresenceStream
end LevelLink
