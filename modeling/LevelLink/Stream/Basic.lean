import LevelLink.Link.World

/-!
# Open streams

The handle of a stream that the peer keeps sending on.
-/

namespace LevelLink

/-- A stream that was opened under a number. -/
structure OpenStream where
  id : SubscriberId
  deriving DecidableEq, Repr

namespace OpenStream

variable {υ : Type} (o : OpenStream) (s : Session υ)

/-- Whether the stream still listens. -/
def isOpen : Bool := s.contains o.id

/-- Stops listening, and tells whether the stream was open.  What it has gathered is kept. -/
def close : Bool × Session υ := s.remove o.id

/-- Subscribes a handler to an endpoint without further fields. -/
def subscribe (node name : String) (handler : Handler (World υ) (Program (World υ))) :
    Attempt TransportError (Session υ) OpenStream := do
  return ⟨← Registry.adding (.stream (Message.start node name) handler)⟩

end OpenStream
end LevelLink
