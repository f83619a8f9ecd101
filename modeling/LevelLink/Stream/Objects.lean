import LevelLink.Stream.Basic

/-!
# The object stream

The stream that keeps the snapshots of all objects of a level up to date.  The application is told of a frame
after the snapshots have changed.

The stream is opened by `subscribe`, and `step` handles its messages.  `snapshot?`, `ids` and `size` look at what is known,
and `updateRequest` builds the message that updates an object.
-/

namespace LevelLink

/-- The open object stream. -/
structure ObjectStream extends OpenStream
  deriving DecidableEq, Repr

namespace ObjectStream

variable {υ : Type} (hook : ObjectEvent → υ → υ)

/-- Takes a frame. -/
def step (self : SubscriberId) (m : Message) : Step (World υ) Verdict := do
  let (table, event) := ((← get).objectsOf self).step m
  modify fun w => { w with objects := w.objects.insert self table }
  let event ← .lift event
  modify (·.tell (hook event))
  match event with
  | .closed => return .close
  | _ => return .stay

def handler : Handler (World υ) (Program (World υ)) where
  onFrame self m := .react self (step hook self m)
  onError _ e := .edit (·.tell (hook (.failed e))) .done

/-- Opens the stream.  No object is known yet. -/
def subscribe : Attempt TransportError (Session υ) ObjectStream := do
  let o ← OpenStream.subscribe levelNode ObjectRecord.streamName (handler hook)
  modify (·.changed fun w => { w with objects := w.objects.insert o.id ∅ })
  return ⟨o⟩

variable (o : ObjectStream) (s : Session υ)

/-- The snapshots of the stream. -/
def snapshots : Snapshots := s.world.objectsOf o.id

/-- The last body of an object. -/
def snapshot? (id : Int32) : Option Bytes := (o.snapshots s)[id]?

/-- The ids of all objects, in ascending order. -/
def ids : List Int32 := (o.snapshots s).keys

def size : Nat := (o.snapshots s).size

/-- The request to change an object. -/
def updateRequest (r : ObjectRecord) (custom : Bytes) : Except StreamError Message :=
  (o.snapshots s).updateRequest r custom

end ObjectStream
end LevelLink
