import LevelLink.Attempt
import LevelLink.Link.Error

/-!
# What listeners do

A listener is run for a frame and may use the registry while it runs.  A `Program` is such a run: a finite
tree in which each node asks the registry, or the world `ω` around it, for one thing and goes on with the
answer.  Listeners keep what they have to remember in the world.

A subscriber is a request with the listeners for its replies: a stream handler, which runs first and can
fail, and callbacks, which run after it in order.

A listener is given the number of its subscriber and the message, and its program is what it does with the registry then:
the context of a delivery.  The state that a handler owns is released with it (`Handler.release`).
-/

namespace LevelLink

/-! ### Steps -/

/-- An attempt that fails as a stream does. -/
abbrev Step := Attempt StreamError

namespace Step

variable {ω α : Type}

/-- Reads from a message. -/
def read (r : Reader α) (m : Message) : Step ω (α × Message) := .lift (r.inStream m)

end Step

/-- What a frame that was handled means for its stream. -/
inductive Verdict where
  | stay
  /-- The stream is over. -/
  | close
  deriving DecidableEq, Repr

/-! ### Listeners and programs -/

/-- The number that a request and the replies to it carry. -/
abbrev SubscriberId := Int32

/-- The name of a subscriber in messages. -/
def SubscriberId.label (id : SubscriberId) : String := s!"sub-{id}"

/-- The listener of a stream.  `π` is what a listener does. -/
structure Handler (ω π : Type) where
  /-- Runs for every frame, before the callbacks. -/
  onFrame : SubscriberId → Message → π
  /-- Runs once when `onFrame` has failed; the stream is then removed. -/
  onError : SubscriberId → StreamError → π
  /-- What becomes of the world when the subscriber is let go. -/
  release : SubscriberId → ω → ω := fun _ w => w

/-- A further listener of a subscriber. -/
inductive Callback (π : Type) where
  /-- Runs for every frame. -/
  | each (run : SubscriberId → Message → π)
  /-- Removes the subscriber, and then runs. -/
  | once (run : SubscriberId → Message → π)
  /-- Has run once, and only removes the subscriber. -/
  | spent

/-- A request and the listeners for its replies. -/
structure SubscriberOver (ω π : Type) where
  request : Message
  handler : Option (Handler ω π) := none
  callbacks : List (Callback π) := []

/-- What a listener does. -/
inductive Program (ω : Type) where
  | done
  /-- Fails; the failure of a stream handler ends its stream. -/
  | fail (error : StreamError)
  | look (next : ω → Program ω)
  | edit (change : ω → ω) (next : Program ω)
  | add (subscriber : SubscriberOver ω (Program ω)) (next : Except TransportError SubscriberId → Program ω)
  | remove (id : SubscriberId) (next : Bool → Program ω)
  | contains (id : SubscriberId) (next : Bool → Program ω)
  | size (next : Nat → Program ω)
  /-- Sends a message that expects no reply. -/
  | send (message : Message) (next : Except TransportError Unit → Program ω)
  /-- Queues a message as if it had arrived. -/
  | post (message : Message) (next : Program ω)
  /-- Dispatches a message at once and goes on with the number of subscribers that got it. -/
  | dispatch (message : Message) (next : Nat → Program ω)

/-- A request and the listeners for its replies. -/
abbrev Subscriber (ω : Type) := SubscriberOver ω (Program ω)

namespace Program

variable {ω : Type}

/-- Induction along a run. -/
@[induction_eliminator]
theorem induct {motive : Program ω → Prop} (done : motive .done) (fail : ∀ e, motive (.fail e))
    (look : ∀ next, (∀ w, motive (next w)) → motive (.look next))
    (edit : ∀ change next, motive next → motive (.edit change next))
    (add : ∀ subscriber next, (∀ a, motive (next a)) → motive (.add subscriber next))
    (remove : ∀ id next, (∀ a, motive (next a)) → motive (.remove id next))
    (contains : ∀ id next, (∀ a, motive (next a)) → motive (.contains id next))
    (size : ∀ next, (∀ a, motive (next a)) → motive (.size next))
    (send : ∀ message next, (∀ a, motive (next a)) → motive (.send message next))
    (post : ∀ message next, motive next → motive (.post message next))
    (dispatch : ∀ message next, (∀ a, motive (next a)) → motive (.dispatch message next)) :
    ∀ p, motive p
  | .done => done
  | .fail e => fail e
  | .look next => look next fun w =>
    induct done fail look edit add remove contains size send post dispatch (next w)
  | .edit change next => edit change next
    (induct done fail look edit add remove contains size send post dispatch next)
  | .add subscriber next => add subscriber next fun a =>
    induct done fail look edit add remove contains size send post dispatch (next a)
  | .remove id next => remove id next fun a =>
    induct done fail look edit add remove contains size send post dispatch (next a)
  | .contains id next => contains id next fun a =>
    induct done fail look edit add remove contains size send post dispatch (next a)
  | .size next => size next fun a =>
    induct done fail look edit add remove contains size send post dispatch (next a)
  | .send message next => send message next fun a =>
    induct done fail look edit add remove contains size send post dispatch (next a)
  | .post message next => post message next
    (induct done fail look edit add remove contains size send post dispatch next)
  | .dispatch message next => dispatch message next fun a =>
    induct done fail look edit add remove contains size send post dispatch (next a)

/-- A run that tries to change the world at once, and closes the subscriber `self` if the verdict is so. -/
def react (self : SubscriberId) (step : Step ω Verdict) : Program ω :=
  .look fun w =>
    let (verdict, changed) := step.on w
    .edit (fun _ => changed) <|
      match verdict with
      | .ok .stay => .done
      | .ok .close => .remove self fun _ => .done
      | .error e => .fail e

end Program

namespace SubscriberOver

variable {ω π : Type}

/-- A request of which the first reply is of interest. -/
def once (request : Message) (run : SubscriberId → Message → π) : SubscriberOver ω π :=
  { request, callbacks := [.once run] }

/-- A stream with its handler. -/
def stream (request : Message) (handler : Handler ω π) : SubscriberOver ω π :=
  { request, handler := some handler }

/-- Whether the names of a message are those of the request. -/
def accepts (s : SubscriberOver ω π) (m : Message) : Bool :=
  s.request.node == m.node && s.request.name == m.name

/-- The world after the subscriber is let go. -/
def release (s : SubscriberOver ω π) (id : SubscriberId) (w : ω) : ω :=
  match s.handler with
  | some h => h.release id w
  | none => w

end SubscriberOver
end LevelLink
