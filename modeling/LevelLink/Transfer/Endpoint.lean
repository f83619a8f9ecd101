import LevelLink.Link.World

/-!
# Endpoints

What downloads and uploads have in common: the progress of the current transfer, and the request that starts
one.
-/

namespace LevelLink.Endpoint

variable {υ : Type} (e : Endpoint) (s : Session υ)

/-- The endpoint `node` and `name` of a session, with a transfer stream of its own. -/
def start (node name dir : String) (s : Session υ) : Endpoint × Session υ :=
  let (stream, s) := s.newService
  (⟨node, name, dir, stream⟩, s)

/-- How far the current or last transfer has come. -/
def progress : Progress := s.world.progressOf e.stream

/-- Whether a transfer is in progress. -/
def isBusy : Bool := (e.progress s).state.isActive

/-- The subscriber of the current or last transfer. -/
def latest? : Option SubscriberId := s.world.latest[e.stream]?

/-- Starts a transfer that stands at `p`, by sending its request.  It has failed if that cannot be sent.
Nothing is kept under the number of the new transfer yet. -/
def request (request : Message) (handler : Handler (World υ) (Program (World υ))) (p : Progress) :
    Step (Session υ) Bool := do
  modify (·.changed (·.setProgress e.stream p))
  let id ← tryCatch ((Registry.adding (.stream request handler)).mapError .transport) fun err => do
    modify (·.changed (·.setState e.stream .failed))
    throw err
  modify (·.changed fun w => { w with
    latest := w.latest.insert e.stream id
    fetches := w.fetches.erase id
    offers := w.offers.erase id })
  return true

end LevelLink.Endpoint
