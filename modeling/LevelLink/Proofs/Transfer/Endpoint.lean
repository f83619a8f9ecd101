import LevelLink.Proofs.Attempts
import LevelLink.Proofs.Link.Delivery
import LevelLink.Proofs.Tables
import LevelLink.Transfer.Endpoint

/-!
# A transfer that has been requested

After a request that was taken, the handler listens under the number of the transfer, the progress is the one that
was given, and nothing is kept under the number.
-/

namespace LevelLink

/-- A name is refused, or it is joined to the directory. -/
theorem Transfer.resolve_cases (dir name : String) :
    (∃ e, Transfer.resolve dir name = .error (.io e)) ∨
      Transfer.resolve dir name = .ok (Files.Path.join dir name) := by
  rw [resolve]
  split
  · exact .inr rfl
  · exact .inl ⟨_, rfl⟩

theorem Transfer.resolve_ok {dir name path : String} (h : Transfer.resolve dir name = .ok path) :
    path = Files.Path.join dir name := by
  rcases resolve_cases dir name with ⟨e, hresolve⟩ | hresolve
  all_goals
    rw [hresolve] at h
    cases h
  rfl

namespace Endpoint

variable {υ : Type} {e : Endpoint} {request : Message} {handler : Handler (World υ) (Program (World υ))}
  {p : Progress} {s s₁ : Session υ} {b : Bool}

/-- Whether a transfer is in progress depends on its state. -/
theorem isBusy_of_progress (h : e.progress s = p) : e.isBusy s = p.state.isActive := by
  rw [isBusy, h]

/-- The session after a request that was taken. -/
structure Requested (e : Endpoint) (request : Message) (handler : Handler (World υ) (Program (World υ)))
    (p : Progress) (id : SubscriberId) (s s₁ : Session υ) : Prop where
  latest : e.latest? s₁ = some id
  hears : s₁.Hears request.node request.name id handler
  progress : s₁.world.progressOf e.stream = p
  fetch : s₁.world.fetches[id]? = none
  offer : s₁.world.offers[id]? = none
  files : s₁.world.files = s.world.files
  app : s₁.world.app = s.world.app
  jobs : s₁.world.jobs = s.world.jobs
  inbox : s₁.inbox = s.inbox
  outbox : s₁.outbox = s.outbox.push (request.withId id).frame

/-- What comes of a request is what comes of registering its subscriber. -/
theorem on_request_of_ok {id : SubscriberId} {s₂ : Session υ}
    (h : (s.changed (·.setProgress e.stream p)).add (.stream request handler) = (.ok id, s₂)) :
    (e.request request handler p).on s = (.ok true, s₂.changed fun w => { w with
      latest := w.latest.insert e.stream id
      fetches := w.fetches.erase id
      offers := w.offers.erase id }) := by
  have hadding : ((Registry.adding (.stream request handler)).mapError .transport : Step (Session υ) SubscriberId).on
      (s.changed (·.setProgress e.stream p)) = (.ok id, s₂) := by
    rw [Registry.adding, Attempt.on_mapError, Attempt.on_of, h]
    rfl
  rw [Endpoint.request, Attempt.on_bind_of_ok (Attempt.on_modify _ s),
    Attempt.on_bind_of_ok (Attempt.on_tryCatch_of_ok hadding _), Attempt.on_bind_of_ok (Attempt.on_modify _ s₂),
    Attempt.on_pure]

theorem on_request_of_error {err : TransportError} {s₂ : Session υ}
    (h : (s.changed (·.setProgress e.stream p)).add (.stream request handler) = (.error err, s₂)) :
    (e.request request handler p).on s = (.error (.transport err), s₂.changed (·.setState e.stream .failed)) := by
  have hadding : ((Registry.adding (.stream request handler)).mapError .transport : Step (Session υ) SubscriberId).on
      (s.changed (·.setProgress e.stream p)) = (.error (.transport err), s₂) := by
    rw [Registry.adding, Attempt.on_mapError, Attempt.on_of, h]
    rfl
  rw [Endpoint.request, Attempt.on_bind_of_ok (Attempt.on_modify _ s)]
  refine Attempt.on_bind_of_error ?_ _
  rw [Attempt.on_tryCatch_of_error hadding, Attempt.on_bind_of_ok (Attempt.on_modify _ s₂), Attempt.on_throw]

/-- A request is taken, and nobody else comes or goes, or it fails. -/
theorem request_cases (e : Endpoint) (request : Message) (handler : Handler (World υ) (Program (World υ)))
    (p : Progress) (s : Session υ) :
    (∃ id s₁, (e.request request handler p).on s = (.ok true, s₁) ∧ e.Requested request handler p id s s₁ ∧
      ∀ other, other ≠ id → s₁.live[other]? = s.live[other]?) ∨
    ∃ err s₁, (e.request request handler p).on s = (.error (.transport err), s₁) ∧
      e.progress s₁ = { p with state := .failed } ∧ s₁.live = s.live ∧ s₁.world.app = s.world.app := by
  rcases hadd : (s.changed (·.setProgress e.stream p)).add (.stream request handler) with ⟨err | id, s₂⟩
  · right
    obtain rfl := Registry.add_error hadd
    refine ⟨_, _, on_request_of_error hadd, ?_, rfl, rfl⟩
    show ((s.world.setProgress e.stream p).setState e.stream .failed).progressOf e.stream = _
    simp only [World.setState, World.setProgress, World.progressOf, Std.TreeMap.getD_insert_self]
  · left
    have hears := Registry.hears_of_add hadd
    obtain ⟨rfl, rfl⟩ := Registry.add_ok hadd
    refine ⟨_, _, on_request_of_ok hadd, ⟨Std.TreeMap.getElem?_insert_self, hears, Std.TreeMap.getD_insert_self,
      Std.TreeMap.getElem?_erase_self, Std.TreeMap.getElem?_erase_self, rfl, rfl, rfl, rfl, rfl⟩, ?_⟩
    intro other hother
    exact (getElem?_insert_ite ..).trans (if_neg fun h => hother h.symm)

theorem requested_of_request (h : (e.request request handler p).on s = (.ok b, s₁)) :
    ∃ id, e.Requested request handler p id s s₁ := by
  rcases request_cases e request handler p s with ⟨id, s₂, htaken, requested, -⟩ | ⟨err, s₂, hfailed, -⟩
  · obtain ⟨-, rfl⟩ := Prod.mk.inj (htaken.symm.trans h)
    exact ⟨id, requested⟩
  · rw [hfailed] at h
    cases h

end Endpoint
end LevelLink
