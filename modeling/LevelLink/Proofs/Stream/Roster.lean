import LevelLink.Proofs.Level.History
import LevelLink.Proofs.Link.Delivery
import LevelLink.Stream.Presence

/-!
# The users of a presence stream

The list of users is a function of the events that have come since the stream was opened, and the application is told
of each event when the list is already that of the history with the event (`Follows`).  The end of the stream empties
the list; a frame that carries no event leaves it, and nobody is told of the frame.  Main statement: `users_of_frames`.
-/

namespace LevelLink
namespace PresenceStream

open PresenceEvent (roster roster_concat)

variable {υ : Type} {hook : PresenceEvent → List User → υ → υ} {o : PresenceStream} {s s₁ : Session υ} {app : υ}
  {history : List PresenceEvent} {m : Message}

/-! ### One frame -/

/-- What an event means for the stream. -/
def verdict : PresenceEvent → Verdict
  | .closed => .close
  | _ => .stay

theorem verdict_of_ne {e : PresenceEvent} (h : e ≠ .closed) : verdict e = .stay := by
  cases e
  case closed => exact absurd rfl h
  all_goals rfl

/-- The world after an event: the list has changed, and then the application has been told. -/
def taken (hook : PresenceEvent → List User → υ → υ) (self : SubscriberId) (e : PresenceEvent) (w : World υ) : World υ :=
  let users := e.apply (w.usersOf self)
  { w with users := w.users.insert self users, app := hook e users w.app }

theorem usersOf_insert (w : World υ) (self : SubscriberId) (users : List User) (app : υ) :
    World.usersOf { w with users := w.users.insert self users, app } self = users :=
  Std.TreeMap.getD_insert_self

theorem on_step {self : SubscriberId} {rest : Message} {e : PresenceEvent}
    (h : PresenceEvent.read.inStream m = .ok (e, rest)) (w : World υ) :
    (step hook self m).on w = (.ok (verdict e), taken hook self e w) := by
  have hread : (Step.read PresenceEvent.read m).on w = (.ok (e, rest), w) := by
    rw [Step.read, Attempt.on_lift, h]
  have htell := usersOf_insert w self (e.apply (w.usersOf self)) w.app
  rw [step, Attempt.on_bind_of_ok hread, Attempt.on_bind_of_ok (Attempt.on_modify _ _),
    Attempt.on_bind_of_ok (Attempt.on_modify _ _), World.tell, htell]
  cases e <;> rfl

theorem on_step_error {self : SubscriberId} {e : StreamError} (h : PresenceEvent.read.inStream m = .error e)
    (w : World υ) : (step hook self m).on w = (.error e, w) := by
  refine Attempt.on_bind_of_error ?_ _
  rw [Step.read, Attempt.on_lift, h]

/-! ### What has come of a stream -/

/-- The application after it has been told of these events, of each with the users that are there then.  The events of
`past` have come before them. -/
def told (hook : PresenceEvent → List User → υ → υ) (past : List PresenceEvent) : List PresenceEvent → υ → υ
  | [], app => app
  | e :: since, app => told hook (past ++ [e]) since (hook e (roster (past ++ [e])) app)

theorem told_concat (past since : List PresenceEvent) (e : PresenceEvent) (app : υ) :
    told hook past (since ++ [e]) app = hook e (roster (past ++ since ++ [e])) (told hook past since app) := by
  induction since generalizing past app with
  | nil => rw [List.append_nil]; rfl
  | cons e' since ih =>
    rw [List.cons_append, told, told, ih, List.append_assoc past [e'] since]
    rfl

/-- A stream that is open and has taken a history. -/
structure Follows (hook : PresenceEvent → List User → υ → υ) (o : PresenceStream) (app : υ)
    (history : List PresenceEvent) (s : Session υ) : Prop where
  hears : s.Hears levelNode PresenceEvent.streamName o.id (handler hook)
  users : o.users s = roster history
  told : s.world.app = told hook [] history app

/-- What has come of a stream that had taken a history when these payloads came.  The first of them is the last that the
stream takes. -/
inductive Outcome (hook : PresenceEvent → List User → υ → υ) (o : PresenceStream) (app : υ)
    (history : List PresenceEvent) : List Bytes → Session υ → Prop
  | goesOn {s : Session υ} (hopen : o.isOpen s = true) (husers : o.users s = roster history)
      (happ : s.world.app = told hook [] history app) : Outcome hook o app history [] s
  /-- The end is told when the list is empty. -/
  | ends {s : Session υ} {payload : Bytes} {rest : List Bytes} (hcarried : PresenceEvent.closed.CarriedBy payload)
      (hopen : o.isOpen s = false) (husers : o.users s = [])
      (happ : s.world.app = hook .closed [] (told hook [] history app)) : Outcome hook o app history (payload :: rest) s
  /-- Of a frame that carries no event nobody is told. -/
  | fails {s : Session υ} {payload : Bytes} {rest : List Bytes} (hnone : ∀ e : PresenceEvent, ¬ e.CarriedBy payload)
      (hopen : o.isOpen s = false) (husers : o.users s = roster history)
      (happ : s.world.app = told hook [] history app) : Outcome hook o app history (payload :: rest) s

theorem follows_of_watch (h : (watch hook).on s = (.ok o, s₁)) : Follows hook o s.world.app [] s₁ := by
  obtain ⟨stream, s₂, hsubscribe, h⟩ := Attempt.parts_of_on_bind_ok h
  rw [Attempt.on_bind_of_ok (Attempt.on_modify _ _)] at h
  obtain ⟨ho, rfl⟩ := Prod.mk.inj h
  obtain rfl := Except.ok.inj ho
  obtain ⟨hears, hworld⟩ := OpenStream.hears_of_subscribe hsubscribe
  refine ⟨hears, usersOf_insert s₂.world stream.id [] s₂.world.app, ?_⟩
  show s₂.world.app = s.world.app
  rw [hworld]

section Frame

variable (follows : Follows hook o app history s) (haddr : m.AddressedTo levelNode PresenceEvent.streamName o.id)
  (depth : Nat)
include follows haddr

/-- An event other than the end becomes the last one of the history. -/
theorem Follows.dispatch_carried {rest : Message} {e : PresenceEvent}
    (hread : PresenceEvent.read.inStream m = .ok (e, rest)) (hclosed : e ≠ .closed) :
    Follows hook o app (history ++ [e]) (Registry.dispatch (depth + 1) m s).2 := by
  obtain ⟨hsayable, -⟩ := PresenceEvent.read_iff.mp ⟨rest, hread⟩
  have hstep : (step hook o.id m).on s.world = (.ok .stay, taken hook o.id e s.world) :=
    verdict_of_ne hclosed ▸ on_step hread s.world
  obtain ⟨live, hdispatch, hears⟩ := follows.hears.dispatch_stay haddr rfl depth hstep
  have husers : e.apply (o.users s) = roster (history ++ [e]) := by
    rw [roster_concat hsayable hclosed, follows.users]
  rw [hdispatch]
  refine ⟨hears, ?_, ?_⟩
  · rw [← husers]
    exact usersOf_insert ..
  · rw [told_concat, List.nil_append, ← husers, ← follows.told]
    rfl

/-- The end is told when nobody is left. -/
theorem Follows.dispatch_closed {rest : Message} (hread : PresenceEvent.read.inStream m = .ok (.closed, rest))
    (later : List Bytes) : (Registry.dispatch (depth + 1) m s).2.live[o.id]? = none ∧
      Outcome hook o app history (m.unread :: later) (Registry.dispatch (depth + 1) m s).2 := by
  obtain ⟨live, hdispatch, hlive⟩ := follows.hears.dispatch_close haddr rfl depth (on_step hread s.world)
  rw [hdispatch]
  refine ⟨hlive, .ends (PresenceEvent.read_iff.mp ⟨rest, hread⟩) (s.contains_delivered _ hlive) ?_ ?_⟩
  · exact usersOf_insert ..
  · rw [← follows.told]
    rfl

/-- A frame that carries no event changes nothing but that the stream is over. -/
theorem Follows.dispatch_error {e : StreamError} (hread : PresenceEvent.read.inStream m = .error e)
    (later : List Bytes) : (Registry.dispatch (depth + 1) m s).2.live[o.id]? = none ∧
      Outcome hook o app history (m.unread :: later) (Registry.dispatch (depth + 1) m s).2 := by
  obtain ⟨live, hdispatch, hlive⟩ := follows.hears.dispatch_fail_silently haddr rfl depth
    (on_step_error hread s.world) rfl
  rw [hdispatch]
  refine ⟨hlive, .fails ?_ (s.contains_delivered _ hlive) follows.users follows.told⟩
  intro e' hcarried
  obtain ⟨rest, hread'⟩ := PresenceEvent.read_iff.mpr hcarried
  rw [hread] at hread'
  cases hread'

/-- A frame is taken and the stream goes on, or the stream is over. -/
theorem Follows.dispatch_cases :
    (∃ e, e ≠ .closed ∧ PresenceEvent.CarriedBy e m.unread ∧
      Follows hook o app (history ++ [e]) (Registry.dispatch (depth + 1) m s).2) ∨
    ∀ later, (Registry.dispatch (depth + 1) m s).2.live[o.id]? = none ∧
      Outcome hook o app history (m.unread :: later) (Registry.dispatch (depth + 1) m s).2 := by
  rcases hread : PresenceEvent.read.inStream m with e | ⟨e, rest⟩
  · exact .inr (follows.dispatch_error haddr depth hread)
  · by_cases hclosed : e = .closed
    · subst hclosed
      exact .inr (follows.dispatch_closed haddr depth hread)
    · exact .inl ⟨e, hclosed, PresenceEvent.read_iff.mp ⟨rest, hread⟩, follows.dispatch_carried haddr depth hread hclosed⟩

end Frame

/-! ### Many frames -/

theorem Follows.dispatchAll (follows : Follows hook o app history s) {ms : List Message}
    (haddr : ∀ m ∈ ms, m.AddressedTo levelNode PresenceEvent.streamName o.id) (depth : Nat) :
    ∃ front back events, ms.map Message.unread = front ++ back ∧
      List.Forall₂ PresenceEvent.CarriedBy events front ∧ .closed ∉ events ∧
      Outcome hook o app (history ++ events) back (s.dispatchAll (depth + 1) ms) := by
  induction ms generalizing history s with
  | nil =>
    refine ⟨[], [], [], rfl, .nil, by simp, ?_⟩
    rw [List.append_nil]
    exact .goesOn (Registry.contains_of_hears follows.hears) follows.users follows.told
  | cons m ms ih =>
    obtain ⟨hm, hms⟩ := List.forall_mem_cons.mp haddr
    rcases follows.dispatch_cases hm depth with ⟨e, hclosed, hcarried, follows'⟩ | hlast
    · obtain ⟨front, back, events, hpayloads, hfront, hevents, houtcome⟩ := ih follows' hms
      refine ⟨m.unread :: front, back, e :: events, ?_, .cons hcarried hfront, ?_, ?_⟩
      · rw [List.map_cons, hpayloads, List.cons_append]
      · rw [List.mem_cons, not_or]
        exact ⟨Ne.symm hclosed, hevents⟩
      · rw [List.append_assoc] at houtcome
        exact houtcome
    · -- nobody is there any more to take what comes later
      obtain ⟨hlive, houtcome⟩ := hlast (ms.map Message.unread)
      have hrest : s.dispatchAll (depth + 1) (m :: ms) = (Registry.dispatch (depth + 1) m s).2 :=
        Registry.dispatchAll_of_getElem?_eq_none hlive (fun m hm => (hms m hm).2.2) (depth + 1)
      refine ⟨[], (m :: ms).map Message.unread, [], rfl, .nil, by simp, ?_⟩
      rw [List.append_nil, hrest]
      exact houtcome

/-- Frames to a stream that has been opened.  Those in front each carry an event, and the first one that carries the end
or no event at all, if there is one, is the last that the stream takes.  Until then the stream is open, and the users are
those that the events leave; so they were, for the events up to then, whenever the application was told of one.  The end
empties the list; a frame that carries no event leaves it as it was. -/
theorem users_of_frames (h : (watch hook).on s = (.ok o, s₁)) {frames : List Bytes}
    (haddr : ∀ frame ∈ frames, ∃ m : Message, Message.ofFrame frame = .ok m ∧
      m.AddressedTo levelNode PresenceEvent.streamName o.id) (depth : Nat) :
    ∃ front back events, frames.map Message.payloadOf = front ++ back ∧
      List.Forall₂ PresenceEvent.CarriedBy events front ∧ .closed ∉ events ∧
      Outcome hook o s.world.app events back (s₁.receiveAll (depth + 1) frames) := by
  obtain ⟨ms, hall, hpayloads, hms⟩ := Registry.exists_dispatchAll_eq_receiveAll (depth + 1) haddr
  rw [hall, hpayloads]
  exact (follows_of_watch h).dispatchAll hms depth

section Sample

/-- A message to the first subscriber of a session. -/
def sampleMessage (payload : Bytes) : Message :=
  ((Message.start levelNode PresenceEvent.streamName).withId 1).write payload

/-- A history, then a frame that breaks off, and the end. -/
def samplePayloads : List Bytes :=
  PresenceEvent.sampleHistory.map PresenceEvent.payload ++ [[0, 0, 0, 0, 1], PresenceEvent.closed.payload]

/-- The frames of the payloads. -/
def sampleFrames : List Bytes := samplePayloads.map fun payload => (sampleMessage payload).frame

/-- Notes every event with the users that are there. -/
def noting (e : PresenceEvent) (users : List User) (notes : List (PresenceEvent × List User)) :
    List (PresenceEvent × List User) := notes ++ [(e, users)]

/-- A session in which a stream that notes all events has just been opened. -/
def sampleWatched : Session (List (PresenceEvent × List User)) := ((watch noting).on (Session.start [])).2

theorem addressedTo_sampleFrames : ∀ frame ∈ sampleFrames,
    ∃ m : Message, Message.ofFrame frame = .ok m ∧ m.AddressedTo levelNode PresenceEvent.streamName 1 := by
  have hlen : ∀ payload ∈ samplePayloads, (sampleMessage payload).body.length < Bytes.lengthLimit := by decide +kernel
  intro frame hframe
  obtain ⟨payload, hmem, rfl⟩ := List.mem_map.mp hframe
  exact ⟨_, Message.ofFrame_frame rfl (hlen payload hmem), rfl, rfl, rfl⟩

/-- The frame that breaks off is the last one that the stream takes. -/
theorem users_of_frames_samplePayloads :
    (watch noting).on (Session.start []) = (.ok ⟨⟨1⟩⟩, sampleWatched) ∧
    (∀ frame ∈ sampleFrames, ∃ m : Message, Message.ofFrame frame = .ok m ∧
      m.AddressedTo levelNode PresenceEvent.streamName 1) ∧
    ∃ front back events, sampleFrames.map Message.payloadOf = front ++ back ∧
      List.Forall₂ PresenceEvent.CarriedBy events front ∧ .closed ∉ events ∧
      Outcome noting ⟨⟨1⟩⟩ [] events back (sampleWatched.receiveAll 1 sampleFrames) := by
  have hwatch : (watch noting).on (Session.start []) = (.ok ⟨⟨1⟩⟩, sampleWatched) := rfl
  exact ⟨hwatch, addressedTo_sampleFrames, users_of_frames hwatch addressedTo_sampleFrames 0⟩

example : users ⟨⟨1⟩⟩ (sampleWatched.receiveAll 1 sampleFrames) = roster PresenceEvent.sampleHistory := by
  decide +kernel

end Sample

end PresenceStream
end LevelLink
