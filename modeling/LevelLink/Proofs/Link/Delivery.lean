import LevelLink.Proofs.Wire.Reading
import LevelLink.Stream.Basic

/-!
# Delivery to a stream

What dispatching a message does when it is for a subscriber with a stream handler alone, whose handler tries
one step on the world: the subscriber stays, is removed because the stream is over, or is removed because the
step has failed and `onError` has run.  Nothing else in the registry changes.  A message that no subscriber has
the number of changes nothing at all.
-/

namespace LevelLink

/-- Whether a message is addressed to these names under this number. -/
def Message.AddressedTo (m : Message) (node name : String) (id : SubscriberId) : Prop :=
  m.node = node ∧ m.name = name ∧ m.id = id

namespace Registry

variable {ω : Type}

/-- The subscriber `id` listens to these names with a stream handler alone. -/
def Hears (r : Registry ω) (node name : String) (id : SubscriberId) (h : Handler ω (Program ω)) : Prop :=
  ∃ request : Message, request.node = node ∧ request.name = name ∧ r.live[id]? = some (.stream request h)

/-- The registry after a delivery that leaves these subscribers and this world. -/
def delivered (r : Registry ω) (live : Std.TreeMap SubscriberId (Subscriber ω)) (w : ω) : Registry ω :=
  { r with live, out := none, outRemoved := false, world := w }

theorem contains_delivered (r : Registry ω) {live : Std.TreeMap SubscriberId (Subscriber ω)} (w : ω)
    {id : SubscriberId} (h : live[id]? = none) : (r.delivered live w).contains id = false := by
  have hcontains : (r.delivered live w).contains id = live.contains id := by simp [contains, delivered]
  rw [hcontains, Std.TreeMap.contains_eq_isSome_getElem?, h]
  rfl

/-- Dispatches the message in a frame from the peer.  A frame that is no message is dropped. -/
def receive (depth : Nat) (r : Registry ω) (frame : Bytes) : Registry ω :=
  match Message.ofFrame frame with
  | .ok m => (dispatch depth m r).2
  | .error _ => r

/-- Takes frames from the peer in, one after the other. -/
def receiveAll (depth : Nat) (r : Registry ω) (frames : List Bytes) : Registry ω :=
  frames.foldl (receive depth) r

theorem receiveAll_nil (depth : Nat) (r : Registry ω) : r.receiveAll depth [] = r := rfl

theorem receiveAll_cons (depth : Nat) (r : Registry ω) (frame : Bytes) (frames : List Bytes) :
    r.receiveAll depth (frame :: frames) = (r.receive depth frame).receiveAll depth frames := rfl

theorem receiveAll_append (depth : Nat) (r : Registry ω) (front back : List Bytes) :
    r.receiveAll depth (front ++ back) = (r.receiveAll depth front).receiveAll depth back := List.foldl_append

theorem receiveAll_concat (depth : Nat) (r : Registry ω) (frames : List Bytes) (frame : Bytes) :
    r.receiveAll depth (frames ++ [frame]) = (r.receiveAll depth frames).receive depth frame := List.foldl_concat ..

theorem receive_of_ofFrame {frame : Bytes} {m : Message} (h : Message.ofFrame frame = .ok m) (depth : Nat)
    (r : Registry ω) : r.receive depth frame = (dispatch depth m r).2 := by
  rw [receive, h]

theorem contains_of_hears {r : Registry ω} {node name : String} {id : SubscriberId}
    {h : Handler ω (Program ω)} (hears : r.Hears node name id h) : r.contains id = true := by
  obtain ⟨request, -, -, hlive⟩ := hears
  have hin : id ∈ r.live := by
    rw [Std.TreeMap.mem_iff_isSome_getElem?, hlive]
    rfl
  rw [contains, Std.TreeMap.mem_iff_contains.mp hin, Bool.true_or]

/-- Nobody is registered under a number that does not count. -/
theorem getElem?_of_contains {r : Registry ω} {id : SubscriberId} (h : r.contains id = false) : r.live[id]? = none := by
  rw [contains, Bool.or_eq_false_iff, Std.TreeMap.contains_eq_isSome_getElem?, Option.isSome_eq_false_iff,
    Option.isNone_iff_eq_none] at h
  exact h.1

/-! ### Subscribing -/

/-- A request is taken as long as there is room for its frame. -/
theorem add_of_room {r : Registry ω} (h : r.room ≠ some 0) (s : Subscriber ω) :
    r.add s = (.ok r.nextId, { r with
      nextId := successor r.nextId
      live := r.live.insert r.nextId { s with request := (s.request.withId r.nextId).prepare }
      outbox := r.outbox.push (s.request.withId r.nextId).frame
      room := r.room.map (· - 1) }) := by
  rw [add, sendFrame]
  rcases hroom : r.room with _ | _ | n
  · rfl
  · exact absurd hroom h
  · rfl

/-- Whatever is requested when there is no room, its number is used up. -/
theorem add_of_full {r : Registry ω} (h : r.room = some 0) (s : Subscriber ω) :
    r.add s = (.error writerStopped, { r with nextId := successor r.nextId }) := by
  unfold add sendFrame
  simp only [h]

/-- A request that is taken makes a subscriber with the next number. -/
theorem add_ok {r r' : Registry ω} {s : Subscriber ω} {id : SubscriberId} (h : r.add s = (.ok id, r')) :
    id = r.nextId ∧
      r' = { r with
        nextId := successor r.nextId
        live := r.live.insert id { s with request := (s.request.withId id).prepare }
        outbox := r.outbox.push (s.request.withId id).frame
        room := r.room.map (· - 1) } := by
  by_cases hroom : r.room = some 0
  · rw [add_of_full hroom] at h
    cases h
  · rw [add_of_room hroom] at h
    cases h
    exact ⟨rfl, rfl⟩

/-- A request that cannot be sent uses its number up. -/
theorem add_error {r r' : Registry ω} {s : Subscriber ω} {e : TransportError} (h : r.add s = (.error e, r')) :
    r' = { r with nextId := successor r.nextId } := by
  by_cases hroom : r.room = some 0
  · rw [add_of_full hroom] at h
    cases h
    rfl
  · rw [add_of_room hroom] at h
    cases h

theorem hears_of_add {r r' : Registry ω} {request : Message} {handler : Handler ω (Program ω)}
    {id : SubscriberId} (h : r.add (.stream request handler) = (.ok id, r')) :
    r'.Hears request.node request.name id handler := by
  obtain ⟨-, rfl⟩ := add_ok h
  exact ⟨(request.withId id).prepare, rfl, rfl, Std.TreeMap.getElem?_insert_self⟩

/-! ### One step of a stream -/

variable {nested : Message → Registry ω → Nat × Registry ω} {self : SubscriberId} {step : Step ω Verdict}
  {r : Registry ω} {w : ω}

theorem runWith_react_stay (h : step.on r.world = (.ok .stay, w)) :
    runWith nested (.react self step) r = (none, r.changed fun _ => w) := by
  rw [Program.react, runWith, h]
  rfl

theorem runWith_react_close (h : step.on r.world = (.ok .close, w)) :
    runWith nested (.react self step) r = (none, ((r.changed fun _ => w).remove self).2) := by
  rw [Program.react, runWith, h]
  rfl

theorem runWith_react_error {e : StreamError} (h : step.on r.world = (.error e, w)) :
    runWith nested (.react self step) r = (some e, r.changed fun _ => w) := by
  rw [Program.react, runWith, h]
  rfl

/-- A listener that adds a request for which there is room goes on with the number of the request. -/
theorem runWith_add_of_room (h : r.room ≠ some 0) (s : Subscriber ω)
    (next : Except TransportError SubscriberId → Program ω) :
    runWith nested (.add s next) r = runWith nested (next (.ok r.nextId)) (r.add s).2 := by
  rw [runWith, add_of_room h]

/-- A subscriber that is out is noted as removed. -/
theorem remove_takeOut (r : Registry ω) (id : SubscriberId) (w : ω) :
    ((r.takeOut id).changed fun _ => w).remove id =
      (true, { (r.takeOut id).changed (fun _ => w) with outRemoved := true }) := by
  rw [remove]
  simp [changed, takeOut]

/-- A subscriber that is reached is out while its listeners run. -/
theorem dispatch_of_accepts {m : Message} {s : Subscriber ω} (hlive : r.live[m.id]? = some s)
    (haccepts : s.accepts m = true) (depth : Nat) :
    dispatch (depth + 1) m r =
      (1, (listen (dispatch depth) m.id m s (r.takeOut m.id)).2.putBack
        (listen (dispatch depth) m.id m s (r.takeOut m.id)).1 m.id) := by
  rw [dispatch, hlive]
  simp only [haccepts, if_true]

/-- A message with the number of a subscriber but with other names changes nothing. -/
theorem dispatch_of_not_accepts {m : Message} {s : Subscriber ω} (hlive : r.live[m.id]? = some s)
    (haccepts : s.accepts m = false) (depth : Nat) : dispatch depth m r = (0, r) := by
  cases depth with
  | zero => rfl
  | succ depth =>
    rw [dispatch, hlive]
    simp only [haccepts, Bool.false_eq_true, if_false]

section Dispatch

variable {m : Message} {request : Message} {h : Handler ω (Program ω)}
  (hlive : r.live[m.id]? = some (.stream request h)) (haddr : m.AddressedTo request.node request.name m.id)
  (hframe : h.onFrame m.id m = .react m.id step) (depth : Nat)
include hlive haddr

theorem dispatch_stream :
    dispatch (depth + 1) m r =
      (1, (listen (dispatch depth) m.id m (.stream request h) (r.takeOut m.id)).2.putBack
        (listen (dispatch depth) m.id m (.stream request h) (r.takeOut m.id)).1 m.id) := by
  refine dispatch_of_accepts hlive ?_ depth
  simp [SubscriberOver.accepts, SubscriberOver.stream, haddr.1, haddr.2.1]

include hframe

/-- A frame that is handled leaves the stream registered. -/
theorem dispatch_stay (hstep : step.on r.world = (.ok .stay, w)) :
    dispatch (depth + 1) m r =
      (1, r.delivered ((r.live.erase m.id).insert m.id (.stream request h)) w) := by
  have hrun : runWith (dispatch depth) (h.onFrame m.id m) (r.takeOut m.id) =
      (none, (r.takeOut m.id).changed fun _ => w) := hframe ▸ runWith_react_stay hstep
  rw [dispatch_stream hlive haddr, listen]
  simp only [SubscriberOver.stream, hrun, callAll]
  rfl

/-- A frame that ends the stream removes it. -/
theorem dispatch_close (hstep : step.on r.world = (.ok .close, w)) :
    dispatch (depth + 1) m r = (1, r.delivered (r.live.erase m.id) (h.release m.id w)) := by
  have hrun : runWith (dispatch depth) (h.onFrame m.id m) (r.takeOut m.id) =
      (none, (((r.takeOut m.id).changed fun _ => w).remove m.id).2) := hframe ▸ runWith_react_close hstep
  rw [dispatch_stream hlive haddr, listen]
  simp only [SubscriberOver.stream, hrun, callAll, remove_takeOut]
  rfl

/-- A frame that cannot be handled removes the stream, after `onError` has run. -/
theorem dispatch_fail_of_onError {e : StreamError} {w' : ω} (hstep : step.on r.world = (.error e, w))
    (herror : (runWith (dispatch depth) (h.onError m.id e) ((r.takeOut m.id).changed fun _ => w)).2 =
      (r.takeOut m.id).changed fun _ => w') :
    dispatch (depth + 1) m r = (1, r.delivered (r.live.erase m.id) (h.release m.id w')) := by
  have hrun : runWith (dispatch depth) (h.onFrame m.id m) (r.takeOut m.id) =
      (some e, (r.takeOut m.id).changed fun _ => w) := hframe ▸ runWith_react_error hstep
  rw [dispatch_stream hlive haddr, listen]
  simp only [SubscriberOver.stream, hrun, herror, remove_takeOut]
  rfl

/-- What `onError` changes in the world is changed. -/
theorem dispatch_fail {e : StreamError} {f : ω → ω} (hstep : step.on r.world = (.error e, w))
    (herror : h.onError m.id e = .edit f .done) :
    dispatch (depth + 1) m r = (1, r.delivered (r.live.erase m.id) (h.release m.id (f w))) := by
  refine dispatch_fail_of_onError hlive haddr hframe depth hstep ?_
  rw [herror]
  rfl

/-- If `onError` does nothing, the step is all that has changed the world. -/
theorem dispatch_fail_silently {e : StreamError} (hstep : step.on r.world = (.error e, w))
    (herror : h.onError m.id e = .done) :
    dispatch (depth + 1) m r = (1, r.delivered (r.live.erase m.id) (h.release m.id w)) := by
  refine dispatch_fail_of_onError hlive haddr hframe depth hstep ?_
  rw [herror]
  rfl

end Dispatch

namespace Hears

variable {m : Message} {node name : String} {h : Handler ω (Program ω)} (hears : r.Hears node name self h)
  (haddr : m.AddressedTo node name self) (hframe : h.onFrame self m = .react self step) (depth : Nat)
include hears haddr hframe

theorem dispatch_stay (hstep : step.on r.world = (.ok .stay, w)) :
    ∃ live, dispatch (depth + 1) m r = (1, r.delivered live w) ∧ (r.delivered live w).Hears node name self h := by
  obtain ⟨request, rfl, rfl, hlive⟩ := hears
  obtain ⟨hnode, hname, rfl⟩ := haddr
  exact ⟨_, Registry.dispatch_stay hlive ⟨hnode, hname, rfl⟩ hframe depth hstep,
    request, rfl, rfl, Std.TreeMap.getElem?_insert_self⟩

theorem dispatch_close (hstep : step.on r.world = (.ok .close, w)) :
    ∃ live, dispatch (depth + 1) m r = (1, r.delivered live (h.release self w)) ∧ live[self]? = none := by
  obtain ⟨request, rfl, rfl, hlive⟩ := hears
  obtain ⟨hnode, hname, rfl⟩ := haddr
  exact ⟨_, Registry.dispatch_close hlive ⟨hnode, hname, rfl⟩ hframe depth hstep,
    Std.TreeMap.getElem?_erase_self⟩

theorem dispatch_fail {e : StreamError} {f : ω → ω} (hstep : step.on r.world = (.error e, w))
    (herror : h.onError self e = .edit f .done) :
    ∃ live, dispatch (depth + 1) m r = (1, r.delivered live (h.release self (f w))) ∧ live[self]? = none := by
  obtain ⟨request, rfl, rfl, hlive⟩ := hears
  obtain ⟨hnode, hname, rfl⟩ := haddr
  exact ⟨_, Registry.dispatch_fail hlive ⟨hnode, hname, rfl⟩ hframe depth hstep herror,
    Std.TreeMap.getElem?_erase_self⟩

theorem dispatch_fail_silently {e : StreamError} (hstep : step.on r.world = (.error e, w))
    (herror : h.onError self e = .done) :
    ∃ live, dispatch (depth + 1) m r = (1, r.delivered live (h.release self w)) ∧ live[self]? = none := by
  obtain ⟨request, rfl, rfl, hlive⟩ := hears
  obtain ⟨hnode, hname, rfl⟩ := haddr
  exact ⟨_, Registry.dispatch_fail_silently hlive ⟨hnode, hname, rfl⟩ hframe depth hstep herror,
    Std.TreeMap.getElem?_erase_self⟩

/-- Nobody else comes or goes. -/
theorem getElem?_dispatch_of_ne (herror : ∀ e, ∃ f, h.onError self e = .edit f .done) {other : SubscriberId}
    (hother : other ≠ self) : (dispatch (depth + 1) m r).2.live[other]? = r.live[other]? := by
  obtain ⟨request, rfl, rfl, hlive⟩ := hears
  obtain ⟨hnode, hname, rfl⟩ := haddr
  have hne : ¬ compare m.id other = .eq := fun heq => hother (Std.LawfulEqCmp.eq_of_compare heq).symm
  rcases hstep : step.on r.world with ⟨e | _ | _, w⟩
  · obtain ⟨f, hf⟩ := herror e
    rw [Registry.dispatch_fail hlive ⟨hnode, hname, rfl⟩ hframe depth hstep hf, delivered, Std.TreeMap.getElem?_erase,
      if_neg hne]
  · rw [Registry.dispatch_stay hlive ⟨hnode, hname, rfl⟩ hframe depth hstep, delivered, Std.TreeMap.getElem?_insert,
      if_neg hne, Std.TreeMap.getElem?_erase, if_neg hne]
  · rw [Registry.dispatch_close hlive ⟨hnode, hname, rfl⟩ hframe depth hstep, delivered, Std.TreeMap.getElem?_erase,
      if_neg hne]

end Hears

/-- A message with the number of a subscriber but with other names changes nothing. -/
theorem Hears.dispatch_of_not_addressedTo {m : Message} {node name : String} {h : Handler ω (Program ω)}
    (hears : r.Hears node name self h) (hid : m.id = self) (haddr : ¬ m.AddressedTo node name self) (depth : Nat) :
    dispatch depth m r = (0, r) := by
  obtain ⟨request, rfl, rfl, hlive⟩ := hears
  subst hid
  have haccepts : (SubscriberOver.stream request h).accepts m = false := by
    refine Bool.eq_false_iff.mpr fun haccepts => haddr ?_
    simp only [SubscriberOver.accepts, SubscriberOver.stream, Bool.and_eq_true, beq_iff_eq] at haccepts
    exact ⟨haccepts.1.symm, haccepts.2.symm, rfl⟩
  exact dispatch_of_not_accepts hlive haccepts depth

/-- A message that no subscriber has the number of changes nothing. -/
theorem dispatch_of_getElem?_eq_none {m : Message} (h : r.live[m.id]? = none) (depth : Nat) :
    dispatch depth m r = (0, r) := by
  cases depth with
  | zero => rfl
  | succ depth => rw [dispatch, h]

/-! ### Many messages -/

/-- Dispatches messages one after the other. -/
def dispatchAll (depth : Nat) (r : Registry ω) (ms : List Message) : Registry ω :=
  ms.foldl (fun r m => (dispatch depth m r).2) r

theorem dispatchAll_append (depth : Nat) (r : Registry ω) (front back : List Message) :
    r.dispatchAll depth (front ++ back) = (r.dispatchAll depth front).dispatchAll depth back := List.foldl_append

/-- Messages with a number that no subscriber has change nothing. -/
theorem dispatchAll_of_getElem?_eq_none {id : SubscriberId} {ms : List Message} (h : r.live[id]? = none)
    (hid : ∀ m ∈ ms, m.id = id) (depth : Nat) : r.dispatchAll depth ms = r := by
  induction ms with
  | nil => rfl
  | cons m ms ih =>
    have hnone : r.live[m.id]? = none := hid m List.mem_cons_self ▸ h
    rw [dispatchAll, List.foldl_cons, dispatch_of_getElem?_eq_none hnone]
    exact ih fun m hm => hid m (List.mem_cons_of_mem _ hm)

/-- Frames that are messages are taken in by dispatching these. -/
theorem exists_dispatchAll_eq_receiveAll {P : Message → Prop} (depth : Nat) {frames : List Bytes}
    (h : ∀ frame ∈ frames, ∃ m : Message, Message.ofFrame frame = .ok m ∧ P m) :
    ∃ ms : List Message, (∀ r : Registry ω, r.receiveAll depth frames = r.dispatchAll depth ms) ∧
      frames.map Message.payloadOf = ms.map Message.unread ∧ ∀ m ∈ ms, P m := by
  induction frames with
  | nil => exact ⟨[], fun _ => rfl, rfl, nofun⟩
  | cons frame frames ih =>
    obtain ⟨m, hm, hP⟩ := h frame List.mem_cons_self
    obtain ⟨ms, hall, hpayloads, hPs⟩ := ih fun frame hframe => h frame (List.mem_cons_of_mem _ hframe)
    refine ⟨m :: ms, ?_, ?_, List.forall_mem_cons.mpr ⟨hP, hPs⟩⟩
    · intro r
      rw [receiveAll_cons, receive_of_ofFrame hm]
      exact hall _
    · rw [List.map_cons, List.map_cons, hpayloads, Message.payloadOf_eq hm]

end Registry

/-- Opening a stream changes nothing in the world. -/
theorem OpenStream.hears_of_subscribe {υ : Type} {node name : String} {h : Handler (World υ) (Program (World υ))}
    {s s₁ : Session υ} {o : OpenStream} (hopen : (OpenStream.subscribe node name h).on s = (.ok o, s₁)) :
    s₁.Hears node name o.id h ∧ s₁.world = s.world := by
  obtain ⟨id, s₂, hadd, hpure⟩ := Attempt.parts_of_on_bind_ok hopen
  obtain ⟨ho, rfl⟩ := Prod.mk.inj hpure
  obtain rfl := Except.ok.inj ho
  refine ⟨Registry.hears_of_add hadd, ?_⟩
  obtain ⟨-, rfl⟩ := Registry.add_ok hadd
  rfl

end LevelLink
