import LevelLink.Proofs.Link.Delivery
import LevelLink.Proofs.Link.Standing

/-!
# Dispatching to one listener

What a dispatch leaves of the registry, in terms of what the one listener of the subscriber has done while the
subscriber was out: a stream is put back, or it goes because it was removed or because its handler has failed, and a
request of which the first reply is of interest goes in any case.
-/

namespace LevelLink

namespace Registry

variable {ω : Type} {nested : Message → Registry ω → Nat × Registry ω} {id : SubscriberId} {m request : Message}
  {h : Handler ω (Program ω)} {r r' : Registry ω}

@[simp] theorem live_changed (r : Registry ω) (change : ω → ω) : (r.changed change).live = r.live := rfl

@[simp] theorem nextId_changed (r : Registry ω) (change : ω → ω) : (r.changed change).nextId = r.nextId := rfl

@[simp] theorem world_changed (r : Registry ω) (change : ω → ω) : (r.changed change).world = change r.world := rfl

/-! ### Adding and removing -/

/-- A number and the one after it are different. -/
theorem successor_ne (id : SubscriberId) : successor id ≠ id := by
  intro heq
  unfold successor at heq
  split at heq
  · next hmax =>
    subst hmax
    exact absurd heq (by decide)
  · exact absurd (Int32.add_eq_left.mp heq) (by decide)

/-- What an addition that is taken does. -/
theorem added_of_add {s : Subscriber ω} (hadd : r.add s = (.ok id, r')) :
    id = r.nextId ∧ r'.nextId = successor r.nextId ∧ r'.world = r.world ∧
      ∀ j, r'.live[j]? = if r.nextId = j then some { s with request := (s.request.withId r.nextId).prepare }
        else r.live[j]? := by
  obtain ⟨rfl, rfl⟩ := add_ok hadd
  exact ⟨rfl, rfl, rfl, fun j => getElem?_insert_ite ..⟩

/-- An addition does not remove whoever is out. -/
theorem outRemoved_add (r : Registry ω) (s : Subscriber ω) : (r.add s).2.outRemoved = r.outRemoved := by
  by_cases hroom : r.room = some 0
  · rw [add_of_full hroom]
  · rw [add_of_room hroom]

/-- As long as frames are taken without end, so are additions. -/
theorem room_ne_zero (hroom : r.room = none) : r.room ≠ some 0 := fun h => nomatch hroom.symm.trans h

theorem exists_add_of_room_none (hroom : r.room = none) (s : Subscriber ω) :
    ∃ r', r.add s = (.ok r.nextId, r') ∧ r'.room = none := by
  refine ⟨_, add_of_room (room_ne_zero hroom) s, ?_⟩
  rw [hroom]
  rfl

/-- Nobody is registered under a number that was removed, and all others are as before. -/
theorem getElem?_remove (r : Registry ω) (id j : SubscriberId) :
    (r.remove id).2.live[j]? = if id = j then none else r.live[j]? := by
  rcases r.remove_cases id with ⟨s, -, h⟩ | ⟨hnone, -, -, h⟩ | ⟨hnone, -, h⟩
  · rw [h]
    exact getElem?_erase_ite ..
  -- nobody was registered under the number
  all_goals
    rw [h]
    split
    · next heq => exact heq ▸ hnone
    · rfl

/-! ### While a subscriber is out -/

theorem getElem?_takeOut (r : Registry ω) (id j : SubscriberId) :
    (r.takeOut id).live[j]? = if id = j then none else r.live[j]? := getElem?_erase_ite ..

/-- A subscriber that is out is noted as removed. -/
theorem remove_of_out (hlive : r.live[id]? = none) (hout : r.out = some id) (hremoved : r.outRemoved = false) :
    r.remove id = (true, { r with outRemoved := true }) := by
  rw [remove, hlive]
  simp [hout, hremoved]

/-- The registry while a subscriber is out that has been removed. -/
def takeAway (r : Registry ω) (id : SubscriberId) : Registry ω := { r.takeOut id with outRemoved := true }

theorem remove_takeOut_self (r : Registry ω) (id : SubscriberId) : ((r.takeOut id).remove id).2 = r.takeAway id := by
  have hlive : (r.takeOut id).live[id]? = none := (r.getElem?_takeOut id id).trans (if_pos rfl)
  rw [remove_of_out hlive rfl rfl]
  rfl

/-- The registry after a dispatch, with nobody out. -/
def settled (r : Registry ω) : Registry ω := { r with out := none, outRemoved := false }

/-! ### Streams -/

section Stream

variable (hlive : r.live[m.id]? = some (.stream request h))
  (haccepts : (SubscriberOver.stream request h).accepts m = true) {depth : Nat}
include hlive haccepts

/-- A stream that has not been removed is put back. -/
theorem dispatch_of_back (hrun : runWith (dispatch depth) (h.onFrame m.id m) (r.takeOut m.id) = (none, r'))
    (hremoved : r'.outRemoved = false) :
    (dispatch (depth + 1) m r).2 = { r'.settled with live := r'.live.insert m.id (.stream request h) } := by
  have hlisten : listen (dispatch depth) m.id m (.stream request h) (r.takeOut m.id) = (.stream request h, r') := by
    simp only [listen, SubscriberOver.stream, hrun, callAll]
  rw [dispatch_of_accepts hlive haccepts, hlisten, r'.putBack_of_not_outRemoved hremoved]
  rfl

/-- A stream that has been removed goes. -/
theorem dispatch_of_gone (hrun : runWith (dispatch depth) (h.onFrame m.id m) (r.takeOut m.id) = (none, r'))
    (hremoved : r'.outRemoved = true) :
    (dispatch (depth + 1) m r).2 = { r'.settled with world := h.release m.id r'.world } := by
  have hlisten : listen (dispatch depth) m.id m (.stream request h) (r.takeOut m.id) = (.stream request h, r') := by
    simp only [listen, SubscriberOver.stream, hrun, callAll]
  rw [dispatch_of_accepts hlive haccepts, hlisten, r'.putBack_of_outRemoved hremoved]
  rfl

/-- A stream whose handler has failed goes, after its error listener has run. -/
theorem dispatch_of_failed {e : StreamError} {edit : ω → ω} (herror : h.onError m.id e = .edit edit .done)
    (hrun : runWith (dispatch depth) (h.onFrame m.id m) (r.takeOut m.id) = (some e, r'))
    (hout : r'.live[m.id]? = none ∧ r'.out = some m.id ∧ r'.outRemoved = false) :
    (dispatch (depth + 1) m r).2 = { r'.settled with world := h.release m.id (edit r'.world) } := by
  have hremove : (r'.changed edit).remove m.id = (true, { r'.changed edit with outRemoved := true }) :=
    remove_of_out hout.1 hout.2.1 hout.2.2
  have hlisten : listen (dispatch depth) m.id m (.stream request h) (r.takeOut m.id) =
      (.stream request h, { r'.changed edit with outRemoved := true }) := by
    simp only [listen, SubscriberOver.stream, hrun, herror, runWith, hremove]
  rw [dispatch_of_accepts hlive haccepts, hlisten, putBack_of_outRemoved _ rfl]
  rfl

end Stream

/-! ### Requests with one reply -/

/-- A request of which the first reply is of interest goes when it gets one. -/
theorem dispatch_once {run : SubscriberId → Message → Program ω} {failure : Option StreamError}
    (hlive : r.live[m.id]? = some (.once request run))
    (haccepts : (SubscriberOver.once request run : Subscriber ω).accepts m = true) {depth : Nat}
    (hrun : runWith (dispatch depth) (run m.id m) (r.takeAway m.id) = (failure, r')) (hremoved : r'.outRemoved = true) :
    (dispatch (depth + 1) m r).2 = r'.settled := by
  have hlisten : listen (dispatch depth) m.id m (.once request run) (r.takeOut m.id) =
      ({ SubscriberOver.once request run with callbacks := [.spent] }, r') := by
    simp only [listen, SubscriberOver.once, callAll, call, remove_takeOut_self, hrun]
  rw [dispatch_of_accepts hlive haccepts, hlisten, r'.putBack_of_outRemoved hremoved]
  rfl

end Registry
end LevelLink
