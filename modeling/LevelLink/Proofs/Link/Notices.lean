import LevelLink.Proofs.Link.Wrapping

/-!
# Requests whose replies are of no interest

Such requests, added one after the other, take the numbers that follow, and each waits for its first reply under its own if
these are free (`Registry.noticed_addNotices`).  The first reply, whatever it says, takes away the request that it is
for and does nothing else, and the next ones find nobody (`Registry.dispatch_notice`).  So replies in any order take away
exactly the requests that they are for (`Registry.dispatchAll_notices`).
-/

namespace LevelLink.Registry

variable {ω : Type} {r r' : Registry ω} {q : Message} {requests : List Message} {i k : Nat} {j : SubscriberId}

/-- A request whose reply is of no interest. -/
def notice (request : Message) : Subscriber ω := .once request fun _ _ => .done

/-! ### Adding requests -/

/-- Adds requests one after the other. -/
def addNotices (r : Registry ω) (requests : List Message) : Registry ω :=
  requests.foldl (fun r q => (r.add (notice q)).2) r

/-- There is room for `n` requests. -/
def RoomFor (r : Registry ω) (n : Nat) : Prop := ∀ left, r.room = some left → n ≤ left

theorem RoomFor.of_none (h : r.room = none) (n : Nat) : r.RoomFor n := fun _ heq => nomatch h.symm.trans heq

theorem RoomFor.ne_zero {n : Nat} (h : r.RoomFor (n + 1)) : r.room ≠ some 0 := fun heq =>
  Nat.not_succ_le_zero n (h 0 heq)

/-- An addition that is taken. -/
theorem add_eq_of_room (h : r.room ≠ some 0) (s : Subscriber ω) : r.add s = (.ok r.nextId, (r.add s).2) := by
  rw [add_of_room h s]

theorem RoomFor.tail {n : Nat} (h : r.RoomFor (n + 1)) (s : Subscriber ω) : (r.add s).2.RoomFor n := by
  rw [add_of_room h.ne_zero]
  intro left hleft
  obtain ⟨before, hbefore, rfl⟩ := Option.map_eq_some_iff.mp hleft
  exact Nat.le_sub_one_of_lt (h before hbefore)

/-- The requests are sent under the numbers that follow. -/
theorem outbox_addNotices (hroom : r.RoomFor requests.length) : (r.addNotices requests).outbox.toList =
    r.outbox.toList ++ requests.mapIdx fun i q => (q.withId (r.number i)).frame := by
  induction requests generalizing r with
  | nil => exact (List.append_nil _).symm
  | cons q requests ih =>
    have hsent : (r.add (notice q)).2.outbox.toList = r.outbox.toList ++ [(q.withId r.nextId).frame] := by
      rw [add_of_room hroom.ne_zero]
      exact Array.toList_push
    obtain ⟨-, hnext, -, -⟩ := added_of_add (add_eq_of_room hroom.ne_zero (notice q))
    refine (ih (hroom.tail _)).trans ?_
    simp only [hsent, List.mapIdx_cons, List.append_assoc, number_of_nextId hnext]
    rfl

/-- The requests wait for their replies under the numbers that follow, and nobody else has come or gone. -/
structure Noticed (requests : List Message) (r r' : Registry ω) : Prop where
  waits : ∀ i q, requests[i]? = some q → r'.live[r.number i]? = some (notice (q.withId (r.number i)).prepare)
  others : ∀ j, (∀ i < requests.length, j ≠ r.number i) → r'.live[j]? = r.live[j]?
  size : r'.live.size = r.live.size + requests.length

theorem size_insert_of_none {s : Subscriber ω} (h : r.live[j]? = none) : (r.live.insert j s).size = r.live.size + 1 := by
  have hgone : r.live.contains j = false := by
    rw [Std.TreeMap.contains_eq_isSome_getElem?, h]
    rfl
  rw [Std.TreeMap.size_insert, hgone]
  rfl

theorem size_takeOut {s : Subscriber ω} (h : r.live[j]? = some s) : (r.takeOut j).live.size + 1 = r.live.size := by
  have hthere : r.live.contains j = true := by
    rw [Std.TreeMap.contains_eq_isSome_getElem?, h]
    rfl
  have hpos : 0 < r.live.size := Nat.pos_of_ne_zero (beq_eq_false_iff_ne.mp
    (Std.TreeMap.isEmpty_eq_size_eq_zero.symm.trans (Std.TreeMap.isEmpty_eq_false_of_contains hthere)))
  have hsize : (r.takeOut j).live.size = r.live.size - 1 := Std.TreeMap.size_erase.trans (if_pos hthere)
  omega

/-- One request. -/
theorem noticed_add (hnobody : r.live[r.nextId]? = none) (hroom : r.room ≠ some 0) (q : Message) :
    Noticed [q] r (r.add (notice q)).2 := by
  rw [add_of_room hroom]
  refine ⟨?_, ?_, ?_⟩
  · intro i q' hq'
    obtain ⟨hi, rfl⟩ := List.getElem?_eq_some_iff.mp hq'
    obtain rfl : i = 0 := Nat.lt_one_iff.mp hi
    rw [number_zero]
    exact Std.TreeMap.getElem?_insert_self
  · intro j hj
    have hne := hj 0 Nat.one_pos
    rw [number_zero] at hne
    exact (getElem?_insert_ite ..).trans (if_neg hne.symm)
  · exact size_insert_of_none hnobody

/-- A request and those behind it. -/
theorem Noticed.cons {r₁ : Registry ω} (first : Noticed [q] r r₁) (rest : Noticed requests r₁ r')
    (hnext : r₁.nextId = successor r.nextId) (hcount : (q :: requests).length ≤ numberLimit + 1) :
    Noticed (q :: requests) r r' := by
  rw [List.length_cons] at hcount
  have hnumber := number_of_nextId hnext
  have hfirst (i : Nat) (hi : i < requests.length) : r.number 0 ≠ r.number (i + 1) := fun heq =>
    absurd (number_inj (Nat.zero_le _) (by omega) heq) (Nat.succ_ne_zero i).symm
  refine ⟨?_, ?_, ?_⟩
  · intro i q' hq'
    cases i with
    | zero =>
      rw [rest.others _ fun i hi => hnumber i ▸ hfirst i hi]
      exact first.waits 0 q' hq'
    | succ i =>
      rw [← hnumber]
      exact rest.waits i q' hq'
  · intro j hj
    rw [rest.others j fun i hi => hnumber i ▸ hj (i + 1) (Nat.succ_lt_succ hi)]
    refine first.others j fun i hi => ?_
    obtain rfl : i = 0 := Nat.lt_one_iff.mp hi
    exact hj 0 (Nat.succ_pos _)
  · rw [rest.size, first.size, List.length_singleton, List.length_cons]
    omega

theorem noticed_addNotices (hfree : r.FreeFor requests.length) (hroom : r.RoomFor requests.length) :
    Noticed requests r (r.addNotices requests) := by
  induction requests generalizing r with
  | nil => exact ⟨(fun _ _ h => nomatch h), fun _ _ => rfl, rfl⟩
  | cons q requests ih =>
    obtain ⟨-, hnext, -, hlive⟩ := added_of_add (add_eq_of_room hroom.ne_zero (notice q))
    have hnobody : r.live[r.nextId]? = none := hfree.live 0 (Nat.succ_pos _)
    have hrest : (r.add (notice q)).2.FreeFor requests.length :=
      hfree.tail hnext fun j hj => (hlive j).trans (if_neg hj.symm)
    exact (noticed_add hnobody hroom.ne_zero q).cons (ih hrest (hroom.tail _)) hnext hfree.count

/-- Requests do not remove whoever is out. -/
theorem outRemoved_addNotices (r : Registry ω) (requests : List Message) :
    (r.addNotices requests).outRemoved = r.outRemoved := by
  induction requests generalizing r with
  | nil => rfl
  | cons q requests ih => exact (ih _).trans (outRemoved_add r (notice q))

section Dispatching

variable {request : Message} {h : Handler ω (Program ω)} {change : ω → ω} {r₁ : Registry ω} {depth : Nat}
variable (hlive : r.live[q.id]? = some (.stream request h))
  (haccepts : (SubscriberOver.stream request h).accepts q = true)
  (hrun : runWith (dispatch depth) (h.onFrame q.id q) (r.takeOut q.id) = (none, r₁))
  (hadds : r₁ = ((r.takeOut q.id).changed change).addNotices requests)
include hlive haccepts hrun hadds

/-- A stream that takes a frame by adding requests is put back, over whoever has got its number. -/
theorem dispatch_addNotices :
    (dispatch (depth + 1) q r).2 = { r₁.settled with live := r₁.live.insert q.id (.stream request h) } :=
  dispatch_of_back hlive haccepts hrun (hadds ▸ outRemoved_addNotices ..)

theorem out_dispatch : (dispatch (depth + 1) q r).2.out = none := by
  rw [dispatch_addNotices hlive haccepts hrun hadds]
  rfl

theorem outbox_dispatch (hroom : r.RoomFor requests.length) : (dispatch (depth + 1) q r).2.outbox.toList =
    r.outbox.toList ++ requests.mapIdx fun i q => (q.withId (r.number i)).frame := by
  rw [dispatch_addNotices hlive haccepts hrun hadds, hadds]
  exact outbox_addNotices (r := (r.takeOut q.id).changed change) hroom

/-- If the numbers of the requests are free, these wait, and nobody else has come or gone. -/
theorem noticed_dispatch (hfree : r.FreeFor requests.length) (hroom : r.RoomFor requests.length) :
    Noticed requests r (dispatch (depth + 1) q r).2 := by
  have hfree' : ((r.takeOut q.id).changed change).FreeFor requests.length := by
    refine ⟨hfree.count, fun i hi => ?_⟩
    rw [live_changed, getElem?_takeOut]
    split
    · rfl
    · exact hfree.live i hi
  have noticed := noticed_addNotices hfree' (show ((r.takeOut q.id).changed change).RoomFor _ from hroom)
  rw [← hadds] at noticed
  rw [dispatch_addNotices hlive haccepts hrun hadds]
  have hne (i : Nat) (hi : i < requests.length) : q.id ≠ r.number i := by
    intro heq
    cases hlive.symm.trans ((congrArg (r.live[·]?) heq).trans (hfree.live i hi))
  refine ⟨fun i q' hq' => ?_, fun j hj => ?_, ?_⟩
  · obtain ⟨hi, -⟩ := List.getElem?_eq_some_iff.mp hq'
    exact (getElem?_insert_ite ..).trans ((if_neg (hne i hi)).trans (noticed.waits i q' hq'))
  · refine (getElem?_insert_ite ..).trans ?_
    split
    · next heq => rw [← heq, hlive]
    · next hne =>
      rw [noticed.others j hj, live_changed, getElem?_takeOut, if_neg hne]
  · have hgone : r₁.live[q.id]? = none := by
      rw [noticed.others q.id fun i hi => hne i hi, live_changed, getElem?_takeOut, if_pos rfl]
    refine (size_insert_of_none hgone).trans ?_
    rw [noticed.size, live_changed, ← size_takeOut hlive]
    omega

/-- If one of the numbers is the stream's own and all others are free, the stream is put back over the request that has
got it. -/
theorem size_dispatch_of_own (hfree : (r.takeOut q.id).FreeFor requests.length) (hroom : r.RoomFor requests.length)
    {i : Nat} (hi : i < requests.length) (hown : r.number i = q.id) :
    (dispatch (depth + 1) q r).2.live[q.id]? = some (.stream request h) ∧
      (dispatch (depth + 1) q r).2.live.size + 1 = r.live.size + requests.length := by
  have noticed := noticed_addNotices (r := (r.takeOut q.id).changed change) ⟨hfree.count, hfree.live⟩ hroom
  rw [← hadds] at noticed
  rw [dispatch_addNotices hlive haccepts hrun hadds]
  refine ⟨Std.TreeMap.getElem?_insert_self, ?_⟩
  have hthere : r₁.live.contains q.id = true := by
    have hwaits := noticed.waits i _ (List.getElem?_eq_getElem hi)
    rw [show ((r.takeOut q.id).changed change).number i = q.id from hown] at hwaits
    rw [Std.TreeMap.contains_eq_isSome_getElem?, hwaits]
    rfl
  have hsize : (r₁.live.insert q.id (.stream request h)).size = r₁.live.size :=
    Std.TreeMap.size_insert.trans (if_pos hthere)
  show (r₁.live.insert q.id _).size + 1 = _
  rw [hsize, noticed.size, live_changed, ← size_takeOut hlive]
  omega

end Dispatching

/-! ### Replies -/

/-- The requests that the messages are for have gone, and nothing else has changed. -/
structure Answered (replies : List Message) (r r' : Registry ω) : Prop where
  gone : ∀ m ∈ replies, r'.live[m.id]? = none
  others : ∀ j, (∀ m ∈ replies, m.id ≠ j) → r'.live[j]? = r.live[j]?
  outbox : r'.outbox = r.outbox
  world : r'.world = r.world
  out : r.out = none → r'.out = none

/-- The message is for a request whose reply is of no interest, or for nobody. -/
def Answers (r : Registry ω) (m : Message) : Prop :=
  r.live[m.id]? = none ∨ ∃ request, r.live[m.id]? = some (notice request) ∧
    (notice request : Subscriber ω).accepts m = true

variable {m : Message} {replies : List Message} {r₁ : Registry ω}

/-- The first reply takes its request away, whatever it says, and the next ones find nobody. -/
theorem dispatch_notice (h : r.Answers m) (depth : Nat) : Answered [m] r (dispatch (depth + 1) m r).2 := by
  rcases h with hnone | ⟨request, hlive, haccepts⟩
  · rw [dispatch_of_getElem?_eq_none hnone]
    exact ⟨List.forall_mem_singleton.mpr hnone, fun _ _ => rfl, rfl, rfl, id⟩
  · have hgone : (dispatch (depth + 1) m r).2 = (r.takeAway m.id).settled := dispatch_once hlive haccepts rfl rfl
    rw [hgone]
    refine ⟨List.forall_mem_singleton.mpr ?_, fun j hj => ?_, rfl, rfl, fun _ => rfl⟩
    · exact (r.getElem?_takeOut m.id m.id).trans (if_pos rfl)
    · exact (r.getElem?_takeOut m.id j).trans (if_neg (hj m List.mem_cons_self))

theorem Answered.cons (first : Answered [m] r r₁) (rest : Answered replies r₁ r') : Answered (m :: replies) r r' := by
  refine ⟨List.forall_mem_cons.mpr ⟨?_, rest.gone⟩, fun j hj => ?_, rest.outbox.trans first.outbox,
    rest.world.trans first.world, rest.out ∘ first.out⟩
  · by_cases hagain : ∃ m' ∈ replies, m'.id = m.id
    · obtain ⟨m', hm', hid⟩ := hagain
      exact hid ▸ rest.gone m' hm'
    · rw [rest.others m.id fun m' hm' hid => hagain ⟨m', hm', hid⟩]
      exact first.gone m List.mem_cons_self
  · obtain ⟨hm, hreplies⟩ := List.forall_mem_cons.mp hj
    rw [rest.others j hreplies]
    exact first.others j (List.forall_mem_singleton.mpr hm)

/-- Replies take away the requests that they are for, in whatever order they come. -/
theorem dispatchAll_notices (h : ∀ m ∈ replies, r.Answers m) (depth : Nat) :
    Answered replies r (r.dispatchAll (depth + 1) replies) := by
  induction replies generalizing r with
  | nil => exact ⟨fun _ hm => (List.not_mem_nil hm).elim, fun _ _ => rfl, rfl, rfl, id⟩
  | cons m replies ih =>
    obtain ⟨hm, hreplies⟩ := List.forall_mem_cons.mp h
    have first := dispatch_notice hm depth
    refine first.cons (ih fun m' hm' => ?_)
    by_cases hid : m.id = m'.id
    · exact .inl (hid ▸ first.gone m List.mem_cons_self)
    · rw [Answers, first.others m'.id (List.forall_mem_singleton.mpr hid)]
      exact hreplies m' hm'

/-! ### Requests and their replies -/

/-- A message with the names and the number of a request that waits is its reply. -/
theorem Noticed.answers (noticed : Noticed requests r r') (hq : requests[i]? = some q)
    (hm : m.AddressedTo q.node q.name (r.number i)) : r'.Answers m := by
  obtain ⟨hnode, hname, hid⟩ := hm
  refine .inr ⟨_, hid ▸ noticed.waits i q hq, ?_⟩
  simp [SubscriberOver.accepts, notice, SubscriberOver.once, Message.withId, Message.prepare, hnode, hname]

/-- When every request has got a reply, those are registered that were before. -/
theorem Noticed.settled {r'' : Registry ω} (noticed : Noticed requests r r') (answered : Answered replies r' r'')
    (hfree : r.FreeFor requests.length) (honly : ∀ m ∈ replies, ∃ i < requests.length, m.id = r.number i)
    (hall : ∀ i < requests.length, ∃ m ∈ replies, m.id = r.number i) : r''.live.toList = r.live.toList := by
  refine toList_eq_of_getElem?_eq fun j => ?_
  by_cases hj : ∃ i < requests.length, j = r.number i
  · obtain ⟨i, hi, rfl⟩ := hj
    obtain ⟨m, hm, hid⟩ := hall i hi
    rw [← hid, answered.gone m hm, hid, hfree.live i hi]
  · rw [answered.others j, noticed.others j fun i hi heq => hj ⟨i, hi, heq⟩]
    rintro m hm rfl
    exact hj (honly m hm)

end LevelLink.Registry
