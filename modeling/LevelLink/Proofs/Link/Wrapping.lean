import Mathlib.Logic.Function.Iterate
import LevelLink.Proofs.Link.Dispatch

/-!
# Numbers that come again

The registry gives numbers in order, and begins with 0 again behind the greatest (`Registry.toInt_number`).  As many
numbers as there are can be given before one comes again (`Registry.number_inj`).  It does not look whether a number is
still in use: whoever is registered when it comes again is replaced.  So much of what is said of a registry is said for
numbers that nobody has (`Registry.FreeFor`).

A registry gets to this point by requests that are added and taken back at once; they use numbers up and leave everything
else as it is (`Registry.usedUp_spent`).
-/

namespace LevelLink.Registry

variable {ω : Type} {r r' : Registry ω} {i k n : Nat}

/-! ### Numbers to come -/

/-- The number that comes after `i` others. -/
def number (r : Registry ω) (i : Nat) : SubscriberId := successor^[i] r.nextId

theorem number_zero (r : Registry ω) : r.number 0 = r.nextId := rfl

theorem number_succ (r : Registry ω) (i : Nat) : r.number (i + 1) = successor (r.number i) :=
  Function.iterate_succ_apply' ..

theorem number_of_nextId (hnext : r'.nextId = successor r.nextId) (i : Nat) : r'.number i = r.number (i + 1) := by
  rw [number, number, hnext, Function.iterate_succ_apply]

theorem number_takeOut (r : Registry ω) (id : SubscriberId) (i : Nat) : (r.takeOut id).number i = r.number i := rfl

/-- Behind the greatest number comes 0. -/
theorem successor_of_le {id : SubscriberId} (h : numberLimit ≤ id.toInt) : successor id = 0 := by
  have hle := id.toInt_le
  rw [Int32.toInt_maxValue] at hle
  have hmax : id = Int32.maxValue := by
    apply Int32.toInt_inj.mp
    rw [Int32.toInt_maxValue]
    rw [numberLimit] at h
    omega
  rw [successor, if_pos hmax]

/-- Numbers rise to the greatest, and then from 0 on. -/
theorem toInt_number (h : i ≤ numberLimit + 1) : (r.number i).toInt =
    if r.nextId.toInt + i ≤ numberLimit then r.nextId.toInt + i else r.nextId.toInt + i - (numberLimit + 1) := by
  have hmax := r.nextId.toInt_le
  rw [Int32.toInt_maxValue] at hmax
  induction i with
  | zero =>
    rw [number_zero, numberLimit, if_pos (by omega)]
    omega
  | succ i ih =>
    have hi := ih (Nat.le_of_succ_le h)
    rw [number_succ]
    rw [numberLimit] at h hi
    rcases Int.lt_or_le (r.number i).toInt numberLimit with hlt | hge
    · rw [toInt_successor hlt]
      rw [numberLimit] at hlt ⊢
      split at hi
      all_goals
        split
        all_goals omega
    · rw [successor_of_le hge, Int32.toInt_zero]
      rw [numberLimit] at hge ⊢
      split at hi
      all_goals
        split
        all_goals omega

theorem number_inj (hi : i ≤ numberLimit) (hk : k ≤ numberLimit) (h : r.number i = r.number k) : i = k := by
  have heq := congrArg Int32.toInt h
  rw [toInt_number (Nat.le_succ_of_le hi), toInt_number (Nat.le_succ_of_le hk)] at heq
  rw [numberLimit] at hi hk heq
  split at heq
  all_goals
    split at heq
    all_goals omega

/-- The next `n` numbers are all different, and nobody is registered under any of them. -/
structure FreeFor (r : Registry ω) (n : Nat) : Prop where
  count : n ≤ numberLimit + 1
  live : ∀ i < n, r.live[r.number i]? = none

/-- No number has come again yet, and all that are registered have been given. -/
structure Early (r : Registry ω) : Prop where
  pos : 0 < r.nextId.toInt
  given : ∀ j sub, r.live[j]? = some sub → r.Given j

theorem early_of_empty (hpos : 0 < r.nextId.toInt) (hlive : r.live = ∅) : r.Early := by
  refine ⟨hpos, fun j sub hsub => ?_⟩
  rw [hlive] at hsub
  cases hsub

theorem Early.add (early : r.Early) (hnext : r.nextId.toInt < numberLimit) (s : Subscriber ω) : (r.add s).2.Early := by
  have hpos := early.pos
  have hgiven : ∀ j, r.Given j → 0 < j.toInt ∧ j.toInt < (successor r.nextId).toInt := by
    rintro j ⟨hlow, hhigh⟩
    rw [toInt_successor hnext]
    exact ⟨hlow, by omega⟩
  have hlast : 0 < (successor r.nextId).toInt := by
    rw [toInt_successor hnext]
    omega
  by_cases hroom : r.room = some 0
  · rw [add_of_full hroom]
    exact ⟨hlast, fun j sub hsub => hgiven j (early.given j sub hsub)⟩
  · rw [add_of_room hroom]
    refine ⟨hlast, fun j sub hsub => ?_⟩
    rw [getElem?_insert_ite] at hsub
    split at hsub
    · next hj =>
      subst hj
      refine ⟨hpos, ?_⟩
      show r.nextId.toInt < (successor r.nextId).toInt
      rw [toInt_successor hnext]
      omega
    · exact hgiven j (early.given j sub hsub)

theorem Early.changed (early : r.Early) {change : ω → ω} : (r.changed change).Early := ⟨early.pos, early.given⟩

/-- Before the first number that has been given comes again, all are free. -/
theorem Early.freeFor (early : r.Early) (hn : r.nextId.toInt + n ≤ numberLimit + 2) : r.FreeFor n := by
  have hpos := early.pos
  have hcount : n ≤ numberLimit + 1 := by omega
  refine ⟨hcount, fun i hi => ?_⟩
  rcases hlive : r.live[r.number i]? with _ | sub
  · rfl
  · obtain ⟨hlow, hhigh⟩ := early.given _ sub hlive
    rw [toInt_number (Nat.le_of_lt (Nat.lt_of_lt_of_le hi hcount))] at hlow hhigh
    split at hlow
    all_goals omega

/-- Those behind the next one are free after it, wherever that one is given. -/
theorem FreeFor.tail (h : r.FreeFor (n + 1)) (hnext : r'.nextId = successor r.nextId)
    (hlive : ∀ j, j ≠ r.nextId → r'.live[j]? = r.live[j]?) : r'.FreeFor n := by
  refine ⟨Nat.le_of_succ_le h.count, fun i hi => ?_⟩
  rw [number_of_nextId hnext, hlive _ fun heq => ?_]
  · exact h.live (i + 1) (Nat.succ_lt_succ hi)
  · have hcount := h.count
    exact Nat.succ_ne_zero i (number_inj (by omega) (Nat.zero_le _) heq)

/-! ### Using numbers up -/

/-- Adds a request and takes it back, `n` times. -/
def spend : (n : Nat) → Program ω
  | 0 => .done
  | n + 1 => .add (.once (.start "" "") fun _ _ => .done) fun
    | .ok id => .remove id fun _ => spend n
    | .error e => .fail (.transport e)

/-- The registry when `n` requests have been added and taken back. -/
def spent (n : Nat) (r : Registry ω) : Registry ω := r.after 0 (spend n)

/-- Nothing is different but the next number and what is queued for the peer. -/
structure UsedUp (n : Nat) (r r' : Registry ω) : Prop where
  nextId : r'.nextId = r.number n
  live : ∀ j : SubscriberId, r'.live[j]? = r.live[j]?
  out : r'.out = r.out
  outRemoved : r'.outRemoved = r.outRemoved
  room : r'.room = r.room
  inbox : r'.inbox = r.inbox
  world : r'.world = r.world

theorem UsedUp.trans {r₁ : Registry ω} (first : UsedUp 1 r r₁) (rest : UsedUp n r₁ r') : UsedUp (n + 1) r r' where
  nextId := rest.nextId.trans (number_of_nextId first.nextId n)
  live j := (rest.live j).trans (first.live j)
  out := rest.out.trans first.out
  outRemoved := rest.outRemoved.trans first.outRemoved
  room := rest.room.trans first.room
  inbox := rest.inbox.trans first.inbox
  world := rest.world.trans first.world

/-- A request that is added under a free number and taken back. -/
theorem usedUp_remove_add (hroom : r.room = none) (hnobody : r.live[r.nextId]? = none) {request : Message}
    {run : SubscriberId → Message → Program ω} :
    UsedUp 1 r ((r.add (.once request run)).2.remove r.nextId).2 := by
  have hadd := congrArg Prod.snd (add_of_room (room_ne_zero hroom) (.once request run))
  generalize (r.add (.once request run)).2 = r₁ at hadd
  have hlive : r₁.live[r.nextId]? = some (.once (request.withId r.nextId).prepare run) := by
    rw [hadd]
    exact Std.TreeMap.getElem?_insert_self
  have hgone (j : SubscriberId) : (r₁.remove r.nextId).2.live[j]? = r.live[j]? := by
    rw [getElem?_remove, hadd]
    split
    · next heq => rw [← heq, hnobody]
    · next hne => exact (getElem?_insert_ite ..).trans (if_neg hne)
  rw [remove, hlive] at hgone ⊢
  subst hadd
  exact ⟨rfl, hgone, rfl, rfl, by rw [hroom]; rfl, rfl, rfl⟩

theorem usedUp_runWith (nested : Message → Registry ω → Nat × Registry ω) (hroom : r.room = none) (hfree : r.FreeFor n) :
    UsedUp n r (runWith nested (spend n) r).2 := by
  induction n generalizing r with
  | zero => exact ⟨rfl, fun _ => rfl, rfl, rfl, rfl, rfl, rfl⟩
  | succ n ih =>
    have first : UsedUp 1 r ((r.add (.once (.start "" "") fun _ _ => .done)).2.remove r.nextId).2 :=
      usedUp_remove_add hroom (hfree.live 0 (Nat.succ_pos n))
    have hfree' := hfree.tail first.nextId fun j _ => first.live j
    rw [spend, runWith_add_of_room (room_ne_zero hroom)]
    exact first.trans (ih (first.room.trans hroom) hfree')

/-- Which number is next then. -/
theorem UsedUp.nextId_eq {id : SubscriberId} (used : UsedUp n r r') (hn : n ≤ numberLimit + 1)
    (hid : (if r.nextId.toInt + n ≤ numberLimit then r.nextId.toInt + n
      else r.nextId.toInt + n - (numberLimit + 1)) = id.toInt) : r'.nextId = id := by
  apply Int32.toInt_inj.mp
  rw [used.nextId, toInt_number hn, hid]

theorem usedUp_spent (hroom : r.room = none) (hfree : r.FreeFor n) : UsedUp n r (r.spent n) :=
  usedUp_runWith _ hroom hfree

end LevelLink.Registry
