import LevelLink.Proofs.Link.Delivery
import LevelLink.Proofs.Link.Log
import LevelLink.Proofs.Tables

/-!
# Where a subscriber stands

Every number stands somewhere in a moment of a run: nobody has it yet, its subscriber is registered, or out, or
gone.  A subscriber that is out is `noted` while the registry's one place for this holds it, `dismissed` when it has
been removed since, and `lost` once a listener has dispatched to another: the place then holds the other one, and
is empty afterwards.  A lost subscriber cannot be removed, and the removal of a dismissed one that gets lost is
forgotten.

`Standing.next` says how an event moves a standing.  `Path.stands` says that every run moves every number this way,
as long as the numbers do not wrap around (`Path.sound`).
-/

namespace LevelLink

/-! ### What the operations of the registry do -/

namespace Registry

/-- As many numbers can be given before one is given again. -/
def numberLimit : Nat := 2147483647

variable {ω : Type} (r : Registry ω)

theorem toInt_successor {id : SubscriberId} (h : id.toInt < numberLimit) :
    (successor id).toInt = id.toInt + 1 := by
  have hne : id ≠ Int32.maxValue := by
    rintro rfl
    rw [Int32.toInt_maxValue] at h
    simp [numberLimit] at h
  have hle := id.le_toInt
  have hlt : id.toInt < 2147483647 := h
  unfold successor
  rw [if_neg hne, Int32.toInt_add, Int32.toInt_one]
  apply Int.bmod_eq_of_le <;> omega

/-- What a removal does: it takes a registered subscriber out, or notes that the one that is out has been removed,
or does nothing. -/
theorem remove_cases (id : SubscriberId) :
    (∃ s, r.live[id]? = some s ∧
      r.remove id = (true, { r with live := r.live.erase id, world := s.release id r.world })) ∨
    (r.live[id]? = none ∧ r.out = some id ∧ r.outRemoved = false ∧
      r.remove id = (true, { r with outRemoved := true })) ∨
    (r.live[id]? = none ∧ (r.out = some id → r.outRemoved = true) ∧ r.remove id = (false, r)) := by
  unfold remove
  rcases hlive : r.live[id]? with _ | s
  · by_cases hout : r.out = some id ∧ r.outRemoved = false
    · exact .inr (.inl ⟨rfl, hout.1, hout.2, by simp [hout.1, hout.2]⟩)
    · refine .inr (.inr ⟨rfl, by simpa using hout, ?_⟩)
      have hcond : (r.out == some id && !r.outRemoved) = false := by simpa using hout
      simp [hcond]
  · exact .inl ⟨s, rfl, rfl⟩

/-- A removal tells whether the subscriber was there. -/
theorem fst_remove (id : SubscriberId) : (r.remove id).1 = r.contains id := by
  unfold contains
  rw [Std.TreeMap.contains_eq_isSome_getElem?]
  rcases r.remove_cases id with ⟨s, hlive, h⟩ | ⟨hlive, hout, hremoved, h⟩ | ⟨hlive, hout, h⟩
  · simp [h, hlive]
  · simp [h, hlive, hout, hremoved]
  · simpa [h, hlive] using hout

/-- A subscriber that was removed while it was out is not put back. -/
theorem putBack_of_outRemoved (h : r.outRemoved = true) (s : Subscriber ω) (id : SubscriberId) :
    r.putBack s id = { r with out := none, outRemoved := false, world := s.release id r.world } := by
  simp [putBack, h]

theorem putBack_of_not_outRemoved (h : r.outRemoved = false) (s : Subscriber ω) (id : SubscriberId) :
    r.putBack s id = { r with out := none, outRemoved := false, live := r.live.insert id s } := by
  simp [putBack, h]

/-- The number has been given. -/
def Given (k : SubscriberId) : Prop := 0 < k.toInt ∧ k.toInt < r.nextId.toInt

end Registry

/-! ### Sound moments -/

namespace Moment

open Registry (Given numberLimit)

variable {ω : Type} {limit : Nat}

/-- What holds in every moment of a run until the numbers wrap around. -/
structure Sound (σ : Moment ω) : Prop where
  nextId_pos : 0 < σ.registry.nextId.toInt
  /-- Subscribers are kept under the numbers of their requests. -/
  live : ∀ k s, σ.registry.live[k]? = some s → σ.registry.Given k ∧ s.request.id = k
  visits : ∀ v ∈ σ.visits, σ.registry.Given v.id ∧ v.request.id = v.id ∧ σ.registry.live[v.id]? = none
  /-- Nobody is out twice. -/
  nodup : (σ.visits.map Visit.id).Nodup
  /-- If somebody is noted as out, it is the one that went out last. -/
  out : ∀ k, σ.registry.out = some k → (σ.visits.map Visit.id).head? = some k
  outRemoved : σ.registry.out = none → σ.registry.outRemoved = false

namespace Sound

variable {r r' : Registry ω} {visits : List Visit} {busy busy' : Bool}

/-- The queues, the world and whether a listener is running do not matter. -/
theorem congr (h : Sound ⟨r, visits, busy⟩) (same : r.SameSubscribers r') :
    Sound ⟨r', visits, busy'⟩ := by
  obtain ⟨hlive, hnext, hout, hremoved⟩ := same
  obtain ⟨h1, h2, h3, h4, h5, h6⟩ := h
  simp only [Given] at h1 h2 h3 h5 h6
  constructor <;> simp only [Given, hlive, hnext, hout, hremoved]
  · exact h1
  · exact h2
  · exact h3
  · exact h4
  · exact h5
  · exact h6

theorem add (h : Sound ⟨r, visits, busy⟩) (s : Subscriber ω) (hnext : r.nextId.toInt < numberLimit) :
    Sound ⟨(r.add s).2, visits, busy⟩ ∧ (r.add s).2.nextId.toInt = r.nextId.toInt + 1 := by
  have hsucc := Registry.toInt_successor hnext
  have hgiven : ∀ k, r.Given k → 0 < k.toInt ∧ k.toInt < r.nextId.toInt + 1 := by
    rintro k ⟨h1, h2⟩
    exact ⟨h1, by omega⟩
  have hpos := h.nextId_pos
  rcases hadd : r.add s with ⟨e | id, r'⟩
  · obtain rfl := Registry.add_error hadd
    refine ⟨⟨?_, ?_, ?_, h.nodup, h.out, h.outRemoved⟩, hsucc⟩
    · simp only [hsucc]
      simp only at hpos
      omega
    · intro k s hs
      obtain ⟨hk, hid⟩ := h.live k s hs
      exact ⟨by simpa only [Given, hsucc] using hgiven k hk, hid⟩
    · intro v hv
      obtain ⟨hk, hid, hlive⟩ := h.visits v hv
      exact ⟨by simpa only [Given, hsucc] using hgiven v.id hk, hid, hlive⟩
  · obtain ⟨rfl, rfl⟩ := Registry.add_ok hadd
    refine ⟨⟨?_, ?_, ?_, h.nodup, h.out, h.outRemoved⟩, hsucc⟩
    · simp only [hsucc]
      simp only at hpos
      omega
    · intro k s' hs
      simp only [getElem?_insert_ite] at hs
      simp only [Given, hsucc]
      split at hs
      · next hk =>
        subst hk
        obtain rfl := Option.some.inj hs
        simp only at hpos
        exact ⟨⟨hpos, by omega⟩, rfl⟩
      · obtain ⟨hk, hid⟩ := h.live k s' hs
        exact ⟨hgiven k hk, hid⟩
    · intro v hv
      obtain ⟨hk, hid, hlive⟩ := h.visits v hv
      have hne : r.nextId ≠ v.id := by
        intro heq
        have hlt : v.id.toInt < r.nextId.toInt := hk.2
        rw [heq] at hlt
        omega
      simp only [Given, hsucc, getElem?_insert_ite, if_neg hne]
      exact ⟨hgiven v.id hk, hid, hlive⟩

theorem remove (h : Sound ⟨r, visits, busy⟩) (id : SubscriberId) : Sound ⟨(r.remove id).2, visits, busy⟩ := by
  rcases r.remove_cases id with ⟨s, -, hr⟩ | ⟨-, hout, -, hr⟩ | ⟨-, -, hr⟩
  · rw [hr]
    refine ⟨h.nextId_pos, ?_, ?_, h.nodup, h.out, h.outRemoved⟩
    · intro k s hs
      simp only [getElem?_erase_ite] at hs
      split at hs
      · cases hs
      · exact h.live k s hs
    · intro v hv
      obtain ⟨hk, hid, hlive⟩ := h.visits v hv
      refine ⟨hk, hid, ?_⟩
      simp only [getElem?_erase_ite]
      split
      · rfl
      · exact hlive
  · rw [hr]
    refine ⟨h.nextId_pos, h.live, h.visits, h.nodup, h.out, ?_⟩
    intro hnone
    rw [hout] at hnone
    cases hnone
  · rw [hr]
    exact h

theorem reach {m : Message} {s : Subscriber ω} (h : Sound ⟨r, visits, busy⟩) (hlive : r.live[m.id]? = some s) :
    Sound ⟨r.takeOut m.id, ⟨m.id, s.request⟩ :: visits, busy'⟩ := by
  obtain ⟨hk, hid⟩ := h.live m.id s hlive
  have hfresh : ∀ v ∈ visits, m.id ≠ v.id := by
    intro v hv heq
    obtain ⟨-, -, hnone⟩ := h.visits v hv
    rw [← heq] at hnone
    simp only [hlive] at hnone
    cases hnone
  refine ⟨h.nextId_pos, ?_, ?_, ?_, ?_, ?_⟩
  · intro k s' hs
    simp only [Registry.takeOut, getElem?_erase_ite] at hs
    split at hs
    · cases hs
    · exact h.live k s' hs
  · intro v hv
    simp only [Registry.takeOut, getElem?_erase_ite]
    rcases List.mem_cons.mp hv with rfl | hv
    · exact ⟨hk, hid, if_pos rfl⟩
    · obtain ⟨hk', hid', hlive'⟩ := h.visits v hv
      rw [if_neg (hfresh v hv)]
      exact ⟨hk', hid', hlive'⟩
  · refine List.nodup_cons.mpr ⟨?_, h.nodup⟩
    intro hmem
    obtain ⟨v, hv, heq⟩ := List.mem_map.mp hmem
    exact hfresh v hv heq.symm
  · rintro k ⟨⟩
    rfl
  · rintro ⟨⟩

theorem finish {v : Visit} {s : Subscriber ω} (h : Sound ⟨r, v :: visits, busy⟩)
    (hrequest : s.request = v.request) : Sound ⟨r.putBack s v.id, visits, busy'⟩ := by
  obtain ⟨hk, hid, hlive⟩ := h.visits v List.mem_cons_self
  obtain ⟨hfresh, hnodup⟩ := List.nodup_cons.mp h.nodup
  rcases hremoved : r.outRemoved with _ | _
  · rw [r.putBack_of_not_outRemoved hremoved]
    refine ⟨h.nextId_pos, ?_, ?_, hnodup, nofun, fun _ => rfl⟩
    · intro k s' hs
      simp only [getElem?_insert_ite] at hs
      split at hs
      · next heq =>
        subst heq
        obtain rfl := Option.some.inj hs
        exact ⟨hk, hrequest ▸ hid⟩
      · exact h.live k s' hs
    · intro w hw
      obtain ⟨hk', hid', hlive'⟩ := h.visits w (List.mem_cons_of_mem _ hw)
      have hne : v.id ≠ w.id := fun heq => hfresh (List.mem_map.mpr ⟨w, hw, heq.symm⟩)
      refine ⟨hk', hid', ?_⟩
      simp only [getElem?_insert_ite, if_neg hne]
      exact hlive'
  · rw [r.putBack_of_outRemoved hremoved]
    exact ⟨h.nextId_pos, h.live, fun w hw => h.visits w (List.mem_cons_of_mem _ hw), hnodup, nofun, fun _ => rfl⟩

end Sound

/-- A step keeps a moment sound while there are numbers to give. -/
theorem Step.sound {σ τ : Moment ω} {e : Event ω} (step : Step limit σ e τ) (h : σ.Sound)
    (hnext : σ.registry.nextId.toInt + e.isAdd.toNat ≤ numberLimit) :
    τ.Sound ∧ τ.registry.nextId.toInt = σ.registry.nextId.toInt + e.isAdd.toNat := by
  cases step with
  | quiet he same =>
    have hadd : e.isAdd = false := by
      cases e <;> first | rfl | exact he.elim
    simp only [hadd, same.nextId]
    exact ⟨h.congr same, by simp⟩
  | add r visits busy s =>
    simp only [Event.isAdd, Bool.toNat_true] at hnext ⊢
    exact h.add s (by omega)
  | remove r visits busy id failure =>
    refine ⟨h.remove id, ?_⟩
    rcases r.remove_cases id with ⟨s, -, hr⟩ | ⟨-, -, -, hr⟩ | ⟨-, -, hr⟩ <;> simp [hr, Event.isAdd]
  | miss => exact ⟨h, by simp [Event.isAdd]⟩
  | reach hlive => exact ⟨h.reach hlive, by simp [Event.isAdd, Registry.takeOut]⟩
  | enter r v visits => exact ⟨h.congr ⟨rfl, rfl, rfl, rfl⟩, by simp [Event.isAdd]⟩
  | leave r v visits => exact ⟨h.congr ⟨rfl, rfl, rfl, rfl⟩, by simp [Event.isAdd]⟩
  | @finish r v visits s hrequest =>
    refine ⟨h.finish hrequest, ?_⟩
    rcases hremoved : r.outRemoved with _ | _
    · simp [r.putBack_of_not_outRemoved hremoved, Event.isAdd]
    · simp [r.putBack_of_outRemoved hremoved, Event.isAdd]

/-- The moment is sound, and there are numbers for what is to come. -/
def Ready (σ : Moment ω) (log : Log ω) : Prop :=
  σ.Sound ∧ σ.registry.nextId.toInt + log.additions ≤ numberLimit

theorem Ready.front {σ : Moment ω} {front back : Log ω} (h : σ.Ready (front ++ back)) : σ.Ready front := by
  refine ⟨h.1, ?_⟩
  have hnext := h.2
  rw [Log.additions_append] at hnext
  omega

theorem Step.ready {σ τ : Moment ω} {e : Event ω} {r : Registry ω} {log : Log ω} (step : Step limit σ e τ)
    (h : σ.Ready (⟨e, r⟩ :: log)) : τ.Ready log := by
  obtain ⟨hsound, hnext⟩ := h
  rw [Log.additions_cons] at hnext
  dsimp only at hnext
  obtain ⟨hτ, hstep⟩ := step.sound hsound (by omega)
  exact ⟨hτ, by omega⟩

/-- A number is used up by every addition. -/
theorem Step.nextId_eq {σ τ : Moment ω} {e : Event ω} {r : Registry ω} {log : Log ω} (step : Step limit σ e τ)
    (h : σ.Ready (⟨e, r⟩ :: log)) :
    τ.registry.nextId.toInt = σ.registry.nextId.toInt + e.isAdd.toNat := by
  obtain ⟨hsound, hnext⟩ := h
  rw [Log.additions_cons] at hnext
  dsimp only at hnext
  exact (step.sound hsound (by omega)).2

/-- Every moment of a run is sound if the run does not use the numbers up. -/
theorem Path.ready {σ τ : Moment ω} {front back : Log ω} (path : Path limit σ front τ)
    (h : σ.Ready (front ++ back)) : τ.Ready back := by
  induction path with
  | nil => exact h
  | cons step _ ih => exact ih (step.ready h)

theorem Path.sound {σ τ : Moment ω} {log : Log ω} (path : Path limit σ log τ) (h : σ.Ready log) : τ.Sound := by
  rw [← List.append_nil log] at h
  exact (path.ready h).1

/-- The registries in a log are those of sound moments. -/
theorem Path.sound_of_mem {σ τ : Moment ω} {log : Log ω} {entry : Entry ω} (path : Path limit σ log τ)
    (h : σ.Ready log) (hentry : entry ∈ log) : ∃ υ : Moment ω, υ.Sound ∧ υ.registry = entry.after := by
  obtain ⟨front, back, rfl⟩ := List.append_of_mem hentry
  obtain ⟨υ, υ', hfront, step, hafter, -⟩ := path.at_entry
  exact ⟨υ', (step.ready (hfront.ready h)).1, hafter⟩

end Moment

/-! ### Standings -/

/-- Where a number stands.  Those that have been given to a subscriber say what it has asked for. -/
inductive Standing where
  /-- No subscriber has had the number. -/
  | unknown
  | registered (request : Message)
  /-- Out, and noted as such. -/
  | noted (request : Message)
  /-- Out and removed. -/
  | dismissed (request : Message)
  /-- Out, but not noted any more. -/
  | lost (request : Message)
  | gone

namespace Standing

/-- After the number was given to a subscriber with this request. -/
def given (q : Message) : Standing → Standing
  | unknown => registered q
  | x => x

/-- Whether the registry counts the subscriber. -/
def counts : Standing → Bool
  | registered _ | noted _ => true
  | _ => false

/-- After a removal of the subscriber. -/
def removed : Standing → Standing
  | registered _ => gone
  | noted q => dismissed q
  | x => x

/-- After a dispatch that has reached another subscriber. -/
def overtaken : Standing → Standing
  | noted q | dismissed q => lost q
  | x => x

/-- After a dispatch that has reached the subscriber. -/
def reached : Standing → Standing
  | registered q => noted q
  | x => x.overtaken

/-- After the listeners of the subscriber have run. -/
def finished : Standing → Standing
  | noted q | lost q => registered q
  | dismissed _ => gone
  | x => x

variable {ω : Type} (k : SubscriberId)

/-- How an event moves the standing of the number `k`. -/
def next (x : Standing) : Event ω → Standing
  | .add s (.ok id) => if id = k then x.given (s.request.withId id).prepare else x
  | .remove id _ _ => if id = k then x.removed else x
  | .dispatch _ (some id) => if id = k then x.reached else x.overtaken
  | .finish id => if id = k then x.finished else x
  | _ => x

/-- Once gone, always gone. -/
@[simp] theorem next_gone (e : Event ω) : gone.next k e = gone := by
  unfold next
  split <;> first | rfl | exact ite_self gone

/-- A number that nobody has had has to be given first. -/
theorem next_unknown {k : SubscriberId} {e : Event ω} (h : ∀ s, e ≠ .add s (.ok k)) : unknown.next k e = unknown := by
  unfold next
  split
  · next s id =>
    rw [if_neg]
    rintro rfl
    exact h s rfl
  all_goals first | rfl | exact ite_self unknown

/-- Where the number stands after a log. -/
def after (x : Standing) (log : Log ω) : Standing := log.foldl (fun x entry => x.next k entry.event) x

theorem after_cons (x : Standing) (entry : Entry ω) (log : Log ω) :
    x.after k (entry :: log) = (x.next k entry.event).after k log := rfl

theorem after_append (x : Standing) (front back : Log ω) :
    x.after k (front ++ back) = (x.after k front).after k back := List.foldl_append

end Standing

namespace Moment

open Registry (Given numberLimit)

variable {ω : Type} {limit : Nat}

/-- Where the number `k` stands in a moment. -/
def Stands (σ : Moment ω) (k : SubscriberId) : Standing → Prop
  | .unknown => σ.registry.live[k]? = none ∧ k ∉ σ.visits.map Visit.id
  | .registered q => ∃ s, σ.registry.live[k]? = some s ∧ s.request = q
  | .noted q => σ.visits.head? = some ⟨k, q⟩ ∧ σ.registry.out = some k ∧ σ.registry.outRemoved = false
  | .dismissed q => σ.visits.head? = some ⟨k, q⟩ ∧ σ.registry.out = some k ∧ σ.registry.outRemoved = true
  | .lost q => ⟨k, q⟩ ∈ σ.visits ∧ σ.registry.out ≠ some k
  | .gone => σ.registry.Given k ∧ σ.registry.live[k]? = none ∧ k ∉ σ.visits.map Visit.id

namespace Stands

variable {r r' : Registry ω} {visits : List Visit} {busy busy' : Bool} {k : SubscriberId} {x : Standing}

/-- Only what the registry holds under the number matters, and who is out. -/
theorem mono (h : Stands ⟨r, visits, busy⟩ k x) (hlive : r'.live[k]? = r.live[k]?)
    (hgiven : r.Given k → r'.Given k) (hout : r'.out = r.out) (hremoved : r'.outRemoved = r.outRemoved) :
    Stands ⟨r', visits, busy'⟩ k x := by
  cases x with
  | gone => exact ⟨hgiven h.1, hlive.trans h.2.1, h.2.2⟩
  | _ => simpa only [Stands, hlive, hout, hremoved] using h

/-- A subscriber that is out is not registered as well. -/
theorem getElem?_eq_none {q : Message} (sound : Sound ⟨r, visits, busy⟩) (h : ⟨k, q⟩ ∈ visits) :
    r.live[k]? = none := (sound.visits _ h).2.2

/-- Only a registered subscriber is kept by the registry. -/
theorem eq_registered (h : Stands ⟨r, visits, busy⟩ k x) (sound : Sound ⟨r, visits, busy⟩) {s : Subscriber ω}
    (hlive : r.live[k]? = some s) : x = .registered s.request := by
  cases x with
  | registered q =>
    obtain ⟨s', hs', rfl⟩ := h
    obtain rfl := Option.some.inj (hlive.symm.trans hs')
    rfl
  | unknown => simp [Stands, hlive] at h
  | noted q => simp [getElem?_eq_none sound (List.mem_of_mem_head? h.1)] at hlive
  | dismissed q => simp [getElem?_eq_none sound (List.mem_of_mem_head? h.1)] at hlive
  | lost q => simp [getElem?_eq_none sound h.1] at hlive
  | gone => simp [Stands, hlive] at h

/-- Only a number that nobody has had is still to be given. -/
theorem eq_unknown (h : Stands ⟨r, visits, busy⟩ k x) (sound : Sound ⟨r, visits, busy⟩) (hk : ¬ r.Given k) :
    x = .unknown := by
  cases x with
  | unknown => rfl
  | registered q =>
    obtain ⟨s, hs, -⟩ := h
    exact absurd (sound.live k s hs).1 hk
  | noted q => exact absurd (sound.visits _ (List.mem_of_mem_head? h.1)).1 hk
  | dismissed q => exact absurd (sound.visits _ (List.mem_of_mem_head? h.1)).1 hk
  | lost q => exact absurd (sound.visits _ h.1).1 hk
  | gone => exact absurd h.1 hk

/-- The registry counts those that are registered, and the one that is noted as out. -/
theorem contains_eq (h : Stands ⟨r, visits, busy⟩ k x) (sound : Sound ⟨r, visits, busy⟩) :
    r.contains k = x.counts := by
  have hnot : k ∉ visits.map Visit.id → r.out ≠ some k := fun hk hout =>
    hk (List.mem_of_mem_head? (sound.out k hout))
  unfold Registry.contains
  rw [Std.TreeMap.contains_eq_isSome_getElem?]
  cases x with
  | unknown =>
    obtain ⟨hlive, hk⟩ := h
    simp_all [Standing.counts]
  | registered q =>
    obtain ⟨s, hlive, -⟩ := h
    simp_all [Standing.counts]
  | noted q =>
    obtain ⟨-, hout, hremoved⟩ := h
    simp_all [Standing.counts]
  | dismissed q =>
    obtain ⟨hhead, hout, hremoved⟩ := h
    have hlive := getElem?_eq_none sound (List.mem_of_mem_head? hhead)
    simp_all [Standing.counts]
  | lost q =>
    obtain ⟨hmem, hout⟩ := h
    have hlive := getElem?_eq_none sound hmem
    simp_all [Standing.counts]
  | gone =>
    obtain ⟨-, hlive, hk⟩ := h
    simp_all [Standing.counts]

theorem add (h : Stands ⟨r, visits, busy⟩ k x) (sound : Sound ⟨r, visits, busy⟩) (s : Subscriber ω)
    (hnext : r.nextId.toInt < numberLimit) :
    Stands ⟨(r.add s).2, visits, busy⟩ k (x.next k (.add s (r.add s).1)) := by
  have hgiven : r.Given k → 0 < k.toInt ∧ k.toInt < (Registry.successor r.nextId).toInt := by
    rintro ⟨h1, h2⟩
    rw [Registry.toInt_successor hnext]
    exact ⟨h1, by omega⟩
  rcases hadd : r.add s with ⟨e | id, r'⟩
  all_goals dsimp only [Standing.next]
  · obtain rfl := Registry.add_error hadd
    exact h.mono rfl hgiven rfl rfl
  · obtain ⟨rfl, rfl⟩ := Registry.add_ok hadd
    by_cases hk : r.nextId = k
    · have hfresh : ¬ r.Given k := by
        rintro ⟨-, hlt⟩
        rw [hk] at hlt
        omega
      rw [if_pos hk, h.eq_unknown sound hfresh]
      refine ⟨{ s with request := (s.request.withId r.nextId).prepare }, ?_, rfl⟩
      simp only [getElem?_insert_ite, if_pos hk]
    · rw [if_neg hk]
      refine h.mono ?_ hgiven rfl rfl
      simp only [getElem?_insert_ite, if_neg hk]

/-- A removal of another subscriber. -/
theorem remove_of_ne (h : Stands ⟨r, visits, busy⟩ k x) {id : SubscriberId} (hid : id ≠ k) :
    Stands ⟨(r.remove id).2, visits, busy⟩ k x := by
  rcases r.remove_cases id with ⟨s, -, hr⟩ | ⟨-, hout, -, hr⟩ | ⟨-, -, hr⟩
  all_goals
    rw [hr]
    dsimp only
  · refine h.mono ?_ (fun hgiven => hgiven) rfl rfl
    simp only [getElem?_erase_ite, if_neg hid]
  · have hother : r.out ≠ some k := by simpa [hout] using hid
    cases x with
    | noted q => exact absurd h.2.1 hother
    | dismissed q => exact absurd h.2.1 hother
    | _ => exact h
  · exact h

/-- A removal of the subscriber. -/
theorem remove_self (h : Stands ⟨r, visits, busy⟩ k x) (sound : Sound ⟨r, visits, busy⟩) :
    Stands ⟨(r.remove k).2, visits, busy⟩ k x.removed := by
  rcases r.remove_cases k with ⟨s, hlive, hr⟩ | ⟨hlive, hout, hremoved, hr⟩ | ⟨hlive, hout, hr⟩
  · have hfresh : k ∉ visits.map Visit.id := by
      intro hmem
      obtain ⟨v, hv, rfl⟩ := List.mem_map.mp hmem
      have hnone := (sound.visits v hv).2.2
      simp [hlive] at hnone
    rw [h.eq_registered sound hlive, hr]
    refine ⟨(sound.live k s hlive).1, ?_, hfresh⟩
    simp only [getElem?_erase_ite, if_true]
  · -- only a noted subscriber is out and not removed
    have hmem := List.mem_of_mem_head? (sound.out k hout)
    rw [hr]
    cases x with
    | noted q => exact ⟨h.1, hout, rfl⟩
    | unknown => exact absurd hmem h.2
    | registered q => simp [Stands, hlive] at h
    | dismissed q => simp [Stands, hremoved] at h
    | lost q => exact absurd hout h.2
    | gone => exact absurd hmem h.2.2
  · rw [hr]
    cases x with
    | registered q => simp [Stands, hlive] at h
    | noted q =>
      have hremoved := hout h.2.1
      simp [Stands, hremoved] at h
    | _ => exact h

theorem remove (h : Stands ⟨r, visits, busy⟩ k x) (sound : Sound ⟨r, visits, busy⟩) (id : SubscriberId)
    (failure : Option StreamError) (answer : Bool) :
    Stands ⟨(r.remove id).2, visits, busy⟩ k (x.next k (.remove id failure answer : Event ω)) := by
  dsimp only [Standing.next]
  by_cases hid : id = k
  · subst hid
    rw [if_pos rfl]
    exact h.remove_self sound
  · rw [if_neg hid]
    exact h.remove_of_ne hid

theorem reach {m : Message} {s : Subscriber ω} (h : Stands ⟨r, visits, busy⟩ k x)
    (sound : Sound ⟨r, visits, busy⟩) (hlive : r.live[m.id]? = some s) :
    Stands ⟨r.takeOut m.id, ⟨m.id, s.request⟩ :: visits, busy'⟩ k
      (x.next k (.dispatch m (some m.id) : Event ω)) := by
  simp only [Standing.next]
  by_cases hid : m.id = k
  · rw [if_pos hid]
    rw [hid] at hlive ⊢
    rw [h.eq_registered sound hlive]
    exact ⟨rfl, rfl, rfl⟩
  · rw [if_neg hid]
    have hkept : (r.takeOut m.id).live[k]? = r.live[k]? := by simp [Registry.takeOut, getElem?_erase_ite, hid]
    have hother : (r.takeOut m.id).out ≠ some k := by simpa [Registry.takeOut] using hid
    cases x with
    | unknown => exact ⟨hkept.trans h.1, by simpa [Ne.symm hid] using h.2⟩
    | registered q =>
      obtain ⟨s', hs', hq⟩ := h
      exact ⟨s', hkept.trans hs', hq⟩
    | noted q => exact ⟨List.mem_cons_of_mem _ (List.mem_of_mem_head? h.1), hother⟩
    | dismissed q => exact ⟨List.mem_cons_of_mem _ (List.mem_of_mem_head? h.1), hother⟩
    | lost q => exact ⟨List.mem_cons_of_mem _ h.1, hother⟩
    | gone => exact ⟨h.1, hkept.trans h.2.1, by simpa [Ne.symm hid] using h.2.2⟩

theorem finish {v : Visit} {s : Subscriber ω} (h : Stands ⟨r, v :: visits, busy⟩ k x)
    (sound : Sound ⟨r, v :: visits, busy⟩) (hrequest : s.request = v.request) :
    Stands ⟨r.putBack s v.id, visits, busy'⟩ k (x.next k (.finish v.id : Event ω)) := by
  obtain ⟨hgiven, -, hnone⟩ := sound.visits v List.mem_cons_self
  obtain ⟨hfresh, -⟩ := List.nodup_cons.mp sound.nodup
  simp only [Standing.next]
  by_cases hid : v.id = k
  · subst hid
    rw [if_pos rfl]
    -- whoever is not dismissed is put back
    have hback : ∀ q, v.request = q → r.outRemoved = false →
        Stands ⟨r.putBack s v.id, visits, busy'⟩ v.id (.registered q) := by
      intro q hq hremoved
      rw [r.putBack_of_not_outRemoved hremoved]
      exact ⟨s, by simp, hrequest.trans hq⟩
    cases x with
    | noted q => exact hback q (congrArg Visit.request (Option.some.inj h.1)) h.2.2
    | dismissed q =>
      show Stands _ _ .gone
      rw [r.putBack_of_outRemoved h.2.2]
      exact ⟨hgiven, hnone, hfresh⟩
    | lost q =>
      obtain ⟨hmem, hout⟩ := h
      have hq : v.request = q := by
        rcases List.mem_cons.mp hmem with heq | hmem
        · rw [← heq]
        · exact absurd (List.mem_map.mpr ⟨_, hmem, rfl⟩) hfresh
      have hout : r.out = none := by
        rcases hnoted : r.out with _ | j
        · rfl
        · obtain rfl := Option.some.inj (sound.out j hnoted)
          exact absurd hnoted hout
      exact hback q hq (sound.outRemoved hout)
    | unknown => simp [Stands] at h
    | registered q => simp [Stands, hnone] at h
    | gone => simp [Stands] at h
  · rw [if_neg hid]
    have hkept : (r.putBack s v.id).live[k]? = r.live[k]? := by
      rcases hremoved : r.outRemoved with _ | _
      · simp [r.putBack_of_not_outRemoved hremoved, getElem?_insert_ite, hid]
      · simp [r.putBack_of_outRemoved hremoved]
    have hnext : (r.putBack s v.id).nextId = r.nextId := by
      unfold Registry.putBack
      split <;> rfl
    have hout : (r.putBack s v.id).out = none := by
      unfold Registry.putBack
      split <;> rfl
    cases x with
    | unknown => exact ⟨hkept.trans h.1, fun hmem => h.2 (List.mem_cons_of_mem _ hmem)⟩
    | registered q =>
      obtain ⟨s', hs', hq⟩ := h
      exact ⟨s', hkept.trans hs', hq⟩
    | noted q =>
      exact absurd (congrArg Visit.id (Option.some.inj h.1)) hid
    | dismissed q =>
      exact absurd (congrArg Visit.id (Option.some.inj h.1)) hid
    | lost q =>
      refine ⟨?_, by simp [hout]⟩
      rcases List.mem_cons.mp h.1 with rfl | hmem
      · exact absurd rfl hid
      · exact hmem
    | gone =>
      refine ⟨?_, hkept.trans h.2.1, fun hmem => h.2.2 (List.mem_cons_of_mem _ hmem)⟩
      simp only [Given, hnext]
      exact h.1

end Stands

/-! ### What steps say about standings -/

variable {σ τ : Moment ω} {e : Event ω} {r : Registry ω} {log : Log ω} {k : SubscriberId} {x : Standing}
  {m : Message}

/-- A step moves every number as `Standing.next` says. -/
theorem Step.stands (step : Step limit σ e τ) (ready : σ.Ready (⟨e, r⟩ :: log)) (h : σ.Stands k x) :
    τ.Stands k (x.next k e) := by
  have hsound := ready.1
  cases step with
  | quiet he same =>
    have hsame : x.next k e = x := by
      cases e <;> first | rfl | exact he.elim
    rw [hsame]
    refine h.mono (by rw [same.live]) ?_ same.out same.outRemoved
    simp only [Given, same.nextId]
    exact id
  | add r visits busy s =>
    have hnext := ready.2
    rw [Log.additions_cons] at hnext
    simp only [Event.isAdd, Bool.toNat_true] at hnext
    exact h.add hsound s (by omega)
  | remove r visits busy id failure => exact h.remove hsound id failure _
  | miss => exact h
  | reach hlive => exact h.reach hsound hlive
  | enter r v visits => exact h.mono rfl id rfl rfl
  | leave r v visits => exact h.mono rfl id rfl rfl
  | finish hrequest => exact h.finish hsound hrequest

/-- An addition gives the next number, and the last frame for the peer carries it. -/
theorem Step.of_add {s : Subscriber ω} (step : Step limit σ (.add s (.ok k)) τ) :
    k = σ.registry.nextId ∧ τ.registry.outbox.back? = some (s.request.withId k).frame := by
  generalize he : Event.add s (.ok k) = e at step
  cases step with
  | add r visits busy s' =>
    rcases hadd : r.add s' with ⟨a, r'⟩
    rw [hadd] at he
    obtain ⟨rfl, rfl⟩ := Event.add.inj he
    obtain ⟨hid, rfl⟩ := Registry.add_ok hadd
    exact ⟨hid, Array.back?_push⟩
  | quiet hquiet =>
    subst he
    exact hquiet.elim
  | _ => cases he

/-- A number is given to one subscriber only. -/
theorem Step.eq_unknown_of_add {s : Subscriber ω} (step : Step limit σ (.add s (.ok k)) τ) (sound : σ.Sound)
    (h : σ.Stands k x) : x = .unknown := by
  refine h.eq_unknown sound ?_
  rintro ⟨-, hlt⟩
  rw [step.of_add.1] at hlt
  exact Int.lt_irrefl _ hlt

/-- A removal answers whether the subscriber is counted. -/
theorem Step.answer_eq {failure : Option StreamError} {answer : Bool}
    (step : Step limit σ (.remove k failure answer) τ) (sound : σ.Sound) (h : σ.Stands k x) :
    answer = x.counts := by
  cases step with
  | remove r => rw [r.fst_remove, h.contains_eq sound]
  | quiet hquiet => exact hquiet.elim

/-- Who is reached was registered, and is addressed. -/
theorem Step.of_reach (step : Step limit σ (.dispatch m (some k)) τ) (sound : σ.Sound) (h : σ.Stands k x) :
    ∃ q, x = .registered q ∧ m.AddressedTo q.node q.name k := by
  cases step with
  | reach hlive haccepts =>
    simp only [SubscriberOver.accepts, Bool.and_eq_true, beq_iff_eq] at haccepts
    exact ⟨_, h.eq_registered sound hlive, haccepts.1.symm, haccepts.2.symm, rfl⟩
  | quiet hquiet => exact hquiet.elim

/-- A run moves every number as its events say. -/
theorem Path.stands (path : Path limit σ log τ) (ready : σ.Ready log) (h : σ.Stands k x) :
    τ.Stands k (x.after k log) := by
  induction path generalizing x with
  | nil => exact h
  | cons step _ ih => exact ih (step.ready ready) (step.stands ready h)

end Moment

/-! ### Runs from the outside -/

namespace Registry

open Moment (Path)

variable {ω : Type} {r : Registry ω}

/-- Nothing has been added yet. -/
structure Fresh (r : Registry ω) : Prop where
  live : r.live = ∅
  nextId : r.nextId = 1
  out : r.out = none
  outRemoved : r.outRemoved = false

/-- A registry to which nothing has been added is ready for a run with fewer additions than there are numbers. -/
theorem Fresh.ready (h : r.Fresh) {log : Log ω} (hadds : log.additions < numberLimit) :
    Moment.Ready ⟨r, [], true⟩ log := by
  have hnext : r.nextId.toInt = 1 := by rw [h.nextId, Int32.toInt_one]
  refine ⟨⟨by simp [hnext], by simp [h.live], nofun, List.nodup_nil, by simp [h.out], fun _ => h.outRemoved⟩, ?_⟩
  simp only [hnext]
  omega

theorem Fresh.stands (h : r.Fresh) (k : SubscriberId) : Moment.Stands ⟨r, [], true⟩ k .unknown :=
  ⟨by simp [h.live], List.not_mem_nil⟩

end Registry
end LevelLink
