import LevelLink.Proofs.Link.Correlation
import LevelLink.Proofs.Link.Dispatch

/-!
# Who is registered after a run

Runs in which no listener dispatches, so that one subscriber is out at most.  Taking it out and putting it back does
not change whom the registry counts, and so the numbers that count after a run are those that did before and those
that were given, less those that were removed (`Path.contains_iff`).  Whoever is not added, removed or reached is
left alone (`Path.getElem?_eq`).

The numbers that a run gives must be new, which they are until they wrap around (`Path.givesNew`).
-/

namespace LevelLink

/-! ### New numbers -/

namespace Log

variable {ω : Type}

/-- The numbers that are given are new: nobody has them in `r`, and none is given twice. -/
structure GivesNew (log : Log ω) (r : Registry ω) : Prop where
  nodup : log.given.Nodup
  contains : ∀ k ∈ log.given, r.contains k = false

/-- A log without a dispatch is flat. -/
theorem isFlat_of_dispatched_eq_nil {log : Log ω} (h : log.dispatched = []) (out : Nat) :
    log.isFlat out = true := by
  induction log generalizing out with
  | nil => rfl
  | cons entry log ih =>
    rw [dispatched_cons, List.append_eq_nil_iff] at h
    rcases entry with ⟨e, r⟩
    cases e with
    | dispatch m reached => simp [Event.dispatched?] at h
    | _ => exact ih h.2 _

end Log

/-! ### Whom the registry counts -/

namespace Registry

variable {ω : Type} {r r' : Registry ω} {s : Subscriber ω} {id : SubscriberId}

theorem contains_iff (r : Registry ω) (k : SubscriberId) :
    r.contains k = true ↔ (∃ s, r.live[k]? = some s) ∨ (r.out = some k ∧ r.outRemoved = false) := by
  rw [contains, Std.TreeMap.contains_eq_isSome_getElem?, Bool.or_eq_true, Option.isSome_iff_exists]
  simp

theorem contains_of_add_ok (h : r.add s = (.ok id, r')) (k : SubscriberId) :
    r'.contains k = true ↔ id = k ∨ r.contains k = true := by
  obtain ⟨rfl, rfl⟩ := add_ok h
  simp only [contains_iff, getElem?_insert_ite]
  by_cases hk : r.nextId = k <;> simp [hk]

/-- A removal takes the subscriber off, if it was there. -/
theorem contains_remove (hout : r.out = some id → r.live[id]? = none) (k : SubscriberId) :
    (r.remove id).2.contains k = true ↔ r.contains k = true ∧ (id == k && (r.remove id).1) = false := by
  rcases r.remove_cases id with ⟨s, hlive, h⟩ | ⟨hlive, hnoted, hremoved, h⟩ | ⟨hlive, hnoted, h⟩
  · have hother : r.out ≠ some id := fun hid => by simp [hout hid] at hlive
    simp only [h, contains_iff, getElem?_erase_ite]
    by_cases hk : id = k
    · subst hk
      simp [hother]
    · simp [hk]
  · simp only [h, contains_iff]
    by_cases hk : id = k
    · subst hk
      simp [hlive]
    · simp [hk, hnoted]
  · simp [h]

theorem contains_takeOut (hlive : r.live[id]? = some s) (hout : r.out = none) (k : SubscriberId) :
    (r.takeOut id).contains k = true ↔ r.contains k = true := by
  rw [contains_iff, contains_iff, getElem?_takeOut, hout]
  by_cases hk : id = k
  · subst hk
    simp [takeOut, hlive]
  · simp [takeOut, hk]

theorem contains_putBack (hout : r.out = some id) (s : Subscriber ω) (k : SubscriberId) :
    (r.putBack s id).contains k = true ↔ r.contains k = true := by
  rcases hremoved : r.outRemoved with _ | _
  · rw [r.putBack_of_not_outRemoved hremoved]
    simp only [contains_iff, getElem?_insert_ite, hout, hremoved]
    by_cases hk : id = k <;> simp [hk]
  · rw [r.putBack_of_outRemoved hremoved]
    simp [contains_iff, hremoved]

end Registry

namespace Moment

open Registry (numberLimit)

variable {ω : Type} {limit : Nat} {σ τ : Moment ω} {e : Event ω} {r : Registry ω} {log : Log ω} {k : SubscriberId}

/-- Nobody is out, or one subscriber is out and is noted. -/
inductive Plain : Moment ω → Prop where
  | idle {r : Registry ω} {busy : Bool} (hout : r.out = none) : Plain ⟨r, [], busy⟩
  | serving {r : Registry ω} {busy : Bool} {v : Visit} (hout : r.out = some v.id) (hlive : r.live[v.id]? = none) :
    Plain ⟨r, [v], busy⟩

theorem Plain.getElem?_eq_none {r : Registry ω} {visits : List Visit} {busy : Bool} (h : Plain ⟨r, visits, busy⟩)
    (hout : r.out = some k) : r.live[k]? = none := by
  cases h with
  | idle hnone =>
    rw [hnone] at hout
    cases hout
  | serving hnoted hlive =>
    rw [hnoted] at hout
    obtain rfl := Option.some.inj hout
    exact hlive

theorem Plain.congr {r r' : Registry ω} {visits : List Visit} {busy busy' : Bool} (h : Plain ⟨r, visits, busy⟩)
    (hout : r'.out = r.out) (hlive : ∀ v ∈ visits, r'.live[v.id]? = r.live[v.id]?) : Plain ⟨r', visits, busy'⟩ := by
  cases h with
  | idle hnone => exact .idle (hout.trans hnone)
  | serving hnoted hnone =>
    exact .serving (hout.trans hnoted) ((hlive _ List.mem_cons_self).trans hnone)

/-- A step that is no dispatch by a listener keeps the moment plain, and changes the numbers that count by what it
gives and what it removes. -/
theorem Step.contains_iff (step : Step limit σ e τ) (plain : σ.Plain)
    (houtside : ∀ m reached, e = .dispatch m reached → σ.visits = [])
    (hnew : ∀ k, e.given? = some k → k ∉ σ.visits.map Visit.id) :
    τ.Plain ∧ ∀ k, τ.registry.contains k = true ↔
      e.given? = some k ∨ (σ.registry.contains k = true ∧ e.removes k = false) := by
  cases step with
  | @quiet r r' visits busy e hquiet same =>
    refine ⟨plain.congr same.out fun v _ => by rw [same.live], fun k => ?_⟩
    have hevent : e.given? = none ∧ e.removes k = false := by
      cases e <;> first | exact ⟨rfl, rfl⟩ | exact hquiet.elim
    simp [Registry.contains_iff, same.live, same.out, same.outRemoved, hevent]
  | add r visits busy s =>
    rcases hadd : r.add s with ⟨e | id, r'⟩
    · obtain rfl := Registry.add_error hadd
      exact ⟨plain.congr rfl fun _ _ => rfl, fun k => by simp [Registry.contains_iff, Event.given?, Event.removes]⟩
    · have hcontains := Registry.contains_of_add_ok hadd
      obtain ⟨-, -, -, hlive⟩ := Registry.added_of_add hadd
      obtain ⟨hid, hr'⟩ := Registry.add_ok hadd
      refine ⟨plain.congr (by rw [hr']) fun v hv => ?_, fun k => ?_⟩
      · have hne : r.nextId ≠ v.id := by
          intro heq
          refine hnew id (by rw [hadd]; rfl) ?_
          rw [hid, heq]
          exact List.mem_map_of_mem hv
        rw [hlive, if_neg hne]
      · simpa [Event.given?, Event.removes] using hcontains k
  | remove r visits busy id failure =>
    refine ⟨plain.congr ?_ ?_, fun k => ?_⟩
    · rcases r.remove_cases id with ⟨s, -, h⟩ | ⟨-, -, -, h⟩ | ⟨-, -, h⟩ <;> rw [h]
    · intro v hv
      rw [Registry.getElem?_remove]
      split
      · next heq =>
        subst heq
        cases plain with
        | idle => cases hv
        | serving hout hlive =>
          obtain rfl := List.mem_singleton.mp hv
          exact hlive.symm
      · rfl
    · simpa [Event.given?, Event.removes] using Registry.contains_remove plain.getElem?_eq_none k
  | miss => exact ⟨plain, fun k => by simp [Event.given?, Event.removes]⟩
  | @reach r visits m s hlive haccepts =>
    obtain rfl : visits = [] := houtside m _ rfl
    cases plain with
    | idle hout =>
      refine ⟨.serving rfl ((r.getElem?_takeOut m.id m.id).trans (if_pos rfl)), fun k => ?_⟩
      simpa [Event.given?, Event.removes] using Registry.contains_takeOut hlive hout k
  | enter r v visits => exact ⟨plain.congr rfl fun _ _ => rfl, fun k => by simp [Event.given?, Event.removes]⟩
  | leave r v visits => exact ⟨plain.congr rfl fun _ _ => rfl, fun k => by simp [Event.given?, Event.removes]⟩
  | @finish r v visits s hrequest =>
    cases plain with
    | serving hout hlive =>
      refine ⟨.idle ?_, fun k => ?_⟩
      · unfold Registry.putBack
        split <;> rfl
      · simpa [Event.given?, Event.removes] using Registry.contains_putBack hout s k

/-- Only who counts can be removed, and who was to be removed is not added. -/
theorem Step.contains_of_removes (step : Step limit σ e τ) (h : e.removes k = true) :
    σ.registry.contains k = true ∧ e.given? = none := by
  cases step with
  | remove r visits busy id failure =>
    simp only [Event.removes, Bool.and_eq_true, beq_iff_eq, r.fst_remove] at h
    obtain ⟨rfl, hcontains⟩ := h
    exact ⟨hcontains, rfl⟩
  | quiet hquiet => cases e <;> first | exact hquiet.elim | cases h
  | _ => cases h

/-- One subscriber is out at most, no listener is going to dispatch, and the numbers to be given are new. -/
structure Clear (σ : Moment ω) (log : Log ω) : Prop where
  plain : σ.Plain
  flat : Log.isFlat σ.visits.length log = true
  nodup : log.given.Nodup
  contains : ∀ k ∈ log.given, σ.registry.contains k = false
  visits : ∀ k ∈ log.given, k ∉ σ.visits.map Visit.id

theorem Step.clear (step : Step limit σ e τ) (h : σ.Clear (⟨e, r⟩ :: log)) :
    τ.Clear log ∧ ∀ k, τ.registry.contains k = true ↔
      e.given? = some k ∨ (σ.registry.contains k = true ∧ e.removes k = false) := by
  obtain ⟨plain, flat, hnodup, hfresh, hvisits⟩ := h
  simp only [Log.given_cons, List.mem_append, Option.mem_toList] at hnodup hfresh hvisits
  obtain ⟨-, hnodup, hdisjoint⟩ := List.nodup_append.mp hnodup
  obtain ⟨hrest, houtside⟩ := step.isFlat flat
  obtain ⟨hplain, hcontains⟩ := step.contains_iff plain houtside fun k hk => hvisits k (.inl hk)
  refine ⟨⟨hplain, hrest, hnodup, ?_, ?_⟩, hcontains⟩
  · intro k hk
    rw [Bool.eq_false_iff, ne_eq, hcontains]
    rintro (hgiven | ⟨hbefore, -⟩)
    · exact hdisjoint k (by simp [hgiven]) k hk rfl
    · rw [hfresh k (.inr hk)] at hbefore
      cases hbefore
  · intro k hk
    have hin := hvisits k (.inr hk)
    cases step with
    | reach hlive haccepts =>
      rintro (_ | ⟨_, hmem⟩)
      · have hbefore := (Registry.contains_iff _ _).mpr (.inl ⟨_, hlive⟩)
        rw [hfresh _ (.inr hk)] at hbefore
        cases hbefore
      · exact hin hmem
    | finish => exact fun hmem => hin (List.mem_cons_of_mem _ hmem)
    | _ => exact hin

theorem Path.clear {front back : Log ω} (path : Path limit σ front τ) (h : σ.Clear (front ++ back)) :
    τ.Clear back := by
  induction path with
  | nil => exact h
  | cons step _ ih => exact ih (step.clear h).1

/-- The numbers that count after a run are those that did before and those that were given, less those that were
removed. -/
theorem Path.contains_iff (path : Path limit σ log τ) (h : σ.Clear log) :
    τ.Plain ∧ ∀ k, τ.registry.contains k = true ↔
      (σ.registry.contains k = true ∨ k ∈ log.given) ∧ ∀ entry ∈ log, entry.event.removes k = false := by
  induction path with
  | nil => exact ⟨h.plain, fun k => by simp [Log.given]⟩
  | @cons σ τ υ e log step _ ih =>
    obtain ⟨hτ, hstep⟩ := step.clear h
    obtain ⟨hυ, hend⟩ := ih hτ
    refine ⟨hυ, fun k => ?_⟩
    rw [hend, hstep, Log.given_cons, List.mem_append, Option.mem_toList, List.forall_mem_cons]
    rcases hremoves : e.removes k with _ | _
    · simp only [and_true, true_and, ← or_assoc, or_comm]
    · -- the number of who is removed is not given afterwards
      obtain ⟨hcontains, hnone⟩ := step.contains_of_removes hremoves
      have hlater : k ∉ Log.given log := by
        intro hk
        have hfresh := h.contains k (by rw [Log.given_cons]; exact List.mem_append_right _ hk)
        rw [hcontains] at hfresh
        cases hfresh
      simp [hnone, hlater]

/-- Who was to be removed does not count afterwards. -/
theorem Path.not_contains_of_removal {front back : Log ω} {failure : Option StreamError} {answer : Bool}
    (path : Path limit σ (front ++ ⟨.remove k failure answer, r⟩ :: back) τ)
    (h : σ.Clear (front ++ ⟨.remove k failure answer, r⟩ :: back)) (hk : k ∉ Log.given back) :
    τ.registry.contains k = false := by
  obtain ⟨ρ, ρ', hfront, step, -, hback⟩ := path.at_entry
  obtain ⟨hclear, hstep⟩ := step.clear (r := r) (hfront.clear h)
  have hremoved : ¬ ρ'.registry.contains k = true := by
    rw [hstep]
    cases step with
    | remove r visits busy id failure => simp [Event.given?, Event.removes, r.fst_remove]
    | quiet hquiet => exact hquiet.elim
  rw [Bool.eq_false_iff, ne_eq, (hback.contains_iff hclear).2]
  simp [hremoved, hk]

/-! ### Whoever is left alone -/

/-- A step leaves whoever is in alone whom it does not add, remove or reach. -/
theorem Step.getElem?_eq (step : Step limit σ e τ) (hin : k ∉ σ.visits.map Visit.id) (hgiven : e.given? ≠ some k)
    (hremoved : e.removes k = false) (hreached : ∀ m, e ≠ .dispatch m (some k)) :
    k ∉ τ.visits.map Visit.id ∧ τ.registry.live[k]? = σ.registry.live[k]? := by
  cases step with
  | quiet he same => exact ⟨hin, by rw [same.live]⟩
  | add r visits busy s =>
    rcases hadd : r.add s with ⟨e | id, r'⟩
    · obtain rfl := Registry.add_error hadd
      exact ⟨hin, rfl⟩
    · obtain ⟨rfl, -, -, hlive⟩ := Registry.added_of_add hadd
      have hne : r.nextId ≠ k := fun heq => hgiven (by rw [hadd, ← heq]; rfl)
      exact ⟨hin, (hlive k).trans (if_neg hne)⟩
  | remove r visits busy id failure =>
    refine ⟨hin, ?_⟩
    rw [Registry.getElem?_remove]
    split
    · next heq =>
      subst heq
      simp only [Event.removes, beq_self_eq_true, Bool.true_and, r.fst_remove] at hremoved
      exact (Registry.getElem?_of_contains hremoved).symm
    · rfl
  | miss => exact ⟨hin, rfl⟩
  | @reach r visits m s hlive haccepts =>
    have hne : m.id ≠ k := fun heq => hreached m (by rw [heq])
    refine ⟨List.not_mem_cons_of_ne_of_not_mem hne.symm hin, (r.getElem?_takeOut m.id k).trans (if_neg hne)⟩
  | enter => exact ⟨hin, rfl⟩
  | leave => exact ⟨hin, rfl⟩
  | @finish r v visits s hrequest =>
    have hne : v.id ≠ k := fun heq => hin (heq ▸ List.mem_cons_self)
    refine ⟨fun hmem => hin (List.mem_cons_of_mem _ hmem), ?_⟩
    rcases hout : r.outRemoved with _ | _
    · rw [r.putBack_of_not_outRemoved hout, getElem?_insert_ite, if_neg hne]
    · rw [r.putBack_of_outRemoved hout]

/-- A run leaves whoever is in alone whom it does not add, remove or reach. -/
theorem Path.getElem?_eq (path : Path limit σ log τ) (hin : k ∉ σ.visits.map Visit.id) (hgiven : k ∉ log.given)
    (hremoved : ∀ entry ∈ log, entry.event.removes k = false)
    (hreached : ∀ entry ∈ log, ∀ m, entry.event ≠ .dispatch m (some k)) :
    τ.registry.live[k]? = σ.registry.live[k]? := by
  induction path with
  | nil => rfl
  | @cons σ τ υ e log step _ ih =>
    rw [Log.given_cons, List.mem_append, not_or] at hgiven
    obtain ⟨hremoves, hremoved⟩ := List.forall_mem_cons.mp hremoved
    obtain ⟨hreaches, hreached⟩ := List.forall_mem_cons.mp hreached
    obtain ⟨hstill, hstep⟩ := step.getElem?_eq hin (fun heq => hgiven.1 (by simp [heq])) hremoves hreaches
    rw [ih hstill hgiven.2 hremoved hreached, hstep]

/-- An addition that is taken registers the subscriber with its number. -/
theorem Step.registered_of_add {s : Subscriber ω} (step : Step limit σ (.add s (.ok k)) τ) :
    τ.visits = σ.visits ∧
      τ.registry.live[k]? = some { s with request := (s.request.withId k).prepare } := by
  generalize he : Event.add s (.ok k) = e at step
  cases step with
  | add r visits busy s' =>
    rcases hadd : r.add s' with ⟨a, r'⟩
    rw [hadd] at he
    obtain ⟨rfl, rfl⟩ := Event.add.inj he
    obtain ⟨rfl, -, -, hlive⟩ := Registry.added_of_add hadd
    exact ⟨rfl, (hlive _).trans (if_pos rfl)⟩
  | quiet hquiet =>
    subst he
    exact hquiet.elim
  | _ => cases he

/-- Whoever is added stays as it is until it is removed or reached. -/
theorem Path.getElem?_of_add {front back : Log ω} {s : Subscriber ω}
    (path : Path limit σ (front ++ ⟨.add s (.ok k), r⟩ :: back) τ)
    (h : σ.Clear (front ++ ⟨.add s (.ok k), r⟩ :: back))
    (hremoved : ∀ entry ∈ back, entry.event.removes k = false)
    (hreached : ∀ entry ∈ back, ∀ m, entry.event ≠ .dispatch m (some k)) :
    τ.registry.live[k]? = some { s with request := (s.request.withId k).prepare } := by
  obtain ⟨ρ, ρ', hfront, step, -, hback⟩ := path.at_entry
  have hclear := hfront.clear h
  have hnodup := hclear.nodup
  rw [Log.given_cons] at hnodup
  have hin : k ∉ ρ.visits.map Visit.id := hclear.visits k (by simp [Log.given_cons, Event.given?])
  obtain ⟨hvisits, hlive⟩ := step.registered_of_add
  rw [hback.getElem?_eq (hvisits ▸ hin) (List.nodup_cons.mp hnodup).1 hremoved hreached, hlive]

/-! ### Numbers that have not wrapped around -/

/-- The numbers that a run gives are new as long as there are numbers to give. -/
theorem Path.givesNew (path : Path limit σ log τ) (ready : σ.Ready log) : log.GivesNew σ.registry := by
  obtain ⟨hsorted, hfrom⟩ := path.given_sorted ready
  refine ⟨hsorted.imp Int32.ne_of_lt, ?_⟩
  intro k hk
  have hle := Int32.le_iff_toInt_le.mp (hfrom k hk)
  have hgiven : σ.registry.contains k = true → σ.registry.Given k := by
    intro hcontains
    rcases (σ.registry.contains_iff k).mp hcontains with ⟨s, hs⟩ | ⟨hout, -⟩
    · exact (ready.1.live k s hs).1
    · obtain ⟨v, hv, rfl⟩ := List.mem_map.mp (List.mem_of_mem_head? (ready.1.out k hout))
      exact (ready.1.visits v hv).1
  rw [Bool.eq_false_iff]
  intro hcontains
  have hlt := (hgiven hcontains).2
  omega

end Moment

/-! ### Reachable registries -/

namespace Registry

variable {ω : Type}

/-- A registry that nobody is out of, after any runs from the outside. -/
inductive Reached : Registry ω → Prop where
  | fresh {r : Registry ω} (h : r.Fresh) : Reached r
  | run {r : Registry ω} (h : Reached r) (depth : Nat) (p : Program ω) : Reached (r.after depth p)
  /-- The queues and the world change from the outside. -/
  | others {r r' : Registry ω} (h : Reached r) (same : r.SameSubscribers r') : Reached r'

end Registry

namespace Moment

variable {ω : Type} {limit : Nat} {σ τ : Moment ω} {e : Event ω} {log : Log ω}

/-- Subscribers are kept under the numbers of their requests, and nobody is noted as out when nobody is. -/
structure Orderly (σ : Moment ω) : Prop where
  live : ∀ (k : SubscriberId) (s : Subscriber ω), σ.registry.live[k]? = some s → s.request.id = k
  visits : ∀ v ∈ σ.visits, v.request.id = v.id
  out : σ.visits = [] → σ.registry.out = none

theorem Orderly.congr {r r' : Registry ω} {visits : List Visit} {busy busy' : Bool} (h : Orderly ⟨r, visits, busy⟩)
    (same : r.SameSubscribers r') : Orderly ⟨r', visits, busy'⟩ :=
  ⟨by simpa only [same.live] using h.live, h.visits, fun hvisits => same.out.trans (h.out hvisits)⟩

theorem Step.orderly (step : Step limit σ e τ) (h : σ.Orderly) : τ.Orderly := by
  cases step with
  | quiet he same => exact h.congr same
  | add r visits busy s =>
    rcases hadd : r.add s with ⟨e | id, r'⟩
    · obtain rfl := Registry.add_error hadd
      exact ⟨h.live, h.visits, h.out⟩
    · obtain ⟨rfl, rfl⟩ := Registry.add_ok hadd
      refine ⟨?_, h.visits, h.out⟩
      intro k s' hs
      simp only [getElem?_insert_ite] at hs
      split at hs
      · next hk =>
        subst hk
        obtain rfl := Option.some.inj hs
        rfl
      · exact h.live k s' hs
  | remove r visits busy id failure =>
    refine ⟨?_, h.visits, fun hvisits => ?_⟩
    · intro k s hs
      simp only [Registry.getElem?_remove] at hs
      split at hs
      · cases hs
      · exact h.live k s hs
    · have hout := h.out hvisits
      rcases r.remove_cases id with ⟨s, -, hr⟩ | ⟨-, -, -, hr⟩ | ⟨-, -, hr⟩ <;> rw [hr] <;> exact hout
  | miss => exact h
  | @reach r visits m s hlive haccepts =>
    refine ⟨?_, ?_, nofun⟩
    · intro k s' hs
      simp only [Registry.getElem?_takeOut] at hs
      split at hs
      · cases hs
      · exact h.live k s' hs
    · exact List.forall_mem_cons.mpr ⟨h.live m.id s hlive, h.visits⟩
  | enter => exact h.congr ⟨rfl, rfl, rfl, rfl⟩
  | leave => exact h.congr ⟨rfl, rfl, rfl, rfl⟩
  | @finish r v visits s hrequest =>
    obtain ⟨hid, hvisits⟩ := List.forall_mem_cons.mp h.visits
    rcases hremoved : r.outRemoved with _ | _
    · rw [r.putBack_of_not_outRemoved hremoved]
      refine ⟨?_, hvisits, fun _ => rfl⟩
      intro k s' hs
      simp only [getElem?_insert_ite] at hs
      split at hs
      · next hk =>
        subst hk
        obtain rfl := Option.some.inj hs
        rw [hrequest, hid]
      · exact h.live k s' hs
    · rw [r.putBack_of_outRemoved hremoved]
      exact ⟨h.live, hvisits, fun _ => rfl⟩

theorem Path.orderly (path : Path limit σ log τ) (h : σ.Orderly) : τ.Orderly := by
  induction path with
  | nil => exact h
  | cons step _ ih => exact ih (step.orderly h)

end Moment

namespace Registry

variable {ω : Type} {r : Registry ω} {m : Message} {s : Subscriber ω}

theorem Reached.orderly (h : r.Reached) : Moment.Orderly ⟨r, [], true⟩ := by
  induction h with
  | fresh h => exact ⟨by simp [h.live], nofun, fun _ => h.out⟩
  | run _ depth p ih => exact (path_log depth p _).orderly ih
  | others _ same ih => exact ih.congr same

/-- Addressed is who has the number and the names. -/
theorem Reached.addressedTo_iff (h : r.Reached) {k : SubscriberId} (hlive : r.live[k]? = some s) :
    m.AddressedTo s.request.node s.request.name s.request.id ↔ k = m.id ∧ s.accepts m = true := by
  rw [h.orderly.live k s hlive]
  simp only [Message.AddressedTo, SubscriberOver.accepts, Bool.and_eq_true, beq_iff_eq]
  constructor
  · rintro ⟨hnode, hname, hid⟩
    exact ⟨hid.symm, hnode.symm, hname.symm⟩
  · rintro ⟨hid, hnode, hname⟩
    exact ⟨hnode.symm, hname.symm, hid.symm⟩

end Registry
end LevelLink
