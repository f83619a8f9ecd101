import LevelLink.Proofs.Link.Standing

/-!
# Nested dispatches

Listeners may dispatch, and so dispatches nest.  Whatever the listeners do, none of a subscriber starts while
another one of the same subscriber runs, whoever is not removed is registered when the outermost dispatch is over,
and the registry always counts the subscribers that it contains (`nested_dispatch`).

A subscriber that is out may be `lost` for a while, but comes back; only a removal ends what `Standing.isKept`
says.
-/

namespace LevelLink

/-! ### Whose listeners run -/

section Running

variable {ω : Type}

/-- The subscribers of whom a listener runs, the latest first, after an event. -/
def Event.runs (running : List SubscriberId) : Event ω → List SubscriberId
  | .enter id _ _ => id :: running
  | .leave id => running.erase id
  | _ => running

/-- The subscribers of whom a listener runs after a log, if none of any did before. -/
def Log.running (log : Log ω) : List SubscriberId := log.foldl (fun running entry => entry.event.runs running) []

end Running

namespace Moment

variable {ω : Type} {limit : Nat} {σ τ : Moment ω} {e : Event ω} {r : Registry ω} {log : Log ω}
  {k : SubscriberId} {x : Standing} {m : Message}

/-- The subscribers of whom a listener runs.  All who are out do, but for the latest before its listeners, between
them and after them. -/
def running (σ : Moment ω) : List SubscriberId := (if σ.busy then σ.visits else σ.visits.tail).map Visit.id

theorem Step.running_eq (step : Step limit σ e τ) : τ.running = e.runs σ.running := by
  cases step with
  | quiet hquiet =>
    cases e <;> first | rfl | exact hquiet.elim
  | leave r v visits => exact (List.erase_cons_head v.id (visits.map Visit.id)).symm
  | _ => rfl

theorem Path.running_eq (path : Path limit σ log τ) :
    τ.running = log.foldl (fun running entry => entry.event.runs running) σ.running := by
  induction path with
  | nil => rfl
  | cons step _ ih => rw [ih, step.running_eq, List.foldl_cons]

/-- A listener starts when none of the same subscriber runs. -/
theorem Step.not_mem_running {listener : Listener} (step : Step limit σ (.enter k listener m) τ) (sound : σ.Sound) :
    k ∉ σ.running := by
  cases step with
  | enter r v visits => exact (List.nodup_cons.mp sound.nodup).1
  | quiet hquiet => exact hquiet.elim

end Moment

/-! ### Whom the registry counts -/

namespace Registry

variable {ω : Type}

/-- The registry counts the subscribers that it contains, and can remove these. -/
structure Counts (r : Registry ω) : Prop where
  size : ∃ ids : List SubscriberId, ids.Nodup ∧ (∀ k, k ∈ ids ↔ r.contains k = true) ∧ r.size = ids.length
  remove : ∀ k, (r.remove k).1 = r.contains k

end Registry

namespace Moment

variable {ω : Type} {limit : Nat} {σ τ : Moment ω} {e : Event ω} {r : Registry ω} {log : Log ω}
  {k : SubscriberId} {x : Standing}

theorem Sound.counts (h : σ.Sound) : σ.registry.Counts := by
  refine ⟨?_, σ.registry.fst_remove⟩
  have hnodup : σ.registry.live.keys.Nodup := Std.TreeMap.nodup_keys
  have hlength : σ.registry.live.keys.length = σ.registry.live.size := Std.TreeMap.length_keys
  have hmem : ∀ k, k ∈ σ.registry.live.keys ↔ σ.registry.live.contains k = true := fun k =>
    Std.TreeMap.mem_keys.trans Std.TreeMap.mem_iff_contains
  unfold Registry.contains Registry.size
  rcases hout : σ.registry.out with _ | j
  · exact ⟨_, hnodup, by simp, by simp [hlength]⟩
  · cases hremoved : σ.registry.outRemoved with
    | true => exact ⟨_, hnodup, by simp, by simp [hlength]⟩
    | false =>
      -- the one that is out is not registered as well
      have hfresh : j ∉ σ.registry.live.keys := by
        obtain ⟨v, hv, rfl⟩ := List.mem_map.mp (List.mem_of_mem_head? (h.out j hout))
        rw [hmem, Std.TreeMap.contains_eq_isSome_getElem?, (h.visits v hv).2.2]
        exact Bool.false_ne_true
      refine ⟨j :: σ.registry.live.keys, List.nodup_cons.mpr ⟨hfresh, hnodup⟩, ?_, by simp [hlength]⟩
      intro k
      rw [List.mem_cons, hmem, @eq_comm _ k j]
      simp [or_comm]

end Moment

/-! ### Who is kept -/

/-- Whether a subscriber stands where it is registered when everybody is back. -/
def Standing.isKept : Standing → Bool
  | registered _ | noted _ | lost _ => true
  | _ => false

namespace Moment

variable {ω : Type} {limit : Nat} {σ τ : Moment ω} {e : Event ω} {r : Registry ω} {log : Log ω}
  {k : SubscriberId} {x : Standing}

/-- Only its removal costs a subscriber its place. -/
theorem Step.isKept (step : Step limit σ e τ) (sound : σ.Sound) (h : σ.Stands k x) (hx : x.isKept = true)
    (hkeeps : e.removes k = false) : (x.next k e).isKept = true := by
  cases e with
  | remove id failure answer =>
    by_cases hid : id = k
    · subst hid
      have hanswer := step.answer_eq sound h
      have hrefused : answer = false := by simpa [Event.removes] using hkeeps
      rw [Standing.next, if_pos rfl]
      -- a removal is refused only of a lost one
      cases x with
      | lost q => rfl
      | registered q => exact absurd (hrefused.symm.trans hanswer) Bool.false_ne_true
      | noted q => exact absurd (hrefused.symm.trans hanswer) Bool.false_ne_true
      | _ => cases hx
    · simpa only [Standing.next, if_neg hid] using hx
  | add s answer =>
    cases answer with
    | error _ => exact hx
    | ok id => cases x <;> simp_all [Standing.next, Standing.given, Standing.isKept]
  | dispatch m reached =>
    cases reached with
    | none => exact hx
    | some id =>
      by_cases hid : id = k <;> cases x <;>
        simp_all [Standing.next, Standing.reached, Standing.overtaken, Standing.isKept]
  | finish id =>
    by_cases hid : id = k <;> cases x <;> simp_all [Standing.next, Standing.finished, Standing.isKept]
  | _ => exact hx

theorem Path.isKept (path : Path limit σ log τ) (ready : σ.Ready log) (h : σ.Stands k x) (hx : x.isKept = true)
    (hkeeps : ∀ entry ∈ log, entry.event.removes k = false) : (x.after k log).isKept = true := by
  induction path generalizing x with
  | nil => exact hx
  | cons step _ ih =>
    obtain ⟨hthis, hrest⟩ := List.forall_mem_cons.mp hkeeps
    exact ih (step.ready ready) (step.stands ready h) (step.isKept ready.1 h hx hthis) hrest

/-- When nobody is out whoever is kept is registered, once. -/
theorem Stands.count_keys {busy : Bool} (h : Stands ⟨r, [], busy⟩ k x) (hx : x.isKept = true) :
    r.live.keys.count k = 1 := by
  have hmem : k ∈ r.live.keys := by
    cases x with
    | registered q =>
      obtain ⟨s, hs, -⟩ := h
      exact Std.TreeMap.mem_keys.mpr (Std.TreeMap.mem_iff_isSome_getElem?.mpr (by rw [hs]; rfl))
    | noted q => cases h.1
    | lost q => cases h.1
    | _ => cases hx
  rw [List.Nodup.count Std.TreeMap.nodup_keys, if_pos hmem]

/-- A subscriber that the registry counts is kept. -/
theorem Stands.isKept_of_contains {visits : List Visit} {busy : Bool} (h : Stands ⟨r, visits, busy⟩ k x)
    (sound : Sound ⟨r, visits, busy⟩) (hcontains : r.contains k = true) : x.isKept = true := by
  rw [h.contains_eq sound] at hcontains
  cases x <;> first | rfl | cases hcontains

/-- A subscriber that is added is kept. -/
theorem Path.isKept_of_given (path : Path limit σ log τ) (ready : σ.Ready log) (h : σ.Stands k x)
    (hk : k ∈ log.given) (hkeeps : ∀ entry ∈ log, entry.event.removes k = false) :
    (x.after k log).isKept = true := by
  obtain ⟨⟨e, r⟩, hentry, hgiven⟩ := List.mem_filterMap.mp hk
  obtain ⟨s, rfl⟩ := Event.eq_add_of_given? hgiven
  obtain ⟨front, back, rfl⟩ := List.append_of_mem hentry
  obtain ⟨υ, υ', hfront, step, -, hback⟩ := path.at_entry
  have hready := hfront.ready ready
  have hstands := hfront.stands ready.front h
  have hnext := step.stands hready hstands
  rw [step.eq_unknown_of_add hready.1 hstands] at hnext
  rw [Standing.after_append, Standing.after_cons, step.eq_unknown_of_add hready.1 hstands]
  refine hback.isKept (step.ready hready) hnext ?_ fun entry hmem => hkeeps entry ?_
  · rw [Standing.next, if_pos rfl]
    rfl
  · exact List.mem_append_right _ (List.mem_cons_of_mem _ hmem)

/-- Nobody is noted as out when nobody is out. -/
theorem Sound.at_rest {busy : Bool} (h : Sound ⟨r, [], busy⟩) : r.out = none ∧ r.outRemoved = false := by
  have hout : r.out = none := by
    rcases hnoted : r.out with _ | k
    · rfl
    · cases h.out k hnoted
  exact ⟨hout, h.outRemoved hout⟩

end Moment

/-! ### Runs from the outside -/

namespace Registry

open Moment (Path)

variable {ω : Type}

/-- A dispatch after any run, if both together make fewer additions than there are numbers.  Whatever the listeners
do, none of a subscriber starts while another one of it runs.  Afterwards nobody is noted as out, and whoever was
registered before or has been added meanwhile is registered once, unless it was removed.  The registry counts whom it
contains all the time. -/
theorem nested_dispatch {r₀ : Registry ω} (hfresh : r₀.Fresh) (depth₀ : Nat) (p : Program ω) (depth : Nat)
    (m : Message) (hadds : (r₀.log depth₀ p ++ dispatchLog depth m (r₀.after depth₀ p)).additions < numberLimit) :
    let r := r₀.after depth₀ p
    let log := dispatchLog depth m r
    let r' := (dispatch depth m r).2
    (∀ (front back : Log ω) (k : SubscriberId) (listener : Listener) (m' : Message) (r'' : Registry ω),
      log = front ++ ⟨.enter k listener m', r''⟩ :: back → k ∉ front.running) ∧
    (r'.out = none ∧ r'.outRemoved = false) ∧
    (∀ k, r.contains k = true ∨ k ∈ log.given → (∀ entry ∈ log, entry.event.removes k = false) →
      r'.live.keys.count k = 1) ∧
    r.Counts ∧ ∀ entry ∈ log, entry.after.Counts := by
  intro r log r'
  have hready := hfresh.ready hadds
  have hrun : Path depth₀ ⟨r₀, [], true⟩ (r₀.log depth₀ p) ⟨r, [], true⟩ := path_log depth₀ p r₀
  have hpath : Path depth ⟨r, [], true⟩ log ⟨r', [], true⟩ := path_dispatchLog (Nat.add_zero depth) m r
  have hbefore : Moment.Ready ⟨r, [], true⟩ log := hrun.ready hready
  refine ⟨?_, (hpath.sound hbefore).at_rest, ?_, hbefore.1.counts, ?_⟩
  · intro front back k listener m' r'' hlog
    rw [hlog] at hpath hbefore
    obtain ⟨τ, τ', hfront, step, -, -⟩ := hpath.at_entry
    have hfree := step.not_mem_running (hfront.ready hbefore).1
    rwa [hfront.running_eq] at hfree
  · intro k hk hkeeps
    have hstands := hrun.stands hready.front (hfresh.stands k)
    have hend := hpath.stands hbefore hstands
    refine hend.count_keys ?_
    rcases hk with hcontains | hgiven
    · exact hpath.isKept hbefore hstands (hstands.isKept_of_contains hbefore.1 hcontains) hkeeps
    · exact hpath.isKept_of_given hbefore hstands hgiven hkeeps
  · intro entry hentry
    obtain ⟨τ, hsound, hafter⟩ := hpath.sound_of_mem hbefore hentry
    rw [← hafter]
    exact hsound.counts

section Sample

/-- Two subscribers that dispatch to each other. -/
def sampleRing : Program Unit :=
  let calling (m : Message) : Callback (Program Unit) := .each fun _ _ => .dispatch m fun _ => .done
  .add ⟨.start "A" "X", none, [calling ((Message.start "B" "Y").withId 2)]⟩ fun _ =>
    .add ⟨.start "B" "Y", none, [calling ((Message.start "A" "X").withId 1)]⟩ fun _ => .done

def sampleCall : Message := (Message.start "A" "X").withId 1

/-- A subscriber to which a nested dispatch comes back is registered afterwards. -/
theorem nested_dispatch_sampleRing :
    (log 3 sampleRing { world := () } ++
      dispatchLog 3 sampleCall (after 3 sampleRing { world := () })).additions < numberLimit ∧
    (after 3 sampleRing { world := () }).contains 1 = true ∧
    (∀ entry ∈ dispatchLog 3 sampleCall (after 3 sampleRing { world := () }), entry.event.removes 1 = false) ∧
    (dispatch 3 sampleCall (after 3 sampleRing { world := () })).2.live.keys.count 1 = 1 := by
  have hadds : (log 3 sampleRing { world := () } ++
      dispatchLog 3 sampleCall (after 3 sampleRing { world := () })).additions < numberLimit := by decide +kernel
  have hin : (after 3 sampleRing { world := () }).contains 1 = true := by decide +kernel
  have hkeeps : ∀ entry ∈ dispatchLog 3 sampleCall (after 3 sampleRing { world := () }),
      entry.event.removes 1 = false := by decide +kernel
  obtain ⟨-, -, hkept, -⟩ := nested_dispatch ⟨rfl, rfl, rfl, rfl⟩ 3 sampleRing 3 sampleCall hadds
  exact ⟨hadds, hin, hkeeps, hkept 1 (.inl hin) hkeeps⟩

end Sample

end Registry
end LevelLink
