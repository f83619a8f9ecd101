import LevelLink.Proofs.Link.Standing

/-!
# Removals

A subscriber that is registered is removed for good.  The removal of one that is out takes effect when its listeners
have run, and is forgotten if a listener has dispatched to another subscriber meanwhile, be it before the removal or
after it: the registry has one place only to note who is out.  The subscriber is then put back (`removal_of_run`,
`removal_forgotten`).
-/

namespace LevelLink

/-! ### Reading a log -/

section Reading

variable {ω : Type}

/-- Whether the removal of the subscriber `k` is asked for. -/
def Event.asksRemoval (k : SubscriberId) : Event ω → Bool
  | .remove id _ _ => id == k
  | _ => false

/-- Whether a dispatch reaches somebody. -/
def Event.isReach : Event ω → Bool
  | .dispatch _ (some _) => true
  | _ => false

/-- Whether the removal of the subscriber `k` has been asked for. -/
def Log.asksRemoval (k : SubscriberId) (log : Log ω) : Bool := log.any fun entry => entry.event.asksRemoval k

/-- Whether a dispatch has reached somebody. -/
def Log.reaches (log : Log ω) : Bool := log.any fun entry => entry.event.isReach

/-- The registry does not contain the subscriber `k`, no dispatch reaches it, and none of its listeners starts. -/
def Log.IsWithout (k : SubscriberId) (log : Log ω) : Prop :=
  ∀ entry ∈ log, entry.after.contains k = false ∧
    (∀ m, entry.event ≠ .dispatch m (some k)) ∧ ∀ listener m, entry.event ≠ .enter k listener m

end Reading

/-! ### A subscriber that is out -/

namespace Standing

variable {ω : Type}

/-- Where a subscriber stands that is out, depending on whether its removal has been asked for and whether a dispatch
has reached somebody since it went out. -/
def whileOut (q : Message) (asked reached : Bool) : Standing :=
  if reached then lost q else if asked then dismissed q else noted q

theorem next_whileOut (k : SubscriberId) (q : Message) (asked reached : Bool) {e : Event ω} (he : e ≠ .finish k) :
    (whileOut q asked reached).next k e = whileOut q (asked || e.asksRemoval k) (reached || e.isReach) := by
  cases e with
  | remove id failure answer =>
    by_cases hid : id = k <;> cases asked <;> cases reached <;>
      simp [whileOut, next, removed, Event.asksRemoval, Event.isReach, hid]
  | dispatch m target =>
    cases target with
    | none => simp [next, Event.asksRemoval, Event.isReach]
    | some id =>
      by_cases hid : id = k <;> cases reached <;> cases asked <;>
        simp [whileOut, next, Standing.reached, overtaken, Event.isReach, hid]
  | add s answer =>
    cases answer with
    | error _ => simp [next, Event.asksRemoval, Event.isReach]
    | ok id =>
      by_cases hid : id = k <;> cases asked <;> cases reached <;>
        simp [whileOut, next, given, Event.asksRemoval, Event.isReach, hid]
  | finish id =>
    have hid : id ≠ k := by
      rintro rfl
      exact he rfl
    simp [next, Event.asksRemoval, Event.isReach, hid]
  | _ => simp [next, Event.asksRemoval, Event.isReach]

/-- Until its listeners have run, nothing else matters. -/
theorem after_whileOut (k : SubscriberId) (q : Message) (asked reached : Bool) {log : Log ω}
    (h : ∀ entry ∈ log, entry.event ≠ .finish k) :
    (whileOut q asked reached).after k log = whileOut q (asked || log.asksRemoval k) (reached || log.reaches) := by
  induction log generalizing asked reached with
  | nil => simp [after, Log.asksRemoval, Log.reaches]
  | cons entry log ih =>
    obtain ⟨hthis, hrest⟩ := List.forall_mem_cons.mp h
    rw [after_cons, next_whileOut k q asked reached hthis, ih _ _ hrest]
    simp only [Log.asksRemoval, Log.reaches, List.any_cons, Bool.or_assoc]

theorem counts_whileOut (q : Message) (asked reached : Bool) :
    (whileOut q asked reached).counts = !(asked || reached) := by
  cases asked <;> cases reached <;> rfl

/-- Whoever is out comes back, unless its removal was asked for and no dispatch has reached anybody. -/
theorem finished_whileOut (q : Message) (asked reached : Bool) :
    (whileOut q asked reached).finished = if asked && !reached then gone else registered q := by
  cases asked <;> cases reached <;> rfl

end Standing

/-! ### What steps say about removals -/

namespace Moment

variable {ω : Type} {limit : Nat} {σ τ : Moment ω} {e : Event ω} {r : Registry ω} {log back : Log ω}
  {k : SubscriberId} {x : Standing} {m q : Message}

/-- Only a subscriber that is out has listeners run. -/
theorem Step.mem_visits_of_enter {listener : Listener} (step : Step limit σ (.enter k listener m) τ) :
    k ∈ σ.visits.map Visit.id := by
  cases step with
  | enter r v visits => exact List.mem_cons_self
  | quiet hquiet => exact hquiet.elim

/-- Gone is gone. -/
theorem Path.isWithout (path : Path limit σ log τ) (ready : σ.Ready log) (h : σ.Stands k .gone) :
    log.IsWithout k := by
  induction path with
  | nil =>
    intro entry hentry
    cases hentry
  | @cons σ τ υ e log step _ ih =>
    have hnext := step.stands ready h
    rw [Standing.next_gone] at hnext
    have hready := step.ready ready
    refine List.forall_mem_cons.mpr ⟨⟨hnext.contains_eq hready.1, ?_, ?_⟩, ih hready hnext⟩
    · rintro m rfl
      obtain ⟨q, hq, -⟩ := step.of_reach ready.1 h
      cases hq
    · rintro listener m rfl
      exact h.2.2 step.mem_visits_of_enter

/-- A subscriber that is removed while it is not out is gone at once. -/
theorem Step.gone_of_remove {failure : Option StreamError} (step : Step limit σ (.remove k failure true) τ)
    (ready : σ.Ready (⟨.remove k failure true, r⟩ :: log)) (h : σ.Stands k x) (hout : τ.registry.out ≠ some k) :
    τ.Stands k .gone := by
  have hcounts := step.answer_eq ready.1 h
  have hnext := step.stands ready h
  rw [Standing.next, if_pos rfl] at hnext
  cases x with
  | registered q => exact hnext
  | noted q => exact absurd hnext.2.1 hout
  | _ => cases hcounts

/-- A dispatch that reaches a subscriber takes it out. -/
theorem Step.whileOut_of_reach (step : Step limit σ (.dispatch m (some k)) τ)
    (ready : σ.Ready (⟨.dispatch m (some k), r⟩ :: log)) (h : σ.Stands k x) :
    ∃ q, τ.Stands k (.whileOut q false false) := by
  obtain ⟨q, rfl, -⟩ := step.of_reach ready.1 h
  have hnext := step.stands ready h
  rw [Standing.next, if_pos rfl] at hnext
  exact ⟨q, hnext⟩

theorem Path.whileOut (path : Path limit σ log τ) (ready : σ.Ready log)
    (h : σ.Stands k (.whileOut q false false)) (hopen : ∀ entry ∈ log, entry.event ≠ .finish k) :
    τ.Stands k (.whileOut q (log.asksRemoval k) log.reaches) := by
  have hend := path.stands ready h
  rwa [Standing.after_whileOut k q false false hopen, Bool.false_or, Bool.false_or] at hend

/-- Whether a subscriber is contained that is out. -/
theorem Path.contains_whileOut {entry : Entry ω} (path : Path limit σ (log ++ entry :: back) τ)
    (ready : σ.Ready (log ++ entry :: back)) (h : σ.Stands k (.whileOut q false false))
    (hopen : ∀ entry' ∈ log ++ [entry], entry'.event ≠ .finish k) :
    entry.after.contains k = !((log ++ [entry]).asksRemoval k || (log ++ [entry]).reaches) := by
  rcases entry with ⟨e, r⟩
  obtain ⟨υ, υ', hlog, step, hafter, -⟩ := path.at_entry
  dsimp only at hafter
  subst hafter
  have hwhole := hlog.append (.single step)
  rw [List.append_cons] at ready
  have hend := hwhole.whileOut ready.front h hopen
  rw [hend.contains_eq (hwhole.sound ready.front), Standing.counts_whileOut]

/-- What becomes of a subscriber when its listeners have run. -/
theorem Path.finish_whileOut (path : Path limit σ (log ++ ⟨.finish k, r⟩ :: back) τ)
    (ready : σ.Ready (log ++ ⟨.finish k, r⟩ :: back)) (h : σ.Stands k (.whileOut q false false))
    (hopen : ∀ entry ∈ log, entry.event ≠ .finish k) :
    r.contains k = !(log.asksRemoval k && !log.reaches) ∧ (r.contains k = false → back.IsWithout k) := by
  obtain ⟨υ, υ', hlog, step, hafter, hback⟩ := path.at_entry
  have hready := hlog.ready ready
  have hnext := step.stands hready (hlog.whileOut ready.front h hopen)
  have hlater := step.ready hready
  rw [Standing.next, if_pos rfl, Standing.finished_whileOut] at hnext
  dsimp only at hafter
  subst hafter
  rw [hnext.contains_eq hlater.1]
  cases hgone : log.asksRemoval k && !log.reaches with
  | true =>
    rw [hgone] at hnext
    exact ⟨rfl, fun _ => hback.isWithout hlater hnext⟩
  | false =>
    refine ⟨rfl, fun hnot => ?_⟩
    cases hnot

end Moment

/-! ### Runs from the outside -/

namespace Registry

open Moment (Path)

variable {ω : Type}

/-- What removals bring about in a run with fewer additions than there are numbers.  A subscriber that is removed
while it is not out is gone for good.  A subscriber that is out is contained as long as its removal has not been
asked for and no dispatch has reached anybody.  When its listeners have run it is contained again, unless its
removal was asked for and no dispatch has reached anybody, and it is then gone for good. -/
theorem removal_of_run {r : Registry ω} (hfresh : r.Fresh) (depth : Nat) (p : Program ω)
    (hadds : (r.log depth p).additions < numberLimit) :
    (∀ (front back : Log ω) (k : SubscriberId) (failure : Option StreamError) (r' : Registry ω),
      r.log depth p = front ++ ⟨.remove k failure true, r'⟩ :: back → r'.out ≠ some k →
        r'.contains k = false ∧ back.IsWithout k) ∧
    (∀ (front delivery back : Log ω) (m : Message) (k : SubscriberId) (r₁ r₂ : Registry ω),
      r.log depth p = front ++ ⟨.dispatch m (some k), r₁⟩ :: (delivery ++ ⟨.finish k, r₂⟩ :: back) →
      (∀ entry ∈ delivery, entry.event ≠ .finish k) →
        (∀ (d d' : Log ω) (entry : Entry ω), delivery = d ++ entry :: d' →
          entry.after.contains k = !((d ++ [entry]).asksRemoval k || (d ++ [entry]).reaches)) ∧
        r₂.contains k = !(delivery.asksRemoval k && !delivery.reaches) ∧
        (r₂.contains k = false → back.IsWithout k)) := by
  have path := path_log depth p r
  have ready := hfresh.ready hadds
  constructor
  · intro front back k failure r' hlog hout
    rw [hlog] at path ready
    obtain ⟨τ, τ', hfront, step, hafter, hback⟩ := path.at_entry
    have hready := hfront.ready ready
    have hstands := hfront.stands ready.front (hfresh.stands k)
    dsimp only at hafter
    have hgone := step.gone_of_remove hready hstands (hafter ▸ hout)
    have hnext := step.ready hready
    exact ⟨hafter ▸ hgone.contains_eq hnext.1, hback.isWithout hnext hgone⟩
  · intro front delivery back m k r₁ r₂ hlog hopen
    rw [hlog] at path ready
    obtain ⟨τ, τ', hfront, step, -, hrest⟩ := path.at_entry
    have hready := hfront.ready ready
    have hinside := step.ready hready
    obtain ⟨q, hout⟩ := step.whileOut_of_reach hready (hfront.stands ready.front (hfresh.stands k))
    refine ⟨?_, hrest.finish_whileOut hinside hout hopen⟩
    rintro d d' entry rfl
    rw [List.append_assoc, List.cons_append] at hrest hinside
    refine hrest.contains_whileOut hinside hout fun entry' hmem => hopen entry' ?_
    rw [List.append_cons]
    exact List.mem_append_left _ hmem

section Sample

/-- A request of which the first reply is of interest, and two replies. -/
def sampleReplies : Program Unit :=
  .add (.once (.start "A" "X") fun _ _ => .done) fun _ =>
    .dispatch ((Message.start "A" "X").withId 1) fun _ =>
    .dispatch ((Message.start "A" "X").withId 1) fun _ => .done

/-- The first reply removes the subscriber for good; the second one reaches nobody. -/
theorem removal_of_sampleReplies : (log 1 sampleReplies { world := () }).additions < numberLimit ∧
    Log.IsWithout 1 [⟨.dispatch ((Message.start "A" "X").withId 1) none, after 1 sampleReplies { world := () }⟩] := by
  have hadds : (log 1 sampleReplies { world := () }).additions < numberLimit := by decide +kernel
  obtain ⟨-, hdeliveries⟩ := removal_of_run ⟨rfl, rfl, rfl, rfl⟩ 1 sampleReplies hadds
  obtain ⟨-, hcontains, hgone⟩ := hdeliveries [_] [_, _, _]
    [⟨.dispatch ((Message.start "A" "X").withId 1) none, after 1 sampleReplies { world := () }⟩] _ 1 _ _ rfl (by simp)
  refine ⟨hadds, hgone ?_⟩
  rw [hcontains]
  decide +kernel

/-- A request of which the first reply is of interest, the listener for which dispatches to another subscriber. -/
def sampleDetour : Program Unit :=
  .add { request := .start "A" "X" } fun _ =>
    .add (.once (.start "A" "X") fun _ _ => .dispatch ((Message.start "A" "X").withId 1) fun _ => .done) fun _ =>
    .dispatch ((Message.start "A" "X").withId 2) fun _ => .done

/-- The first reply removes the subscriber, but when the dispatch is over it is registered again. -/
theorem removal_forgotten :
    ((log 2 sampleDetour { world := () }).any fun entry => entry.event.removes 2) = true ∧
      (after 2 sampleDetour { world := () }).contains 2 = true := by
  decide +kernel

end Sample

end Registry
end LevelLink
