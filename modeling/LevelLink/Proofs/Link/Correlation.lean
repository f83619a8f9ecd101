import LevelLink.Proofs.Link.Standing

/-!
# Correlation

Numbers and deliveries over whole runs in which no listener dispatches.  Numbers only rise, and the request of a
subscriber carries the subscriber's number.  What a subscriber gets between its addition and its removal are
exactly the dispatched messages that carry its names and its number (`deliveries_of_run`).
-/

namespace LevelLink

/-! ### Reading a log -/

namespace Event

variable {ω : Type}

/-- The message that is dispatched. -/
def dispatched? : Event ω → Option Message
  | .dispatch m _ => some m
  | _ => none

/-- A message that has reached a subscriber, with the number of the subscriber. -/
def delivered? : Event ω → Option (SubscriberId × Message)
  | .dispatch m (some id) => some (id, m)
  | _ => none

end Event

namespace Log

variable {ω : Type} (log : Log ω)

/-- The messages that are dispatched, in order. -/
def dispatched : List Message := log.filterMap fun entry => entry.event.dispatched?

/-- The messages that reach a subscriber, in order. -/
def delivered : List (SubscriberId × Message) := log.filterMap fun entry => entry.event.delivered?

/-- The messages that reach the subscriber `k`, in order. -/
def deliveredTo (k : SubscriberId) : List Message :=
  (log.delivered.filter fun delivery => delivery.1 == k).map Prod.snd

/-- What happens before the subscriber `k` is removed. -/
def untilRemoval (k : SubscriberId) : Log ω := log.takeWhile fun entry => !entry.event.removes k

/-- Whether every dispatch is made from the outside, `out` subscribers being out at first. -/
def isFlat : (out : Nat) → Log ω → Bool
  | _, [] => true
  | out, entry :: log =>
    match entry.event with
    | .dispatch _ none => out == 0 && isFlat out log
    | .dispatch _ (some _) => out == 0 && isFlat (out + 1) log
    | .finish _ => isFlat (out - 1) log
    | _ => isFlat out log

theorem dispatched_cons (entry : Entry ω) :
    dispatched (entry :: log) = entry.event.dispatched?.toList ++ dispatched log := by
  unfold dispatched
  rw [List.filterMap_cons]
  cases entry.event.dispatched? <;> rfl

theorem deliveredTo_append (front back : Log ω) (k : SubscriberId) :
    deliveredTo (front ++ back) k = front.deliveredTo k ++ back.deliveredTo k := by
  simp [deliveredTo, delivered]

theorem deliveredTo_cons_of_ne {entry : Entry ω} {k : SubscriberId}
    (h : ∀ m, entry.event ≠ .dispatch m (some k)) : deliveredTo (entry :: log) k = log.deliveredTo k := by
  rcases entry with ⟨e, r⟩
  cases e with
  | dispatch m reached =>
    cases reached with
    | none => rfl
    | some id =>
      have hne : id ≠ k := by
        rintro rfl
        exact h m rfl
      simp [deliveredTo, delivered, Event.delivered?, hne]
  | _ => rfl

/-- Nothing is delivered that is not dispatched, and nothing is delivered twice. -/
theorem delivered_sublist : (log.delivered.map Prod.snd).Sublist log.dispatched := by
  induction log with
  | nil => exact .slnil
  | cons entry log ih =>
    rcases entry with ⟨e, r⟩
    cases e with
    | dispatch m reached =>
      cases reached with
      | none => exact ih.cons m
      | some id => exact ih.cons_cons m
    | _ => exact ih

end Log

instance Message.decidableAddressedTo (m : Message) (node name : String) (id : SubscriberId) :
    Decidable (m.AddressedTo node name id) :=
  inferInstanceAs (Decidable (_ ∧ _ ∧ _))

namespace Moment

open Registry (numberLimit)

variable {ω : Type} {limit : Nat} {σ τ : Moment ω} {e : Event ω} {r : Registry ω} {log : Log ω}
  {k : SubscriberId} {x : Standing} {m q : Message}

/-! ### Numbers -/

/-- The numbers that a run gives rise, from the next one on. -/
theorem Path.given_sorted (path : Path limit σ log τ) (ready : σ.Ready log) :
    log.given.Pairwise (· < ·) ∧ ∀ id ∈ log.given, σ.registry.nextId ≤ id := by
  induction path with
  | nil => exact ⟨List.Pairwise.nil, nofun⟩
  | @cons σ τ υ e log step _ ih =>
    obtain ⟨hsorted, hfrom⟩ := ih (step.ready ready)
    have hnext := step.nextId_eq ready
    have hlater : ∀ id ∈ Log.given log, σ.registry.nextId.toInt + e.isAdd.toNat ≤ id.toInt := by
      intro id hid
      rw [← hnext]
      exact Int32.le_iff_toInt_le.mp (hfrom id hid)
    have hrest : ∀ id ∈ Log.given log, σ.registry.nextId ≤ id := by
      intro id hid
      have hle := hlater id hid
      exact Int32.le_iff_toInt_le.mpr (by omega)
    rw [Log.given_cons]
    rcases hgiven : e.given? with _ | id
    · exact ⟨hsorted, hrest⟩
    · obtain ⟨s, rfl⟩ := Event.eq_add_of_given? hgiven
      obtain ⟨rfl, -⟩ := step.of_add
      simp only [Event.isAdd, Bool.toNat_true] at hlater
      refine ⟨List.pairwise_cons.mpr ⟨?_, hsorted⟩, List.forall_mem_cons.mpr ⟨Int32.le_refl _, hrest⟩⟩
      intro id hid
      have hle := hlater id hid
      exact Int32.lt_iff_toInt_lt.mpr (by omega)

/-! ### Deliveries -/

/-- A dispatch that reaches nobody, though it is not too deep, addresses nobody who is registered. -/
theorem Step.of_miss (step : Step limit σ (.dispatch m none) τ) (hdeep : σ.visits.length < limit)
    (h : σ.Stands k (.registered q)) : ¬ m.AddressedTo q.node q.name k := by
  cases step with
  | miss hmiss =>
    rintro ⟨hnode, hname, rfl⟩
    obtain ⟨s, hs, rfl⟩ := h
    have haccepts := hmiss hdeep s hs
    simp [SubscriberOver.accepts, hnode, hname] at haccepts
  | quiet hquiet => exact hquiet.elim

/-- The number that a dispatch reaches is the one in the message. -/
theorem Step.id_of_reach (step : Step limit σ (.dispatch m (some k)) τ) : m.id = k := by
  cases step with
  | reach => rfl
  | quiet hquiet => exact hquiet.elim

/-- Nobody is out where a flat run dispatches, and what follows is flat. -/
theorem Step.isFlat (step : Step limit σ e τ) (flat : Log.isFlat σ.visits.length (⟨e, r⟩ :: log) = true) :
    Log.isFlat τ.visits.length log = true ∧ ∀ m reached, e = .dispatch m reached → σ.visits = [] := by
  cases step with
  | quiet hquiet =>
    cases e <;> first | exact ⟨flat, nofun⟩ | exact hquiet.elim
  | miss =>
    simp only [Log.isFlat, Bool.and_eq_true, beq_iff_eq] at flat
    exact ⟨flat.1 ▸ flat.2, fun _ _ _ => List.eq_nil_of_length_eq_zero flat.1⟩
  | reach =>
    simp only [Log.isFlat, Bool.and_eq_true, beq_iff_eq] at flat
    exact ⟨flat.2, fun _ _ _ => List.eq_nil_of_length_eq_zero flat.1⟩
  | _ => exact ⟨flat, nofun⟩

/-- Whoever is not registered is not reached. -/
theorem Step.deliveredTo_cons (step : Step limit σ e τ) (sound : σ.Sound) (h : σ.Stands k x)
    (hx : ∀ q, x ≠ .registered q) : Log.deliveredTo (⟨e, r⟩ :: log) k = log.deliveredTo k := by
  refine log.deliveredTo_cons_of_ne ?_
  rintro m rfl
  obtain ⟨q, hq, -⟩ := step.of_reach sound h
  exact absurd hq (hx q)

/-- A number gets nothing before it is given. -/
theorem Path.deliveredTo_of_unknown (path : Path limit σ log τ) (ready : σ.Ready log) (hk : k ∉ log.given)
    (h : σ.Stands k .unknown) : log.deliveredTo k = [] := by
  induction path with
  | nil => rfl
  | @cons σ τ υ e log step _ ih =>
    rw [Log.given_cons, List.mem_append, not_or] at hk
    have hgiven : ∀ s, e ≠ .add s (.ok k) := by
      rintro s rfl
      exact hk.1 List.mem_cons_self
    have hstay := step.stands ready h
    rw [Standing.next_unknown hgiven] at hstay
    rw [step.deliveredTo_cons ready.1 h nofun]
    exact ih (step.ready ready) hk.2 hstay

/-- A subscriber gets nothing after its removal. -/
theorem Path.deliveredTo_of_over (path : Path limit σ log τ) (ready : σ.Ready log)
    (flat : Log.isFlat σ.visits.length log = true) (hx : x = .gone ∨ x = .dismissed q) (h : σ.Stands k x) :
    log.deliveredTo k = [] := by
  induction path generalizing x with
  | nil => rfl
  | @cons σ τ υ e log step _ ih =>
    obtain ⟨hrest, houtside⟩ := step.isFlat flat
    have hover : x.next k e = .gone ∨ x.next k e = .dismissed q := by
      rcases hx with rfl | rfl
      · exact .inl (Standing.next_gone k e)
      · cases e with
        | dispatch m reached =>
          have hhead := h.1
          rw [houtside m reached rfl] at hhead
          cases hhead
        | add s answer => cases answer <;> simp [Standing.next, Standing.given]
        | remove id failure answer => simp [Standing.next, Standing.removed]
        | finish id =>
          by_cases hid : id = k
          · exact .inl (if_pos hid)
          · exact .inr (if_neg hid)
        | _ => exact .inr rfl
    have hnot : ∀ q', x ≠ .registered q' := by
      intro q' heq
      rcases hx with rfl | rfl <;> cases heq
    rw [step.deliveredTo_cons ready.1 h hnot]
    exact ih (step.ready ready) hrest hover (step.stands ready h)

/-- What a step of a flat run means for a registered subscriber: its removal, or no removal and the delivery of what
is dispatched and addressed to it. -/
theorem Step.serves (step : Step limit σ e τ) (hlimit : 0 < limit) (sound : σ.Sound)
    (houtside : ∀ m reached, e = .dispatch m reached → σ.visits = [])
    (hx : x = .registered q ∨ x = .noted q) (h : σ.Stands k x) :
    (e.removes k = true ∧ Log.deliveredTo [⟨e, r⟩] k = [] ∧ (x.next k e = .gone ∨ x.next k e = .dismissed q)) ∨
    (e.removes k = false ∧ (x.next k e = .registered q ∨ x.next k e = .noted q) ∧
      Log.deliveredTo [⟨e, r⟩] k = e.dispatched?.toList.filter (·.AddressedTo q.node q.name k)) := by
  cases e with
  | dispatch m reached =>
    have hvisits := houtside m reached rfl
    have hregistered : x = .registered q := by
      refine hx.resolve_right ?_
      rintro rfl
      have hhead := h.1
      rw [hvisits] at hhead
      cases hhead
    subst hregistered
    refine .inr ⟨rfl, ?_⟩
    cases reached with
    | none =>
      have hother := step.of_miss (by simpa [hvisits] using hlimit) h
      refine ⟨.inl rfl, ?_⟩
      simp [Log.deliveredTo, Log.delivered, Event.delivered?, Event.dispatched?, hother]
    | some id =>
      by_cases hid : id = k
      · subst hid
        obtain ⟨q', hq, haddr⟩ := step.of_reach sound h
        obtain rfl := Standing.registered.inj hq
        refine ⟨.inr (if_pos rfl), ?_⟩
        simp [Log.deliveredTo, Log.delivered, Event.delivered?, Event.dispatched?, haddr]
      · have hother : ¬ m.AddressedTo q.node q.name k := fun haddr => hid (step.id_of_reach.symm.trans haddr.2.2)
        refine ⟨.inl (if_neg hid), ?_⟩
        simp [Log.deliveredTo, Log.delivered, Event.delivered?, Event.dispatched?, hother, hid]
  | remove id failure answer =>
    by_cases hid : id = k
    · subst hid
      obtain rfl := step.answer_eq sound h
      refine .inl ⟨?_, rfl, ?_⟩ <;>
        rcases hx with rfl | rfl <;> simp [Event.removes, Standing.next, Standing.counts, Standing.removed]
    · refine .inr ⟨by simp [Event.removes, hid], ?_, rfl⟩
      simpa only [Standing.next, if_neg hid] using hx
  | add s answer =>
    refine .inr ⟨rfl, ?_, rfl⟩
    cases answer with
    | error _ => exact hx
    | ok id => rcases hx with rfl | rfl <;> simp [Standing.next, Standing.given]
  | finish id =>
    refine .inr ⟨rfl, ?_, rfl⟩
    rcases hx with rfl | rfl
    · exact .inl (ite_self _)
    · by_cases hid : id = k
      · exact .inl (if_pos hid)
      · exact .inr (if_neg hid)
  | _ => exact .inr ⟨rfl, hx, rfl⟩

/-- Until its removal a registered subscriber gets what is addressed to it. -/
theorem Path.deliveredTo_of_registered (path : Path limit σ log τ) (hlimit : 0 < limit) (ready : σ.Ready log)
    (flat : Log.isFlat σ.visits.length log = true) (hx : x = .registered q ∨ x = .noted q) (h : σ.Stands k x) :
    log.deliveredTo k = (log.untilRemoval k).dispatched.filter (·.AddressedTo q.node q.name k) := by
  induction path generalizing x with
  | nil => rfl
  | @cons σ τ υ e log step path ih =>
    obtain ⟨hrest, houtside⟩ := step.isFlat flat
    have hnext := step.stands ready h
    rw [← List.singleton_append, Log.deliveredTo_append]
    rcases step.serves hlimit ready.1 houtside hx h with ⟨hremoves, hthis, hover⟩ | ⟨hkeeps, hstill, hthis⟩
    · rw [path.deliveredTo_of_over (step.ready ready) hrest hover hnext, hthis]
      simp [Log.untilRemoval, hremoves, Log.dispatched]
    · rw [ih (step.ready ready) hrest hstill hnext, hthis]
      simp [Log.untilRemoval, hkeeps, Log.dispatched_cons]

/-- What follows a part of a flat run is flat. -/
theorem Path.isFlat {back : Log ω} (path : Path limit σ log τ)
    (flat : Log.isFlat σ.visits.length (log ++ back) = true) : Log.isFlat τ.visits.length back = true := by
  induction path with
  | nil => exact flat
  | cons step _ ih => exact ih (step.isFlat flat).1

/-- What follows the addition of a subscriber, if the run is flat. -/
theorem Path.deliveredTo_of_add {υ : Moment ω} {back : Log ω} {s : Subscriber ω} (hlimit : 0 < limit)
    (step : Step limit σ (.add s (.ok k)) τ) (path : Path limit τ back υ)
    (ready : σ.Ready (⟨.add s (.ok k), r⟩ :: back)) (flat : Log.isFlat τ.visits.length back = true)
    (h : σ.Stands k .unknown) :
    back.deliveredTo k = (back.untilRemoval k).dispatched.filter (·.AddressedTo s.request.node s.request.name k) := by
  have hnext := step.stands ready h
  have hregistered : Standing.unknown.next k (.add s (.ok k)) = .registered (s.request.withId k).prepare :=
    if_pos rfl
  rw [hregistered] at hnext
  exact path.deliveredTo_of_registered (q := (s.request.withId k).prepare) hlimit (step.ready ready) flat (.inl rfl)
    hnext

end Moment

/-! ### Runs from the outside -/

namespace Registry

open Moment (Path)

variable {ω : Type}

theorem snd_readHeader_frame (m : Message) : (Message.readHeader m.frame).2 = m.id := by
  rw [Message.readHeader, Message.frame_eq, List.append_assoc, List.drop_left' (Bytes.length_ofInt32 _)]
  exact Bytes.toInt32_ofInt32_append m.id m.body

/-- Numbers and deliveries in a run with fewer additions than there are numbers, in which no listener dispatches.
The numbers rise from 1 on, the subscribers are kept under them, and the request of a subscriber goes out with
its number.  A subscriber gets, in order, the messages that are dispatched after its addition and before its removal
and carry its names and its number, and nothing else.  So a message is delivered at most once, and which other
messages are dispatched, and when, does not matter to a subscriber. -/
theorem deliveries_of_run {r : Registry ω} (hfresh : r.Fresh) (depth : Nat) (p : Program ω)
    (hadds : (r.log (depth + 1) p).additions < numberLimit) (hflat : (r.log (depth + 1) p).isFlat 0 = true) :
    (r.log (depth + 1) p).given.Pairwise (· < ·) ∧
    (∀ k ∈ (r.log (depth + 1) p).given, 1 ≤ k) ∧
    (∀ entry ∈ r.log (depth + 1) p, ∀ (k : SubscriberId) (s : Subscriber ω),
      entry.after.live[k]? = some s → s.request.id = k) ∧
    (∀ (front back : Log ω) (s : Subscriber ω) (k : SubscriberId) (r' : Registry ω),
      r.log (depth + 1) p = front ++ ⟨.add s (.ok k), r'⟩ :: back →
        r'.outbox.back? = some (s.request.withId k).frame ∧
        (Message.readHeader (s.request.withId k).frame).2 = k ∧
        (r.log (depth + 1) p).deliveredTo k =
          (back.untilRemoval k).dispatched.filter (·.AddressedTo s.request.node s.request.name k)) ∧
    ((r.log (depth + 1) p).delivered.map Prod.snd).Sublist (r.log (depth + 1) p).dispatched := by
  have path := path_log (depth + 1) p r
  have ready := hfresh.ready hadds
  obtain ⟨hsorted, hfrom⟩ := path.given_sorted ready
  refine ⟨hsorted, ?_, ?_, ?_, Log.delivered_sublist _⟩
  · intro k hk
    have hle := hfrom k hk
    rwa [hfresh.nextId] at hle
  · intro entry hentry k s hs
    obtain ⟨τ, hsound, hafter⟩ := path.sound_of_mem ready hentry
    rw [← hafter] at hs
    exact (hsound.live k s hs).2
  · intro front back s k r' hlog
    rw [hlog] at path ready hflat hsorted ⊢
    obtain ⟨τ, τ', hfront, step, hafter, hback⟩ := path.at_entry
    obtain ⟨-, hframe⟩ := step.of_add
    have hready := hfront.ready ready
    have hunknown : τ.Stands k .unknown := by
      have hstands := hfront.stands ready.front (hfresh.stands k)
      rwa [step.eq_unknown_of_add hready.1 hstands] at hstands
    have hbefore : k ∉ front.given := by
      intro hmem
      rw [Log.given, List.filterMap_append, List.pairwise_append] at hsorted
      have hlt := hsorted.2.2 k hmem k (by simp [Event.given?])
      exact Int32.lt_irrefl hlt
    have hnone := hfront.deliveredTo_of_unknown ready.front hbefore (hfresh.stands k)
    have hflat' := hfront.isFlat hflat
    dsimp only at hafter
    refine ⟨hafter ▸ hframe, snd_readHeader_frame _, ?_⟩
    rw [Log.deliveredTo_append, hnone, List.nil_append, Log.deliveredTo_cons_of_ne]
    case h => exact fun m heq => by cases heq
    exact Path.deliveredTo_of_add (Nat.succ_pos depth) step hback hready (step.isFlat hflat').1 hunknown

section Sample

/-- A request of which the first reply is of interest, and another one that this reply leads to. -/
def sampleTalk : Program Unit :=
  .add (.once (.start "A" "X") fun _ _ => .add { request := .start "B" "Y" } fun _ => .done) fun _ =>
    .dispatch ((Message.start "B" "Y").withId 1) fun _ =>
    .dispatch ((Message.start "A" "X").withId 1) fun _ =>
    .dispatch ((Message.start "B" "Y").withId 2) fun _ =>
    .dispatch ((Message.start "A" "X").withId 1) fun _ => .done

/-- Of four replies the first request gets the first that is addressed to it. -/
theorem deliveries_of_sampleTalk :
    (log 1 sampleTalk { world := () }).additions < numberLimit ∧ (log 1 sampleTalk { world := () }).isFlat 0 = true ∧
      (log 1 sampleTalk { world := () }).deliveredTo 1 = [(Message.start "A" "X").withId 1] := by
  have hadds : (log 1 sampleTalk { world := () }).additions < numberLimit := by decide +kernel
  have hflat : (log 1 sampleTalk { world := () }).isFlat 0 = true := by decide +kernel
  obtain ⟨-, -, -, hadded, -⟩ := deliveries_of_run ⟨rfl, rfl, rfl, rfl⟩ 0 sampleTalk hadds hflat
  obtain ⟨-, -, hgets⟩ := hadded [] _ _ _ _ rfl
  exact ⟨hadds, hflat, hgets.trans (by decide +kernel)⟩

end Sample

end Registry
end LevelLink
