import LevelLink.Proofs.Link.Dispatch
import LevelLink.Proofs.Transfer.Confinement
import LevelLink.Proofs.Transfer.Lifecycle

/-!
# Transfers that are removed

The subscriber of a transfer can be removed from outside, under the number that its stream tells.  Its handler is then
let go without a word: the completion is not called, and the stream stays occupied.  A `Watch` is a course that notes
such removals.  As long as the latest transfer has not been removed, an occupied stream has its subscriber; once it has,
the stream is occupied for ever, and nothing can be started on it (`occupied_of_run`).
-/

namespace LevelLink.TransferStream

variable {υ : Type} {t : TransferStream} {id : SubscriberId} {s s' : Session υ} {journal : Journal υ}

/-! ### Letting a subscriber go -/

/-- Letting a subscriber go has touched nothing that a transfer under another number needs. -/
structure Released (id : SubscriberId) (w w' : World υ) : Prop where
  progress : w'.progress = w.progress
  app : w'.app = w.app
  latest : w'.latest = w.latest
  fetch : ∀ other, id ≠ other → w'.fetches[other]? = w.fetches[other]?
  offer : ∀ other, id ≠ other → w'.offers[other]? = w.offers[other]?

/-- Transfers are let go so, on whichever stream. -/
theorem Handles.released {h : Handler (World υ) (Program (World υ))} (hh : t.Handles h) (self : SubscriberId)
    (w : World υ) : Released self w (h.release self w) := by
  cases t with
  | down d =>
    obtain ⟨start, -, rfl⟩ := hh
    exact ⟨rfl, rfl, rfl, fun _ hother => (getElem?_erase_ite ..).trans (if_neg hother), fun _ _ => rfl⟩
  | up u =>
    obtain ⟨start, -, rfl⟩ := hh
    exact ⟨rfl, rfl, rfl, fun _ _ => rfl, fun _ hother => (getElem?_erase_ite ..).trans (if_neg hother)⟩

/-- Whoever is registered under the number would be let go so. -/
def Releases (s : Session υ) (id : SubscriberId) : Prop :=
  ∀ subscriber, s.live[id]? = some subscriber → Released id s.world (subscriber.release id s.world)

theorem Owns.releases (h : t.Owns s id) : Releases s id := by
  obtain ⟨request, handler, hlive, hhandles⟩ := h
  intro subscriber hsubscriber
  obtain rfl := Option.some.inj (hlive.symm.trans hsubscriber)
  exact hhandles.released id s.world

/-- What a removal does to the world. -/
theorem released_remove (h : Releases s id) : Released id s.world (s.remove id).2.world := by
  rcases s.remove_cases id with ⟨subscriber, hlive, hremove⟩ | ⟨-, -, -, hremove⟩ | ⟨-, -, hremove⟩
  all_goals rw [hremove]
  · exact h subscriber hlive
  · exact ⟨rfl, rfl, rfl, fun _ _ => rfl, fun _ _ => rfl⟩
  · exact ⟨rfl, rfl, rfl, fun _ _ => rfl, fun _ _ => rfl⟩

theorem state_of_released (h : Released id s.world s'.world) (e : Endpoint) :
    (e.progress s').state = (e.progress s).state := by
  rw [Endpoint.progress, World.progressOf, h.progress]
  rfl

theorem latest_of_released (h : Released id s.world s'.world) (e : Endpoint) : e.latest? s' = e.latest? s := by
  rw [Endpoint.latest?, h.latest]
  rfl

/-! ### Runs with removals -/

/-- What happens passes the stream by: it spares it, and the subscriber that it has had last is the same. -/
structure PassedBy (t : TransferStream) (journal : Journal υ) (s s' : Session υ) : Prop extends
    t.Spared journal s s' where
  latest : t.endpoint.latest? s' = t.endpoint.latest? s

/-- A course, and the subscribers that have been removed from outside since its latest transfer was started. -/
structure Watch (υ : Type) extends Course υ where
  removed : List SubscriberId := []

namespace Watch

/-- A transfer is started, if none is in progress and it can be requested. -/
def begin (t : TransferStream) (name : String) (checksum : Option String) (act : Completion υ) (w : Watch υ) :
    Watch υ where
  toCourse := w.toCourse.begin t name checksum act
  removed :=
    match (t.begin name checksum act).on w.session with
    | (.ok true, _) => []
    | _ => w.removed

/-- A message is dispatched. -/
def receive (depth : Nat) (m : Message) (w : Watch υ) : Watch υ := { w with toCourse := w.toCourse.receive depth m }

/-- A subscriber is removed, if there is one to remove. -/
def remove (id : SubscriberId) (w : Watch υ) : Watch υ :=
  match w.session.remove id with
  | (true, s) => { w with session := s, removed := id :: w.removed }
  | (false, s) => { w with session := s }

/-- What can happen next: a start, a message that reaches a subscriber of the stream or nobody, a step of a sender, a
removal, or something else that passes the stream by.  Any number can be removed; letting a subscriber go touches nothing
that belongs to others. -/
inductive Move (t : TransferStream) (journal : Journal υ) (w : Watch υ) : Watch υ → Prop where
  | begin (name : String) (checksum : Option String) (act : Completion υ) (hnotes : journal.NotedBy w.ids.length act) :
      Move t journal w (w.begin t name checksum act)
  | receive (depth : Nat) (m : Message) (hm : t.Owns w.session m.id ∨ w.session.live[m.id]? = none) :
      Move t journal w (w.receive depth m)
  | sender (j : SendJob) (cancelled : Bool) (stage : SendJob.Stage) :
      Move t journal w { w with session := (j.advance cancelled stage w.session).2 }
  | remove (id : SubscriberId) (releases : Releases w.session id) : Move t journal w (w.remove id)
  | others {s' : Session υ} (passed : t.PassedBy journal w.session s') : Move t journal w { w with session := s' }

/-- Any sequence of moves. -/
def Runs (t : TransferStream) (journal : Journal υ) : Watch υ → Watch υ → Prop := Relation.ReflTransGen (Move t journal)

end Watch

variable {w w' : Watch υ} {rest : List SubscriberId} {noted : List (Nat × Except StreamError Outcome)}

theorem passedBy_advance (j : SendJob) (cancelled : Bool) (stage : SendJob.Stage) (s : Session υ) :
    t.PassedBy journal s (j.advance cancelled stage s).2 := by
  refine ⟨spared_of_advance rfl t journal, ?_⟩
  rw [Endpoint.latest?, j.apart_advance (World.apart_latest s.world.latest) cancelled stage rfl]
  rfl

/-- The removal of somebody else's subscriber. -/
theorem passedBy_remove (hnot : ¬ t.Owns s id) (releases : Releases s id) :
    t.PassedBy journal s (s.remove id).2 := by
  have released := released_remove releases
  have hne : ∀ other, t.Owns s other → id ≠ other := by
    rintro other howns rfl
    exact hnot howns
  refine ⟨⟨state_of_released released _, congrArg journal released.app, ?_, ?_, ?_⟩, latest_of_released released _⟩
  · intro other howns
    rw [s.getElem?_remove id other]
    refine if_neg ?_
    rintro rfl
    refine howns.elim hnot ?_
    rintro ⟨request, handler, hlive, -⟩
    rw [s.getElem?_remove, if_pos rfl] at hlive
    cases hlive
  · exact fun other howns => released.fetch other (hne other howns)
  · exact fun other howns => released.offer other (hne other howns)

theorem latest_dispatch {m : Message} (hm : t.Owns s m.id ∨ s.live[m.id]? = none) (depth : Nat) :
    (Registry.dispatch depth m s).2.world.latest = s.world.latest := by
  rcases hm with ⟨request, handler, hlive, hhandles⟩ | hnone
  · exact hhandles.dispatch (World.apart_latest s.world.latest) ⟨request, rfl, rfl, hlive⟩ rfl depth rfl
  · rw [Registry.dispatch_of_getElem?_eq_none hnone]

/-! ### What holds along a run -/

/-- The latest transfer, as long as it has not been removed. -/
structure Attended (t : TransferStream) (journal : Journal υ) (w : Watch υ) : Prop where
  sound : Sound t journal w.toCourse
  latest : t.endpoint.isBusy w.session = true → t.endpoint.latest? w.session = w.ids.head?
  kept : t.endpoint.isBusy w.session = true → ∀ id, w.ids.head? = some id → id ∉ w.removed

/-- The latest transfer has been removed: the stream is occupied, and nobody is registered for it.  The application
knows of the transfers before. -/
structure Orphaned (t : TransferStream) (journal : Journal υ) (id : SubscriberId) (rest : List SubscriberId)
    (noted : List (Nat × Except StreamError Outcome)) (w : Watch υ) : Prop where
  busy : t.endpoint.isBusy w.session = true
  ids : w.ids = id :: rest
  latest : t.endpoint.latest? w.session = some id
  unowned : ∀ other, ¬ t.Owns w.session other
  removed : id ∈ w.removed
  told : journal w.session.world.app = noted

theorem begin_of_isBusy (hbusy : t.endpoint.isBusy s = true) (name : String) (checksum : Option String)
    (act : Completion υ) : (t.begin name checksum act).on s = (.ok false, s) := by
  have began := t.began name checksum act s
  rcases hbegin : (t.begin name checksum act).on s with ⟨result, s'⟩
  rw [hbegin] at began
  cases began with
  | refused => rfl
  | failed hidle => exact absurd (hidle.symm.trans hbusy) Bool.false_ne_true
  | taken hidle => exact absurd (hidle.symm.trans hbusy) Bool.false_ne_true

theorem not_refused_of_not_isBusy (hidle : t.endpoint.isBusy s = false) (name : String) (checksum : Option String)
    (act : Completion υ) : ((t.begin name checksum act).on s).1 ≠ .ok false := by
  have began := t.began name checksum act s
  rcases hbegin : (t.begin name checksum act).on s with ⟨result, s'⟩
  rw [hbegin] at began
  cases began with
  | refused hbusy => exact absurd (hidle.symm.trans hbusy) Bool.false_ne_true
  | failed => nofun
  | taken => nofun

theorem Watch.begin_of_isBusy (hbusy : t.endpoint.isBusy w.session = true) (name : String) (checksum : Option String)
    (act : Completion υ) : w.begin t name checksum act = w := by
  rw [Watch.begin, Course.begin, TransferStream.begin_of_isBusy hbusy]

theorem isBusy_congr (h : (t.endpoint.progress s').state = (t.endpoint.progress s).state) :
    t.endpoint.isBusy s' = t.endpoint.isBusy s := congrArg TransferState.isActive h

theorem remove_of_owns (h : t.Owns w.session id) :
    w.remove id = { w with session := (w.session.remove id).2, removed := id :: w.removed } := by
  obtain ⟨request, handler, hlive, -⟩ := h
  rw [Watch.remove, Registry.remove, hlive]

theorem remove_of_not_owns (journal : Journal υ) (hnot : ¬ t.Owns w.session id) (releases : Releases w.session id) :
    ∃ s' removed, w.remove id = { w with session := s', removed } ∧ t.PassedBy journal w.session s' ∧
      (removed = w.removed ∨ removed = id :: w.removed) := by
  have passed : t.PassedBy journal w.session (w.session.remove id).2 := passedBy_remove hnot releases
  rcases hremove : w.session.remove id with ⟨_ | _, s'⟩
  all_goals
    rw [hremove] at passed
    rw [Watch.remove, hremove]
  · exact ⟨s', _, rfl, passed, .inl rfl⟩
  · exact ⟨s', _, rfl, passed, .inr rfl⟩

/-- Where nobody is registered for the stream, messages reach nobody. -/
theorem receive_of_unowned (hunowned : ∀ other, ¬ t.Owns w.session other) {m : Message}
    (hm : t.Owns w.session m.id ∨ w.session.live[m.id]? = none) (depth : Nat) : w.receive depth m = w := by
  rw [Watch.receive, Course.receive, Registry.dispatch_of_getElem?_eq_none (hm.resolve_left (hunowned m.id))]

section Orphaned

variable (h : Orphaned t journal id rest noted w)
include h

theorem Orphaned.passedBy {removed : List SubscriberId} (hs : t.PassedBy journal w.session s')
    (hremoved : id ∈ removed) : Orphaned t journal id rest noted { w with session := s', removed } where
  busy := (isBusy_congr hs.state).trans h.busy
  ids := h.ids
  latest := hs.latest.trans h.latest
  unowned other howns := h.unowned other (howns.congr (hs.live other (.inr howns)).symm)
  removed := hremoved
  told := hs.told.trans h.told

/-- Nothing that can happen ends it. -/
theorem Orphaned.move (move : Watch.Move t journal w w') : Orphaned t journal id rest noted w' := by
  cases move with
  | begin name checksum act =>
    rw [Watch.begin_of_isBusy h.busy]
    exact h
  | receive depth m hm =>
    rw [receive_of_unowned h.unowned hm]
    exact h
  | sender j cancelled stage => exact h.passedBy (passedBy_advance j cancelled stage w.session) h.removed
  | others passed => exact h.passedBy passed h.removed
  | remove other releases =>
    obtain ⟨s', removed, hremove, passed, hsub⟩ := remove_of_not_owns journal (h.unowned other) releases
    rw [hremove]
    refine h.passedBy passed ?_
    rcases hsub with rfl | rfl
    · exact h.removed
    · exact List.mem_cons_of_mem other h.removed

theorem Orphaned.run (run : Watch.Runs t journal w w') : Orphaned t journal id rest noted w' := by
  induction run with
  | refl => exact h
  | tail _ move ih => exact ih.move move

end Orphaned

section Attended

variable (h : Attended t journal w)
include h

theorem Attended.begin (name : String) (checksum : Option String) {act : Completion υ}
    (hnotes : journal.NotedBy w.ids.length act) : Attended t journal (w.begin t name checksum act) := by
  rcases hbusy : t.endpoint.isBusy w.session with _ | _
  -- A transfer that is taken begins a new record of removals, and one that has failed leaves the stream free.
  · have began := t.began name checksum act w.session
    have sound := (h.sound.begin name checksum hnotes).1
    rcases hbegin : (t.begin name checksum act).on w.session with ⟨result, s⟩
    rw [hbegin] at began
    rw [Course.begin, hbegin] at sound
    rw [Watch.begin, Course.begin, hbegin]
    cases began with
    | refused hrefused => exact absurd (hbusy.symm.trans hrefused) Bool.false_ne_true
    | @failed _ s _ hfailed =>
      have hnot : t.endpoint.isBusy s ≠ true := fun h => absurd (hfailed.symm.trans h) Bool.false_ne_true
      exact ⟨sound, fun h => absurd h hnot, fun h => absurd h hnot⟩
    | @taken id _ hidle hid =>
      refine ⟨sound, fun _ => ?_, fun _ _ _ => List.not_mem_nil⟩
      show t.endpoint.latest? s = ((t.endpoint.latest? s).toList ++ w.ids).head?
      rw [hid]
      rfl
  · rw [Watch.begin_of_isBusy hbusy]
    exact h

theorem Attended.receive {m : Message} (hm : t.Owns w.session m.id ∨ w.session.live[m.id]? = none) (depth : Nat) :
    Attended t journal (w.receive depth m) := by
  rcases hbusy : t.endpoint.isBusy w.session with _ | _
  · rw [receive_of_unowned (h.sound.of_idle hbusy).1 hm]
    exact h
  · refine ⟨(h.sound.receive depth hm).1, fun _ => ?_, fun _ => h.kept hbusy⟩
    refine Eq.trans ?_ (h.latest hbusy)
    show (Registry.dispatch depth m w.session).2.world.latest[t.endpoint.stream]? = _
    rw [latest_dispatch hm]
    rfl

theorem Attended.passedBy {removed : List SubscriberId} (hs : t.PassedBy journal w.session s')
    (hremoved : ∀ id ∈ removed, id ∈ w.removed ∨ ¬ t.Owns w.session id) :
    Attended t journal { w with session := s', removed } := by
  have hbusy := isBusy_congr hs.state
  refine ⟨(h.sound.spared hs.toSpared).1, fun hbusy' => ?_, fun hbusy' id hid hmem => ?_⟩
  · exact hs.latest.trans (h.latest (hbusy.symm.trans hbusy'))
  · obtain ⟨id', rest, hids, howns, -⟩ := h.sound.of_busy (hbusy.symm.trans hbusy')
    have hid' : id' = id := Option.some.inj ((congrArg List.head? hids).symm.trans hid)
    rcases hremoved id hmem with hmem | hnot
    · exact h.kept (hbusy.symm.trans hbusy') id hid hmem
    · exact hnot (hid' ▸ howns)

/-- A removal is of somebody else's, or it leaves the stream occupied without a subscriber. -/
theorem Attended.remove (releases : Releases w.session id) :
    Attended t journal (w.remove id) ∨ ∃ rest noted, noted.map Prod.fst = List.range rest.length ∧
      Orphaned t journal id rest noted (w.remove id) := by
  by_cases howns : t.Owns w.session id
  · right
    have released := released_remove releases
    have hbusy : t.endpoint.isBusy w.session = true := by
      by_contra hidle
      exact (h.sound.of_idle (Bool.eq_false_iff.mpr hidle)).1 id howns
    obtain ⟨id', rest, hids, -, alone, htold⟩ := h.sound.of_busy hbusy
    obtain rfl := alone id howns
    rw [remove_of_owns howns]
    refine ⟨rest, journal w.session.world.app, htold, (isBusy_congr (state_of_released released _)).trans hbusy, hids,
      ?_, ?_, List.mem_cons_self, congrArg journal released.app⟩
    · exact (latest_of_released released _).trans ((h.latest hbusy).trans (congrArg List.head? hids))
    · -- The latest was the only one, so nobody is left who could free the stream.
      rintro other ⟨request, handler, hlive, hhandles⟩
      rw [w.session.getElem?_remove id other] at hlive
      split at hlive
      · cases hlive
      · next hother => exact hother (alone other ⟨request, handler, hlive, hhandles⟩).symm
  · left
    obtain ⟨s', removed, hremove, passed, hsub⟩ := remove_of_not_owns journal howns releases
    rw [hremove]
    refine h.passedBy passed fun other hother => ?_
    rcases hsub with rfl | rfl
    · exact .inl hother
    · rcases List.mem_cons.mp hother with rfl | hother
      · exact .inr howns
      · exact .inl hother

end Attended

/-- After any run the latest transfer is attended, or it is orphaned. -/
theorem attended_or_orphaned (fresh : t.Fresh journal s) (run : Watch.Runs t journal { session := s } w) :
    Attended t journal w ∨ ∃ id rest noted, noted.map Prod.fst = List.range rest.length ∧
      Orphaned t journal id rest noted w := by
  induction run with
  | refl =>
    have sound : Sound t journal ⟨s, []⟩ := Course.Run.sound .refl fresh
    exact .inl ⟨sound, fun hbusy => absurd (fresh.idle.symm.trans hbusy) Bool.false_ne_true, nofun⟩
  | tail _ move ih =>
    rcases ih with h | ⟨id, rest, noted, hnoted, h⟩
    · cases move with
      | begin name checksum act hnotes => exact .inl (h.begin name checksum hnotes)
      | receive depth m hm => exact .inl (h.receive hm depth)
      | sender j cancelled stage => exact .inl (h.passedBy (passedBy_advance j cancelled stage _) fun _ => .inl)
      | others passed => exact .inl (h.passedBy passed fun _ => .inl)
      | remove id releases =>
        -- Only the removal of the latest's own subscriber leads from the one to the other.
        rcases h.remove releases with h | ⟨rest, noted, hnoted, h⟩
        · exact .inl h
        · exact .inr ⟨id, rest, noted, hnoted, h⟩
    · exact .inr ⟨id, rest, noted, hnoted, h.move move⟩

/-! ### The theorem -/

/-- A run of transfers on a stream that has not been used before, with removals of any subscribers.  While the stream is
not occupied, nobody is registered for it, the application has been told of all its transfers, and a start is not
refused.  While it is occupied, the application has been told of all transfers but the latest; and the subscriber of
the latest, which is the one that the stream tells, is registered, unless it has been removed.  If it has, the stream is
occupied for ever: nobody is registered for it, the application is told nothing more, and every start is refused. -/
theorem occupied_of_run (fresh : t.Fresh journal s) (run : Watch.Runs t journal { session := s } w) :
    let told := (journal w.session.world.app).map Prod.fst
    (t.endpoint.isBusy w.session = false →
      told = List.range w.ids.length ∧ (∀ id, ¬ t.Owns w.session id) ∧
      ∀ name checksum act, ((t.begin name checksum act).on w.session).1 ≠ .ok false) ∧
    (t.endpoint.isBusy w.session = true → ∃ id rest,
      w.ids = id :: rest ∧ t.endpoint.latest? w.session = some id ∧ told = List.range rest.length ∧
      (id ∉ w.removed → t.Owns w.session id ∧ w.session.contains id = true) ∧
      (id ∈ w.removed → ∀ w', Watch.Runs t journal w w' →
        t.endpoint.isBusy w'.session = true ∧ (∀ other, ¬ t.Owns w'.session other) ∧
        journal w'.session.world.app = journal w.session.world.app ∧
        ∀ name checksum act, (t.begin name checksum act).on w'.session = (.ok false, w'.session))) := by
  intro told
  rcases attended_or_orphaned fresh run with attended | ⟨id, rest, noted, hnoted, orphaned⟩
  · refine ⟨fun hidle => ?_, fun hbusy => ?_⟩
    · obtain ⟨unowned, htold⟩ := attended.sound.of_idle hidle
      exact ⟨htold, unowned, not_refused_of_not_isBusy hidle⟩
    · obtain ⟨id, rest, hids, howns, -, htold⟩ := attended.sound.of_busy hbusy
      have hhead := congrArg List.head? hids
      exact ⟨id, rest, hids, (attended.latest hbusy).trans hhead, htold, fun _ => ⟨howns, howns.contains⟩,
        fun hremoved => absurd hremoved (attended.kept hbusy id hhead)⟩
  · refine ⟨fun hidle => absurd (hidle.symm.trans orphaned.busy) Bool.false_ne_true, fun _ => ?_⟩
    have htold : told = List.range rest.length := by
      rw [← hnoted, ← orphaned.told]
    refine ⟨id, rest, orphaned.ids, orphaned.latest, htold, fun hkept => absurd orphaned.removed hkept, ?_⟩
    intro _ w' run'
    have orphaned' := orphaned.run run'
    exact ⟨orphaned'.busy, orphaned'.unowned, orphaned'.told.trans orphaned.told.symm,
      begin_of_isBusy orphaned'.busy⟩

section Sample

/-- An upload has been started. -/
def sampleRequested : Watch (List (Nat × Except StreamError Outcome)) :=
  Watch.begin sampleStream "a" none (fun result told => told ++ [(0, result)]) { session := sampleSession }

/-- Number 7 has been removed, which nobody has. -/
def sampleHeld : Watch (List (Nat × Except StreamError Outcome)) := sampleRequested.remove 7

/-- The subscriber of the upload has been removed. -/
def sampleRemoved : Watch (List (Nat × Except StreamError Outcome)) := sampleHeld.remove 1

theorem runs_sampleHeld : Watch.Runs sampleStream sampleJournal { session := sampleSession } sampleHeld := by
  have requested : Watch.Runs sampleStream sampleJournal { session := sampleSession } sampleRequested :=
    .single (.begin "a" none _ fun _ _ => rfl)
  have hgone : sampleRequested.session.contains 7 = false := by decide +kernel
  refine requested.tail (.remove 7 fun subscriber hlive => ?_)
  cases (Registry.getElem?_of_contains hgone).symm.trans hlive

theorem owns_sampleHeld : sampleStream.Owns sampleHeld.session 1 := by
  have hids : sampleHeld.ids = [1] := by decide +kernel
  rcases attended_or_orphaned fresh_sampleSession runs_sampleHeld with attended | ⟨id, rest, noted, -, orphaned⟩
  · obtain ⟨id, rest, hid, howns, -⟩ := attended.sound.of_busy (by decide +kernel)
    obtain ⟨rfl, -⟩ := List.cons.inj (hids.symm.trans hid)
    exact howns
  · have hremoved : sampleHeld.removed = [] := by decide +kernel
    exact absurd (hremoved ▸ orphaned.removed) List.not_mem_nil

theorem runs_sampleRemoved : Watch.Runs sampleStream sampleJournal { session := sampleSession } sampleRemoved :=
  runs_sampleHeld.tail (.remove 1 owns_sampleHeld.releases)

/-- Before the removal the upload is registered; after it every start is refused. -/
theorem occupied_of_sampleRemoved :
    sampleStream.Fresh sampleJournal sampleSession ∧
    Watch.Runs sampleStream sampleJournal { session := sampleSession } sampleHeld ∧
    Watch.Runs sampleStream sampleJournal sampleHeld sampleRemoved ∧ sampleHeld.session.contains 1 = true ∧
    ∀ name checksum act,
      (sampleStream.begin name checksum act).on sampleRemoved.session = (.ok false, sampleRemoved.session) := by
  refine ⟨fresh_sampleSession, runs_sampleHeld, .single (.remove 1 owns_sampleHeld.releases), ?_, ?_⟩
  · obtain ⟨id, rest, hids, -, -, hkept, -⟩ := (occupied_of_run fresh_sampleSession runs_sampleHeld).2 (by decide +kernel)
    have hid : sampleHeld.ids = [1] := by decide +kernel
    obtain ⟨rfl, -⟩ := List.cons.inj (hid.symm.trans hids)
    exact (hkept (by decide +kernel)).2
  · obtain ⟨id, rest, hids, -, -, -, hstuck⟩ :=
      (occupied_of_run fresh_sampleSession runs_sampleRemoved).2 (by decide +kernel)
    have hid : sampleRemoved.ids = [1] := by decide +kernel
    obtain ⟨rfl, -⟩ := List.cons.inj (hid.symm.trans hids)
    exact (hstuck (by decide +kernel) sampleRemoved .refl).2.2.2

/-- The stream is occupied by a transfer that is not there any more, of which the application has not been told. -/
theorem orphaned_sampleRemoved :
    sampleStream.Fresh sampleJournal sampleSession ∧
    Watch.Runs sampleStream sampleJournal { session := sampleSession } sampleRemoved ∧
    sampleStream.endpoint.isBusy sampleRemoved.session = true ∧
    sampleStream.endpoint.latest? sampleRemoved.session = some 1 ∧ sampleRemoved.session.contains 1 = false ∧
    sampleRemoved.session.world.app = [] ∧
    ((sampleStream.begin "a" none fun _ told => told).on sampleRemoved.session).1 = .ok false := by
  refine ⟨fresh_sampleSession, runs_sampleRemoved, ?_⟩
  decide +kernel

end Sample

end LevelLink.TransferStream
