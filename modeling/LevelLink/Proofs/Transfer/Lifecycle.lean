import LevelLink.Proofs.Transfer.Settling

/-!
# The life of a transfer

Transfers follow one another on a stream, while frames arrive in any order and others work beside it
(`TransferStream.Course.Run`).  To see how often completions are called, the application keeps a journal in which the
completion of each transfer notes itself.  A transfer is told of once, by the step after which the stream is no longer
occupied (`lifecycle_of_run`).
-/

namespace LevelLink.TransferStream

variable {υ : Type} {t : TransferStream} {id : SubscriberId} {act : Completion υ} {s s' : Session υ}

/-! ### Starting a transfer -/

/-- What comes of starting a transfer: one is in progress, and nothing happens; or it cannot be requested; or it is
underway. -/
inductive Began (t : TransferStream) (act : Completion υ) (s : Session υ) : Except StreamError Bool × Session υ → Prop
    where
  | refused (hbusy : t.endpoint.isBusy s = true) : Began t act s (.ok false, s)
  | failed {e : StreamError} {s' : Session υ} (hidle : t.endpoint.isBusy s = false)
      (hfailed : t.endpoint.isBusy s' = false) (hlive : s'.live = s.live) (happ : s'.world.app = s.world.app) :
      Began t act s (.error e, s')
  | taken {id : SubscriberId} {s' : Session υ} (hidle : t.endpoint.isBusy s = false)
      (hid : t.endpoint.latest? s' = some id) (underway : t.Underway id act s')
      (hothers : ∀ other, other ≠ id → s'.live[other]? = s.live[other]?) (happ : s'.world.app = s.world.app) :
      Began t act s (.ok true, s')

theorem began_request {request : Message} {handler : Handler (World υ) (Program (World υ))} {p : Progress}
    (hidle : t.endpoint.isBusy s = false)
    (hunderway : ∀ id s', t.endpoint.Requested request handler p id s s' → t.Underway id act s') :
    t.Began act s ((t.endpoint.request request handler p).on s) := by
  rcases Endpoint.request_cases t.endpoint request handler p s with
    ⟨id, s', hrequest, requested, hothers⟩ | ⟨e, s', hrequest, hprogress, hlive, happ⟩
  · rw [hrequest]
    exact .taken hidle requested.latest (hunderway id s' requested) hothers requested.app
  · rw [hrequest]
    exact .failed hidle (Endpoint.isBusy_of_progress hprogress) hlive happ

theorem began_download (d : DownloadStream) (name : String) (checksum : Option String) (act : Completion υ)
    (s : Session υ) : (TransferStream.down d).Began act s ((d.download name checksum act).on s) := by
  rw [DownloadStream.download, Attempt.on_bind_of_ok (Attempt.on_get s)]
  by_cases hbusy : d.isBusy s = true
  · rw [if_pos hbusy]
    exact .refused hbusy
  · rw [if_neg hbusy]
    have hidle : d.isBusy s = false := Bool.eq_false_iff.mpr hbusy
    rcases hresolve : Transfer.resolve d.dir name with e | path
    · exact .failed hidle hidle rfl rfl
    · rw [Attempt.on_bind_of_ok (Attempt.on_lift _ s)]
      refine began_request (t := .down d) hidle fun id s' requested => ?_
      obtain ⟨hears, hcurrent⟩ := DownloadStream.hears_of_requested requested
      refine .down rfl hears ⟨congrArg Fetch.completion hcurrent, congrArg Fetch.endpoint hcurrent, ?_, rfl⟩
      exact congrArg (fun p : Progress => p.state.isActive) requested.progress

theorem began_upload (u : UploadStream) (name : String) (act : Completion υ) (s : Session υ) :
    (TransferStream.up u).Began act s ((u.upload name act).on s) := by
  have offers := u.offers_upload name act s
  generalize (u.upload name act).on s = result at offers ⊢
  cases offers with
  | refused hbusy => exact .refused hbusy
  | refrains hidle => exact .failed hidle hidle rfl rfl
  | fails hidle hprogress hlive happ =>
    exact .failed hidle (Endpoint.isBusy_of_progress hprogress) hlive happ
  | taken hidle _ _ hid stands hothers happ => exact .taken hidle hid (.up rfl stands rfl rfl) hothers happ

theorem began (t : TransferStream) (name : String) (checksum : Option String) (act : Completion υ) (s : Session υ) :
    t.Began act s ((t.begin name checksum act).on s) := by
  cases t with
  | down d => exact began_download d name checksum act s
  | up u => exact began_upload u name act s

/-! ### Runs -/

/-- What an application has been told, and of which transfer. -/
abbrev Journal (υ : Type) := υ → List (Nat × Except StreamError Outcome)

/-- The completion notes itself under this number. -/
def Journal.NotedBy (journal : Journal υ) (n : Nat) (act : Completion υ) : Prop :=
  ∀ result app, journal (act result app) = journal app ++ [(n, result)]

/-- Whatever else happens has left alone the state of the stream and the journal; nobody else has registered or removed
a subscriber of the stream, nor touched what the link keeps for one. -/
structure Spared (t : TransferStream) (journal : Journal υ) (s s' : Session υ) : Prop where
  state : (t.endpoint.progress s').state = (t.endpoint.progress s).state
  told : journal s'.world.app = journal s.world.app
  live : ∀ id, t.Owns s id ∨ t.Owns s' id → s'.live[id]? = s.live[id]?
  fetch : ∀ id, t.Owns s id → s'.world.fetches[id]? = s.world.fetches[id]?
  offer : ∀ id, t.Owns s id → s'.world.offers[id]? = s.world.offers[id]?

/-- A step of a sender spares every stream. -/
theorem spared_of_advance {j : SendJob} {cancelled : Bool} {stage stage' : SendJob.Stage}
    (hnext : j.advance cancelled stage s = (stage', s')) (t : TransferStream) (journal : Journal υ) :
    t.Spared journal s s' := by
  obtain ⟨fs, h, -⟩ := j.moved_advance cancelled stage s
  rw [hnext] at h
  refine ⟨h.state _, by rw [h.app], ?_, ?_, ?_⟩
  · intro id _
    rw [h.live]
  · intro id _
    rw [h.fetches]
  · intro id _
    rw [h.offers]

/-- A session with a transfer stream, and the subscribers of the transfers that have been started on it, the latest
first. -/
structure Course (υ : Type) where
  session : Session υ
  ids : List SubscriberId := []

namespace Course

/-- A transfer is started, if none is in progress and it can be requested. -/
def begin (t : TransferStream) (name : String) (checksum : Option String) (act : Completion υ) (c : Course υ) :
    Course υ :=
  match (t.begin name checksum act).on c.session with
  | (.ok true, s) => { session := s, ids := (t.endpoint.latest? s).toList ++ c.ids }
  | (_, s) => { c with session := s }

/-- A message is dispatched. -/
def receive (depth : Nat) (m : Message) (c : Course υ) : Course υ :=
  { c with session := (Registry.dispatch depth m c.session).2 }

/-- What can happen next: a start, a message that reaches a subscriber of the stream or nobody, a step of a sender, or
something else that spares the stream. -/
inductive Move (t : TransferStream) (journal : Journal υ) : Course υ → Course υ → Prop where
  | begin {c : Course υ} (name : String) (checksum : Option String) (act : Completion υ)
      (hnotes : journal.NotedBy c.ids.length act) : Move t journal c (c.begin t name checksum act)
  | receive {c : Course υ} (depth : Nat) (m : Message) (hm : t.Owns c.session m.id ∨ c.session.live[m.id]? = none) :
      Move t journal c (c.receive depth m)
  | sender {c : Course υ} {s' : Session υ} {j : SendJob} {stage stage' : SendJob.Stage} (cancelled : Bool)
      (hnext : j.advance cancelled stage c.session = (stage', s')) : Move t journal c { c with session := s' }
  | others {c : Course υ} {s' : Session υ} (spared : t.Spared journal c.session s') :
      Move t journal c { c with session := s' }

/-- A run from a session. -/
def Run (t : TransferStream) (journal : Journal υ) (s : Session υ) : Course υ → Prop :=
  Relation.ReflTransGen (Move t journal) ⟨s, []⟩

end Course

/-! ### What holds along a run -/

section Sound

variable {journal : Journal υ} {c c' : Course υ} {n : Nat}

/-- The stream has not been used yet. -/
structure Fresh (t : TransferStream) (journal : Journal υ) (s : Session υ) : Prop where
  idle : t.endpoint.isBusy s = false
  unowned : ∀ id, ¬ t.Owns s id
  untold : journal s.world.app = []

/-- The application has been told of the first transfers, once of each. -/
def Told (journal : Journal υ) (n : Nat) (s : Session υ) : Prop :=
  (journal s.world.app).map Prod.fst = List.range n

/-- The latest transfer is in progress and owns the only subscriber of the stream, or there is none.  Of all others the
application has been told. -/
inductive Sound (t : TransferStream) (journal : Journal υ) : Course υ → Prop where
  | underway {s : Session υ} {id : SubscriberId} {rest : List SubscriberId} {act : Completion υ}
      (h : t.Underway id act s) (hnotes : journal.NotedBy rest.length act) (alone : ∀ other, t.Owns s other → other = id)
      (told : Told journal rest.length s) : Sound t journal ⟨s, id :: rest⟩
  | settled {c : Course υ} (idle : t.endpoint.isBusy c.session = false) (unowned : ∀ id, ¬ t.Owns c.session id)
      (told : Told journal c.ids.length c.session) : Sound t journal c

/-- The latest transfer, which was in progress, has just been settled. -/
def Course.Settles (t : TransferStream) (journal : Journal υ) (c c' : Course υ) : Prop :=
  t.endpoint.isBusy c.session = true ∧ t.endpoint.isBusy c'.session = false ∧
  ∃ id rest result, c.ids = id :: rest ∧ c'.ids = c.ids ∧
    journal c'.session.world.app = journal c.session.world.app ++ [(rest.length, result)] ∧
    (t.endpoint.progress c'.session).state = .ofResult result ∧ c'.session.contains id = false

/-- Nothing has been told, and the stream is still occupied if it was. -/
def Course.Passes (t : TransferStream) (journal : Journal υ) (c c' : Course υ) : Prop :=
  journal c'.session.world.app = journal c.session.world.app ∧
    (t.endpoint.isBusy c.session = true → t.endpoint.isBusy c'.session = true)

theorem Told.congr (h : Told journal n s) (happ : journal s'.world.app = journal s.world.app) : Told journal n s' := by
  rw [Told, happ]
  exact h

theorem isBusy_ofResult {e : Endpoint} {result : Except StreamError Outcome}
    (h : (e.progress s).state = .ofResult result) : e.isBusy s = false := by
  rw [Endpoint.isBusy, h]
  cases result <;> rfl

/-- Where nobody but `id` comes or goes, others own what they have owned. -/
theorem Owns.of_ne {other : SubscriberId} (h : t.Owns s' other) (hother : other ≠ id)
    (hlive : ∀ other, other ≠ id → s'.live[other]? = s.live[other]?) : t.Owns s other :=
  h.congr (hlive other hother).symm

theorem not_owns_of_contains (h : s.contains id = false) : ¬ t.Owns s id := by
  rintro ⟨request, handler, hlive, -⟩
  rw [Registry.getElem?_of_contains h] at hlive
  cases hlive

/-- What is done for others leaves a transfer in progress. -/
theorem Underway.spared (h : t.Underway id act s) (hs : t.Spared journal s s') : t.Underway id act s' := by
  have howns := h.owns
  have hlive := hs.live id (.inl howns)
  have hstate := hs.state
  have hfetch := hs.fetch id howns
  have hoffer := hs.offer id howns
  cases h with
  | @down d start hd hears inProgress =>
    obtain ⟨request, hnode, hname, hrequest⟩ := hears
    have hcurrent : DownloadStream.current start id s'.world = DownloadStream.current start id s.world := by
      rw [DownloadStream.current, Std.TreeMap.getD_eq_getD_getElem?, hfetch, ← Std.TreeMap.getD_eq_getD_getElem?]
      rfl
    refine .down hd ⟨request, hnode, hname, hlive.trans hrequest⟩ ⟨?_, ?_, ?_, rfl⟩
    · rw [hcurrent, inProgress.completion]
    · rw [hcurrent, inProgress.endpoint]
    · rw [endpoint, ← hd] at hstate
      exact (congrArg TransferState.isActive hstate).trans inProgress.state
  | @up u start o p hu stands hact hactive =>
    refine .up hu (stands.congr hlive hoffer) hact ?_
    rw [endpoint, ← hu] at hstate
    rw [← stands.progress] at hactive
    exact (congrArg TransferState.isActive hstate).trans hactive

/-- Where the stream is not occupied, nobody is registered for it, and everything has been told. -/
theorem Sound.of_idle (h : Sound t journal c) (hidle : t.endpoint.isBusy c.session = false) :
    (∀ id, ¬ t.Owns c.session id) ∧ Told journal c.ids.length c.session := by
  cases h with
  | underway h =>
    rw [h.isBusy] at hidle
    cases hidle
  | settled _ unowned told => exact ⟨unowned, told⟩

/-- Where it is occupied, the latest transfer alone is registered for it, and of all others everything has been told. -/
theorem Sound.of_busy (h : Sound t journal c) (hbusy : t.endpoint.isBusy c.session = true) :
    ∃ id rest, c.ids = id :: rest ∧ t.Owns c.session id ∧ (∀ other, t.Owns c.session other → other = id) ∧
      Told journal rest.length c.session := by
  cases h with
  | @underway _ id rest _ h _ alone told => exact ⟨id, rest, rfl, h.owns, alone, told⟩
  | settled idle =>
    rw [hbusy] at idle
    cases idle

theorem Sound.begin (h : Sound t journal c) (name : String) (checksum : Option String)
    (hnotes : journal.NotedBy c.ids.length act) :
    Sound t journal (c.begin t name checksum act) ∧ c.Passes t journal (c.begin t name checksum act) := by
  have began := t.began name checksum act c.session
  rcases hbegin : (t.begin name checksum act).on c.session with ⟨result, s⟩
  rw [hbegin] at began
  rw [Course.begin, hbegin]
  cases began with
  | refused => exact ⟨h, rfl, fun h => h⟩
  | failed hidle hfailed hlive happ =>
    obtain ⟨unowned, told⟩ := h.of_idle hidle
    have htold := congrArg journal happ
    refine ⟨.settled hfailed ?_ (told.congr htold), htold, fun hbusy => absurd (hidle.symm.trans hbusy) nofun⟩
    intro id howns
    exact unowned id (howns.congr (by rw [hlive]))
  | @taken id _ hidle hid underway hothers happ =>
    obtain ⟨unowned, told⟩ := h.of_idle hidle
    have htold := congrArg journal happ
    simp only [hid]
    refine ⟨.underway underway hnotes ?_ (told.congr htold), htold, fun _ => underway.isBusy⟩
    intro other howns
    by_contra hother
    exact unowned other (howns.of_ne hother hothers)

theorem Sound.receive (h : Sound t journal c) (depth : Nat) {m : Message}
    (hm : t.Owns c.session m.id ∨ c.session.live[m.id]? = none) :
    Sound t journal (c.receive depth m) ∧
      (c.Passes t journal (c.receive depth m) ∨ c.Settles t journal (c.receive depth m)) := by
  cases h with
  | settled idle unowned told =>
    have hnone : c.session.live[m.id]? = none := hm.resolve_left (unowned m.id)
    rw [Course.receive, Registry.dispatch_of_getElem?_eq_none hnone]
    exact ⟨.settled idle unowned told, .inl ⟨rfl, fun h => h⟩⟩
  | @underway s id rest act h hnotes alone told =>
    by_cases hid : m.id = id
    · obtain ⟨hcases, hlive⟩ := h.dispatch hid depth
      rcases hcases with ⟨h', happ⟩ | ⟨result, settled⟩
      · refine ⟨.underway h' hnotes ?_ (told.congr (congrArg journal happ)), .inl ⟨congrArg journal happ, ?_⟩⟩
        · intro other howns
          by_contra hother
          exact hother (alone other (howns.of_ne hother hlive))
        · intro _
          exact h'.isBusy
      · have hidle := isBusy_ofResult settled.state
        have htold : journal (Registry.dispatch depth m s).2.world.app =
            journal s.world.app ++ [(rest.length, result)] := by
          rw [settled.app, hnotes]
        refine ⟨.settled hidle ?_ ?_, .inr ⟨h.isBusy, hidle, id, rest, result, rfl, rfl, htold, settled.state,
          settled.contains⟩⟩
        · intro other howns
          by_cases hother : other = id
          · subst hother
            exact not_owns_of_contains settled.contains howns
          · exact hother (alone other (howns.of_ne hother hlive))
        · show (journal (Registry.dispatch depth m s).2.world.app).map Prod.fst = List.range (rest.length + 1)
          rw [htold, List.map_append, told, List.range_succ]
          rfl
    · have hnone : s.live[m.id]? = none := hm.resolve_left fun howns => hid (alone m.id howns)
      rw [Course.receive, Registry.dispatch_of_getElem?_eq_none hnone]
      exact ⟨.underway h hnotes alone told, .inl ⟨rfl, fun h => h⟩⟩

theorem Sound.spared (h : Sound t journal c) (hs : t.Spared journal c.session s') :
    Sound t journal { c with session := s' } ∧ c.Passes t journal { c with session := s' } := by
  have hbusy : t.endpoint.isBusy s' = t.endpoint.isBusy c.session := by
    rw [Endpoint.isBusy, hs.state, Endpoint.isBusy]
  refine ⟨?_, hs.told, fun h => hbusy.trans h⟩
  cases h with
  | underway h hnotes alone told =>
    refine .underway (h.spared hs) hnotes ?_ (told.congr hs.told)
    intro other howns
    exact alone other (howns.congr (hs.live other (.inr howns)).symm)
  | settled idle unowned told =>
    refine .settled (hbusy.trans idle) ?_ (told.congr hs.told)
    intro id howns
    exact unowned id (howns.congr (hs.live id (.inr howns)).symm)

/-- Every move of a run. -/
theorem Sound.move (h : Sound t journal c) (move : Course.Move t journal c c') :
    Sound t journal c' ∧ (c.Passes t journal c' ∨ c.Settles t journal c') := by
  cases move with
  | begin name checksum act hnotes =>
    obtain ⟨h', hpasses⟩ := h.begin name checksum hnotes
    exact ⟨h', .inl hpasses⟩
  | receive depth m hm => exact h.receive depth hm
  | sender cancelled hnext =>
    obtain ⟨h', hpasses⟩ := h.spared (spared_of_advance hnext t journal)
    exact ⟨h', .inl hpasses⟩
  | others spared =>
    obtain ⟨h', hpasses⟩ := h.spared spared
    exact ⟨h', .inl hpasses⟩

theorem Course.Run.sound (run : Course.Run t journal s c) (fresh : t.Fresh journal s) : Sound t journal c := by
  induction run with
  | refl => exact .settled fresh.idle fresh.unowned (by rw [Told, fresh.untold]; rfl)
  | tail _ move ih => exact (ih.move move).1

end Sound

/-! ### The theorem -/

section Whole

variable {journal : Journal υ} {c : Course υ}

/-- A run of transfers on a stream that has not been used before.  The application has been told of all transfers that
have been started, once of each and in this order, but for the latest while the stream is occupied.  The stream is
occupied exactly while the latest is registered and has not been told of, and nobody else is registered for it.  What
happens next tells of nothing and leaves an occupied stream occupied, or it settles the latest transfer.  While the
stream is not occupied, no frame changes anything. -/
theorem lifecycle_of_run (fresh : t.Fresh journal s) (run : Course.Run t journal s c) :
    let told := (journal c.session.world.app).map Prod.fst
    let busy := t.endpoint.isBusy c.session
    told = List.range (if busy then c.ids.length - 1 else c.ids.length) ∧
    (busy = true ↔ ∃ id rest, c.ids = id :: rest ∧ c.session.contains id = true ∧ rest.length ∉ told) ∧
    (∀ id, t.Owns c.session id → busy = true ∧ c.ids.head? = some id) ∧
    (∀ c', Course.Move t journal c c' → c.Passes t journal c' ∨ c.Settles t journal c') ∧
    (busy = false → ∀ depth m, t.Owns c.session m.id ∨ c.session.live[m.id]? = none → c.receive depth m = c) := by
  intro told busy
  have sound := run.sound fresh
  have hnext : ∀ c', Course.Move t journal c c' → c.Passes t journal c' ∨ c.Settles t journal c' :=
    fun c' move => (sound.move move).2
  rcases hbusy : t.endpoint.isBusy c.session with _ | _
  · obtain ⟨unowned, htold⟩ := sound.of_idle hbusy
    rw [show busy = false from hbusy, show told = List.range c.ids.length from htold]
    refine ⟨rfl, ⟨nofun, ?_⟩, fun id howns => absurd howns (unowned id), hnext, ?_⟩
    · rintro ⟨id, rest, hids, -, hnot⟩
      refine absurd ?_ hnot
      rw [hids, List.mem_range]
      exact Nat.lt_succ_self _
    · intro _ depth m hm
      rw [Course.receive, Registry.dispatch_of_getElem?_eq_none (hm.resolve_left (unowned m.id))]
  · obtain ⟨id, rest, hids, howns, alone, htold⟩ := sound.of_busy hbusy
    rw [show busy = true from hbusy, show told = List.range rest.length from htold, hids]
    refine ⟨rfl, ⟨fun _ => ⟨id, rest, rfl, howns.contains, ?_⟩, fun _ => rfl⟩, ?_, hnext, nofun⟩
    · rw [List.mem_range]
      exact Nat.lt_irrefl _
    · intro other hother
      rw [alone other hother]
      exact ⟨rfl, rfl⟩

end Whole

section Sample

/-- An application that is its own journal. -/
def sampleJournal : Journal (List (Nat × Except StreamError Outcome)) := fun told => told

def sampleStream : TransferStream := .up UploadStream.sampleUpload

def sampleSession : Session (List (Nat × Except StreamError Outcome)) :=
  (UploadStream.start "ASSETS" "PUT" "" 2 (Session.start [] UploadStream.sampleFiles)).2

/-- An upload has been started. -/
def sampleOffered : Course (List (Nat × Except StreamError Outcome)) :=
  Course.begin sampleStream "a" none (fun result told => told ++ [(0, result)]) ⟨sampleSession, []⟩

/-- The peer has accepted it, so its sender works, and then ended the stream. -/
def sampleFailed : Course (List (Nat × Except StreamError Outcome)) :=
  (sampleOffered.receive 1 (UploadStream.sampleAcceptance UploadStream.sampleUpload.toEndpoint)).receive 1
    ((UploadStream.sampleUpload.message TransferFrame.ended.payload).withId 1)

/-- A second upload has been started. -/
def sampleAgain : Course (List (Nat × Except StreamError Outcome)) :=
  sampleFailed.begin sampleStream "a" none fun result told => told ++ [(1, result)]

/-- The first sender reports that it has sent everything. -/
def sampleLate : Course (List (Nat × Except StreamError Outcome)) :=
  sampleAgain.receive 1 (UploadStream.sampleJob.report (.ok ()))

theorem fresh_sampleSession : sampleStream.Fresh sampleJournal sampleSession := by
  refine ⟨by decide +kernel, ?_, rfl⟩
  rintro id ⟨request, handler, hlive, -⟩
  have hnone : sampleSession.live[id]? = none := Std.TreeMap.getElem?_emptyc
  rw [hnone] at hlive
  cases hlive

theorem owns_of_run {c : Course (List (Nat × Except StreamError Outcome))}
    (run : Course.Run sampleStream sampleJournal sampleSession c)
    (hbusy : sampleStream.endpoint.isBusy c.session = true) (hids : c.ids = [1]) : sampleStream.Owns c.session 1 := by
  obtain ⟨id, rest, hid, howns, -⟩ := (run.sound fresh_sampleSession).of_busy hbusy
  obtain ⟨rfl, -⟩ := List.cons.inj (hids.symm.trans hid)
  exact howns

theorem run_sampleLate : Course.Run sampleStream sampleJournal sampleSession sampleLate := by
  have offered : Course.Run sampleStream sampleJournal sampleSession sampleOffered :=
    Relation.ReflTransGen.single (.begin "a" none _ fun _ _ => rfl)
  have accepted : Course.Run sampleStream sampleJournal sampleSession _ :=
    offered.tail (.receive 1 (UploadStream.sampleAcceptance UploadStream.sampleUpload.toEndpoint)
      (.inl (owns_of_run offered (by decide +kernel) (by decide +kernel))))
  have failed : Course.Run sampleStream sampleJournal sampleSession sampleFailed :=
    accepted.tail (.receive 1 _ (.inl (owns_of_run accepted (by decide +kernel) (by decide +kernel))))
  have hnotes : sampleJournal.NotedBy sampleFailed.ids.length fun result told => told ++ [(1, result)] := by
    have hids : sampleFailed.ids = [1] := by decide +kernel
    rw [hids]
    exact fun _ _ => rfl
  have again : Course.Run sampleStream sampleJournal sampleSession sampleAgain :=
    failed.tail (.begin "a" none _ hnotes)
  have hgone : sampleAgain.session.contains 1 = false := by decide +kernel
  exact again.tail (.receive 1 (UploadStream.sampleJob.report (.ok ())) (.inr (Registry.getElem?_of_contains hgone)))

/-- The second upload is not touched by the report of the first, of which the application has been told before. -/
theorem lifecycle_of_sampleLate :
    sampleStream.Fresh sampleJournal sampleSession ∧
    Course.Run sampleStream sampleJournal sampleSession sampleLate ∧
    (sampleJournal sampleLate.session.world.app).map Prod.fst = [0] ∧ sampleLate.session.contains 2 = true := by
  obtain ⟨htold, hbusy, -⟩ := lifecycle_of_run fresh_sampleSession run_sampleLate
  have hlate : sampleStream.endpoint.isBusy sampleLate.session = true := by decide +kernel
  have hids : sampleLate.ids = [2, 1] := by decide +kernel
  obtain ⟨id, rest, hid, hcontains, -⟩ := hbusy.mp hlate
  obtain ⟨rfl, rfl⟩ := List.cons.inj (hids.symm.trans hid)
  rw [if_pos hlate, hids] at htold
  exact ⟨fresh_sampleSession, run_sampleLate, htold, hcontains⟩

end Sample

end LevelLink.TransferStream
