import LevelLink.Proofs.Transfer.Lifecycle

/-!
# The progress of successive uploads

All uploads of a stream share one progress.  A request resets it, and every sender that the stream has ever started
notes in it how many bytes it has sent, also when its upload is over and another one is in progress.  Along every run
the progress counts what the sender that was the last to note something has sent, whichever upload it belongs to
(`UploadStream.counting_of_run`); so it describes the current upload as long as that sender is the current one.  The
late sender of an upload that is done without it spoils the progress of the next
(`UploadStream.miscounted_sampleOverrun`), and so does one that was at a piece when its upload failed
(`UploadStream.miscounted_sampleStraggler`).
-/

namespace LevelLink

namespace SendJob.Stage

/-- How many bytes are sent, if a step from one stage to another has noted it. -/
def noted? : Stage → Stage → Option Nat
  | .noting _ _ _ _, .sending _ _ sent => some sent
  | _, _ => none

/-- How many bytes are queued in a piece that is not noted. -/
def unnoted : Stage → Nat
  | .noting _ n _ _ => n
  | _ => 0

/-- The sender has looked whether it is to go on, and is not through with the piece. -/
def isAtPiece : Stage → Bool
  | .reading _ _ _ _ | .holding _ _ _ _ | .noting _ _ _ _ => true
  | _ => false

end SendJob.Stage

namespace UploadStream

variable {υ : Type} {u : UploadStream} {id : SubscriberId} {act : Completion υ} {s s' : Session υ} {m : Message}
  {n k depth : Nat}

/-! ### Starting an upload -/

/-- Whether a start has come as far as its request, which may not have been sent. -/
def asked : Except StreamError Bool → Bool
  | .ok true | .error (.transport _) => true
  | _ => false

/-! ### Runs -/

/-- A sender that the stream has started: of which upload it is, where it is, and what it has queued. -/
structure Worker where
  upload : Nat
  job : SendJob
  stage : SendJob.Stage := .opening
  frames : List Bytes := []

/-- The worker a step later. -/
def Worker.next (w : Worker) (stage : SendJob.Stage) (frames : List Bytes) : Worker :=
  { w with stage, frames := w.frames ++ frames }

/-- The pieces that a worker has queued have so many bytes together. -/
def Worker.Sent (w : Worker) (n : Nat) : Prop :=
  ∃ fs, w.frames = w.job.queued fs ∧ (Download.dataOf fs).length = n

/-- Whatever else happens has left alone the progress of the stream, who is registered for it, and their offers. -/
structure Aside (u : UploadStream) (s s' : Session υ) : Prop where
  progress : u.progress s' = u.progress s
  live : ∀ id, (TransferStream.up u).Owns s id ∨ (TransferStream.up u).Owns s' id → s'.live[id]? = s.live[id]?
  offer : ∀ id, (TransferStream.up u).Owns s id → s'.world.offers[id]? = s.world.offers[id]?

/-- A session with an upload stream, and all senders that the stream has started. -/
structure Series (υ : Type) where
  session : Session υ
  /-- How many uploads have been requested. -/
  starts : Nat := 0
  workers : List Worker := []
  /-- Which upload the sender is of that was the last to note something since the latest request, and how many bytes it
  has noted. -/
  written : Option (Nat × Nat) := none

namespace Series

/-- An upload is started, if none is in progress. -/
def begin (u : UploadStream) (name : String) (act : Completion υ) (c : Series υ) : Series υ :=
  match (u.upload name act).on c.session with
  | (result, s) =>
    if asked result then
      { c with session := s, starts := c.starts + 1, written := none }
    else
      { c with session := s }

/-- A message is dispatched, which may start a sender. -/
def receive (depth : Nat) (m : Message) (c : Series υ) : Series υ :=
  let s := (Registry.dispatch depth m c.session).2
  { c with
    session := s
    workers := c.workers ++ (s.world.jobs.drop c.session.world.jobs.length).map fun j =>
      { upload := c.starts, job := j } }

/-- What can happen next: a start, a message that reaches a subscriber of the stream or nobody, a step of any sender,
or something else.  Unless some are late, no sender is at a piece when the next upload is requested, and from then on it
finds itself cancelled. -/
inductive Move (u : UploadStream) (late : Bool) : Series υ → Series υ → Prop where
  | begin {c : Series υ} (name : String) (act : Completion υ)
      (hlate : (c.begin u name act).starts = c.starts ∨ (∀ w ∈ c.workers, w.stage.isAtPiece = false) ∨ late = true) :
      Move u late c (c.begin u name act)
  | receive {c : Series υ} (depth : Nat) (m : Message)
      (hm : (TransferStream.up u).Owns c.session m.id ∨ c.session.live[m.id]? = none) :
      Move u late c (c.receive depth m)
  | sender {s s' : Session υ} {starts : Nat} {front back : List Worker} {w : Worker} {written : Option (Nat × Nat)}
      {stage : SendJob.Stage} (cancelled : Bool) (hlate : w.upload = starts ∨ cancelled = true ∨ late = true)
      (hnext : w.job.advance cancelled w.stage s = (stage, s')) :
      Move u late ⟨s, starts, front ++ w :: back, written⟩
        ⟨s', starts, front ++ w.next stage (s'.outbox.toList.drop s.outbox.size) :: back,
          ((w.stage.noted? stage).map fun sent => (w.upload, sent)).or written⟩
  | others {c : Series υ} {s' : Session υ} (aside : u.Aside c.session s') : Move u late c { c with session := s' }

/-- A run from a session. -/
def Run (u : UploadStream) (late : Bool) (s : Session υ) : Series υ → Prop :=
  Relation.ReflTransGen (Move u late) ⟨s, 0, [], none⟩

/-- A message that starts no sender changes the session alone. -/
theorem receive_of_length {c : Series υ}
    (h : (Registry.dispatch depth m c.session).2.world.jobs.length = c.session.world.jobs.length) :
    c.receive depth m = { c with session := (Registry.dispatch depth m c.session).2 } := by
  rw [receive, List.drop_eq_nil_of_le (Nat.le_of_eq h), List.map_nil, List.append_nil]

/-- A message that nobody listens to changes nothing. -/
theorem receive_of_gone {c : Series υ} (h : c.session.live[m.id]? = none) : c.receive depth m = c := by
  have hsame : Registry.dispatch depth m c.session = (0, c.session) := Registry.dispatch_of_getElem?_eq_none h depth
  rw [receive_of_length (by rw [hsame]), hsame]

end Series

/-! ### What holds along a run -/

section Sound

variable {c c' : Series υ} {w : Worker} {stage : SendJob.Stage} {late : Bool}

/-- The upload in progress is of the announced size, and it alone is registered for the stream, or nobody is. -/
inductive Kept (u : UploadStream) (s : Session υ) : Prop where
  | underway {start o : Offer υ} {id : SubscriberId} {act : Completion υ} {p : Progress}
      (hu : start.file.endpoint = u.toEndpoint) (stands : Stands start id o p s) (hact : o.completion = some act)
      (hactive : p.state.isActive = true) (htotal : start.file.size = p.total)
      (alone : ∀ other, (TransferStream.up u).Owns s other → other = id) : Kept u s
  | settled (idle : u.isBusy s = false) (unowned : ∀ id, ¬ (TransferStream.up u).Owns s id) : Kept u s

/-- What a worker has sent fits its stage. -/
def Worker.Steady (w : Worker) : Prop :=
  match w.stage with
  | .opening | .announcing _ => w.Sent 0
  | .sending _ sizes sent => w.Sent sent ∧ sent + sizes.sum = w.job.file.size
  | .reading _ n sizes sent => w.Sent sent ∧ sent + n + sizes.sum = w.job.file.size
  | .holding _ piece sizes sent => w.Sent sent ∧ sent + piece.length + sizes.sum = w.job.file.size
  | .noting _ n sizes sent => w.Sent (sent + n) ∧ sent + n + sizes.sum = w.job.file.size
  | .finished _ | .reported _ => True

/-- The progress counts what the sender has noted that was the last to do so. -/
structure Counted (u : UploadStream) (c : Series υ) : Prop where
  unwritten : c.written = none → (u.progress c.session).moved = 0
  written : ∀ n k, c.written = some (n, k) → (u.progress c.session).moved = k ∧
    ∃ w ∈ c.workers, w.upload = n ∧ w.Sent (k + w.stage.unnoted) ∧ k ≤ w.job.file.size
  steady : ∀ w ∈ c.workers, w.Steady ∧ w.job.file.endpoint = u.toEndpoint
  past : ∀ w ∈ c.workers, w.upload ≤ c.starts
  current : ∀ w ∈ c.workers, w.upload = c.starts → w.job.file.size = (u.progress c.session).total

theorem Kept.congr (h : u.Kept s)
    (hlive : ∀ id, (TransferStream.up u).Owns s id ∨ (TransferStream.up u).Owns s' id → s'.live[id]? = s.live[id]?)
    (hoffer : ∀ id, (TransferStream.up u).Owns s id → s'.world.offers[id]? = s.world.offers[id]?)
    (hstate : (u.progress s').state = (u.progress s).state) (htotal : (u.progress s').total = (u.progress s).total) :
    u.Kept s' := by
  cases h with
  | @underway start o id act p hu stands hact hactive hsize alone =>
    have howns : (TransferStream.up u).Owns s id := (TransferStream.Underway.up hu stands hact hactive).owns
    have hprogress := stands.progress_eq hu
    have stands' := stands.congr (hlive id (.inl howns)) (hoffer id howns)
    rw [hu] at stands'
    refine .underway hu stands' hact ?_ ?_ fun other hother => ?_
    · exact (congrArg TransferState.isActive (hstate.trans (congrArg Progress.state hprogress))).trans hactive
    · exact hsize.trans (htotal.trans (congrArg Progress.total hprogress)).symm
    · exact alone other (hother.congr (hlive other (.inr hother)).symm)
  | settled idle unowned =>
    refine .settled ((congrArg TransferState.isActive hstate).trans idle) fun id howns => ?_
    exact unowned id (howns.congr (hlive id (.inr howns)).symm)

/-- The session may change below the count. -/
theorem Counted.congr (h : Counted u c) (hmoved : (u.progress s').moved = (u.progress c.session).moved)
    (htotal : (u.progress s').total = (u.progress c.session).total) : Counted u { c with session := s' } where
  unwritten hnone := hmoved.trans (h.unwritten hnone)
  written n k hsome := ⟨hmoved.trans (h.written n k hsome).1, (h.written n k hsome).2⟩
  steady := h.steady
  past := h.past
  current w hw hcurrent := (h.current w hw hcurrent).trans htotal.symm

/-- A new upload has nothing written. -/
theorem Counted.restart (h : Counted u c) (hmoved : (u.progress s').moved = 0) :
    Counted u { c with session := s', starts := c.starts + 1, written := none } where
  unwritten _ := hmoved
  written := nofun
  steady := h.steady
  past w hw := Nat.le_succ_of_le (h.past w hw)
  current w hw hcurrent := absurd (h.past w hw) (Nat.not_le.mpr (Nat.lt_of_lt_of_eq (Nat.lt_succ_self _) hcurrent.symm))

theorem Kept.unowned_of_idle (h : u.Kept s) (hidle : u.isBusy s = false) (id : SubscriberId) :
    ¬ (TransferStream.up u).Owns s id := by
  cases h with
  | underway hu stands hact hactive =>
    have hbusy := (TransferStream.Underway.up hu stands hact hactive).isBusy
    exact absurd (hidle.symm.trans hbusy) Bool.false_ne_true
  | settled _ unowned => exact unowned id

theorem sound_begin (kept : u.Kept c.session) (counted : Counted u c) (name : String) (act : Completion υ) :
    u.Kept (c.begin u name act).session ∧ Counted u (c.begin u name act) := by
  have offers := u.offers_upload name act c.session
  rcases hupload : (u.upload name act).on c.session with ⟨result, s⟩
  rw [hupload] at offers
  rw [Series.begin, hupload]
  cases offers with
  | refused | refrains => exact ⟨kept, counted⟩
  | @fails e _ size hidle hprogress hlive =>
    refine ⟨.settled (Endpoint.isBusy_of_progress hprogress) fun id howns => ?_,
      counted.restart (congrArg Progress.moved hprogress)⟩
    have howns : (TransferStream.up u).Owns s id := howns
    exact kept.unowned_of_idle hidle id (howns.congr (by rw [hlive]))
  | @taken id _ size hidle _ _ _ stands hothers =>
    refine ⟨.underway rfl stands rfl rfl rfl fun other howns => ?_,
      counted.restart (congrArg Progress.moved stands.progress)⟩
    by_contra hother
    exact kept.unowned_of_idle hidle other (howns.of_ne hother hothers)

section Meets

variable {start o : Offer υ} {p : Progress} (hmeets : Meets start id act o p m s s')
include hmeets

/-- A message starts one sender at most. -/
theorem Meets.jobs : s'.world.jobs.length = s.world.jobs.length ∨
    s'.world.jobs = s.world.jobs ++ [{ id := id, file := start.file }] := by
  cases hmeets with
  | misses hsame => exact .inl (by rw [hsame])
  | starts _ _ hjobs => exact .inr hjobs
  | repeats _ _ hworld => exact .inl (by rw [hworld])
  | completes _ ends => exact .inl ends.jobs
  | fails ends => exact .inl ends.jobs

variable (hu : start.file.endpoint = u.toEndpoint)
include hu

/-- It changes at most the state in the progress. -/
theorem Meets.progress (stands : Stands start id o p s) : ∃ state, u.progress s' = { p with state } := by
  cases hmeets with
  | misses hsame => exact ⟨p.state, hsame ▸ stands.progress_eq hu⟩
  | starts _ stands' => exact ⟨_, stands'.progress_eq hu⟩
  | repeats _ stands' => exact ⟨p.state, stands'.progress_eq hu⟩
  | completes _ ends => exact ⟨_, hu ▸ ends.progress⟩
  | fails ends => exact ⟨_, hu ▸ ends.progress⟩

/-- It leaves the upload in progress, or nobody is registered any more. -/
theorem Meets.kept (stands : Stands start id o p s) (hact : o.completion = some act) (hactive : p.state.isActive = true)
    (htotal : start.file.size = p.total) (alone : ∀ other, (TransferStream.up u).Owns s' other → other = id) :
    u.Kept s' := by
  have hends {result : Except StreamError Outcome} {state : TransferState} (hstate : state.isActive = false)
      (ends : Ends start id act result { p with state } s s') : u.Kept s' := by
    refine .settled ?_ fun other howns => ?_
    · rw [Endpoint.isBusy, Endpoint.progress, ← hu, ends.progress]
      exact hstate
    · obtain rfl := alone other howns
      exact TransferStream.not_owns_of_contains ends.contains howns
  cases hmeets with
  | misses hsame =>
    rw [hsame] at alone ⊢
    exact .underway hu stands hact hactive htotal alone
  | starts _ stands' => exact .underway hu stands' hact rfl htotal alone
  | repeats _ stands' => exact .underway hu stands' hact hactive htotal alone
  | completes _ ends => exact hends rfl ends
  | fails ends => exact hends rfl ends

end Meets

/-- A new worker has sent nothing, and is to send the announced size. -/
theorem Counted.enlist (h : Counted u c) {file : OfferedFile} (hu : file.endpoint = u.toEndpoint)
    (htotal : file.size = (u.progress c.session).total) (id : SubscriberId) :
    Counted u { c with workers := c.workers ++ [⟨c.starts, { id := id, file }, .opening, []⟩] } := by
  have hall {P : Worker → Prop} (hold : ∀ w ∈ c.workers, P w) (hnew : P ⟨c.starts, { id := id, file }, .opening, []⟩) :
      ∀ w ∈ c.workers ++ [⟨c.starts, { id := id, file }, .opening, []⟩], P w := by
    rw [List.forall_mem_append, List.forall_mem_singleton]
    exact ⟨hold, hnew⟩
  refine ⟨h.unwritten, fun n k hsome => ?_, hall h.steady ⟨⟨[], rfl, rfl⟩, hu⟩, hall h.past (Nat.le_refl _),
    hall h.current fun _ => htotal⟩
  obtain ⟨hmoved, w, hw, hrest⟩ := h.written n k hsome
  exact ⟨hmoved, w, List.mem_append_left _ hw, hrest⟩

/-- A message that reaches the upload in progress, or nobody. -/
theorem sound_receive (kept : u.Kept c.session) (counted : Counted u c)
    (hm : (TransferStream.up u).Owns c.session m.id ∨ c.session.live[m.id]? = none) (depth : Nat) :
    u.Kept (c.receive depth m).session ∧ Counted u (c.receive depth m) := by
  cases kept with
  | settled idle unowned =>
    rw [Series.receive_of_gone (hm.resolve_left (unowned m.id))]
    exact ⟨.settled idle unowned, counted⟩
  | @underway start o id act p hu stands hact hactive htotal alone =>
    by_cases hid : m.id = id
    · have hothers := ((TransferStream.Underway.up hu stands hact hactive).dispatch hid depth).2
      have hmeets := stands.meets hact hid depth
      have alone' : ∀ other, (TransferStream.up u).Owns (Registry.dispatch depth m c.session).2 other → other = id := by
        intro other howns
        by_contra hother
        exact hother (alone other (howns.of_ne hother hothers))
      have hprogress := stands.progress_eq hu
      obtain ⟨state, hprogress'⟩ := hmeets.progress hu stands
      have counted' : Counted u { c with session := (Registry.dispatch depth m c.session).2 } :=
        counted.congr (by rw [hprogress', hprogress]) (by rw [hprogress', hprogress])
      refine ⟨hmeets.kept hu stands hact hactive htotal alone', ?_⟩
      rcases hmeets.jobs with hjobs | hjobs
      · rw [Series.receive_of_length hjobs]
        exact counted'
      · rw [Series.receive, hjobs, List.drop_left]
        refine counted'.enlist hu ?_ id
        rw [hprogress']
        exact htotal
    · have hnone : c.session.live[m.id]? = none := hm.resolve_left fun howns => hid (alone m.id howns)
      rw [Series.receive_of_gone hnone]
      exact ⟨.underway hu stands hact hactive htotal alone, counted⟩

theorem Worker.Sent.next (h : w.Sent n) (fs : List TransferFrame)
    (houtbox : s'.outbox = s.outbox ++ (w.job.queued fs).toArray) (stage : SendJob.Stage) :
    (w.next stage (s'.outbox.toList.drop s.outbox.size)).Sent (n + (Download.dataOf fs).length) := by
  obtain ⟨fs', hframes, hlen⟩ := h
  refine ⟨fs' ++ fs, ?_, ?_⟩
  · rw [Worker.next, SendJob.drop_outbox houtbox, hframes, SendJob.queued_append]
  · rw [Download.dataOf_append, List.length_append, hlen]

/-- A step of a worker notes a piece that is queued, or it leaves the progress alone. -/
theorem Worker.next_cases {cancelled : Bool} (h : w.Steady)
    (hnext : w.job.advance cancelled w.stage s = (stage, s')) :
    let w' := w.next stage (s'.outbox.toList.drop s.outbox.size)
    let stream := w.job.file.endpoint.stream
    w'.Steady ∧
    ((w.stage.noted? stage = none ∧ (∀ n, w.Sent (n + w.stage.unnoted) → w'.Sent (n + stage.unnoted)) ∧
        s'.world.progressOf stream = s.world.progressOf stream) ∨
      ∃ sent, w.stage.noted? stage = some sent ∧ w'.Sent (sent + stage.unnoted) ∧ sent ≤ w.job.file.size ∧
        s'.world.progressOf stream = { s.world.progressOf stream with moved := sent }) := by
  obtain ⟨upload, j, stage₀, frames⟩ := w
  intro w' stream
  have hquiet {n : Nat} (hn : Worker.Sent ⟨upload, j, stage₀, frames⟩ n) (houtbox : s'.outbox = s.outbox) : w'.Sent n :=
    hn.next [] (houtbox.trans Array.append_empty.symm) _
  cases SendJob.advances hnext with
  | opens => exact ⟨hquiet h rfl, .inl ⟨rfl, fun _ hn => hquiet hn rfl, rfl⟩⟩
  | announces =>
    have hsame (n : Nat) (hn : Worker.Sent ⟨upload, j, _, frames⟩ n) : w'.Sent n :=
      hn.next [j.announcement] Array.push_eq_append _
    refine ⟨⟨hsame 0 h, ?_⟩, .inl ⟨rfl, hsame, rfl⟩⟩
    rw [Nat.zero_add]
    exact SendJob.sum_pieceSizes _ _
  | goes =>
    obtain ⟨hsent, hsum⟩ := h
    rw [List.sum_cons, ← Nat.add_assoc] at hsum
    exact ⟨⟨hquiet hsent rfl, hsum⟩, .inl ⟨rfl, fun _ hn => hquiet hn rfl, rfl⟩⟩
  | reads piece hlen =>
    obtain ⟨hsent, hsum⟩ := h
    subst hlen
    exact ⟨⟨hquiet hsent rfl, hsum⟩, .inl ⟨rfl, fun _ hn => hquiet hn rfl, rfl⟩⟩
  | @sends _ node piece sent sizes =>
    obtain ⟨hsent, hsum⟩ := h
    have hdata (n : Nat) (hn : Worker.Sent ⟨upload, j, .holding node piece sizes sent, frames⟩ n) :
        w'.Sent (n + piece.length) := by
      have hpiece : (Download.dataOf [.data piece]).length = piece.length := congrArg List.length (List.append_nil piece)
      rw [← hpiece]
      exact hn.next [.data piece] Array.push_eq_append _
    exact ⟨⟨hdata sent hsent, hsum⟩, .inl ⟨rfl, hdata, rfl⟩⟩
  | @notes _ _ n sent =>
    obtain ⟨hsent, hsum⟩ := h
    have hsent' := hquiet hsent rfl
    exact ⟨⟨hsent', hsum⟩, .inr ⟨sent + n, rfl, hsent', Nat.le.intro hsum, Std.TreeMap.getD_insert_self⟩⟩
  | ends => exact ⟨trivial, .inl ⟨rfl, fun n hn => hn.next [.ended] Array.push_eq_append _, rfl⟩⟩
  | stops e hopen =>
    have hnone : stage₀.unnoted = 0 := by
      cases stage₀ with
      | noting => cases hopen
      | _ => rfl
    refine ⟨trivial, .inl ⟨by cases stage₀ <;> rfl, fun n hn => ?_, rfl⟩⟩
    rw [show SendJob.Stage.unnoted stage₀ = 0 from hnone] at hn
    exact hquiet hn rfl
  | reports | rests => exact ⟨trivial, .inl ⟨rfl, fun _ hn => hquiet hn rfl, rfl⟩⟩

section Replacing

variable {front back : List Worker} {w' : Worker} {P : Worker → Prop}

/-- One worker goes on, and all others stay as they are. -/
theorem forall_mem_replace (hold : ∀ x ∈ front ++ w :: back, P x) (hnew : P w') : ∀ x ∈ front ++ w' :: back, P x := by
  rw [List.forall_mem_append, List.forall_mem_cons] at hold ⊢
  exact ⟨hold.1, hnew, hold.2.2⟩

theorem exists_mem_replace (hold : ∃ x ∈ front ++ w :: back, P x) (hnew : P w → P w') :
    ∃ x ∈ front ++ w' :: back, P x := by
  obtain ⟨x, hx, h⟩ := hold
  rcases List.mem_append.mp hx with hx | hx
  · exact ⟨x, List.mem_append_left _ hx, h⟩
  · rcases List.mem_cons.mp hx with rfl | hx
    · exact ⟨w', List.mem_append_right _ List.mem_cons_self, hnew h⟩
    · exact ⟨x, List.mem_append_right _ (List.mem_cons_of_mem _ hx), h⟩

end Replacing

/-- A step of a worker. -/
theorem Counted.advance {starts : Nat} {front back : List Worker} {written : Option (Nat × Nat)} {cancelled : Bool}
    (h : Counted u ⟨s, starts, front ++ w :: back, written⟩)
    (hnext : w.job.advance cancelled w.stage s = (stage, s')) :
    Counted u ⟨s', starts, front ++ w.next stage (s'.outbox.toList.drop s.outbox.size) :: back,
      ((w.stage.noted? stage).map fun sent => (w.upload, sent)).or written⟩ ∧
      (u.progress s').state = (u.progress s).state ∧ (u.progress s').total = (u.progress s).total := by
  have hmem : w ∈ front ++ w :: back := List.mem_append_right _ List.mem_cons_self
  obtain ⟨hsteady, hu⟩ := h.steady w hmem
  obtain ⟨hsteady', hcases⟩ := Worker.next_cases hsteady hnext
  rw [hu] at hcases
  have hsame : (u.progress s').state = (u.progress s).state ∧ (u.progress s').total = (u.progress s).total := by
    rcases hcases with ⟨-, -, hprogress⟩ | ⟨sent, -, -, -, hprogress⟩
    all_goals
      have hprogress : u.progress s' = _ := hprogress
      rw [hprogress]
      exact ⟨rfl, rfl⟩
  refine ⟨⟨?_, ?_, forall_mem_replace h.steady ⟨hsteady', hu⟩, forall_mem_replace h.past (h.past w hmem), ?_⟩, hsame⟩
  · rcases hcases with ⟨hnoted, -, hprogress⟩ | ⟨sent, hnoted, -⟩
    all_goals rw [hnoted]
    · exact fun hnone => (congrArg Progress.moved hprogress).trans (h.unwritten hnone)
    · exact nofun
  · intro n k hsome
    rcases hcases with ⟨hnoted, hsent, hprogress⟩ | ⟨sent, hnoted, hsent, hle, hprogress⟩
    all_goals rw [hnoted] at hsome
    · obtain ⟨hmoved, hwrote⟩ := h.written n k hsome
      refine ⟨(congrArg Progress.moved hprogress).trans hmoved, exists_mem_replace hwrote ?_⟩
      rintro ⟨hupload, hsentw, hle⟩
      exact ⟨hupload, hsent k hsentw, hle⟩
    · obtain ⟨rfl, rfl⟩ := Prod.mk.inj (Option.some.inj hsome)
      exact ⟨congrArg Progress.moved hprogress, _, List.mem_append_right _ List.mem_cons_self, rfl, hsent, hle⟩
  · show ∀ x ∈ _, _ = _ → _ = (u.progress s').total
    rw [hsame.2]
    exact forall_mem_replace h.current (h.current w hmem)

/-- Every move of a run. -/
theorem sound_move (kept : u.Kept c.session) (counted : Counted u c) (move : Series.Move u late c c') :
    u.Kept c'.session ∧ Counted u c' := by
  cases move with
  | begin name act _ => exact sound_begin kept counted name act
  | receive depth m hm => exact sound_receive kept counted hm depth
  | others aside =>
    refine ⟨kept.congr aside.live aside.offer (by rw [aside.progress]) (by rw [aside.progress]),
      counted.congr (by rw [aside.progress]) (by rw [aside.progress])⟩
  | @sender s s' _ _ _ w _ _ cancelled _ hnext =>
    obtain ⟨counted', hstate, htotal⟩ := counted.advance hnext
    obtain ⟨fs, hmoved, -⟩ := w.job.moved_advance cancelled w.stage s
    rw [hnext] at hmoved
    refine ⟨kept.congr ?_ ?_ hstate htotal, counted'⟩
    · exact fun id _ => congrArg (·[id]?) hmoved.live
    · exact fun id _ => congrArg (·[id]?) hmoved.offers

/-- The sender of the current upload was the last to note something, if any has since the request. -/
def Series.Own (c : Series υ) : Prop := ∀ n k, c.written = some (n, k) → n = c.starts

/-- Besides, no sender of an earlier upload is at a piece. -/
structure Series.Punctual (c : Series υ) : Prop where
  own : c.Own
  looks : ∀ w ∈ c.workers, w.upload = c.starts ∨ w.stage.isAtPiece = false

/-- A sender that finds itself cancelled goes on with no other piece. -/
theorem isAtPiece_of_advance_cancelled {j : SendJob} {stage stage' : SendJob.Stage}
    (hnext : j.advance true stage s = (stage', s')) (h : stage.isAtPiece = false) :
    stage'.isAtPiece = false ∧ stage.noted? stage' = none := by
  cases SendJob.advances hnext with
  | goes hgoes => cases hgoes
  | reads | sends | notes => cases h
  | stops => exact ⟨rfl, by cases stage <;> rfl⟩
  | opens | announces | ends | reports | rests => exact ⟨rfl, rfl⟩

/-- Where no sender is late, that of the current upload alone notes anything. -/
theorem Series.Punctual.move (h : c.Punctual) (move : Series.Move u false c c') : c'.Punctual := by
  cases move with
  | begin name act hlate =>
    rcases hupload : (u.upload name act).on c.session with ⟨result, s⟩
    rw [Series.begin, hupload] at hlate ⊢
    by_cases hasked : asked result = true
    all_goals simp only [hasked, if_true] at hlate ⊢
    · have hquiet : ∀ w ∈ c.workers, w.stage.isAtPiece = false := by
        rcases hlate with hsame | hquiet | hlate
        · exact absurd hsame (Nat.succ_ne_self _)
        · exact hquiet
        · cases hlate
      exact ⟨nofun, fun w hw => .inr (hquiet w hw)⟩
    · exact ⟨h.own, h.looks⟩
  | others => exact ⟨h.own, h.looks⟩
  | receive =>
    refine ⟨h.own, fun w hw => ?_⟩
    rcases List.mem_append.mp hw with hold | hnew
    · exact h.looks w hold
    · obtain ⟨j, -, rfl⟩ := List.mem_map.mp hnew
      exact .inl rfl
  | @sender s s' starts front back w written stage cancelled hlate hnext =>
    have hw := h.looks w (List.mem_append_right _ List.mem_cons_self)
    have hcurrent : w.upload = starts ∨ stage.isAtPiece = false ∧ w.stage.noted? stage = none := by
      rcases hlate with hcurrent | rfl | hlate
      · exact .inl hcurrent
      · exact hw.imp_right (isAtPiece_of_advance_cancelled hnext)
      · cases hlate
    refine ⟨fun n k hsome => ?_, forall_mem_replace h.looks (hcurrent.imp_right And.left)⟩
    replace hsome : ((w.stage.noted? stage).map fun sent => (w.upload, sent)).or written = some (n, k) := hsome
    rcases hnoted : w.stage.noted? stage with _ | sent
    all_goals rw [hnoted] at hsome
    · exact h.own n k hsome
    · rw [← (Prod.mk.inj (Option.some.inj hsome)).1]
      rcases hcurrent with hcurrent | ⟨-, hnone⟩
      · exact hcurrent
      · cases hnone.symm.trans hnoted

/-! ### The theorem -/

section Whole

/-- The stream has not been used yet. -/
structure Unused (u : UploadStream) (s : Session υ) : Prop where
  progress : u.progress s = {}
  unowned : ∀ id, ¬ (TransferStream.up u).Owns s id

theorem Unused.counted (unused : u.Unused s) : Counted u { session := s } where
  unwritten _ := congrArg Progress.moved unused.progress
  written _ _ hsome := nomatch hsome
  steady _ hmem := absurd hmem List.not_mem_nil
  past _ hmem := absurd hmem List.not_mem_nil
  current _ hmem := absurd hmem List.not_mem_nil

theorem sound_run (unused : u.Unused s) (run : Series.Run u late s c) :
    u.Kept c.session ∧ Counted u c ∧ (late = false → c.Punctual) := by
  induction run with
  | refl =>
    refine ⟨.settled (Endpoint.isBusy_of_progress unused.progress) unused.unowned, unused.counted, fun _ => ?_⟩
    exact ⟨nofun, fun _ hmem => absurd hmem List.not_mem_nil⟩
  | tail _ move ih =>
    obtain ⟨kept, counted, hlate⟩ := ih
    obtain ⟨kept', counted'⟩ := sound_move kept counted move
    refine ⟨kept', counted', ?_⟩
    rintro rfl
    exact (hlate rfl).move move

/-- A run of uploads on a stream that has not been used before.  Until a sender notes a piece after the latest request,
no bytes count as moved.  Then as many count as the sender has noted that was the last to do so, whichever upload it is
of: as many as it has queued in pieces, but for one that is not noted yet, and at most those of its own file; the announced
size is that of the current upload.  So if the last was the sender of the current upload, or there was none, as is always so
where no sender is late, no more bytes count than were announced, and they count only once this sender has queued them. -/
theorem counting_of_run (unused : u.Unused s) (run : Series.Run u late s c) :
    let p := u.progress c.session
    (c.written = none → p.moved = 0) ∧
    (∀ n k, c.written = some (n, k) → p.moved = k ∧
      ∃ w ∈ c.workers, w.upload = n ∧ w.Sent (k + w.stage.unnoted) ∧ k ≤ w.job.file.size) ∧
    (∀ w ∈ c.workers, w.upload ≤ c.starts ∧ (w.upload = c.starts → w.job.file.size = p.total)) ∧
    (c.Own ∨ late = false → p.moved ≤ p.total ∧
      (p.moved ≠ 0 → ∃ w ∈ c.workers, w.upload = c.starts ∧ w.Sent (p.moved + w.stage.unnoted))) := by
  intro p
  obtain ⟨-, counted, hlate⟩ := sound_run unused run
  refine ⟨counted.unwritten, counted.written, fun w hw => ⟨counted.past w hw, counted.current w hw⟩, fun hown => ?_⟩
  have own : c.Own := hown.elim (fun own => own) fun hfalse => (hlate hfalse).own
  rcases hwritten : c.written with _ | ⟨n, k⟩
  · have hmoved : p.moved = 0 := counted.unwritten hwritten
    rw [hmoved]
    exact ⟨Nat.zero_le _, fun h => absurd rfl h⟩
  · obtain ⟨hmoved, w, hw, hupload, hsent, hle⟩ := counted.written n k hwritten
    have hcurrent : w.upload = c.starts := hupload.trans (own n k hwritten)
    have hmoved : p.moved = k := hmoved
    have htotal : w.job.file.size = p.total := counted.current w hw hcurrent
    rw [hmoved, ← htotal]
    exact ⟨hle, fun _ => ⟨w, hw, hcurrent, hsent⟩⟩

end Whole

end Sound

section Sample

/-- A stream with a file of three bytes and one of a single byte. -/
def sampleTwoFiles : Session (List (Except StreamError Outcome)) :=
  (UploadStream.start "ASSETS" "PUT" "" 2 (Session.start []
    { nodes := .ofList [(["a"], Files.Node.file 0), (["b"], Files.Node.file 1)]
      contents := .ofList [(0, Files.Content.ofBytes [1, 2, 3]), (1, Files.Content.ofBytes [7])]
      nextFile := 2 })).2

theorem unused_sampleTwoFiles : sampleUpload.Unused sampleTwoFiles := by
  refine ⟨by decide +kernel, ?_⟩
  rintro id ⟨request, handler, hlive, -⟩
  have hnone : sampleTwoFiles.live[id]? = none := Std.TreeMap.getElem?_emptyc
  rw [hnone] at hlive
  cases hlive

namespace Series

variable {c : Series (List (Except StreamError Outcome))} {late : Bool}

/-- An application that notes what it is told starts an upload. -/
def note (c : Series (List (Except StreamError Outcome))) (name : String) :
    Series (List (Except StreamError Outcome)) :=
  c.begin sampleUpload name fun r told => told ++ [r]

/-- The first sender takes a step. -/
def work (c : Series υ) : Series υ :=
  match c.workers with
  | [] => c
  | w :: rest =>
    let next := w.job.advance false w.stage c.session
    ⟨next.2, c.starts, w.next next.1 (next.2.outbox.toList.drop c.session.outbox.size) :: rest,
      ((w.stage.noted? next.1).map fun sent => (w.upload, sent)).or c.written⟩

theorem Run.note (run : Run sampleUpload late sampleTwoFiles c) (name : String)
    (hlate : (∀ w ∈ c.workers, w.stage.isAtPiece = false) ∨ late = true) :
    Run sampleUpload late sampleTwoFiles (c.note name) :=
  run.tail (.begin name _ (.inr hlate))

/-- While an upload is in progress, it alone is registered. -/
theorem Run.receive (run : Run sampleUpload late sampleTwoFiles c) (hbusy : sampleUpload.isBusy c.session = true)
    (hkeys : c.session.live.keys = [id]) (hm : m.id = id) : Run sampleUpload late sampleTwoFiles (c.receive 1 m) := by
  refine run.tail (.receive 1 m (.inl ?_))
  cases (sound_run unused_sampleTwoFiles run).1 with
  | @underway _ _ id' _ _ hu stands hact hactive =>
    have hmem : id' ∈ c.session.live.keys := Std.TreeMap.mem_keys.mpr stands.mem_live
    rw [hkeys, List.mem_singleton] at hmem
    rw [hm, ← hmem]
    exact (TransferStream.Underway.up hu stands hact hactive).owns
  | settled idle => exact absurd (idle.symm.trans hbusy) Bool.false_ne_true

/-- The first sender takes steps, and is that of the current upload, or may be late. -/
theorem Run.works (run : Run sampleUpload late sampleTwoFiles c)
    (hlate : ∀ w ∈ c.workers, w.upload = c.starts ∨ late = true) (n : Nat) :
    Run sampleUpload late sampleTwoFiles (Series.work^[n] c) := by
  induction n generalizing c with
  | zero => exact run
  | succ n ih =>
    obtain ⟨s, starts, workers, written⟩ := c
    cases workers with
    | nil => exact ih run hlate
    | cons w rest =>
      obtain ⟨hfirst, hrest⟩ := List.forall_mem_cons.mp hlate
      refine ih ?_ (List.forall_mem_cons.mpr ⟨hfirst, hrest⟩)
      have hlate' : w.upload = starts ∨ false = true ∨ late = true := hfirst.imp_right .inr
      exact run.tail (.sender false hlate' rfl : Move sampleUpload late ⟨s, starts, [] ++ w :: rest, written⟩ _)

end Series

/-- A message to one of the uploads. -/
def sampleFrame (f : TransferFrame) (id : SubscriberId) : Message := (sampleUpload.message f.payload).withId id

/-- An upload of the first file has been started. -/
def sampleFirst : Series (List (Except StreamError Outcome)) := Series.note ⟨sampleTwoFiles, 0, [], none⟩ "a"

/-- It has failed, and one of the second file has been accepted. -/
def sampleSecond : Series (List (Except StreamError Outcome)) :=
  ((sampleFirst.receive 1 (sampleFrame .ended 1)).note "b").receive 1 (sampleFrame .accepted 2)

/-- Its sender has opened the file and announced it, and has looked, read, sent and noted. -/
def sampleCounted : Series (List (Except StreamError Outcome)) := Series.work^[6] sampleSecond

theorem run_sampleCounted : Series.Run sampleUpload false sampleTwoFiles sampleCounted := by
  have first : Series.Run sampleUpload false sampleTwoFiles sampleFirst :=
    Series.Run.note .refl "a" (.inl fun _ hmem => absurd hmem List.not_mem_nil)
  have failed := first.receive (m := sampleFrame .ended 1) (by decide +kernel) (by decide +kernel) rfl
  have second : Series.Run sampleUpload false sampleTwoFiles sampleSecond :=
    (failed.note "b" (.inl (by decide +kernel))).receive (by decide +kernel) (by decide +kernel) rfl
  exact second.works (by decide +kernel) 6

/-- The whole file counts as moved, and the second sender has queued it. -/
theorem counting_of_sampleCounted :
    (sampleUpload.progress sampleCounted.session).moved = 1 ∧ (sampleUpload.progress sampleCounted.session).total = 1 ∧
    ∃ w ∈ sampleCounted.workers, w.upload = 2 ∧ w.Sent 1 := by
  have hprogress : (sampleUpload.progress sampleCounted.session).moved = 1 ∧
      (sampleUpload.progress sampleCounted.session).total = 1 ∧ sampleCounted.starts = 2 ∧
      ∀ w ∈ sampleCounted.workers, w.stage.unnoted = 0 := by decide +kernel
  obtain ⟨hmoved, htotal, hstarts, hnoted⟩ := hprogress
  obtain ⟨-, -, -, hown⟩ := counting_of_run unused_sampleTwoFiles run_sampleCounted
  obtain ⟨-, hsent⟩ := hown (.inr rfl)
  rw [hmoved, hstarts] at hsent
  obtain ⟨w, hw, hupload, hsent⟩ := hsent Nat.one_ne_zero
  rw [hnoted w hw] at hsent
  exact ⟨hmoved, htotal, w, hw, hupload, hsent⟩

/-- The first upload has been accepted. -/
def sampleUnderway : Series (List (Except StreamError Outcome)) := sampleFirst.receive 1 (sampleFrame .accepted 1)

theorem run_sampleUnderway : Series.Run sampleUpload true sampleTwoFiles sampleUnderway := by
  have first : Series.Run sampleUpload true sampleTwoFiles sampleFirst := Series.Run.note .refl "a" (.inr rfl)
  exact first.receive (m := sampleFrame .accepted 1) (by decide +kernel) (by decide +kernel) rfl

/-- The peer has said that everything is sent. -/
def sampleDone : Series (List (Except StreamError Outcome)) := sampleUnderway.receive 1 sampleForgery

/-- The second has been started, and the sender of the first announces its file and sends a piece. -/
def sampleOverrun : Series (List (Except StreamError Outcome)) := Series.work^[6] (sampleDone.note "b")

theorem run_sampleOverrun : Series.Run sampleUpload true sampleTwoFiles sampleOverrun := by
  have done : Series.Run sampleUpload true sampleTwoFiles sampleDone :=
    run_sampleUnderway.receive (by decide +kernel) (by decide +kernel) rfl
  exact (done.note "b" (.inr rfl)).works (fun _ _ => .inr rfl) 6

/-- The second upload waits for an answer, and has no sender; more bytes count as moved than its file has.  Running the
sender of the first to its end comes to the same. -/
theorem miscounted_sampleOverrun :
    sampleUpload.Unused sampleTwoFiles ∧ Series.Run sampleUpload true sampleTwoFiles sampleOverrun ∧
    sampleOverrun.starts = 2 ∧ sampleOverrun.workers.map Worker.upload = [1] ∧
    sampleUpload.progress sampleOverrun.session =
      { state := .awaitingOpenAck, fileName := "b", total := 1, moved := 2 } ∧
    sampleUpload.progress (sampleDone.note "b").session.runSenders =
      { state := .awaitingOpenAck, fileName := "b", total := 1, moved := 3 } := by
  refine ⟨unused_sampleTwoFiles, run_sampleOverrun, ?_⟩
  decide +kernel

/-- The sender of the first upload waits for its first piece. -/
def sampleAtPiece : Series (List (Except StreamError Outcome)) := Series.work^[3] sampleUnderway

/-- The peer ends the stream, the second upload is started, and the sender of the first goes on with its piece. -/
def sampleStraggler : Series (List (Except StreamError Outcome)) :=
  Series.work^[3] ((sampleAtPiece.receive 1 (sampleFrame .ended 1)).note "b")

theorem run_sampleStraggler : Series.Run sampleUpload true sampleTwoFiles sampleStraggler := by
  have atPiece : Series.Run sampleUpload true sampleTwoFiles sampleAtPiece :=
    run_sampleUnderway.works (fun _ _ => .inr rfl) 3
  have failed := atPiece.receive (m := sampleFrame .ended 1) (by decide +kernel) (by decide +kernel) rfl
  exact (failed.note "b" (.inr rfl)).works (fun _ _ => .inr rfl) 3

/-- No frame of the peer is forged, and yet bytes count as moved that are not of the second upload. -/
theorem miscounted_sampleStraggler :
    Series.Run sampleUpload true sampleTwoFiles sampleStraggler ∧ sampleStraggler.starts = 2 ∧
    sampleStraggler.workers.map Worker.upload = [1] ∧
    sampleUpload.progress sampleStraggler.session =
      { state := .awaitingOpenAck, fileName := "b", total := 1, moved := 2 } := by
  refine ⟨run_sampleStraggler, ?_⟩
  decide +kernel

end Sample

end UploadStream
end LevelLink
