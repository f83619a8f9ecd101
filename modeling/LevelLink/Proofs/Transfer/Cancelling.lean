import LevelLink.Proofs.Transfer.Settling

/-!
# Failed uploads

A frame that fails an upload marks the job of its sender as cancelled; the sender looks at the mark before every piece,
and nowhere else.  Whatever happens later, a sender that has not worked yet announces the file at most, and one that has
looked for a piece before the failure may still send that piece (`SendJob.MayQueue`, `UploadStream.silence_of_run`).  A
sender without a piece to look for sends the end: that of an empty file follows its announcement, although the application
knows that the upload has failed (`UploadStream.ended_sampleEmpty`).
-/

namespace LevelLink

namespace SendJob

variable {υ : Type} {j : SendJob} {stage stage' : Stage} {s s' : Session υ} {fs : List TransferFrame}

/-! ### Cancelled senders -/

/-- What follows when pieces of these sizes are left, and the sender looks before each: the end, if there is none. -/
def closing : List Nat → List TransferFrame
  | [] => [.ended]
  | _ :: _ => []

/-- A sender that has been cancelled may still queue these frames.  It stops at its next look, and what it has found out at
the last one stands until then. -/
def MayQueue (j : SendJob) : Stage → List TransferFrame → Prop
  | .opening, fs | .announcing _, fs => fs <+: j.announcement :: closing (pieceSizes j.file.chunk j.file.size)
  | .sending _ sizes _, fs | .noting _ _ sizes _, fs => fs <+: closing sizes
  | .reading _ n sizes _, fs => ∃ piece : Bytes, piece.length = n ∧ fs <+: .data piece :: closing sizes
  | .holding _ piece sizes _, fs => fs <+: .data piece :: closing sizes
  | .finished _, fs | .reported _, fs => fs = []

/-- The sender does not look again before it sends the end. -/
def PastLooks (j : SendJob) : Stage → Prop
  | .opening | .announcing _ => j.file.size = 0
  | .sending _ sizes _ | .reading _ _ sizes _ | .holding _ _ sizes _ | .noting _ _ sizes _ => sizes = []
  | .finished _ | .reported _ => False

theorem ended_mem_closing {sizes : List Nat} (h : .ended ∈ closing sizes) : sizes = [] := by
  cases sizes with
  | nil => rfl
  | cons => cases h

/-- The end is queued only if there is nothing left to look for. -/
theorem MayQueue.pastLooks (h : j.MayQueue stage fs) (hended : .ended ∈ fs) : j.PastLooks stage := by
  have hcons (f : TransferFrame) {sizes : List Nat} (hfs : fs <+: f :: closing sizes) (hne : .ended ≠ f) : sizes = [] :=
    ended_mem_closing (List.mem_of_ne_of_mem hne (hfs.subset hended))
  cases stage with
  | opening | announcing => exact pieceSizes_eq_nil_iff.mp (hcons j.announcement h nofun)
  | sending | noting => exact ended_mem_closing (List.IsPrefix.subset h hended)
  | reading =>
    obtain ⟨piece, -, hfs⟩ := h
    exact hcons (.data piece) hfs nofun
  | holding _ piece => exact hcons (.data piece) h nofun
  | finished | reported =>
    rw [show fs = [] from h] at hended
    cases hended

theorem mayQueue_nil (j : SendJob) (stage : Stage) : j.MayQueue stage [] := by
  cases stage with
  | reading node n => exact ⟨List.replicate n 0, List.length_replicate, List.nil_prefix⟩
  | finished | reported => rfl
  | _ => exact List.nil_prefix

/-- A step of a cancelled sender. -/
theorem mayQueue_advance (h : j.advance true stage s = (stage', s')) :
    ∃ fs, s'.outbox = s.outbox ++ (j.queued fs).toArray ∧
      ∀ fs', j.MayQueue stage' fs' → j.MayQueue stage (fs ++ fs') := by
  have hnothing : s.outbox = s.outbox ++ (j.queued []).toArray := Array.append_empty.symm
  cases advances h with
  | goes hgoes => cases hgoes
  | opens | notes | reports | rests => exact ⟨[], hnothing, fun _ h => h⟩
  | reads piece hlen => exact ⟨[], hnothing, fun _ h => ⟨piece, hlen, h⟩⟩
  | announces => exact ⟨[j.announcement], Array.push_eq_append, fun _ h => List.cons_prefix_cons.mpr ⟨rfl, h⟩⟩
  | sends => exact ⟨[.data _], Array.push_eq_append, fun _ h => List.cons_prefix_cons.mpr ⟨rfl, h⟩⟩
  | ends =>
    refine ⟨[.ended], Array.push_eq_append, ?_⟩
    rintro _ rfl
    exact List.prefix_rfl
  | stops =>
    refine ⟨[], hnothing, ?_⟩
    rintro _ rfl
    exact j.mayQueue_nil stage

theorem mayQueue_reaches {x y : Stage × Session υ} (h : j.Reaches true x y) :
    ∃ fs, y.2.outbox = x.2.outbox ++ (j.queued fs).toArray ∧
      ∀ fs', j.MayQueue y.1 fs' → j.MayQueue x.1 (fs ++ fs') := by
  induction h with
  | refl => exact ⟨[], Array.append_empty.symm, fun _ h => h⟩
  | @tail y z _ hstep ih =>
    obtain ⟨fs, houtbox, hfs⟩ := ih
    obtain ⟨fs', houtbox', hfs'⟩ := mayQueue_advance hstep
    refine ⟨fs ++ fs', ?_, fun fs'' h => ?_⟩
    · rw [houtbox', houtbox, Array.append_assoc, queued_append, ← List.append_toArray]
    · rw [List.append_assoc]
      exact hfs _ (hfs' fs'' h)

/-- Running a cancelled sender to its end. -/
theorem outbox_run_of_cancelled (hcancelled : j.cancelled = true) (s : Session υ) :
    ∃ fs, (j.run s).outbox = s.outbox ++ (j.queued fs).toArray ∧ j.MayQueue .opening fs := by
  obtain ⟨result, hreaches⟩ := j.reaches_run s
  rw [hcancelled] at hreaches
  obtain ⟨fs, houtbox, hfs⟩ := mayQueue_reaches hreaches
  have hwhole := hfs [] rfl
  rw [List.append_nil] at hwhole
  exact ⟨fs, houtbox, hwhole⟩

/-- An empty file is sent to the end, cancelled or not. -/
theorem outbox_run_of_empty {node : Files.Node} (hsize : j.file.size = 0) (hroom : s.room = none)
    (hfind : s.world.files.find j.file.path = .ok node) :
    (j.run s).outbox = s.outbox ++ (j.queued [j.announcement, .ended]).toArray := by
  obtain ⟨s₁, hannounce, hsent₁⟩ := on_put (j := j) hroom j.announcement
  obtain ⟨s₂, hend, hsent₂⟩ := on_put (j := j) (hsent₁.room.trans hroom) .ended
  have hput : j.putFile.on s = (.ok (), s₂) := by
    have hnone : ¬ 0 < j.file.size := Nat.not_lt.mpr (Nat.le_of_eq hsize)
    rw [putFile, Attempt.on_bind_of_ok (Attempt.on_get s), hfind]
    refine (Attempt.on_bind_of_ok (Attempt.on_lift _ s) _).trans ((Attempt.on_bind_of_ok hannounce _).trans ?_)
    rw [if_neg hnone]
    exact hend
  rw [run, hput]
  exact (hsent₁.trans hsent₂).outbox

theorem jobs_advance {cancelled : Bool} (h : j.advance cancelled stage s = (stage', s')) :
    s'.world.jobs = s.world.jobs := by
  cases advances h <;> rfl

end SendJob

namespace UploadStream

variable {υ : Type} {start o : Offer υ} {u : UploadStream} {id : SubscriberId} {s s' : Session υ} {p : Progress}
  {completion : Completion υ} {c c' : Course υ} {m : Message} {j : SendJob} {stage : SendJob.Stage}
  {frames : List Bytes} {started : Bool} {depth : Nat}

/-! ### Runs in which an upload may fail -/

/-- Whether the sender of an upload finds itself cancelled. -/
def isCancelled (id : SubscriberId) (w : World υ) : Bool := w.jobs.any fun j => j.id == id && j.cancelled

/-- Whatever else happens has left alone who listens under the number of the upload, its offer and the jobs of its
sender, and the state of the stream as long as the upload listens. -/
structure Beside (u : UploadStream) (id : SubscriberId) (s s' : Session υ) : Prop where
  live : s'.live[id]? = s.live[id]?
  offer : s'.world.offers[id]? = s.world.offers[id]?
  jobs : s'.world.jobs.filter (·.id == id) = s.world.jobs.filter (·.id == id)
  state : id ∈ s.live → (u.progress s').state = (u.progress s).state

/-- What can happen next: something beside the upload, any message with its number, or a step of a sender, which stops
where it finds itself cancelled. -/
inductive Course.Turn (u : UploadStream) (id : SubscriberId) : Course υ → Course υ → Prop where
  | others {c : Course υ} {s' : Session υ} (beside : u.Beside id c.session s') : Turn u id c { c with session := s' }
  | message {c : Course υ} (depth : Nat) (m : Message) (hm : m.id = id) : Turn u id c (c.receive depth m)
  | sender {s s' : Session υ} {front back : List (SendJob × SendJob.Stage)} {frames : List Bytes} {j : SendJob}
      {stage stage' : SendJob.Stage} (hnext : j.advance (isCancelled id s.world) stage s = (stage', s')) :
      Turn u id ⟨s, front ++ (j, stage) :: back, frames⟩
        ⟨s', front ++ (j, stage') :: back, frames ++ s'.outbox.toList.drop s.outbox.size⟩

/-- Any sequence of turns. -/
def Course.Turns (u : UploadStream) (id : SubscriberId) : Course υ → Course υ → Prop :=
  Relation.ReflTransGen (Course.Turn u id)

theorem Beside.mem_jobs_iff (h : u.Beside id s s') (hid : j.id = id) : j ∈ s'.world.jobs ↔ j ∈ s.world.jobs := by
  have hmem := congrArg (j ∈ ·) h.jobs
  simpa only [List.mem_filter, hid, beq_self_eq_true, and_true, eq_iff_iff] using hmem

theorem isCancelled_of_mem (hj : j ∈ s.world.jobs) (hid : j.id = id)
    (hall : ∀ k ∈ s.world.jobs, k.id = id → k.cancelled = true) : isCancelled id s.world = true := by
  rw [isCancelled, List.any_eq_true]
  exact ⟨j, hj, by rw [hid, beq_self_eq_true, hall j hj hid]; rfl⟩

/-! ### Before the failure -/

/-- The upload waits for what is to come, and a sender that has been started has its job; or it is over. -/
inductive Pursued (start : Offer υ) (id : SubscriberId) (completion : Completion υ) : Course υ → Prop where
  | waits {c : Course υ} {o : Offer υ} {p : Progress} (stands : Stands start id o p c.session)
      (tracked : Tracked start id o.started c) (hact : o.completion = some completion) (hstate : p.state ≠ .failed)
      (hjob : o.started = true → ∃ j ∈ c.session.world.jobs, j.id = id ∧ j.file = start.file) :
      Pursued start id completion c
  | gone {c : Course υ} {started : Bool} (hgone : c.session.live[id]? = none) (tracked : Tracked start id started c) :
      Pursued start id completion c

theorem Stands.of_beside (h : Stands start id o p s) (hu : start.file.endpoint = u.toEndpoint)
    (hs : u.Beside id s s') : ∃ p', p'.state = p.state ∧ Stands start id o p' s' :=
  h.of_spared hu ⟨hs.live, hs.offer, hs.state h.mem_live⟩

theorem Pursued.beside (h : Pursued start id completion c) (hu : start.file.endpoint = u.toEndpoint)
    (hs : u.Beside id c.session s') : Pursued start id completion { c with session := s' } := by
  cases h with
  | waits stands tracked hact hstate hjob =>
    obtain ⟨p', hp', stands'⟩ := stands.of_beside hu hs
    refine .waits stands' (tracked.congr s') hact (hp' ▸ hstate) fun hstarted => ?_
    obtain ⟨j, hj, hid, hfile⟩ := hjob hstarted
    exact ⟨j, (hs.mem_jobs_iff hid).mpr hj, hid, hfile⟩
  | gone hgone tracked => exact .gone (hs.live.trans hgone) (tracked.congr s')

theorem Pursued.tracked (h : Pursued start id completion c) : ∃ started, Tracked start id started c := by
  cases h with
  | waits _ tracked => exact ⟨_, tracked⟩
  | gone _ tracked => exact ⟨_, tracked⟩

/-- A message has failed the upload: the application knows, nobody listens any more, and the sender is cancelled. -/
structure Abandoned (start : Offer υ) (id : SubscriberId) (completion : Completion υ) (c c' : Course υ) : Prop where
  app : ∃ e, c'.session.world.app = completion (.error e) c.session.world.app
  gone : c'.session.live[id]? = none
  jobs : c'.session.world.jobs = (cancel id c.session.world).jobs
  same : c' = { c with session := c'.session }
  job : ∀ x ∈ c.senders, ∃ k ∈ c.session.world.jobs, k.id = id ∧ k.file = x.1.file

theorem Pursued.message (h : Pursued start id completion c) (hm : m.id = id) (depth : Nat) :
    Pursued start id completion (c.receive depth m) ∧
      (id ∈ c.session.live →
        ((c.receive depth m).session.world.progressOf start.file.endpoint.stream).state = .failed →
        Abandoned start id completion c (c.receive depth m)) := by
  cases h with
  | gone hgone tracked =>
    rw [Course.receive_of_gone (hm.symm ▸ hgone)]
    refine ⟨.gone hgone tracked, fun hlive => ?_⟩
    rw [Std.TreeMap.mem_iff_isSome_getElem?, hgone] at hlive
    cases hlive
  | @waits o p stands tracked hact hstate hjob =>
    cases stands.meets hact hm depth with
    | misses hsame =>
      rw [Course.receive_of_length (by rw [hsame]), hsame, stands.progress]
      exact ⟨.waits stands tracked hact hstate hjob, fun _ hfailed => absurd hfailed hstate⟩
    | starts hstarted stands' hjobs =>
      rw [Course.receive_of_append hjobs, stands'.progress]
      refine ⟨.waits stands' ((hstarted ▸ tracked).starts _) hact nofun fun _ => ?_, nofun⟩
      exact ⟨_, hjobs ▸ List.mem_append_right _ (List.mem_singleton.mpr rfl), rfl, rfl⟩
    | repeats _ stands' hworld =>
      rw [Course.receive_of_length (by rw [hworld]), stands'.progress]
      refine ⟨.waits stands' (tracked.congr _) hact hstate ?_, fun _ hfailed => absurd hfailed hstate⟩
      rw [hworld]
      exact hjob
    | completes _ ends =>
      rw [Course.receive_of_length ends.jobs, ends.progress]
      exact ⟨.gone (Registry.getElem?_of_contains ends.contains) (tracked.congr _), nofun⟩
    | fails ends hjobs =>
      have hgone := Registry.getElem?_of_contains ends.contains
      rw [Course.receive_of_length ends.jobs]
      refine ⟨.gone hgone (tracked.congr _), fun _ _ => ⟨⟨_, ends.app⟩, hgone, hjobs, rfl, fun x hx => ?_⟩⟩
      obtain ⟨-, hstarted, -, hfile, -⟩ := tracked.eq_singleton hx
      rw [hfile]
      exact hjob hstarted

theorem Pursued.turn (h : Pursued start id completion c) (hu : start.file.endpoint = u.toEndpoint)
    (hchunk : 0 < start.file.chunk) (turn : Course.Turn u id c c') : Pursued start id completion c' := by
  cases turn with
  | others beside => exact h.beside hu beside
  | message depth m hm => exact (h.message hm depth).1
  | sender hnext =>
    have hjobs := SendJob.jobs_advance hnext
    cases h with
    | waits stands tracked hact hstate hjob =>
      obtain ⟨tracked', fs, hmoved⟩ := tracked.advance hchunk hnext
      obtain ⟨p', hp', stands'⟩ := stands.of_spared hu (spared_of_moved hmoved u id)
      exact .waits stands' tracked' hact (hp' ▸ hstate) (hjobs ▸ hjob)
    | gone hgone tracked =>
      obtain ⟨tracked', fs, hmoved⟩ := tracked.advance hchunk hnext
      exact .gone (hmoved.live ▸ hgone) tracked'

theorem Pursued.turns (h : Pursued start id completion c) (hu : start.file.endpoint = u.toEndpoint)
    (hchunk : 0 < start.file.chunk) (turns : Course.Turns u id c c') : Pursued start id completion c' := by
  induction turns with
  | refl => exact h
  | tail _ turn ih => exact ih.turn hu hchunk turn

/-! ### After the failure -/

/-- The upload is over, all jobs with its number are cancelled, and since the sender was at a stage, it has queued no
more than a cancelled one queues from there. -/
structure Silenced (id : SubscriberId) (j : SendJob) (stage : SendJob.Stage) (frames : List Bytes) (c : Course υ) : Prop
    where
  gone : c.session.live[id]? = none
  job : ∃ k ∈ c.session.world.jobs, k.id = id ∧ k.file = j.file
  cancelled : ∀ k ∈ c.session.world.jobs, k.id = id → k.cancelled = true
  queued : ∃ stage' fs, c.senders = [(j, stage')] ∧ c.frames = frames ++ j.queued fs ∧
    ∀ fs', j.MayQueue stage' fs' → j.MayQueue stage (fs ++ fs')

theorem cancelled_of_mem_cancel {w : World υ} (hj : j ∈ (cancel id w).jobs) (hid : j.id = id) : j.cancelled = true := by
  obtain ⟨k, -, hk⟩ := List.mem_map.mp hj
  split at hk
  · rw [← hk]
  · next hne => exact absurd (hk ▸ hid) hne

/-- The failure silences the sender. -/
theorem Abandoned.silenced (h : Abandoned start id completion c c') (hsenders : c.senders = [(j, stage)]) :
    Silenced id j stage c.frames c' := by
  obtain ⟨k, hk, hid, hfile⟩ := h.job (j, stage) (hsenders ▸ List.mem_singleton.mpr rfl)
  refine ⟨h.gone, ⟨{ k with cancelled := true }, ?_, hid, hfile⟩, ?_, stage, [], ?_, ?_, fun _ h => h⟩
  · rw [h.jobs]
    exact List.mem_map.mpr ⟨k, hk, if_pos hid⟩
  · rw [h.jobs]
    exact fun k hk hid => cancelled_of_mem_cancel hk hid
  · rw [h.same]
    exact hsenders
  · rw [h.same]
    exact (List.append_nil _).symm

theorem Silenced.turn (h : Silenced id j stage frames c) (turn : Course.Turn u id c c') :
    Silenced id j stage frames c' := by
  obtain ⟨hgone, ⟨k, hk, hid, hfile⟩, hcancelled, stage₁, fs, hsenders, hframes, hfs⟩ := h
  cases turn with
  | others beside =>
    refine ⟨beside.live.trans hgone, ⟨k, (beside.mem_jobs_iff hid).mpr hk, hid, hfile⟩, ?_, stage₁, fs, hsenders,
      hframes, hfs⟩
    exact fun k hk hid => hcancelled k ((beside.mem_jobs_iff hid).mp hk) hid
  | message depth m hm =>
    rw [Course.receive_of_gone (hm.symm ▸ hgone)]
    exact ⟨hgone, ⟨k, hk, hid, hfile⟩, hcancelled, stage₁, fs, hsenders, hframes, hfs⟩
  | @sender s s' front back frames' j' stage₂ stage' hnext =>
    obtain ⟨rfl, hsame, rfl⟩ := eq_of_append_eq_singleton hsenders
    obtain ⟨rfl, rfl⟩ := Prod.mk.inj hsame
    -- the mark on the job is what stops it
    rw [isCancelled_of_mem hk hid hcancelled] at hnext
    have hjobs := SendJob.jobs_advance hnext
    obtain ⟨fs', houtbox, hfs'⟩ := SendJob.mayQueue_advance hnext
    have hlive : s'.live = s.live := by
      obtain ⟨_, hmoved, -⟩ := j'.moved_advance true stage₂ s
      rw [hnext] at hmoved
      exact hmoved.live
    refine ⟨hlive ▸ hgone, ⟨k, hjobs ▸ hk, hid, hfile⟩, hjobs ▸ hcancelled, stage', fs ++ fs', rfl, ?_, fun fs'' h => ?_⟩
    · rw [SendJob.drop_outbox houtbox, show frames' = _ from hframes, List.append_assoc, SendJob.queued_append]
    · rw [List.append_assoc]
      exact hfs _ (hfs' fs'' h)

theorem Silenced.turns (h : Silenced id j stage frames c) (turns : Course.Turns u id c c') :
    Silenced id j stage frames c' := by
  induction turns with
  | refl => exact h
  | tail _ turn ih => exact ih.turn turn

/-! ### The theorem -/

section Whole

variable {name node service dir : String} {chunk : Nat} {s₀ s₁ : Session υ}

/-- A run of an upload in which a message fails it after its sender has been started, and whatever happens then.  The
application is told of the failure.  From where the sender was, it queues at most what a cancelled one may: nothing but the
announcement if it has not worked and the file is not empty; the piece that it has looked for, if it was at one; and the end
only if it had no piece left to look for.  The same holds of its job, whenever it is run to its end; that of an empty file
queues the announcement and the end, as long as there is the file and the link takes frames. -/
theorem silence_of_run (hu : (UploadStream.start node service dir chunk s₀).1 = u)
    (hupload : (u.upload name completion).on s = (.ok true, s₁)) (hid : u.latest? s₁ = some id)
    (before : Course.Turns u id ⟨s₁, [], []⟩ c) (hsender : (j, stage) ∈ c.senders)
    (hlive : id ∈ c.session.live) (hm : m.id = id) (hfailed : (u.progress (c.receive depth m).session).state = .failed)
    (later : Course.Turns u id (c.receive depth m) c') :
    s.world.files.size (Files.Path.join u.dir name) = .ok j.file.size ∧
    (∃ e, (c.receive depth m).session.world.app = completion (.error e) c.session.world.app) ∧
    (∃ fs, c'.frames = c.frames ++ j.queued fs ∧ j.MayQueue stage fs ∧ (.ended ∈ fs → j.PastLooks stage)) ∧
    (∃ k ∈ c'.session.world.jobs, k.id = id ∧ k.file = j.file) ∧
    ∀ k ∈ c'.session.world.jobs, k.id = id → ∀ s : Session υ,
      (∃ fs, (k.run s).outbox = s.outbox ++ (k.queued fs).toArray ∧ k.MayQueue .opening fs ∧
        (.ended ∈ fs → k.file.size = 0)) ∧
      ∀ node, k.file.size = 0 → s.room = none → s.world.files.find k.file.path = .ok node →
        (k.run s).outbox = s.outbox ++ (k.queued [k.announcement, .ended]).toArray := by
  obtain ⟨size, hsize, -, stands⟩ := stands_of_started hupload hid
  have hchunk : 0 < u.chunk := (chunk_of_start hu).2
  have offered : Pursued (u.offer name size completion) id completion ⟨s₁, [], []⟩ :=
    .waits stands .unsent rfl nofun nofun
  have pursued := offered.turns rfl hchunk before
  obtain ⟨-, hfail⟩ := pursued.message hm depth
  have abandoned := hfail hlive hfailed
  obtain ⟨started, tracked⟩ := pursued.tracked
  obtain ⟨hsenders, -, -, hfile, -⟩ := tracked.eq_singleton hsender
  have silenced := (abandoned.silenced hsenders).turns later
  refine ⟨by rw [hfile]; exact hsize, abandoned.app, ?_, silenced.job, ?_⟩
  · obtain ⟨stage', fs, -, hframes, hfs⟩ := silenced.queued
    have hqueued := hfs [] (j.mayQueue_nil stage')
    rw [List.append_nil] at hqueued
    exact ⟨fs, hframes, hqueued, hqueued.pastLooks⟩
  · intro k hk hkid s
    obtain ⟨fs, houtbox, hfs⟩ := SendJob.outbox_run_of_cancelled (silenced.cancelled k hk hkid) s
    exact ⟨⟨fs, houtbox, hfs, hfs.pastLooks⟩, fun node hsize hroom hfind =>
      SendJob.outbox_run_of_empty hsize hroom hfind⟩

end Whole

section Sample

namespace Course

/-- The first sender takes a step, or stops where it finds itself cancelled. -/
def proceed (id : SubscriberId) (c : Course υ) : Course υ :=
  match c.senders with
  | [] => c
  | (j, stage) :: rest =>
    let next := j.advance (isCancelled id c.session.world) stage c.session
    ⟨next.2, (j, next.1) :: rest, c.frames ++ next.2.outbox.toList.drop c.session.outbox.size⟩

theorem Turns.proceed (turns : Turns u id c c') : Turns u id c (c'.proceed id) := by
  obtain ⟨s', senders, frames⟩ := c'
  cases senders with
  | nil => exact turns
  | cons x rest => exact turns.tail (.sender rfl : Turn u id ⟨s', [] ++ x :: rest, frames⟩ _)

theorem Turns.proceeds (turns : Turns u id c c') (n : Nat) : Turns u id c ((Course.proceed id)^[n] c') := by
  induction n with
  | zero => exact turns
  | succ n ih =>
    rw [Function.iterate_succ_apply']
    exact ih.proceed

end Course

/-- The peer ends the stream of the upload. -/
def sampleEnd : Message := (sampleUpload.message TransferFrame.ended.payload).withId 1

/-- The peer has accepted the upload, so its sender has been started, and then ended the stream. -/
def sampleStruck : Course (List (Except StreamError Outcome)) := sampleWaiting.receive 1 sampleEnd

/-- The sender has opened the file and announced it, has looked and posted its report. -/
def sampleSilenced : Course (List (Except StreamError Outcome)) := (Course.proceed 1)^[4] sampleStruck

/-- The sender announces the file, and stops. -/
theorem silence_of_sampleStruck :
    (sampleUpload.progress sampleStruck.session).state = .failed ∧
    (∃ e, sampleStruck.session.world.app = [.error e]) ∧
    ∃ fs, sampleSilenced.frames = sampleJob.queued fs ∧ fs <+: [sampleJob.announcement] ∧ .ended ∉ fs := by
  have hid : sampleUpload.latest? sampleSession = some 1 := by decide +kernel
  have hsender : (sampleJob, .opening) ∈ sampleWaiting.senders := by decide +kernel
  have hlive : 1 ∈ sampleWaiting.session.live := by decide +kernel
  have hfailed : (sampleUpload.progress sampleStruck.session).state = .failed := by decide +kernel
  have hbefore : sampleWaiting.session.world.app = [] ∧ sampleWaiting.frames = [] := by decide +kernel
  have before : Course.Turns sampleUpload 1 ⟨sampleSession, [], []⟩ sampleWaiting :=
    .single (.message 1 _ rfl)
  have later : Course.Turns sampleUpload 1 sampleStruck sampleSilenced := Course.Turns.proceeds .refl 4
  obtain ⟨-, ⟨e, happ⟩, ⟨fs, hframes, hleft, hended⟩, -⟩ := silence_of_run (u := sampleUpload) rfl
    upload_sampleUpload hid before hsender hlive rfl hfailed later
  refine ⟨hfailed, ⟨e, ?_⟩, fs, ?_, hleft, fun hmem => ?_⟩
  · rw [sampleStruck, happ, hbefore.1]
    rfl
  · rw [hframes, hbefore.2]
    rfl
  · have hsize : sampleJob.file.size = 0 := hended hmem
    exact absurd hsize (by decide)

/-- A sender that has looked for its last piece when the peer ends the stream sends the piece and the end. -/
example :
    let course := ((Course.proceed 1)^[7] sampleWaiting).receive 1 sampleEnd
    course.senders = [(sampleJob, .reading (.file 0) 1 [] 2)] ∧
    (sampleUpload.progress course.session).state = .failed ∧
    ((Course.proceed 1)^[4] course).frames =
      sampleJob.queued [sampleJob.announcement, .data [1, 2], .data [3], .ended] := by
  decide +kernel

/-- The same with an empty file. -/
def sampleEmptyStart : Session (List (Except StreamError Outcome)) :=
  (UploadStream.start "ASSETS" "PUT" "" 2 (Session.start []
    { sampleFiles with contents := .ofList [(0, Files.Content.ofBytes [])] })).2

def sampleEmptySession : Session (List (Except StreamError Outcome)) :=
  ((sampleUpload.upload "a" fun r told => told ++ [r]).on sampleEmptyStart).2

def sampleEmptyWaiting : Course (List (Except StreamError Outcome)) :=
  Course.receive 1 (sampleAcceptance sampleUpload.toEndpoint) ⟨sampleEmptySession, [], []⟩

def sampleEmptyStruck : Course (List (Except StreamError Outcome)) := sampleEmptyWaiting.receive 1 sampleEnd

def sampleEmptyJob : SendJob := { id := 1, file := ⟨sampleUpload.toEndpoint, "a", "a", 0, 2⟩ }

/-- The application has been told that the upload has failed before the sender has worked, and the sender queues the
end. -/
theorem ended_sampleEmpty :
    (sampleUpload.upload "a" fun r told => told ++ [r]).on sampleEmptyStart = (.ok true, sampleEmptySession) ∧
    sampleEmptyWaiting.senders = [(sampleEmptyJob, .opening)] ∧ sampleEmptyWaiting.frames = [] ∧
    (sampleUpload.progress sampleEmptyStruck.session).state = .failed ∧
    sampleEmptyStruck.session.world.app =
      [.error (.remote "upload" "server ended the stream before the upload finished")] ∧
    ((Course.proceed 1)^[3] sampleEmptyStruck).frames =
      sampleEmptyJob.queued [sampleEmptyJob.announcement, .ended] ∧
    sampleEmptyStruck.session.runSenders.outbox = sampleEmptyStruck.session.outbox ++
      (sampleEmptyJob.queued [sampleEmptyJob.announcement, .ended]).toArray := by
  refine ⟨Prod.ext (by decide +kernel) rfl, ?_⟩
  decide +kernel

end Sample

end UploadStream
end LevelLink
