import LevelLink.Proofs.Transfer.Completion

/-!
# One frame of a transfer

While a transfer is in progress its stream is occupied, its subscriber listens and its completion has not been called
(`TransferStream.Underway`).  A frame leaves it in progress, whatever else it does, or it settles the transfer:
the completion is called with what has come of it, the state says so, and nobody listens any more
(`Endpoint.Settled`).
-/

namespace LevelLink

/-- The state of a transfer of which this has come. -/
def TransferState.ofResult : Except StreamError Outcome → TransferState
  | .ok _ => .done
  | .error _ => .failed

/-- A transfer is over: the application has been told how, the state says so, and nobody listens any more. -/
structure Endpoint.Settled {υ : Type} (e : Endpoint) (id : SubscriberId) (act : Completion υ)
    (result : Except StreamError Outcome) (s s' : Session υ) : Prop where
  app : s'.world.app = act result s.world.app
  state : (e.progress s').state = .ofResult result
  contains : s'.contains id = false

/-- Reading a status changes nothing. -/
theorem Transfer.maintains_readStatus {ω : Type} {P : ω → Prop} (context : String) (m : Message) :
    Attempt.Maintains P (readStatus context m : Step ω Unit) := by
  refine (Attempt.maintains_lift _).bind fun ⟨status, m₁⟩ => ?_
  dsimp only
  split
  · exact Attempt.maintains_pure _
  · exact (Attempt.maintains_lift _).bind fun _ => Attempt.maintains_throw _
  · exact Attempt.maintains_throw _

/-! ### Downloads -/

namespace DownloadStream

open Attempt

variable {υ : Type} {start : Fetch υ} {id : SubscriberId} {act : Completion υ} {app : υ} {w : World υ}

/-- A download is in progress: its completion is still to be called, and its stream is occupied. -/
structure InProgress (start : Fetch υ) (id : SubscriberId) (act : Completion υ) (app : υ) (w : World υ) : Prop where
  completion : (current start id w).completion = some act
  endpoint : (current start id w).endpoint = start.endpoint
  state : (w.progressOf start.endpoint.stream).state.isActive = true
  app : w.app = app

section Maintains

theorem maintains_keep {f : Fetch υ} (hact : f.completion = some act) (hendpoint : f.endpoint = start.endpoint) :
    Maintains (InProgress start id act app) (keep id f) := by
  intro w h
  have hcurrent : current start id ((keep id f).on w).2 = f := Std.TreeMap.getD_insert_self
  refine ⟨?_, ?_, h.state, h.app⟩
  · rw [hcurrent, hact]
  · rw [hcurrent, hendpoint]

theorem maintains_onFiles {α : Type} (op : Attempt IoError Files.Store α) :
    Maintains (InProgress start id act app) (onFiles op) :=
  fun _ h => ⟨h.completion, h.endpoint, h.state, h.app⟩

theorem maintains_makeFile (path : String) : Maintains (InProgress start id act app) (makeFile path) :=
  (maintains_onFiles _).bind fun _ => maintains_onFiles _

theorem maintains_setProgress {stream : Nat} {p : World υ → Progress} (hstream : stream = start.endpoint.stream)
    (hp : ∀ w, InProgress start id act app w → (p w).state.isActive = true) :
    Maintains (InProgress start id act app) (modify fun w => w.setProgress stream (p w) : Step (World υ) Unit) := by
  refine maintains_modify fun w h => ⟨h.completion, h.endpoint, ?_, h.app⟩
  rw [hstream, World.progressOf, World.setProgress, Std.TreeMap.getD_insert_self]
  exact hp w h

theorem maintains_begin (m : Message) : Maintains (InProgress start id act app) (begin start id m) := by
  refine maintains_get_bind fun w h => maintains_get_bind fun w' _ => ?_
  split
  · exact maintains_of_fails fun w => Fails.bind (fails_throw _ w) _
  · refine (maintains_lift _).bind fun ⟨_, m₁⟩ => (maintains_lift _).bind fun ⟨size, m₂⟩ =>
      (maintains_lift _).bind fun _ => ?_
    split
    · exact maintains_of_fails fun w => Fails.bind (fails_throw _ w) _
    · refine (maintains_makeFile _).bind fun file => (maintains_keep ?_ ?_).bind fun _ => ?_
      · exact h.completion
      · exact h.endpoint
      · exact maintains_setProgress (congrArg Endpoint.stream h.endpoint) fun _ _ => rfl

theorem maintains_append (m : Message) : Maintains (InProgress start id act app) (append start id m) := by
  refine maintains_get_bind fun w h => ?_
  dsimp only
  split
  · exact maintains_throw _
  · refine (maintains_lift _).bind fun ⟨bytes, m₁⟩ => (maintains_onFiles _).bind fun writer =>
      (maintains_keep ?_ ?_).bind fun _ => ?_
    · exact h.completion
    · exact h.endpoint
    · refine maintains_setProgress (congrArg Endpoint.stream h.endpoint) fun w' h' => ?_
      rw [h.endpoint]
      exact h'.state

end Maintains

/-- What a message makes of a download in progress: it stays so, also when the message cannot be handled, or it is
done. -/
inductive Went (start : Fetch υ) (id : SubscriberId) (act : Completion υ) (app : υ) :
    Except StreamError Verdict × World υ → Prop where
  | stays {w : World υ} (h : InProgress start id act app w) : Went start id act app (.ok .stay, w)
  | fails {e : StreamError} {w : World υ} (h : InProgress start id act app w) : Went start id act app (.error e, w)
  | done {outcome : Outcome} {w : World υ} (happ : w.app = act (.ok outcome) app)
      (hstate : (w.progressOf start.endpoint.stream).state = .done) : Went start id act app (.ok .close, w)

theorem went_of_maintains {a : Step (World υ) Unit} (ha : Maintains (InProgress start id act app) a)
    (h : InProgress start id act app w) :
    Went start id act app ((do a; return .stay : Step (World υ) Verdict).on w) := by
  have h₁ := ha w h
  rcases hrun : a.on w with ⟨e | ⟨⟩, w₁⟩
  all_goals rw [hrun] at h₁
  · rw [on_bind_of_error hrun]
    exact .fails h₁
  · rw [on_bind_of_ok hrun]
    exact .stays h₁

theorem went_lift_bind {α : Type} {r : Except StreamError α} {f : α → Step (World υ) Verdict}
    (hf : ∀ x, Went start id act app ((f x).on w)) (h : InProgress start id act app w) :
    Went start id act app ((lift r >>= f).on w) := by
  rcases r with e | x
  · exact .fails h
  · rw [on_bind_of_ok (on_lift _ w)]
    exact hf x

/-- The end of the data completes the download, or it cannot be handled. -/
theorem finish_cases (h : InProgress start id act app w) :
    (∃ e w', (finish start id).on w = (.error e, w') ∧ InProgress start id act app w') ∨
    ∃ outcome w', (finish start id).on w = (.ok (), w') ∧ w'.app = act (.ok outcome) app ∧
      (w'.progressOf start.endpoint.stream).state = .done := by
  rw [finish, on_bind_of_ok (on_get w)]
  dsimp only
  rcases hwriter : (current start id w).writer with _ | writer
  · exact .inl ⟨_, w, rfl, h⟩
  · let f : Fetch υ := { current start id w with writer := none }
    let w₁ : World υ := { w with fetches := w.fetches.insert id f }
    have hkeep : (keep id f).on w = (.ok (), w₁) := rfl
    have h₁ : InProgress start id act app w₁ := maintains_keep (f := f) h.completion h.endpoint w h
    have h₂ := maintains_onFiles (writer.flush.mapError .system) w₁ h₁
    rcases hflush : (onFiles (writer.flush.mapError .system)).on w₁ with ⟨e | writer', w₂⟩
    all_goals
      rw [hflush] at h₂
      rw [on_bind_of_ok hkeep]
    · exact .inl ⟨e, w₂, on_bind_of_error hflush _, h₂⟩
    · rw [on_bind_of_ok hflush, on_bind_of_ok (on_get w₂)]
      split
      · exact .inl ⟨_, w₂, rfl, h₂⟩
      · right
        rw [on_bind_of_ok (on_modify _ w₂), h.completion, h.endpoint]
        exact ⟨_, _, rfl, congrArg (act _) h₂.app, congrArg Progress.state Std.TreeMap.getD_insert_self⟩

/-- What a message does. -/
theorem went_step (h : InProgress start id act app w) (m : Message) :
    Went start id act app ((step start id m).on w) := by
  refine went_lift_bind (fun ⟨opcode, m₁⟩ => ?_) h
  dsimp only
  rcases TransferOp.ofCode? opcode with _ | op
  · exact .fails h
  · cases op with
    | status => exact went_of_maintains (Transfer.maintains_readStatus _ _) h
    | metadata =>
      refine went_lift_bind (fun ⟨_, m₂⟩ => went_lift_bind (fun ⟨checksum, _⟩ => ?_) h) h
      dsimp only
      rw [on_bind_of_ok (on_get w)]
      exact went_of_maintains (maintains_keep h.completion h.endpoint) h
    | transfer => exact went_of_maintains (maintains_begin _) h
    | data => exact went_of_maintains (maintains_append _) h
    | protocolError => exact went_lift_bind (fun _ => .fails h) h
    | ended =>
      rcases finish_cases h with ⟨e, w', hfinish, h'⟩ | ⟨outcome, w', hfinish, happ, hstate⟩
      · exact on_bind_of_error hfinish (fun _ => pure Verdict.close) ▸ .fails h'
      · exact on_bind_of_ok hfinish (fun _ => pure Verdict.close) ▸ .done happ hstate
    | opening => exact .fails h

/-- A download that is given up tells the application, and its state is failed. -/
theorem InProgress.given_up (h : InProgress start id act app w) (e : StreamError) :
    (release start id (abandon start id e w)).app = act (.error e) app ∧
      ((release start id (abandon start id e w)).progressOf start.endpoint.stream).state = .failed := by
  have hprogress : (release start id (abandon start id e w)).progress = (abandon start id e w).progress := rfl
  rw [World.progressOf, hprogress]
  simp only [release, abandon, h.completion, h.endpoint]
  exact ⟨congrArg (act _) h.app, congrArg Progress.state Std.TreeMap.getD_insert_self⟩

/-- A frame leaves the download in progress or settles it. -/
theorem InProgress.dispatch {s : Session υ} {m : Message} (h : InProgress start id act s.world.app s.world)
    (hears : s.Hears start.endpoint.node start.endpoint.name id (handler start))
    (haddr : m.AddressedTo start.endpoint.node start.endpoint.name id) (depth : Nat) :
    let s' := (Registry.dispatch (depth + 1) m s).2
    (s'.Hears start.endpoint.node start.endpoint.name id (handler start) ∧
      InProgress start id act s.world.app s'.world) ∨
    ∃ result, start.endpoint.Settled id act result s s' := by
  intro s'
  have went := went_step h m
  rcases hstep : (step start id m).on s.world with ⟨e | verdict, w⟩
  all_goals
    rw [hstep] at went
    cases went
  case fails h' =>
    obtain ⟨live, hdispatch, hlive⟩ := hears.dispatch_fail haddr rfl depth hstep rfl
    obtain ⟨happ, hstate⟩ := h'.given_up e
    refine .inr ⟨.error e, ?_, ?_, ?_⟩
    all_goals rw [show s' = _ from congrArg Prod.snd hdispatch]
    · exact happ
    · exact hstate
    · exact s.contains_delivered _ hlive
  case stays h' =>
    obtain ⟨live, hdispatch, hears'⟩ := hears.dispatch_stay haddr rfl depth hstep
    rw [show s' = _ from congrArg Prod.snd hdispatch]
    exact .inl ⟨hears', h'⟩
  case done outcome happ hstate =>
    obtain ⟨live, hdispatch, hlive⟩ := hears.dispatch_close haddr rfl depth hstep
    refine .inr ⟨.ok outcome, ?_, ?_, ?_⟩
    all_goals rw [show s' = _ from congrArg Prod.snd hdispatch]
    · exact happ
    · exact hstate
    · exact s.contains_delivered _ hlive

end DownloadStream

/-! ### Uploads -/

namespace UploadStream

variable {υ : Type} {start o : Offer υ} {p : Progress} {id : SubscriberId} {act : Completion υ} {s : Session υ}
  {m : Message}

/-- A message leaves the upload in progress or settles it. -/
theorem Stands.dispatch (h : Stands start id o p s) (hact : o.completion = some act)
    (hactive : p.state.isActive = true) (hm : m.id = id) (depth : Nat) :
    let s' := (Registry.dispatch depth m s).2
    (∃ o' p', Stands start id o' p' s' ∧ o'.completion = some act ∧ p'.state.isActive = true ∧
      s'.world.app = s.world.app) ∨
    ∃ result, start.file.endpoint.Settled id act result s s' := by
  intro s'
  cases h.meets hact hm depth with
  | misses hsame =>
    rw [show s' = s from hsame]
    exact .inl ⟨o, p, h, hact, hactive, rfl⟩
  | starts _ stands _ happ => exact .inl ⟨_, _, stands, hact, rfl, happ⟩
  | repeats _ stands hworld => exact .inl ⟨o, p, stands, hact, hactive, congrArg World.app hworld⟩
  | completes _ ends => exact .inr ⟨.ok _, ends.app, congrArg Progress.state ends.progress, ends.contains⟩
  | fails ends => exact .inr ⟨.error _, ends.app, congrArg Progress.state ends.progress, ends.contains⟩

end UploadStream

/-! ### Transfer streams -/

/-- A transfer stream: files are downloaded on it, or uploaded. -/
inductive TransferStream where
  | down (stream : DownloadStream)
  | up (stream : UploadStream)

namespace TransferStream

variable {υ : Type}

def endpoint : TransferStream → Endpoint
  | .down d => d.toEndpoint
  | .up u => u.toEndpoint

/-- Starts a transfer, unless one is in progress, and tells whether it has.  A checksum goes with downloads only. -/
def begin (name : String) (checksum : Option String) (act : Completion υ) : TransferStream → Step (Session υ) Bool
  | .down d => d.download name checksum act
  | .up u => u.upload name act

/-- The handler is that of a transfer on the stream. -/
def Handles : TransferStream → Handler (World υ) (Program (World υ)) → Prop
  | .down d, h => ∃ start : Fetch υ, start.endpoint = d.toEndpoint ∧ h = DownloadStream.handler start
  | .up u, h => ∃ start : Offer υ, start.file.endpoint = u.toEndpoint ∧ h = UploadStream.handler start

/-- The subscriber registered under the number is that of a transfer on the stream. -/
def Owns (t : TransferStream) (s : Session υ) (id : SubscriberId) : Prop :=
  ∃ request h, s.live[id]? = some (.stream request h) ∧ t.Handles h

/-- The transfer is in progress: its subscriber listens, its stream is occupied and its completion is still to be
called. -/
inductive Underway (id : SubscriberId) (act : Completion υ) (s : Session υ) : TransferStream → Prop where
  | down {d : DownloadStream} {start : Fetch υ} (hd : start.endpoint = d.toEndpoint)
      (hears : s.Hears start.endpoint.node start.endpoint.name id (DownloadStream.handler start))
      (inProgress : DownloadStream.InProgress start id act s.world.app s.world) : Underway id act s (.down d)
  | up {u : UploadStream} {start o : Offer υ} {p : Progress} (hu : start.file.endpoint = u.toEndpoint)
      (stands : UploadStream.Stands start id o p s) (hact : o.completion = some act)
      (hactive : p.state.isActive = true) : Underway id act s (.up u)

section Underway

variable {t : TransferStream} {id other : SubscriberId} {act : Completion υ} {s s' : Session υ} {m : Message}

/-- Whoever owns a number depends on who listens under it. -/
theorem Owns.congr (h : t.Owns s id) (hlive : s'.live[id]? = s.live[id]?) : t.Owns s' id := by
  obtain ⟨request, handler, hid, hhandles⟩ := h
  exact ⟨request, handler, hlive.trans hid, hhandles⟩

theorem Underway.hears (h : t.Underway id act s) :
    ∃ handler, t.Handles handler ∧ s.Hears t.endpoint.node t.endpoint.name id handler := by
  cases h with
  | down hd hears =>
    rw [endpoint, ← hd]
    exact ⟨_, ⟨_, hd, rfl⟩, hears⟩
  | up hu stands =>
    rw [endpoint, ← hu]
    exact ⟨_, ⟨_, hu, rfl⟩, stands.hears⟩

theorem Underway.owns (h : t.Underway id act s) : t.Owns s id := by
  obtain ⟨handler, hhandles, request, -, -, hlive⟩ := h.hears
  exact ⟨request, handler, hlive, hhandles⟩

theorem Owns.contains (h : t.Owns s id) : s.contains id = true := by
  obtain ⟨request, handler, hlive, -⟩ := h
  exact Registry.contains_of_hears ⟨request, rfl, rfl, hlive⟩

theorem Underway.isBusy (h : t.Underway id act s) : t.endpoint.isBusy s = true := by
  cases h with
  | down hd _ inProgress =>
    rw [endpoint, ← hd]
    exact inProgress.state
  | up hu stands _ hactive =>
    exact (Endpoint.isBusy_of_progress (stands.progress_eq hu)).trans hactive

theorem Handles.onError {h : Handler (World υ) (Program (World υ))} (hh : t.Handles h) (self : SubscriberId)
    (e : StreamError) : ∃ f, h.onError self e = .edit f .done := by
  cases t with
  | down d =>
    obtain ⟨start, -, rfl⟩ := hh
    exact ⟨_, rfl⟩
  | up u =>
    obtain ⟨start, -, rfl⟩ := hh
    exact ⟨_, rfl⟩

theorem Handles.onFrame {h : Handler (World υ) (Program (World υ))} (hh : t.Handles h) (self : SubscriberId)
    (m : Message) : ∃ step, h.onFrame self m = .react self step := by
  cases t with
  | down d =>
    obtain ⟨start, -, rfl⟩ := hh
    exact ⟨_, rfl⟩
  | up u =>
    obtain ⟨start, -, rfl⟩ := hh
    exact ⟨_, rfl⟩

/-- A frame for a transfer in progress, whatever it says, leaves it in progress and the application alone, or settles
it.  Nobody else comes or goes. -/
theorem Underway.dispatch (h : t.Underway id act s) (hm : m.id = id) (depth : Nat) :
    let s' := (Registry.dispatch depth m s).2
    ((t.Underway id act s' ∧ s'.world.app = s.world.app) ∨ ∃ result, t.endpoint.Settled id act result s s') ∧
    ∀ other, other ≠ id → s'.live[other]? = s.live[other]? := by
  intro s'
  obtain ⟨handler, hhandles, hears⟩ := h.hears
  by_cases haddr : m.AddressedTo t.endpoint.node t.endpoint.name id
  · cases depth with
    | zero => exact ⟨.inl ⟨h, rfl⟩, fun _ _ => rfl⟩
    | succ depth =>
      refine ⟨?_, fun other hother => ?_⟩
      · cases h with
        | down hd listens inProgress =>
          rw [endpoint, ← hd] at haddr ⊢
          rcases inProgress.dispatch listens haddr depth with ⟨hears', inProgress'⟩ | hsettled
          · left
            have happ := inProgress'.app
            rw [← happ] at inProgress'
            exact ⟨.down hd hears' inProgress', happ⟩
          · exact .inr hsettled
        | up hu stands hact hactive =>
          rw [endpoint, ← hu]
          rcases stands.dispatch hact hactive hm (depth + 1) with ⟨o', p', stands', hact', hactive', happ⟩ | hsettled
          · exact .inl ⟨.up hu stands' hact' hactive', happ⟩
          · exact .inr hsettled
      · obtain ⟨step, hframe⟩ := hhandles.onFrame id m
        exact hears.getElem?_dispatch_of_ne haddr hframe depth (hhandles.onError id) hother
  · have hsame : s' = s := congrArg Prod.snd (hears.dispatch_of_not_addressedTo hm haddr depth)
    rw [hsame]
    exact ⟨.inl ⟨h, rfl⟩, fun _ _ => rfl⟩

end Underway

end TransferStream
end LevelLink
