import LevelLink.Proofs.Link.Wrapping
import LevelLink.Proofs.Stream.Scheduling
import LevelLink.Proofs.Transfer.Orphans
import LevelLink.Proofs.Transfer.Resolving

/-!
# Starting is all or nothing

Starting a transfer or a plugin writes tables and sends one request or two, and each of these may fail.  No check looks
at what the application wants done at the end, so what is not taken is not taken whatever that is, and leaves the same
session (`AllOrNothing.of_fails`): subscribers, transfers in progress and running plugins are as before
(`Session.Restored`).  Main statement: `starting_allOrNothing`.

A plugin is started by two requests, and the first is taken back when the second fails.  What is taken back leaves nobody
under its number, so whoever had this number before is lost (`PluginService.lost_of_rollback`).
-/

namespace LevelLink

variable {υ α ε : Type} {s s' : Session υ}

/-- The same subscribers are registered as before, the same transfers are in progress and the same plugins run, and all
that belongs to them, the files and the application are as they were.  What may differ is how many numbers are used up,
which frames are queued, and what a stream shows of a transfer that is over. -/
structure Session.Restored (s s' : Session υ) : Prop where
  live : s'.live.toList = s.live.toList
  out : s'.out = s.out
  outRemoved : s'.outRemoved = s.outRemoved
  inbox : s'.inbox = s.inbox
  busy : ∀ e : Endpoint, e.isBusy s' = e.isBusy s
  running : ∀ p : PluginService, (p.table s').toList = (p.table s).toList
  onCompleted : ∀ service, (s'.world.pluginsOf service).onCompleted = (s.world.pluginsOf service).onCompleted
  world : s'.world = { s.world with progress := s'.world.progress, plugins := s'.world.plugins }

/-- Starting an operation is all or nothing, whatever is to be done at its end (`act`).  If it is not taken, everything is
restored, and what comes of it would have come of it with anything else to be done at the end, so that this is never
done.  If it was not even tried, or failed before a number was used up, the session is the same. -/
structure AllOrNothing (start : α → Attempt ε (Session υ) Bool) (begun : α → Session υ → Prop) (s : Session υ) :
    Prop where
  all : ∀ act s', (start act).on s = (.ok true, s') → begun act s'
  nothing : ∀ act r s', (start act).on s = (r, s') → r ≠ .ok true →
    s.Restored s' ∧ (∀ act', (start act').on s = (r, s')) ∧ (r = .ok false ∨ s'.nextId = s.nextId → s' = s)

theorem Session.Restored.refl (s : Session υ) : s.Restored s :=
  ⟨rfl, rfl, rfl, rfl, fun _ => rfl, fun _ => rfl, fun _ => rfl, rfl⟩

namespace AllOrNothing

variable {start : α → Attempt ε (Session υ) Bool} {begun : α → Session υ → Prop}

theorem of_begins (h : ∀ act, ∃ s', (start act).on s = (.ok true, s') ∧ begun act s') : AllOrNothing start begun s := by
  constructor
  · intro act s' hstart
    obtain ⟨s₁, htaken, hbegun⟩ := h act
    obtain ⟨-, rfl⟩ := Prod.mk.inj (htaken.symm.trans hstart)
    exact hbegun
  · intro act r s' hstart hr
    obtain ⟨s₁, htaken, -⟩ := h act
    obtain ⟨rfl, -⟩ := Prod.mk.inj (htaken.symm.trans hstart)
    exact absurd rfl hr

theorem of_fails {e : ε} (h : ∀ act, (start act).on s = (.error e, s')) (restored : s.Restored s')
    (hnext : s'.nextId = s.nextId → s' = s) : AllOrNothing start begun s := by
  constructor
  · intro act s₁ hstart
    rw [h act] at hstart
    cases hstart
  · intro act r s₁ hstart _
    obtain ⟨rfl, rfl⟩ := Prod.mk.inj ((h act).symm.trans hstart)
    refine ⟨restored, h, ?_⟩
    rintro (hrefused | hsame)
    · cases hrefused
    · exact hnext hsame

theorem of_refused (h : ∀ act, (start act).on s = (.ok false, s)) : AllOrNothing start begun s := by
  constructor
  · intro act s₁ hstart
    rw [h act] at hstart
    cases hstart
  · intro act r s₁ hstart _
    obtain ⟨rfl, rfl⟩ := Prod.mk.inj ((h act).symm.trans hstart)
    exact ⟨.refl s, h, fun _ => rfl⟩

theorem congr {start' : α → Attempt ε (Session υ) Bool} (h : AllOrNothing start' begun s)
    (hsame : ∀ act, (start act).on s = (start' act).on s) : AllOrNothing start begun s := by
  constructor
  · intro act s' hstart
    exact h.all act s' ((hsame act).symm.trans hstart)
  · intro act r s' hstart hr
    obtain ⟨restored, hsilent, hnext⟩ := h.nothing act r s' ((hsame act).symm.trans hstart) hr
    exact ⟨restored, fun act' => (hsame act').trans (hsilent act'), hnext⟩

/-- What fails at once changes nothing. -/
theorem of_fails_at_once {e : ε} (h : ∀ act, (start act).on s = (.error e, s)) : AllOrNothing start begun s :=
  of_fails h (.refl s) fun _ => rfl

end AllOrNothing

/-! ### Transfers -/

section Transfers

variable {begun : Completion υ → Session υ → Prop}

/-- A transfer that fails before it is requested was not in progress, and is not. -/
theorem Endpoint.restored_of_failed {e : Endpoint} (hidle : e.isBusy s = false) (p : Progress) :
    s.Restored { s with
      nextId := Registry.successor s.nextId
      world := (s.world.setProgress e.stream p).setState e.stream .failed } := by
  refine ⟨rfl, rfl, rfl, rfl, fun other => ?_, fun _ => rfl, fun _ => rfl, rfl⟩
  rw [isBusy, isBusy, progress, progress]
  simp only [World.setState, World.setProgress, World.progressOf, Std.TreeMap.getD_eq_getD_getElem?,
    getElem?_insert_ite]
  split
  · next hstream =>
    rw [isBusy, progress, World.progressOf, Std.TreeMap.getD_eq_getD_getElem?, hstream] at hidle
    exact hidle.symm
  · rfl

/-- A request is taken if there is room for it, whatever its handler does at the end. -/
theorem Endpoint.allOrNothing_request {e : Endpoint} (hidle : e.isBusy s = false) {request : Message}
    {handler : Completion υ → Handler (World υ) (Program (World υ))} {p : Progress}
    (hbegun : ∀ act s', (e.request request (handler act) p).on s = (.ok true, s') → begun act s') :
    AllOrNothing (fun act => e.request request (handler act) p) begun s := by
  by_cases hroom : s.room = some 0
  · have hfails (act : Completion υ) := e.on_request_of_error
      (Registry.add_of_full (r := s.changed (·.setProgress e.stream p)) hroom (.stream request (handler act)))
    refine .of_fails hfails (restored_of_failed hidle p) fun hnext => ?_
    exact absurd hnext (Registry.successor_ne _)
  · refine .of_begins fun act => ?_
    have htaken := e.on_request_of_ok
      (Registry.add_of_room (r := s.changed (·.setProgress e.stream p)) hroom (.stream request (handler act)))
    exact ⟨_, htaken, hbegun act _ htaken⟩

theorem TransferStream.underway_of_begin (t : TransferStream) (name : String) (checksum : Option String)
    {act : Completion υ} (h : (t.begin name checksum act).on s = (.ok true, s')) :
    ∃ id, t.endpoint.latest? s' = some id ∧ t.Underway id act s' := by
  have began := t.began name checksum act s
  rw [h] at began
  cases began with
  | taken _ hid underway => exact ⟨_, hid, underway⟩

theorem DownloadStream.allOrNothing_download (d : DownloadStream) (name : String) (checksum : Option String)
    (hbegun : ∀ act s', (d.download name checksum act).on s = (.ok true, s') → begun act s') :
    AllOrNothing (fun act => d.download name checksum act) begun s := by
  by_cases hbusy : d.isBusy s = true
  · exact .of_refused (TransferStream.begin_of_isBusy (t := .down d) hbusy name checksum)
  · have hidle : d.isBusy s = false := Bool.eq_false_iff.mpr hbusy
    rcases hresolve : Transfer.resolve d.dir name with e | path
    · exact .of_fails_at_once (Transfer.download_of_resolve_error hidle hresolve checksum)
    · have hrequest (act : Completion υ) : (d.download name checksum act).on s = (d.request (d.opening name checksum)
          (handler { endpoint := d.toEndpoint, fileName := name, path, completion := some act })
          { state := .awaitingOpenAck, fileName := name }).on s := by
        rw [download, Attempt.on_bind_of_ok (Attempt.on_get s), if_neg hbusy, hresolve,
          Attempt.on_bind_of_ok (Attempt.on_lift _ s)]
      refine .congr (Endpoint.allOrNothing_request hidle ?_) hrequest
      exact fun act s' htaken => hbegun act s' ((hrequest act).trans htaken)

/-- An upload of a name that leads to a file is requested if its size can be told. -/
theorem UploadStream.on_upload {u : UploadStream} {name path : String} (hidle : u.isBusy s = false)
    (hsend : s.world.canSend = true) (hresolve : Transfer.resolve u.dir name = .ok path) (act : Completion υ) :
    (u.upload name act).on s = match measure name path s.world.files with
      | .error e => (.error e, s)
      | .ok size => (u.request (u.opening name size)
          (handler { file := ⟨u.toEndpoint, name, path, size, u.chunk⟩, completion := some act })
          { state := .awaitingOpenAck, fileName := name, total := size }).on s := by
  rw [upload, Attempt.on_bind_of_ok (Attempt.on_get s), if_neg (Bool.eq_false_iff.mp hidle),
    Attempt.on_bind_of_ok (Attempt.on_get s), hsend, hresolve]
  show ((Attempt.lift (.ok path) >>= _ : Step (Session υ) Bool)).on s = _
  rw [Attempt.on_bind_of_ok (Attempt.on_lift _ s), Attempt.on_bind_of_ok (Attempt.on_get s), Attempt.on_bind,
    Attempt.on_lift]
  cases measure name path s.world.files <;> rfl

theorem UploadStream.allOrNothing_upload (u : UploadStream) (name : String)
    (hbegun : ∀ act s', (u.upload name act).on s = (.ok true, s') → begun act s') :
    AllOrNothing (fun act => u.upload name act) begun s := by
  by_cases hbusy : u.isBusy s = true
  · exact .of_refused (TransferStream.begin_of_isBusy (t := .up u) hbusy name none)
  · have hidle : u.isBusy s = false := Bool.eq_false_iff.mpr hbusy
    by_cases hsend : s.world.canSend = true
    · rcases hresolve : Transfer.resolve u.dir name with e | path
      · exact .of_fails_at_once (Transfer.upload_of_resolve_error hidle hsend hresolve)
      · have hupload := on_upload hidle hsend hresolve
        rcases hmeasure : measure name path s.world.files with e | size
        · rw [hmeasure] at hupload
          exact .of_fails_at_once hupload
        · rw [hmeasure] at hupload
          refine .congr (Endpoint.allOrNothing_request hidle ?_) hupload
          exact fun act s' htaken => hbegun act s' ((hupload act).trans htaken)
    · refine .of_fails_at_once (e := .io (.custom .other "upload requires a tokio runtime")) fun act => ?_
      rw [upload, Attempt.on_bind_of_ok (Attempt.on_get s), if_neg hbusy, Attempt.on_bind_of_ok (Attempt.on_get s)]
      simp [hsend]

end Transfers

/-! ### Plugins -/

/-- The number after the next is another one, too. -/
theorem Registry.successor_successor_ne (id : SubscriberId) : successor (successor id) ≠ id := by
  by_cases hmax : id = Int32.maxValue
  · subst hmax
    decide
  · have hnext : successor id = id + 1 := if_neg hmax
    rw [hnext]
    by_cases hlast : id + 1 = Int32.maxValue
    · obtain rfl : id = Int32.maxValue - 1 := by
        rw [← hlast, Int32.add_sub_cancel]
      decide
    · rw [successor, if_neg hlast, Int32.add_assoc]
      exact fun heq => absurd (Int32.add_eq_left.mp heq) (by decide)

/-- Editing the plugins of a service leaves those of the others. -/
theorem World.pluginsOf_editPlugins_ite (w : World υ) (service : Nat) (edit : PluginTable υ → PluginTable υ)
    (other : Nat) : (w.editPlugins service edit).pluginsOf other =
      if service = other then edit (w.pluginsOf service) else w.pluginsOf other := by
  rw [pluginsOf, editPlugins, Std.TreeMap.getD_eq_getD_getElem?, getElem?_insert_ite]
  split
  · rfl
  · rw [pluginsOf, Std.TreeMap.getD_eq_getD_getElem?]

namespace PluginService

variable {p : PluginService} {name : String} {id k : SubscriberId} {e : TransportError} {s₁ s₂ : Session υ}

/-- The table of a service after a plugin was added to it and forgotten again. -/
theorem pluginsOf_forget_add (w : World υ) (service : Nat) :
    (p.forget name (w.editPlugins p.number (·.add name id))).pluginsOf service =
      if p.number = service then ((w.pluginsOf p.number).add name id).forget name else w.pluginsOf service := by
  rw [forget, World.pluginsOf_editPlugins_ite, World.pluginsOf_editPlugins_ite, World.pluginsOf_editPlugins_ite,
    if_pos rfl]
  split <;> rfl

/-- Where nobody was registered under the next number, a stream that is taken back leaves nothing. -/
theorem restored_of_rollback (hspare : s.live[s.nextId]? = none) (hnew : p.isRunning name s = false)
    (hstream : s.add (.stream (streamRequest name) (p.handler name)) = (.ok id, s₁))
    (hask : (s₁.changed (·.editPlugins p.number (·.add name id))).add
      (.once (scheduleRequest name) fun _ reply => p.onScheduled name reply) = (.error e, s₂)) :
    s.Restored ((s₂.changed (p.forget name)).remove id).2 ∧
      ((s₂.changed (p.forget name)).remove id).2.nextId = Registry.successor (Registry.successor s.nextId) := by
  obtain ⟨rfl, hs₁⟩ := Registry.add_ok hstream
  have hs₂ := Registry.add_error hask
  have hlive : (s₂.changed (p.forget name)).live[s.nextId]? = some (p.stream name s.nextId) := by
    rw [hs₂, hs₁]
    exact Std.TreeMap.getElem?_insert_self
  rw [Registry.remove, hlive]
  subst hs₂ hs₁
  refine ⟨⟨?_, rfl, rfl, rfl, fun _ => rfl, fun q => ?_, fun service => ?_, rfl⟩, rfl⟩
  · refine toList_eq_of_getElem?_eq fun j => ?_
    show ((s.live.insert s.nextId _).erase s.nextId)[j]? = _
    rw [getElem?_erase_ite, getElem?_insert_ite]
    split
    · next hj => rw [← hj, hspare]
    · rfl
  · refine toList_eq_of_getElem?_eq fun other => ?_
    show ((p.forget name (s.world.editPlugins p.number _)).pluginsOf q.number).running[other]? = (q.table s)[other]?
    rw [pluginsOf_forget_add, table]
    split
    · next hservice =>
      show (((s.world.pluginsOf p.number).running.insert name s.nextId).erase name)[other]? = _
      rw [getElem?_erase_ite, getElem?_insert_ite, ← hservice]
      split
      · next hname => exact hname ▸ (isRunning_eq_false_iff.mp hnew).symm
      · rfl
    · rfl
  · show ((p.forget name (s.world.editPlugins p.number _)).pluginsOf service).onCompleted = _
    rw [pluginsOf_forget_add]
    split
    · next hservice =>
      rw [← hservice]
      rfl
    · rfl

/-- What is begun when both requests of a call are taken. -/
theorem begun_of_add (hstream : s.add (.stream (streamRequest name) (p.handler name)) = (.ok id, s₁))
    (hask : (s₁.changed (·.editPlugins p.number (·.add name id))).add
      (.once (scheduleRequest name) fun _ reply => p.onScheduled name reply) = (.ok k, s₂)) :
    (p.table s₂)[name]? = some id ∧ p.Follows name s₂ id ∧ p.Asks name s₂ k := by
  obtain ⟨htable, hlive⟩ := live_of_add hstream hask
  obtain ⟨rfl, hnext, -, -⟩ := Registry.added_of_add hstream
  obtain ⟨rfl, -, -, -⟩ := Registry.added_of_add hask
  rw [Registry.nextId_changed, hnext]
  refine ⟨?_, ?_, ?_⟩
  · rw [htable]
    exact Std.TreeMap.getElem?_insert_self
  · rw [Follows, hlive, if_neg (Registry.successor_ne _), if_pos rfl]
  · rw [Asks, hlive, if_pos rfl]

/-- One request of a call is taken and the other is not: there was room for one. -/
theorem room_of_rollback (hstream : s.add (.stream (streamRequest name) (p.handler name)) = (.ok id, s₁))
    (hask : (s₁.changed (·.editPlugins p.number (·.add name id))).add
      (.once (scheduleRequest name) fun _ reply => p.onScheduled name reply) = (.error e, s₂)) : s.room = some 1 := by
  obtain ⟨-, rfl⟩ := Registry.add_ok hstream
  have hfirst : s.room ≠ some 0 := by
    intro hroom
    rw [Registry.add_of_full hroom] at hstream
    cases hstream
  have hsecond : s.room.map (· - 1) = some 0 := by
    by_contra hroom
    rw [Registry.add_of_room hroom] at hask
    cases hask
  obtain ⟨left, hleft, hzero⟩ := Option.map_eq_some_iff.mp hsecond
  rw [hleft] at hfirst ⊢
  have hne : left ≠ 0 := fun heq => hfirst (congrArg some heq)
  exact congrArg some (by omega)

theorem allOrNothing_schedule (hspare : s.room = some 1 → s.live[s.nextId]? = none) (p : PluginService) (name : String) :
    AllOrNothing (fun _ : Unit => p.schedule name)
      (fun _ s' => ∃ id k, (p.table s')[name]? = some id ∧ p.Follows name s' id ∧ p.Asks name s' k) s := by
  rcases hrunning : p.isRunning name s with _ | _
  · have hschedule := on_schedule hrunning
    rcases hstream : s.add (.stream (streamRequest name) (p.handler name)) with ⟨e | id, s₁⟩
    · obtain rfl := Registry.add_error hstream
      rw [hstream] at hschedule
      refine .of_fails (fun _ => hschedule) ⟨rfl, rfl, rfl, rfl, fun _ => rfl, fun _ => rfl, fun _ => rfl, rfl⟩ ?_
      exact fun hnext => absurd hnext (Registry.successor_ne _)
    · rw [hstream] at hschedule
      rcases hask : (s₁.changed (·.editPlugins p.number (·.add name id))).add
        (.once (scheduleRequest name) fun _ reply => p.onScheduled name reply) with ⟨e | k, s₂⟩
      · obtain ⟨restored, hnext⟩ := restored_of_rollback (hspare (room_of_rollback hstream hask)) hrunning hstream hask
        simp only [hask] at hschedule
        refine .of_fails (fun _ => hschedule) restored fun hsame => ?_
        exact absurd (hnext.symm.trans hsame) (Registry.successor_successor_ne _)
      · simp only [hask] at hschedule
        exact .of_begins fun _ => ⟨s₂, hschedule, id, k, begun_of_add hstream hask⟩
  · refine .of_refused fun _ => ?_
    rw [schedule, Attempt.on_bind_of_ok (Attempt.on_get s), if_pos hrunning, Attempt.on_pure]

/-- If there is room for one request, the stream takes the next number and is taken back, and with it goes whoever had the
number before. -/
theorem lost_of_rollback (hnew : p.isRunning name s = false) (hroom : s.room = some 1) :
    ∃ s', (p.schedule name).on s = (.error Registry.writerStopped, s') ∧ s'.live[s.nextId]? = none := by
  have hfirst : s.room ≠ some 0 := by
    rw [hroom]
    decide
  have hstream := Registry.add_of_room hfirst (.stream (streamRequest name) (p.handler name))
  generalize hs₁ : (s.add (.stream (streamRequest name) (p.handler name))).2 = s₁
  have hfull : s₁.room = some 0 := by
    rw [← hs₁, hstream, hroom]
    rfl
  have hask := Registry.add_of_full (r := s₁.changed (·.editPlugins p.number (·.add name s.nextId))) hfull
    (.once (scheduleRequest name) fun _ reply => p.onScheduled name reply)
  rw [on_schedule hnew, ← Prod.eta (s.add _), hs₁, congrArg Prod.fst hstream]
  dsimp only
  rw [hask]
  exact ⟨_, rfl, (Registry.getElem?_remove ..).trans (if_pos rfl)⟩

end PluginService

/-- Starting a download, an upload or a plugin is all or nothing, in whatever session, and wherever the room for frames
ends.  After `true` the transfer is underway with the completion that was given, or the plugin has its stream and is asked
for.  After anything else it is as `AllOrNothing.nothing` says.  But a stream that is taken back leaves its number to nobody,
also if it was somebody's before (`PluginService.lost_of_rollback`); so if there is room for the first of the two requests of a
plugin only, the next number has to be free. -/
theorem starting_allOrNothing (s : Session υ) :
    (∀ (d : DownloadStream) (name : String) (checksum : Option String),
      AllOrNothing (fun act => d.download name checksum act)
        (fun act s' => ∃ id, d.latest? s' = some id ∧ (TransferStream.down d).Underway id act s') s) ∧
    (∀ (u : UploadStream) (name : String),
      AllOrNothing (fun act => u.upload name act)
        (fun act s' => ∃ id, u.latest? s' = some id ∧ (TransferStream.up u).Underway id act s') s) ∧
    ((s.room = some 1 → s.live[s.nextId]? = none) → ∀ (p : PluginService) (name : String),
      AllOrNothing (fun _ : Unit => p.schedule name)
        (fun _ s' => ∃ id k, (p.table s')[name]? = some id ∧ p.Follows name s' id ∧ p.Asks name s' k) s) := by
  refine ⟨fun d name checksum => ?_, fun u name => ?_, fun hspare p name => ?_⟩
  · exact d.allOrNothing_download name checksum fun _ _ htaken =>
      (TransferStream.down d).underway_of_begin name checksum htaken
  · exact u.allOrNothing_upload name fun _ _ htaken => (TransferStream.up u).underway_of_begin name none htaken
  · exact p.allOrNothing_schedule hspare name

/-- A session in which one more frame is taken. -/
def sampleStopping : Session Unit := { world := { app := () }, room := some 1 }

/-- The stream of the plugin is requested, and the plugin is not asked for. -/
theorem starting_sampleStopping :
    ∃ s', ((⟨0⟩ : PluginService).schedule "bot").on sampleStopping = (.error Registry.writerStopped, s') ∧
      s'.outbox.size = 1 ∧ sampleStopping.Restored s' := by
  have hnothing := ((starting_allOrNothing sampleStopping).2.2 (fun _ => rfl) ⟨0⟩ "bot").nothing ()
  refine ⟨_, rfl, rfl, (hnothing _ _ rfl ?_).1⟩
  intro h
  cases h

/-- A session in which a request waits for its reply. -/
def sampleWaitingFor : Session Unit :=
  (Registry.add (Session.start ()) (.once (.start "A" "X") fun _ _ => .done)).2

theorem early_sampleWaitingFor : Registry.Early sampleWaitingFor :=
  (Registry.early_of_empty (by decide) rfl : Registry.Early (Session.start ())).add (by decide) _

/-- When all other numbers have been given since, and one more frame is taken, a call for a plugin fails and takes the
request away. -/
theorem lost_of_usedUp {waiting : Session Unit}
    (used : Registry.UsedUp Registry.numberLimit sampleWaitingFor waiting) :
    let before : Session Unit := { waiting with room := some 1 }
    ∃ s', ((⟨0⟩ : PluginService).schedule "bot").on before = (.error Registry.writerStopped, s') ∧
      before.live[(1 : SubscriberId)]?.isSome ∧ s'.live[(1 : SubscriberId)]? = none ∧ ¬ before.Restored s' := by
  intro before
  have hnext : before.nextId = 1 := used.nextId_eq (by decide) (by decide)
  have hlive : before.live[(1 : SubscriberId)]?.isSome := by
    rw [show before.live[(1 : SubscriberId)]? = _ from used.live 1]
    rfl
  have hnew : (⟨0⟩ : PluginService).isRunning "bot" before = false := by
    rw [PluginService.isRunning, show before.world = sampleWaitingFor.world from used.world]
    rfl
  obtain ⟨s', hfails, hlost⟩ := PluginService.lost_of_rollback hnew rfl
  rw [hnext] at hlost
  refine ⟨s', hfails, hlive, hlost, fun restored => ?_⟩
  rw [← getElem?_eq_of_toList_eq restored.live, hlost] at hlive
  cases hlive

/-- All other numbers have been given since the request was added, and one more frame is taken. -/
def sampleReturning : Session Unit := { sampleWaitingFor.spent Registry.numberLimit with room := some 1 }

theorem starting_sampleReturning :
    ∃ s', ((⟨0⟩ : PluginService).schedule "bot").on sampleReturning = (.error Registry.writerStopped, s') ∧
      sampleReturning.live[(1 : SubscriberId)]?.isSome ∧ s'.live[(1 : SubscriberId)]? = none ∧
      ¬ sampleReturning.Restored s' :=
  lost_of_usedUp (Registry.usedUp_spent rfl (early_sampleWaitingFor.freeFor (by decide)))

end LevelLink
