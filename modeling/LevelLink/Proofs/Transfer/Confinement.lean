import LevelLink.Proofs.Transfer.Settling

/-!
# What transfers write

The handlers of transfers change the files, the progress, what is kept for transfers, the senders and the application,
and nothing else.  So a property that does not look at these survives every frame that reaches a transfer
(`TransferStream.Handles.dispatch`), every step of a sender (`SendJob.apart_advance`), and the removal of a transfer
(`TransferStream.Handles.release`).
-/

namespace LevelLink

variable {υ : Type}

/-- A property of worlds that does not look at what transfers write. -/
structure World.Apart (P : World υ → Prop) : Prop where
  files {w : World υ} (files : Files.Store) : P w → P { w with files }
  progress {w : World υ} (progress : Std.TreeMap Nat Progress) : P w → P { w with progress }
  fetches {w : World υ} (fetches : Std.TreeMap SubscriberId (Fetch υ)) : P w → P { w with fetches }
  offers {w : World υ} (offers : Std.TreeMap SubscriberId (Offer υ)) : P w → P { w with offers }
  jobs {w : World υ} (jobs : List SendJob) : P w → P { w with jobs }
  app {w : World υ} (app : υ) : P w → P { w with app }

/-- Which subscriber a transfer stream has had last is none of it. -/
theorem World.apart_latest (latest : Std.TreeMap Nat SubscriberId) :
    World.Apart fun w : World υ => w.latest = latest :=
  ⟨fun _ => id, fun _ => id, fun _ => id, fun _ => id, fun _ => id, fun _ => id⟩

open Attempt

variable {P : World υ → Prop} {w : World υ} {self : SubscriberId}

/-! ### Downloads -/

namespace DownloadStream

variable (hP : World.Apart P) (start : Fetch υ) (m : Message)
include hP

theorem apart_keep (f : Fetch υ) : Maintains P (keep self f) := maintains_modify fun _ => hP.fetches _

theorem apart_onFiles {α : Type} (op : Attempt IoError Files.Store α) : Maintains P (onFiles op : Step (World υ) α) :=
  fun _ => hP.files _

theorem apart_begin : Maintains P (begin start self m) := by
  refine maintains_get_bind fun w _ => maintains_get_bind fun w' _ => ?_
  split
  · exact maintains_of_fails fun w => Fails.bind (fails_throw _ w) _
  · refine (maintains_lift _).bind fun ⟨_, m₁⟩ => (maintains_lift _).bind fun ⟨size, m₂⟩ =>
      (maintains_lift _).bind fun _ => ?_
    split
    · exact maintains_of_fails fun w => Fails.bind (fails_throw _ w) _
    · exact ((apart_onFiles hP _).bind fun _ => apart_onFiles hP _).bind fun file =>
        (apart_keep hP _).bind fun _ => maintains_modify fun _ => hP.progress _

theorem apart_append : Maintains P (append start self m) := by
  refine maintains_get_bind fun w _ => ?_
  dsimp only
  split
  · exact maintains_throw _
  · exact (maintains_lift _).bind fun ⟨bytes, m₁⟩ => (apart_onFiles hP _).bind fun writer =>
      (apart_keep hP _).bind fun _ => maintains_modify fun _ => hP.progress _

theorem apart_finish : Maintains P (finish start self) := by
  refine maintains_get_bind fun w _ => ?_
  dsimp only
  split
  · exact maintains_of_fails fun w => Fails.bind (fails_throw _ w) _
  · refine (apart_keep hP _).bind fun _ => (apart_onFiles hP _).bind fun _ => maintains_get_bind fun w' _ => ?_
    split
    · exact maintains_of_fails fun w => Fails.bind (fails_throw _ w) _
    · refine (maintains_modify fun _ => hP.progress _).bind fun _ => ?_
      split
      · exact (maintains_modify fun _ => hP.app _).bind fun _ => apart_keep hP _
      · exact apart_keep hP _

theorem apart_step : Maintains P (step start self m) := by
  refine (maintains_lift _).bind fun ⟨opcode, m₁⟩ => ?_
  dsimp only
  rcases TransferOp.ofCode? opcode with _ | op
  · exact maintains_throw _
  · cases op with
    | status => exact (Transfer.maintains_readStatus _ _).bind fun _ => maintains_pure _
    | metadata =>
      exact (maintains_lift _).bind fun _ => (maintains_lift _).bind fun _ => maintains_get_bind fun w _ =>
        (apart_keep hP _).bind fun _ => maintains_pure _
    | transfer => exact (apart_begin hP start _).bind fun _ => maintains_pure _
    | data => exact (apart_append hP start _).bind fun _ => maintains_pure _
    | protocolError => exact (maintains_lift _).bind fun _ => maintains_throw _
    | ended => exact (apart_finish hP start).bind fun _ => maintains_pure _
    | opening => exact maintains_throw _

theorem apart_abandon (e : StreamError) (h : P w) : P (abandon start self e w) := by
  -- Everything but the call of the completion, which may have been called already.
  have hgiven := hP.progress (w.progress.insert (current start self w).endpoint.stream
    { w.progressOf (current start self w).endpoint.stream with state := .failed })
    (hP.fetches (w.fetches.insert self { current start self w with writer := none, completion := none })
      (hP.files (if (current start self w).created then
        ((current start self w).close w.files).remove (current start self w).path
        else (current start self w).close w.files) h))
  unfold abandon
  dsimp only
  split
  · exact hP.app _ hgiven
  · exact hgiven

theorem apart_release (h : P w) : P (release start self w) := hP.fetches _ (hP.files _ h)

end DownloadStream

/-! ### Uploads -/

namespace UploadStream

variable (hP : World.Apart P) (start : Offer υ) (m : Message)
include hP

theorem apart_startSender (h : P w) : P (startSender start self w) := by
  unfold startSender
  dsimp only
  split
  · exact h
  · exact hP.jobs _ (hP.progress _ (hP.offers _ h))

theorem apart_complete : Maintains P (complete start self m) := by
  refine (maintains_lift _).bind fun ⟨status, m₁⟩ => ?_
  dsimp only
  split
  · exact maintains_of_fails fun w => fails_lift_bind fun _ _ => Fails.bind (fails_throw _ w) _
  · refine maintains_get_bind fun w _ => (maintains_modify fun _ => hP.progress _).bind fun _ => ?_
    split
    · exact (maintains_modify fun _ => hP.app _).bind fun _ => maintains_modify fun _ => hP.offers _
    · exact maintains_modify fun _ => hP.offers _

theorem apart_step : Maintains P (step start self m) := by
  refine (maintains_lift _).bind fun ⟨opcode, m₁⟩ => ?_
  dsimp only
  rcases TransferOp.ofCode? opcode with _ | op
  · dsimp only
    split
    · exact (apart_complete hP start _).bind fun _ => maintains_pure _
    · exact maintains_throw _
  · cases op with
    | status =>
      exact (Transfer.maintains_readStatus _ _).bind fun _ =>
        (maintains_modify fun _ => (apart_startSender hP start ·)).bind fun _ => maintains_pure _
    | protocolError => exact (maintains_lift _).bind fun _ => maintains_throw _
    | ended | metadata | transfer | data | opening => exact maintains_throw _

theorem apart_abandon (e : StreamError) (h : P w) : P (abandon start self e w) := by
  have hgiven := hP.progress (w.progress.insert (current start self w).file.endpoint.stream
    { w.progressOf (current start self w).file.endpoint.stream with state := .failed })
    (hP.offers (w.offers.insert self { current start self w with completion := none }) (hP.jobs (cancel self w).jobs h))
  unfold abandon
  dsimp only
  split
  · exact hP.app _ hgiven
  · exact hgiven

end UploadStream

/-! ### Transfer streams -/

/-- What a step maintains, and what is done at the end of its stream, is there after a frame. -/
theorem Registry.Hears.dispatch_maintains {ω : Type} {P : ω → Prop} {r : Registry ω} {node name : String}
    {h : Handler ω (Program ω)} {m : Message} {step : Step ω Verdict} (hears : r.Hears node name self h)
    (hid : m.id = self) (hframe : h.onFrame self m = .react self step) (hstep : Maintains P step)
    (herror : ∀ e, ∃ f, h.onError self e = .edit f .done ∧ ∀ w, P w → P (f w))
    (hrelease : ∀ w, P w → P (h.release self w)) (depth : Nat) (hr : P r.world) : P (dispatch depth m r).2.world := by
  by_cases haddr : m.AddressedTo node name self
  · cases depth with
    | zero => exact hr
    | succ depth =>
      have hw := hstep r.world hr
      rcases hrun : step.on r.world with ⟨e | _ | _, w⟩
      all_goals rw [hrun] at hw
      · obtain ⟨f, hf, hPf⟩ := herror e
        obtain ⟨live, hdispatch, -⟩ := hears.dispatch_fail haddr hframe depth hrun hf
        rw [hdispatch]
        exact hrelease _ (hPf _ hw)
      · obtain ⟨live, hdispatch, -⟩ := hears.dispatch_stay haddr hframe depth hrun
        rw [hdispatch]
        exact hw
      · obtain ⟨live, hdispatch, -⟩ := hears.dispatch_close haddr hframe depth hrun
        rw [hdispatch]
        exact hrelease _ hw
  · rw [hears.dispatch_of_not_addressedTo hid haddr]
    exact hr

namespace TransferStream

variable {t : TransferStream} {h : Handler (World υ) (Program (World υ))} {s : Session υ} {m : Message}
  (hP : World.Apart P)
include hP

theorem Handles.release (hh : t.Handles h) (hw : P w) : P (h.release self w) := by
  cases t with
  | down d =>
    obtain ⟨start, -, rfl⟩ := hh
    exact DownloadStream.apart_release hP start hw
  | up u =>
    obtain ⟨start, -, rfl⟩ := hh
    exact hP.offers _ hw

/-- A frame that reaches a transfer. -/
theorem Handles.dispatch (hh : t.Handles h) {node name : String} (hears : s.Hears node name self h) (hid : m.id = self)
    (depth : Nat) (hs : P s.world) : P (Registry.dispatch depth m s).2.world := by
  have hrelease : ∀ w, P w → P (h.release self w) := fun _ => hh.release hP
  cases t with
  | down d =>
    obtain ⟨start, -, rfl⟩ := hh
    exact hears.dispatch_maintains hid rfl (DownloadStream.apart_step hP start m)
      (fun e => ⟨_, rfl, fun _ => DownloadStream.apart_abandon hP start e⟩) hrelease depth hs
  | up u =>
    obtain ⟨start, -, rfl⟩ := hh
    exact hears.dispatch_maintains hid rfl (UploadStream.apart_step hP start m)
      (fun e => ⟨_, rfl, fun _ => UploadStream.apart_abandon hP start e⟩) hrelease depth hs

end TransferStream

/-! ### Senders -/

namespace SendJob

variable {s : Session υ} (hP : World.Apart P) (j : SendJob)
include hP

/-- A step of a sender. -/
theorem apart_advance (cancelled : Bool) (stage : Stage) (hs : P s.world) :
    P (j.advance cancelled stage s).2.world := by
  rcases hnext : j.advance cancelled stage s with ⟨stage', s'⟩
  cases advances hnext with
  | notes => exact hP.progress _ hs
  | opens | announces | goes | reads | sends | ends | stops | reports | rests => exact hs

end SendJob
end LevelLink
