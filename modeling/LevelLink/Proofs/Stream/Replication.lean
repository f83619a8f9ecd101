import Mathlib.Data.List.Forall2
import Mathlib.Logic.Function.Basic
import LevelLink.Proofs.Delta.RoundTrip
import LevelLink.Proofs.Level.Reading
import LevelLink.Proofs.Link.Delivery
import LevelLink.Stream.Objects

/-!
# Replication

An honest server announces objects, changes those it holds by a delta to the body it announced last, deletes
them, and may end the stream.  `Announced` is the table it keeps.  An object stream that takes its frames keeps
the same table (`Synced`), and tells the application of every frame what the server said.
-/

namespace LevelLink

/-- What a server says about the objects of a level. -/
inductive Announcement where
  | new (record : ObjectRecord) (custom : Bytes)
  | update (record : ObjectRecord) (custom : Bytes)
  | delete (id : Int32)
  | ended

/-- The body that a server has announced last, for every object that it holds. -/
abbrev Announced := Int32 → Option Bytes

namespace Announced

/-- A server that has not announced anything. -/
def start : Announced := fun _ => none

/-- The table after an announcement. -/
def after (t : Announced) : Announcement → Announced
  | .new r custom | .update r custom => Function.update t r.id (some (r.body custom))
  | .delete id => Function.update t id none
  | .ended => start

/-- The table after announcements. -/
def afterAll (t : Announced) (run : List Announcement) : Announced := run.foldl after t

/-- Whether a server with this table can announce this: what it changes it holds. -/
def Permits (t : Announced) : Announcement → Prop
  | .update r _ => (t r.id).isSome
  | _ => True

/-- The payload that announces this.  A change is the delta to the body that was announced last. -/
def payload (t : Announced) : Announcement → Bytes
  | .new r custom => (ObjectFrame.new r).payload custom
  | .update r custom => (ObjectFrame.update r.id (Delta.encode ((t r.id).getD []) (r.body custom))).payload []
  | .delete id => (ObjectFrame.delete id).payload []
  | .ended => ObjectFrame.ended.payload []

/-- The message to the stream `id` that announces this. -/
def message (t : Announced) (id : SubscriberId) (a : Announcement) : Message :=
  ((Message.start levelNode ObjectRecord.streamName).withId id).write (t.payload a)

/-- The frames to the stream `id` that make these announcements. -/
def frames (id : SubscriberId) : Announced → List Announcement → List Bytes
  | _, [] => []
  | t, a :: run => (t.message id a).frame :: frames id (t.after a) run

/-- An honest run from this table: it changes only what is held, the end is the last it says, and the size field
can say the length of every frame. -/
def Honest (id : SubscriberId) : Announced → List Announcement → Prop
  | _, [] => True
  | t, a :: run =>
    t.Permits a ∧ (a = .ended → run = []) ∧ (t.message id a).frame.length < Bytes.lengthLimit ∧
      Honest id (t.after a) run

end Announced

/-- The event tells the application what the server has said. -/
inductive Announcement.Tells : Announcement → ObjectEvent → Prop where
  | created {r custom rest} (h : rest.unread = custom) : Tells (.new r custom) (.created r rest)
  | updated {r custom rest} (h : rest.unread = custom) : Tells (.update r custom) (.updated r rest)
  | deleted (id) : Tells (.delete id) (.deleted id)
  | closed : Tells .ended .closed

namespace Announced

variable {t : Announced} {id : SubscriberId} {a : Announcement} {run front : List Announcement}

theorem Honest.of_prefix (h : Honest id t run) (hfront : front <+: run) : Honest id t front := by
  induction front generalizing t run with
  | nil => trivial
  | cons a front ih =>
    obtain ⟨back, rfl⟩ := hfront
    obtain ⟨hpermits, hlast, hlen, hrest⟩ := h
    refine ⟨hpermits, ?_, hlen, ih hrest (List.prefix_append front back)⟩
    intro hended
    exact (List.append_eq_nil_iff.mp (hlast hended)).1

/-- A run that has ended is at its start again. -/
theorem afterAll_of_ended_mem (h : Honest id t run) (hended : .ended ∈ run) : t.afterAll run = start := by
  induction run generalizing t with
  | nil => cases hended
  | cons a run ih =>
    obtain ⟨-, hlast, -, hrest⟩ := h
    rcases List.mem_cons.mp hended with rfl | hmem
    · rw [hlast rfl]
      rfl
    · exact ih hrest hmem

theorem addressedTo_message (t : Announced) (id : SubscriberId) (a : Announcement) :
    (t.message id a).prepare.AddressedTo levelNode ObjectRecord.streamName id := ⟨rfl, rfl, rfl⟩

/-- The payload is shorter than the frame. -/
theorem length_payload_lt (h : (t.message id a).frame.length < Bytes.lengthLimit) :
    (t.payload a).length < Bytes.lengthLimit := by
  have hlen : (t.message id a).frame.length = 8 + ((t.message id a).names.length + (t.payload a).length) := by
    rw [Message.frame, Message.length_bytes, Message.length, Message.body_prepare, Message.body,
      List.length_append]
    rfl
  omega

end Announced

/-! ### One frame -/

namespace Snapshots

open Announced

variable {t : Announced} {table : Snapshots} {id : SubscriberId} {a : Announcement}

theorem insert_agrees (agrees : ∀ object : Int32, table[object]? = t object) (key : Int32) (body : Bytes)
    (object : Int32) : (table.insert key body)[object]? = Function.update t key (some body) object := by
  rw [Std.TreeMap.getElem?_insert, Function.update_apply, agrees]
  by_cases h : object = key
  · rw [if_pos h, if_pos (h ▸ Std.ReflCmp.compare_self)]
  · rw [if_neg h, if_neg fun hcompare => h (Std.LawfulEqCmp.eq_of_compare hcompare).symm]

theorem erase_agrees (agrees : ∀ object : Int32, table[object]? = t object) (key object : Int32) :
    (table.erase key)[object]? = Function.update t key none object := by
  rw [Std.TreeMap.getElem?_erase, Function.update_apply, agrees]
  by_cases h : object = key
  · rw [if_pos h, if_pos (h ▸ Std.ReflCmp.compare_self)]
  · rw [if_neg h, if_neg fun hcompare => h (Std.LawfulEqCmp.eq_of_compare hcompare).symm]

/-- Takes a frame of which everything that is known has been read. -/
theorem step_of_reads {frame : ObjectFrame} {bs rest : Bytes} (hreads : Reader.Reads ObjectFrame.read bs frame)
    {m : Message} (hm : m.unread = bs ++ rest) (table : Snapshots) :
    table.step m = table.apply (m.past bs rest) frame := by
  rw [step, hreads.inStream hm]

/-- The delta of a change gives the new body. -/
theorem patched_encode {object : Int32} {old : Bytes} (hold : table[object]? = some old) (body : Bytes) :
    table.patched object (Delta.encode old body) = .ok body := by
  have hdecode : Delta.decode old (Delta.encode old body) = .ok body := by
    rw [Delta.decode, Delta.parse_encode]
    exact Delta.applyBlocks_blocks _ _
  rw [patched, hold]
  simp only [hdecode, Except.mapError]

/-- A table that agrees with the server's takes what the server announces and agrees again. -/
theorem step_announced (agrees : ∀ object : Int32, table[object]? = t object) (permits : t.Permits a)
    (hlen : (t.message id a).frame.length < Bytes.lengthLimit) :
    ∃ table' event, table.step (t.message id a).prepare = (table', .ok event) ∧ a.Tells event ∧
      ∀ object : Int32, table'[object]? = t.after a object := by
  have hunread : (t.message id a).prepare.unread = t.payload a := rfl
  cases a with
  | new r custom =>
    let bs := Bytes.ofInt32 ObjectOp.new.code ++ r.fieldBytes
    let rest := (t.message id (.new r custom)).prepare.past bs custom
    have hsplit : (t.message id (.new r custom)).prepare.unread = bs ++ custom := r.payload_eq custom
    have hbody : rest.body = r.body custom := by
      rw [r.body_eq custom id]
      exact Message.body_past hsplit
    refine ⟨table.insert r.id (r.body custom), .created r rest, ?_, .created rfl, insert_agrees agrees _ _⟩
    rw [step_of_reads (ObjectFrame.reads_new r) hsplit table, ← hbody]
    rfl
  | update r custom =>
    obtain ⟨old, hold⟩ := Option.isSome_iff_exists.mp permits
    let delta := Delta.encode ((t r.id).getD []) (r.body custom)
    have hpayload : t.payload (.update r custom) = (ObjectFrame.update r.id delta).payload [] := rfl
    have hdelta : delta.length < Bytes.lengthLimit := by
      have hp := length_payload_lt hlen
      rw [hpayload, ObjectFrame.payload, List.length_append, List.length_append, Bytes.length_block] at hp
      omega
    have hpatched : table.patched r.id delta = .ok (r.body custom) := by
      show table.patched r.id (Delta.encode ((t r.id).getD []) (r.body custom)) = _
      rw [hold]
      exact patched_encode ((agrees r.id).trans hold) _
    obtain ⟨rest, hreread, hcustom⟩ := reread_body r custom id
    refine ⟨table.insert r.id (r.body custom), .updated r rest, ?_, .updated hcustom, insert_agrees agrees _ _⟩
    rw [step_of_reads (ObjectFrame.reads_update r.id hdelta) (hunread.trans (by rw [hpayload, List.append_nil])),
      Snapshots.apply, hpatched]
    show (_, (reread id (r.body custom)).map _) = _
    rw [hreread]
    rfl
  | delete object =>
    refine ⟨table.erase object, .deleted object, ?_, .deleted object, erase_agrees agrees object⟩
    rw [step_of_reads (ObjectFrame.reads_delete object) (hunread.trans (List.append_nil _).symm)]
    rfl
  | ended =>
    refine ⟨∅, .closed, ?_, .closed, fun object => Std.TreeMap.getElem?_emptyc⟩
    rw [step_of_reads ObjectFrame.reads_ended (hunread.trans (List.append_nil _).symm)]
    rfl

end Snapshots

/-! ### The stream -/

namespace ObjectStream

open Announced

variable {υ : Type} {hook : ObjectEvent → υ → υ}

/-- Whether the stream goes on after an event. -/
def verdict : ObjectEvent → Verdict
  | .closed => .close
  | _ => .stay

/-- The world after a frame that has given a table and an event. -/
def told (hook : ObjectEvent → υ → υ) (self : SubscriberId) (table : Snapshots) (event : ObjectEvent)
    (w : World υ) : World υ :=
  { w with objects := w.objects.insert self table, app := hook event w.app }

/-- A frame that the table takes is told to the application. -/
theorem on_step {self : SubscriberId} {m : Message} {w : World υ} {table : Snapshots} {event : ObjectEvent}
    (h : (w.objectsOf self).step m = (table, .ok event)) :
    (step hook self m).on w = (.ok (verdict event), told hook self table event w) := by
  rw [step, Attempt.on_bind_of_ok (Attempt.on_get w)]
  simp only [h, Attempt.on_bind, Attempt.on_modify, Attempt.on_lift, World.tell]
  cases event <;> rfl

/-- The stream listens, and its table is the server's. -/
structure Synced (hook : ObjectEvent → υ → υ) (o : ObjectStream) (t : Announced) (s : Session υ) : Prop where
  hears : s.Hears levelNode ObjectRecord.streamName o.id (handler hook)
  agrees : ∀ object : Int32, (o.snapshots s)[object]? = t object

variable {o : ObjectStream} {t : Announced} {s s₁ : Session υ}

theorem snapshots_insert {objects : Std.TreeMap SubscriberId Snapshots} {table : Snapshots}
    (h : s.world.objects = objects.insert o.id table) : o.snapshots s = table := by
  rw [snapshots, World.objectsOf, h]
  exact Std.TreeMap.getD_insert_self

/-- A stream that was opened is in sync with a server that has announced nothing. -/
theorem synced_of_subscribe (h : (subscribe hook).on s = (.ok o, s₁)) : Synced hook o start s₁ := by
  obtain ⟨stream, s₂, hsubscribe, h⟩ := Attempt.parts_of_on_bind_ok h
  rw [Attempt.on_bind_of_ok (Attempt.on_modify _ _)] at h
  obtain ⟨ho, rfl⟩ := Prod.mk.inj h
  obtain rfl := Except.ok.inj ho
  refine ⟨(OpenStream.hears_of_subscribe hsubscribe).1, ?_⟩
  intro object
  rw [snapshots_insert rfl]
  exact Std.TreeMap.getElem?_emptyc

section Frame

variable {a : Announcement} (synced : Synced hook o t s) (permits : t.Permits a)
  (hlen : (t.message o.id a).frame.length < Bytes.lengthLimit) (depth : Nat)
include synced permits hlen

theorem Synced.on_step : ∃ table event, a.Tells event ∧
    (step hook o.id (t.message o.id a).prepare).on s.world =
      (.ok (verdict event), told hook o.id table event s.world) ∧
    ∀ object : Int32, table[object]? = t.after a object := by
  obtain ⟨table, event, hstep, tells, agrees⟩ := Snapshots.step_announced synced.agrees permits hlen
  exact ⟨table, event, tells, ObjectStream.on_step hstep, agrees⟩

omit synced permits in
theorem receive_message : s.receive (depth + 1) (t.message o.id a).frame =
    (Registry.dispatch (depth + 1) (t.message o.id a).prepare s).2 := by
  refine Registry.receive_of_ofFrame (Message.ofFrame_frame rfl ?_) _ _
  rw [Message.frame, Message.length_bytes, Message.length, Message.body_prepare] at hlen
  omega

/-- A frame that does not end the stream keeps it in sync. -/
theorem Synced.receive (hstay : a ≠ .ended) : ∃ event, a.Tells event ∧
    (s.receive (depth + 1) (t.message o.id a).frame).world.app = hook event s.world.app ∧
    Synced hook o (t.after a) (s.receive (depth + 1) (t.message o.id a).frame) := by
  obtain ⟨table, event, tells, hstep, agrees⟩ := synced.on_step permits hlen
  have hverdict : verdict event = .stay := by
    cases tells with
    | closed => exact absurd rfl hstay
    | _ => rfl
  rw [hverdict] at hstep
  obtain ⟨live, hdispatch, hears⟩ := synced.hears.dispatch_stay (t.addressedTo_message o.id a) rfl depth hstep
  rw [receive_message hlen, hdispatch]
  refine ⟨event, tells, rfl, hears, ?_⟩
  intro object
  rw [snapshots_insert rfl, agrees]

end Frame

/-- The frame that ends the stream empties the table and removes the subscriber. -/
theorem Synced.receive_ended (synced : Synced hook o t s)
    (hlen : (t.message o.id .ended).frame.length < Bytes.lengthLimit) (depth : Nat) :
    (s.receive (depth + 1) (t.message o.id .ended).frame).world.app = hook .closed s.world.app ∧
    (∀ object : Int32, (o.snapshots (s.receive (depth + 1) (t.message o.id .ended).frame))[object]? = none) ∧
    o.isOpen (s.receive (depth + 1) (t.message o.id .ended).frame) = false := by
  have permits : t.Permits .ended := trivial
  obtain ⟨table, event, tells, hstep, agrees⟩ := synced.on_step permits hlen
  cases tells
  obtain ⟨live, hdispatch, hlive⟩ :=
    synced.hears.dispatch_close (t.addressedTo_message o.id .ended) rfl depth hstep
  rw [receive_message hlen, hdispatch]
  refine ⟨rfl, ?_, ?_⟩
  · intro object
    rw [snapshots_insert rfl, agrees]
    rfl
  · exact s.contains_delivered _ hlive

/-- A stream that is in sync stays so over an honest run, and says everything once. -/
theorem Synced.receiveAll {run : List Announcement} (synced : Synced hook o t s) (honest : Honest o.id t run)
    (depth : Nat) :
    (∀ object : Int32,
      (o.snapshots (s.receiveAll (depth + 1) (frames o.id t run)))[object]? = t.afterAll run object) ∧
    (o.isOpen (s.receiveAll (depth + 1) (frames o.id t run)) = true ↔ .ended ∉ run) ∧
    ∃ events, List.Forall₂ Announcement.Tells run events ∧
      (s.receiveAll (depth + 1) (frames o.id t run)).world.app =
        events.foldl (fun app event => hook event app) s.world.app := by
  induction run generalizing s t with
  | nil =>
    exact ⟨synced.agrees, ⟨fun _ => List.not_mem_nil, fun _ => Registry.contains_of_hears synced.hears⟩,
      [], .nil, rfl⟩
  | cons a run ih =>
    obtain ⟨permits, hlast, hlen, hrest⟩ := honest
    rw [frames, Registry.receiveAll_cons]
    by_cases hended : a = .ended
    · -- the end is the last frame of an honest run
      subst hended
      obtain rfl := hlast rfl
      obtain ⟨happ, htable, hclosed⟩ := synced.receive_ended hlen depth
      rw [frames, Registry.receiveAll_nil]
      refine ⟨htable, ?_, [.closed], .cons .closed .nil, happ⟩
      rw [hclosed]
      simp
    · obtain ⟨event, tells, happ, synced'⟩ := synced.receive permits hlen depth hended
      obtain ⟨htable, hopen, events, hevents, hfold⟩ := ih synced' hrest
      refine ⟨htable, ?_, event :: events, .cons tells hevents, ?_⟩
      · rw [List.mem_cons, not_or]
        exact hopen.trans ⟨fun h => ⟨Ne.symm hended, h⟩, fun h => h.2⟩
      · rw [List.foldl_cons, ← happ]
        exact hfold

/-- A stream that takes the frames of an honest server has, after every frame, the server's table.  The
application has then been told of every frame once and of nothing else, and the stream is open until the server
ends it; after that the table is empty. -/
theorem replica_agrees (h : (subscribe hook).on s = (.ok o, s₁)) {run front : List Announcement}
    (honest : Honest o.id start run) (hfront : front <+: run) (depth : Nat) :
    let s' := s₁.receiveAll (depth + 1) (frames o.id start front)
    (∀ object : Int32, (o.snapshots s')[object]? = start.afterAll front object) ∧
    (o.isOpen s' = true ↔ .ended ∉ front) ∧
    (.ended ∈ front → o.size s' = 0) ∧
    ∃ events, List.Forall₂ Announcement.Tells front events ∧
      s'.world.app = events.foldl (fun app event => hook event app) s₁.world.app := by
  intro s'
  have hprefix := honest.of_prefix hfront
  obtain ⟨htable, hopen, hevents⟩ := (synced_of_subscribe h).receiveAll hprefix depth
  refine ⟨htable, hopen, ?_, hevents⟩
  intro hended
  have hempty : (o.snapshots s').isEmpty = true := by
    apply Std.TreeMap.isEmpty_iff_forall_not_mem.mpr
    intro object hmem
    rw [Std.TreeMap.mem_iff_isSome_getElem?, htable, afterAll_of_ended_mem hprefix hended] at hmem
    cases hmem
  rw [Std.TreeMap.isEmpty_eq_size_eq_zero] at hempty
  exact eq_of_beq hempty

section Sample

def sampleRecord : ObjectRecord := ⟨7, ⟨0, 1, 2⟩, ⟨3, 4, 5⟩, ⟨6, 7, 8⟩, true⟩

/-- An object whose own data grows and shrinks, and the end. -/
def sampleRun : List Announcement :=
  [.new sampleRecord [1, 2], .update sampleRecord [1, 2, 3, 2], .update sampleRecord [9], .ended]

theorem sampleRun_honest : Honest 1 start sampleRun := by
  refine ⟨trivial, by simp, ?_, rfl, by simp, ?_, rfl, by simp, ?_, trivial, by simp, ?_, trivial⟩
  all_goals decide +kernel

/-- A session in which a stream that notes all events has just been opened. -/
def sampleSession : Session (List ObjectEvent) :=
  ((subscribe fun event events => events ++ [event]).on (Session.start [])).2

theorem subscribe_sampleSession :
    (subscribe fun event events => events ++ [event]).on (Session.start []) = (.ok ⟨⟨1⟩⟩, sampleSession) := rfl

/-- An object is followed through its changes. -/
theorem replica_agrees_sampleRun :
    Honest 1 start sampleRun ∧ sampleRun.take 3 <+: sampleRun ∧
      (snapshots ⟨⟨1⟩⟩ (sampleSession.receiveAll 1 (frames 1 start (sampleRun.take 3))))[(7 : Int32)]? =
        some (sampleRecord.body [9]) :=
  ⟨sampleRun_honest, List.take_prefix 3 _,
    (replica_agrees subscribe_sampleSession sampleRun_honest (List.take_prefix 3 _) 0).1 7⟩

end Sample

end ObjectStream
end LevelLink
