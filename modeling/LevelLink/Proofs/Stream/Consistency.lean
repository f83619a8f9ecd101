import Mathlib.Data.List.Induction
import LevelLink.Proofs.Stream.Replication

/-!
# Consistent snapshots

A table of snapshots is consistent if every body in it is that of a frame which announces the object it is kept
under.  A frame that announces an object keeps the table so, and so does one that deletes an object, whoever sends
them.  A change does if, and only if, the patched body announces the object (`consistent_iff`): the stream keeps any
patched body that a record can be read from, and tells the application of the record that is there, even if it is
the record of another object (`inconsistent_sampleForgery`).
-/

namespace LevelLink

/-! ### Tables -/

namespace Snapshots

/-- All bodies of a table are so. -/
def All (P : Int32 → Bytes → Prop) (t : Snapshots) : Prop :=
  ∀ (object : Int32) (body : Bytes), t[object]? = some body → P object body

/-- A body from which a record can be read. -/
def Readable (frameId : Int32) (_ : Int32) (body : Bytes) : Prop :=
  ∃ r rest, reread frameId body = .ok (r, rest)

/-- The body of a frame to the object stream that announces the object. -/
def Announces (frameId object : Int32) (body : Bytes) : Prop :=
  ∃ (m : Message) (r : ObjectRecord) (rest : Message), Message.ofBody frameId body = .ok m ∧
    m.node = levelNode ∧ m.name = ObjectRecord.streamName ∧
    ObjectFrame.read.inStream m = .ok (.new r, rest) ∧ r.id = object

/-- Every body in the table is that of a frame which announces the object. -/
abbrev Consistent (frameId : Int32) (t : Snapshots) : Prop := t.All (Announces frameId)

variable {P : Int32 → Bytes → Prop} {t : Snapshots} {frameId object : Int32} {body : Bytes}

theorem all_empty : All P ∅ := by
  intro object body h
  simp at h

theorem All.erase (h : t.All P) (object : Int32) : All P (t.erase object) := by
  intro other body hbody
  rw [Std.TreeMap.getElem?_erase] at hbody
  split at hbody
  · cases hbody
  · exact h other body hbody

/-- A table stays so by an insertion exactly if the new body is so. -/
theorem All.insert_iff (h : t.All P) : All P (t.insert object body) ↔ P object body := by
  constructor
  · intro hall
    exact hall object body Std.TreeMap.getElem?_insert_self
  · intro hbody other body' hother
    rw [Std.TreeMap.getElem?_insert] at hother
    split at hother
    · next heq =>
      obtain rfl := Std.LawfulEqCmp.eq_of_compare heq
      obtain rfl := Option.some.inj hother
      exact hbody
    · exact h other body' hother

/-- The record in the body of an announcement is the object's. -/
theorem Announces.reread (h : Announces frameId object body) :
    ∃ r rest, Snapshots.reread frameId body = .ok (r, rest) ∧ r.id = object := by
  obtain ⟨m, r, rest, hm, -, -, hread, hid⟩ := h
  obtain ⟨opcode, m₁, hopcode, hrecord⟩ := ObjectFrame.parts_of_read_new hread
  refine ⟨r, rest, ?_, hid⟩
  rw [Snapshots.reread, hm]
  simp only [Except.mapError, bind, Except.bind, hopcode, hrecord]

/-! ### One frame -/

/-- A message that is taken is a frame that is applied. -/
theorem step_ok {m : Message} {t' : Snapshots} {event : ObjectEvent} (h : t.step m = (t', .ok event)) :
    ∃ f rest, ObjectFrame.read.inStream m = .ok (f, rest) ∧ t.apply rest f = (t', .ok event) := by
  unfold step at h
  rcases hread : ObjectFrame.read.inStream m with e | ⟨f, rest⟩
  · rw [hread] at h
    cases h
  · rw [hread] at h
    exact ⟨f, rest, rfl, h⟩

/-- What a change does that goes well. -/
theorem apply_update {rest : Message} {delta : Bytes} {t' : Snapshots} {event : ObjectEvent}
    (h : t.apply rest (.update object delta) = (t', .ok event)) :
    ∃ body r rest', t.patched object delta = .ok body ∧ reread rest.id body = .ok (r, rest') ∧
      t' = t.insert object body ∧ event = .updated r rest' := by
  unfold apply at h
  rcases hpatched : t.patched object delta with e | body
  · simp only [hpatched] at h
    cases h
  · simp only [hpatched] at h
    obtain ⟨rfl, hevent⟩ := Prod.mk.inj h
    rcases hreread : reread rest.id body with e | ⟨r, rest'⟩
    · rw [hreread] at hevent
      cases hevent
    · rw [hreread] at hevent
      exact ⟨body, r, rest', rfl, hreread, rfl, (Except.ok.inj hevent).symm⟩

section Frame

variable {m rest : Message} {f : ObjectFrame} {t' : Snapshots} {event : ObjectEvent}
  (hm : Message.ofBody m.id m.body = .ok m) (haddr : m.AddressedTo levelNode ObjectRecord.streamName frameId)
  (hread : ObjectFrame.read.inStream m = .ok (f, rest)) (happly : t.apply rest f = (t', .ok event))
include hm haddr hread

/-- The body of a frame that announces an object announces the object. -/
theorem announces_of_read {r : ObjectRecord} (hf : f = .new r) : Announces frameId r.id rest.body := by
  obtain ⟨hbody, -⟩ := ObjectFrame.takes_read.body_eq hread
  obtain ⟨hnode, hname, rfl⟩ := haddr
  exact ⟨m, r, rest, hbody ▸ hm, hnode, hname, hf ▸ hread, rfl⟩

include happly

/-- A frame that is taken leaves bodies that a record can be read from. -/
theorem All.readable_apply (h : t.All (Readable frameId)) : t'.All (Readable frameId) := by
  cases f with
  | new r =>
    obtain ⟨rfl, -⟩ := Prod.mk.inj happly
    obtain ⟨r', rest', hreread, -⟩ := (announces_of_read hm haddr hread rfl).reread
    exact h.insert_iff.mpr ⟨r', rest', hreread⟩
  | update object delta =>
    obtain ⟨-, hid⟩ := ObjectFrame.takes_read.body_eq hread
    obtain ⟨body, r, rest', -, hreread, rfl, -⟩ := apply_update happly
    rw [hid, haddr.2.2] at hreread
    exact h.insert_iff.mpr ⟨r, rest', hreread⟩
  | delete object =>
    obtain ⟨rfl, -⟩ := Prod.mk.inj happly
    exact h.erase object
  | ended =>
    obtain ⟨rfl, -⟩ := Prod.mk.inj happly
    exact all_empty

/-- A frame that is taken keeps a table consistent exactly if a change announces what it changes. -/
theorem Consistent.apply_iff (h : t.Consistent frameId) : t'.Consistent frameId ↔
    ∀ object delta body, f = .update object delta → t.patched object delta = .ok body →
      Announces frameId object body := by
  cases f with
  | new r =>
    obtain ⟨rfl, -⟩ := Prod.mk.inj happly
    exact ⟨fun _ => nofun, fun _ => h.insert_iff.mpr (announces_of_read hm haddr hread rfl)⟩
  | update object delta =>
    obtain ⟨body, r, rest', hpatched, -, rfl, -⟩ := apply_update happly
    refine h.insert_iff.trans ⟨?_, fun hall => hall object delta body rfl hpatched⟩
    rintro hannounces _ _ body' ⟨⟩ hpatched'
    obtain rfl := Except.ok.inj (hpatched.symm.trans hpatched')
    exact hannounces
  | delete object =>
    obtain ⟨rfl, -⟩ := Prod.mk.inj happly
    exact ⟨fun _ => nofun, fun _ => h.erase object⟩
  | ended =>
    obtain ⟨rfl, -⟩ := Prod.mk.inj happly
    exact ⟨fun _ => nofun, fun _ => all_empty⟩

end Frame

end Snapshots

/-! ### The stream -/

namespace ObjectStream

open Snapshots (Announces Readable)

variable {υ : Type} {hook : ObjectEvent → υ → υ} {o : ObjectStream} {s s' s₁ : Session υ}
  {frame : Bytes} {frames front back : List Bytes}

/-- A frame that the table refuses fails, when the table has been kept. -/
theorem on_step_error {self : SubscriberId} {m : Message} {w : World υ} {table : Snapshots} {e : StreamError}
    (h : (w.objectsOf self).step m = (table, .error e)) :
    (step hook self m).on w = (.error e, { w with objects := w.objects.insert self table }) := by
  rw [step, Attempt.on_bind_of_ok (Attempt.on_get w)]
  simp only [h, Attempt.on_bind, Attempt.on_modify, Attempt.on_lift]

/-- A frame has been taken by the stream: what it says, the table afterwards, and what the application is told. -/
structure Taken (hook : ObjectEvent → υ → υ) (o : ObjectStream) (s : Session υ) (m : Message) (f : ObjectFrame)
    (event : ObjectEvent) (s' : Session υ) : Prop where
  addressed : m.AddressedTo levelNode ObjectRecord.streamName o.id
  read : ∃ rest, ObjectFrame.read.inStream m = .ok (f, rest) ∧
    (o.snapshots s).apply rest f = (o.snapshots s', .ok event)
  told : s'.world.app = hook event s.world.app

/-- A frame has been passed over. -/
structure Passed (o : ObjectStream) (s : Session υ) (frame : Bytes) (s' : Session υ) : Prop where
  same : s' = s
  unaddressed : ∀ m, Message.ofFrame frame = .ok m → ¬ m.AddressedTo levelNode ObjectRecord.streamName o.id

/-- No subscriber but the stream has the number of a message in these frames. -/
def IsAlone (o : ObjectStream) (s : Session υ) (frames : List Bytes) : Prop :=
  ∀ frame ∈ frames, ∀ m, Message.ofFrame frame = .ok m → m.id = o.id ∨ s.live[m.id]? = none

/-- The stream listens, and nobody else takes these frames. -/
structure Listens (hook : ObjectEvent → υ → υ) (o : ObjectStream) (s : Session υ) (frames : List Bytes) : Prop where
  hears : s.Hears levelNode ObjectRecord.streamName o.id (handler hook)
  alone : o.IsAlone s frames

/-- The stream has ended, and nobody takes these frames. -/
structure Ended (o : ObjectStream) (s : Session υ) (frames : List Bytes) : Prop where
  closed : o.isOpen s = false
  nobody : ∀ frame ∈ frames, ∀ m, Message.ofFrame frame = .ok m → s.live[m.id]? = none

theorem IsAlone.nobody (halone : o.IsAlone s frames) (hnone : s.live[o.id]? = none) :
    ∀ frame ∈ frames, ∀ m, Message.ofFrame frame = .ok m → s.live[m.id]? = none := by
  intro frame hframe m hm
  rcases halone frame hframe m hm with hid | hnobody
  · rw [hid]
    exact hnone
  · exact hnobody

section Dispatch

variable {m : Message} (hears : s.Hears levelNode ObjectRecord.streamName o.id (handler hook))
  (haddr : m.AddressedTo levelNode ObjectRecord.streamName o.id) (depth : Nat)
include hears haddr

/-- A message to the stream ends it, or is taken. -/
theorem dispatch_cases :
    (o.isOpen (Registry.dispatch (depth + 1) m s).2 = false ∧
      (Registry.dispatch (depth + 1) m s).2.live[o.id]? = none) ∨
    (∃ f event, Taken hook o s m f event (Registry.dispatch (depth + 1) m s).2) ∧
      (Registry.dispatch (depth + 1) m s).2.Hears levelNode ObjectRecord.streamName o.id (handler hook) := by
  rcases hstep : (o.snapshots s).step m with ⟨table, e | event⟩
  · obtain ⟨live, hdispatch, hlive⟩ := hears.dispatch_fail haddr rfl depth (on_step_error hstep) rfl
    rw [hdispatch]
    exact .inl ⟨s.contains_delivered _ hlive, hlive⟩
  · have hon : (step hook o.id m).on s.world = _ := on_step hstep
    by_cases hclosed : event = .closed
    · subst hclosed
      obtain ⟨live, hdispatch, hlive⟩ := hears.dispatch_close haddr rfl depth hon
      rw [hdispatch]
      exact .inl ⟨s.contains_delivered _ hlive, hlive⟩
    · have hverdict : verdict event = .stay := by
        cases event <;> first | rfl | exact absurd rfl hclosed
      rw [hverdict] at hon
      obtain ⟨live, hdispatch, hears'⟩ := hears.dispatch_stay haddr rfl depth hon
      obtain ⟨f, rest, hread, happly⟩ := Snapshots.step_ok hstep
      rw [hdispatch]
      refine .inr ⟨⟨f, event, haddr, ⟨rest, hread, ?_⟩, rfl⟩, hears'⟩
      rw [happly, snapshots_insert rfl]

theorem isAlone_dispatch (halone : o.IsAlone s frames) :
    o.IsAlone (Registry.dispatch (depth + 1) m s).2 frames := by
  intro frame hframe m' hm'
  by_cases hid : m'.id = o.id
  · exact .inl hid
  · have hsame := hears.getElem?_dispatch_of_ne haddr rfl depth (fun _ => ⟨_, rfl⟩) hid
    exact .inr (hsame.trans ((halone frame hframe m' hm').resolve_left hid))

end Dispatch

section Receive

variable (listens : Listens hook o s (frame :: frames)) (depth : Nat)
include listens

/-- A frame that is not to the stream is passed over. -/
theorem Listens.pass (hother : ∀ m, Message.ofFrame frame = .ok m →
      ¬ m.AddressedTo levelNode ObjectRecord.streamName o.id) :
    Listens hook o (s.receive (depth + 1) frame) frames ∧ Passed o s frame (s.receive (depth + 1) frame) := by
  obtain ⟨hears, halone⟩ := listens
  obtain ⟨hthis, hrest⟩ := List.forall_mem_cons.mp halone
  have hsame : s.receive (depth + 1) frame = s := by
    rcases hframe : Message.ofFrame frame with e | m
    · rw [Registry.receive, hframe]
    · rw [Registry.receive_of_ofFrame hframe]
      rcases hthis m hframe with hid | hnone
      · rw [hears.dispatch_of_not_addressedTo hid (hother m hframe)]
      · rw [Registry.dispatch_of_getElem?_eq_none hnone]
  refine ⟨?_, hsame, hother⟩
  rw [hsame]
  exact ⟨hears, hrest⟩

/-- A frame ends the stream, or the stream listens on and has taken the frame or passed it over. -/
theorem Listens.receive :
    Ended o (s.receive (depth + 1) frame) frames ∨
    Listens hook o (s.receive (depth + 1) frame) frames ∧
      ((∃ m f event, Message.ofFrame frame = .ok m ∧ Taken hook o s m f event (s.receive (depth + 1) frame)) ∨
        Passed o s frame (s.receive (depth + 1) frame)) := by
  by_cases hto : ∃ m, Message.ofFrame frame = .ok m ∧ m.AddressedTo levelNode ObjectRecord.streamName o.id
  · obtain ⟨m, hframe, haddr⟩ := hto
    obtain ⟨hears, halone⟩ := listens
    rw [Registry.receive_of_ofFrame hframe]
    have hrest := isAlone_dispatch hears haddr depth (List.forall_mem_cons.mp halone).2
    rcases dispatch_cases hears haddr depth with ⟨hclosed, hnone⟩ | ⟨⟨f, event, taken⟩, hears'⟩
    · exact .inl ⟨hclosed, hrest.nobody hnone⟩
    · exact .inr ⟨⟨hears', hrest⟩, .inl ⟨m, f, event, hframe, taken⟩⟩
  · obtain ⟨hlistens, hpassed⟩ := listens.pass depth fun m hframe haddr => hto ⟨m, hframe, haddr⟩
    exact .inr ⟨hlistens, .inr hpassed⟩

end Receive

/-- A stream that has ended takes nothing any more. -/
theorem Ended.receiveAll (ended : Ended o s frames) (depth : Nat) : s.receiveAll depth frames = s := by
  obtain ⟨-, hnobody⟩ := ended
  induction frames with
  | nil => rfl
  | cons frame frames ih =>
    obtain ⟨hthis, hrest⟩ := List.forall_mem_cons.mp hnobody
    have hsame : s.receive depth frame = s := by
      rcases hframe : Message.ofFrame frame with e | m
      · rw [Registry.receive, hframe]
      · rw [Registry.receive_of_ofFrame hframe, Registry.dispatch_of_getElem?_eq_none (hthis m hframe)]
    rw [Registry.receiveAll_cons, hsame]
    exact ih hrest

/-- A stream that is open after many frames has been open all the time. -/
theorem Listens.receiveAll (listens : Listens hook o s (front ++ back)) (depth : Nat)
    (hopen : o.isOpen (s.receiveAll (depth + 1) (front ++ back)) = true) :
    Listens hook o (s.receiveAll (depth + 1) front) back := by
  induction front generalizing s with
  | nil => exact listens
  | cons frame front ih =>
    rw [List.cons_append] at listens hopen
    rw [Registry.receiveAll_cons] at hopen
    rcases Listens.receive listens depth with ended | ⟨hrest, -⟩
    · rw [ended.receiveAll, ended.closed] at hopen
      cases hopen
    · exact ih hrest hopen

/-! ### Frames that are taken -/

/-- A frame to the stream that changes an object by a delta. -/
def Changes (o : ObjectStream) (frame : Bytes) (object : Int32) (delta : Bytes) : Prop :=
  ∃ m rest, Message.ofFrame frame = .ok m ∧ m.AddressedTo levelNode ObjectRecord.streamName o.id ∧
    ObjectFrame.read.inStream m = .ok (.update object delta, rest)

section Taken

variable {m : Message} {f : ObjectFrame} {event : ObjectEvent} (hframe : Message.ofFrame frame = .ok m)
  (taken : Taken hook o s m f event s')
include hframe taken

theorem Taken.readable (h : (o.snapshots s).All (Readable o.id)) : (o.snapshots s').All (Readable o.id) := by
  obtain ⟨rest, hread, happly⟩ := taken.read
  exact h.readable_apply (Message.ofBody_of_ofFrame hframe) taken.addressed hread happly

theorem Taken.keeps_consistent_iff (h : (o.snapshots s).Consistent o.id) : (o.snapshots s').Consistent o.id ↔
    ∀ object delta body, o.Changes frame object delta → (o.snapshots s).patched object delta = .ok body →
      Announces o.id object body := by
  obtain ⟨rest, hread, happly⟩ := taken.read
  refine (h.apply_iff (Message.ofBody_of_ofFrame hframe) taken.addressed hread happly).trans
    ⟨fun hall object delta body hchanges => ?_, fun hall object delta body hf => ?_⟩
  · obtain ⟨m', rest', hframe', -, hread'⟩ := hchanges
    obtain rfl := Except.ok.inj (hframe.symm.trans hframe')
    obtain ⟨rfl, -⟩ := Prod.mk.inj (Except.ok.inj (hread.symm.trans hread'))
    exact hall object delta body rfl
  · subst hf
    exact hall object delta body ⟨m, rest, hframe, taken.addressed, hread⟩

/-- A change is told with the record in the body that is then kept. -/
theorem Taken.of_changes {object : Int32} {delta : Bytes} (hchanges : o.Changes frame object delta) :
    ∃ body r rest, (o.snapshots s).patched object delta = .ok body ∧
      Snapshots.reread o.id body = .ok (r, rest) ∧ (o.snapshots s')[object]? = some body ∧
      s'.world.app = hook (.updated r rest) s.world.app := by
  obtain ⟨m', rest, hframe', haddr, hread⟩ := hchanges
  obtain rfl := Except.ok.inj (hframe.symm.trans hframe')
  obtain ⟨rest', hread', happly⟩ := taken.read
  obtain ⟨rfl, rfl⟩ := Prod.mk.inj (Except.ok.inj (hread.symm.trans hread'))
  obtain ⟨body, r, rest₁, hpatched, hreread, htable, rfl⟩ := Snapshots.apply_update happly
  rw [(ObjectFrame.takes_read.body_eq hread).2, haddr.2.2] at hreread
  refine ⟨body, r, rest₁, hpatched, hreread, ?_, taken.told⟩
  rw [htable]
  exact Std.TreeMap.getElem?_insert_self

end Taken

theorem Passed.not_changes (passed : Passed o s frame s') {object : Int32} {delta : Bytes} :
    ¬ o.Changes frame object delta := by
  rintro ⟨m, -, hframe, haddr, -⟩
  exact passed.unaddressed m hframe haddr

/-! ### Runs -/

section Run

variable (h : (subscribe hook).on s = (.ok o, s₁)) (halone : o.IsAlone s₁ frames) {depth : Nat}
  (hopen : o.isOpen (s₁.receiveAll (depth + 1) frames) = true)
include h halone hopen

/-- What becomes of any frame in a run after which the stream is open. -/
theorem taken_or_passed (hsplit : frames = front ++ frame :: back) :
    (∃ m f event, Message.ofFrame frame = .ok m ∧ Taken hook o (s₁.receiveAll (depth + 1) front) m f event
      (s₁.receiveAll (depth + 1) (front ++ [frame]))) ∨
    Passed o (s₁.receiveAll (depth + 1) front) frame (s₁.receiveAll (depth + 1) (front ++ [frame])) := by
  subst hsplit
  have hstart : Listens hook o s₁ (front ++ frame :: back) := ⟨(synced_of_subscribe h).hears, halone⟩
  have hhere := hstart.receiveAll depth hopen
  rw [Registry.receiveAll_concat]
  rcases hhere.receive depth with ended | ⟨-, hcases⟩
  · rw [List.append_cons, Registry.receiveAll_append, Registry.receiveAll_concat, ended.receiveAll,
      ended.closed] at hopen
    cases hopen
  · exact hcases

/-- What holds of all bodies if no frame that is taken breaks it. -/
theorem all_of_prefix {P : Int32 → Bytes → Prop} (hstep : ∀ front frame back m f event,
      frames = front ++ frame :: back → Message.ofFrame frame = .ok m →
      Taken hook o (s₁.receiveAll (depth + 1) front) m f event (s₁.receiveAll (depth + 1) (front ++ [frame])) →
      (o.snapshots (s₁.receiveAll (depth + 1) front)).All P →
      (o.snapshots (s₁.receiveAll (depth + 1) (front ++ [frame]))).All P) (hfront : front <+: frames) :
    (o.snapshots (s₁.receiveAll (depth + 1) front)).All P := by
  induction front using List.reverseRecOn with
  | nil =>
    intro object body hbody
    rw [Registry.receiveAll_nil, (synced_of_subscribe h).agrees] at hbody
    cases hbody
  | append_singleton front frame ih =>
    obtain ⟨back, hback⟩ := hfront
    have hsplit : frames = front ++ frame :: back := hback.symm.trans (List.append_cons ..).symm
    have hbefore := ih ⟨_, hsplit.symm⟩
    rcases taken_or_passed h halone hopen hsplit with ⟨m, f, event, hframe, taken⟩ | passed
    · exact hstep front frame back m f event hsplit hframe taken hbefore
    · rw [passed.same]
      exact hbefore

end Run

/-- What becomes of a stream over any frames that nobody else takes, as long as it stays open.  A record can be read
from every body in its table.  The table is consistent all the time exactly if every change gives a body that
announces the object it names.  The application is told of a change with the record in the body that is then kept. -/
theorem consistent_iff (h : (subscribe hook).on s = (.ok o, s₁)) (halone : o.IsAlone s₁ frames) {depth : Nat}
    (hopen : o.isOpen (s₁.receiveAll (depth + 1) frames) = true) :
    (o.snapshots (s₁.receiveAll (depth + 1) frames)).All (Readable o.id) ∧
    ((∀ front, front <+: frames → (o.snapshots (s₁.receiveAll (depth + 1) front)).Consistent o.id) ↔
      ∀ front frame back object delta body, frames = front ++ frame :: back → o.Changes frame object delta →
        (o.snapshots (s₁.receiveAll (depth + 1) front)).patched object delta = .ok body →
        Announces o.id object body) ∧
    (∀ front frame back object delta, frames = front ++ frame :: back → o.Changes frame object delta →
      ∃ body r rest, (o.snapshots (s₁.receiveAll (depth + 1) front)).patched object delta = .ok body ∧
        Snapshots.reread o.id body = .ok (r, rest) ∧ (Announces o.id object body → r.id = object) ∧
        (o.snapshots (s₁.receiveAll (depth + 1) (front ++ [frame])))[object]? = some body ∧
        (s₁.receiveAll (depth + 1) (front ++ [frame])).world.app =
          hook (.updated r rest) (s₁.receiveAll (depth + 1) front).world.app) := by
  refine ⟨?_, ⟨?_, ?_⟩, ?_⟩
  · refine all_of_prefix h halone hopen ?_ (List.prefix_refl frames)
    intro front frame back m f event _ hframe taken
    exact taken.readable hframe
  · intro hall front frame back object delta body hsplit hchanges
    rcases taken_or_passed h halone hopen hsplit with ⟨m, f, event, hframe, taken⟩ | passed
    · have hbefore := hall front ⟨_, hsplit.symm⟩
      have hafter := hall (front ++ [frame]) ⟨back, (hsplit.trans (List.append_cons ..)).symm⟩
      exact (taken.keeps_consistent_iff hframe hbefore).mp hafter object delta body hchanges
    · exact absurd hchanges passed.not_changes
  · intro hchanges front
    refine all_of_prefix h halone hopen ?_
    intro front frame back m f event hsplit hframe taken hbefore
    exact (taken.keeps_consistent_iff hframe hbefore).mpr fun object delta body =>
      hchanges front frame back object delta body hsplit
  · intro front frame back object delta hsplit hchanges
    rcases taken_or_passed h halone hopen hsplit with ⟨m, f, event, hframe, taken⟩ | passed
    · obtain ⟨body, r, rest, hpatched, hreread, htable, htold⟩ := taken.of_changes hframe hchanges
      refine ⟨body, r, rest, hpatched, hreread, fun hannounces => ?_, htable, htold⟩
      obtain ⟨r', rest', hreread', hid⟩ := hannounces.reread
      obtain ⟨rfl, -⟩ := Prod.mk.inj (Except.ok.inj (hreread.symm.trans hreread'))
      exact hid
    · exact absurd hchanges passed.not_changes

section Sample

def otherRecord : ObjectRecord := { sampleRecord with id := 8 }

/-- The record of another object behind the opcode of a deletion. -/
def forgedBody : Bytes :=
  ((Message.start levelNode ObjectRecord.streamName).write
    (Bytes.ofInt32 ObjectOp.delete.code ++ otherRecord.fieldBytes)).body

/-- A frame of the object stream under the number 1. -/
def sampleFrame (frame : ObjectFrame) : Bytes :=
  (((Message.start levelNode ObjectRecord.streamName).withId 1).write (frame.payload [])).frame

/-- An object, and a change that puts the forged body in its place. -/
def sampleForgery : List Bytes :=
  [sampleFrame (.new sampleRecord),
    sampleFrame (.update sampleRecord.id (Delta.encode (sampleRecord.body []) forgedBody))]

def sampleStream : ObjectStream := ⟨⟨1⟩⟩

theorem isAlone_sampleForgery : sampleStream.IsAlone sampleSession sampleForgery := by
  have hall : ∀ frame ∈ sampleForgery, (Message.ofFrame frame).toOption.all (·.id == sampleStream.id) = true := by
    decide +kernel
  intro frame hframe m hm
  have hid := hall frame hframe
  rw [hm] at hid
  exact .inl (eq_of_beq hid)

/-- A record can be read from what the stream then keeps. -/
theorem consistent_iff_sampleForgery :
    sampleStream.IsAlone sampleSession sampleForgery ∧
    sampleStream.isOpen (sampleSession.receiveAll 1 sampleForgery) = true ∧
    (sampleStream.snapshots (sampleSession.receiveAll 1 sampleForgery)).All (Readable sampleStream.id) := by
  have hopen : sampleStream.isOpen (sampleSession.receiveAll 1 sampleForgery) = true := by decide +kernel
  exact ⟨isAlone_sampleForgery, hopen, (consistent_iff subscribe_sampleSession isAlone_sampleForgery hopen).1⟩

/-- The stream is open, keeps the forged body, and has told the application of the other object. -/
theorem inconsistent_sampleForgery :
    sampleStream.isOpen (sampleSession.receiveAll 1 sampleForgery) = true ∧
    ¬ (sampleStream.snapshots (sampleSession.receiveAll 1 sampleForgery)).Consistent sampleStream.id ∧
    ∃ rest, (sampleSession.receiveAll 1 sampleForgery).world.app.getLast? = some (.updated otherRecord rest) := by
  refine ⟨by decide +kernel, ?_, ?_⟩
  · intro hconsistent
    have hbody : (sampleStream.snapshots (sampleSession.receiveAll 1 sampleForgery))[sampleRecord.id]? =
        some forgedBody := by decide +kernel
    have hother : (Snapshots.reread sampleStream.id forgedBody).toOption.map (·.1.id) = some 8 := by decide +kernel
    obtain ⟨r, rest, hreread, hid⟩ := (hconsistent sampleRecord.id _ hbody).reread
    rw [hreread] at hother
    exact absurd (hid.symm.trans (Option.some.inj hother)) (by decide)
  · let bs : Bytes := Bytes.ofInt32 ObjectOp.delete.code ++ otherRecord.fieldBytes
    let told : Message := ((Message.start levelNode ObjectRecord.streamName).withId 1).write bs
    exact ⟨told.prepare.past bs [], by decide +kernel⟩

end Sample

end ObjectStream
end LevelLink
