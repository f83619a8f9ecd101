import LevelLink.Proofs.Stream.Consistency
import LevelLink.Proofs.Tables

/-!
# Frames that fail

A frame that the object stream cannot take ends the stream, and the application is told of the failure and of nothing
else.  The table has the same objects afterwards, and the same bodies with one exception: the body that a change gives
is kept before its record is read, and so it stays even if no record can be read from it (`failed_frame`,
`spoiled_sampleSpoiler`).
-/

namespace LevelLink

/-! ### Tables -/

namespace Snapshots

variable {t t' : Snapshots} {m rest : Message} {object other : Int32} {delta body : Bytes} {e : StreamError}

/-- Only an object that is held can be patched. -/
theorem mem_of_patched (h : t.patched object delta = .ok body) : object ∈ t := by
  rw [Std.TreeMap.mem_iff_isSome_getElem?]
  unfold patched at h
  rcases hold : t[object]? with _ | old
  · rw [hold] at h
    cases h
  · rfl

/-- A change whose delta fits and that fails all the same has changed the table. -/
theorem step_error_of_patched (h : t.step m = (t', .error e))
    (hread : ObjectFrame.read.inStream m = .ok (.update object delta, rest))
    (hpatched : t.patched object delta = .ok body) : t' = t.insert object body ∧ reread rest.id body = .error e := by
  simp only [step, hread, apply, hpatched] at h
  obtain ⟨rfl, hevent⟩ := Prod.mk.inj h
  refine ⟨rfl, ?_⟩
  rcases hreread : reread rest.id body with e' | ⟨r, rest'⟩
  · rw [hreread] at hevent
    cases hevent
    rfl
  · rw [hreread] at hevent
    cases hevent

/-- Any other message that fails leaves the table as it is. -/
theorem step_error_of_not_patched (h : t.step m = (t', .error e))
    (hnot : ∀ object delta rest body, ObjectFrame.read.inStream m = .ok (.update object delta, rest) →
      t.patched object delta ≠ .ok body) : t' = t := by
  unfold step at h
  rcases hread : ObjectFrame.read.inStream m with e' | ⟨f, rest⟩
  · rw [hread] at h
    exact (Prod.mk.inj h).1.symm
  · rw [hread] at h
    dsimp only at h
    cases f with
    | update object delta =>
      rcases hpatched : t.patched object delta with e' | body
      · simp only [apply, hpatched] at h
        exact (Prod.mk.inj h).1.symm
      · exact absurd hpatched (hnot object delta rest body hread)
    | new r => cases (Prod.mk.inj h).2
    | delete object => cases (Prod.mk.inj h).2
    | ended => cases (Prod.mk.inj h).2

end Snapshots

/-! ### The stream -/

namespace ObjectStream

variable {υ : Type} {hook : ObjectEvent → υ → υ} {o : ObjectStream} {s s' : Session υ} {frame : Bytes} {m : Message}
  {object : Int32} {delta body : Bytes} {e : StreamError}

/-- A frame has failed: the stream does not listen any more, the application has been told of the failure alone, and
the table is what the frame has left of it. -/
structure Lost (hook : ObjectEvent → υ → υ) (o : ObjectStream) (s : Session υ) (m : Message) (e : StreamError)
    (s' : Session υ) : Prop where
  closed : o.isOpen s' = false
  told : s'.world.app = hook (.failed e) s.world.app
  table : (o.snapshots s).step m = (o.snapshots s', .error e)

/-- A step fails where the table refuses the message. -/
theorem step_eq_error (h : ((step hook o.id m).on s.world).1 = .error e) :
    ∃ table, (o.snapshots s).step m = (table, .error e) := by
  rcases hstep : (o.snapshots s).step m with ⟨table, e' | event⟩
  · rw [on_step_error hstep] at h
    cases h
    exact ⟨table, rfl⟩
  · rw [on_step hstep] at h
    cases h

/-- A frame that fails ends the stream. -/
theorem lost_of_error (hears : s.Hears levelNode ObjectRecord.streamName o.id (handler hook))
    (hframe : Message.ofFrame frame = .ok m) (haddr : m.AddressedTo levelNode ObjectRecord.streamName o.id)
    (hfails : ((step hook o.id m).on s.world).1 = .error e) (depth : Nat) :
    Lost hook o s m e (s.receive (depth + 1) frame) := by
  obtain ⟨table, hstep⟩ := step_eq_error hfails
  obtain ⟨live, hdispatch, hlive⟩ := hears.dispatch_fail haddr rfl depth (on_step_error hstep) rfl
  rw [Registry.receive_of_ofFrame hframe, hdispatch]
  refine ⟨s.contains_delivered _ hlive, rfl, ?_⟩
  rw [snapshots_insert (s := s.delivered live _) rfl]
  exact hstep

namespace Lost

variable (lost : Lost hook o s m e s') (hframe : Message.ofFrame frame = .ok m)
  (haddr : m.AddressedTo levelNode ObjectRecord.streamName o.id)
include lost hframe

/-- A change whose delta fits has put a body into the table from which no record can be read. -/
theorem of_patched (hchanges : o.Changes frame object delta) (hpatched : (o.snapshots s).patched object delta = .ok body) :
    o.snapshots s' = (o.snapshots s).insert object body ∧ Snapshots.reread o.id body = .error e := by
  obtain ⟨m', rest, hframe', haddr, hread⟩ := hchanges
  obtain rfl := Except.ok.inj (hframe.symm.trans hframe')
  obtain ⟨htable, hreread⟩ := Snapshots.step_error_of_patched lost.table hread hpatched
  rw [(ObjectFrame.takes_read.body_eq hread).2, haddr.2.2] at hreread
  exact ⟨htable, hreread⟩

include haddr

/-- A frame that is no such change has left the table as it was. -/
theorem of_not_patched (hnot : ∀ object delta body, o.Changes frame object delta →
      (o.snapshots s).patched object delta ≠ .ok body) : o.snapshots s' = o.snapshots s :=
  Snapshots.step_error_of_not_patched lost.table fun object delta rest body hread =>
    hnot object delta body ⟨m, rest, hframe, haddr, hread⟩

/-- A frame that fails leaves the same table, or one in which the body of an object has been replaced that no record
can be read from. -/
theorem table_cases : o.snapshots s' = o.snapshots s ∨ ∃ object delta body, o.Changes frame object delta ∧
    (o.snapshots s).patched object delta = .ok body ∧ o.snapshots s' = (o.snapshots s).insert object body := by
  by_cases hpatched : ∃ object delta body, o.Changes frame object delta ∧
      (o.snapshots s).patched object delta = .ok body
  · obtain ⟨object, delta, body, hchanges, hbody⟩ := hpatched
    exact .inr ⟨object, delta, body, hchanges, hbody, (lost.of_patched hframe hchanges hbody).1⟩
  · refine .inl (lost.of_not_patched hframe haddr ?_)
    intro object delta body hchanges hbody
    exact hpatched ⟨object, delta, body, hchanges, hbody⟩

/-- The table has the same objects. -/
theorem mem_iff (other : Int32) : other ∈ o.snapshots s' ↔ other ∈ o.snapshots s := by
  rcases lost.table_cases hframe haddr with hsame | ⟨object, delta, body, -, hbody, htable⟩
  · rw [hsame]
  · rw [htable, Std.TreeMap.mem_insert]
    constructor
    · rintro (heq | hmem)
      · obtain rfl := Std.LawfulEqCmp.eq_of_compare heq
        exact Snapshots.mem_of_patched hbody
      · exact hmem
    · exact .inr

/-- The table has the same bodies exactly if the frame is no change that gives another one. -/
theorem same_iff : (∀ other, o.snapshot? s' other = o.snapshot? s other) ↔
    ∀ object delta body, o.Changes frame object delta → (o.snapshots s).patched object delta = .ok body →
      o.snapshot? s object = some body := by
  constructor
  · intro hsame object delta body hchanges hbody
    rw [← hsame object, snapshot?, (lost.of_patched hframe hchanges hbody).1]
    exact Std.TreeMap.getElem?_insert_self
  · intro hheld other
    rcases lost.table_cases hframe haddr with hsame | ⟨object, delta, body, hchanges, hbody, htable⟩
    · rw [snapshot?, snapshot?, hsame]
    · rw [snapshot?, htable, getElem?_insert_ite]
      split
      · next heq => exact heq ▸ (hheld object delta body hchanges hbody).symm
      · rfl

end Lost

/-- A frame to the open stream that cannot be taken.  The stream is over, and the application has been told of the
failure and of nothing else.  The table has the same objects.  It has the same bodies as well exactly if the frame is
no change that gives another body; such a change has put this body in the place of the object's, although no record
can be read from it, and has left all others alone. -/
theorem failed_frame (hears : s.Hears levelNode ObjectRecord.streamName o.id (handler hook))
    (hframe : Message.ofFrame frame = .ok m) (haddr : m.AddressedTo levelNode ObjectRecord.streamName o.id)
    (hfails : ((step hook o.id m).on s.world).1 = .error e) (depth : Nat) :
    let s' := s.receive (depth + 1) frame
    o.isOpen s' = false ∧ s'.world.app = hook (.failed e) s.world.app ∧
    (∀ object : Int32, object ∈ o.snapshots s' ↔ object ∈ o.snapshots s) ∧
    ((∀ object, o.snapshot? s' object = o.snapshot? s object) ↔
      ∀ object delta body, o.Changes frame object delta → (o.snapshots s).patched object delta = .ok body →
        o.snapshot? s object = some body) ∧
    (∀ object delta body, o.Changes frame object delta → (o.snapshots s).patched object delta = .ok body →
      Snapshots.reread o.id body = .error e ∧
      ∀ other, o.snapshot? s' other = if object = other then some body else o.snapshot? s other) := by
  intro s'
  have lost : Lost hook o s m e s' := lost_of_error hears hframe haddr hfails depth
  refine ⟨lost.closed, lost.told, lost.mem_iff hframe haddr, lost.same_iff hframe haddr, ?_⟩
  intro object delta body hchanges hbody
  obtain ⟨htable, hreread⟩ := lost.of_patched hframe hchanges hbody
  refine ⟨hreread, fun other => ?_⟩
  rw [snapshot?, htable, getElem?_insert_ite]
  rfl

section Sample

open Announced

/-- A session in which the stream has taken an object. -/
def sampleHolding : Session (List ObjectEvent) := sampleSession.receive 1 (sampleFrame (.new sampleRecord))

/-- A change that puts a single byte in the place of the object. -/
def sampleSpoiler : ObjectFrame := .update sampleRecord.id (Delta.encode (sampleRecord.body []) [0])

/-- The message that carries the change. -/
def sampleSpoilerMessage : Message :=
  (((Message.start levelNode ObjectRecord.streamName).withId 1).write (sampleSpoiler.payload [])).prepare

def sampleFailure : StreamError := .protocol (.truncated 4 1)

theorem hears_sampleHolding : sampleHolding.Hears levelNode ObjectRecord.streamName sampleStream.id
    (handler fun event events => events ++ [event]) := by
  obtain ⟨event, -, -, synced⟩ := (synced_of_subscribe subscribe_sampleSession).receive (a := .new sampleRecord [])
    trivial (by decide +kernel) 0 nofun
  exact synced.hears

/-- The stream is over, and the application knows why. -/
theorem failed_frame_sampleSpoiler :
    Message.ofFrame (sampleFrame sampleSpoiler) = .ok sampleSpoilerMessage ∧
    ((step (fun event events => events ++ [event]) sampleStream.id sampleSpoilerMessage).on sampleHolding.world).1 =
      .error sampleFailure ∧
    sampleStream.isOpen (sampleHolding.receive 1 (sampleFrame sampleSpoiler)) = false ∧
    (sampleHolding.receive 1 (sampleFrame sampleSpoiler)).world.app = sampleHolding.world.app ++ [.failed sampleFailure] := by
  have hframe : Message.ofFrame (sampleFrame sampleSpoiler) = .ok sampleSpoilerMessage := by decide +kernel
  have hfails : ((step (fun event events => events ++ [event]) sampleStream.id sampleSpoilerMessage).on
      sampleHolding.world).1 = .error sampleFailure := by decide +kernel
  obtain ⟨hclosed, htold, -⟩ := failed_frame hears_sampleHolding hframe ⟨rfl, rfl, rfl⟩ hfails 0
  rw [Nat.zero_add] at hclosed htold
  exact ⟨hframe, hfails, hclosed, htold⟩

/-- The frame has failed, and the byte is in the place of the object. -/
theorem spoiled_sampleSpoiler :
    sampleStream.snapshot? sampleHolding sampleRecord.id = some (sampleRecord.body []) ∧
    (sampleHolding.receive 1 (sampleFrame sampleSpoiler)).world.app.getLast? = some (.failed sampleFailure) ∧
    sampleStream.snapshot? (sampleHolding.receive 1 (sampleFrame sampleSpoiler)) sampleRecord.id = some [0] := by
  decide +kernel

end Sample

end ObjectStream
end LevelLink
