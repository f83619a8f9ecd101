import LevelLink.Level.Presence
import LevelLink.Proofs.Wire.Fields

/-!
# Presence as a function of history

Which bytes carry which event (`PresenceEvent.CarriedBy`), and which users a history of events leaves
(`PresenceEvent.roster`): everyone whose connection no departure follows, in the order of arrival.  An id can be there
several times, and then the cursor moves for the first of them only.  Main statement: `roster_concat`, the list that
is kept event by event is that of the history.
-/

namespace LevelLink

/-- An opcode has the number that it is read off. -/
theorem EventOp.code_of_ofCode? {v : Int32} {op : EventOp} (h : ofCode? v = some op) : op.code = v := by
  have hfound := List.find?_some h
  exact eq_of_beq hfound

namespace PresenceEvent

/-! ### On the wire -/

/-- The written form of an event. -/
def payload : PresenceEvent → Bytes
  | connected u =>
    Bytes.ofInt32 EventOp.userConnected.code ++ (Bytes.ofUInt64 u.id.toUInt64 ++ (Utf8.encode u.name).block)
  | disconnected id name =>
    Bytes.ofInt32 EventOp.userDisconnected.code ++ (Bytes.ofUInt64 id.toUInt64 ++ (Utf8.encode name).block)
  | cursorMoved id object sub =>
    Bytes.ofInt32 EventOp.userCursorMoved.code ++
      (Bytes.ofUInt64 id.toUInt64 ++ (Bytes.ofInt32 object ++ Bytes.ofInt32 sub))
  | closed => Bytes.ofInt32 EventOp.ended.code

/-- Whether the written form says all of the event: the length of a name can be said, and who connects points at
nothing. -/
def Sayable : PresenceEvent → Prop
  | connected u => u.object = -1 ∧ u.sub = 0 ∧ (Utf8.encode u.name).length < Bytes.lengthLimit
  | disconnected _ name => (Utf8.encode name).length < Bytes.lengthLimit
  | cursorMoved .. => True
  | closed => True

/-- These bytes begin with the event.  What is behind it does not matter. -/
def CarriedBy (e : PresenceEvent) (bytes : Bytes) : Prop := e.Sayable ∧ e.payload <+: bytes

theorem reads_payload {e : PresenceEvent} (h : e.Sayable) : Reader.Reads PresenceEvent.read e.payload e := by
  cases e with
  | connected u =>
    obtain ⟨id, name, object, sub⟩ := u
    obtain ⟨rfl, rfl, hname⟩ := h
    exact (Reader.reads_int32 _).bind ((Reader.reads_int64 id).bind ((Reader.reads_text hname).map _))
  | disconnected id name =>
    exact (Reader.reads_int32 _).bind ((Reader.reads_int64 id).bind ((Reader.reads_text h).map _))
  | cursorMoved id object sub =>
    exact (Reader.reads_int32 _).bind ((Reader.reads_int64 id).bind ((Reader.reads_int32 object).bind
      ((Reader.reads_int32 sub).map _)))
  | closed =>
    rw [payload, ← List.append_nil (Bytes.ofInt32 _)]
    exact (Reader.reads_int32 _).bind (Reader.reads_pure _)

/-- What is taken by reading an id and a name. -/
theorem parts_of_named {f : Int64 → String → PresenceEvent} {m m' : Message} {e : PresenceEvent}
    (h : (do return f (← Reader.int64) (← Reader.text) : Reader PresenceEvent).on m = (.ok e, m')) :
    ∃ id name rest, e = f id name ∧ (Utf8.encode name).length < Bytes.lengthLimit ∧
      m.unread = Bytes.ofUInt64 id.toUInt64 ++ ((Utf8.encode name).block ++ rest) := by
  obtain ⟨id, m₁, hid, h⟩ := Reader.parts_of_on_bind_ok h
  obtain ⟨bs, hm, rfl⟩ := Reader.int64_ok hid
  obtain ⟨name, m₂, hname, h⟩ := Reader.parts_of_on_bind_ok h
  obtain ⟨hlen, rest, rfl, rfl⟩ := Reader.text_ok hname
  exact ⟨id, name, rest, (Except.ok.inj (Prod.mk.inj h).1).symm, hlen, hm⟩

theorem carriedBy_of_read {m rest : Message} {e : PresenceEvent} (h : PresenceEvent.read.inStream m = .ok (e, rest)) :
    e.CarriedBy m.unread := by
  obtain ⟨opcode, m₁, hopcode, hevent⟩ := Reader.parts_of_on_bind_ok (Reader.on_of_inStream h)
  obtain ⟨bs, hm, rfl⟩ := Reader.int32_ok hopcode
  rw [hm]
  -- one case for each opcode, and one for the numbers that are none
  split at hevent
  · next hop =>
    obtain ⟨id, name, rest', rfl, hname, rfl⟩ := parts_of_named (f := fun id name => .connected { id, name }) hevent
    refine ⟨⟨rfl, rfl, hname⟩, rest', ?_⟩
    rw [payload, EventOp.code_of_ofCode? hop, List.append_assoc, List.append_assoc]
  · next hop =>
    obtain ⟨id, name, rest', rfl, hname, rfl⟩ := parts_of_named hevent
    refine ⟨hname, rest', ?_⟩
    rw [payload, EventOp.code_of_ofCode? hop, List.append_assoc, List.append_assoc]
  · next hop =>
    obtain ⟨id, m₂, hid, hevent⟩ := Reader.parts_of_on_bind_ok hevent
    obtain ⟨cs, rfl, rfl⟩ := Reader.int64_ok hid
    obtain ⟨object, m₃, hobject, hevent⟩ := Reader.parts_of_on_bind_ok hevent
    obtain ⟨ds, rfl, rfl⟩ := Reader.int32_ok hobject
    obtain ⟨sub, m₄, hsub, hevent⟩ := Reader.parts_of_on_bind_ok hevent
    obtain ⟨rest', rfl, rfl⟩ := Reader.int32_ok hsub
    obtain rfl := Except.ok.inj (Prod.mk.inj hevent).1
    refine ⟨trivial, rest', ?_⟩
    rw [payload, EventOp.code_of_ofCode? hop, List.append_assoc, List.append_assoc, List.append_assoc]
  · next hop =>
    obtain rfl := Except.ok.inj (Prod.mk.inj hevent).1
    refine ⟨trivial, bs, ?_⟩
    rw [payload, EventOp.code_of_ofCode? hop]
  · cases hevent

/-- A message is read as the event that it carries, and fails if it carries none. -/
theorem read_iff {m : Message} {e : PresenceEvent} :
    (∃ rest, PresenceEvent.read.inStream m = .ok (e, rest)) ↔ e.CarriedBy m.unread := by
  constructor
  · rintro ⟨rest, h⟩
    exact carriedBy_of_read h
  · rintro ⟨hsayable, rest, hrest⟩
    exact ⟨_, (reads_payload hsayable).inStream hrest.symm⟩

/-! ### Histories -/

/-- Whether an event says that a user has left. -/
def leaves (id : Int64) : PresenceEvent → Bool
  | disconnected other _ => other = id
  | _ => false

/-- Object and sub id to which an event moves the cursor of a user. -/
def place? (id : Int64) : PresenceEvent → Option (Int32 × Int32)
  | cursorMoved other object sub => if other = id then some (object, sub) else none
  | _ => none

/-- What a cursor points at that has not moved. -/
def nowhere : Int32 × Int32 := (-1, 0)

/-- What the cursor of a user points at after these events. -/
def lastPlace (id : Int64) (since : List PresenceEvent) : Int32 × Int32 :=
  (since.filterMap (place? id)).getLast?.getD nowhere

/-- The entry of a user with the cursor at a place. -/
def entry (u : User) (place : Int32 × Int32) : User := { u with object := place.1, sub := place.2 }

/-- The entries that events leave in a list which has others with these ids in front.  A connection leaves one if its
user does not leave `since`. -/
def entries (front : List Int64) : List PresenceEvent → List User
  | [] => []
  | connected u :: since =>
    if since.any (leaves u.id) then entries front since
    else entry u (if u.id ∈ front then nowhere else lastPlace u.id since) :: entries (u.id :: front) since
  | _ :: since => entries front since

/-- The users that a history leaves. -/
def roster (history : List PresenceEvent) : List User := entries [] history

section Entries

variable {front : List Int64} {since : List PresenceEvent} {u : User} {e : PresenceEvent}

theorem entries_of_leaves (h : since.any (leaves u.id) = true) :
    entries front (connected u :: since) = entries front since := by
  rw [entries, if_pos h]

theorem entries_of_stays (h : ¬ since.any (leaves u.id) = true) : entries front (connected u :: since) =
    entry u (if u.id ∈ front then nowhere else lastPlace u.id since) :: entries (u.id :: front) since := by
  rw [entries, if_neg h]

theorem entries_of_ne (h : ∀ u, e ≠ connected u) : entries front (e :: since) = entries front since := by
  rw [entries]
  exact h

end Entries

/-! ### One event more -/

theorem lastPlace_concat (id : Int64) (since : List PresenceEvent) (e : PresenceEvent) :
    lastPlace id (since ++ [e]) = (place? id e).getD (lastPlace id since) := by
  rw [lastPlace, lastPlace, List.filterMap_append]
  cases hplace : place? id e <;> simp [hplace]

section Concat

variable {front : List Int64} {since : List PresenceEvent} {u : User}

/-- Who has left stays away. -/
theorem entries_concat_of_leaves (h : since.any (leaves u.id) = true) (e : PresenceEvent) :
    entries front (connected u :: since ++ [e]) = entries front (since ++ [e]) := by
  have hleaves : (since ++ [e]).any (leaves u.id) = true := by rw [List.any_append, h, Bool.true_or]
  rw [List.cons_append, entries_of_leaves hleaves]

/-- Who is there stays unless the event says otherwise. -/
theorem entries_concat_of_stays {e : PresenceEvent} (h : ¬ since.any (leaves u.id) = true)
    (he : leaves u.id e = false) : entries front (connected u :: since ++ [e]) =
      entry u (if u.id ∈ front then nowhere else (place? u.id e).getD (lastPlace u.id since)) ::
        entries (u.id :: front) (since ++ [e]) := by
  have hstays : ¬ (since ++ [e]).any (leaves u.id) = true := by
    rwa [List.any_append, List.any_cons, List.any_nil, Bool.or_false, he, Bool.or_false]
  rw [List.cons_append, entries_of_stays hstays, lastPlace_concat]

end Concat

/-- Who comes is the last. -/
theorem entries_concat_connected (front : List Int64) (history : List PresenceEvent) (u : User) :
    entries front (history ++ [connected u]) = entries front history ++ [entry u nowhere] := by
  fun_induction entries front history with
  | case1 front => simp [entries, lastPlace]
  | case2 front v since hleaves ih => rw [entries_concat_of_leaves hleaves, ih]
  | case3 front v since hstays ih =>
    rw [entries_concat_of_stays hstays rfl, ih]
    rfl
  | case4 front e since hother ih => rw [List.cons_append, entries_of_ne hother, ih]

theorem filter_entry_cons (u : User) (place : Int32 × Int32) (users : List User) (id : Int64) :
    (entry u place :: users).filter (fun u => u.id ≠ id) =
      if u.id = id then users.filter (fun u => u.id ≠ id) else entry u place :: users.filter fun u => u.id ≠ id := by
  rw [List.filter_cons]
  by_cases hid : u.id = id <;> simp [entry, hid]

/-- The entries of others do not depend on whether those of one user are in front. -/
theorem filter_entries_congr {front front' : List Int64} {id : Int64} (history : List PresenceEvent)
    (h : ∀ other, other ≠ id → (other ∈ front ↔ other ∈ front')) :
    (entries front history).filter (fun u => u.id ≠ id) = (entries front' history).filter (fun u => u.id ≠ id) := by
  induction history generalizing front front' with
  | nil => rfl
  | cons e since ih =>
    rcases e with v | _ | _ | _
    · by_cases hleaves : since.any (leaves v.id) = true
      · rw [entries_of_leaves hleaves, entries_of_leaves hleaves, ih h]
      · have hfront : ∀ other, other ≠ id → (other ∈ v.id :: front ↔ other ∈ v.id :: front') := by
          intro other hother
          rw [List.mem_cons, List.mem_cons, h other hother]
        have hrest := ih hfront
        rw [entries_of_stays hleaves, entries_of_stays hleaves, filter_entry_cons, filter_entry_cons, hrest]
        by_cases hid : v.id = id
        · rw [if_pos hid, if_pos hid]
        · rw [if_neg hid, if_neg hid]
          simp only [h v.id hid]
    · exact ih h
    · exact ih h
    · exact ih h

/-- Who leaves takes all entries along. -/
theorem entries_concat_disconnected (front : List Int64) (history : List PresenceEvent) (id : Int64) (name : String) :
    entries front (history ++ [disconnected id name]) = (entries front history).filter fun u => u.id ≠ id := by
  induction history generalizing front with
  | nil => rfl
  | cons e since ih =>
    rcases e with v | _ | _ | _
    · by_cases hleaves : since.any (leaves v.id) = true
      · rw [entries_concat_of_leaves hleaves, entries_of_leaves hleaves, ih]
      · rw [entries_of_stays hleaves, filter_entry_cons]
        by_cases hid : v.id = id
        · have hleaves' : (since ++ [disconnected id name]).any (leaves v.id) = true := by
            simp [leaves, hid]
          rw [List.cons_append, entries_of_leaves hleaves', ih, if_pos hid]
          -- what is behind has been made with the user in front, who is gone now
          exact filter_entries_congr since fun other hother => by simp [hid, hother]
        · have hother : leaves v.id (disconnected id name) = false := by simp [leaves, Ne.symm hid]
          rw [entries_concat_of_stays hleaves hother, ih, if_neg hid]
          rfl
    · exact ih front
    · exact ih front
    · exact ih front

theorem moveFirst_entry_cons (u : User) (place : Int32 × Int32) (users : List User) (id : Int64) (object sub : Int32) :
    moveFirst id object sub (entry u place :: users) =
      if u.id = id then entry u (object, sub) :: users else entry u place :: moveFirst id object sub users := rfl

/-- A move is one of the first entry of the user, unless that is in front. -/
theorem entries_concat_cursorMoved (front : List Int64) (history : List PresenceEvent) (id : Int64)
    (object sub : Int32) : entries front (history ++ [cursorMoved id object sub]) =
      if id ∈ front then entries front history else moveFirst id object sub (entries front history) := by
  fun_induction entries front history with
  | case1 front => simp [entries, moveFirst]
  | case2 front v since hleaves ih => rw [entries_concat_of_leaves hleaves, ih]
  | case3 front v since hstays ih =>
    rw [entries_concat_of_stays hstays rfl, ih, moveFirst_entry_cons]
    by_cases hid : v.id = id
    · by_cases hfront : id ∈ front
      · simp [hid, hfront]
      · simp [hid, hfront, place?]
    · have hplace : place? v.id (cursorMoved id object sub) = none := if_neg (Ne.symm hid)
      have hmem : id ∈ v.id :: front ↔ id ∈ front := by simp [Ne.symm hid]
      rw [hplace, Option.getD_none, if_neg hid]
      by_cases hfront : id ∈ front
      · rw [if_pos hfront, if_pos (hmem.mpr hfront)]
      · rw [if_neg hfront, if_neg (mt hmem.mp hfront)]
  | case4 front e since hother ih => rw [List.cons_append, entries_of_ne hother, ih]

/-- The list that is kept event by event is that of the history. -/
theorem roster_concat {e : PresenceEvent} (hsayable : e.Sayable) (hclosed : e ≠ closed) (history : List PresenceEvent) :
    roster (history ++ [e]) = e.apply (roster history) := by
  cases e with
  | connected u =>
    obtain ⟨hobject, hsub, -⟩ := hsayable
    have hentry : entry u nowhere = u := by rw [entry, nowhere, ← hobject, ← hsub]
    rw [roster, entries_concat_connected, hentry]
    rfl
  | disconnected id name => exact entries_concat_disconnected [] history id name
  | cursorMoved id object sub => exact entries_concat_cursorMoved [] history id object sub
  | closed => exact absurd rfl hclosed

/-- Somebody who is there twice and moves, somebody who leaves, and a move of somebody who has never come. -/
def sampleHistory : List PresenceEvent :=
  [.connected ⟨7, "ada", -1, 0⟩, .cursorMoved 7 3 1, .connected ⟨8, "bob", -1, 0⟩, .connected ⟨7, "ada", -1, 0⟩,
    .cursorMoved 7 17 2, .disconnected 8 "bob", .cursorMoved 9 1 0]

example : roster sampleHistory = [⟨7, "ada", 17, 2⟩, ⟨7, "ada", -1, 0⟩] := by decide

end PresenceEvent
end LevelLink
