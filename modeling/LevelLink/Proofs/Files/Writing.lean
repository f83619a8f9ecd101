import LevelLink.Files.Writer
import LevelLink.Proofs.Attempts

/-!
# Writing to the end of a file

A writer that starts on an empty file holds what it was given: the content of the file, and behind it the buffer
(`Writer.Holds`).  Where there is room, writing and flushing succeed, and they change nothing of a store but the
content of that file and the room (`Store.SameTree`).
-/

namespace LevelLink.Files

/-- Bytes written at the end of a file follow what is there. -/
theorem Content.all_writeAt_length (c : Content) (bs : Bytes) :
    (c.writeAt c.length bs).all = c.all ++ bs := by
  rw [writeAt]
  by_cases hbs : bs = []
  · simp [hbs]
  · rw [if_neg (by simpa using hbs)]
    have hle : c.stored.size ≤ c.length := Nat.le_add_right _ _
    have hbefore : c.stored.extract 0 c.length = c.stored := by
      have hmax := ByteArray.extract_zero_max_size (a := c.stored) (i := c.length)
      rwa [Nat.max_eq_left hle] at hmax
    have hbehind : c.stored.extract (c.length + bs.length) c.stored.size = .empty := by
      refine ByteArray.extract_eq_empty_iff.mpr ?_
      omega
    have hgap : c.length - c.stored.size = c.zeros := Nat.add_sub_cancel_left _ _
    have hzeros : c.length - max c.stored.size (c.length + bs.length) = 0 := by omega
    rw [hbefore, hbehind, hgap, hzeros]
    simp [all]

namespace Store

/-- The stores have the same names, whatever is in the files. -/
structure SameTree (s s' : Store) : Prop where
  nodes : s'.nodes = s.nodes
  lead : s'.lead = s.lead

theorem SameTree.refl (s : Store) : SameTree s s := ⟨rfl, rfl⟩

theorem SameTree.trans {s s' s'' : Store} (h : SameTree s s') (h' : SameTree s' s'') : SameTree s s'' :=
  ⟨h'.nodes.trans h.nodes, h'.lead.trans h.lead⟩

theorem sameTree_write (s : Store) (id position : Nat) (bs : Bytes) :
    SameTree s ((write id position bs).on s).2 := ⟨rfl, rfl⟩

/-- There is room for `n` more bytes. -/
def HasRoom (s : Store) (n : Nat) : Prop := ∀ room, s.space = some room → n ≤ room

theorem HasRoom.mono {s : Store} {m n : Nat} (h : s.HasRoom n) (hle : m ≤ n) : s.HasRoom m :=
  fun room hroom => Nat.le_trans hle (h room hroom)

/-- What fits is written, and only the file and the room change. -/
theorem write_of_hasRoom {s : Store} {bs : Bytes} (h : s.HasRoom bs.length) (id position : Nat) :
    ∃ s', (write id position bs).on s = (.ok (), s') ∧ SameTree s s' ∧
      s'.content id = (s.content id).writeAt position bs ∧ ∀ n, s.HasRoom (bs.length + n) → s'.HasRoom n := by
  refine ⟨{ s.setContent id ((s.content id).writeAt position bs) with space := s.space.map (· - bs.length) },
    ?_, ⟨rfl, rfl⟩, Std.TreeMap.getD_insert_self, fun n hn room hroom => ?_⟩
  · rcases hspace : s.space with _ | room
    · simp only [write, Attempt.on_of, hspace, Nat.lt_irrefl, if_false]
    · simp only [write, Attempt.on_of, hspace, List.take_of_length_le (h room hspace), Nat.lt_irrefl, if_false]
  · obtain ⟨before, hbefore, rfl⟩ := Option.map_eq_some_iff.mp hroom
    have := hn before hbefore
    omega

end Store

namespace Writer

/-- The file and the buffer together hold `data`, and the file can be appended to. -/
structure Holds (w : Writer) (s : Store) (data : Bytes) : Prop where
  content : (s.content w.file).all ++ w.buffer = data
  position : w.position = (s.content w.file).length

variable {w : Writer} {s : Store} {data bs : Bytes} {n : Nat}

/-- Past an empty buffer bytes go to the end of the file. -/
theorem Holds.pass (h : w.Holds s data) (hbuffer : w.buffer = []) (hroom : s.HasRoom (bs.length + n)) :
    ∃ w' s', (w.pass bs).on s = (.ok w', s') ∧ w'.file = w.file ∧ w'.buffer = [] ∧ w'.Holds s' (data ++ bs) ∧
      Store.SameTree s s' ∧ s'.HasRoom n := by
  obtain ⟨s', hwrite, htree, hcontent, hkeeps⟩ :=
    Store.write_of_hasRoom (hroom.mono (Nat.le_add_right _ n)) w.file w.position
  have hall : (s'.content w.file).all = data ++ bs := by
    rw [hcontent, h.position, Content.all_writeAt_length, ← h.content, hbuffer, List.append_nil]
  refine ⟨{ w with position := w.position + bs.length }, s', ?_, rfl, hbuffer, ⟨?_, ?_⟩, htree, hkeeps n hroom⟩
  · rw [Writer.pass, Attempt.on_bind_of_ok hwrite]
    rfl
  · show (s'.content w.file).all ++ w.buffer = data ++ bs
    rw [hall, hbuffer, List.append_nil]
  · show w.position + bs.length = (s'.content w.file).length
    rw [← Content.length_all, hall, List.length_append, ← h.content, hbuffer, List.append_nil, Content.length_all,
      h.position]

/-- Flushing empties the buffer into the file. -/
theorem Holds.flush (h : w.Holds s data) (hroom : s.HasRoom (w.buffer.length + n)) :
    ∃ w' s', w.flush.on s = (.ok w', s') ∧ w'.file = w.file ∧ w'.buffer = [] ∧ w'.Holds s' data ∧
      Store.SameTree s s' ∧ s'.HasRoom n := by
  have hempty : Holds { w with buffer := [] } s (s.content w.file).all := ⟨List.append_nil _, h.position⟩
  obtain ⟨w', s', hpass, hfile, hbuffer, hholds, htree, hroom'⟩ := hempty.pass rfl hroom
  rw [h.content] at hholds
  have hon : (w.pass w.buffer).on s = (.ok { w' with buffer := w.buffer }, s') := by
    obtain ⟨u, s₁, hwrite, hpure⟩ := Attempt.parts_of_on_bind_ok hpass
    obtain ⟨hw, rfl⟩ := Prod.mk.inj hpure
    obtain rfl := Except.ok.inj hw
    rw [Writer.pass, Attempt.on_bind_of_ok hwrite]
    rfl
  refine ⟨{ w' with buffer := [] }, s', ?_, hfile, rfl, ⟨?_, hholds.position⟩, htree, hroom'⟩
  · rw [Writer.flush, Attempt.on_bind_of_ok hon]
    rfl
  · rw [← hholds.content, hbuffer]

theorem sameTree_pass (w : Writer) (bs : Bytes) (s : Store) : Store.SameTree s ((w.pass bs).on s).2 := by
  have htree := Store.sameTree_write s w.file w.position bs
  rw [Writer.pass, Attempt.on_bind]
  rcases hwrite : (Store.write w.file w.position bs).on s with ⟨e | u, s'⟩
  all_goals
    rw [hwrite] at htree
    exact htree

/-- Flushing keeps the names even where it fails. -/
theorem sameTree_flush (w : Writer) (s : Store) : Store.SameTree s (w.flush.on s).2 := by
  have htree := sameTree_pass w w.buffer s
  rw [Writer.flush, Attempt.on_bind]
  rcases hpass : (w.pass w.buffer).on s with ⟨e | w', s'⟩
  all_goals
    rw [hpass] at htree
    exact htree

/-- Bytes for which the buffer has been made ready are appended. -/
theorem Holds.append (h : w.Holds s data) (hlarge : capacity ≤ bs.length → w.buffer = [])
    (hroom : s.HasRoom (w.buffer.length + (bs.length + n))) :
    ∃ w' s', (if capacity ≤ bs.length then w.pass bs else pure { w with buffer := w.buffer ++ bs }).on s =
        (.ok w', s') ∧ w'.file = w.file ∧ w'.Holds s' (data ++ bs) ∧ Store.SameTree s s' ∧
      s'.HasRoom (w'.buffer.length + n) := by
  by_cases hle : capacity ≤ bs.length
  · have hbuffer := hlarge hle
    rw [hbuffer, List.length_nil, Nat.zero_add] at hroom
    obtain ⟨w', s', hpass, hfile, hbuffer', hholds, htree, hroom'⟩ := h.pass hbuffer hroom
    refine ⟨w', s', ?_, hfile, hholds, htree, ?_⟩
    · rw [if_pos hle, hpass]
    · rw [hbuffer', List.length_nil, Nat.zero_add]
      exact hroom'
  · refine ⟨{ w with buffer := w.buffer ++ bs }, s, ?_, rfl, ⟨?_, h.position⟩, .refl s, ?_⟩
    · rw [if_neg hle]
      rfl
    · show (s.content w.file).all ++ (w.buffer ++ bs) = data ++ bs
      rw [← List.append_assoc, h.content]
    · rw [List.length_append, Nat.add_assoc]
      exact hroom

/-- Writing appends.  The buffer is emptied first if it would be too full. -/
theorem Holds.write (h : w.Holds s data) (hroom : s.HasRoom (w.buffer.length + (bs.length + n))) :
    ∃ w' s', (w.write bs).on s = (.ok w', s') ∧ w'.file = w.file ∧ w'.Holds s' (data ++ bs) ∧
      Store.SameTree s s' ∧ s'.HasRoom (w'.buffer.length + n) := by
  rw [Writer.write]
  by_cases hfull : capacity < w.buffer.length + bs.length
  · obtain ⟨w₁, s₁, hflush, hfile₁, hbuffer₁, hholds₁, htree₁, hroom₁⟩ := h.flush hroom
    have hroom₂ : s₁.HasRoom (w₁.buffer.length + (bs.length + n)) := by
      rw [hbuffer₁, List.length_nil, Nat.zero_add]
      exact hroom₁
    obtain ⟨w', s', happend, hfile, hholds, htree, hroom'⟩ := hholds₁.append (fun _ => hbuffer₁) hroom₂
    refine ⟨w', s', ?_, hfile.trans hfile₁, hholds, htree₁.trans htree, hroom'⟩
    rw [if_pos hfull, Attempt.on_bind_of_ok hflush, happend]
  · rw [if_neg hfull, pure_bind]
    exact h.append (fun hle => List.eq_nil_of_length_eq_zero (by omega)) hroom

end Writer
end LevelLink.Files
