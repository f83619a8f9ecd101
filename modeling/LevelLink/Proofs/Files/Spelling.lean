import LevelLink.Files.Path

/-!
# How a path is spelled

The segments of a path are the pieces between its slashes: they give the path again, and none has a slash in it
(`intercalate_segments`, `slash_not_mem_of_mem_segments`).  What a path names comes from its first segment, where that
tells a place (`leading`), and from the names among all its segments (`components_eq`).  A name that can be joined is
known from its segments (`isPlain_iff`), and what is joined to a directory has its names behind those of the directory
(`components_join`).
-/

namespace LevelLink.Files.Path

variable {path dir name segment : String} {front back : List String}

/-! ### Segments -/

theorem split_eq_splitOn (cs : List Char) : split cs = cs.splitOn '/' := by
  induction cs with
  | nil => rfl
  | cons c cs ih =>
    rw [split, List.splitOn_cons_eq_if_modifyHead, ih]
    by_cases hc : c = '/'
    · rw [if_pos hc, if_pos (beq_iff_eq.mpr hc)]
    · rw [if_neg hc, if_neg fun h => hc (beq_iff_eq.mp h)]
      rcases hrest : cs.splitOn '/' with _ | ⟨piece, rest⟩
      · exact absurd hrest (List.splitOn_ne_nil _ _)
      · rfl

theorem split_ne_nil (cs : List Char) : split cs ≠ [] := by
  rw [split_eq_splitOn]
  exact List.splitOn_ne_nil _ _

theorem slash_not_mem_of_mem_split {cs piece : List Char} (h : piece ∈ split cs) : '/' ∉ piece := by
  induction cs generalizing piece with
  | nil =>
    obtain rfl := List.mem_singleton.mp h
    exact List.not_mem_nil
  | cons c cs ih =>
    rw [split] at h
    split at h
    · rcases List.mem_cons.mp h with rfl | h
      · exact List.not_mem_nil
      · exact ih h
    · next hc =>
      have hpiece : '/' ≠ c := fun h => hc h.symm
      split at h
      · next first rest hrest =>
        rcases List.mem_cons.mp h with rfl | h
        · exact List.not_mem_cons_of_ne_of_not_mem hpiece (ih (hrest ▸ List.mem_cons_self))
        · exact ih (hrest ▸ List.mem_cons_of_mem _ h)
      · next hrest => exact absurd hrest (split_ne_nil cs)

theorem segments_ne_nil (path : String) : segments path ≠ [] := fun h =>
  split_ne_nil _ (List.map_eq_nil_iff.mp h)

/-- A path is its segments with a slash between each two. -/
theorem intercalate_segments (path : String) : "/".intercalate (segments path) = path := by
  have hmap : (segments path).map String.toList = path.toList.splitOn '/' := by
    rw [segments, List.map_map, split_eq_splitOn]
    exact (List.map_congr_left fun _ _ => String.toList_ofList).trans (List.map_id _)
  rw [← String.toList_inj, String.toList_intercalate, hmap]
  exact List.intercalate_splitOn '/'

/-- No segment has a slash in it. -/
theorem slash_not_mem_of_mem_segments (h : segment ∈ segments path) : '/' ∉ segment.toList := by
  obtain ⟨piece, hpiece, rfl⟩ := List.mem_map.mp h
  rw [String.toList_ofList]
  exact slash_not_mem_of_mem_split hpiece

/-- A slash parts the segments in front of it from those behind it. -/
theorem segments_append_slash_append (p q : String) : segments (p ++ "/" ++ q) = segments p ++ segments q := by
  simp only [segments, split_eq_splitOn, String.toList_append, List.append_assoc, ← List.map_append]
  rw [← List.splitOn_append_cons_self]
  rfl

/-- An absolute path has nothing in front of its first slash. -/
theorem startsWith_slash_iff (path : String) :
    path.startsWith "/" = true ↔ ∃ rest, rest ≠ [] ∧ segments path = "" :: rest := by
  rw [String.startsWith_string_iff, segments]
  rcases path.toList with _ | ⟨c, cs⟩
  · simp [split]
  · by_cases hc : c = '/'
    · subst hc
      simp [split, split_ne_nil]
    · have hprefix : ¬ "/".toList <+: c :: cs := fun h => hc (List.cons_prefix_cons.mp h).1.symm
      rw [split, if_neg hc]
      split
      all_goals simpa using hprefix

/-- Only the empty path is one empty segment. -/
theorem tail_ne_nil {rest : List String} (hne : path ≠ "") (h : segments path = "" :: rest) : rest ≠ [] := by
  rintro rfl
  refine hne ?_
  rw [← intercalate_segments path, h]
  exact String.intercalate_singleton

/-! ### What a path names -/

/-- What the first of several segments tells about the place where a path begins. -/
def leading : List String → List Component
  | [] => []
  | first :: rest =>
    if first = "." then [.current]
    else if first = "" ∧ rest ≠ [] then [.root]
    else []

theorem inner_append (front back : List String) : inner (front ++ back) = inner front ++ inner back := by
  rw [inner, inner, inner, List.filter_append, List.map_append]

theorem components_eq (path : String) : components path = leading (segments path) ++ inner (segments path) := by
  rw [components]
  split
  · next rest h =>
    rw [h]
    cases rest
    · rfl
    · simp [leading, inner]
  · next rest h =>
    rw [h]
    simp [leading, inner]
  · next hroot hcurrent =>
    obtain ⟨first, rest, h⟩ := List.exists_cons_of_ne_nil (segments_ne_nil path)
    have hfirst : ¬ (first = "" ∧ rest ≠ []) := by
      rintro ⟨rfl, -⟩
      exact hroot rest h
    rw [h, leading, if_neg fun hdot : first = "." => hcurrent rest (hdot ▸ h), if_neg hfirst]
    rfl

/-- Something behind a slash begins where the slash does. -/
theorem components_append_slash_append (p q : String) :
    components (p ++ "/" ++ q) = components (p ++ "/") ++ inner (segments q) := by
  have hslash := segments_append_slash_append p ""
  rw [String.append_empty] at hslash
  have hlead : leading (segments p ++ segments q) = leading (segments p ++ segments "") := by
    obtain ⟨first, rest, hp⟩ := List.exists_cons_of_ne_nil (segments_ne_nil p)
    simp [leading, hp, segments_ne_nil]
  rw [components_eq, components_eq, segments_append_slash_append, hslash, hlead, inner_append, inner_append]
  show _ = (_ ++ (_ ++ [])) ++ _
  rw [List.append_nil, List.append_assoc]

/-- A slash at the end of a path names nothing. -/
theorem components_append_slash (hne : path ≠ "") : components (path ++ "/") = components path := by
  have hslash := segments_append_slash_append path ""
  rw [String.append_empty] at hslash
  have hlead : leading (segments path ++ segments "") = leading (segments path) := by
    obtain ⟨first, rest, hpath⟩ := List.exists_cons_of_ne_nil (segments_ne_nil path)
    by_cases hfirst : first = ""
    · subst hfirst
      simp [leading, hpath, tail_ne_nil hne hpath]
    · simp [leading, hpath, hfirst]
  rw [components_eq, components_eq, hslash, hlead, inner_append]
  exact congrArg _ (List.append_nil _)

theorem eq_append_of_endsWith_slash (h : dir.endsWith "/" = true) : ∃ front, dir = front ++ "/" := by
  have hsuffix := String.Slice.endsWith_string_iff.mp h
  rw [String.copy_toSlice] at hsuffix
  obtain ⟨cs, hcs⟩ := hsuffix
  refine ⟨String.ofList cs, ?_⟩
  rw [← String.toList_inj, String.toList_append, String.toList_ofList, hcs]

/-- What is joined to a directory names something behind it, if it tells no place of its own. -/
theorem components_join (dir : String) (hname : leading (segments name) = []) :
    components (join dir name) = components dir ++ inner (segments name) := by
  rw [join]
  split
  · next hend =>
    rcases (Bool.or_eq_true _ _).mp hend with hempty | hslash
    · obtain rfl := String.isEmpty_iff.mp hempty
      rw [String.empty_append, components_eq name, hname]
      rfl
    · obtain ⟨front, rfl⟩ := eq_append_of_endsWith_slash hslash
      exact components_append_slash_append front name
  · next hend =>
    have hne : dir ≠ "" := by
      rintro rfl
      exact hend rfl
    rw [components_append_slash_append, components_append_slash hne]

/-! ### Plain names -/

/-- A name that leads down from the directory that it is joined to. -/
structure Descends (name : String) : Prop where
  nonempty : name ≠ ""
  relative : name.startsWith "/" = false
  unmarked : (segments name).head? ≠ some "."
  descending : ".." ∉ segments name

/-- The names in a path. -/
def names (path : String) : List String := (segments path).filter fun s => s ≠ "" ∧ s ≠ "."

theorem mem_names {n : String} : n ∈ names path ↔ n ∈ segments path ∧ n ≠ "" ∧ n ≠ "." := by
  rw [names, List.mem_filter, decide_eq_true_iff]

/-- The first segment of a name that leads down is a name itself. -/
theorem Descends.first (h : Descends name) : ∃ first rest, segments name = first :: rest ∧ first ≠ "" ∧ first ≠ "." := by
  obtain ⟨first, rest, hsegments⟩ := List.exists_cons_of_ne_nil (segments_ne_nil name)
  refine ⟨first, rest, hsegments, ?_, ?_⟩
  · rintro rfl
    have habsolute := (startsWith_slash_iff name).mpr ⟨rest, tail_ne_nil h.nonempty hsegments, hsegments⟩
    exact Bool.false_ne_true (h.relative.symm.trans habsolute)
  · rintro rfl
    exact h.unmarked (by rw [hsegments]; rfl)

theorem Descends.leading_eq (h : Descends name) : leading (segments name) = [] := by
  obtain ⟨first, rest, hsegments, hempty, hdot⟩ := h.first
  rw [hsegments, leading, if_neg hdot, if_neg fun hroot => hempty hroot.1]

theorem Descends.names_ne_nil (h : Descends name) : names name ≠ [] := by
  obtain ⟨first, rest, hsegments, hempty, hdot⟩ := h.first
  exact List.ne_nil_of_mem (mem_names.mpr ⟨hsegments ▸ List.mem_cons_self, hempty, hdot⟩)

theorem inner_of_descending (h : ".." ∉ segments path) : inner (segments path) = (names path).map .normal := by
  refine List.map_congr_left fun s hs => if_neg ?_
  rintro rfl
  exact h (mem_names.mp hs).1

theorem isPlain_iff_components (name : String) :
    isPlain name = true ↔ name ≠ "" ∧ ∀ c ∈ components name, ∃ n, c = .normal n := by
  rw [isPlain, Bool.and_eq_true, Bool.not_eq_true', String.isEmpty_eq_false_iff, List.all_eq_true]
  refine and_congr_right fun _ => forall₂_congr fun c _ => ?_
  cases c
  all_goals simp

/-- The names that can be joined are those that lead down. -/
theorem isPlain_iff (name : String) : isPlain name = true ↔ Descends name := by
  rw [isPlain_iff_components]
  constructor
  · rintro ⟨hne, hnormal⟩
    rw [components_eq] at hnormal
    refine ⟨hne, Bool.eq_false_iff.mpr fun habsolute => ?_, fun hdot => ?_, fun hparent => ?_⟩
    · obtain ⟨rest, hrest, hsegments⟩ := (startsWith_slash_iff name).mp habsolute
      obtain ⟨n, hn⟩ := hnormal .root (List.mem_append_left _ (by simp [hsegments, leading, hrest]))
      cases hn
    · obtain ⟨rest, hsegments⟩ := List.head?_eq_some_iff.mp hdot
      obtain ⟨n, hn⟩ := hnormal .current (List.mem_append_left _ (by simp [hsegments, leading]))
      cases hn
    · have hmem : Component.parent ∈ inner (segments name) :=
        List.mem_map.mpr ⟨"..", mem_names.mpr ⟨hparent, by decide, by decide⟩, if_pos rfl⟩
      obtain ⟨n, hn⟩ := hnormal .parent (List.mem_append_right _ hmem)
      cases hn
  · intro h
    refine ⟨h.nonempty, fun c hc => ?_⟩
    rw [components_eq, h.leading_eq, inner_of_descending h.descending] at hc
    obtain ⟨n, -, rfl⟩ := List.mem_map.mp hc
    exact ⟨n, rfl⟩

example : ["maps//level1/.", "./maps", "maps/../key", "/maps", ""].map isPlain = [true, false, false, false, false] := by
  decide

/-- What a name that leads down is joined to gets the names in it, of which none leads up. -/
theorem Descends.components_join (h : Descends name) (dir : String) :
    components (join dir name) = components dir ++ (names name).map .normal := by
  rw [Path.components_join dir h.leading_eq, inner_of_descending h.descending]

end LevelLink.Files.Path
