import LevelLink.Proofs.Files.Writing

/-!
# Making and removing a name

`Store.Leads` says that the directory of a path is there and how its last name is called; it depends on the
directories alone, so it outlasts what happens to files.  A path for which a file was made leads to that file
(`Store.Holds`), and to nothing once it is removed.
-/

namespace LevelLink.Files.Store

variable {s s' : Store} {path : String} {dir : List String} {name : String} {id : Nat}

/-- The path is that of `name` in the directory at `dir`, which is there. -/
structure Leads (s : Store) (path : String) (dir : List String) (name : String) : Prop where
  checked : s.checkPath path = .ok ()
  ending : Path.ending path = .name
  way : ∃ front, Path.components path = front ++ [.normal name] ∧ s.walk front = .ok ⟨.inside dir, .directory⟩

/-- The path leads to the file `id`. -/
structure Holds (s : Store) (path : String) (id : Nat) : Prop where
  leads : ∃ dir name, s.Leads path dir name ∧ name.utf8ByteSize ≤ maxName ∧
    s.nodes[dir ++ [name]]? = some (.file id)

/-! ### Walks -/

/-- A walk that comes to a directory sets out from one: nothing else has something behind it. -/
theorem node_of_foldlM_next {cs : List Component} {spot : Spot} {place : Place}
    (h : cs.foldlM s.next spot = .ok ⟨place, .directory⟩) : spot.node = .directory := by
  cases cs with
  | nil =>
    obtain rfl := Except.ok.inj h
    rfl
  | cons c cs =>
    rcases spot with ⟨p, _ | id⟩
    · rfl
    · cases h

section Directories

variable (hdirs : ∀ way : List String, s.nodes[way]? = some .directory → s'.nodes[way]? = some .directory)
include hdirs

theorem next_of_directories {spot : Spot} {c : Component} {place : Place}
    (h : s.next spot c = .ok ⟨place, .directory⟩) : s'.next spot c = .ok ⟨place, .directory⟩ := by
  rcases spot with ⟨p, _ | id⟩
  · cases c with
    | normal name =>
      simp only [next, lookup] at h ⊢
      split at h
      · cases h
      · next hshort =>
        rw [if_neg hshort]
        cases p with
        | outside => cases h
        | inside way =>
          simp only at h ⊢
          rcases hfound : s.nodes[way ++ [name]]? with _ | node
          · rw [hfound] at h
            cases h
          · rw [hfound] at h
            obtain ⟨rfl, rfl⟩ := Spot.mk.inj (Except.ok.inj h)
            rw [hdirs _ hfound]
    | _ => exact h
  · cases h

/-- A walk to a directory stays possible as long as the directories stay. -/
theorem foldlM_next_of_directories (cs : List Component) {spot : Spot} {place : Place}
    (h : cs.foldlM s.next spot = .ok ⟨place, .directory⟩) :
    cs.foldlM s'.next spot = .ok ⟨place, .directory⟩ := by
  induction cs generalizing spot with
  | nil => exact h
  | cons c cs ih =>
    rw [List.foldlM_cons] at h ⊢
    rcases hnext : s.next spot c with e | ⟨p, node⟩
    · rw [hnext] at h
      cases h
    · rw [hnext] at h
      obtain rfl : node = .directory := node_of_foldlM_next h
      rw [next_of_directories hdirs hnext]
      exact ih h

end Directories

/-- A `.` at the end of a walk asks for a directory. -/
theorem walk_of_walk_current {cs : List Component} {spot : Spot} (h : s.walk (cs ++ [.current]) = .ok spot) :
    s.walk cs = .ok ⟨spot.place, .directory⟩ := by
  rw [walk, List.foldlM_append] at h
  rcases hwalk : cs.foldlM s.next {} with e | ⟨place, node⟩
  · rw [hwalk] at h
    cases h
  · rw [hwalk] at h
    change s.next ⟨place, node⟩ .current >>= pure = _ at h
    cases node with
    | directory =>
      obtain rfl := Except.ok.inj h
      rw [walk, hwalk]
    | file id => cases h

theorem Leads.of_directories (h : s.Leads path dir name)
    (hdirs : ∀ way : List String, s.nodes[way]? = some .directory → s'.nodes[way]? = some .directory)
    (hlead : s'.lead = s.lead) : s'.Leads path dir name := by
  obtain ⟨hchecked, hending, front, hcomponents, hwalk⟩ := h
  refine ⟨?_, hending, front, hcomponents, foldlM_next_of_directories hdirs front hwalk⟩
  rw [checkPath, pathLength, hlead]
  exact hchecked

theorem Leads.spot_eq (h : s.Leads path dir name) :
    s.spot path = (s.lookup (.inside dir) name).mapError .system := by
  obtain ⟨hchecked, hending, front, hcomponents, hwalk⟩ := h
  have hlast : s.walk (Path.components path ++ []) = s.lookup (.inside dir) name := by
    rw [List.append_nil, hcomponents, walk, List.foldlM_append]
    rw [walk] at hwalk
    rw [hwalk]
    show (s.lookup (.inside dir) name >>= pure) = _
    rw [bind_pure]
  rw [spot, hchecked, hending]
  exact congrArg (Except.mapError IoError.system) hlast

/-! ### A file that was made -/

theorem lookup_of_getElem? (hshort : name.utf8ByteSize ≤ maxName) :
    s.lookup (.inside dir) name =
      match s.nodes[dir ++ [name]]? with
      | some node => .ok ⟨.inside (dir ++ [name]), node⟩
      | none => .error .noEntry := by
  exact if_neg (Nat.not_lt.mpr hshort)

theorem Holds.spot_eq (h : s.Holds path id) : ∃ way, s.spot path = .ok ⟨.inside way, .file id⟩ := by
  obtain ⟨dir, name, hleads, hshort, hnode⟩ := h
  refine ⟨dir ++ [name], ?_⟩
  rw [hleads.spot_eq, lookup_of_getElem? hshort, hnode]
  rfl

theorem Holds.find_eq (h : s.Holds path id) : s.find path = .ok (.file id) := by
  obtain ⟨way, hspot⟩ := h.spot_eq
  rw [find, hspot]
  rfl

theorem Holds.of_sameTree (h : s.Holds path id) (htree : SameTree s s') : s'.Holds path id := by
  obtain ⟨dir, name, hleads, hshort, hnode⟩ := h
  refine ⟨dir, name, hleads.of_directories (fun way hway => ?_) htree.lead, hshort, ?_⟩
  · rw [htree.nodes]
    exact hway
  · rw [htree.nodes]
    exact hnode

/-- What is removed is not there any more. -/
theorem Holds.find_remove (h : s.Holds path id) : (s.remove path).find path = .error (.system .noEntry) := by
  obtain ⟨dir, name, hleads, hshort, hnode⟩ := h
  have hspot : s.spot path = .ok ⟨.inside (dir ++ [name]), .file id⟩ := by
    rw [hleads.spot_eq, lookup_of_getElem? hshort, hnode]
    rfl
  have hremove : s.remove path = { s with nodes := s.nodes.erase (dir ++ [name]) } := by
    rw [remove, hspot]
  have hleads' : (s.remove path).Leads path dir name := by
    rw [hremove]
    refine hleads.of_directories (fun way hway => ?_) rfl
    have hne : dir ++ [name] ≠ way := by
      rintro rfl
      rw [hnode] at hway
      cases hway
    rw [Std.TreeMap.getElem?_erase, if_neg fun h => hne (Std.LawfulEqCmp.eq_of_compare h)]
    exact hway
  rw [find, hleads'.spot_eq, lookup_of_getElem? hshort, hremove, Std.TreeMap.getElem?_erase_self]
  rfl

/-- A path that leads somewhere is short. -/
theorem utf8ByteSize_lt_of_find {node : Node} (h : s.find path = .ok node) : path.utf8ByteSize < maxPath := by
  rw [find] at h
  rcases hspot : s.spot path with e | spot
  · rw [hspot] at h
    cases h
  · obtain ⟨_, hchecked, -⟩ := parts_of_bind_ok hspot
    have hlength : path.utf8ByteSize ≤ s.pathLength path := by
      rw [pathLength]
      split
      · exact Nat.le_refl _
      · exact Nat.le_add_left _ _
    rw [checkPath] at hchecked
    split at hchecked
    · cases hchecked
    · split at hchecked
      · cases hchecked
      · omega

theorem utf8ByteSize_le_join (dir name : String) : name.utf8ByteSize ≤ (Path.join dir name).utf8ByteSize := by
  rw [Path.join]
  split
  · rw [String.utf8ByteSize_append]
    omega
  · rw [String.utf8ByteSize_append]
    omega

/-! ### Making a file -/

theorem walk_of_directory {cs : List Component} {place : Place}
    (h : (Spot.place <$> s.walk (cs ++ [.current])).mapError IoError.system = .ok place) :
    s.walk cs = .ok ⟨place, .directory⟩ := by
  rcases hwalk : s.walk (cs ++ [.current]) with e | spot
  · rw [hwalk] at h
    cases h
  · rw [hwalk] at h
    obtain rfl := Except.ok.inj h
    exact walk_of_walk_current hwalk

/-- The place for a file is a name in a directory that is there. -/
theorem findForCreate_ok {way : List String} {found : Option Nat} (h : s.findForCreate path = .ok (way, found)) :
    ∃ dir name, s.Leads path dir name ∧ name.utf8ByteSize ≤ maxName ∧ way = dir ++ [name] ∧
      s.nodes[way]? = found.map .file := by
  obtain ⟨_, hchecked, h⟩ := parts_of_bind_ok h
  dsimp only at h
  split at h
  · next name hlast hending =>
    obtain ⟨place, hdir, h⟩ := parts_of_bind_ok h
    obtain ⟨front, hcomponents⟩ := List.getLast?_eq_some_iff.mp hlast
    rw [hcomponents, List.dropLast_concat] at hdir
    have hwalk := walk_of_directory hdir
    by_cases hshort : name.utf8ByteSize ≤ maxName
    · cases place with
      | outside =>
        rw [lookup, if_neg (Nat.not_lt.mpr hshort)] at h
        cases h
      | inside dir =>
        have hleads : s.Leads path dir name := ⟨hchecked, hending, front, hcomponents, hwalk⟩
        rw [lookup_of_getElem? hshort] at h
        rcases hnode : s.nodes[dir ++ [name]]? with _ | _ | id
        all_goals
          rw [hnode] at h
          cases h
          try exact ⟨dir, name, hleads, hshort, rfl, hnode⟩
    · have hlong : s.lookup place name = .error .nameTooLong := if_pos (Nat.lt_of_not_le hshort)
      rw [hlong] at h
      cases h
  · obtain ⟨_, -, h⟩ := parts_of_bind_ok h
    cases h
  · obtain ⟨_, -, h⟩ := parts_of_bind_ok h
    cases h

/-- A file that was made is empty and found under its path. -/
theorem create_ok (h : s.create path = .ok (id, s')) :
    s'.Holds path id ∧ s'.content id = {} ∧ s'.space = s.space := by
  obtain ⟨⟨way, found⟩, hfind, h⟩ := parts_of_bind_ok h
  obtain ⟨dir, name, hleads, hshort, rfl, hnode⟩ := findForCreate_ok hfind
  cases found with
  | some id' =>
    obtain ⟨rfl, rfl⟩ := Prod.mk.inj (Except.ok.inj h)
    exact ⟨⟨dir, name, hleads.of_directories (fun _ hway => hway) rfl, hshort, hnode⟩,
      Std.TreeMap.getD_insert_self, rfl⟩
  | none =>
    obtain ⟨rfl, rfl⟩ := Prod.mk.inj (Except.ok.inj h)
    refine ⟨⟨dir, name, hleads.of_directories (fun way hway => ?_) rfl, hshort, Std.TreeMap.getElem?_insert_self⟩,
      Std.TreeMap.getD_insert_self, rfl⟩
    have hne : dir ++ [name] ≠ way := by
      rintro rfl
      rw [hnode] at hway
      cases hway
    show (s.nodes.insert (dir ++ [name]) (.file s.nextFile))[way]? = _
    rw [Std.TreeMap.getElem?_insert, if_neg fun h => hne (Std.LawfulEqCmp.eq_of_compare h)]
    exact hway

/-- Directories take no room. -/
theorem space_createDirsFrom (place : Place) (cs : List Component) (s : Store) :
    (createDirsFrom place cs s).2.space = s.space := by
  induction cs generalizing place s with
  | nil => rfl
  | cons c cs ih =>
    unfold createDirsFrom
    split
    · exact ih _ _
    · rfl
    · exact ih _ _
    · rfl

theorem createDirs_ok (h : s.createDirs path = (.ok (), s')) : s'.space = s.space := by
  rw [createDirs] at h
  split at h
  · cases h
  · obtain ⟨-, rfl⟩ := Prod.mk.inj h
    exact space_createDirsFrom _ _ _

/-- The file of a path can be made, with the directories above it, and `n` bytes can be written then. -/
structure Takes (s : Store) (path : String) (n : Nat) : Prop where
  made : ∃ s₁ s₂ id, s.createDirs (Path.parent path) = (.ok (), s₁) ∧ s₁.create path = .ok (id, s₂)
  room : s.HasRoom n

/-- Whether a file can be made is found by trying. -/
theorem takes_of_isOk (hdirs : (s.createDirs (Path.parent path)).1 = .ok ())
    (hcreate : ((s.createDirs (Path.parent path)).2.create path).isOk = true) {n : Nat} (hroom : s.HasRoom n) :
    s.Takes path n := by
  refine ⟨?_, hroom⟩
  rcases hparent : s.createDirs (Path.parent path) with ⟨result, s₁⟩
  rw [hparent] at hdirs hcreate
  obtain rfl : result = .ok () := hdirs
  rcases hmade : s₁.create path with e | ⟨id, s₂⟩
  · rw [hmade] at hcreate
    cases hcreate
  · exact ⟨s₁, s₂, id, rfl, hmade⟩

end LevelLink.Files.Store
