import LevelLink.Client.Config

/-!
# Records of settings

A record of settings is an object with named members.  `JsonValue.Gives` says what an object makes of the settings it
may name: the order of its members, the spelling of their keys and any members under other keys do not count.  Such an
object is read as the settings it gives (`JsonValue.settings?_of_gives`), and an object in which one of the names stands
twice is not read at all (`JsonValue.settings?_of_repeats`).
-/

namespace LevelLink
namespace JsonValue

/-! ### Objects and what they give -/

/-- A member of an object with the text of its key. -/
def keyed? (m : JsonText × JsonValue) : Option (String × JsonValue) := m.1.text?.map (·, m.2)

/-- The value is an object with these members in some order, their keys spelled in some way. -/
def Has (v : JsonValue) (members : List (String × JsonValue)) : Prop :=
  ∃ (written : List (JsonText × JsonValue)) (named : List (String × JsonValue)), v = .object written ∧
    written.map keyed? = named.map some ∧ named.Perm members

/-- The members for the settings that are given. -/
def given (settings : List (String × Option JsonValue)) : List (String × JsonValue) :=
  settings.filterMap fun s => s.2.map (s.1, ·)

/-- The value is an object with the settings that are given and perhaps with members under other names. -/
def Gives (v : JsonValue) (settings : List (String × Option JsonValue)) : Prop :=
  ∃ others : List (String × JsonValue), (∀ m ∈ others, m.1 ∉ settings.map Prod.fst) ∧ v.Has (given settings ++ others)

/-- The value is an object in which one of the names stands twice. -/
def Repeats (v : JsonValue) (names : List String) : Prop :=
  ∃ written, v = .object written ∧ ∃ name ∈ names, 1 < written.countP fun m => m.1.text? = some name

/-- The record gives `w` for the setting called `name`: under this name, or in its place. -/
def Holds (v : JsonValue) (names : List String) (name : String) (w : JsonValue) : Prop :=
  (∃ written k, v = .object written ∧ (k, w) ∈ written ∧ k.text? = some name) ∨
    (∃ (items : List JsonValue) (i : Nat), v = .array items ∧ names[i]? = some name ∧ items[i]? = some w)

variable {v w : JsonValue} {names : List String} {name : String}

/-- The order of the members does not count. -/
theorem Has.perm {members members' : List (String × JsonValue)} (h : v.Has members) (hperm : members.Perm members') :
    v.Has members' := by
  obtain ⟨written, named, hv, hkeys, hnamed⟩ := h
  exact ⟨written, named, hv, hkeys, hnamed.trans hperm⟩

/-! ### Reading by name -/

/-- What members give for a name, if it does not stand twice. -/
def given? (named : List (String × JsonValue)) (name : String) : Option (Option JsonValue) :=
  match named.filter fun m => m.1 == name with
  | [] => some none
  | [m] => some (some m.2)
  | _ => none

theorem mapM_eq_some_iff {α β : Type} {f : α → Option β} {as : List α} {bs : List β} :
    as.mapM f = some bs ↔ as.map f = bs.map some := by
  induction as generalizing bs with
  | nil => cases bs <;> simp
  | cons a as ih =>
    cases bs with
    | nil => simp [Option.bind_eq_some_iff]
    | cons b bs => simp [← ih, Option.bind_eq_some_iff]

theorem membersByName?_eq_some_iff {written : List (JsonText × JsonValue)} {values : List (Option JsonValue)} :
    membersByName? names written = some values ↔
      ∃ named, written.map keyed? = named.map some ∧ names.map (given? named) = values.map some := by
  have heq : membersByName? names written = (written.mapM keyed?).bind fun named => names.mapM (given? named) := by
    unfold membersByName?
    congr 2
    funext m
    exact Option.map_eq_bind.symm
  simp only [heq, Option.bind_eq_some_iff, mapM_eq_some_iff]

/-- What a name is given does not depend on the order of the members. -/
theorem given?_perm {named named' : List (String × JsonValue)} (h : named.Perm named') (name : String) :
    given? named name = given? named' name := by
  have hfilter := h.filter fun m => m.1 == name
  unfold given?
  generalize named.filter (fun m => m.1 == name) = found at hfilter ⊢
  generalize named'.filter (fun m => m.1 == name) = found' at hfilter ⊢
  match found, found' with
  | [], found' => rw [hfilter.nil_eq]
  | [m], found' => rw [List.singleton_perm.mp hfilter]
  | _ :: _ :: _, _ :: _ :: _ => rfl
  | _ :: _ :: _, [] | _ :: _ :: _, [_] => cases hfilter.length_eq

/-! ### Records that are read -/

theorem given_cons (s : String × Option JsonValue) (settings : List (String × Option JsonValue)) :
    given (s :: settings) = (s.2.map (s.1, ·)).toList ++ given settings := by
  rw [given, List.filterMap_cons]
  cases s.2 <;> rfl

theorem mem_map_of_mem_given {settings : List (String × Option JsonValue)} {m : String × JsonValue}
    (h : m ∈ given settings) : m.1 ∈ settings.map Prod.fst := by
  obtain ⟨s, hs, hm⟩ := List.mem_filterMap.mp h
  obtain ⟨w, -, rfl⟩ := Option.map_eq_some_iff.mp hm
  exact List.mem_map_of_mem hs

/-- Among the members for distinct settings those under one name are what is given for it. -/
theorem filter_given {settings : List (String × Option JsonValue)} {value : Option JsonValue}
    (hnodup : (settings.map Prod.fst).Nodup) (hmem : (name, value) ∈ settings) :
    ((given settings).filter fun m => m.1 == name) = (value.map (name, ·)).toList := by
  induction settings with
  | nil => cases hmem
  | cons s settings ih =>
    obtain ⟨hs, hnodup⟩ := List.nodup_cons.mp hnodup
    rw [given_cons, List.filter_append]
    rcases List.mem_cons.mp hmem with rfl | hmem
    · have hnone : ((given settings).filter fun m => m.1 == name) = [] :=
        List.filter_eq_nil_iff.mpr fun m hm hname => hs (beq_iff_eq.mp hname ▸ mem_map_of_mem_given hm)
      rw [hnone]
      cases value <;> simp
    · have hne : s.1 ≠ name := fun heq => hs (heq ▸ List.mem_map_of_mem hmem)
      rw [ih hnodup hmem]
      cases s.2 <;> simp [hne]

/-- An object is read as the settings it gives. -/
theorem settings?_of_gives {settings : List (String × Option JsonValue)} (h : v.Gives settings)
    (hnodup : (settings.map Prod.fst).Nodup) :
    settings? (settings.map Prod.fst) v = some (settings.map Prod.snd) := by
  obtain ⟨others, hothers, written, named, rfl, hkeys, hperm⟩ := h
  refine membersByName?_eq_some_iff.mpr ⟨named, hkeys, ?_⟩
  rw [List.map_map, List.map_map]
  refine List.map_congr_left fun s hs => ?_
  have hnone : (others.filter fun m => m.1 == s.1) = [] :=
    List.filter_eq_nil_iff.mpr fun m hm hname => hothers m hm (beq_iff_eq.mp hname ▸ List.mem_map_of_mem hs)
  have hfilter := filter_given hnodup hs
  rw [Function.comp_apply, Function.comp_apply, given?_perm hperm, given?, List.filter_append, hnone, hfilter]
  cases s.2 <;> rfl

/-! ### Records that are not read -/

/-- An object in which a name stands twice is not read. -/
theorem settings?_of_repeats (h : v.Repeats names) : settings? names v = none := by
  obtain ⟨written, rfl, name, hname, htwice⟩ := h
  refine Option.eq_none_iff_forall_ne_some.mpr fun values hvalues => ?_
  obtain ⟨named, hkeys, hgiven⟩ := membersByName?_eq_some_iff.mp hvalues
  have hcount : 1 < (named.filter fun m => m.1 == name).length := by
    rw [← List.countP_eq_length_filter]
    calc 1 < written.countP fun m => m.1.text? = some name := htwice
      _ = (written.map keyed?).countP fun m? => m?.map Prod.fst = some name := by
        rw [List.countP_map]
        exact List.countP_congr fun m _ => by simp [keyed?, Function.comp_def]
      _ = (named.map some).countP fun m? => m?.map Prod.fst = some name := by rw [hkeys]
      _ = named.countP fun m => m.1 == name := by
        rw [List.countP_map]
        exact List.countP_congr fun m _ => by simp
  have hread : given? named name ∈ values.map some := hgiven ▸ List.mem_map_of_mem hname
  obtain ⟨value, -, hvalue⟩ := List.mem_map.mp hread
  unfold given? at hvalue
  split at hvalue
  case h_1 hnil => simp [hnil] at hcount
  case h_2 m hone => simp [hone] at hcount
  case h_3 => cases hvalue

/-- A name is given the value of its member. -/
theorem given?_of_mem {named : List (String × JsonValue)} {value : Option JsonValue} (hmem : (name, w) ∈ named)
    (h : given? named name = some value) : value = some w := by
  have hfilter : (name, w) ∈ named.filter fun m => m.1 == name := List.mem_filter.mpr ⟨hmem, beq_self_eq_true name⟩
  unfold given? at h
  split at h
  case h_1 hnil =>
    rw [hnil] at hfilter
    cases hfilter
  case h_2 m hone =>
    rw [hone, List.mem_singleton] at hfilter
    subst hfilter
    exact (Option.some.inj h).symm
  case h_3 => cases h

/-- Where a record is read, a setting has the value that the record holds for it. -/
theorem getElem?_settings {values : List (Option JsonValue)} {i : Nat} (h : settings? names v = some values)
    (hw : v.Holds names name w) (hnodup : names.Nodup) (hi : names[i]? = some name) :
    values[i]? = some (some w) := by
  rcases hw with ⟨written, k, rfl, hmem, hk⟩ | ⟨items, j, rfl, hj, hitem⟩
  · obtain ⟨named, hkeys, hgiven⟩ := membersByName?_eq_some_iff.mp h
    have hnamed : (name, w) ∈ named := by
      have hsome : some (name, w) ∈ named.map some := hkeys ▸ List.mem_map.mpr ⟨(k, w), hmem, by simp [keyed?, hk]⟩
      simpa using hsome
    have hread : (values.map some)[i]? = some (given? named name) := by rw [← hgiven, List.getElem?_map, hi]; rfl
    rw [List.getElem?_map, Option.map_eq_some_iff] at hread
    obtain ⟨value, hvalue, hgiven⟩ := hread
    rw [hvalue, given?_of_mem hnamed hgiven.symm]
  · obtain rfl : i = j := (List.getElem?_inj (List.getElem?_eq_some_iff.mp hi).1 hnodup).mp (hi.trans hj.symm)
    rw [settings?] at h
    split at h
    case isFalse => cases h
    case isTrue =>
      cases h
      rw [List.getElem?_append_left (by simpa using (List.getElem?_eq_some_iff.mp hitem).1), List.getElem?_map, hitem]
      rfl

end JsonValue
end LevelLink
