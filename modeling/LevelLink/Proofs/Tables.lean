import Std.Data.TreeMap

/-!
# Tables

What a table holds under a key after another one was put in or taken out.
-/

namespace LevelLink

variable {κ ν : Type} {cmp : κ → κ → Ordering} [DecidableEq κ] [Std.TransCmp cmp] [Std.LawfulEqCmp cmp]

theorem getElem?_insert_ite (t : Std.TreeMap κ ν cmp) (k j : κ) (v : ν) :
    (t.insert k v)[j]? = if k = j then some v else t[j]? := by
  simp only [Std.TreeMap.getElem?_insert, Std.LawfulEqCmp.compare_eq_iff_eq]

theorem getElem?_erase_ite (t : Std.TreeMap κ ν cmp) (k j : κ) :
    (t.erase k)[j]? = if k = j then none else t[j]? := by
  simp only [Std.TreeMap.getElem?_erase, Std.LawfulEqCmp.compare_eq_iff_eq]

omit [DecidableEq κ] in
/-- Tables that hold the same under every key list the same. -/
theorem toList_eq_of_getElem?_eq {t₁ t₂ : Std.TreeMap κ ν cmp} (h : ∀ k : κ, t₁[k]? = t₂[k]?) :
    t₁.toList = t₂.toList :=
  Std.TreeMap.equiv_iff_toList_eq.mp (.of_forall_constGet?_eq h)

omit [DecidableEq κ] [Std.LawfulEqCmp cmp] in
theorem getElem?_eq_of_toList_eq {t₁ t₂ : Std.TreeMap κ ν cmp} (h : t₁.toList = t₂.toList) (k : κ) : t₁[k]? = t₂[k]? :=
  (Std.TreeMap.equiv_iff_toList_eq.mpr h).getElem?_eq

end LevelLink
