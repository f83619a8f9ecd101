import LevelLink.Proofs.Files.Spelling
import LevelLink.Proofs.Transfer.Endpoint
import LevelLink.Transfer.Download
import LevelLink.Transfer.Upload

/-!
# Where the name of a transfer leads

A name that is resolved leads to something below the directory (`Transfer.place_of_resolve`): its path has the components
of the directory and then names (`Transfer.resolve_eq_ok_iff`, `Path.Descends.components_join`), and a walk along names
only goes down (`Store.place_of_walk_names`).  Any other name is refused before anything is done about the transfer, so
the session stays as it is.  Main statement: `Transfer.resolve_confined`.
-/

namespace LevelLink

open Files

/-! ### Walking along names -/

/-- A walk along names goes down from where it sets out. -/
theorem Files.Store.place_of_walk_names {s : Store} {way names : List String} {spot spot' : Spot}
    (hspot : spot.place = .inside way) (h : (names.map Component.normal).foldlM s.next spot = .ok spot') :
    spot'.place = .inside (way ++ names) := by
  induction names generalizing way spot with
  | nil =>
    obtain rfl := Except.ok.inj h
    rw [hspot, List.append_nil]
  | cons name names ih =>
    rw [List.map_cons, List.foldlM_cons] at h
    obtain ⟨next, hnext, h⟩ := parts_of_bind_ok h
    rw [List.append_cons]
    refine ih ?_ h
    rcases spot with ⟨place, _ | id⟩
    · obtain rfl : place = .inside way := hspot
      simp only [Store.next, Store.lookup] at hnext
      split at hnext
      · cases hnext
      · split at hnext
        · obtain rfl := Except.ok.inj hnext
          rfl
        · cases hnext
    · cases hnext

namespace Transfer

variable {υ : Type} {dir name path : String} {way : List String}

theorem resolve_eq_ok_iff (dir name path : String) :
    resolve dir name = .ok path ↔ Path.Descends name ∧ path = Path.join dir name := by
  rw [resolve, ← Path.isPlain_iff]
  split
  · next h => simp [h, eq_comm]
  · next h => simp [h]

/-- What a resolved name leads to lies below the directory. -/
theorem place_of_resolve {files : Store} {spot : Spot} (h : resolve dir name = .ok path)
    (hdir : files.walk (Path.components dir) = .ok ⟨.inside way, .directory⟩)
    (hwalk : files.walk (Path.components path) = .ok spot) :
    spot.place = .inside (way ++ Path.names name) := by
  obtain ⟨hname, rfl⟩ := (resolve_eq_ok_iff dir name path).mp h
  rw [hname.components_join, Store.walk, List.foldlM_append] at hwalk
  rw [Store.walk] at hdir
  rw [hdir] at hwalk
  exact Store.place_of_walk_names rfl hwalk

/-! ### Refused names -/

theorem resolve_of_not_descends (h : ¬ Path.Descends name) : ∃ text, ∀ dir,
    resolve dir name = .error (.io (.custom .invalidInput text)) := by
  rw [← Path.isPlain_iff] at h
  exact ⟨_, fun dir => if_neg h⟩

theorem download_of_resolve_error {d : DownloadStream} {s : Session υ} {e : StreamError} (hidle : d.isBusy s = false)
    (h : resolve d.dir name = .error e) (checksum : Option String) (completion : Completion υ) :
    (d.download name checksum completion).on s = (.error e, s) := by
  rw [DownloadStream.download, Attempt.on_bind_of_ok (Attempt.on_get s), if_neg (Bool.eq_false_iff.mp hidle), h]
  exact Attempt.on_bind_of_error (Attempt.on_lift _ s) _

theorem upload_of_resolve_error {u : UploadStream} {s : Session υ} {e : StreamError} (hidle : u.isBusy s = false)
    (hsend : s.world.canSend = true) (h : resolve u.dir name = .error e) (completion : Completion υ) :
    (u.upload name completion).on s = (.error e, s) := by
  rw [UploadStream.upload, Attempt.on_bind_of_ok (Attempt.on_get s), if_neg (Bool.eq_false_iff.mp hidle),
    Attempt.on_bind_of_ok (Attempt.on_get s), hsend, h]
  exact Attempt.on_bind_of_error (Attempt.on_lift _ s) _

/-- Names cannot leave the directory of a transfer.  Exactly those that lead down are resolved, and then the path has the
components of the directory and behind them one name or more, of which none leads up or to the root.  For another name
an idle stream gives an error and leaves the session as it is. -/
theorem resolve_confined (dir name : String) :
    ((∃ path, resolve dir name = .ok path) ↔ Path.Descends name) ∧
    (∀ path, resolve dir name = .ok path → ∃ names : List String, names ≠ [] ∧
      Path.components path = Path.components dir ++ names.map .normal ∧
      ∀ n ∈ names, n ≠ "" ∧ n ≠ "." ∧ n ≠ ".." ∧ '/' ∉ n.toList) ∧
    (¬ Path.Descends name → ∃ text,
      (∀ (d : DownloadStream) (checksum : Option String) (completion : Completion υ) (s : Session υ),
        d.isBusy s = false →
        (d.download name checksum completion).on s = (.error (.io (.custom .invalidInput text)), s)) ∧
      ∀ (u : UploadStream) (completion : Completion υ) (s : Session υ),
        u.isBusy s = false → s.world.canSend = true →
        (u.upload name completion).on s = (.error (.io (.custom .invalidInput text)), s)) := by
  refine ⟨⟨?_, ?_⟩, ?_, ?_⟩
  · rintro ⟨path, h⟩
    exact ((resolve_eq_ok_iff dir name path).mp h).1
  · intro h
    exact ⟨_, (resolve_eq_ok_iff dir name _).mpr ⟨h, rfl⟩⟩
  · intro path h
    obtain ⟨hname, rfl⟩ := (resolve_eq_ok_iff dir name path).mp h
    refine ⟨Path.names name, hname.names_ne_nil, hname.components_join dir, fun n hn => ?_⟩
    obtain ⟨hsegment, hempty, hdot⟩ := Path.mem_names.mp hn
    refine ⟨hempty, hdot, ?_, Path.slash_not_mem_of_mem_segments hsegment⟩
    rintro rfl
    exact hname.descending hsegment
  · intro h
    obtain ⟨text, hresolve⟩ := resolve_of_not_descends h
    refine ⟨text, fun d checksum completion s hidle => ?_, fun u completion s hidle hsend => ?_⟩
    · exact download_of_resolve_error hidle (hresolve d.dir) checksum completion
    · exact upload_of_resolve_error hidle hsend (hresolve u.dir) completion

end Transfer
end LevelLink
