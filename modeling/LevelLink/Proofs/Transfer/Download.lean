import LevelLink.Proofs.Files.Naming
import LevelLink.Proofs.Transfer.DownloadStep
import LevelLink.Proofs.Transfer.Endpoint

/-!
# Runs of a download

The download handler follows the automaton of the language.  `At` relates a stage to the world, with room for what
is still to come.  A frame that has a place leads to the next stage, and where there is none the download is lost
(`Lost`): giving it up tells the application and removes the file that it has made (`Failed`).
-/

namespace LevelLink.DownloadStream

open Download

/-- A download that has begun: what was asked for, under which number, and the world at that time. -/
structure Begun (υ : Type) where
  stream : DownloadStream
  name : String
  completion : Completion υ
  id : SubscriberId
  world : World υ

namespace Begun

variable {υ : Type} (d : Begun υ)

/-- The path of the destination. -/
def path : String := Files.Path.join d.stream.dir d.name

/-- The download before its first frame. -/
def fetch : Fetch υ :=
  { endpoint := d.stream.toEndpoint, fileName := d.name, path := d.path, completion := some d.completion }

/-! ### Stages and worlds -/

/-- No size has been announced. -/
structure Waiting (checksum : Option String) (w : World υ) : Prop where
  fetch : current d.fetch d.id w = { d.fetch with checksum }
  progress : w.progressOf d.stream.stream = { state := .awaitingOpenAck, fileName := d.name }
  files : w.files = d.world.files
  app : w.app = d.world.app

/-- The file has been made and holds `bytes`, and there is room for `n` more. -/
structure Receiving (n : Nat) (size : Int32) (bytes : Bytes) (checksum : Option String) (w : World υ) : Prop where
  fetch : ∃ writer : Files.Writer,
    current d.fetch d.id w = { d.fetch with writer := some writer, created := true, checksum } ∧
    w.files.Holds d.path writer.file ∧ writer.Holds w.files bytes ∧
    w.files.HasRoom (writer.buffer.length + n)
  progress : w.progressOf d.stream.stream =
    { state := .transferring, fileName := d.name, total := size.toNatClampNeg, moved := bytes.length }
  app : w.app = d.world.app

/-- The file is complete, and the application knows. -/
structure Finished (size : Int32) (bytes : Bytes) (checksum : Option String) (w : World υ) : Prop where
  fetch : (current d.fetch d.id w).writer = none
  progress : w.progressOf d.stream.stream =
    { state := .done, fileName := d.name, total := size.toNatClampNeg, moved := size.toNatClampNeg }
  content : w.files.read d.path = .ok bytes
  app : w.app = d.completion (.ok ⟨d.name, d.path, size.toNatClampNeg, checksum⟩) d.world.app

/-- The world at a stage, with room for `n` more bytes. -/
def At (n : Nat) : Stage → World υ → Prop
  | .waiting checksum => fun w => d.Waiting checksum w ∧ d.world.files.Takes d.path n
  | .receiving size bytes checksum => d.Receiving n size bytes checksum
  | .complete size bytes checksum => d.Finished size bytes checksum

/-- The world after a frame that has no place. -/
structure Lost (announced : Option Int32) (w : World υ) : Prop where
  fetch : ∃ writer checksum,
    current d.fetch d.id w = { d.fetch with writer, created := announced.isSome, checksum } ∧
    (announced = none → writer = none)
  app : w.app = d.world.app
  files : match announced with
    | none => w.files = d.world.files
    | some _ => ∃ file, w.files.Holds d.path file

/-- The world after the download was given up.  A file that was made is gone, and otherwise none was touched. -/
structure Failed (announced : Option Int32) (w : World υ) : Prop where
  app : ∃ e, w.app = d.completion (.error e) d.world.app
  progress : (w.progressOf d.stream.stream).state = .failed
  files : match announced with
    | none => w.files = d.world.files
    | some _ => w.files.find d.path = .error (.system .noEntry)

variable {d} {w : World υ} {n : Nat} {size : Int32} {bytes more : Bytes} {checksum : Option String}

theorem Waiting.lost (h : d.Waiting checksum w) : d.Lost none w :=
  ⟨⟨none, checksum, h.fetch, fun _ => rfl⟩, h.app, h.files⟩

theorem Receiving.lost (h : d.Receiving n size bytes checksum w) : d.Lost (some size) w := by
  obtain ⟨⟨writer, hfetch, hfile, -⟩, -, happ⟩ := h
  exact ⟨⟨some writer, checksum, hfetch, nofun⟩, happ, writer.file, hfile⟩

theorem sameTree_close (f : Fetch υ) (files : Files.Store) : files.SameTree (f.close files) := by
  rw [Fetch.close]
  split
  · exact Files.Writer.sameTree_flush _ _
  · exact .refl files

/-- Giving a lost download up tells the application and removes the file. -/
theorem Lost.failed {announced : Option Int32} (h : d.Lost announced w) (e : StreamError) :
    d.Failed announced (release d.fetch d.id (abandon d.fetch d.id e w)) := by
  obtain ⟨⟨writer, sum, hfetch, hwriter⟩, happ, hfiles⟩ := h
  let f : Fetch υ := { d.fetch with writer, created := announced.isSome, checksum := sum }
  have habandon : abandon d.fetch d.id e w =
      { w with
        files := if announced.isSome then (f.close w.files).remove d.path else f.close w.files
        fetches := w.fetches.insert d.id { f with writer := none, completion := none }
        progress := w.progress.insert d.stream.stream { w.progressOf d.stream.stream with state := .failed }
        app := d.completion (.error e) w.app } := by
    simp only [abandon, hfetch]
    rfl
  -- the writer is closed when the download is given up, so letting it go changes no file
  have hrelease : (release d.fetch d.id (abandon d.fetch d.id e w)).files = (abandon d.fetch d.id e w).files := by
    have hclosed : current d.fetch d.id (abandon d.fetch d.id e w) =
        { f with writer := none, completion := none } := by
      rw [habandon]
      exact Std.TreeMap.getD_insert_self
    simp only [release, hclosed, Fetch.close]
  refine ⟨⟨e, ?_⟩, ?_, ?_⟩
  · show (abandon d.fetch d.id e w).app = _
    rw [habandon, ← happ]
  · show ((abandon d.fetch d.id e w).progressOf d.stream.stream).state = _
    rw [habandon, World.progressOf]
    simp only [Std.TreeMap.getD_insert_self]
  · rw [hrelease, habandon]
    cases announced with
    | none =>
      obtain rfl := hwriter rfl
      exact hfiles
    | some size =>
      obtain ⟨file, hfile⟩ := hfiles
      exact (hfile.of_sameTree (sameTree_close f w.files)).find_remove

/-! ### One frame -/

theorem on_onFiles {α : Type} {op : Attempt IoError Files.Store α} {a : α} {files : Files.Store}
    (h : op.on w.files = (.ok a, files)) : (onFiles op).on w = (.ok a, { w with files }) := by
  rw [onFiles, Attempt.on_of, h]
  rfl

theorem on_onFiles_system {α : Type} {op : Attempt SystemError Files.Store α} {a : α} {files : Files.Store}
    (h : op.on w.files = (.ok a, files)) : (onFiles (op.mapError .system)).on w = (.ok a, { w with files }) := by
  refine on_onFiles ?_
  rw [Attempt.on_mapError, h]
  rfl

theorem on_makeFile {path : String} {files₁ files₂ : Files.Store} {file : Nat}
    (hdirs : w.files.createDirs (Files.Path.parent path) = (.ok (), files₁))
    (hcreate : files₁.create path = .ok (file, files₂)) :
    (makeFile path).on w = (.ok file, { w with files := files₂ }) := by
  have hfirst : (onFiles (.of fun files => files.createDirs (Files.Path.parent path))).on w =
      (.ok (), { w with files := files₁ }) := on_onFiles (by rw [Attempt.on_of, hdirs])
  rw [makeFile, Attempt.on_bind_of_ok hfirst]
  refine on_onFiles ?_
  rw [Attempt.on_of]
  dsimp only
  rw [hcreate]

theorem Waiting.describe (h : d.Waiting checksum w) (name sum : String) :
    ∃ w', (act d.fetch d.id (.metadata name sum)).on w = (.ok .stay, w') ∧ d.Waiting (some sum) w' := by
  refine ⟨{ w with fetches := w.fetches.insert d.id { d.fetch with checksum := some sum } }, ?_,
    Std.TreeMap.getD_insert_self, h.progress, h.files, h.app⟩
  rw [act, Attempt.on_bind_of_ok (Attempt.on_get w), h.fetch]
  rfl

theorem Receiving.describe (h : d.Receiving n size bytes checksum w) (name sum : String) :
    ∃ w', (act d.fetch d.id (.metadata name sum)).on w = (.ok .stay, w') ∧
      d.Receiving n size bytes (some sum) w' := by
  obtain ⟨⟨writer, hfetch, hfile, hholds, hroom⟩, hprogress, happ⟩ := h
  let f : Fetch υ := { d.fetch with writer := some writer, created := true, checksum := some sum }
  refine ⟨{ w with fetches := w.fetches.insert d.id f }, ?_,
    ⟨writer, Std.TreeMap.getD_insert_self, hfile, hholds, hroom⟩, hprogress, happ⟩
  rw [act, Attempt.on_bind_of_ok (Attempt.on_get w), hfetch]
  rfl

/-- The announcement of a size makes the file. -/
theorem Waiting.announce (h : d.Waiting checksum w) (takes : d.world.files.Takes d.path n) (hsize : ¬ size < 0) :
    ∃ w', (announce d.fetch d.id size).on w = (.ok (), w') ∧ d.Receiving n size [] checksum w' := by
  obtain ⟨⟨files₁, files₂, file, hdirs, hcreate⟩, hroom⟩ := takes
  obtain ⟨hholds, hcontent, hspace⟩ := Files.Store.create_ok hcreate
  have hstate : ¬ (w.progressOf d.fetch.endpoint.stream).state ≠ .awaitingOpenAck := by
    show ¬ (w.progressOf d.stream.stream).state ≠ .awaitingOpenAck
    rw [h.progress]
    exact fun hne => hne rfl
  have hmake : (makeFile d.fetch.path).on w = (.ok file, { w with files := files₂ }) :=
    on_makeFile (h.files ▸ hdirs) hcreate
  let f : Fetch υ := { d.fetch with writer := some { file }, created := true, checksum }
  refine ⟨{ w with
      files := files₂
      fetches := w.fetches.insert d.id f
      progress := w.progress.insert d.stream.stream
        { w.progressOf d.stream.stream with state := .transferring, total := size.toNatClampNeg } }, ?_,
    ⟨{ file }, Std.TreeMap.getD_insert_self, hholds, ⟨?_, ?_⟩, ?_⟩, ?_, h.app⟩
  · rw [DownloadStream.announce, Attempt.on_bind_of_ok (Attempt.on_get w),
      Attempt.on_bind_of_ok (Attempt.on_get w), h.fetch]
    have hstate' : ¬ (w.progressOf ({ d.fetch with checksum } : Fetch υ).endpoint.stream).state ≠ .awaitingOpenAck :=
      hstate
    simp only [if_neg hstate', if_neg hsize]
    rw [Attempt.on_bind_of_ok hmake]
    rfl
  · rw [hcontent]
    rfl
  · rw [hcontent]
    rfl
  · rw [List.length_nil, Nat.zero_add]
    intro room hsome
    exact hroom room ((Files.Store.createDirs_ok hdirs).symm.trans (hspace.symm.trans hsome))
  · rw [World.progressOf, Std.TreeMap.getD_insert_self, h.progress]
    rfl

theorem Waiting.fails_announce (h : d.Waiting checksum w) (hsize : size < 0) :
    (DownloadStream.announce d.fetch d.id size).Fails w := by
  refine Attempt.fails_bind_of_ok (Attempt.on_get w) (Attempt.fails_bind_of_ok (Attempt.on_get w) ?_)
  rw [h.fetch]
  simp only [if_pos hsize]
  split
  · exact Attempt.Fails.bind (Attempt.fails_throw _ w) _
  · exact Attempt.Fails.bind (Attempt.fails_throw _ w) _

theorem Waiting.fails_store (h : d.Waiting checksum w) (more : Bytes) : (store d.fetch d.id more).Fails w := by
  refine Attempt.fails_bind_of_ok (Attempt.on_get w) ?_
  rw [h.fetch]
  exact Attempt.fails_throw _ w

theorem Waiting.fails_finish (h : d.Waiting checksum w) : (finish d.fetch d.id).Fails w := by
  refine Attempt.fails_bind_of_ok (Attempt.on_get w) ?_
  rw [h.fetch]
  exact Attempt.Fails.bind (Attempt.fails_throw _ w) _

/-- A size is announced once. -/
theorem Receiving.fails_announce (h : d.Receiving n size bytes checksum w) (size' : Int32) :
    (DownloadStream.announce d.fetch d.id size').Fails w := by
  obtain ⟨⟨writer, hfetch, -⟩, hprogress, -⟩ := h
  have hstate : (w.progressOf d.fetch.endpoint.stream).state ≠ .awaitingOpenAck := by
    show (w.progressOf d.stream.stream).state ≠ .awaitingOpenAck
    rw [hprogress]
    exact nofun
  refine Attempt.fails_bind_of_ok (Attempt.on_get w) (Attempt.fails_bind_of_ok (Attempt.on_get w) ?_)
  rw [hfetch]
  dsimp only
  rw [if_pos hstate]
  exact Attempt.Fails.bind (Attempt.fails_throw _ w) _

/-- Data goes to the end of the file. -/
theorem Receiving.store (h : d.Receiving (more.length + n) size bytes checksum w) :
    ∃ w', (store d.fetch d.id more).on w = (.ok (), w') ∧ d.Receiving n size (bytes ++ more) checksum w' := by
  obtain ⟨⟨writer, hfetch, hfile, hholds, hroom⟩, hprogress, happ⟩ := h
  obtain ⟨writer', files', hwrite, hsame, hholds', htree, hroom'⟩ := hholds.write hroom
  let f : Fetch υ := { d.fetch with writer := some writer', created := true, checksum }
  refine ⟨{ w with
      files := files'
      fetches := w.fetches.insert d.id f
      progress := w.progress.insert d.stream.stream
        { w.progressOf d.stream.stream with moved := (w.progressOf d.stream.stream).moved + more.length } }, ?_,
    ⟨writer', Std.TreeMap.getD_insert_self, hsame ▸ hfile.of_sameTree htree, hholds', hroom'⟩, ?_, happ⟩
  · rw [DownloadStream.store, Attempt.on_bind_of_ok (Attempt.on_get w), hfetch]
    dsimp only
    rw [Attempt.on_bind_of_ok (on_onFiles_system hwrite)]
    rfl
  · rw [World.progressOf, Std.TreeMap.getD_insert_self, hprogress, List.length_append]

/-- The end closes the file, and then the sizes are compared. -/
theorem Receiving.on_finish (h : d.Receiving n size bytes checksum w) : ∃ files' : Files.Store,
    let f : Fetch υ := { d.fetch with created := true, checksum }
    let w₁ : World υ := { w with files := files', fetches := w.fetches.insert d.id f }
    (∃ file, files'.Holds d.path file) ∧ files'.read d.path = .ok bytes ∧
    (finish d.fetch d.id).on w =
      if size.toNatClampNeg ≠ bytes.length then
        (.error (.incompleteTransfer size.toNatClampNeg bytes.length), w₁)
      else
        (.ok (), { w₁ with
          fetches := w₁.fetches.insert d.id { f with completion := none, checksum := none }
          progress := w.progress.insert d.stream.stream { w.progressOf d.stream.stream with state := .done }
          app := d.completion (.ok ⟨d.name, d.path, bytes.length, checksum⟩) w.app }) := by
  obtain ⟨⟨writer, hfetch, hfile, hholds, hroom⟩, hprogress, happ⟩ := h
  obtain ⟨writer', files', hflush, hsame, hbuffer, hholds', htree, -⟩ := hholds.flush hroom
  have hfile' : files'.Holds d.path writer.file := hfile.of_sameTree htree
  refine ⟨files', ⟨writer.file, hfile'⟩, ?_, ?_⟩
  · rw [Files.Store.read, hfile'.find_eq]
    show Except.ok (files'.content writer.file).all = _
    rw [← hholds'.content, hbuffer, hsame, List.append_nil]
  · rw [finish, Attempt.on_bind_of_ok (Attempt.on_get w), hfetch]
    have hclose (fetches : Std.TreeMap SubscriberId (Fetch υ)) :
        (onFiles (writer.flush.mapError .system)).on { w with fetches } =
          (.ok writer', { w with files := files', fetches }) :=
      on_onFiles_system (w := { w with fetches }) hflush
    have hp (files : Files.Store) (fetches : Std.TreeMap SubscriberId (Fetch υ)) :
        ({ w with files, fetches } : World υ).progressOf d.fetch.endpoint.stream =
          { state := .transferring, fileName := d.name, total := size.toNatClampNeg, moved := bytes.length } :=
      hprogress
    simp only [Attempt.on_bind, keep, Attempt.on_modify, hclose, Attempt.on_get, hp]
    by_cases hlen : size.toNatClampNeg ≠ bytes.length
    · simp only [if_pos hlen, Attempt.on_bind, Attempt.on_throw]
      rfl
    · simp only [if_neg hlen, Attempt.on_bind, Attempt.on_modify]
      rfl

theorem Receiving.finish (h : d.Receiving n size bytes checksum w) (hlen : bytes.length = size.toNatClampNeg) :
    ∃ w', (finish d.fetch d.id).on w = (.ok (), w') ∧ d.Finished size bytes checksum w' := by
  obtain ⟨files', -, hread, hfinish⟩ := h.on_finish
  rw [if_neg fun hne => hne hlen.symm] at hfinish
  refine ⟨_, hfinish, ?_, ?_, hread, ?_⟩
  · rw [current, Std.TreeMap.getD_insert_self]
    rfl
  · rw [World.progressOf, Std.TreeMap.getD_insert_self, h.progress, hlen]
  · rw [hlen, h.app]

theorem Receiving.lost_of_finish (h : d.Receiving n size bytes checksum w)
    (hlen : bytes.length ≠ size.toNatClampNeg) :
    ∃ e w', (DownloadStream.finish d.fetch d.id).on w = (.error e, w') ∧ d.Lost (some size) w' := by
  obtain ⟨files', hfile, -, hfinish⟩ := h.on_finish
  rw [if_pos hlen.symm] at hfinish
  exact ⟨_, _, hfinish, ⟨none, checksum, Std.TreeMap.getD_insert_self, nofun⟩, h.app, hfile⟩

/-- What the stream does after a frame that leads to this stage. -/
def verdict : Stage → Verdict
  | .complete _ _ _ => .close
  | _ => .stay

theorem lost_of_fails {announced : Option Int32} {a : Step (World υ) Unit} {v : Verdict} (h : a.Fails w)
    (hlost : d.Lost announced w) :
    ∃ e w', (do a; return v : Step (World υ) Verdict).on w = (.error e, w') ∧ d.Lost announced w' := by
  obtain ⟨e, he⟩ := Attempt.Fails.bind h fun _ => pure v
  exact ⟨e, w, he, hlost⟩

theorem followed_of_ok {a : Step (World υ) Unit} {v : Verdict} {P : World υ → Prop}
    (h : ∃ w', a.on w = (.ok (), w') ∧ P w') :
    ∃ w', (do a; return v : Step (World υ) Verdict).on w = (.ok v, w') ∧ P w' := by
  obtain ⟨w', ha, hP⟩ := h
  exact ⟨w', Attempt.on_bind_of_ok ha _, hP⟩

/-- A frame that has a place leads to the next stage. -/
theorem At.on_act {st st' : Stage} {f : TransferFrame} (h : d.At (f.content.length + n) st w)
    (hnext : st.next f = some st') :
    ∃ w', (act d.fetch d.id f).on w = (.ok (verdict st'), w') ∧ d.At n st' w' := by
  cases st with
  | waiting checksum =>
    obtain ⟨hwaiting, takes⟩ := h
    have takes' : d.world.files.Takes d.path n := ⟨takes.made, takes.room.mono (Nat.le_add_left n _)⟩
    cases f with
    | accepted =>
      obtain rfl := Option.some.inj hnext
      exact ⟨w, rfl, hwaiting, takes'⟩
    | metadata name sum =>
      obtain rfl := Option.some.inj hnext
      obtain ⟨w', hact, hwaiting'⟩ := hwaiting.describe name sum
      exact ⟨w', hact, hwaiting', takes'⟩
    | transfer name size chunk =>
      rw [Stage.next] at hnext
      split at hnext
      · cases hnext
      · next hsize =>
        obtain rfl := Option.some.inj hnext
        exact followed_of_ok (hwaiting.announce takes' hsize)
    | _ => cases hnext
  | receiving size bytes checksum =>
    cases f with
    | accepted =>
      rw [show TransferFrame.accepted.content.length + n = n from Nat.zero_add n] at h
      obtain rfl := Option.some.inj hnext
      exact ⟨w, rfl, h⟩
    | metadata name sum =>
      rw [show (TransferFrame.metadata name sum).content.length + n = n from Nat.zero_add n] at h
      obtain rfl := Option.some.inj hnext
      exact h.describe name sum
    | data more =>
      obtain rfl := Option.some.inj hnext
      exact followed_of_ok h.store
    | ended =>
      rw [Stage.next] at hnext
      split at hnext
      · next hlen =>
        obtain rfl := Option.some.inj hnext
        exact followed_of_ok (h.finish hlen)
      · cases hnext
    | _ => cases hnext
  | complete size bytes checksum => cases hnext

/-- Where a frame has no place, the download is lost. -/
theorem At.on_act_rejected {st : Stage} {f : TransferFrame} (h : d.At n st w) (hst : ¬ st.IsComplete)
    (hnone : st.next f = none) :
    ∃ e w', (act d.fetch d.id f).on w = (.error e, w') ∧ d.Lost st.announced w' := by
  cases st with
  | waiting checksum =>
    obtain ⟨hwaiting, -⟩ := h
    cases f with
    | accepted | metadata => cases hnone
    | transfer name size chunk =>
      rw [Stage.next] at hnone
      split at hnone
      · next hsize => exact lost_of_fails (hwaiting.fails_announce hsize) hwaiting.lost
      · cases hnone
    | data more => exact lost_of_fails (hwaiting.fails_store more) hwaiting.lost
    | ended => exact lost_of_fails hwaiting.fails_finish hwaiting.lost
    | refused text | problem text => exact ⟨_, w, rfl, hwaiting.lost⟩
  | receiving size bytes checksum =>
    cases f with
    | accepted | metadata | data => cases hnone
    | transfer name size' chunk => exact lost_of_fails (h.fails_announce size') h.lost
    | ended =>
      rw [Stage.next] at hnone
      split at hnone
      · cases hnone
      · next hlen =>
        obtain ⟨e, w', hfinish, hlost⟩ := h.lost_of_finish hlen
        exact ⟨e, w', Attempt.on_bind_of_error hfinish _, hlost⟩
    | refused text | problem text => exact ⟨_, w, rfl, h.lost⟩
  | complete size bytes checksum => exact (hst trivial).elim

theorem At.lost {st : Stage} (h : d.At n st w) (hst : ¬ st.IsComplete) : d.Lost st.announced w := by
  cases st with
  | waiting checksum => exact h.1.lost
  | receiving size bytes checksum => exact Receiving.lost h
  | complete size bytes checksum => exact (hst trivial).elim

/-- The step follows the automaton. -/
theorem At.step {st st' : Stage} {m : Message} {f : TransferFrame} (h : d.At (f.content.length + n) st w)
    (hf : f.CarriedBy m.unread) (hnext : st.next f = some st') :
    ∃ w', (step d.fetch d.id m).on w = (.ok (verdict st'), w') ∧ d.At n st' w' := by
  rw [on_step_of_carriedBy hf]
  exact h.on_act hnext

/-- Where the automaton stops, the download is lost. -/
theorem At.lose {st : Stage} {m : Message} (h : d.At n st w) (hst : ¬ st.IsComplete) (hreject : st.Rejects m.unread) :
    ∃ e w', (DownloadStream.step d.fetch d.id m).on w = (.error e, w') ∧ d.Lost st.announced w' := by
  by_cases hcarried : ∃ f : TransferFrame, f.CarriedBy m.unread
  · obtain ⟨f, hf⟩ := hcarried
    rw [on_step_of_carriedBy hf]
    exact h.on_act_rejected hst (hreject f hf)
  · obtain ⟨e, he⟩ := fails_step (not_exists.mp hcarried) w
    exact ⟨e, w, he, h.lost hst⟩

/-! ### Runs -/

/-- The message is one to the download. -/
def Addressed (d : Begun υ) (m : Message) : Prop := m.AddressedTo d.stream.node d.stream.name d.id

/-- The download listens, and the world is that of this stage. -/
structure Going (d : Begun υ) (n : Nat) (st : Stage) (s : Session υ) : Prop where
  hears : s.Hears d.stream.node d.stream.name d.id (handler d.fetch)
  at_stage : d.At n st s.world

/-- The download listens no more. -/
structure Gone (d : Begun υ) (s : Session υ) : Prop where
  live : s.live[d.id]? = none
  contains : s.contains d.id = false

theorem gone_of_delivered {r : Session υ} {live : Std.TreeMap SubscriberId (Subscriber (World υ))}
    (h : live[d.id]? = none) (w : World υ) : d.Gone (r.delivered live w) :=
  ⟨h, r.contains_delivered w h⟩

/-- Letting a finished download go changes nothing of what it has left. -/
theorem Finished.release (h : d.Finished size bytes checksum w) :
    d.Finished size bytes checksum (release d.fetch d.id w) := by
  have hfiles : (DownloadStream.release d.fetch d.id w).files = w.files := by
    rw [DownloadStream.release, Fetch.close, h.fetch]
  refine ⟨?_, h.progress, ?_, h.app⟩
  · rw [current, DownloadStream.release, Std.TreeMap.getD_erase_self]
    rfl
  · rw [hfiles]
    exact h.content

section Frame

variable {st st' : Stage} {s : Session υ} {m : Message} {f : TransferFrame} (haddr : d.Addressed m) (depth : Nat)
include haddr

/-- A frame that has a place leads to the next stage. -/
theorem Going.dispatch (going : d.Going (f.content.length + n) st s) (hf : f.CarriedBy m.unread)
    (hnext : st.next f = some st') (hst' : ¬ st'.IsComplete) :
    d.Going n st' (Registry.dispatch (depth + 1) m s).2 := by
  obtain ⟨w', hstep, hat⟩ := going.at_stage.step hf hnext
  have hverdict : verdict st' = .stay := by
    cases st' with
    | complete => exact (hst' trivial).elim
    | _ => rfl
  rw [hverdict] at hstep
  obtain ⟨live, hdispatch, hears⟩ := going.hears.dispatch_stay haddr rfl depth hstep
  rw [hdispatch]
  exact ⟨hears, hat⟩

/-- The end of a whole download finishes it. -/
theorem Going.dispatch_end (going : d.Going (f.content.length + n) st s) (hf : f.CarriedBy m.unread)
    (hnext : st.next f = some (.complete size bytes checksum)) :
    d.Finished size bytes checksum (Registry.dispatch (depth + 1) m s).2.world ∧
      d.Gone (Registry.dispatch (depth + 1) m s).2 := by
  obtain ⟨w', hstep, hfinished⟩ := going.at_stage.step hf hnext
  obtain ⟨live, hdispatch, hlive⟩ := going.hears.dispatch_close haddr rfl depth hstep
  rw [hdispatch]
  exact ⟨Finished.release hfinished, gone_of_delivered hlive _⟩

/-- A frame that has no place fails the download. -/
theorem Going.dispatch_rejected (going : d.Going n st s) (hst : ¬ st.IsComplete) (hreject : st.Rejects m.unread) :
    d.Failed st.announced (Registry.dispatch (depth + 1) m s).2.world ∧
      d.Gone (Registry.dispatch (depth + 1) m s).2 := by
  obtain ⟨e, w', hstep, hlost⟩ := going.at_stage.lose hst hreject
  obtain ⟨live, hdispatch, hlive⟩ := going.hears.dispatch_fail haddr rfl depth hstep rfl
  rw [hdispatch]
  exact ⟨hlost.failed e, gone_of_delivered hlive _⟩

end Frame

section Run

variable {st : Stage} {s : Session υ} {fs : List TransferFrame} {ms : List Message} (depth : Nat)
  (haddr : ∀ m ∈ ms, d.Addressed m)
include haddr

/-- A download that is under way stands at the stage that its frames have led to. -/
theorem Going.dispatchAll (going : d.Going ((dataOf fs).length + n) (.waiting none) s)
    (hreach : Reach (ms.map Message.unread) fs st) (hst : ¬ st.IsComplete) :
    d.Going n st (s.dispatchAll (depth + 1) ms) := by
  induction ms using List.reverseRecOn generalizing n fs st with
  | nil =>
    obtain rfl := Reach.nil.unique hreach
    obtain rfl := List.forall₂_nil_right_iff.mp hreach.carried
    rwa [show (dataOf []).length + n = n from Nat.zero_add n] at going
  | append_singleton ms m ih =>
    rw [List.map_append] at hreach
    obtain ⟨fs₀, st₀, f, rfl, hreach₀, hf, hnext⟩ := hreach.last
    rw [dataOf_concat, List.length_append, Nat.add_assoc] at going
    have going₀ := ih (fun m hm => haddr m (List.mem_append_left _ hm)) going hreach₀
      (Stage.not_isComplete_of_next hnext)
    rw [Registry.dispatchAll_append]
    exact going₀.dispatch (haddr m (by simp)) depth hf hnext hst

/-- The same with as much room as the data of a download under way can take. -/
theorem Going.dispatchAll_of_fits {N : Nat} {payloads : List Bytes} (going : d.Going N (.waiting none) s)
    (fits : FitsIn payloads N) (hfront : ms.map Message.unread <+: payloads)
    (hreach : Reach (ms.map Message.unread) fs st) (hst : ¬ st.IsComplete) :
    ∃ k, d.Going k st (s.dispatchAll (depth + 1) ms) := by
  obtain ⟨k, rfl⟩ := Nat.exists_eq_add_of_le (hreach.length_dataOf_le hst hfront fits)
  exact ⟨k, going.dispatchAll depth haddr hreach hst⟩

/-- What comes after a download is over changes nothing. -/
theorem Gone.dispatchAll (gone : d.Gone s) : s.dispatchAll (depth + 1) ms = s :=
  Registry.dispatchAll_of_getElem?_eq_none gone.live (fun m hm => (haddr m hm).2.2) _

end Run

/-- The message that decides is the last that matters. -/
theorem Gone.dispatchAll_last {s : Session υ} {ms back : List Message} {m : Message} (depth : Nat)
    (haddr : ∀ m' ∈ ms ++ m :: back, d.Addressed m')
    (gone : d.Gone (Registry.dispatch (depth + 1) m (s.dispatchAll (depth + 1) ms)).2) :
    s.dispatchAll (depth + 1) (ms ++ m :: back) =
      (Registry.dispatch (depth + 1) m (s.dispatchAll (depth + 1) ms)).2 := by
  rw [Registry.dispatchAll_append]
  exact Gone.dispatchAll depth
    (fun m' hm' => haddr m' (List.mem_append_right _ (List.mem_cons_of_mem _ hm'))) gone

section Fate

variable {s : Session υ} {fs : List TransferFrame} {announced : Option Int32} {ms : List Message} (depth : Nat)
  (haddr : ∀ m ∈ ms, d.Addressed m) (going : d.Going n (.waiting none) s) (fits : FitsIn (ms.map Message.unread) n)
include haddr going fits

/-- A whole download finishes. -/
theorem finished_of_finishes (h : Finishes (ms.map Message.unread) fs size) :
    d.Finished size (dataOf fs) (lastChecksum fs) (s.dispatchAll (depth + 1) ms).world ∧
      d.Gone (s.dispatchAll (depth + 1) ms) := by
  obtain ⟨front, ⟨more, hfront⟩, hreach⟩ := finishes_iff.mp h
  obtain ⟨ms₁, back, rfl, rfl, rfl⟩ := List.map_eq_append_iff.mp hfront.symm
  rcases List.eq_nil_or_concat ms₁ with rfl | ⟨ms₀, m, rfl⟩
  · cases Reach.nil.unique hreach
  · rw [List.concat_eq_append, List.append_assoc, List.singleton_append] at haddr fits ⊢
    rw [List.concat_eq_append, List.map_append, List.map_singleton] at hreach
    obtain ⟨fs₀, st₀, f, rfl, hreach₀, hf, hnext⟩ := hreach.last
    obtain rfl : f = .ended := (complete_concat.mp (stage_eq_some_iff.mp hreach.stage_eq).1).1
    have hprefix : ms₀.map Message.unread <+: (ms₀ ++ m :: back).map Message.unread := by
      rw [List.map_append]
      exact List.prefix_append _ _
    obtain ⟨k, going₀⟩ := going.dispatchAll_of_fits depth (fun m' hm' => haddr m' (List.mem_append_left _ hm')) fits
      hprefix hreach₀ (Stage.not_isComplete_of_next hnext)
    rw [← Nat.zero_add k] at going₀
    obtain ⟨hfinished, hgone⟩ := going₀.dispatch_end (haddr m (by simp)) depth hf hnext
    rw [hgone.dispatchAll_last depth haddr]
    exact ⟨hfinished, hgone⟩

/-- A download fails with the first frame that has no place. -/
theorem failed_of_leaves (h : Leaves (ms.map Message.unread) fs announced) :
    d.Failed announced (s.dispatchAll (depth + 1) ms).world ∧ d.Gone (s.dispatchAll (depth + 1) ms) := by
  obtain ⟨front, p, st, ⟨more, hfront⟩, hreach, hst, rfl, hreject⟩ := leaves_iff.mp h
  obtain ⟨ms₁, back, rfl, hfront₁, rfl⟩ := List.map_eq_append_iff.mp hfront.symm
  obtain ⟨ms₀, last, rfl, rfl, hlast⟩ := List.map_eq_append_iff.mp hfront₁
  obtain ⟨m, rfl, rfl⟩ := List.map_eq_singleton_iff.mp hlast
  rw [List.append_assoc, List.singleton_append] at haddr fits ⊢
  have hprefix : ms₀.map Message.unread <+: (ms₀ ++ m :: back).map Message.unread := by
    rw [List.map_append]
    exact List.prefix_append _ _
  obtain ⟨k, going₀⟩ := going.dispatchAll_of_fits depth (fun m' hm' => haddr m' (List.mem_append_left _ hm')) fits
    hprefix hreach hst
  obtain ⟨hfailed, hgone⟩ := going₀.dispatch_rejected (haddr m (by simp)) depth hst hreject
  rw [hgone.dispatchAll_last depth haddr]
  exact ⟨hfailed, hgone⟩

/-- Until then the application is told nothing. -/
theorem app_of_pending (h : Pending (ms.map Message.unread)) :
    (s.dispatchAll (depth + 1) ms).world.app = d.world.app := by
  obtain ⟨fs, st, hreach, hst⟩ := pending_iff.mp h
  obtain ⟨k, going'⟩ := going.dispatchAll_of_fits depth haddr fits List.prefix_rfl hreach hst
  exact (going'.at_stage.lost hst).app

end Fate

end Begun

variable {υ : Type} {stream : DownloadStream} {name : String} {checksum : Option String}
  {completion : Completion υ} {s s₁ : Session υ} {id : SubscriberId}

/-- A download that has been requested listens, and it stands as it has begun. -/
theorem hears_of_requested {start : Fetch υ} {p : Progress}
    (h : stream.Requested (stream.opening name checksum) (handler start) p id s s₁) :
    s₁.Hears stream.node stream.name id (handler start) ∧ current start id s₁.world = start := by
  refine ⟨?_, ?_⟩
  · have hears := h.hears
    cases checksum with
    | none => exact hears
    | some c => exact hears
  · rw [current, Std.TreeMap.getD_eq_getD_getElem?, h.fetch]
    rfl

/-- A download that has just been started waits for its first frame. -/
theorem going_of_download (h : (stream.download name checksum completion).on s = (.ok true, s₁))
    (hid : stream.latest? s₁ = some id) {n : Nat} (takes : s₁.world.files.Takes (Files.Path.join stream.dir name) n) :
    Begun.Going ⟨stream, name, completion, id, s₁.world⟩ n (.waiting none) s₁ := by
  rw [download, Attempt.on_bind_of_ok (Attempt.on_get s)] at h
  split at h
  · cases h
  · obtain ⟨path, s₂, hpath, h⟩ := Attempt.parts_of_on_bind_ok h
    obtain ⟨hresolve, rfl⟩ := Prod.mk.inj hpath
    obtain rfl := Transfer.resolve_ok hresolve
    obtain ⟨id', hrequested⟩ := Endpoint.requested_of_request h
    obtain rfl : id' = id := Option.some.inj (hrequested.latest.symm.trans hid)
    obtain ⟨hears, hcurrent⟩ := hears_of_requested hrequested
    exact ⟨hears, ⟨hcurrent, hrequested.progress, rfl, rfl⟩, takes⟩

/-- What becomes of a download, whatever frames are addressed to it.  The application is told of success exactly when
some first frames are those of a whole download, and of failure exactly when some frame is the first that has no
place behind those before it.  The file is then the data, or it is not there any more; if no size had been announced,
no file was touched. -/
theorem outcome_of_frames (hstart : (stream.download name checksum completion).on s = (.ok true, s₁))
    (hid : stream.latest? s₁ = some id) {frames : List Bytes}
    (haddr : ∀ frame ∈ frames, ∃ m : Message, Message.ofFrame frame = .ok m ∧
      m.AddressedTo stream.node stream.name id)
    {n : Nat} (htakes : s₁.world.files.Takes (Files.Path.join stream.dir name) n)
    (fits : FitsIn (frames.map Message.payloadOf) n) (depth : Nat) :
    let payloads := frames.map Message.payloadOf
    let path := Files.Path.join stream.dir name
    let s' := s₁.receiveAll (depth + 1) frames
    (∃ fate : Option (Except StreamError Outcome),
      s'.world.app = fate.elim s₁.world.app (completion · s₁.world.app) ∧
      ((∃ outcome, fate = some (.ok outcome)) ↔ ∃ fs size, Finishes payloads fs size) ∧
      ((∃ e, fate = some (.error e)) ↔ ∃ fs announced, Leaves payloads fs announced)) ∧
    (∀ fs size, Finishes payloads fs size →
      s'.world.app = completion (.ok ⟨name, path, size.toNatClampNeg, lastChecksum fs⟩) s₁.world.app ∧
      s'.world.files.read path = .ok (dataOf fs) ∧ (stream.progress s').state = .done ∧ s'.contains id = false) ∧
    ∀ fs announced, Leaves payloads fs announced →
      (∃ e, s'.world.app = completion (.error e) s₁.world.app) ∧
      (match announced with
        | none => s'.world.files = s₁.world.files
        | some _ => s'.world.files.find path = .error (.system .noEntry)) ∧
      (stream.progress s').state = .failed ∧ s'.contains id = false := by
  obtain ⟨ms, hall, hpayloads, haddr⟩ := Registry.exists_dispatchAll_eq_receiveAll (depth + 1) haddr
  rw [hpayloads] at fits
  rw [hpayloads, hall]
  intro payloads path s'
  have going := going_of_download hstart hid htakes
  refine ⟨?_, ?_, ?_⟩
  · rcases pending_or_finishes_or_leaves payloads with h | ⟨fs, size, h⟩ | ⟨fs, announced, h⟩
    · have hnotLeaves : ¬ ∃ fs announced, Leaves payloads fs announced := by
        rintro ⟨fs, announced, h'⟩
        obtain ⟨fs', st, hreach, -⟩ := pending_iff.mp h
        exact hreach.not_leaves h'
      have hnotFinishes : ¬ ∃ fs size, Finishes payloads fs size := by
        rintro ⟨fs, size, h'⟩
        exact h.not_finishes h'
      refine ⟨none, Begun.app_of_pending depth haddr going fits h, ?_, ?_⟩
      · exact ⟨nofun, fun h' => absurd h' hnotFinishes⟩
      · exact ⟨nofun, fun h' => absurd h' hnotLeaves⟩
    · have hnotLeaves : ¬ ∃ fs announced, Leaves payloads fs announced := by
        rintro ⟨fs', announced, h'⟩
        exact h.not_leaves h'
      refine ⟨some (.ok _), (Begun.finished_of_finishes depth haddr going fits h).1.app, ?_, ?_⟩
      · exact ⟨fun _ => ⟨fs, size, h⟩, fun _ => ⟨_, rfl⟩⟩
      · exact ⟨nofun, fun h' => absurd h' hnotLeaves⟩
    · have hnotFinishes : ¬ ∃ fs size, Finishes payloads fs size := by
        rintro ⟨fs', size, h'⟩
        exact h'.not_leaves h
      obtain ⟨e, happ⟩ := (Begun.failed_of_leaves depth haddr going fits h).1.app
      refine ⟨some (.error e), happ, ?_, ?_⟩
      · exact ⟨nofun, fun h' => absurd h' hnotFinishes⟩
      · exact ⟨fun _ => ⟨fs, announced, h⟩, fun _ => ⟨e, rfl⟩⟩
  · intro fs size h
    obtain ⟨hfinished, hgone⟩ := Begun.finished_of_finishes depth haddr going fits h
    exact ⟨hfinished.app, hfinished.content, congrArg Progress.state hfinished.progress, hgone.contains⟩
  · intro fs announced h
    obtain ⟨hfailed, hgone⟩ := Begun.failed_of_leaves depth haddr going fits h
    exact ⟨hfailed.app, hfailed.files, hfailed.progress, hgone.contains⟩

section Sample

def sampleStream : DownloadStream := ⟨"ASSETS", "GET", "", 0⟩

/-- A session in which a download that notes what it is told has just been started. -/
def sampleSession : Session (List (Except StreamError Outcome)) :=
  ((sampleStream.download "a" none fun r told => told ++ [r]).on (Session.start [])).2

def sampleWords : List TransferFrame := [.metadata "a" "f00d", .transfer "a" 3 2, .data [1, 2], .data [3], .ended]

def sampleFrames : List Bytes := sampleWords.map fun f => ((sampleStream.message f.payload).withId 1).frame

theorem download_sampleStream :
    (sampleStream.download "a" none fun r told => told ++ [r]).on (Session.start []) = (.ok true, sampleSession) :=
  Prod.ext (by decide +kernel) rfl

theorem latest?_sampleSession : sampleStream.latest? sampleSession = some 1 := by decide +kernel

theorem payloads_sampleFrames : sampleFrames.map Message.payloadOf = sampleWords.map TransferFrame.payload := by
  decide +kernel

theorem addressed_sampleFrames : ∀ frame ∈ sampleFrames, ∃ m : Message, Message.ofFrame frame = .ok m ∧
    m.AddressedTo sampleStream.node sampleStream.name 1 := by
  intro frame hframe
  obtain ⟨f, hf, rfl⟩ := List.mem_map.mp hframe
  refine ⟨_, Message.ofFrame_frame rfl ?_, rfl, rfl, rfl⟩
  revert f
  decide +kernel

theorem takes_sampleSession :
    sampleSession.world.files.Takes (Files.Path.join sampleStream.dir "a")
      (sampleFrames.map Message.payloadOf).flatten.length :=
  Files.Store.takes_of_isOk (by decide +kernel) (by decide +kernel) nofun

theorem finishes_sampleFrames : Finishes (sampleFrames.map Message.payloadOf) sampleWords 3 := by
  rw [payloads_sampleFrames]
  refine ⟨_, List.prefix_rfl, forall₂_carriedBy_payload ?_, [.metadata "a" "f00d", .transfer "a" 3 2,
    .data [1, 2], .data [3]], rfl, ⟨[.metadata "a" "f00d"], "a", 2, [.data [1, 2], .data [3]], rfl, ?_, ?_, ?_⟩, rfl⟩
  · decide
  · simp [TransferFrame.IsRemark]
  · decide
  · simp [TransferFrame.IsRemark, TransferFrame.IsData]

/-- A whole download is told with the checksum that was announced, and its data is in the file. -/
theorem outcome_of_sampleFrames :
    (sampleSession.receiveAll 1 sampleFrames).world.app = [.ok ⟨"a", "a", 3, some "f00d"⟩] ∧
      (sampleSession.receiveAll 1 sampleFrames).world.files.read "a" = .ok [1, 2, 3] := by
  obtain ⟨-, hfinishes, -⟩ := outcome_of_frames download_sampleStream latest?_sampleSession addressed_sampleFrames
    takes_sampleSession (fitsIn_length _) 0
  obtain ⟨happ, hread, -⟩ := hfinishes _ _ finishes_sampleFrames
  exact ⟨happ, hread⟩

end Sample

end LevelLink.DownloadStream
