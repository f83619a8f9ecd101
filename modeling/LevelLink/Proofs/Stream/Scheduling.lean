import LevelLink.Proofs.Attempts
import LevelLink.Proofs.Link.Dispatch
import LevelLink.Stream.Plugins

/-!
# Plugins and their streams

A plugin service has two records of what runs: its table, and the notification streams that the registry keeps for it.
Every operation of the service leaves both as they are (`Kept`), opens a stream and notes it (`Opened`), or lets a
stream go and forgets it (`Ended`): `schedule_cases` says so of a call, and `message_cases` of a message, if the two
agree before.
-/

namespace LevelLink

/-! ### Texts -/

/-- A block says what is in it. -/
theorem Bytes.block_inj {bs bs' : Bytes} (h : bs.block = bs'.block) : bs = bs' := by
  have hdrop : bs.block.drop 4 = bs'.block.drop 4 := by rw [h]
  rwa [Bytes.block, Bytes.block, List.drop_left' (Bytes.length_ofInt32 _),
    List.drop_left' (Bytes.length_ofInt32 _)] at hdrop

/-- The bytes of a text say what it is. -/
theorem Utf8.encode_inj {s s' : String} (h : Utf8.encode s = Utf8.encode s') : s = s' := by
  have hdecode := Utf8.decode?_encode s
  rw [h, Utf8.decode?_encode] at hdecode
  exact (Option.some.inj hdecode).symm

namespace PluginService

variable {υ : Type} (p : PluginService) (name : String)

/-! ### What is kept of a plugin -/

/-- The notification stream of a plugin under its number. -/
def stream (id : SubscriberId) : Subscriber (World υ) :=
  .stream ((streamRequest name).withId id).prepare (p.handler name)

/-- The request to run a plugin under its number. -/
def asking (id : SubscriberId) : Subscriber (World υ) :=
  .once ((scheduleRequest name).withId id).prepare fun _ reply => p.onScheduled name reply

/-- The request to end the notification stream of a plugin under its number. -/
def closing (id : SubscriberId) : Subscriber (World υ) :=
  .once ((closeRequest name).withId id).prepare fun _ _ => .done

/-- The streams of the plugins that run. -/
def table (s : Session υ) : Std.TreeMap String SubscriberId := (s.world.pluginsOf p.number).running

/-- The notification stream of a plugin is registered under the number. -/
def Follows (s : Session υ) (id : SubscriberId) : Prop := s.live[id]? = some (p.stream name id)

/-- A request to run a plugin waits for its reply under the number. -/
def Asks (s : Session υ) (id : SubscriberId) : Prop := s.live[id]? = some (p.asking name id)

/-- A subscriber of the service. -/
def Owns (id : SubscriberId) (sub : Subscriber (World υ)) : Prop :=
  ∃ name, sub = p.stream name id ∨ sub = p.asking name id ∨ sub = closing name id

/-- The table and the registry agree. -/
def Agrees (s : Session υ) : Prop :=
  ∀ (name : String) (id : SubscriberId), (p.table s)[name]? = some id ↔ p.Follows name s id

/-- No stream of the service is registered under the number. -/
def IsSpare (s : Session υ) (id : SubscriberId) : Prop := ∀ name, ¬ p.Follows name s id

variable {p name} {s s' s₁ s₂ : Session υ} {id k : SubscriberId} {other : String} {e : TransportError}

theorem stream_inj (h : (p.stream name id : Subscriber (World υ)) = p.stream other id) : name = other := by
  have hrequest := congrArg (fun sub : Subscriber (World υ) => sub.request.unread) h
  exact Utf8.encode_inj (Bytes.block_inj hrequest)

theorem stream_ne_asking : (p.stream name id : Subscriber (World υ)) ≠ p.asking other k := by
  intro h
  have hhandler := congrArg (fun sub : Subscriber (World υ) => sub.handler.isSome) h
  cases hhandler

theorem stream_ne_closing : (p.stream name id : Subscriber (World υ)) ≠ closing other k := by
  intro h
  have hhandler := congrArg (fun sub : Subscriber (World υ) => sub.handler.isSome) h
  cases hhandler

theorem closing_ne_asking : (closing name id : Subscriber (World υ)) ≠ p.asking other k := by
  intro h
  have hnames : "CLOSE_NOTIFICATION_STREAM" = "SCHEDULE_PLUGIN" :=
    congrArg (fun sub : Subscriber (World υ) => sub.request.name) h
  exact absurd hnames (by decide)

theorem asking_inj (h : (p.asking name id : Subscriber (World υ)) = p.asking other id) : name = other := by
  have hrequest : (Utf8.encode name).block ++ Bytes.ofInt32 1 = (Utf8.encode other).block ++ Bytes.ofInt32 1 :=
    congrArg (fun sub : Subscriber (World υ) => sub.request.unread) h
  exact Utf8.encode_inj (Bytes.block_inj (List.append_cancel_right hrequest))

/-! ### What the world keeps of it -/

theorem pluginsOf_editPlugins (w : World υ) (service : Nat) (edit : PluginTable υ → PluginTable υ) :
    (w.editPlugins service edit).pluginsOf service = edit (w.pluginsOf service) := by
  simp [World.pluginsOf, World.editPlugins]

theorem pluginsOf_complete (p : PluginService) (name : String) (w : World υ) (service : Nat) :
    (p.complete name w).pluginsOf service = w.pluginsOf service := by
  unfold complete
  split <;> rfl

/-- What the service keeps of a session depends on its plugins alone. -/
theorem table_of_world {w : World υ} (h : s.world = w) : p.table s = (w.pluginsOf p.number).running := by
  rw [table, h]

theorem running_forget (w : World υ) :
    ((p.forget name w).pluginsOf p.number).running = (w.pluginsOf p.number).running.erase name := by
  rw [forget, pluginsOf_editPlugins]
  rfl

/-- Letting a stream go changes nothing else. -/
theorem world_remove (h : s.live[id]? = some (p.stream name id)) : (s.remove id).2.world = s.world := by
  rw [Registry.remove, h]
  rfl

/-! ### Effects -/

/-- The service has its streams and its table as before, and no new request waits. -/
structure Kept (p : PluginService) (s s' : Session υ) : Prop where
  table : ∀ name : String, (p.table s')[name]? = (p.table s)[name]?
  follows : ∀ name id, p.Follows name s' id ↔ p.Follows name s id
  asks : ∀ name id, p.Asks name s' id → p.Asks name s id

/-- A plugin has got a stream under `id` and a request under `k`. -/
structure Opened (p : PluginService) (name : String) (id k : SubscriberId) (s s' : Session υ) : Prop where
  table : ∀ other : String, (p.table s')[other]? = if name = other then some id else (p.table s)[other]?
  follows : ∀ other j, p.Follows other s' j ↔ p.Follows other s j ∨ other = name ∧ j = id
  asks : ∀ other j, p.Asks other s' j → p.Asks other s j ∨ other = name ∧ j = k

/-- The stream under `id` has gone, and its plugin is off the table. -/
structure Ended (p : PluginService) (name : String) (id : SubscriberId) (s s' : Session υ) : Prop where
  table : ∀ other : String, (p.table s')[other]? = if name = other then none else (p.table s)[other]?
  follows : ∀ other j, p.Follows other s' j ↔ p.Follows other s j ∧ j ≠ id
  asks : ∀ other j, p.Asks other s' j → p.Asks other s j

theorem Kept.refl (p : PluginService) (s : Session υ) : p.Kept s s := ⟨fun _ => rfl, fun _ _ => .rfl, fun _ _ => id⟩

/-- What leaves the table alone keeps the plugins, if every number that it changes had no stream and has neither a
stream nor a request. -/
theorem kept_of_live (htable : ∀ name : String, (p.table s')[name]? = (p.table s)[name]?)
    (hlive : ∀ j, s'.live[j]? = s.live[j]? ∨ p.IsSpare s j ∧ p.IsSpare s' j ∧ ∀ name, ¬ p.Asks name s' j) :
    p.Kept s s' := by
  refine ⟨htable, ?_, ?_⟩
  · intro other j
    rcases hlive j with hsame | ⟨hbefore, hafter, -⟩
    · rw [Follows, hsame]
      rfl
    · exact iff_of_false (hafter other) (hbefore other)
  · intro other j hasks
    rcases hlive j with hsame | ⟨-, -, hnone⟩
    · rw [Asks, hsame] at hasks
      exact hasks
    · exact absurd hasks (hnone other)

/-- Whoever had a number and was no stream may go. -/
theorem kept_of_gone (hspare : p.IsSpare s id) (htable : ∀ name : String, (p.table s')[name]? = (p.table s)[name]?)
    (hlive : ∀ j, s'.live[j]? = if id = j then none else s.live[j]?) : p.Kept s s' := by
  refine kept_of_live htable fun j => ?_
  by_cases hj : id = j
  · right
    subst hj
    have hnone := (hlive id).trans (if_pos rfl)
    refine ⟨hspare, ?_, ?_⟩
    · intro name hfollows
      cases hnone.symm.trans hfollows
    · intro name hasks
      cases hnone.symm.trans hasks
  · left
    exact (hlive j).trans (if_neg hj)

theorem Agrees.kept (agrees : p.Agrees s) (kept : p.Kept s s') : p.Agrees s' := by
  intro name id
  rw [kept.table, kept.follows]
  exact agrees name id

/-- There is one stream for a name at most. -/
theorem Agrees.unique (agrees : p.Agrees s) {id' : SubscriberId} (h : p.Follows name s id)
    (h' : p.Follows name s id') : id = id' :=
  Option.some.inj (((agrees name id).mpr h).symm.trans ((agrees name id').mpr h'))

theorem Agrees.opened (agrees : p.Agrees s) (hnew : (p.table s)[name]? = none) (hspare : p.IsSpare s id)
    (opened : p.Opened name id k s s') : p.Agrees s' := by
  intro other j
  rw [opened.table, opened.follows]
  split
  · next hname =>
    subst hname
    have hnot : ¬ p.Follows name s j := by
      intro hfollows
      rw [(agrees name j).mpr hfollows] at hnew
      cases hnew
    constructor
    · intro heq
      exact .inr ⟨rfl, (Option.some.inj heq).symm⟩
    · rintro (hfollows | ⟨-, rfl⟩)
      · exact absurd hfollows hnot
      · rfl
  · next hname =>
    rw [agrees other j]
    constructor
    · exact .inl
    · rintro (hfollows | ⟨rfl, -⟩)
      · exact hfollows
      · exact absurd rfl hname

theorem Agrees.ended (agrees : p.Agrees s) (h : p.Follows name s id) (ended : p.Ended name id s s') :
    p.Agrees s' := by
  intro other j
  rw [ended.table, ended.follows]
  split
  · next hname =>
    subst hname
    constructor
    · intro hnone
      cases hnone
    · rintro ⟨hfollows, hne⟩
      exact absurd (agrees.unique hfollows h) hne
  · next hname =>
    rw [agrees other j]
    refine ⟨fun hfollows => ⟨hfollows, ?_⟩, And.left⟩
    rintro rfl
    exact hname (stream_inj (Option.some.inj (h.symm.trans hfollows)))

/-- Whatever takes a stream out of the registry and its plugin off the table ends it. -/
theorem ended_of_live (htable : p.table s' = (p.table s).erase name)
    (hlive : ∀ j, s'.live[j]? = if id = j then none else s.live[j]?) : p.Ended name id s s' := by
  refine ⟨?_, ?_, ?_⟩
  · intro other
    rw [htable, getElem?_erase_ite]
  · intro other j
    unfold Follows
    rw [hlive]
    split
    · next hj =>
      constructor
      · intro h
        cases h
      · intro h
        exact absurd hj.symm h.2
    · next hj =>
      constructor
      · intro h
        exact ⟨h, Ne.symm hj⟩
      · exact And.left
  · intro other j hasks
    unfold Asks at hasks
    rw [hlive] at hasks
    split at hasks
    · cases hasks
    · exact hasks

/-- Forgetting a plugin and removing its stream ends it. -/
theorem ended_of_remove (h : s.live[id]? = some (p.stream name id)) :
    p.Ended name id s ((s.changed (p.forget name)).remove id).2 := by
  refine ended_of_live ?_ ?_
  · have hchanged : (s.changed (p.forget name)).live[id]? = some (p.stream name id) := h
    rw [table_of_world (world_remove hchanged), Registry.world_changed, running_forget]
    rfl
  · exact Registry.getElem?_remove _ id

/-! ### A call -/

/-- What the service has run. -/
theorem isRunning_iff : p.isRunning name s = true ↔ ∃ id, (p.table s)[name]? = some id := by
  rw [isRunning, Std.TreeMap.contains_eq_isSome_getElem?, Option.isSome_iff_exists]
  rfl

/-- A plugin counts as running exactly if it has a stream. -/
theorem Agrees.isRunning_iff (agrees : p.Agrees s) : p.isRunning name s = true ↔ ∃ id, p.Follows name s id := by
  rw [PluginService.isRunning_iff]
  exact exists_congr (agrees name)

theorem isRunning_eq_false_iff : p.isRunning name s = false ↔ (p.table s)[name]? = none := by
  rw [isRunning, Std.TreeMap.contains_eq_isSome_getElem?, Option.isSome_eq_false_iff, Option.isNone_iff_eq_none]
  rfl

/-- A call for a plugin that does not run. -/
theorem on_schedule (h : p.isRunning name s = false) : (p.schedule name).on s =
    match s.add (.stream (streamRequest name) (p.handler name)) with
    | (.error e, s₁) => (.error e, s₁)
    | (.ok id, s₁) =>
      match (s₁.changed (·.editPlugins p.number (·.add name id))).add
        (.once (scheduleRequest name) fun _ reply => p.onScheduled name reply) with
      | (.ok _, s₂) => (.ok true, s₂)
      | (.error e, s₂) => (.error e, ((s₂.changed (p.forget name)).remove id).2) := by
  rw [schedule, Attempt.on_bind_of_ok (Attempt.on_get s)]
  simp only [h, Bool.false_eq_true, if_false, Attempt.on_bind, Registry.adding, Attempt.on_of, Attempt.on_modify,
    Attempt.on_tryCatch, Attempt.on_throw, Attempt.on_pure]
  rcases s.add (.stream (streamRequest name) (p.handler name)) with ⟨e | id, s₁⟩
  · rfl
  · dsimp only
    rcases (s₁.changed (·.editPlugins p.number (·.add name id))).add
      (.once (scheduleRequest name) fun _ reply => p.onScheduled name reply) with ⟨e | k, s₂⟩ <;> rfl

/-- Both requests of a call are taken: they have the next two numbers, whoever had these before. -/
theorem live_of_add (hstream : s.add (.stream (streamRequest name) (p.handler name)) = (.ok id, s₁))
    (hask : (s₁.changed (·.editPlugins p.number (·.add name id))).add
      (.once (scheduleRequest name) fun _ reply => p.onScheduled name reply) = (.ok k, s₂)) :
    p.table s₂ = (p.table s).insert name s.nextId ∧
      ∀ j, s₂.live[j]? = if Registry.successor s.nextId = j then some (p.asking name (Registry.successor s.nextId))
        else if s.nextId = j then some (p.stream name s.nextId) else s.live[j]? := by
  obtain ⟨rfl, hnext, hworld, hlive⟩ := Registry.added_of_add hstream
  obtain ⟨rfl, -, hworld', hlive'⟩ := Registry.added_of_add hask
  constructor
  · rw [table_of_world hworld', Registry.world_changed, pluginsOf_editPlugins, table, hworld]
    rfl
  · intro j
    have hj := hlive' j
    rw [Registry.nextId_changed, Registry.live_changed, hnext, hlive j] at hj
    exact hj

/-- They open a stream if no stream of the service had their numbers. -/
theorem opened_of_add (hspare : p.IsSpare s s.nextId) (hspare' : p.IsSpare s (Registry.successor s.nextId))
    (hstream : s.add (.stream (streamRequest name) (p.handler name)) = (.ok id, s₁))
    (hask : (s₁.changed (·.editPlugins p.number (·.add name id))).add
      (.once (scheduleRequest name) fun _ reply => p.onScheduled name reply) = (.ok k, s₂)) :
    p.Opened name s.nextId (Registry.successor s.nextId) s s₂ := by
  obtain ⟨htable, hlive₂⟩ := live_of_add hstream hask
  have hne := Registry.successor_ne s.nextId
  refine ⟨?_, ?_, ?_⟩
  · intro other
    rw [htable, getElem?_insert_ite]
  · intro other j
    unfold Follows
    rw [hlive₂]
    split
    · next hj =>
      subst hj
      constructor
      · intro heq
        exact absurd (Option.some.inj heq).symm stream_ne_asking
      · rintro (hfollows | ⟨-, heq⟩)
        · exact absurd hfollows (hspare' other)
        · exact absurd heq hne
    · split
      · next hj =>
        subst hj
        constructor
        · intro heq
          exact .inr ⟨(stream_inj (Option.some.inj heq)).symm, rfl⟩
        · rintro (hfollows | ⟨rfl, -⟩)
          · exact absurd hfollows (hspare other)
          · rfl
      · next hj =>
        constructor
        · exact .inl
        · rintro (hfollows | ⟨-, rfl⟩)
          · exact hfollows
          · exact absurd rfl hj
  · intro other j
    unfold Asks
    rw [hlive₂]
    split
    · next hj =>
      subst hj
      intro heq
      exact .inr ⟨(asking_inj (Option.some.inj heq)).symm, rfl⟩
    · split
      · intro heq
        exact absurd (Option.some.inj heq) stream_ne_asking
      · exact .inl

/-- The second request of a call is not taken. -/
theorem kept_of_rollback (hspare : p.IsSpare s s.nextId) (hnew : p.isRunning name s = false)
    (hstream : s.add (.stream (streamRequest name) (p.handler name)) = (.ok id, s₁))
    (hask : (s₁.changed (·.editPlugins p.number (·.add name id))).add
      (.once (scheduleRequest name) fun _ reply => p.onScheduled name reply) = (.error e, s₂)) :
    p.Kept s ((s₂.changed (p.forget name)).remove id).2 := by
  obtain ⟨rfl, -, hworld, hlive⟩ := Registry.added_of_add hstream
  have hask' := Registry.add_error hask
  have hlive₂ : ∀ j, s₂.live[j]? = if s.nextId = j then some (p.stream name s.nextId) else s.live[j]? := by
    rw [hask']
    exact hlive
  have htable₂ : p.table s₂ = (p.table s).insert name s.nextId := by
    rw [hask', table_of_world rfl, Registry.world_changed, pluginsOf_editPlugins, table, hworld]
    rfl
  have ended : p.Ended name s.nextId s₂ _ := ended_of_remove ((hlive₂ _).trans (if_pos rfl))
  have hlive₃ : ∀ j, ((s₂.changed (p.forget name)).remove s.nextId).2.live[j]? =
      if s.nextId = j then none else s.live[j]? := by
    intro j
    rw [Registry.getElem?_remove, Registry.live_changed, hlive₂]
    split <;> rfl
  refine kept_of_gone hspare (fun other => ?_) hlive₃
  rw [ended.table, htable₂, getElem?_insert_ite]
  split
  · next hname => exact hname ▸ (isRunning_eq_false_iff.mp hnew).symm
  · rfl

/-- The stream that a call opens takes the next number, also from a stream of another plugin, which stays on the table. -/
theorem displaced_of_add (hother : name ≠ other)
    (hstream : s.add (.stream (streamRequest name) (p.handler name)) = (.ok id, s₁))
    (hask : (s₁.changed (·.editPlugins p.number (·.add name id))).add
      (.once (scheduleRequest name) fun _ reply => p.onScheduled name reply) = (.ok k, s₂)) :
    (p.table s₂)[other]? = (p.table s)[other]? ∧ ∀ j, p.Follows other s₂ j → p.Follows other s j ∧ j ≠ s.nextId := by
  obtain ⟨htable, hlive⟩ := live_of_add hstream hask
  refine ⟨?_, fun j hj => ?_⟩
  · rw [htable, getElem?_insert_ite, if_neg hother]
  · rw [Follows, hlive] at hj
    split at hj
    · next hnext =>
      subst hnext
      exact absurd (Option.some.inj hj).symm stream_ne_asking
    · split at hj
      · next hnext =>
        subst hnext
        exact absurd (stream_inj (Option.some.inj hj)) hother
      · next hnext => exact ⟨hj, Ne.symm hnext⟩

theorem displaced_of_schedule (hnew : p.isRunning name s = false) (hroom : s.room = none) (hother : name ≠ other) :
    ((p.schedule name).on s).1 = .ok true ∧ (p.table ((p.schedule name).on s).2)[other]? = (p.table s)[other]? ∧
      ∀ j, p.Follows other ((p.schedule name).on s).2 j → p.Follows other s j ∧ j ≠ s.nextId := by
  obtain ⟨s₁, hstream, hroom₁⟩ := Registry.exists_add_of_room_none hroom (.stream (streamRequest name) (p.handler name))
  obtain ⟨s₂, hask, -⟩ := Registry.exists_add_of_room_none
    (r := s₁.changed (·.editPlugins p.number (·.add name s.nextId))) hroom₁
    (.once (scheduleRequest name) fun _ reply => p.onScheduled name reply)
  have hresult : (p.schedule name).on s = (.ok true, s₂) := by
    rw [on_schedule hnew, hstream]
    dsimp only
    rw [hask]
  rw [hresult]
  exact ⟨rfl, displaced_of_add hother hstream hask⟩

/-- A call does nothing if the plugin runs.  Otherwise it fails and leaves everything as it was, or it opens a stream
under the next number and asks for the plugin under the one after it. -/
theorem schedule_cases (name : String) (hspare : p.IsSpare s s.nextId) (hspare' : p.IsSpare s (Registry.successor s.nextId)) :
    (p.isRunning name s = true ∧ (p.schedule name).on s = (.ok false, s)) ∨
    (p.isRunning name s = false ∧ (∃ e, ((p.schedule name).on s).1 = .error e) ∧
      p.Kept s ((p.schedule name).on s).2) ∨
    (p.isRunning name s = false ∧ ((p.schedule name).on s).1 = .ok true ∧
      p.Opened name s.nextId (Registry.successor s.nextId) s ((p.schedule name).on s).2) := by
  rcases hrunning : p.isRunning name s with _ | _
  · refine .inr ?_
    rw [on_schedule hrunning]
    rcases hadd : s.add (.stream (streamRequest name) (p.handler name)) with ⟨e | id, s₁⟩
    · obtain rfl := Registry.add_error hadd
      exact .inl ⟨rfl, ⟨e, rfl⟩, ⟨fun _ => rfl, fun _ _ => .rfl, fun _ _ => fun h => h⟩⟩
    · rcases hask : (s₁.changed (·.editPlugins p.number (·.add name id))).add
        (.once (scheduleRequest name) fun _ reply => p.onScheduled name reply) with ⟨e | k, s₂⟩
      · exact .inl ⟨rfl, ⟨e, by simp only [hask]⟩, by simpa only [hask] using kept_of_rollback hspare hrunning hadd hask⟩
      · exact .inr ⟨rfl, by simp only [hask], by simpa only [hask] using opened_of_add hspare hspare' hadd hask⟩
  · refine .inl ⟨rfl, ?_⟩
    rw [schedule, Attempt.on_bind_of_ok (Attempt.on_get s)]
    simp only [hrunning, if_true, Attempt.on_pure]

end PluginService
end LevelLink
