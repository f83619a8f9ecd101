import LevelLink.Proofs.Link.Wrapping
import LevelLink.Proofs.Stream.Scheduling

/-!
# Messages to the plugins of a service

What a message does that reaches a subscriber of the service: a notification stream, a request to run a plugin, or a
request to end a stream.  Each keeps the streams, or ends one of them (`message_cases`), so along a run of calls and
messages the table of the service and the registry agree (`Run.agrees`).  This is so for as long as no number comes again
that a stream still has: then the stream goes, and its plugin stays on the table (`displaced_of_schedule`).
-/

namespace LevelLink

namespace PluginService

variable {υ : Type} {p : PluginService} {name other : String} {s s' s₁ : Session υ} {id j : SubscriberId} {m : Message}

/-! ### Effects one after the other -/

theorem Kept.ended (kept : p.Kept s s₁) (ended : p.Ended name id s₁ s') : p.Ended name id s s' := by
  refine ⟨?_, ?_, ?_⟩
  · intro other
    rw [ended.table, kept.table]
  · intro other j
    rw [ended.follows, kept.follows]
  · intro other j hasks
    exact kept.asks other j (ended.asks other j hasks)

/-! ### Notification streams -/

/-- What a notification stream does while it is out. -/
theorem onFrame_cases (p : PluginService) (name : String) (id : SubscriberId) (m : Message)
    (nested : Message → Session υ → Nat × Session υ) (r : Session υ) :
    (∃ e n, Registry.runWith nested (p.onFrame name id m) r = (some e, { r with nextId := n })) ∨
    Registry.runWith nested (p.onFrame name id m) r = (none, r) ∨
    (∃ k r₁, r.add (.once (closeRequest name) fun _ _ => .done) = (.ok k, r₁) ∧
      Registry.runWith nested (p.onFrame name id m) r = (none, r₁.changed (p.complete name))) ∨
    Registry.runWith nested (p.onFrame name id m) r = (none, ((r.changed (p.forget name)).remove id).2) := by
  unfold onFrame
  rcases hread : Reader.int32.inStream m with e | ⟨opcode, rest⟩
  · exact .inl ⟨e, r.nextId, rfl⟩
  · dsimp only
    rcases hop : PluginOp.ofCode? opcode with _ | op
    · exact .inl ⟨_, r.nextId, rfl⟩
    · cases op with
      | taskStarted => exact .inr (.inl rfl)
      | streamEnded => exact .inr (.inr (.inr rfl))
      | taskCompleted =>
        rcases hadd : r.add (.once (closeRequest name) fun _ _ => .done) with ⟨e | k, r₁⟩
        · obtain rfl := Registry.add_error hadd
          refine .inl ⟨.transport e, Registry.successor r.nextId, ?_⟩
          simp only [Registry.runWith, hadd]
        · refine .inr (.inr (.inl ⟨k, r₁, rfl, ?_⟩))
          simp only [Registry.runWith, hadd]

/-- A stream that asks the peer to end it, under the number that was next, and is put back. -/
theorem kept_of_closing {r : Session υ} (hlive : s.live[id]? = some (p.stream name id)) (hspare : p.IsSpare s s.nextId)
    (htable : p.table r = p.table s)
    (hr : ∀ j, r.live[j]? = if id = j then some (p.stream name id)
      else if s.nextId = j then some (closing name s.nextId) else s.live[j]?) : p.Kept s r := by
  refine kept_of_live (fun other => congrArg (·[other]?) htable) fun j => ?_
  by_cases hself : id = j
  · left
    exact (hr j).trans ((if_pos hself).trans (hself ▸ hlive.symm))
  · by_cases hnext : s.nextId = j
    · right
      have hclosing := (hr j).trans ((if_neg hself).trans (if_pos hnext))
      subst hnext
      refine ⟨hspare, ?_, ?_⟩
      · intro other hfollows
        exact stream_ne_closing (Option.some.inj (hfollows.symm.trans hclosing))
      · intro other hasks
        exact closing_ne_asking (Option.some.inj (hclosing.symm.trans hasks))
    · left
      exact (hr j).trans ((if_neg hself).trans (if_neg hnext))

/-- A message to a notification stream. -/
theorem dispatch_stream_cases (hlive : s.live[m.id]? = some (p.stream name m.id))
    (haccepts : (p.stream name m.id : Subscriber (World υ)).accepts m = true) (hspare : p.IsSpare s s.nextId)
    (depth : Nat) :
    p.Kept s (Registry.dispatch (depth + 1) m s).2 ∨ p.Ended name m.id s (Registry.dispatch (depth + 1) m s).2 := by
  have hout : ∀ j, (s.takeOut m.id).live[j]? = if m.id = j then none else s.live[j]? := s.getElem?_takeOut m.id
  rcases p.onFrame_cases name m.id m (Registry.dispatch depth) (s.takeOut m.id) with
    ⟨e, n, hrun⟩ | hrun | ⟨k, r₁, hadd, hrun⟩ | hrun
  · right
    rw [Registry.dispatch_of_failed hlive haccepts rfl hrun ⟨(hout m.id).trans (if_pos rfl), rfl, rfl⟩]
    exact ended_of_live (running_forget _) hout
  · left
    rw [Registry.dispatch_of_back hlive haccepts hrun rfl]
    refine kept_of_live (fun _ => rfl) fun j => .inl ?_
    rw [getElem?_insert_ite, hout]
    split
    · next hj => exact hj ▸ hlive.symm
    · rfl
  · left
    obtain ⟨rfl, rfl⟩ := Registry.add_ok hadd
    rw [Registry.dispatch_of_back hlive haccepts hrun rfl]
    refine kept_of_closing hlive hspare (congrArg PluginTable.running (pluginsOf_complete ..)) fun j => ?_
    show (((s.takeOut m.id).live.insert s.nextId _).insert m.id _)[j]? = _
    rw [getElem?_insert_ite, getElem?_insert_ite, hout]
    split
    · rfl
    · rfl
  · right
    have hremove : (((s.takeOut m.id).changed (p.forget name)).remove m.id).2 =
        (s.takeAway m.id).changed (p.forget name) :=
      congrArg Prod.snd (Registry.remove_of_out (r := (s.takeOut m.id).changed (p.forget name))
        ((hout m.id).trans (if_pos rfl)) rfl rfl)
    rw [hremove] at hrun
    rw [Registry.dispatch_of_gone hlive haccepts hrun rfl]
    exact ended_of_live (running_forget _) hout

/-! ### Requests -/

/-- A message refuses what was asked for. -/
def IsRefusal (m : Message) : Prop := ∃ rejection rest, Reply.read.parse m = .ok (.nack rejection, rest)

theorem onScheduled_of_not_isRefusal (h : ¬ IsRefusal m) : p.onScheduled (υ := υ) name m = .done := by
  unfold onScheduled
  split
  · next rejection rest hread => exact absurd ⟨rejection, rest, hread⟩ h
  · rfl

/-- A refusal looks for the stream that the table has for the plugin. -/
theorem runWith_onScheduled (p : PluginService) (name : String) (h : IsRefusal m)
    (nested : Message → Session υ → Nat × Session υ) (r : Session υ) :
    Registry.runWith nested (p.onScheduled name m) r =
      match (p.table r)[name]? with
      | some stream => (none, ((r.changed (p.forget name)).remove stream).2)
      | none => (none, r) := by
  obtain ⟨rejection, rest, hread⟩ := h
  unfold onScheduled
  rw [hread]
  simp only [Registry.runWith]
  show (Registry.runWith nested (match (p.table r)[name]? with
    | some stream => .edit (p.forget name) (.remove stream fun _ => .done)
    | none => .done) r) = _
  rcases (p.table r)[name]? with _ | stream <;> rfl

section Request

variable {sub : Subscriber (World υ)}

/-- A subscriber that has been taken away was no stream and is no request. -/
theorem kept_takeAway (hlive : s.live[id]? = some sub) (hsub : ∀ name, sub ≠ p.stream name id) :
    p.Kept s (s.takeAway id) := by
  refine kept_of_gone (fun name hfollows => ?_) (fun _ => rfl) (s.getElem?_takeOut id)
  exact hsub name (Option.some.inj (hlive.symm.trans hfollows))

theorem Kept.settled (kept : p.Kept s s') : p.Kept s s'.settled := ⟨kept.table, kept.follows, kept.asks⟩

theorem Ended.settled (ended : p.Ended name id s s') : p.Ended name id s s'.settled :=
  ⟨ended.table, ended.follows, ended.asks⟩

/-- A reply to a request to end a stream. -/
theorem dispatch_closing (hlive : s.live[m.id]? = some (closing name m.id))
    (haccepts : (closing name m.id : Subscriber (World υ)).accepts m = true) (depth : Nat) :
    p.Kept s (Registry.dispatch (depth + 1) m s).2 := by
  have hrun : Registry.runWith (Registry.dispatch depth) (.done : Program (World υ)) (s.takeAway m.id) =
      (none, s.takeAway m.id) := rfl
  rw [Registry.dispatch_once hlive haccepts hrun rfl]
  exact (kept_takeAway hlive fun _ heq => stream_ne_closing heq.symm).settled

/-- A reply to a request to run a plugin that does not refuse it. -/
theorem dispatch_asking_of_not_isRefusal (hlive : s.live[m.id]? = some (p.asking name m.id))
    (haccepts : (p.asking name m.id : Subscriber (World υ)).accepts m = true) (h : ¬ IsRefusal m) (depth : Nat) :
    p.Kept s (Registry.dispatch (depth + 1) m s).2 := by
  have hrun : Registry.runWith (Registry.dispatch depth) (p.onScheduled name m) (s.takeAway m.id) =
      (none, s.takeAway m.id) := by
    rw [onScheduled_of_not_isRefusal h]
    rfl
  rw [Registry.dispatch_once hlive haccepts hrun rfl]
  exact (kept_takeAway hlive fun _ heq => stream_ne_asking heq.symm).settled

/-- A refusal ends the stream that the plugin has, if it has one. -/
theorem dispatch_refusal (agrees : p.Agrees s) (hlive : s.live[m.id]? = some (p.asking name m.id))
    (haccepts : (p.asking name m.id : Subscriber (World υ)).accepts m = true) (h : IsRefusal m) (depth : Nat) :
    ((p.table s)[name]? = none ∧ p.Kept s (Registry.dispatch (depth + 1) m s).2) ∨
      ∃ id, p.Follows name s id ∧ p.Ended name id s (Registry.dispatch (depth + 1) m s).2 := by
  have kept : p.Kept s (s.takeAway m.id) := kept_takeAway hlive fun _ heq => stream_ne_asking heq.symm
  have hrun := runWith_onScheduled p name h (Registry.dispatch depth) (s.takeAway m.id)
  rw [kept.table] at hrun
  rcases htable : (p.table s)[name]? with _ | stream
  · left
    rw [htable] at hrun
    rw [Registry.dispatch_once hlive haccepts hrun rfl]
    exact ⟨rfl, kept.settled⟩
  · right
    rw [htable] at hrun
    have hfollows : p.Follows name s stream := (agrees name stream).mp htable
    have hstands : (s.takeAway m.id).live[stream]? = some (p.stream name stream) :=
      (kept.follows name stream).mpr hfollows
    have hremoved : (((s.takeAway m.id).changed (p.forget name)).remove stream).2.outRemoved = true := by
      rw [Registry.remove, Registry.live_changed, hstands]
      rfl
    rw [Registry.dispatch_once hlive haccepts hrun hremoved]
    exact ⟨stream, hfollows, (kept.ended (ended_of_remove hstands)).settled⟩

end Request

/-! ### Whoever is reached -/

/-- A message that reaches nobody but subscribers of the service. -/
def ReachesOwn (p : PluginService) (s : Session υ) (m : Message) : Prop :=
  ∀ sub, s.live[m.id]? = some sub → sub.accepts m = true → p.Owns m.id sub

/-- Such a message keeps everything, or it ends a stream. -/
theorem message_cases (agrees : p.Agrees s) (hspare : p.IsSpare s s.nextId) (hown : p.ReachesOwn s m) (depth : Nat) :
    p.Kept s (Registry.dispatch (depth + 1) m s).2 ∨
      ∃ name id, p.Follows name s id ∧ p.Ended name id s (Registry.dispatch (depth + 1) m s).2 := by
  rcases hlive : s.live[m.id]? with _ | sub
  · rw [Registry.dispatch_of_getElem?_eq_none hlive]
    exact .inl (.refl p s)
  · rcases haccepts : sub.accepts m with _ | _
    · rw [Registry.dispatch_of_not_accepts hlive haccepts]
      exact .inl (.refl p s)
    · obtain ⟨name, rfl | rfl | rfl⟩ := hown sub hlive haccepts
      · rcases dispatch_stream_cases hlive haccepts hspare depth with kept | ended
        · exact .inl kept
        · exact .inr ⟨name, m.id, hlive, ended⟩
      · by_cases hrefusal : IsRefusal m
        · rcases dispatch_refusal agrees hlive haccepts hrefusal depth with ⟨-, kept⟩ | ⟨id, hfollows, ended⟩
          · exact .inl kept
          · exact .inr ⟨name, id, hfollows, ended⟩
        · exact .inl (dispatch_asking_of_not_isRefusal hlive haccepts hrefusal depth)
      · exact .inl (dispatch_closing hlive haccepts depth)

/-! ### Runs -/

/-- A call that has opened a stream, with the numbers of its stream and its request. -/
structure Call where
  name : String
  stream : SubscriberId
  request : SubscriberId
  deriving DecidableEq, Repr

/-- The stream that a call has opened is still there. -/
def Runs (p : PluginService) (s : Session υ) (c : Call) : Prop := p.Follows c.name s c.stream

/-- The calls that a call for a plugin makes of the earlier ones. -/
def called (p : PluginService) (name : String) (calls : List Call) (s : Session υ) : List Call :=
  match ((p.schedule name).on s).1 with
  | .ok true => calls ++ [⟨name, s.nextId, Registry.successor s.nextId⟩]
  | _ => calls

/-- A run of calls for plugins and of messages to the service, with the calls that have opened a stream, the earliest
first.  Meanwhile anything may happen that keeps the plugins of the service: other subscribers come, go and get
messages, and the room for frames ends.  A number that is about to be given has no stream of the service under it:
numbers come again, and the registry would put the new subscriber in the place of the stream (`displaced_of_schedule`). -/
inductive Run (p : PluginService) (depth : Nat) (s₀ : Session υ) : List Call → Session υ → Prop where
  | start : Run p depth s₀ [] s₀
  | schedule {calls : List Call} {s : Session υ} (run : Run p depth s₀ calls s) (name : String)
      (hspare : p.IsSpare s s.nextId) (hspare' : p.IsSpare s (Registry.successor s.nextId)) :
      Run p depth s₀ (p.called name calls s) ((p.schedule name).on s).2
  | message {calls : List Call} {s : Session υ} (run : Run p depth s₀ calls s) (m : Message)
      (hspare : p.IsSpare s s.nextId) (hown : p.ReachesOwn s m) :
      Run p depth s₀ calls (Registry.dispatch (depth + 1) m s).2
  | others {calls : List Call} {s s' : Session υ} (run : Run p depth s₀ calls s) (kept : p.Kept s s') :
      Run p depth s₀ calls s'

/-- The service has not been used yet. -/
structure Unused (p : PluginService) (s : Session υ) : Prop where
  table : ∀ name : String, (p.table s)[name]? = none
  follows : ∀ name id, ¬ p.Follows name s id
  asks : ∀ name id, ¬ p.Asks name s id

variable {depth : Nat} {s₀ : Session υ} {calls : List Call}

theorem Unused.agrees (unused : p.Unused s) : p.Agrees s := by
  intro name id
  rw [unused.table]
  exact iff_of_false nofun (unused.follows name id)

/-- The table and the registry agree after every run. -/
theorem Run.agrees (run : p.Run depth s₀ calls s) (unused : p.Unused s₀) : p.Agrees s := by
  induction run with
  | start => exact unused.agrees
  | schedule run name hspare hspare' ih =>
    rcases schedule_cases name hspare hspare' with ⟨-, hsame⟩ | ⟨-, -, kept⟩ | ⟨hnew, -, opened⟩
    · rw [hsame]
      exact ih
    · exact ih.kept kept
    · exact ih.opened (isRunning_eq_false_iff.mp hnew) hspare opened
  | message run m hspare hown ih =>
    rcases message_cases ih hspare hown _ with kept | ⟨name, id, hfollows, ended⟩
    · exact ih.kept kept
    · exact ih.ended hfollows ended
  | others run kept ih => exact ih.kept kept

/-- A call says that a plugin runs already exactly if the table has a stream for it. -/
theorem fst_schedule_eq_false_iff : ((p.schedule name).on s).1 = .ok false ↔ p.isRunning name s = true := by
  rcases hrunning : p.isRunning name s with _ | _
  · refine iff_of_false ?_ nofun
    rw [on_schedule hrunning]
    split
    · nofun
    · split <;> nofun
  · refine iff_of_true ?_ rfl
    rw [schedule, Attempt.on_bind_of_ok (Attempt.on_get s)]
    simp only [hrunning, if_true, Attempt.on_pure]

/-- After every run of calls and messages, the table has exactly the streams that are registered.  There is one for a
plugin at most; a plugin counts as running, and a call for it says that it runs already, exactly if there is one. -/
theorem bookkeeping_of_run (unused : p.Unused s₀) (run : p.Run depth s₀ calls s) (name : String) :
    (∀ id, (p.table s)[name]? = some id ↔ p.Follows name s id) ∧
    (∀ id id', p.Follows name s id → p.Follows name s id' → id = id') ∧
    (p.isRunning name s = true ↔ ∃ id, p.Follows name s id) ∧
    (((p.schedule name).on s).1 = .ok false ↔ ∃ id, p.Follows name s id) := by
  have agrees := run.agrees unused
  exact ⟨agrees name, fun _ _ => agrees.unique, agrees.isRunning_iff,
    fst_schedule_eq_false_iff.trans agrees.isRunning_iff⟩

section Sample

def sampleStart : PluginService × Session Unit := PluginService.start (Session.start ())

def sampleService : PluginService := sampleStart.1

/-- A plugin has been scheduled. -/
def sampleScheduled : Session Unit := ((sampleService.schedule "a").on sampleStart.2).2

/-- The peer ends the stream of the plugin. -/
def sampleEnding : Message :=
  (((Message.start node "NOTIFICATION_STREAM").withId 1).writeInt32 PluginOp.streamEnded.code).prepare

/-- The stream has ended. -/
def sampleStopped : Session Unit := (Registry.dispatch 1 sampleEnding sampleScheduled).2

/-- The plugin has been scheduled once more. -/
def sampleAgain : Session Unit := ((sampleService.schedule "a").on sampleStopped).2

def sampleCalls : List Call := [⟨"a", 1, 2⟩, ⟨"a", 3, 4⟩]

theorem isSpare_of_contains (h : s.contains id = false) : p.IsSpare s id := by
  intro name hfollows
  rw [Follows, Registry.getElem?_of_contains h] at hfollows
  cases hfollows

theorem reachesOwn_of_follows (h : p.Follows name s m.id) : p.ReachesOwn s m := by
  intro sub hlive _
  exact ⟨name, .inl (Option.some.inj (hlive.symm.trans h))⟩

theorem unused_sampleStart : sampleService.Unused sampleStart.2 := by
  have hlive : sampleStart.2.live = ∅ := rfl
  have htable : sampleService.table sampleStart.2 = ∅ := rfl
  refine ⟨?_, ?_, ?_⟩
  · simp [htable]
  · simp [Follows, hlive]
  · simp [Asks, hlive]

theorem run_sampleScheduled : sampleService.Run 0 sampleStart.2 [⟨"a", 1, 2⟩] sampleScheduled := by
  have hcalled : sampleService.called "a" [] sampleStart.2 = [⟨"a", 1, 2⟩] := by decide +kernel
  rw [← hcalled]
  exact .schedule .start "a" (isSpare_of_contains (by decide +kernel)) (isSpare_of_contains (by decide +kernel))

theorem run_sampleAgain : sampleService.Run 0 sampleStart.2 sampleCalls sampleAgain := by
  have stopped : sampleService.Run 0 sampleStart.2 [⟨"a", 1, 2⟩] sampleStopped := by
    have hfollows : sampleService.Follows "a" sampleScheduled 1 :=
      (run_sampleScheduled.agrees unused_sampleStart "a" 1).mp (by decide +kernel)
    exact run_sampleScheduled.message sampleEnding (isSpare_of_contains (by decide +kernel)) (reachesOwn_of_follows hfollows)
  have hcalled : sampleService.called "a" [⟨"a", 1, 2⟩] sampleStopped = sampleCalls := by decide +kernel
  rw [← hcalled]
  exact stopped.schedule "a" (isSpare_of_contains (by decide +kernel)) (isSpare_of_contains (by decide +kernel))

theorem bookkeeping_of_sampleAgain :
    sampleService.Unused sampleStart.2 ∧ sampleService.Run 0 sampleStart.2 sampleCalls sampleAgain ∧
    sampleService.Follows "a" sampleAgain 3 ∧ ((sampleService.schedule "a").on sampleAgain).1 = .ok false := by
  have hbookkeeping := bookkeeping_of_run unused_sampleStart run_sampleAgain "a"
  have hfollows : sampleService.Follows "a" sampleAgain 3 := (hbookkeeping.1 3).mp (by decide +kernel)
  exact ⟨unused_sampleStart, run_sampleAgain, hfollows, hbookkeeping.2.2.2.mpr ⟨3, hfollows⟩⟩

/-- Numbers that others have used up change nothing for the service. -/
theorem kept_of_usedUp {n : Nat} (used : Registry.UsedUp n s s') : p.Kept s s' := by
  refine ⟨fun other => ?_, fun other j => ?_, fun other j hasks => ?_⟩
  · rw [table, used.world]
    rfl
  · rw [Follows, used.live]
    rfl
  · rwa [Asks, used.live] at hasks

theorem early_sampleScheduled : Registry.Early sampleScheduled := by
  have early : Registry.Early sampleStart.2 := Registry.early_of_empty (by decide) rfl
  exact Registry.Early.add (early.add (by decide) _).changed (by decide) _

/-- When as many numbers as there are have been given since the plugin was scheduled, that of its stream is next, and a call
for another plugin takes it. -/
theorem displaced_of_usedUp {s : Session Unit} (used : Registry.UsedUp (Registry.numberLimit - 1) sampleScheduled s) :
    let s' := ((sampleService.schedule "b").on s).2
    sampleService.Run 0 sampleStart.2 [⟨"a", 1, 2⟩] s ∧ ((sampleService.schedule "b").on s).1 = .ok true ∧
    (sampleService.table s')["a"]? = some 1 ∧ ∀ id, ¬ sampleService.Follows "a" s' id := by
  have run : sampleService.Run 0 sampleStart.2 [⟨"a", 1, 2⟩] s := run_sampleScheduled.others (kept_of_usedUp used)
  have hnext : s.nextId = 1 := used.nextId_eq (by decide) (by decide +kernel)
  have htable : sampleService.table s = sampleService.table sampleScheduled :=
    congrArg (fun w : World Unit => (w.pluginsOf sampleService.number).running) used.world
  have hnew : sampleService.isRunning "b" s = false := by
    rw [isRunning_eq_false_iff, htable]
    decide +kernel
  have hroom : s.room = none := used.room
  obtain ⟨hopened, hsame, hfollows⟩ := displaced_of_schedule hnew hroom (show "b" ≠ "a" by decide)
  have hrunning : (sampleService.table s)["a"]? = some 1 := by
    rw [htable]
    decide +kernel
  refine ⟨run, hopened, hsame.trans hrunning, fun id hid => ?_⟩
  obtain ⟨hbefore, hne⟩ := hfollows id hid
  have hone : some id = some 1 := ((run.agrees unused_sampleStart "a" id).mpr hbefore).symm.trans hrunning
  exact hne ((Option.some.inj hone).trans hnext.symm)

/-- All numbers but two have been given since the plugin was scheduled, and that of its stream is next. -/
def sampleAround : Session Unit := sampleScheduled.spent (Registry.numberLimit - 1)

/-- A plugin that is on the table has no stream, counts as running and is said to run already. -/
theorem bookkeeping_of_sampleAround :
    let s' := ((sampleService.schedule "b").on sampleAround).2
    sampleService.Unused sampleStart.2 ∧ sampleService.Run 0 sampleStart.2 [⟨"a", 1, 2⟩] sampleAround ∧
    ((sampleService.schedule "b").on sampleAround).1 = .ok true ∧ (sampleService.table s')["a"]? = some 1 ∧
    (∀ id, ¬ sampleService.Follows "a" s' id) ∧ sampleService.isRunning "a" s' = true ∧
    ((sampleService.schedule "a").on s').1 = .ok false := by
  have used : Registry.UsedUp (Registry.numberLimit - 1) sampleScheduled sampleAround :=
    Registry.usedUp_spent (by decide +kernel) (early_sampleScheduled.freeFor (by decide +kernel))
  obtain ⟨run, hopened, htable, hnone⟩ := displaced_of_usedUp used
  have hrunning := isRunning_iff.mpr ⟨1, htable⟩
  exact ⟨unused_sampleStart, run, hopened, htable, hnone, hrunning, fst_schedule_eq_false_iff.mpr hrunning⟩

end Sample

end PluginService
end LevelLink
