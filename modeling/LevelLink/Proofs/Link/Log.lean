import LevelLink.Link.Registry

/-!
# Logs of runs

A log lists what happens in a run: what is asked of the registry, whom a dispatch reaches, and when the listeners
of a subscriber start and end.  Every entry has the registry that it leaves.  `Registry.log` is the log of a
program that runs from the outside, and `Registry.dispatchLog` the log of one dispatch.

A log is a path of a transition system (`path_log`, `path_dispatchLog`).  A `Step` says what an event can do to
the registry and to the subscribers that are out, and leaves open what listeners want.  So what every step keeps
is kept by every run, whatever the listeners do and however deep they dispatch.
-/

namespace LevelLink

/-- A listener of a subscriber. -/
inductive Listener where
  | handler
  | errorHook
  /-- The callback at a place, the first being at 0. -/
  | callback (place : Nat)
  deriving DecidableEq, Repr

/-- What happens in a run. -/
inductive Event (ω : Type) where
  /-- A subscriber is added; it gets a number if its request can be sent. -/
  | add (subscriber : Subscriber ω) (answer : Except TransportError SubscriberId)
  /-- A subscriber is removed, on request or because its stream handler has failed; `answer` tells whether there
  was one to remove. -/
  | remove (id : SubscriberId) (failure : Option StreamError) (answer : Bool)
  | send (m : Message)
  | post (m : Message)
  /-- The world changes. -/
  | edit
  /-- A dispatch begins, and takes the subscriber out that it reaches. -/
  | dispatch (m : Message) (reached : Option SubscriberId)
  | enter (id : SubscriberId) (listener : Listener) (m : Message)
  | leave (id : SubscriberId)
  /-- The listeners of a subscriber have run; it is put back unless it was removed. -/
  | finish (id : SubscriberId)

/-- An event, and the registry that it leaves. -/
structure Entry (ω : Type) where
  event : Event ω
  after : Registry ω

/-- What has happened, the earliest first. -/
abbrev Log (ω : Type) := List (Entry ω)

/-! ### Reading a log -/

namespace Event

variable {ω : Type}

/-- Whether an event uses a number up. -/
def isAdd : Event ω → Bool
  | .add _ _ => true
  | _ => false

/-- The number that an event has given. -/
def given? : Event ω → Option SubscriberId
  | .add _ (.ok id) => some id
  | _ => none

/-- Whether an event has removed the subscriber `k`. -/
def removes (k : SubscriberId) : Event ω → Bool
  | .remove id _ answer => id == k && answer
  | _ => false

theorem eq_add_of_given? {e : Event ω} {id : SubscriberId} (h : e.given? = some id) :
    ∃ s, e = .add s (.ok id) := by
  unfold given? at h
  split at h
  · obtain rfl := Option.some.inj h
    exact ⟨_, rfl⟩
  · cases h

end Event

namespace Log

variable {ω : Type} (log : Log ω)

/-- The number of additions, those that fail included. -/
def additions : Nat := log.countP fun entry => entry.event.isAdd

/-- The numbers that are given, in order. -/
def given : List SubscriberId := log.filterMap fun entry => entry.event.given?

theorem additions_cons (entry : Entry ω) : additions (entry :: log) = log.additions + entry.event.isAdd.toNat := by
  unfold additions
  rw [List.countP_cons]
  cases entry.event.isAdd <;> rfl

theorem additions_append (front back : Log ω) : additions (front ++ back) = front.additions + back.additions :=
  List.countP_append

theorem given_cons (entry : Entry ω) : given (entry :: log) = entry.event.given?.toList ++ given log := by
  unfold given
  rw [List.filterMap_cons]
  cases entry.event.given? <;> rfl

end Log

namespace Registry

variable {ω : Type}

/-! ### Logs of programs and listeners -/

section Listeners

variable (nested : Message → Registry ω → Nat × Registry ω) (nestedLog : Message → Registry ω → Log ω)

/-- The log of a program.  `nestedLog` is the log of a dispatch that the program makes itself. -/
def runLog : Program ω → Registry ω → Log ω
  | .done, _ => []
  | .fail _, _ => []
  | .look next, r => runLog (next r.world) r
  | .edit change next, r => ⟨.edit, r.changed change⟩ :: runLog next (r.changed change)
  | .add s next, r => ⟨.add s (r.add s).1, (r.add s).2⟩ :: runLog (next (r.add s).1) (r.add s).2
  | .remove id next, r =>
    ⟨.remove id none (r.remove id).1, (r.remove id).2⟩ :: runLog (next (r.remove id).1) (r.remove id).2
  | .contains id next, r => runLog (next (r.contains id)) r
  | .size next, r => runLog (next r.size) r
  | .send m next, r => ⟨.send m, (r.send m).2⟩ :: runLog (next (r.send m).1) (r.send m).2
  | .post m next, r => ⟨.post m, r.post m⟩ :: runLog next (r.post m)
  | .dispatch m next, r => nestedLog m r ++ runLog (next (nested m r).1) (nested m r).2

variable (id : SubscriberId) (m : Message)

/-- The log of what a callback does while it runs. -/
def callBody : Callback (Program ω) → Registry ω → Log ω
  | .each run, r => runLog nested nestedLog (run id m) r
  | .once run, r =>
    ⟨.remove id none (r.remove id).1, (r.remove id).2⟩ ::
      runLog nested nestedLog (run id m) (r.remove id).2
  | .spent, r => [⟨.remove id none (r.remove id).1, (r.remove id).2⟩]

/-- The log of one callback. -/
def callLog (place : Nat) (c : Callback (Program ω)) (r : Registry ω) : Log ω :=
  ⟨.enter id (.callback place) m, r⟩ :: callBody nested nestedLog id m c r ++
    [⟨.leave id, (call nested id m c r).2⟩]

/-- The log of callbacks in order. -/
def callAllLog : (place : Nat) → List (Callback (Program ω)) → Registry ω → Log ω
  | _, [], _ => []
  | place, c :: rest, r =>
    callLog nested nestedLog id m place c r ++ callAllLog (place + 1) rest (call nested id m c r).2

/-- The log of the error listener and the removal after it. -/
def errorLog (h : Handler ω (Program ω)) (e : StreamError) (r : Registry ω) : Log ω :=
  let after := (runWith nested (h.onError id e) r).2
  ⟨.enter id .errorHook m, r⟩ :: runLog nested nestedLog (h.onError id e) r ++
    [⟨.leave id, after⟩, ⟨.remove id (some e) (after.remove id).1, (after.remove id).2⟩]

/-- The log of the listeners of a subscriber that is out. -/
def listenLog (s : Subscriber ω) (r : Registry ω) : Log ω :=
  match s.handler with
  | none => callAllLog nested nestedLog id m 0 s.callbacks r
  | some h =>
    ⟨.enter id .handler m, r⟩ :: runLog nested nestedLog (h.onFrame id m) r ++
      match runWith nested (h.onFrame id m) r with
      | (none, r) => ⟨.leave id, r⟩ :: callAllLog nested nestedLog id m 0 s.callbacks r
      | (some e, r) => ⟨.leave id, r⟩ :: errorLog nested nestedLog id m h e r

end Listeners

/-- The log of a dispatch. -/
def dispatchLog : (depth : Nat) → Message → Registry ω → Log ω
  | 0, m, r => [⟨.dispatch m none, r⟩]
  | depth + 1, m, r =>
    match r.live[m.id]? with
    | none => [⟨.dispatch m none, r⟩]
    | some s =>
      if s.accepts m then
        ⟨.dispatch m (some m.id), r.takeOut m.id⟩ ::
          listenLog (dispatch depth) (dispatchLog depth) m.id m s (r.takeOut m.id) ++
            [⟨.finish m.id, (dispatch (depth + 1) m r).2⟩]
      else
        [⟨.dispatch m none, r⟩]

/-- The registry after a program that runs from the outside, dispatches nesting at most `depth` deep. -/
def after (depth : Nat) (p : Program ω) (r : Registry ω) : Registry ω := (runWith (dispatch depth) p r).2

/-- The log of a program that runs from the outside. -/
def log (depth : Nat) (p : Program ω) (r : Registry ω) : Log ω :=
  runLog (dispatch depth) (dispatchLog depth) p r

end Registry

/-! ### Steps -/

/-- A subscriber that is out while its listeners run. -/
structure Visit where
  id : SubscriberId
  request : Message

/-- A moment of a run. -/
structure Moment (ω : Type) where
  registry : Registry ω
  /-- The subscribers that are out, the latest first. -/
  visits : List Visit
  /-- Whether a listener of the latest of them is running; what runs from the outside runs always. -/
  busy : Bool

/-- Two registries that differ at most in the queues and the world. -/
structure Registry.SameSubscribers {ω : Type} (r r' : Registry ω) : Prop where
  live : r'.live = r.live
  nextId : r'.nextId = r.nextId
  out : r'.out = r.out
  outRemoved : r'.outRemoved = r.outRemoved

/-- Whether an event is about the queues or the world alone. -/
def Event.IsQuiet {ω : Type} : Event ω → Prop
  | .send _ | .post _ | .edit => True
  | _ => False

namespace Moment

section Steps

variable {ω : Type} (limit : Nat)

/-- What an event does where dispatches nest at most `limit` deep. -/
inductive Step : Moment ω → Event ω → Moment ω → Prop where
  | quiet {r r' : Registry ω} {visits : List Visit} {busy : Bool} {e : Event ω} (he : e.IsQuiet)
      (h : r.SameSubscribers r') : Step ⟨r, visits, busy⟩ e ⟨r', visits, busy⟩
  | add (r : Registry ω) (visits : List Visit) (busy : Bool) (s : Subscriber ω) :
      Step ⟨r, visits, busy⟩ (.add s (r.add s).1) ⟨(r.add s).2, visits, busy⟩
  | remove (r : Registry ω) (visits : List Visit) (busy : Bool) (id : SubscriberId)
      (failure : Option StreamError) :
      Step ⟨r, visits, busy⟩ (.remove id failure (r.remove id).1) ⟨(r.remove id).2, visits, busy⟩
  /-- A dispatch reaches nobody if nobody has the number and the names, or if it is too deep. -/
  | miss {r : Registry ω} {visits : List Visit} {busy : Bool} {m : Message}
      (h : visits.length < limit → ∀ s, r.live[m.id]? = some s → s.accepts m = false) :
      Step ⟨r, visits, busy⟩ (.dispatch m none) ⟨r, visits, busy⟩
  | reach {r : Registry ω} {visits : List Visit} {m : Message} {s : Subscriber ω}
      (hlive : r.live[m.id]? = some s) (haccepts : s.accepts m = true) :
      Step ⟨r, visits, true⟩ (.dispatch m (some m.id))
        ⟨r.takeOut m.id, ⟨m.id, s.request⟩ :: visits, false⟩
  | enter (r : Registry ω) (v : Visit) (visits : List Visit) (listener : Listener) (m : Message) :
      Step ⟨r, v :: visits, false⟩ (.enter v.id listener m) ⟨r, v :: visits, true⟩
  | leave (r : Registry ω) (v : Visit) (visits : List Visit) :
      Step ⟨r, v :: visits, true⟩ (.leave v.id) ⟨r, v :: visits, false⟩
  | finish {r : Registry ω} {v : Visit} {visits : List Visit} {s : Subscriber ω}
      (hrequest : s.request = v.request) :
      Step ⟨r, v :: visits, false⟩ (.finish v.id) ⟨r.putBack s v.id, visits, true⟩

/-- The log leads from one moment to another. -/
inductive Path : Moment ω → Log ω → Moment ω → Prop where
  | nil (σ : Moment ω) : Path σ [] σ
  | cons {σ τ υ : Moment ω} {e : Event ω} {log : Log ω} (step : Step limit σ e τ) (rest : Path τ log υ) :
      Path σ (⟨e, τ.registry⟩ :: log) υ

end Steps

namespace Path

variable {ω : Type} {limit : Nat} {σ τ υ : Moment ω} {e : Event ω}

theorem quiet {r r' : Registry ω} {visits : List Visit} {busy : Bool} {log : Log ω} (he : e.IsQuiet)
    (h : r.SameSubscribers r') (rest : Path limit ⟨r', visits, busy⟩ log υ) :
    Path limit ⟨r, visits, busy⟩ (⟨e, r'⟩ :: log) υ := .cons (.quiet he h) rest

theorem single (step : Step limit σ e τ) : Path limit σ [⟨e, τ.registry⟩] τ := .cons step (.nil τ)

/-- Paths compose where they meet. -/
theorem append {front back : Log ω} (h : Path limit σ front τ) (h' : Path limit τ back υ) :
    Path limit σ (front ++ back) υ := by
  induction h with
  | nil => exact h'
  | cons step _ ih => exact .cons step (ih h')

/-- A path can be cut between any two entries. -/
theorem append_iff {front back : Log ω} :
    Path limit σ (front ++ back) υ ↔ ∃ τ, Path limit σ front τ ∧ Path limit τ back υ := by
  constructor
  · intro h
    induction front generalizing σ with
    | nil => exact ⟨σ, .nil σ, h⟩
    | cons entry front ih =>
      cases h with
      | cons step rest =>
        obtain ⟨τ, hfront, hback⟩ := ih rest
        exact ⟨τ, .cons step hfront, hback⟩
  · rintro ⟨τ, h, h'⟩
    exact h.append h'

/-- The step of an entry, with the path before and the path after it. -/
theorem at_entry {front back : Log ω} {entry : Entry ω} (h : Path limit σ (front ++ entry :: back) υ) :
    ∃ τ τ', Path limit σ front τ ∧ Step limit τ entry.event τ' ∧ τ'.registry = entry.after ∧
      Path limit τ' back υ := by
  obtain ⟨τ, hfront, hback⟩ := append_iff.mp h
  cases hback with
  | cons step rest => exact ⟨τ, _, hfront, step, rfl, rest⟩

end Path
end Moment

/-! ### Logs are paths -/

namespace Registry

open Moment (Path)

variable {ω : Type} {limit : Nat} {visits : List Visit}

theorem sameSubscribers_send (r : Registry ω) (m : Message) : r.SameSubscribers (r.send m).2 := by
  unfold send sendFrame
  split <;> exact ⟨rfl, rfl, rfl, rfl⟩

section Listeners

variable {nested : Message → Registry ω → Nat × Registry ω} {nestedLog : Message → Registry ω → Log ω}

/-- The log of a program is a path if the logs of the dispatches are. -/
theorem path_runLog
    (hnested : ∀ m r, Path limit ⟨r, visits, true⟩ (nestedLog m r) ⟨(nested m r).2, visits, true⟩)
    (p : Program ω) (r : Registry ω) :
    Path limit ⟨r, visits, true⟩ (runLog nested nestedLog p r) ⟨(runWith nested p r).2, visits, true⟩ := by
  induction p generalizing r with
  | done => exact .nil _
  | fail e => exact .nil _
  | look next ih => exact ih r.world r
  | edit change next ih => exact .quiet trivial ⟨rfl, rfl, rfl, rfl⟩ (ih _)
  | add s next ih => exact .cons (.add r visits true s) (ih _ _)
  | remove id next ih => exact .cons (.remove r visits true id none) (ih _ _)
  | contains id next ih => exact ih _ r
  | size next ih => exact ih _ r
  | send m next ih => exact .quiet trivial (r.sameSubscribers_send m) (ih _ _)
  | post m next ih => exact .quiet trivial ⟨rfl, rfl, rfl, rfl⟩ (ih _)
  | dispatch m next ih => exact (hnested m r).append (ih _ _)

variable {v : Visit}
  (hnested : ∀ m r, Path limit ⟨r, v :: visits, true⟩ (nestedLog m r) ⟨(nested m r).2, v :: visits, true⟩)
include hnested

theorem path_callLog (m : Message) (place : Nat) (c : Callback (Program ω)) (r : Registry ω) :
    Path limit ⟨r, v :: visits, false⟩ (callLog nested nestedLog v.id m place c r)
      ⟨(call nested v.id m c r).2, v :: visits, false⟩ := by
  refine .cons (.enter r v visits _ m) (.append ?_ (.single (.leave _ v visits)))
  cases c with
  | each run => exact path_runLog hnested _ r
  | once run => exact .cons (.remove r _ true v.id none) (path_runLog hnested _ _)
  | spent => exact .single (.remove r _ true v.id none)

theorem path_callAllLog (m : Message) (place : Nat) (cs : List (Callback (Program ω))) (r : Registry ω) :
    Path limit ⟨r, v :: visits, false⟩ (callAllLog nested nestedLog v.id m place cs r)
      ⟨(callAll nested v.id m cs r).2, v :: visits, false⟩ := by
  induction cs generalizing place r with
  | nil => exact .nil _
  | cons c cs ih => exact (path_callLog hnested m place c r).append (ih (place + 1) _)

theorem path_errorLog (m : Message) (h : Handler ω (Program ω)) (e : StreamError) (r : Registry ω) :
    Path limit ⟨r, v :: visits, false⟩ (errorLog nested nestedLog v.id m h e r)
      ⟨((runWith nested (h.onError v.id e) r).2.remove v.id).2, v :: visits, false⟩ :=
  .cons (.enter r v visits _ m) (.append (path_runLog hnested _ r)
    (.cons (.leave _ v visits) (.single (.remove _ _ false v.id (some e)))))

theorem path_listenLog (m : Message) (s : Subscriber ω) (r : Registry ω) :
    Path limit ⟨r, v :: visits, false⟩ (listenLog nested nestedLog v.id m s r)
      ⟨(listen nested v.id m s r).2, v :: visits, false⟩ := by
  unfold listenLog listen
  cases s.handler with
  | none => exact path_callAllLog hnested m 0 s.callbacks r
  | some h =>
    have hrun := path_runLog hnested (h.onFrame v.id m) r
    dsimp only
    rcases hfailure : runWith nested (h.onFrame v.id m) r with ⟨_ | e, r'⟩
    · rw [hfailure] at hrun
      exact .cons (.enter r v visits _ m) (hrun.append (.cons (.leave _ v visits)
        (path_callAllLog hnested m 0 s.callbacks r')))
    · rw [hfailure] at hrun
      exact .cons (.enter r v visits _ m) (hrun.append (.cons (.leave _ v visits)
        (path_errorLog hnested m h e r')))

end Listeners

/-- Listeners do not change what a subscriber has asked for. -/
theorem request_listen (nested : Message → Registry ω → Nat × Registry ω) (id : SubscriberId) (m : Message)
    (s : Subscriber ω) (r : Registry ω) : (listen nested id m s r).1.request = s.request := by
  unfold listen
  cases s.handler with
  | none => rfl
  | some h =>
    dsimp only
    rcases runWith nested (h.onFrame id m) r with ⟨_ | e, r'⟩ <;> rfl

/-- The log of a dispatch is a path that ends with those out who were out before. -/
theorem path_dispatchLog {depth : Nat} (hlimit : depth + visits.length = limit) (m : Message) (r : Registry ω) :
    Path limit ⟨r, visits, true⟩ (dispatchLog depth m r) ⟨(dispatch depth m r).2, visits, true⟩ := by
  induction depth generalizing visits m r with
  | zero =>
    refine .single (.miss ?_)
    intro hdeep
    omega
  | succ depth ih =>
    unfold dispatchLog
    rcases hlive : r.live[m.id]? with _ | s
    · have hmiss : dispatch (depth + 1) m r = (0, r) := by rw [dispatch, hlive]
      rw [hmiss]
      refine .single (.miss ?_)
      intro _ s hs
      rw [hlive] at hs
      cases hs
    · by_cases haccepts : s.accepts m = true
      · have hreach : (dispatch (depth + 1) m r).2 =
            (listen (dispatch depth) m.id m s (r.takeOut m.id)).2.putBack
              (listen (dispatch depth) m.id m s (r.takeOut m.id)).1 m.id := by
          rw [dispatch, hlive]
          simp only [haccepts, if_true]
        have hdeeper : depth + (⟨m.id, s.request⟩ :: visits).length = limit := by
          rw [List.length_cons]
          omega
        have hlisten := path_listenLog (ih hdeeper) m s (r.takeOut m.id)
        simp only [haccepts, if_true, hreach]
        exact .cons (.reach hlive haccepts) (hlisten.append (.single
          (.finish (request_listen (dispatch depth) m.id m s (r.takeOut m.id)))))
      · have hmiss : dispatch (depth + 1) m r = (0, r) := by
          rw [dispatch, hlive]
          simp only [haccepts, Bool.false_eq_true, if_false]
        simp only [haccepts, Bool.false_eq_true, if_false]
        rw [hmiss]
        refine .single (.miss ?_)
        intro _ s' hs'
        rw [hlive] at hs'
        obtain rfl := Option.some.inj hs'
        exact Bool.eq_false_iff.mpr haccepts

/-- The log of a run from the outside is a path on which nobody is out at either end. -/
theorem path_log (depth : Nat) (p : Program ω) (r : Registry ω) :
    Path depth ⟨r, [], true⟩ (r.log depth p) ⟨r.after depth p, [], true⟩ :=
  path_runLog (path_dispatchLog (Nat.add_zero depth)) p r

end Registry
end LevelLink
