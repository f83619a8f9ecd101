import LevelLink.Proofs.Link.Membership
import LevelLink.Proofs.Link.Wrapping

/-!
# One dispatch

What a dispatch does from one end to the other, if no listener dispatches.  A message that nobody is registered for
changes nothing.  Any other runs the stream handler of the one subscriber that it is for, and then every callback in
order, or the error listener if the handler has failed; each gets the message as it was dispatched.  What the
listeners do are programs, run one after the other on the registry without the subscriber (`listen_of_first_done`,
`listen_of_first_fail`), and the log says in which order they start (`entered_listenLog_of_done`,
`listenLog_of_fail`).  Main statement: `dispatch_serves`.

Who is registered afterwards follows from who was added and who was removed, as long as the numbers that the listeners are
given are new.  When numbers come again, a listener can put a subscriber in the place of another (`replaced_of_usedUp`).
-/

namespace LevelLink

/-! ### Listeners as programs -/

section Listeners

variable {ω : Type} (id : SubscriberId) (m : Message)

/-- What a callback does with a message. -/
def Callback.program : Callback (Program ω) → Program ω
  | .each run => run id m
  | .once run => .remove id fun _ => run id m
  | .spent => .remove id fun _ => .done

/-- What is left of a callback that has run. -/
def Callback.rest {π : Type} : Callback π → Callback π
  | .once _ => .spent
  | c => c

/-- What the stream handler of a subscriber does with a message, if there is one. -/
def SubscriberOver.first (s : Subscriber ω) : Program ω :=
  match s.handler with
  | some h => h.onFrame id m
  | none => .done

namespace Registry

variable (nested : Message → Registry ω → Nat × Registry ω) (nestedLog : Message → Registry ω → Log ω)
  {id m} {s : Subscriber ω} {r r' : Registry ω}

/-- Runs what the callbacks do with a message, in order. -/
def runCallbacks (id : SubscriberId) (m : Message) (cs : List (Callback (Program ω))) (r : Registry ω) : Registry ω :=
  cs.foldl (fun r c => (runWith nested (c.program id m) r).2) r

theorem call_eq (c : Callback (Program ω)) (r : Registry ω) :
    call nested id m c r = (c.rest, (runWith nested (c.program id m) r).2) := by
  cases c <;> rfl

theorem callBody_eq (c : Callback (Program ω)) (r : Registry ω) :
    callBody nested nestedLog id m c r = runLog nested nestedLog (c.program id m) r := by
  cases c <;> rfl

theorem callAll_eq (cs : List (Callback (Program ω))) (r : Registry ω) :
    callAll nested id m cs r = (cs.map Callback.rest, runCallbacks nested id m cs r) := by
  induction cs generalizing r with
  | nil => rfl
  | cons c cs ih => simp only [callAll, call_eq, ih, runCallbacks, List.map_cons, List.foldl_cons]

/-- Unless the handler fails, all callbacks run. -/
theorem listen_of_first_done (h : runWith nested (s.first id m) r = (none, r')) :
    listen nested id m s r =
      ({ s with callbacks := s.callbacks.map Callback.rest }, runCallbacks nested id m s.callbacks r') := by
  unfold listen
  unfold SubscriberOver.first at h
  rcases hhandler : s.handler with _ | handler
  · simp only [hhandler, runWith] at h ⊢
    obtain rfl : r = r' := (Prod.mk.inj h).2
    rw [callAll_eq]
  · simp only [hhandler] at h ⊢
    simp only [h, callAll_eq]

/-- If the handler fails, the error listener runs instead, and the subscriber is removed. -/
theorem listen_of_first_fail {e : StreamError} (h : runWith nested (s.first id m) r = (some e, r')) :
    ∃ handler, s.handler = some handler ∧
      listen nested id m s r = (s, ((runWith nested (handler.onError id e) r').2.remove id).2) := by
  unfold SubscriberOver.first at h
  rcases hhandler : s.handler with _ | handler
  · simp [hhandler, runWith] at h
  · simp only [hhandler] at h
    refine ⟨handler, rfl, ?_⟩
    simp only [listen, hhandler, h]

end Registry

end Listeners

/-! ### Which listeners start -/

/-- A listener that starts, of which subscriber, and the message that it gets. -/
def Event.entered? {ω : Type} : Event ω → Option (SubscriberId × Listener × Message)
  | .enter id listener m => some (id, listener, m)
  | _ => none

namespace Log

variable {ω : Type}

/-- The listeners that start, in order. -/
def entered (log : Log ω) : List (SubscriberId × Listener × Message) :=
  log.filterMap fun entry => entry.event.entered?

theorem entered_append (front back : Log ω) : entered (front ++ back) = front.entered ++ back.entered :=
  List.filterMap_append ..

theorem entered_cons (entry : Entry ω) (log : Log ω) :
    entered (entry :: log) = entry.event.entered?.toList ++ entered log := by
  unfold entered
  rw [List.filterMap_cons]
  cases entry.event.entered? <;> rfl

theorem dispatched_append (front back : Log ω) : dispatched (front ++ back) = front.dispatched ++ back.dispatched :=
  List.filterMap_append ..

theorem not_dispatch_of_dispatched_eq_nil {log : Log ω} (h : log.dispatched = []) {entry : Entry ω}
    (hentry : entry ∈ log) (m : Message) (reached : Option SubscriberId) : entry.event ≠ .dispatch m reached := by
  intro hevent
  have hnone := List.filterMap_eq_nil_iff.mp h entry hentry
  rw [hevent] at hnone
  cases hnone

end Log

namespace Registry

open Moment (Path)

variable {ω : Type}

section Entered

variable {nested : Message → Registry ω → Nat × Registry ω} {nestedLog : Message → Registry ω → Log ω}
  (hnested : ∀ m r, (nestedLog m r).dispatched ≠ []) {id : SubscriberId} {m : Message}
include hnested

/-- A program that dispatches nothing starts no listener. -/
theorem entered_runLog {p : Program ω} {r : Registry ω} (h : (runLog nested nestedLog p r).dispatched = []) :
    (runLog nested nestedLog p r).entered = [] := by
  induction p generalizing r with
  | done => rfl
  | fail e => rfl
  | look next ih => exact ih r.world h
  | edit change next ih => exact ih h
  | add s next ih => exact ih _ h
  | remove id next ih => exact ih _ h
  | contains id next ih => exact ih _ h
  | size next ih => exact ih _ h
  | send m next ih => exact ih _ h
  | post m next ih => exact ih h
  | dispatch m next ih =>
    rw [runLog, Log.dispatched_append, List.append_eq_nil_iff] at h
    exact absurd h.1 (hnested m r)

theorem entered_callLog {place : Nat} {c : Callback (Program ω)} {r : Registry ω}
    (h : (callLog nested nestedLog id m place c r).dispatched = []) :
    (callLog nested nestedLog id m place c r).entered = [(id, .callback place, m)] := by
  rw [callLog, callBody_eq] at h ⊢
  rw [Log.dispatched_append, List.append_eq_nil_iff] at h
  rw [Log.entered_append]
  exact congrArg (fun started => ((id, .callback place, m) :: started) ++ []) (entered_runLog hnested h.1)

theorem entered_callAllLog {place : Nat} {cs : List (Callback (Program ω))} {r : Registry ω}
    (h : (callAllLog nested nestedLog id m place cs r).dispatched = []) :
    (callAllLog nested nestedLog id m place cs r).entered =
      (List.range' place cs.length).map fun i => (id, .callback i, m) := by
  induction cs generalizing place r with
  | nil => rfl
  | cons c cs ih =>
    rw [callAllLog] at h ⊢
    rw [Log.dispatched_append, List.append_eq_nil_iff] at h
    rw [Log.entered_append, entered_callLog hnested h.1, ih h.2]
    rfl

/-- Unless the handler fails, it starts first and the callbacks after it in order. -/
theorem entered_listenLog_of_done {s : Subscriber ω} {r r' : Registry ω}
    (hrun : runWith nested (s.first id m) r = (none, r'))
    (h : (listenLog nested nestedLog id m s r).dispatched = []) :
    (listenLog nested nestedLog id m s r).entered =
      (s.handler.toList.map fun _ => (id, .handler, m)) ++
        (List.range s.callbacks.length).map fun i => (id, .callback i, m) := by
  rw [List.range_eq_range']
  unfold SubscriberOver.first at hrun
  unfold listenLog at h ⊢
  rcases hhandler : s.handler with _ | handler
  · simp only [hhandler] at h ⊢
    exact entered_callAllLog hnested h
  · simp only [hhandler] at hrun h ⊢
    rw [hrun] at h ⊢
    simp only [Log.dispatched_append, Log.dispatched_cons, List.append_eq_nil_iff] at h
    obtain ⟨⟨-, hframe⟩, -, hcallbacks⟩ := h
    simp only [Log.entered_append, Log.entered_cons, entered_runLog hnested hframe,
      entered_callAllLog hnested hcallbacks]
    rfl

/-- If the handler fails, the error listener starts and nothing else, and the subscriber is removed at the end. -/
theorem listenLog_of_fail {s : Subscriber ω} {r r' : Registry ω} {e : StreamError}
    (hrun : runWith nested (s.first id m) r = (some e, r')) :
    ∃ (front : Log ω) (answer : Bool) (r'' : Registry ω),
      listenLog nested nestedLog id m s r = front ++ [⟨.remove id (some e) answer, r''⟩] ∧
      (front.dispatched = [] → front.entered = [(id, .handler, m), (id, .errorHook, m)]) := by
  unfold SubscriberOver.first at hrun
  unfold listenLog
  rcases hhandler : s.handler with _ | handler
  · simp [hhandler, runWith] at hrun
  · simp only [hhandler] at hrun ⊢
    rw [hrun]
    let last := (runWith nested (handler.onError id e) r').2
    refine ⟨⟨.enter id .handler m, r⟩ :: runLog nested nestedLog (handler.onFrame id m) r ++
      ⟨.leave id, r'⟩ :: ⟨.enter id .errorHook m, r'⟩ :: runLog nested nestedLog (handler.onError id e) r' ++
      [⟨.leave id, last⟩], (last.remove id).1, (last.remove id).2, ?_, ?_⟩
    · simp only [errorLog, List.append_assoc, List.cons_append, List.nil_append]
      rfl
    · intro h
      simp only [Log.dispatched_append, Log.dispatched_cons, List.append_eq_nil_iff] at h
      obtain ⟨⟨⟨-, hframe⟩, -, -, herror⟩, -⟩ := h
      simp only [Log.entered_append, Log.entered_cons, entered_runLog hnested hframe,
        entered_runLog hnested herror]
      rfl

end Entered

/-! ### Dispatches -/

section Dispatch

variable {m : Message} {s : Subscriber ω} {r : Registry ω} (depth : Nat)

theorem dispatchLog_of_accepts (hlive : r.live[m.id]? = some s) (haccepts : s.accepts m = true) :
    dispatchLog (depth + 1) m r =
      ⟨.dispatch m (some m.id), r.takeOut m.id⟩ ::
        listenLog (dispatch depth) (dispatchLog depth) m.id m s (r.takeOut m.id) ++
          [⟨.finish m.id, (dispatch (depth + 1) m r).2⟩] := by
  rw [dispatchLog, hlive]
  simp only [haccepts, if_true]

/-- A dispatch is logged first. -/
theorem dispatched_dispatchLog (m : Message) (r : Registry ω) :
    ∃ more, (dispatchLog depth m r).dispatched = m :: more := by
  cases depth with
  | zero => exact ⟨[], rfl⟩
  | succ depth =>
    rw [dispatchLog]
    split
    · exact ⟨[], rfl⟩
    · split
      · exact ⟨_, Log.dispatched_cons ..⟩
      · exact ⟨[], rfl⟩

theorem dispatched_dispatchLog_ne_nil (m : Message) (r : Registry ω) : (dispatchLog depth m r).dispatched ≠ [] := by
  obtain ⟨more, h⟩ := dispatched_dispatchLog depth m r
  rw [h]
  exact List.cons_ne_nil m more

/-- A dispatch that reaches nobody logs nothing else. -/
theorem dispatchLog_of_not_accepts (h : ∀ s, r.live[m.id]? = some s → s.accepts m = false) :
    dispatchLog depth m r = [⟨.dispatch m none, r⟩] := by
  cases depth with
  | zero => rfl
  | succ depth =>
    rw [dispatchLog]
    rcases hlive : r.live[m.id]? with _ | s
    · rfl
    · simp [h s hlive]

end Dispatch

section Serving

variable {r : Registry ω} {m : Message} {s : Subscriber ω} {depth : Nat} (hlive : r.live[m.id]? = some s)
  (haccepts : s.accepts m = true) (hlisteners : (dispatchLog (depth + 1) m r).dispatched = [m])
include hlive haccepts hlisteners

theorem dispatched_listenLog :
    (listenLog (dispatch depth) (dispatchLog depth) m.id m s (r.takeOut m.id)).dispatched = [] := by
  rw [dispatchLog_of_accepts depth hlive haccepts, Log.dispatched_append, Log.dispatched_cons] at hlisteners
  exact (List.append_eq_nil_iff.mp (List.cons.inj hlisteners).2).1

/-- Only the subscriber that the message is for is reached. -/
theorem eq_of_reached {entry : Entry ω} (hentry : entry ∈ dispatchLog (depth + 1) m r) {m' : Message}
    {k : SubscriberId} (hevent : entry.event = .dispatch m' (some k)) : k = m.id := by
  have hquiet := dispatched_listenLog hlive haccepts hlisteners
  rw [dispatchLog_of_accepts depth hlive haccepts] at hentry
  rcases List.mem_append.mp hentry with hfront | hlast
  · rcases List.mem_cons.mp hfront with rfl | hinner
    · cases hevent
      rfl
    · exact absurd hevent (Log.not_dispatch_of_dispatched_eq_nil hquiet hinner m' (some k))
  · obtain rfl := List.mem_singleton.mp hlast
    cases hevent

/-- The subscriber is the only one that goes out, and the numbers that are given are new. -/
theorem clear_dispatchLog (hreached : r.Reached) (hnew : (dispatchLog (depth + 1) m r).GivesNew r) :
    Moment.Clear ⟨r, [], true⟩ (dispatchLog (depth + 1) m r) := by
  refine ⟨.idle (hreached.orderly.out rfl), ?_, hnew.nodup, hnew.contains, fun _ _ => List.not_mem_nil⟩
  have hquiet := dispatched_listenLog hlive haccepts hlisteners
  rw [dispatchLog_of_accepts depth hlive haccepts, List.cons_append]
  show Log.isFlat 1 _ = true
  refine Log.isFlat_of_dispatched_eq_nil ?_ 1
  rw [Log.dispatched_append, hquiet]
  rfl

/-- Who counts after a dispatch, and what becomes of those who were not reached. -/
theorem members_of_dispatch (hreached : r.Reached) (hnew : (dispatchLog (depth + 1) m r).GivesNew r) :
    (∀ k, (dispatch (depth + 1) m r).2.contains k = true ↔
      (r.contains k = true ∨ k ∈ (dispatchLog (depth + 1) m r).given) ∧
        ∀ entry ∈ dispatchLog (depth + 1) m r, entry.event.removes k = false) ∧
    (∀ k, k ≠ m.id → r.contains k = true → (dispatch (depth + 1) m r).2.contains k = true →
      (dispatch (depth + 1) m r).2.live[k]? = r.live[k]?) ∧
    (∀ entry ∈ dispatchLog (depth + 1) m r, ∀ (s' : Subscriber ω) (k : SubscriberId),
      entry.event = .add s' (.ok k) → (dispatch (depth + 1) m r).2.contains k = true →
        (dispatch (depth + 1) m r).2.live[k]? = some { s' with request := (s'.request.withId k).prepare }) := by
  have path : Path (depth + 1) ⟨r, [], true⟩ _ _ := path_dispatchLog (Nat.add_zero (depth + 1)) m r
  have hclear := clear_dispatchLog hlive haccepts hlisteners hreached hnew
  have hcontains := (path.contains_iff hclear).2
  have hself : r.contains m.id = true := (r.contains_iff m.id).mpr (.inl ⟨s, hlive⟩)
  refine ⟨hcontains, ?_, ?_⟩
  · intro k hne hbefore hafter
    have hgiven : k ∉ (dispatchLog (depth + 1) m r).given := by
      intro hmem
      rw [hnew.contains k hmem] at hbefore
      cases hbefore
    refine path.getElem?_eq List.not_mem_nil hgiven ((hcontains k).mp hafter).2 ?_
    intro entry hentry m' hevent
    exact hne (eq_of_reached hlive haccepts hlisteners hentry hevent)
  · rintro ⟨e, r'⟩ hentry s' k rfl hafter
    have hne : k ≠ m.id := by
      rintro rfl
      have hmem : m.id ∈ (dispatchLog (depth + 1) m r).given := List.mem_filterMap.mpr ⟨_, hentry, rfl⟩
      rw [hnew.contains _ hmem] at hself
      cases hself
    have hremoved := ((hcontains k).mp hafter).2
    have hreaches : ∀ entry ∈ dispatchLog (depth + 1) m r, ∀ m', entry.event ≠ .dispatch m' (some k) :=
      fun entry hentry m' hevent => hne (eq_of_reached hlive haccepts hlisteners hentry hevent)
    obtain ⟨front, back, hlog⟩ := List.append_of_mem hentry
    rw [hlog] at path hclear hremoved hreaches
    have hback : ∀ entry ∈ back, entry ∈ front ++ ⟨.add s' (.ok k), r'⟩ :: back :=
      fun entry h => List.mem_append_right _ (List.mem_cons_of_mem _ h)
    exact path.getElem?_of_add hclear (fun entry h => hremoved entry (hback entry h))
      fun entry h => hreaches entry (hback entry h)

/-- Unless the handler fails, all callbacks run. -/
theorem serves_of_done {r' : Registry ω}
    (hrun : runWith (dispatch depth) (s.first m.id m) (r.takeOut m.id) = (none, r')) :
    dispatch (depth + 1) m r =
        (1, (runCallbacks (dispatch depth) m.id m s.callbacks r').putBack
          { s with callbacks := s.callbacks.map Callback.rest } m.id) ∧
      (dispatchLog (depth + 1) m r).entered =
        (s.handler.toList.map fun _ => (m.id, .handler, m)) ++
          (List.range s.callbacks.length).map fun i => (m.id, .callback i, m) := by
  refine ⟨?_, ?_⟩
  · rw [dispatch_of_accepts hlive haccepts, listen_of_first_done (dispatch depth) hrun]
  · have hquiet := dispatched_listenLog hlive haccepts hlisteners
    rw [dispatchLog_of_accepts depth hlive haccepts, Log.entered_append, Log.entered_cons,
      entered_listenLog_of_done (dispatched_dispatchLog_ne_nil depth) hrun hquiet]
    exact List.append_nil _

/-- If the handler fails, the error listener runs instead, and the subscriber goes. -/
theorem serves_of_fail {e : StreamError} {r' : Registry ω}
    (hrun : runWith (dispatch depth) (s.first m.id m) (r.takeOut m.id) = (some e, r')) :
    ∃ handler, s.handler = some handler ∧
      dispatch (depth + 1) m r =
        (1, ((runWith (dispatch depth) (handler.onError m.id e) r').2.remove m.id).2.putBack s m.id) ∧
      (dispatchLog (depth + 1) m r).entered = [(m.id, .handler, m), (m.id, .errorHook, m)] := by
  obtain ⟨handler, hhandler, hlisten⟩ := listen_of_first_fail (dispatch depth) hrun
  refine ⟨handler, hhandler, ?_, ?_⟩
  · rw [dispatch_of_accepts hlive haccepts, hlisten]
  · have hquiet := dispatched_listenLog hlive haccepts hlisteners
    obtain ⟨front, answer, r'', hlog, hentered⟩ :=
      listenLog_of_fail (dispatched_dispatchLog_ne_nil depth) hrun
    rw [hlog, Log.dispatched_append, List.append_eq_nil_iff] at hquiet
    rw [dispatchLog_of_accepts depth hlive haccepts, hlog, Log.entered_append, Log.entered_cons, Log.entered_append,
      hentered hquiet.1]
    rfl

/-- A subscriber whose handler has failed does not count afterwards. -/
theorem not_contains_of_fail {e : StreamError} {r' : Registry ω}
    (hrun : runWith (dispatch depth) (s.first m.id m) (r.takeOut m.id) = (some e, r')) (hreached : r.Reached)
    (hnew : (dispatchLog (depth + 1) m r).GivesNew r) : (dispatch (depth + 1) m r).2.contains m.id = false := by
  have path : Path (depth + 1) ⟨r, [], true⟩ _ _ := path_dispatchLog (Nat.add_zero (depth + 1)) m r
  have hclear := clear_dispatchLog hlive haccepts hlisteners hreached hnew
  obtain ⟨front, answer, r'', hlog, -⟩ := listenLog_of_fail (dispatched_dispatchLog_ne_nil depth) hrun
  rw [dispatchLog_of_accepts depth hlive haccepts, hlog, ← List.cons_append, List.append_assoc,
    List.singleton_append] at path hclear
  exact path.not_contains_of_removal hclear List.not_mem_nil

end Serving

/-- The numbers that a dispatch gives are new as long as fewer have been given than there are. -/
theorem Fresh.givesNew_dispatchLog {r : Registry ω} (hfresh : r.Fresh) {depth depth' : Nat} {p : Program ω}
    {m : Message}
    (hadds : (r.log depth p ++ dispatchLog depth' m (r.after depth p)).additions < numberLimit) :
    (dispatchLog depth' m (r.after depth p)).GivesNew (r.after depth p) := by
  have ready := (path_log depth p r).ready (hfresh.ready hadds)
  have path : Path depth' ⟨r.after depth p, [], true⟩ _ _ := path_dispatchLog (Nat.add_zero depth') m _
  exact path.givesNew ready

/-! ### From one end to the other -/

/-- A message is dispatched, and no listener dispatches.  If no registered subscriber has its names and its number,
nothing runs and nothing changes.  Otherwise there is one, and its stream handler runs first.  If the handler does not
fail, all callbacks run in order; if it fails, the error listener runs with the error instead, and the subscriber is
gone.  All of them get the message as it was dispatched.  If the numbers that the listeners are given are new, those
that count afterwards are those that did before and those that were given, less those that were removed; whoever else
was there is as before, and whoever was added is as it was added. -/
theorem dispatch_serves {r : Registry ω} (hreached : r.Reached) (depth : Nat) (m : Message)
    (hlisteners : (dispatchLog (depth + 1) m r).dispatched = [m]) :
    ((∀ (k : SubscriberId) (s : Subscriber ω), r.live[k]? = some s →
        ¬ m.AddressedTo s.request.node s.request.name s.request.id) →
      dispatch (depth + 1) m r = (0, r) ∧ (dispatchLog (depth + 1) m r).entered = []) ∧
    ∀ (k : SubscriberId) (s : Subscriber ω), r.live[k]? = some s →
      m.AddressedTo s.request.node s.request.name s.request.id →
      k = m.id ∧
      (∀ r', runWith (dispatch depth) (s.first m.id m) (r.takeOut m.id) = (none, r') →
        dispatch (depth + 1) m r =
            (1, (runCallbacks (dispatch depth) m.id m s.callbacks r').putBack
              { s with callbacks := s.callbacks.map Callback.rest } m.id) ∧
          (dispatchLog (depth + 1) m r).entered =
            (s.handler.toList.map fun _ => (m.id, .handler, m)) ++
              (List.range s.callbacks.length).map fun i => (m.id, .callback i, m)) ∧
      (∀ e r', runWith (dispatch depth) (s.first m.id m) (r.takeOut m.id) = (some e, r') →
        (∃ handler, s.handler = some handler ∧
          dispatch (depth + 1) m r =
            (1, ((runWith (dispatch depth) (handler.onError m.id e) r').2.remove m.id).2.putBack s m.id) ∧
          (dispatchLog (depth + 1) m r).entered = [(m.id, .handler, m), (m.id, .errorHook, m)]) ∧
        ((dispatchLog (depth + 1) m r).GivesNew r → (dispatch (depth + 1) m r).2.contains m.id = false)) ∧
      ((dispatchLog (depth + 1) m r).GivesNew r →
        (∀ j, (dispatch (depth + 1) m r).2.contains j = true ↔
          (r.contains j = true ∨ j ∈ (dispatchLog (depth + 1) m r).given) ∧
            ∀ entry ∈ dispatchLog (depth + 1) m r, entry.event.removes j = false) ∧
        (∀ j, j ≠ m.id → r.contains j = true → (dispatch (depth + 1) m r).2.contains j = true →
          (dispatch (depth + 1) m r).2.live[j]? = r.live[j]?) ∧
        (∀ entry ∈ dispatchLog (depth + 1) m r, ∀ (s' : Subscriber ω) (j : SubscriberId),
          entry.event = .add s' (.ok j) → (dispatch (depth + 1) m r).2.contains j = true →
            (dispatch (depth + 1) m r).2.live[j]? =
              some { s' with request := (s'.request.withId j).prepare })) := by
  refine ⟨?_, ?_⟩
  · intro hnobody
    have hother : ∀ s, r.live[m.id]? = some s → s.accepts m = false := by
      intro s hlive
      rw [Bool.eq_false_iff]
      intro haccepts
      exact hnobody m.id s hlive ((hreached.addressedTo_iff hlive).mpr ⟨rfl, haccepts⟩)
    refine ⟨?_, ?_⟩
    · rcases hlive : r.live[m.id]? with _ | s
      · exact dispatch_of_getElem?_eq_none hlive (depth + 1)
      · exact dispatch_of_not_accepts hlive (hother s hlive) (depth + 1)
    · rw [dispatchLog_of_not_accepts (depth + 1) hother]
      rfl
  · intro k s hlive haddressed
    obtain ⟨rfl, haccepts⟩ := (hreached.addressedTo_iff hlive).mp haddressed
    refine ⟨rfl, ?_, ?_, members_of_dispatch hlive haccepts hlisteners hreached⟩
    · intro r' hrun
      exact serves_of_done hlive haccepts hlisteners hrun
    · intro e r' hrun
      exact ⟨serves_of_fail hlive haccepts hlisteners hrun,
        not_contains_of_fail hlive haccepts hlisteners hrun hreached⟩

/-- Whoever has got the number of a subscriber that is out is removed in its place, and the subscriber is put back. -/
theorem live_putBack_of_getElem? {r : Registry ω} {id : SubscriberId} {s' : Subscriber ω} (hlive : r.live[id]? = some s')
    (hremoved : r.outRemoved = false) (s : Subscriber ω) :
    ((r.remove id).2.putBack s id).live = (r.live.erase id).insert id s := by
  simp only [remove, hlive, putBack, hremoved, Bool.false_eq_true, if_false]

section Sample

variable {r : Registry Unit}

/-- A stream whose handler removes another one, with callbacks that remove their own subscriber and one that was added
a moment earlier. -/
def sampleBusy : Subscriber Unit where
  request := .start "A" "X"
  handler := some
    { onFrame := fun _ _ => .remove 2 fun _ => .add (.once (.start "C" "Z") fun _ _ => .done) fun _ => .done
      onError := fun _ _ => .done }
  callbacks := [.each fun id _ => .remove id fun _ => .done,
    .once fun _ _ => .add (.once (.start "D" "Z") fun _ _ => .done) fun _ => .remove 3 fun _ => .done]

/-- A stream whose handler fails. -/
def sampleFailing : Subscriber Unit :=
  .stream (.start "B" "Y")
    { onFrame := fun _ _ => .fail (.missingSnapshot 7), onError := fun _ _ => .post (.start "E" "Z") .done }

/-- Both are added. -/
def sampleArrivals : Program Unit := .add sampleBusy fun _ => .add sampleFailing fun _ => .done

/-- A message for the first stream, of which two bytes have been read. -/
def sampleHalfRead : Message := { (Message.start "A" "X").withId 1 with taken := [2, 1], unread := [3, 4] }

/-- A message for the second stream. -/
def sampleSpark : Message := (Message.start "B" "Y").withId 2

/-- Of the first stream three listeners run, which leave one of two new subscribers behind; the second stream goes when
its handler fails. -/
theorem dispatch_serves_sampleArrivals :
    (dispatchLog 1 sampleHalfRead (after 1 sampleArrivals { world := () })).entered =
      [(1, .handler, sampleHalfRead), (1, .callback 0, sampleHalfRead), (1, .callback 1, sampleHalfRead)] ∧
    (dispatch 1 sampleHalfRead (after 1 sampleArrivals { world := () })).2.contains 3 = false ∧
    (dispatch 1 sampleHalfRead (after 1 sampleArrivals { world := () })).2.contains 4 = true ∧
    (dispatchLog 1 sampleSpark (after 1 sampleArrivals { world := () })).entered =
      [(2, .handler, sampleSpark), (2, .errorHook, sampleSpark)] ∧
    (dispatch 1 sampleSpark (after 1 sampleArrivals { world := () })).2.contains 2 = false := by
  have hfresh : Fresh ({ world := () } : Registry Unit) := ⟨rfl, rfl, rfl, rfl⟩
  have hreached := (Reached.fresh hfresh).run 1 sampleArrivals
  have hquiet : (dispatchLog 1 sampleHalfRead (after 1 sampleArrivals { world := () })).dispatched =
      [sampleHalfRead] := by
    decide +kernel
  have hquiet' : (dispatchLog 1 sampleSpark (after 1 sampleArrivals { world := () })).dispatched = [sampleSpark] := by
    decide +kernel
  obtain ⟨-, hserves⟩ := dispatch_serves hreached 0 sampleHalfRead hquiet
  obtain ⟨-, hdone, -, hmembers⟩ :=
    hserves 1 { sampleBusy with request := ((Message.start "A" "X").withId 1).prepare } rfl ⟨rfl, rfl, rfl⟩
  obtain ⟨hcounts, -, -⟩ := hmembers (hfresh.givesNew_dispatchLog (by decide +kernel))
  obtain ⟨-, hserves'⟩ := dispatch_serves hreached 0 sampleSpark hquiet'
  obtain ⟨-, -, hfail, -⟩ :=
    hserves' 2 { sampleFailing with request := ((Message.start "B" "Y").withId 2).prepare } rfl ⟨rfl, rfl, rfl⟩
  obtain ⟨⟨-, -, -, hstarted⟩, hgone⟩ := hfail _ _ rfl
  refine ⟨(hdone _ rfl).2, ?_, ?_, hstarted, hgone (hfresh.givesNew_dispatchLog (by decide +kernel))⟩
  · rw [Bool.eq_false_iff, ne_eq, hcounts 3]
    decide +kernel
  · exact (hcounts 4).mpr ⟨.inr (by decide +kernel), by decide +kernel⟩

/-- Requests whose replies are of no interest. -/
def sampleRequests : Subscriber Unit × Subscriber Unit :=
  (.once (.start "C" "Z") fun _ _ => .done, .once (.start "D" "Z") fun _ _ => .done)

/-- A stream whose handler adds both and then fails. -/
def sampleGreedy : Subscriber Unit :=
  .stream (.start "B" "Y")
    { onFrame := fun _ _ => .add sampleRequests.1 fun _ => .add sampleRequests.2 fun _ => .fail (.missingSnapshot 7)
      onError := fun _ _ => .done }

/-- It is added behind a request. -/
def sampleNeighbours : Registry Unit :=
  after 0 (.add (.once (.start "A" "X") fun _ _ => .done) fun _ => .add sampleGreedy fun _ => .done) { world := () }

theorem early_sampleNeighbours : sampleNeighbours.Early :=
  ((early_of_empty (by decide) rfl : Early { world := () }).add (by decide) _).add (by decide) _

/-- What the stream does, whatever numbers its requests are given. -/
theorem log_sampleGreedy {k k' : SubscriberId} {r₁ r₂ : Registry Unit}
    (hlive : r.live[(2 : SubscriberId)]? =
      some { sampleGreedy with request := (sampleGreedy.request.withId 2).prepare })
    (hadd₁ : (r.takeOut 2).add sampleRequests.1 = (.ok k, r₁)) (hadd₂ : r₁.add sampleRequests.2 = (.ok k', r₂)) :
    (dispatch 1 sampleSpark r).2 =
      (r₂.remove 2).2.putBack { sampleGreedy with request := (sampleGreedy.request.withId 2).prepare } 2 ∧
    dispatchLog 1 sampleSpark r =
      [⟨.dispatch sampleSpark (some 2), r.takeOut 2⟩, ⟨.enter 2 .handler sampleSpark, r.takeOut 2⟩,
        ⟨.add sampleRequests.1 (.ok k), r₁⟩, ⟨.add sampleRequests.2 (.ok k'), r₂⟩, ⟨.leave 2, r₂⟩,
        ⟨.enter 2 .errorHook sampleSpark, r₂⟩, ⟨.leave 2, r₂⟩,
        ⟨.remove 2 (some (.missingSnapshot 7)) (r₂.remove 2).1, (r₂.remove 2).2⟩,
        ⟨.finish 2, (dispatch 1 sampleSpark r).2⟩] := by
  have hid : sampleSpark.id = 2 := rfl
  have haccepts : ({ sampleGreedy with request := (sampleGreedy.request.withId 2).prepare } : Subscriber Unit).accepts
      sampleSpark = true := rfl
  have hframe : runWith (dispatch 0)
      (.add sampleRequests.1 fun _ => .add sampleRequests.2 fun _ => .fail (.missingSnapshot 7)) (r.takeOut 2) =
      (some (.missingSnapshot 7), r₂) := by
    simp only [runWith, hadd₁, hadd₂]
  constructor
  · rw [dispatch_of_accepts (hid ▸ hlive) haccepts, hid]
    simp only [listen, sampleGreedy, SubscriberOver.stream, hframe]
    rfl
  · rw [dispatchLog_of_accepts 0 (hid ▸ hlive) haccepts, hid]
    simp only [listenLog, sampleGreedy, SubscriberOver.stream, runLog, hadd₁, hadd₂, errorLog, runWith]
    rfl

/-- When the numbers of both come again, the handler puts its requests in the place of the neighbour and of the stream
itself.  The neighbour has gone, though nobody has removed it, and the stream is put back, though its handler has failed. -/
theorem replaced_of_usedUp (used : UsedUp (numberLimit - 1) sampleNeighbours r) :
    let log := dispatchLog 1 sampleSpark r
    let r' := (dispatch 1 sampleSpark r).2
    log.dispatched = [sampleSpark] ∧ log.entered = [(2, .handler, sampleSpark), (2, .errorHook, sampleSpark)] ∧
    log.given = [1, 2] ∧ (∀ entry ∈ log, entry.event.removes 1 = false) ∧
    (r.live[(1 : SubscriberId)]?.map fun s => s.request.name) = some "X" ∧
    (r'.live[(1 : SubscriberId)]?.map fun s => s.request.name) = some "Z" ∧ r'.contains 2 = true := by
  have hnext : (r.takeOut 2).nextId = 1 := used.nextId_eq (by decide) (by decide +kernel)
  have hlive : r.live[(2 : SubscriberId)]? =
      some { sampleGreedy with request := (sampleGreedy.request.withId 2).prepare } := (used.live 2).trans rfl
  have hroom : (r.takeOut 2).room = none := used.room
  obtain ⟨r₁, hadd₁, hroom₁⟩ := exists_add_of_room_none hroom sampleRequests.1
  obtain ⟨r₂, hadd₂, -⟩ := exists_add_of_room_none hroom₁ sampleRequests.2
  obtain ⟨-, hnext₁, -, hlive₁⟩ := added_of_add hadd₁
  obtain ⟨-, -, -, hlive₂⟩ := added_of_add hadd₂
  have hsecond : r₁.nextId = 2 := by
    rw [hnext₁, hnext]
    rfl
  rw [hnext] at hadd₁ hlive₁
  rw [hsecond] at hadd₂ hlive₂
  obtain ⟨hafter, hlog⟩ := log_sampleGreedy hlive hadd₁ hadd₂
  have hremoved : r₂.outRemoved = false := by
    have hone := outRemoved_add (r.takeOut 2) sampleRequests.1
    have htwo := outRemoved_add r₁ sampleRequests.2
    rw [hadd₁] at hone
    rw [hadd₂] at htwo
    exact htwo.trans hone
  intro log r'
  have hlogged : log = _ := hlog
  have hback := live_putBack_of_getElem? ((hlive₂ 2).trans (if_pos rfl)) hremoved
    { sampleGreedy with request := (sampleGreedy.request.withId 2).prepare }
  rw [← hafter] at hback
  refine ⟨by rw [hlogged]; rfl, by rw [hlogged]; rfl, by rw [hlogged]; rfl, ?_, ?_, ?_, ?_⟩
  · rw [hlogged]
    simp [Event.removes]
  · rw [used.live]
    rfl
  · have hfirst : r'.live[(1 : SubscriberId)]? = r₂.live[(1 : SubscriberId)]? := by
      rw [show r'.live = _ from hback, getElem?_insert_ite, if_neg (by decide), getElem?_erase_ite, if_neg (by decide)]
    rw [hfirst, hlive₂, if_neg (by decide), hlive₁, if_pos rfl]
    rfl
  · rw [contains_iff, show r'.live = _ from hback]
    exact .inl ⟨_, Std.TreeMap.getElem?_insert_self⟩

/-- All numbers but two have been given since both were added. -/
def sampleWrapped : Registry Unit := sampleNeighbours.spent (numberLimit - 1)

theorem dispatch_sampleWrapped :
    let log := dispatchLog 1 sampleSpark sampleWrapped
    let r' := (dispatch 1 sampleSpark sampleWrapped).2
    sampleWrapped.Reached ∧ log.dispatched = [sampleSpark] ∧
    log.entered = [(2, .handler, sampleSpark), (2, .errorHook, sampleSpark)] ∧
    log.given = [1, 2] ∧ (∀ entry ∈ log, entry.event.removes 1 = false) ∧
    (sampleWrapped.live[(1 : SubscriberId)]?.map fun s => s.request.name) = some "X" ∧
    (r'.live[(1 : SubscriberId)]?.map fun s => s.request.name) = some "Z" ∧ r'.contains 2 = true := by
  have hfresh : Fresh ({ world := () } : Registry Unit) := ⟨rfl, rfl, rfl, rfl⟩
  have hreached : sampleWrapped.Reached := ((Reached.fresh hfresh).run 0 _).run 0 (spend (numberLimit - 1))
  have used : UsedUp (numberLimit - 1) sampleNeighbours sampleWrapped :=
    usedUp_spent (by decide +kernel) (early_sampleNeighbours.freeFor (by decide +kernel))
  exact ⟨hreached, replaced_of_usedUp used⟩

end Sample

end Registry
end LevelLink
