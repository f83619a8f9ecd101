import LevelLink.Link.Registry

/-!
# What all listeners uphold

A listener asks the registry for one thing after the other, and a dispatch takes a subscriber out and puts it back.
What each of these keeps is kept by every dispatch, whatever the listeners do and however deep they dispatch
(`Upheld.dispatch`).
-/

namespace LevelLink.Registry

variable {ω : Type}

/-! ### Queues -/

section Queues

variable (r : Registry ω)

/-- A subscriber that is removed leaves both queues alone. -/
theorem queues_remove (id : SubscriberId) :
    (r.remove id).2.inbox = r.inbox ∧ (r.remove id).2.outbox = r.outbox := by
  unfold remove
  rcases r.live[id]? with _ | s
  · dsimp only
    split <;> exact ⟨rfl, rfl⟩
  · exact ⟨rfl, rfl⟩

/-- So does one that comes back. -/
theorem queues_putBack (s : Subscriber ω) (id : SubscriberId) :
    (r.putBack s id).inbox = r.inbox ∧ (r.putBack s id).outbox = r.outbox := by
  unfold putBack
  dsimp only
  split <;> exact ⟨rfl, rfl⟩

end Queues

/-! ### Properties -/

/-- A property of registries that nothing destroys that a listener can ask for, and no dispatch by itself. -/
structure Upheld (P : Registry ω → Prop) : Prop where
  changed (change : ω → ω) {r : Registry ω} : P r → P (r.changed change)
  add (s : Subscriber ω) {r : Registry ω} : P r → P (r.add s).2
  remove (id : SubscriberId) {r : Registry ω} : P r → P (r.remove id).2
  send (m : Message) {r : Registry ω} : P r → P (r.send m).2
  post (m : Message) {r : Registry ω} : P r → P (r.post m)
  takeOut (id : SubscriberId) {r : Registry ω} : P r → P (r.takeOut id)
  putBack (s : Subscriber ω) (id : SubscriberId) {r : Registry ω} : P r → P (r.putBack s id)

namespace Upheld

variable {P : Registry ω → Prop} (h : Upheld P)
include h

section Listeners

variable {nested : Message → Registry ω → Nat × Registry ω} (hnested : ∀ m r, P r → P (nested m r).2)
  (id : SubscriberId) (m : Message) {r : Registry ω}
include hnested

theorem runWith (p : Program ω) (hr : P r) : P (Registry.runWith nested p r).2 := by
  induction p generalizing r with
  | done => exact hr
  | fail e => exact hr
  | look next ih => exact ih r.world hr
  | edit change next ih => exact ih (h.changed change hr)
  | add s next ih => exact ih (r.add s).1 (h.add s hr)
  | remove id next ih => exact ih (r.remove id).1 (h.remove id hr)
  | contains id next ih => exact ih (r.contains id) hr
  | size next ih => exact ih r.size hr
  | send m next ih => exact ih (r.send m).1 (h.send m hr)
  | post m next ih => exact ih (h.post m hr)
  | dispatch m next ih => exact ih (nested m r).1 (hnested m r hr)

theorem call (c : Callback (Program ω)) (hr : P r) : P (Registry.call nested id m c r).2 := by
  cases c with
  | each run => exact h.runWith hnested (run id m) hr
  | once run => exact h.runWith hnested (run id m) (h.remove id hr)
  | spent => exact h.remove id hr

theorem callAll (cs : List (Callback (Program ω))) (hr : P r) : P (Registry.callAll nested id m cs r).2 := by
  induction cs generalizing r with
  | nil => exact hr
  | cons c cs ih => exact ih (h.call hnested id m c hr)

theorem listen (s : Subscriber ω) (hr : P r) : P (Registry.listen nested id m s r).2 := by
  unfold Registry.listen
  cases s.handler with
  | none => exact h.callAll hnested id m s.callbacks hr
  | some handler =>
    have hframe := h.runWith hnested (handler.onFrame id m) hr
    -- The callbacks run next, or the error listener and the removal if the handler has failed.
    dsimp only
    rcases hrun : Registry.runWith nested (handler.onFrame id m) r with ⟨_ | e, r'⟩
    · rw [hrun] at hframe
      exact h.callAll hnested id m s.callbacks hframe
    · rw [hrun] at hframe
      exact h.remove id (h.runWith hnested (handler.onError id e) hframe)

end Listeners

variable {r : Registry ω}

/-- What a dispatch leaves. -/
theorem dispatch (depth : Nat) (m : Message) (hr : P r) : P (Registry.dispatch depth m r).2 := by
  induction depth generalizing m r with
  | zero => exact hr
  | succ depth ih =>
    unfold Registry.dispatch
    rcases r.live[m.id]? with _ | s
    · exact hr
    · dsimp only
      split
      · exact h.putBack _ _ (h.listen (fun m _ => ih m) m.id m s (h.takeOut m.id hr))
      · exact hr

end Upheld
end LevelLink.Registry
