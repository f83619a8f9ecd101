import LevelLink.Proofs.Link.Upkeep

/-!
# What listeners do to the inbox

Whatever listeners do, and however deep they dispatch, the messages that wait stay as they are, and those that the
listeners post come behind them (`prefix_dispatch`).
-/

namespace LevelLink.Registry

variable {ω : Type} (r : Registry ω)

@[simp] theorem inbox_sendFrame (frame : Bytes) : (r.sendFrame frame).2.inbox = r.inbox := by
  unfold sendFrame
  split <;> rfl

@[simp] theorem inbox_send (m : Message) : (r.send m).2.inbox = r.inbox := r.inbox_sendFrame m.frame

@[simp] theorem inbox_add (s : Subscriber ω) : (r.add s).2.inbox = r.inbox := by
  unfold add sendFrame
  rcases r.room with _ | _ | n <;> rfl

theorem upheld_prefix_inbox (ms : List Message) : Upheld fun r : Registry ω => ms <+: r.inbox where
  changed _ _ h := h
  add s r h := (r.inbox_add s).symm ▸ h
  remove id r h := (r.queues_remove id).1.symm ▸ h
  send m r h := (r.inbox_send m).symm ▸ h
  post m r h := h.trans (List.prefix_append r.inbox [m])
  takeOut _ _ h := h
  putBack s id r h := (r.queues_putBack s id).1.symm ▸ h

/-- A dispatch leaves the messages that wait, and those that it posts come behind them. -/
theorem prefix_dispatch (depth : Nat) (m : Message) (r : Registry ω) :
    r.inbox <+: (dispatch depth m r).2.inbox :=
  (upheld_prefix_inbox r.inbox).dispatch depth m List.prefix_rfl

end LevelLink.Registry
