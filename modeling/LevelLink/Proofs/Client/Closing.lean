import LevelLink.Proofs.Client.Reception

/-!
# When a processing finds the link down

A processing that has found no message looks at the link, and returns an error if that is down.  The peer may have sent
and closed between the two looks.  What was put in the inbox until the first of them is dispatched then, and what has
come since is in the inbox (`closing_of_run`).  A processing that waits has found the link down before it looks for a
message the last time, so nothing from the peer is left behind; one that does not wait can leave frames behind
(`overtaken_sampleRace`).
-/

namespace LevelLink.Trail

open Connection (Phase)

variable {υ : Type} {depth : Nat} {t t' : Trail υ}

/-- What is known of the link when a message was last looked for. -/
structure Watched (t : Trail υ) : Prop where
  /-- Once the link was down, nothing more has come from the peer. -/
  down : t.upThen = false → t.conn.up = false ∧ Arrival.ofPeer t.queued = Arrival.ofPeer t.seen
  /-- A processing that waits drains an empty inbox only after it has found the link down. -/
  draining : t.waits = true → t.running = some (.draining 0) → t.conn.up = false
  checking : t.waits = true → t.running = some .checking → t.upThen = false

namespace Watched

theorem goTo (h : Watched t) {phase : Phase} (hdraining : phase = .draining 0 → t.waits = true → t.conn.up = false)
    (hchecking : phase = .checking → t.waits = true → t.upThen = false) : Watched (t.goTo phase) := by
  refine ⟨?_, ?_, ?_⟩
  · rw [upThen_goTo, conn_goTo, queued_goTo, seen_goTo]
    exact h.down
  · rw [waits_goTo, conn_goTo]
    intro hwaits hrunning
    cases phase with
    | draining n =>
      obtain rfl := Phase.draining.inj (Option.some.inj hrunning)
      exact hdraining rfl hwaits
    | waiting | watching | checking | returned => cases hrunning
  · rw [waits_goTo, upThen_goTo]
    intro hwaits hrunning
    cases phase with
    | checking => exact hchecking rfl hwaits
    | waiting | watching | draining | returned => cases hrunning

/-- The last look is now. -/
theorem look {taken : Option Message} {c : Connection υ} (same : SameLink t (t.look taken c))
    (hrunning : t.running ≠ some .checking)
    (hdraining : t.waits = true → t.running = some (.draining 0) → t.conn.up = false) : Watched (t.look taken c) := by
  refine ⟨?_, ?_, fun _ hchecking => absurd hchecking hrunning⟩
  · intro hdown
    exact ⟨same.up.trans hdown, same.messages⟩
  · intro hwaits hfirst
    exact same.up.trans (hdraining hwaits hfirst)

theorem stepped {phase : Phase} (h : Watched t) (hrunning : t.running = some phase) (hstepped : Stepped t phase t') :
    Watched t' := by
  have hmissed (hinbox : t.conn.session.inbox = []) (hlooks : phase.looks = true) : Watched (t.look none t.conn) := by
    refine look (.look (List.nil_append _).symm List.prefix_rfl) ?_ h.draining
    rw [hrunning]
    rintro ⟨rfl⟩
    cases hlooks
  cases hstepped with
  | found hlooks hinbox hrest =>
    refine (look (.look hinbox hrest) ?_ h.draining).goTo nofun nofun
    rw [hrunning]
    rintro ⟨rfl⟩
    cases hlooks
  | notYet hinbox => exact (hmissed hinbox rfl).goTo nofun nofun
  | none hinbox => exact (hmissed hinbox rfl).goTo nofun fun _ hwaits => h.draining hwaits hrunning
  | noMore hinbox n => exact (hmissed hinbox rfl).goTo nofun nofun
  | watch =>
    cases hup : t.conn.up with
    | true => exact h.goTo nofun nofun
    | false => exact h.goTo (fun _ _ => hup) nofun
  | check | handled => exact h.goTo nofun nofun

theorem read (h : Watched t) (bs : Bytes) : Watched (t.read bs) := by
  cases hup : t.conn.up with
  | true =>
    refine ⟨fun hdown => ?_, fun hwaits hfirst => ?_, h.checking⟩
    · rw [(h.down hdown).1] at hup
      cases hup
    · rw [h.draining hwaits hfirst] at hup
      cases hup
  | false =>
    have hconn : (t.read bs).conn = t.conn := Connection.receive_of_down hup bs
    have hqueued : (t.read bs).queued = t.queued := by
      unfold Trail.read
      rw [Connection.receive_of_down hup]
      exact queued_become_self true t.conn
    refine ⟨?_, ?_, h.checking⟩
    · rw [hconn, hqueued]
      exact h.down
    · rw [hconn]
      exact h.draining

theorem move (h : Watched t) (move : Move depth t t') : Watched t' := by
  cases move with
  | read _ bs => exact h.read bs
  | close => exact ⟨fun hdown => ⟨rfl, (h.down hdown).2⟩, fun _ _ => rfl, h.checking⟩
  | use hinbox _ =>
    refine ⟨fun hdown => ⟨(h.down hdown).1, ?_⟩, h.draining, h.checking⟩
    exact (SameLink.become hinbox).messages.trans (h.down hdown).2
  | call _ waits =>
    cases waits with
    | true => exact ⟨h.down, nofun, nofun⟩
    | false => exact ⟨h.down, nofun, nofun⟩
  | step =>
    rcases hrunning : t.running with _ | phase
    · rw [t.step_of_idle depth hrunning]
      exact h
    · exact h.stepped hrunning (t.stepped depth hrunning)

end Watched

theorem Run.watched {c : Connection υ} (run : Run depth (start c) t) : Watched t := by
  induction run with
  | refl => exact ⟨nofun, nofun, nofun⟩
  | move _ move ih => exact ih.move move

/-- A processing that returns an error has looked at the link, which was down. -/
theorem checking_of_error {phase : Phase} {e : TransportError} (paced : Paced t) (hrunning : t.running = some phase)
    (herror : (t.step depth).results = t.results ++ [.error e]) :
    phase = .checking ∧ t.conn.up = false ∧ e = t.conn.linkDown ∧ (t.step depth).conn = t.conn := by
  have hstepped := t.stepped depth hrunning
  generalize t.step depth = t' at hstepped herror
  have hgoing {s : Trail υ} (hsame : s.results = t.results) : s.results ≠ t.results ++ [.error e] := by
    rw [hsame]
    simp
  cases hstepped with
  | found | notYet | none => exact absurd herror (hgoing rfl)
  | watch =>
    refine absurd herror (hgoing ?_)
    cases t.conn.up <;> rfl
  | noMore => cases List.append_cancel_left herror
  | check =>
    have hresult := List.append_cancel_left herror
    cases hup : t.conn.up with
    | true =>
      rw [hup] at hresult
      cases hresult
    | false =>
      rw [hup] at hresult
      cases hresult
      exact ⟨rfl, rfl, rfl, rfl⟩
  | handled result => exact absurd hrunning (paced.underWay result)

/-- A processing that looks at a link that is down returns an error. -/
theorem error_of_checking (hrunning : t.running = some .checking) (hdown : t.conn.up = false) (depth : Nat) :
    t.step depth = t.goTo (.returned (.error t.conn.linkDown)) := by
  rw [t.step_of_running depth hrunning]
  simp [Phase.looks, Connection.advance, hdown]

/-- When a processing returns that the link is down, it is down, and all is dispatched that was put in the inbox before
the processing has last looked for a message; what was put there since is in it.  None of that is from the peer if the
processing waits, or if the link was down already when it has last looked. -/
theorem closing_of_run {c : Connection υ} (hempty : c.session.inbox = []) (run : Run depth (start c) t) {phase : Phase}
    (hrunning : t.running = some phase) {e : TransportError}
    (herror : (t.step depth).results = t.results ++ [.error e]) :
    e = t.conn.linkDown ∧ t.conn.up = false ∧
      ∃ late, t.queued = t.seen ++ late ∧ t.dispatched = t.seen.map Arrival.message ∧
        (t.step depth).conn.session.inbox = late.map Arrival.message ∧
        (t.waits = true ∨ t.upThen = false → Arrival.ofPeer late = []) := by
  have horder := run.inOrder hempty
  have hpaced := run.paced hempty
  have hwatched := run.watched
  obtain ⟨rfl, hdown, he, hconn⟩ := checking_of_error hpaced hrunning herror
  obtain ⟨late, hlate⟩ := horder.seen
  have hdispatched : t.dispatched = t.seen.map Arrival.message := by
    refine hpaced.caughtUp fun n => ?_
    rw [hrunning]
    nofun
  refine ⟨he, hdown, late, hlate.symm, hdispatched, ?_, ?_⟩
  · have hqueue := horder.queue
    rw [← hlate, List.map_append, hdispatched] at hqueue
    rw [hconn]
    exact List.append_cancel_left hqueue
  · intro hlook
    have hthen : t.upThen = false := hlook.elim (fun hwaits => hwatched.checking hwaits hrunning) id
    have hpeer := (hwatched.down hthen).2
    rw [← hlate, Arrival.ofPeer_append] at hpeer
    simpa using hpeer

section Sample

/-- The peer sends a request and closes; a call that waits processes the request, and another one is about to look at
the link. -/
def sampleFarewell : Trail Unit :=
  (((((start sampleConnection).read (samplePing 1).frame).close.call true).steps 1 2).call true).steps 1 3

theorem run_sampleFarewell : Run 1 (start sampleConnection) sampleFarewell := by
  have hread : Run 1 (start sampleConnection) ((start sampleConnection).read (samplePing 1).frame) :=
    .move .refl (.read rfl _)
  have hcalled := (hread.move (.close _)).move (.call rfl true)
  have hprocessed := (hcalled.step (by decide +kernel)).step (by decide +kernel)
  have hagain := hprocessed.move (.call (by decide +kernel) true)
  exact ((hagain.step (by decide +kernel)).step (by decide +kernel)).step (by decide +kernel)

/-- What waits is dispatched before the link is looked at. -/
theorem closing_of_sampleFarewell :
    Run 1 (start sampleConnection) sampleFarewell ∧ sampleFarewell.running = some .checking ∧
      (sampleFarewell.step 1).results = sampleFarewell.results ++ [.error sampleFarewell.conn.linkDown] ∧
      sampleFarewell.dispatched = [Framing.received (samplePing 1)] ∧
      ∃ late, sampleFarewell.queued = sampleFarewell.seen ++ late ∧ Arrival.ofPeer late = [] := by
  have hrunning : sampleFarewell.running = some .checking := by decide +kernel
  have herror := congrArg Trail.results (error_of_checking hrunning (by decide +kernel) 1)
  obtain ⟨-, -, late, hqueued, -, -, hpeer⟩ := closing_of_run rfl run_sampleFarewell hrunning herror
  exact ⟨run_sampleFarewell, hrunning, herror, by decide +kernel, late, hqueued, hpeer (.inl (by decide +kernel))⟩

/-- A call that does not wait finds nothing; then the peer sends a request and closes, and the call looks at the
link. -/
def sampleRace : Trail Unit :=
  ((((start sampleConnection).call false).step 1).read (samplePing 1).frame).close

/-- A frame that came before the link went down waits behind the error. -/
theorem overtaken_sampleRace :
    Run 1 (start sampleConnection) sampleRace ∧ sampleRace.running = some .checking ∧
      (sampleRace.step 1).results = [.error sampleRace.conn.linkDown] ∧
      (sampleRace.step 1).conn.session.inbox = [Framing.received (samplePing 1)] ∧
      (sampleRace.step 1).dispatched = [] := by
  have hrun : Run 1 (start sampleConnection) sampleRace := by
    have hcalled : Run 1 (start sampleConnection) ((start sampleConnection).call false) := .move .refl (.call rfl false)
    exact ((hcalled.step (by decide +kernel)).move (.read (by decide +kernel) _)).move (.close _)
  have hrunning : sampleRace.running = some .checking := by decide +kernel
  have herror := congrArg Trail.results (error_of_checking hrunning (by decide +kernel) 1)
  exact ⟨hrun, hrunning, herror, by decide +kernel, by decide +kernel⟩

end Sample

end LevelLink.Trail
