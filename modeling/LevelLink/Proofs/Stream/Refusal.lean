import LevelLink.Proofs.Stream.Bookkeeping

/-!
# Refused plugins

The peer may refuse to run a plugin at any time after the request, also when the stream that was opened with the
request has ended and the plugin has been scheduled again.  A refusal ends the stream that the plugin has then
(`refusal_of_run`), which may be that of a later call (`refused_sampleRefusal`).
-/

namespace LevelLink

namespace PluginService

variable {υ : Type} {p : PluginService} {name : String} {s s' s₀ : Session υ} {id : SubscriberId} {m : Message}
  {depth : Nat} {calls : List Call}

/-! ### Which call a request is from -/

/-- Every request that waits is from one of the calls. -/
def Accounted (p : PluginService) (calls : List Call) (s : Session υ) : Prop :=
  ∀ name id, p.Asks name s id → ∃ c ∈ calls, c.name = name ∧ c.request = id

theorem Accounted.mono {calls' : List Call} (accounted : p.Accounted calls s)
    (hcalls : ∀ c ∈ calls, c ∈ calls') (hasks : ∀ name id, p.Asks name s' id → p.Asks name s id) :
    p.Accounted calls' s' := by
  intro name id h
  obtain ⟨c, hc, hname, hrequest⟩ := accounted name id (hasks name id h)
  exact ⟨c, hcalls c hc, hname, hrequest⟩

theorem mem_called {c : Call} (h : c ∈ calls) : c ∈ p.called name calls s := by
  unfold called
  split
  · exact List.mem_append_left _ h
  · exact h

/-- A call that opens a stream accounts for its request. -/
theorem Accounted.opened (accounted : p.Accounted calls s) (htrue : ((p.schedule name).on s).1 = .ok true)
    (opened : p.Opened name s.nextId (Registry.successor s.nextId) s s') :
    p.Accounted (p.called name calls s) s' := by
  intro other id h
  rcases opened.asks other id h with hasks | ⟨rfl, rfl⟩
  · obtain ⟨c, hc, hname, hrequest⟩ := accounted other id hasks
    exact ⟨c, mem_called hc, hname, hrequest⟩
  · refine ⟨⟨other, s.nextId, Registry.successor s.nextId⟩, ?_, rfl, rfl⟩
    simp only [called, htrue]
    exact List.mem_append_right _ List.mem_cons_self

/-- After every run, a request that waits is from one of its calls. -/
theorem Run.accounted (run : p.Run depth s₀ calls s) (unused : p.Unused s₀) : p.Accounted calls s := by
  induction run with
  | start => exact fun name id h => absurd h (unused.asks name id)
  | schedule run name hspare hspare' ih =>
    rcases schedule_cases name hspare hspare' with ⟨-, hsame⟩ | ⟨-, -, kept⟩ | ⟨-, htrue, opened⟩
    · rw [hsame]
      exact ih.mono (fun _ => mem_called) fun _ _ hasks => hasks
    · exact ih.mono (fun _ => mem_called) kept.asks
    · exact ih.opened htrue opened
  | message run m hspare hown ih =>
    rcases message_cases (run.agrees unused) hspare hown _ with kept | ⟨name, id, -, ended⟩
    · exact ih.mono (fun _ hc => hc) kept.asks
    · exact ih.mono (fun _ hc => hc) ended.asks
  | others run kept ih => exact ih.mono (fun _ hc => hc) kept.asks

/-! ### What a refusal does -/

/-- The streams of a plugin have gone, and all others are still there. -/
def Refused (p : PluginService) (name : String) (s s' : Session υ) : Prop :=
  ∀ other id, p.Follows other s' id ↔ p.Follows other s id ∧ other ≠ name

/-- Ending the stream that a plugin has leaves it without a stream. -/
theorem Ended.refused (ended : p.Ended name id s s') (agrees : p.Agrees s) (h : p.Follows name s id) :
    p.Refused name s s' := by
  intro other j
  rw [ended.follows]
  refine and_congr_right fun hfollows => not_congr ?_
  constructor
  · rintro rfl
    exact stream_inj (Option.some.inj (hfollows.symm.trans h))
  · rintro rfl
    exact agrees.unique hfollows h

theorem Kept.refused (kept : p.Kept s s') (agrees : p.Agrees s) (h : (p.table s)[name]? = none) :
    p.Refused name s s' := by
  intro other j
  rw [kept.follows, iff_self_and]
  rintro hfollows rfl
  rw [(agrees other j).mpr hfollows] at h
  cases h

/-- A refusal takes the stream that its plugin has. -/
theorem refused_of_isRefusal (agrees : p.Agrees s) (hasks : p.Asks name s m.id)
    (haddr : m.AddressedTo node "SCHEDULE_PLUGIN" m.id) (h : IsRefusal m) (depth : Nat) :
    p.Agrees (Registry.dispatch (depth + 1) m s).2 ∧ p.Refused name s (Registry.dispatch (depth + 1) m s).2 := by
  have haccepts : (p.asking name m.id : Subscriber (World υ)).accepts m = true := by
    obtain ⟨hnode, hname, -⟩ := haddr
    rw [SubscriberOver.accepts, hnode, hname]
    rfl
  rcases dispatch_refusal agrees hasks haccepts h depth with ⟨hnone, kept⟩ | ⟨id, hfollows, ended⟩
  · exact ⟨agrees.kept kept, kept.refused agrees hnone⟩
  · exact ⟨agrees.ended hfollows ended, ended.refused agrees hfollows⟩

/-- A refusal of a request that waits after some run.  The request is from one of the calls.  The stream that its
plugin has goes, whichever call has opened it; the streams of all other plugins stay, and these run as before.  If the
stream of the call itself was still there, no stream of another call goes. -/
theorem refusal_of_run (unused : p.Unused s₀) (run : p.Run depth s₀ calls s) (hasks : p.Asks name s m.id)
    (haddr : m.AddressedTo node "SCHEDULE_PLUGIN" m.id) (hrefusal : IsRefusal m) :
    let s' := (Registry.dispatch (depth + 1) m s).2
    (∃ c ∈ calls, c.name = name ∧ c.request = m.id) ∧
    (∀ c, p.Runs s' c ↔ p.Runs s c ∧ c.name ≠ name) ∧
    (∀ other, p.isRunning other s' = true ↔ p.isRunning other s = true ∧ other ≠ name) ∧
    (∀ c, c.name = name → p.Runs s c → ∀ c', c'.stream ≠ c.stream → p.Runs s c' → p.Runs s' c') := by
  intro s'
  have agrees := run.agrees unused
  obtain ⟨agrees', refused⟩ : p.Agrees s' ∧ p.Refused name s s' :=
    refused_of_isRefusal agrees hasks haddr hrefusal depth
  refine ⟨run.accounted unused name m.id hasks, fun c => refused c.name c.stream, ?_, ?_⟩
  · intro other
    rw [agrees'.isRunning_iff, agrees.isRunning_iff, exists_congr (refused other), exists_and_right]
  · rintro c rfl hruns c' hstream hruns'
    refine (refused c'.name c'.stream).mpr ⟨hruns', ?_⟩
    intro hname
    have hfollows : p.Follows c.name s c'.stream := hname ▸ hruns'
    exact hstream (agrees.unique hfollows hruns)

section Sample

/-- The refusal of the first request, which arrives when the plugin has been scheduled again. -/
def sampleRefusal : Message :=
  (((Message.start node "SCHEDULE_PLUGIN").withId 2).write (Reply.bytes (.nack ⟨404, "no"⟩))).prepare

def sampleRefused : Session Unit := (Registry.dispatch 1 sampleRefusal sampleAgain).2

theorem asks_sampleAgain : sampleService.Asks "a" sampleAgain sampleRefusal.id := rfl

theorem isRefusal_sampleRefusal : IsRefusal sampleRefusal := ⟨⟨404, "no"⟩, _, rfl⟩

/-- The refusal is one of the first call, and no stream of the plugin is left. -/
theorem refusal_of_sampleRefusal :
    sampleService.Unused sampleStart.2 ∧ sampleService.Run 0 sampleStart.2 sampleCalls sampleAgain ∧
    sampleService.Asks "a" sampleAgain 2 ∧ IsRefusal sampleRefusal ∧
    (∃ c ∈ sampleCalls, c.name = "a" ∧ c.request = 2) ∧
    ∀ c, sampleService.Runs sampleRefused c ↔ sampleService.Runs sampleAgain c ∧ c.name ≠ "a" := by
  have hrefusal := refusal_of_run unused_sampleStart run_sampleAgain asks_sampleAgain ⟨rfl, rfl, rfl⟩
    isRefusal_sampleRefusal
  exact ⟨unused_sampleStart, run_sampleAgain, asks_sampleAgain, isRefusal_sampleRefusal, hrefusal.1, hrefusal.2.1⟩

/-- The refusal of the first request has ended the stream that the second call has opened. -/
theorem refused_sampleRefusal :
    sampleService.Run 0 sampleStart.2 [⟨"a", 1, 2⟩, ⟨"a", 3, 4⟩] sampleAgain ∧
    sampleService.Asks "a" sampleAgain 2 ∧ sampleRefusal.AddressedTo node "SCHEDULE_PLUGIN" 2 ∧ IsRefusal sampleRefusal ∧
    sampleService.Runs sampleAgain ⟨"a", 3, 4⟩ ∧ sampleService.isRunning "a" sampleAgain = true ∧
    ¬ sampleService.Runs (Registry.dispatch 1 sampleRefusal sampleAgain).2 ⟨"a", 3, 4⟩ ∧
    sampleService.isRunning "a" (Registry.dispatch 1 sampleRefusal sampleAgain).2 = false := by
  have hruns : sampleService.Follows "a" sampleAgain 3 :=
    (run_sampleAgain.agrees unused_sampleStart "a" 3).mp (by decide +kernel)
  have hgone : sampleService.IsSpare sampleRefused 3 := isSpare_of_contains (by decide +kernel)
  exact ⟨run_sampleAgain, asks_sampleAgain, ⟨rfl, rfl, rfl⟩, isRefusal_sampleRefusal, hruns, by decide +kernel,
    hgone "a", by decide +kernel⟩

end Sample

end PluginService
end LevelLink
