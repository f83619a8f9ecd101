import LevelLink.Proofs.Link.Notices
import LevelLink.Proofs.Metric.Report
import LevelLink.Stream.Metrics

/-!
# Collecting metrics

A frame on the collection stream, whatever it says, makes the client report all its metrics once, each by a request of its
own (`MetricStream.runWith_onFrame`).  Replies to these are of no interest (`LevelLink.Proofs.Link.Notices`), so the registry
is the same again when all of them have come.  Main statement: `MetricStream.collection_of_frame`.

Two things can go wrong: a report can get the number of somebody else, the collection stream included
(`MetricStream.overwritten_of_own`), and a report can be too long for its size field (`MetricStream.unread_of_long`).
-/

namespace LevelLink.MetricStream

variable {υ : Type} {s : Session υ} {id : SubscriberId} {m : Message}

/-- What is reported next: the metrics at the start of the collection, in order. -/
def reports (id : SubscriberId) (w : World υ) : MetricSet := ((w.metricsOf id).collected w.traffic).inOrder

/-- Metrics are reported by a request each, if there is room for these. -/
theorem runWith_reportAll (nested : Message → Session υ → Nat × Session υ) {ms : MetricSet} {r : Session υ}
    (hroom : r.RoomFor ms.length) :
    Registry.runWith nested (reportAll ms) r = (none, r.addNotices (ms.map Metric.report)) := by
  induction ms generalizing r with
  | nil => rfl
  | cons m ms ih =>
    rw [reportAll, Registry.runWith_add_of_room hroom.ne_zero]
    exact ih (hroom.tail _)

theorem length_reports (id : SubscriberId) (w : World υ) : (reports id w).length = (w.metricsOf id).length := by
  have hcollected := congrArg List.length (MetricSet.map_collected (fun _ => ()) (fun _ _ => rfl) w.traffic (w.metricsOf id))
  rw [List.length_map, List.length_map] at hcollected
  exact (MetricSet.perm_inOrder _).length_eq.trans hcollected

/-- A frame makes the stream report every metric once. -/
theorem runWith_onFrame (nested : Message → Session υ → Nat × Session υ)
    (hroom : s.RoomFor (s.world.metricsOf id).length) :
    Registry.runWith nested (handler.onFrame id m) s =
      (none, (s.changed (collect id)).addNotices ((reports id s.world).map Metric.report)) := by
  have hmetrics : ((collect id s.world).metricsOf id).inOrder = reports id s.world :=
    congrArg MetricSet.inOrder Std.TreeMap.getD_insert_self
  show Registry.runWith _ (reportAll ((collect id s.world).metricsOf id).inOrder) _ = _
  rw [hmetrics]
  refine runWith_reportAll _ (show s.RoomFor _ from ?_)
  rwa [length_reports]

/-- The collection stream takes every frame that is addressed to it. -/
theorem takes_of_hears (hears : s.Hears Metric.node Metric.collectionStream id handler)
    (hm : m.AddressedTo Metric.node Metric.collectionStream id) (hroom : s.RoomFor (s.world.metricsOf id).length)
    (depth : Nat) : ∃ request, s.live[m.id]? = some (.stream request handler) ∧
      (SubscriberOver.stream request handler : Subscriber (World υ)).accepts m = true ∧
      Registry.runWith (Registry.dispatch depth) (handler.onFrame m.id m) (s.takeOut m.id) =
        (none, ((s.takeOut m.id).changed (collect m.id)).addNotices ((reports m.id s.world).map Metric.report)) := by
  obtain ⟨request, hnode, hname, hlive⟩ := hears
  obtain ⟨hmnode, hmname, rfl⟩ := hm
  refine ⟨request, hlive, ?_, runWith_onFrame (s := s.takeOut m.id) (m := m) (Registry.dispatch depth) hroom⟩
  simp [SubscriberOver.accepts, SubscriberOver.stream, hnode, hname, hmnode, hmname]

/-- As long as nobody is out, the registered subscribers are those that are kept. -/
theorem size_of_out {r : Session υ} (h : r.out = none) : r.size = r.live.size := by
  rw [Registry.size, h]
  rfl

/-- A frame on the collection stream, whatever it says, is answered by one report for every metric, as long as there is
room for these.  Reported are the metrics of the set with the client's own brought up to date, positions first, then
counters, then gauges, and in the order of registration within a kind.  The reports have the numbers that follow, which begin
with 0 again behind the greatest.  A report whose size can be said, and no other, is read back from its frame to the name, the
kind, the labels and the numbers of its metric, with nothing behind them.

If nobody has the numbers of the reports, as many subscribers are registered more.  Replies to reports, in any order and
whatever they say, take away those that they are for and nobody else; when every report has got one, the registry is as it
was before the collection. -/
theorem collection_of_frame (hears : s.Hears Metric.node Metric.collectionStream id handler)
    (hm : m.AddressedTo Metric.node Metric.collectionStream id) (hroom : s.RoomFor (s.world.metricsOf id).length)
    (depth : Nat) :
    let set := (s.world.metricsOf id).collected s.world.traffic
    let reported := reports id s.world
    let s' := (Registry.dispatch (depth + 1) m s).2
    (set.map fun metric => (metric.name, metric.kind, metric.labels)) =
      ((s.world.metricsOf id).map fun metric => (metric.name, metric.kind, metric.labels)) ∧
    (reported.Perm set ∧ (reported.Pairwise fun metric metric' => metric.kind.rank ≤ metric'.kind.rank) ∧
      ∀ k, MetricSet.ofKind reported k = set.ofKind k) ∧
    s'.outbox.toList = s.outbox.toList ++
      (reported.map Metric.report).mapIdx (fun i q => (q.withId (s.number i)).frame) ∧
    (∀ i ≤ Registry.numberLimit + 1, (s.number i).toInt =
      if s.nextId.toInt + i ≤ Registry.numberLimit then s.nextId.toInt + i
      else s.nextId.toInt + i - (Registry.numberLimit + 1)) ∧
    (∀ i metric, reported[i]? = some metric →
      ((∃ q, Message.ofFrame (metric.report.withId (s.number i)).frame = .ok q ∧
        q.AddressedTo Metric.node "REPORT_METRIC" (s.number i) ∧ q.Yields metric.fields) ↔
      metric.report.body.length < Bytes.lengthLimit)) ∧
    (s.FreeFor reported.length →
      Registry.Noticed (reported.map Metric.report) s s' ∧
      (s.out = none → s'.size = s.size + reported.length) ∧
      ∀ replies : List Message,
        (∀ q ∈ replies, ∃ i < reported.length, q.AddressedTo Metric.node "REPORT_METRIC" (s.number i)) →
        let s'' := s'.dispatchAll (depth + 1) replies
        Registry.Answered replies s' s'' ∧
        ((∀ i < reported.length, ∃ q ∈ replies, q.id = s.number i) →
          s''.live.toList = s.live.toList ∧ (s.out = none → s''.size = s.size))) := by
  intro set reported s'
  obtain ⟨request, hlive, haccepts, hrun⟩ := takes_of_hears hears hm hroom depth
  obtain rfl : m.id = id := hm.2.2
  have hlength : (reported.map Metric.report).length = (s.world.metricsOf m.id).length := by
    rw [List.length_map, length_reports]
  refine ⟨MetricSet.map_collected _ (fun _ _ => rfl) _ _, ⟨MetricSet.perm_inOrder _, MetricSet.pairwise_inOrder _,
    MetricSet.ofKind_inOrder _⟩, ?_, fun i hi => Registry.toInt_number hi, fun i metric _ => metric.yields_of_report _,
    fun hfree => ?_⟩
  · exact Registry.outbox_dispatch hlive haccepts hrun rfl (hlength ▸ hroom)
  rw [← List.length_map Metric.report] at hfree
  have noticed : Registry.Noticed (reported.map Metric.report) s s' :=
    Registry.noticed_dispatch hlive haccepts hrun rfl hfree (hlength ▸ hroom)
  have hout : s'.out = none := Registry.out_dispatch hlive haccepts hrun rfl
  refine ⟨noticed, ?_, ?_⟩
  · intro hidle
    rw [size_of_out hout, size_of_out hidle, noticed.size, List.length_map]
  · intro replies hreplies s''
    have answered : Registry.Answered replies s' s'' := by
      refine Registry.dispatchAll_notices (fun q hq => ?_) depth
      obtain ⟨i, hi, haddr⟩ := hreplies q hq
      have hrequest : (reported.map Metric.report)[i]? = some reported[i].report := by
        rw [List.getElem?_map, List.getElem?_eq_getElem hi]
        rfl
      exact noticed.answers hrequest haddr
    refine ⟨answered, fun hall => ?_⟩
    have hsettled : s''.live.toList = s.live.toList := by
      refine noticed.settled answered hfree (fun q hq => ?_) ?_
      · obtain ⟨i, hi, -, -, hid⟩ := hreplies q hq
        exact ⟨i, by rwa [List.length_map], hid⟩
      · rwa [List.length_map]
    refine ⟨hsettled, fun hidle => ?_⟩
    rw [size_of_out (answered.out hout), size_of_out hidle, ← Std.TreeMap.length_toList, hsettled,
      Std.TreeMap.length_toList]

/-- If the number of the stream itself is among those of the reports, the stream is put back over the report that has got
it, and one subscriber is missing. -/
theorem overwritten_of_own (hears : s.Hears Metric.node Metric.collectionStream id handler)
    (hm : m.AddressedTo Metric.node Metric.collectionStream id) (hroom : s.RoomFor (s.world.metricsOf id).length)
    (hfree : Registry.FreeFor (s.takeOut id) (reports id s.world).length) {i : Nat} (hi : i < (reports id s.world).length)
    (hown : s.number i = id) (hidle : s.out = none) (depth : Nat) :
    let s' := (Registry.dispatch (depth + 1) m s).2
    s'.size + 1 = s.size + (reports id s.world).length ∧ ∃ request, s'.live[id]? = some (.stream request handler) := by
  intro s'
  obtain ⟨request, hlive, haccepts, hrun⟩ := takes_of_hears hears hm hroom depth
  obtain rfl : m.id = id := hm.2.2
  have hlength : ((reports m.id s.world).map Metric.report).length = (reports m.id s.world).length := List.length_map _
  obtain ⟨hback, hsize⟩ := Registry.size_dispatch_of_own hlive haccepts hrun rfl (hlength ▸ hfree)
    (hlength ▸ length_reports m.id s.world ▸ hroom) (hlength ▸ hi) hown
  have hout : s'.out = none := Registry.out_dispatch hlive haccepts hrun rfl
  refine ⟨?_, request, hback⟩
  rw [size_of_out hout, size_of_out hidle, ← hlength]
  exact hsize

/-- A client that lets its metrics be collected. -/
def sampleCollecting : Session Unit := (subscribe.on (Session.start ())).2

theorem early_sampleCollecting : Registry.Early sampleCollecting :=
  (Registry.early_of_empty (by decide) rfl : Registry.Early (Session.start ())).add (by decide) _

/-- A client with a gauge and a position, next to the counters of its own. -/
def sampleReporter : Session Unit :=
  let o : MetricStream := ⟨⟨1⟩⟩
  (o.register (o.register sampleCollecting .gauge "load").2 .pos "spawn").2

/-- A frame that asks for a collection. -/
def sampleRequest : Message := (Message.start Metric.node Metric.collectionStream).withId 1

/-- Replies to the five reports, the last one first, and the second one twice. -/
def sampleReplies : List Message :=
  [6, 3, 5, 3, 2, 4].map fun id => ((Message.start Metric.node "REPORT_METRIC").writeText "ACK").withId id

theorem collection_of_sampleReporter :
    let s' := (Registry.dispatch 1 sampleRequest sampleReporter).2
    s'.size = 6 ∧ (s'.dispatchAll 1 sampleReplies).live.toList = sampleReporter.live.toList := by
  have early : Registry.Early sampleReporter := ⟨early_sampleCollecting.pos, early_sampleCollecting.given⟩
  have hfree : sampleReporter.FreeFor 5 := early.freeFor (by decide)
  obtain ⟨-, -, -, -, -, hcollected⟩ := collection_of_frame (s := sampleReporter) (m := sampleRequest)
    ⟨_, rfl, rfl, rfl⟩ ⟨rfl, rfl, rfl⟩ (.of_none rfl _) 0
  obtain ⟨-, hsize, hreplies⟩ := hcollected hfree
  refine ⟨hsize rfl, ((hreplies sampleReplies ?_).2 ?_).1⟩
  · show ∀ q ∈ sampleReplies, ∃ i < 5, q.node = Metric.node ∧ q.name = "REPORT_METRIC" ∧ q.id = sampleReporter.number i
    decide +kernel
  · show ∀ i < 5, ∃ q ∈ sampleReplies, q.id = sampleReporter.number i
    decide +kernel

section Late

/-! A client that has one number to give before it begins with 0 again. -/

variable {s : Session Unit} (used : Registry.UsedUp (Registry.numberLimit - 2) sampleCollecting s)
include used

theorem numbers_late : s.number 0 = 2147483647 ∧ s.number 1 = 0 ∧ s.number 2 = 1 := by
  have hfirst : s.nextId = 2147483647 := used.nextId_eq (by decide) (by decide)
  have hsecond : s.number 1 = 0 := by
    rw [Registry.number_succ, Registry.number_zero, hfirst]
    exact Registry.successor_of_le (by decide)
  have hthird : s.number 2 = 1 := by
    rw [Registry.number_succ, hsecond]
    rfl
  exact ⟨hfirst, hsecond, hthird⟩

theorem freeFor_late : Registry.FreeFor (s.takeOut 1) 3 := by
  obtain ⟨hfirst, hsecond, hthird⟩ := numbers_late used
  have hgone (j : SubscriberId) (hj : j = 2147483647 ∨ j = 0 ∨ j = 1) : (s.takeOut 1).live[j]? = none := by
    rw [Registry.getElem?_takeOut, used.live]
    rcases hj with rfl | rfl | rfl
    all_goals rfl
  refine ⟨by decide, fun i hi => hgone _ ?_⟩
  rw [Registry.number_takeOut]
  match i, hi with
  | 0, _ => exact .inl hfirst
  | 1, _ => exact .inr (.inl hsecond)
  | 2, _ => exact .inr (.inr hthird)

/-- The last of its three reports gets the number of the collection stream. -/
theorem overwritten_late : let s' := (Registry.dispatch 1 sampleRequest s).2
    s.Hears Metric.node Metric.collectionStream 1 handler ∧ (reports 1 s.world).length = 3 ∧ s.room = none ∧
    s'.size = s.size + 2 ∧ ∃ request, s'.live[(1 : SubscriberId)]? = some (.stream request handler) := by
  have hears : s.Hears Metric.node Metric.collectionStream 1 handler := ⟨_, rfl, rfl, (used.live 1).trans rfl⟩
  have hroom : s.room = none := used.room
  have hlength : (reports 1 s.world).length = 3 := by
    rw [length_reports, used.world]
    rfl
  obtain ⟨-, -, hown⟩ := numbers_late used
  obtain ⟨hsize, hback⟩ := overwritten_of_own (m := sampleRequest) hears ⟨rfl, rfl, rfl⟩ (.of_none hroom _)
    (hlength ▸ freeFor_late used) (by rw [hlength]; decide) hown used.out 0
  rw [hlength] at hsize
  exact ⟨hears, hlength, hroom, Nat.succ_inj.mp hsize, hback⟩

end Late

section Verbose

/-! A client with a gauge whose name is too long for a frame. -/

/-- A client with a gauge of this name. -/
def gaugeNamed (name : String) : Session Unit := ((⟨⟨1⟩⟩ : MetricStream).register sampleCollecting .gauge name).2

/-- The report of the gauge is queued and not read. -/
theorem unread_of_long {name : String} (hname : Bytes.lengthLimit ≤ (Utf8.encode name).length) :
    ∃ metric, (reports 1 (gaugeNamed name).world)[3]? = some metric ∧ metric.name = name ∧
      (metric.report.withId 5).frame ∈ (Registry.dispatch 1 sampleRequest (gaugeNamed name)).2.outbox.toList ∧
      ∀ q, Message.ofFrame (metric.report.withId 5).frame ≠ .ok q := by
  have hmetric : (reports 1 (gaugeNamed name).world)[3]? = some { name, kind := .gauge } := rfl
  have hroom : (gaugeNamed name).RoomFor ((gaugeNamed name).world.metricsOf 1).length := .of_none rfl _
  obtain ⟨request, hlive, haccepts, hrun⟩ := takes_of_hears (s := gaugeNamed name) (m := sampleRequest)
    ⟨_, rfl, rfl, rfl⟩ ⟨rfl, rfl, rfl⟩ hroom 0
  refine ⟨_, hmetric, rfl, ?_, fun q hframe => ?_⟩
  · rw [Registry.outbox_dispatch hlive haccepts hrun rfl (by rwa [List.length_map, length_reports])]
    obtain ⟨hlt, hlast⟩ := List.getElem?_eq_some_iff.mp hmetric
    refine List.mem_append_right _ (List.mem_mapIdx.mpr ⟨3, (List.length_map Metric.report).symm ▸ hlt, ?_⟩)
    have hnumber : (gaugeNamed name).number 3 = 5 := rfl
    rw [List.getElem_map, hnumber]
    exact congrArg (fun metric : Metric => (metric.report.withId 5).frame) hlast
  · have hbody := Message.body_lt_of_ofFrame hframe
    rw [Message.body_withId] at hbody
    have hlong := Metric.length_name_le_report { name, kind := .gauge }
    exact Nat.not_lt_of_le (Nat.le_trans hname hlong) hbody

theorem length_replicate (n : Nat) : (Utf8.encode (String.ofList (List.replicate n 'a'))).length = n := by
  rw [Utf8.encode, String.toByteArray_ofList, List.utf8Encode, List.flatMap_replicate]
  simp [show 'a'.utf8Size = 1 from rfl]

end Verbose

/-- The client when it has one number to give before it begins with 0 again. -/
def sampleLate : Session Unit := sampleCollecting.spent (Registry.numberLimit - 2)

/-- A collection that wants three numbers is given the greatest, 0, and the number of the stream itself, so that two
subscribers are registered more.  A gauge with a long name is not read back from its report. -/
theorem collection_of_sampleLate :
    (let s' := (Registry.dispatch 1 sampleRequest sampleLate).2;
      sampleLate.Hears Metric.node Metric.collectionStream 1 handler ∧ (reports 1 sampleLate.world).length = 3 ∧
      sampleLate.room = none ∧
      (sampleLate.number 0 = 2147483647 ∧ sampleLate.number 1 = 0 ∧ sampleLate.number 2 = 1) ∧
      s'.size = sampleLate.size + 2 ∧ ∃ request, s'.live[(1 : SubscriberId)]? = some (.stream request handler)) ∧
    ∃ (name : String) (metric : Metric), (reports 1 (gaugeNamed name).world)[3]? = some metric ∧
      (metric.report.withId 5).frame ∈ (Registry.dispatch 1 sampleRequest (gaugeNamed name)).2.outbox.toList ∧
      ∀ q, Message.ofFrame (metric.report.withId 5).frame ≠ .ok q := by
  have used : Registry.UsedUp (Registry.numberLimit - 2) sampleCollecting sampleLate :=
    Registry.usedUp_spent rfl (early_sampleCollecting.freeFor (by decide))
  obtain ⟨hears, hlength, hroom, hsize, hback⟩ := overwritten_late used
  obtain ⟨metric, hmetric, -, hsent, hunread⟩ := unread_of_long (Nat.le_of_eq (length_replicate Bytes.lengthLimit).symm)
  exact ⟨⟨hears, hlength, hroom, numbers_late used, hsize, hback⟩, _, metric, hmetric, hsent, hunread⟩

end LevelLink.MetricStream
