import Mathlib.Data.List.Sort
import LevelLink.Metric.Report
import LevelLink.Proofs.Link.Delivery
import LevelLink.Proofs.Wire.Fields
import LevelLink.Proofs.Wire.Frames

/-!
# Reports of metrics

The metrics that are reported are those of the set (`MetricSet.perm_inOrder`), by kinds (`MetricSet.pairwise_inOrder`),
and within a kind as they were registered (`MetricSet.ofKind_inOrder`): a stable sort by kinds puts them in this order
(`MetricSet.inOrder_eq_mergeSort`).  A report is read back from its frame in fields, as long as its
size can be said (`Metric.yields_of_report`).
-/

namespace LevelLink

/-- The place of a kind in a report. -/
def MetricKind.rank : MetricKind → Nat
  | pos => 0
  | counter => 1
  | gauge => 2

namespace MetricSet

variable {ms : MetricSet}

/-! ### The metrics at the start of a collection -/

/-- Bringing the counters up to date changes values only. -/
theorem map_collected {α : Type} (f : Metric → α) (hf : ∀ m bits, f (m.setFirst bits) = f m) (t : Traffic)
    (ms : MetricSet) : (ms.collected t).map f = ms.map f := by
  unfold collected
  split
  · simp only [List.map_cons, Metric.increased, hf]
  · rfl

/-! ### By kinds, and in order -/

/-- The metrics of one kind. -/
def ofKind (ms : MetricSet) (k : MetricKind) : MetricSet := ms.filter fun m => m.kind = k

theorem mem_ofKind {m : Metric} {k : MetricKind} : m ∈ ms.ofKind k ↔ m ∈ ms ∧ m.kind = k := by
  rw [ofKind, List.mem_filter, decide_eq_true_iff]

theorem ofKind_ofKind (ms : MetricSet) (k k' : MetricKind) :
    (ms.ofKind k').ofKind k = if k' = k then ms.ofKind k else [] := by
  split
  · next h =>
    subst h
    exact List.filter_eq_self.mpr fun m hm => decide_eq_true (mem_ofKind.mp hm).2
  · next h =>
    refine List.filter_eq_nil_iff.mpr fun m hm heq => h ?_
    exact (mem_ofKind.mp hm).2.symm.trans (of_decide_eq_true heq)

theorem inOrder_eq (ms : MetricSet) : ms.inOrder = ms.ofKind .pos ++ (ms.ofKind .counter ++ ms.ofKind .gauge) := by
  simp [inOrder, ofKind, MetricKind.all]

/-- Within a kind the metrics stand as they were registered. -/
theorem ofKind_inOrder (ms : MetricSet) (k : MetricKind) : ofKind ms.inOrder k = ms.ofKind k := by
  have happend (l l' : MetricSet) : ofKind (l ++ l') k = ofKind l k ++ ofKind l' k := List.filter_append ..
  rw [inOrder_eq, happend, happend, ofKind_ofKind, ofKind_ofKind, ofKind_ofKind]
  cases k
  all_goals simp

theorem perm_inOrder (ms : MetricSet) : ms.inOrder.Perm ms := by
  refine List.perm_iff_count.mpr fun m => ?_
  have hkind (l : MetricSet) : l.count m = (l.ofKind m.kind).count m :=
    (List.count_filter (p := fun x : Metric => x.kind = m.kind) (decide_eq_true rfl)).symm
  rw [hkind, ofKind_inOrder, ← hkind]

theorem pairwise_inOrder (ms : MetricSet) : ms.inOrder.Pairwise fun m m' => m.kind.rank ≤ m'.kind.rank := by
  have hkind (k : MetricKind) : (ms.ofKind k).Pairwise fun m m' => m.kind.rank ≤ m'.kind.rank := by
    refine List.pairwise_of_forall_mem_list fun m hm m' hm' => ?_
    rw [(mem_ofKind.mp hm).2, (mem_ofKind.mp hm').2]
  rw [inOrder_eq, List.pairwise_append, List.pairwise_append]
  refine ⟨hkind .pos, ⟨hkind .counter, hkind .gauge, fun m hm m' hm' => ?_⟩, fun m hm m' _ => ?_⟩
  · rw [(mem_ofKind.mp hm).2, (mem_ofKind.mp hm').2]
    decide
  · rw [(mem_ofKind.mp hm).2]
    exact Nat.zero_le _

theorem ofKind_cons (m : Metric) (ms : MetricSet) (k : MetricKind) :
    ofKind (m :: ms) k = if m.kind = k then m :: ms.ofKind k else ms.ofKind k := by
  rw [ofKind, List.filter_cons]
  simp only [decide_eq_true_eq]
  rfl

/-- Metrics that stand by kinds are in order. -/
theorem inOrder_of_pairwise (h : ms.Pairwise fun m m' => m.kind.rank ≤ m'.kind.rank) : ms.inOrder = ms := by
  induction ms with
  | nil => rfl
  | cons m ms ih =>
    obtain ⟨hfirst, hrest⟩ := List.pairwise_cons.mp h
    have hnone (k : MetricKind) (hk : k.rank < m.kind.rank) : ofKind ms k = [] := by
      refine List.filter_eq_nil_iff.mpr fun m' hm' heq => ?_
      exact Nat.not_le_of_lt hk (of_decide_eq_true heq ▸ hfirst m' hm')
    have htail := ih hrest
    rw [inOrder_eq] at htail ⊢
    simp only [ofKind_cons]
    rcases hkind : m.kind
    all_goals
      rw [hkind] at hnone
    · simpa using htail
    · simpa [hnone .pos (by decide)] using htail
    · simpa [hnone .pos (by decide), hnone .counter (by decide)] using htail

/-- The order of a report is that of a stable sort by kinds. -/
theorem inOrder_eq_mergeSort (ms : MetricSet) :
    ms.inOrder = ms.mergeSort fun m m' => m.kind.rank ≤ m'.kind.rank := by
  let le (m m' : Metric) : Bool := m.kind.rank ≤ m'.kind.rank
  have htrans (a b c : Metric) (hab : le a b) (hbc : le b c) : le a c :=
    decide_eq_true (Nat.le_trans (of_decide_eq_true hab) (of_decide_eq_true hbc))
  have htotal (a b : Metric) : le a b || le b a := by
    simpa [le] using Nat.le_total a.kind.rank b.kind.rank
  have hsorted : (ms.mergeSort le).Pairwise fun m m' => m.kind.rank ≤ m'.kind.rank :=
    (List.pairwise_mergeSort htrans htotal ms).imp of_decide_eq_true
  have hkind (k : MetricKind) : ofKind (ms.mergeSort le) k = ms.ofKind k := by
    have hsame : (ms.ofKind k).Pairwise fun m m' => le m m' := by
      refine List.pairwise_of_forall_mem_list fun m hm m' hm' => decide_eq_true ?_
      rw [(mem_ofKind.mp hm).2, (mem_ofKind.mp hm').2]
    -- the sort keeps what stands in order already, and nothing else is of the kind
    have hstable : (ms.ofKind k).Sublist (ms.mergeSort le) :=
      List.sublist_mergeSort htrans htotal hsame List.filter_sublist
    have hinside := hstable.filter fun m => m.kind = k
    have hcount : (ofKind (ms.mergeSort le) k).length = (ms.ofKind k).length :=
      ((List.mergeSort_perm ms le).filter _).length_eq
    have hself : (ms.ofKind k).filter (fun m => m.kind = k) = ms.ofKind k :=
      (ms.ofKind_ofKind k k).trans (if_pos rfl)
    rw [hself] at hinside
    exact (hinside.eq_of_length hcount.symm).symm
  rw [← inOrder_of_pairwise hsorted, inOrder_eq, inOrder_eq, hkind, hkind, hkind]

end MetricSet

/-! ### What a report says -/

namespace Metric

/-- The numbers that are reported. -/
def values (m : Metric) : List UInt64 :=
  match m.kind with
  | .pos => [m.value.x, m.value.y, m.value.z]
  | .counter | .gauge => [m.value.x]

/-- The fields of a report. -/
def fields (m : Metric) : List Field :=
  [.text m.name, .text m.kind.text, .text m.labels] ++ m.values.map .float

theorem foldl_fields (m : Metric) (id : SubscriberId) :
    m.fields.foldl (fun q f => q.write f.bytes) ((Message.start node "REPORT_METRIC").withId id) =
      m.report.withId id := by
  unfold fields values report valueBytes
  cases m.kind
  · simp [Message.writeText, Message.writeBlock, Message.write, Message.withId, Field.bytes, Vec3.bytes]
  all_goals rfl

/-- A report whose size can be said is read back from its frame: the name, the kind, the labels and the numbers, and
nothing more.  A longer one is not read. -/
theorem yields_of_report (m : Metric) (id : SubscriberId) :
    (∃ q, Message.ofFrame (m.report.withId id).frame = .ok q ∧ q.AddressedTo node "REPORT_METRIC" id ∧
      q.Yields m.fields) ↔ m.report.body.length < Bytes.lengthLimit := by
  rw [← Message.body_withId m.report id]
  constructor
  · rintro ⟨q, hframe, -⟩
    exact Message.body_lt_of_ofFrame hframe
  · intro hbody
    obtain ⟨-, q, hframe, hnode, hname, hid, hyields⟩ := Message.yields_of_body_lt (m.foldl_fields id) hbody
    exact ⟨q, hframe, ⟨hnode, hname, hid⟩, hyields⟩

/-- The name is part of the report. -/
theorem length_name_le_report (m : Metric) : (Utf8.encode m.name).length ≤ m.report.body.length := by
  simp only [report, Message.writeText, Message.writeBlock, Message.body_write, List.length_append, Bytes.length_block]
  omega

end Metric
end LevelLink
