import Whyslow.Lib.Runs
import Whyslow.Lib.Sorting
import Whyslow.Theorems.Chain

/-! The report as a whole. The name cache is transparent, so every chain is the one its stall has on its own; what
    is left of `explain` is the choice of the stalls, a stable sort cut off after the first ones. -/

namespace Whyslow
open Runs

/-! ### The name cache -/

/-- Every cached name is the one a fresh lookup gives. -/
def DevNames.Faithful (host : Host) (names : DevNames) : Prop :=
  ∀ dev n, names.cache.lookup dev = some n → n = resolveDev host dev

theorem DevNames.faithful_new (host : Host) : DevNames.new.Faithful host := by
  intro dev n h
  cases h

section Names
variable {host : Host} {names : DevNames}

theorem DevNames.Faithful.name_eq (h : names.Faithful host) (dev : UInt32) :
    (names.name host dev).1 = resolveDev host dev := by
  unfold DevNames.name
  cases hn : names.cache.lookup dev with
  | none => rfl
  | some n => exact h dev n hn

theorem DevNames.Faithful.name (h : names.Faithful host) (dev : UInt32) : (names.name host dev).2.Faithful host := by
  unfold DevNames.name
  cases hn : names.cache.lookup dev with
  | none =>
    intro dev' n hn'
    by_cases hd : dev' = dev
    · subst hd
      rw [AList.lookup_insert] at hn'
      exact (Option.some.inj hn').symm
    · rw [AList.lookup_insert_ne hd] at hn'
      exact h dev' n hn'
  | some n => exact h

/-- One call of `name` at most takes the cache from one state to the other. -/
def DevNames.Looks (host : Host) (names names' : DevNames) : Prop :=
  names' = names ∨ ∃ dev, names' = (names.name host dev).2

theorem walkHops_looks (names : DevNames) (typed : Typed) (left : Nat) (wait : TraceEvent) (lines : List Line) :
    names.Looks host (walkHops host typed left wait names lines).2 := by
  induction left generalizing wait lines with
  | zero =>
    unfold walkHops
    split <;> exact Or.inl rfl
  | succ left ih =>
    unfold walkHops
    split
    · exact Or.inl rfl
    · dsimp only
      split
      · exact ih _ _
      · exact Or.inr ⟨_, rfl⟩
      · exact Or.inl rfl

theorem explainOneStall_looks (names : DevNames) (b : TraceEvent) (trace : TraceFile) (typed : Typed) :
    names.Looks host (explainOneStall host b trace typed names).2 := by
  unfold explainOneStall
  dsimp only
  split
  · exact walkHops_looks names typed _ _ _
  · exact Or.inr ⟨_, rfl⟩
  · exact Or.inl rfl

theorem DevNames.Faithful.looks (h : names.Faithful host) {names' : DevNames} (hl : names.Looks host names') :
    names'.Faithful host := by
  rcases hl with rfl | ⟨dev, rfl⟩
  · exact h
  · exact h.name dev

theorem explainOneStall_faithful (h : names.Faithful host) (b : TraceEvent) (trace : TraceFile) (typed : Typed) :
    (explainOneStall host b trace typed names).2.Faithful host :=
  h.looks (explainOneStall_looks names b trace typed)

theorem chainLines_faithful (h : names.Faithful host) (trace : TraceFile) (b : TraceEvent) (path : List TraceEvent) :
    chainLines host names trace b path = chainLines host .new trace b path := by
  have hname : ∀ dev, (names.name host dev).1 = (DevNames.new.name host dev).1 := fun dev =>
    (h.name_eq dev).trans ((DevNames.faithful_new host).name_eq dev).symm
  have hpath : pathLine host names = pathLine host .new := by
    funext e
    simp only [pathLine, hname]
  have hhead : headline host names = headline host .new := by
    funext wall b o
    cases o with
    | none => rfl
    | some e => simp only [headline, hname]
  rw [chainLines, chainLines, hpath, hhead]

/-- A chain does not depend on what was looked up before it. -/
theorem explainOneStall_eq_new (h : names.Faithful host) (b : TraceEvent) (trace : TraceFile) :
    (explainOneStall host b trace (Typed.partition trace.events) names).1 =
      (explainOneStall host b trace (Typed.partition trace.events) .new).1 := by
  obtain ⟨path, hpath, -, -, hlines⟩ := exists_stallPath host trace b names
  obtain ⟨path', hpath', -, -, hlines'⟩ := exists_stallPath host trace b .new
  obtain rfl := hpath.unique hpath'
  have heq := (hlines.trans (chainLines_faithful h trace b path)).trans hlines'.symm
  cases hc : (explainOneStall host b trace (Typed.partition trace.events) names).1
  cases hc' : (explainOneStall host b trace (Typed.partition trace.events) .new).1
  rw [hc, hc'] at heq
  exact congrArg Chain.mk heq

end Names

/-! ### The report -/

/-- The stalls `explain` reports, in the order of the report. -/
def slowestStalls (events : List TraceEvent) (slowest : Nat) : List TraceEvent :=
  ((events.filter (·.eventType = eventSchedBlock)).mergeSort fun a b => decide (b.durationNs ≤ a.durationNs)).take slowest

theorem longer_trans (a b c : TraceEvent) (hab : decide (b.durationNs ≤ a.durationNs) = true)
    (hbc : decide (c.durationNs ≤ b.durationNs) = true) : decide (c.durationNs ≤ a.durationNs) = true :=
  decide_eq_true (UInt64.le_trans (of_decide_eq_true hbc) (of_decide_eq_true hab))

theorem longer_total (a b : TraceEvent) :
    (decide (b.durationNs ≤ a.durationNs) || decide (a.durationNs ≤ b.durationNs)) = true := by
  rw [Bool.or_eq_true, decide_eq_true_eq, decide_eq_true_eq]
  exact UInt64.le_total _ _

/-- The chain of a stall on its own. -/
def stallChain (host : Host) (trace : TraceFile) (b : TraceEvent) : Chain :=
  (explainOneStall host b trace (Typed.partition trace.events) .new).1

/-- One stall of a report: its chain is added, and the cache goes on to the next one. -/
def explainStep (host : Host) (trace : TraceFile) (acc : List Chain × DevNames) (b : TraceEvent) :
    List Chain × DevNames :=
  let (chain, devNames) := explainOneStall host b trace (Typed.partition trace.events) acc.2
  (acc.1 ++ [chain], devNames)

theorem foldl_explain (host : Host) (trace : TraceFile) (blocks : List TraceEvent) (chains : List Chain)
    {names : DevNames} (h : names.Faithful host) :
    (blocks.foldl (explainStep host trace) (chains, names)).1 = chains ++ blocks.map (stallChain host trace) := by
  induction blocks generalizing chains names with
  | nil => simp
  | cons b blocks ih =>
    rw [List.foldl_cons, explainStep, ih _ (explainOneStall_faithful h b trace _), explainOneStall_eq_new h b trace]
    simp [stallChain]

theorem explain_eq_foldl (host : Host) (trace : TraceFile) (slowest : Nat) :
    explain host trace slowest =
      ((slowestStalls trace.events slowest).foldl (explainStep host trace) ([], .new)).1 := by
  have hblock : (Typed.partition trace.events).block = trace.events.filter (·.eventType = eventSchedBlock) := by
    rw [partition_eq]
  rw [slowestStalls, ← hblock]
  rfl

theorem explain_eq_map (host : Host) (trace : TraceFile) (slowest : Nat) :
    explain host trace slowest = (slowestStalls trace.events slowest).map (stallChain host trace) := by
  rw [explain_eq_foldl, foldl_explain host trace _ [] (DevNames.faithful_new host)]
  rfl

/-! ### Chains on their own -/

/-- The report of `slowest` stalls when `k` of them are explained: the chains and the cache. -/
def reportAt (host : Host) (trace : TraceFile) (slowest k : Nat) : List Chain × DevNames :=
  stateAt (explainStep host trace) ([], .new) (slowestStalls trace.events slowest) k

theorem reportAt_faithful (host : Host) (trace : TraceFile) (slowest k : Nat) :
    (reportAt host trace slowest k).2.Faithful host :=
  stateAt_induction (P := fun acc : List Chain × DevNames => acc.2.Faithful host) (DevNames.faithful_new host)
    (fun _ b _ h => explainOneStall_faithful h b trace _) k

theorem reportAt_looks (host : Host) (trace : TraceFile) (slowest k : Nat) :
    (reportAt host trace slowest k).2.Looks host (reportAt host trace slowest (k + 1)).2 := by
  cases hb : (slowestStalls trace.events slowest)[k]? with
  | none =>
    rw [reportAt, reportAt, stateAt_succ_of_none hb]
    exact Or.inl rfl
  | some b =>
    rw [reportAt, reportAt, stateAt_succ hb]
    exact explainOneStall_looks _ b trace _

/-- Chains do not influence each other: the chain of a stall is the one it has with an empty cache, and a shorter report
    is the beginning of a longer one. In every state of the cache, from lookup to lookup, each entry is the name that
    an empty cache would give. -/
theorem explain_chains_apart (host : Host) (trace : TraceFile) {n m : Nat} (hnm : n ≤ m) :
    (∀ i : Nat, (explain host trace n)[i]? = ((slowestStalls trace.events n)[i]?).map fun b =>
      (explainOneStall host b trace (Typed.partition trace.events) .new).1) ∧
    explain host trace n = (explain host trace m).take n ∧
    explain host trace n = (reportAt host trace n (slowestStalls trace.events n).length).1 ∧
    ∀ k, (reportAt host trace n k).2.Looks host (reportAt host trace n (k + 1)).2 ∧
      ∀ dev name, (reportAt host trace n k).2.cache.lookup dev = some name → name = (DevNames.new.name host dev).1 := by
  refine ⟨?_, ?_, ?_, ?_⟩
  · intro i
    rw [explain_eq_map, List.getElem?_map]
    rfl
  · rw [explain_eq_map, explain_eq_map, ← List.map_take, slowestStalls, slowestStalls, List.take_take,
      Nat.min_eq_left hnm]
  · rw [explain_eq_foldl, reportAt, stateAt_length]
  · intro k
    refine ⟨reportAt_looks host trace n k, ?_⟩
    intro dev name hname
    rw [(DevNames.faithful_new host).name_eq dev]
    exact reportAt_faithful host trace n k dev name hname

/-- Two reads of one device, each right before the resume of a stalled thread. -/
def twoReads : TraceFile where
  realtimeAnchorNs := 1700000000000000000
  monotonicAnchorNs := 0
  events :=
    [⟨900, 400, packBlockKey 8388608 64, 7, 8, eventBlockIo, "reader"⟩, ⟨1000, 500, 0, 7, 8, eventSchedBlock, "reader"⟩,
      ⟨1900, 300, packBlockKey 8388608 96, 7, 8, eventBlockIo, "reader"⟩,
      ⟨2000, 400, 0, 7, 8, eventSchedBlock, "reader"⟩]

/-- A host that knows device 8:0 as `sda`, and no other. -/
def sdaHost : Host :=
  ⟨fun path => if path = "/sys/dev/block/8:0" then some "sda" else none, fun _ => (12, 0, 0), fun _ => "1.00", false⟩

theorem slowestStalls_twoReads : slowestStalls twoReads.events 2 =
    [⟨1000, 500, 0, 7, 8, eventSchedBlock, "reader"⟩, ⟨2000, 400, 0, 7, 8, eventSchedBlock, "reader"⟩] := by
  rw [slowestStalls, List.mergeSort_of_pairwise (by decide)]
  rfl

/-- The second read finds the name of the device in the cache. -/
theorem explain_chains_apart_twoReads :
    explain sdaHost twoReads 2 = [⟨[.blockedOnBlockIo 1700000000000000500 8 500 "sda" 64]⟩,
      ⟨[.blockedOnBlockIo 1700000000000001600 8 400 "sda" 96]⟩] ∧
    (reportAt sdaHost twoReads 2 1).2.cache.lookup 8388608 = some "sda" ∧
    "sda" = (DevNames.new.name sdaHost 8388608).1 ∧
    (reportAt sdaHost twoReads 2 2).2.cache.keys = (reportAt sdaHost twoReads 2 1).2.cache.keys ∧
    (∀ i : Nat, (explain sdaHost twoReads 2)[i]? = ((slowestStalls twoReads.events 2)[i]?).map fun b =>
      (explainOneStall sdaHost b twoReads (Typed.partition twoReads.events) .new).1) ∧
    1 ≤ 2 ∧ explain sdaHost twoReads 1 = (explain sdaHost twoReads 2).take 1 := by
  have hle : 1 ≤ 2 := by decide
  obtain ⟨halone, -, hreport, hcache⟩ := explain_chains_apart sdaHost twoReads (le_refl 2)
  have hprefix := (explain_chains_apart sdaHost twoReads hle).2.1
  have hcached : (reportAt sdaHost twoReads 2 1).2.cache.lookup 8388608 = some "sda" := by
    rw [reportAt, slowestStalls_twoReads]
    decide +kernel
  refine ⟨?_, hcached, (hcache 1).2 _ _ hcached, ?_, halone, hle, hprefix⟩
  · rw [hreport, reportAt, slowestStalls_twoReads]
    decide +kernel
  · rw [reportAt, reportAt, slowestStalls_twoReads]
    decide +kernel

/-! ### The choice of the stalls -/

/-- The stalls of a trace, each with its position. -/
def placedStalls (events : List TraceEvent) : List (TraceEvent × Nat) :=
  events.zipIdx.filter (·.1.eventType = eventSchedBlock)

def reportOrder (s s' : TraceEvent × Nat) : Bool := decide (s'.1.durationNs ≤ s.1.durationNs)

/-- `s` has its place in the report before `s'`: it is longer, or as long and earlier in the trace. -/
def Slower (s s' : TraceEvent × Nat) : Prop :=
  s'.1.durationNs < s.1.durationNs ∨ (s'.1.durationNs = s.1.durationNs ∧ s.2 < s'.2)

theorem mem_placedStalls {events : List TraceEvent} {s : TraceEvent × Nat} :
    s ∈ placedStalls events ↔ events[s.2]? = some s.1 ∧ s.1.eventType = eventSchedBlock := by
  rw [placedStalls, List.mem_filter, List.mem_zipIdx_iff_getElem?, decide_eq_true_eq]

theorem map_fst_placedStalls (events : List TraceEvent) :
    (placedStalls events).map (·.1) = events.filter (·.eventType = eventSchedBlock) := by
  have h := List.filter_map (p := fun e : TraceEvent => decide (e.eventType = eventSchedBlock)) (f := Prod.fst)
    (l := events.zipIdx)
  rw [List.zipIdx_map_fst] at h
  exact h.symm

theorem pairwise_snd_placedStalls (events : List TraceEvent) : (placedStalls events).Pairwise (·.2 < ·.2) := by
  have h : (events.zipIdx.map (·.2)).Pairwise (· < ·) := by
    rw [List.zipIdx_map_snd]
    exact List.pairwise_lt_range'
  exact (List.pairwise_map.mp h).filter _

theorem slowestStalls_eq_map (events : List TraceEvent) (slowest : Nat) :
    slowestStalls events slowest = (((placedStalls events).mergeSort reportOrder).take slowest).map (·.1) := by
  have hmap : ((placedStalls events).mergeSort reportOrder).map (·.1) =
      ((placedStalls events).map (·.1)).mergeSort fun a b => decide (b.durationNs ≤ a.durationNs) :=
    List.map_mergeSort fun _ _ _ _ => rfl
  rw [slowestStalls, ← map_fst_placedStalls, ← hmap, List.map_take]

theorem pairwise_slower (events : List TraceEvent) : ((placedStalls events).mergeSort reportOrder).Pairwise Slower := by
  have hstable := Sorting.pairwise_mergeSort_stable (fun a b c => longer_trans a.1 b.1 c.1)
    (fun a b => longer_total a.1 b.1) (pairwise_snd_placedStalls events)
  refine hstable.imp ?_
  rintro s s' ⟨hle, hstay⟩
  rcases UInt64.lt_or_eq_of_le (of_decide_eq_true hle) with hlt | heq
  · exact Or.inl hlt
  · exact Or.inr ⟨heq, hstay (decide_eq_true (UInt64.le_of_eq heq.symm))⟩

/-- The chains of a report are those of distinct stalls of the trace, as many as asked for if there are as many,
    longest first and in the order of the trace among equals; and no stall that was left out belongs before one of
    them. -/
theorem explain_slowest (host : Host) (trace : TraceFile) (slowest : Nat) :
    (explain host trace slowest).length = min slowest (trace.events.countP (·.eventType = eventSchedBlock)) ∧
    ∃ sel : List (TraceEvent × Nat), explain host trace slowest = sel.map (fun s => stallChain host trace s.1) ∧
      (sel.map (·.2)).Nodup ∧ (∀ s ∈ sel, trace.events[s.2]? = some s.1 ∧ s.1.eventType = eventSchedBlock) ∧
      sel.Pairwise Slower ∧
      ∀ (i : Nat) b, trace.events[i]? = some b → b.eventType = eventSchedBlock → i ∉ sel.map (·.2) →
        ∀ s ∈ sel, Slower s (b, i) := by
  have hsort := List.mergeSort_perm (placedStalls trace.events) reportOrder
  refine ⟨?_, ((placedStalls trace.events).mergeSort reportOrder).take slowest, ?_, ?_, ?_, ?_, ?_⟩
  · rw [explain_eq_map, slowestStalls, List.length_map, List.length_take, List.length_mergeSort,
      List.countP_eq_length_filter]
  · rw [explain_eq_map, slowestStalls_eq_map, List.map_map]
    rfl
  · rw [List.map_take]
    refine (List.Sublist.nodup (List.take_sublist _ _) ?_)
    rw [(hsort.map _).nodup_iff]
    exact (List.pairwise_map.mpr (pairwise_snd_placedStalls trace.events)).imp fun h => h.ne
  · intro s hs
    exact mem_placedStalls.mp (hsort.mem_iff.mp (List.mem_of_mem_take hs))
  · exact (pairwise_slower trace.events).sublist (List.take_sublist _ _)
  · intro i b hb hbt hout s hs
    have hpair := pairwise_slower trace.events
    rw [← List.take_append_drop slowest ((placedStalls trace.events).mergeSort reportOrder)] at hpair
    refine (List.pairwise_append.mp hpair).2.2 s hs (b, i) ?_
    -- A stall that is not among the first ones is among the others.
    have hmem : (b, i) ∈ (placedStalls trace.events).mergeSort reportOrder :=
      List.mem_mergeSort.mpr (mem_placedStalls.mpr ⟨hb, hbt⟩)
    rw [← List.take_append_drop slowest ((placedStalls trace.events).mergeSort reportOrder)] at hmem
    rcases List.mem_append.mp hmem with h | h
    · exact absurd (List.mem_map_of_mem h) hout
    · exact h

end Whyslow
