import NnHal.Delivery

/-!
# The mappings of a prepared model

From `initRuntimeInfo` to the destructors, `mmap` is called for the pools of the
model and for those of each request, and `munmap` for the request pools alone,
by both destructors, each with copies of the entries.  So whatever `mmap` has
handed out is never unmapped, or is unmapped and then unmapped again.
-/

namespace NnHal

open Command

/-! ## The life of a prepared model -/

/-- `initRuntimeInfo`, with the pools of the model and which of them the system
maps, and then one execution after the other. -/
structure Life where
  maps : Nat → Bool
  pools : List HidlMemory
  executions : List (Behaviour × ExecuteCall)

/-- The state before the destructors.  A prepared model that does not initialize
is not handed out. -/
def Life.beforeDestruction (life : Life) (pm : BasePreparedModel) (s : SharedState) :
    SharedState :=
  match RuntimeInfo.initRuntimeInfo {} life.maps life.pools pm.mModel {} with
  | (.error _, mappings) => { s with mModelInfo := {}, mappings }
  | (.ok mModelInfo, mappings) => runExecutions pm { s with mModelInfo, mappings } life.executions

/-- `deinitialize` of the derived destructor, then of the base one. -/
def SharedState.destroy (s : SharedState) : Mappings :=
  s.mModelInfo.unmapRuntimeMemPools (s.mModelInfo.unmapRuntimeMemPools s.mappings)

/-- Every region has been unmapped once, and nothing else has been. -/
def Mappings.UnmappedOnce (os : Mappings) : Prop :=
  (∀ id < os.next, os.unmapped.count id = 1) ∧ os.stray = 0

/-! ## `munmap`, call after call -/

namespace Mappings

variable {os : Mappings}

/-- `munmap` on each of the buffers, whatever it returns. -/
def munmapAll (os : Mappings) (buffers : List Buffer) : Mappings :=
  buffers.foldl (fun os buffer => (os.munmap buffer).2) os

theorem munmapAll_cons (os : Mappings) (buffer : Buffer) (buffers : List Buffer) :
    os.munmapAll (buffer :: buffers) = (os.munmap buffer).2.munmapAll buffers := rfl

/-- The buffer is a live mapping. -/
def IsLive (os : Mappings) (buffer : Buffer) : Prop :=
  ∃ id object, buffer = .region id object ∧ id ∈ os.live

/-- A call on a live region ends it. -/
theorem munmap_live {id object : Nat} (h : id ∈ os.live) :
    (os.munmap (.region id object)).2 =
      { os with live := os.live.erase id, unmapped := id :: os.unmapped } := by
  simp [munmap, h]

/-- A call on anything else is a stray one. -/
theorem munmap_stray {buffer : Buffer} (h : ¬ os.IsLive buffer) :
    (os.munmap buffer).2 = { os with stray := os.stray + 1 } := by
  cases buffer with
  | region id object =>
      have hid : id ∉ os.live := fun hmem => h ⟨id, object, rfl, hmem⟩
      simp [munmap, hid]
  | null | mapFailed | shared object => rfl

/-- Regions only end, strays only add up, and none is handed out. -/
theorem munmap_monotone (os : Mappings) (buffer : Buffer) :
    (os.munmap buffer).2.live ⊆ os.live ∧ os.stray ≤ (os.munmap buffer).2.stray ∧
      (os.munmap buffer).2.next = os.next := by
  by_cases h : os.IsLive buffer
  · rcases h with ⟨id, object, rfl, hid⟩
    rw [munmap_live hid]
    exact ⟨List.erase_subset, Nat.le_refl _, rfl⟩
  · rw [munmap_stray h]
    exact ⟨List.Subset.refl _, Nat.le_succ _, rfl⟩

theorem munmapAll_monotone (os : Mappings) (buffers : List Buffer) :
    (os.munmapAll buffers).live ⊆ os.live ∧ os.stray ≤ (os.munmapAll buffers).stray ∧
      (os.munmapAll buffers).next = os.next := by
  induction buffers generalizing os with
  | nil => exact ⟨List.Subset.refl _, Nat.le_refl _, rfl⟩
  | cons buffer buffers ih =>
      obtain ⟨hlive, hstray, hnext⟩ := munmap_monotone os buffer
      obtain ⟨hlive', hstray', hnext'⟩ := ih (os.munmap buffer).2
      exact ⟨List.Subset.trans hlive' hlive, Nat.le_trans hstray hstray', hnext'.trans hnext⟩

/-- After the calls none of the buffers is live any more. -/
theorem not_isLive_munmapAll (hnodup : os.live.Nodup) {buffers : List Buffer} {buffer : Buffer}
    (hmem : buffer ∈ buffers) : ¬ (os.munmapAll buffers).IsLive buffer := by
  induction buffers generalizing os with
  | nil => cases hmem
  | cons first buffers ih =>
      rw [munmapAll_cons]
      have hrest := munmapAll_monotone (os.munmap first).2 buffers
      by_cases hfirst : os.IsLive first
      · rcases hfirst with ⟨id, object, rfl, hid⟩
        have hnodup' : (os.munmap (.region id object)).2.live.Nodup := by
          rw [munmap_live hid]
          exact hnodup.erase id
        rcases List.mem_cons.mp hmem with rfl | hmem
        · intro hboth
          rcases hboth with ⟨_, _, heq, hlive⟩
          obtain ⟨rfl, rfl⟩ := Buffer.region.inj heq
          have hgone := hrest.1 hlive
          rw [munmap_live hid] at hgone
          exact hnodup.not_mem_erase hgone
        · exact ih hnodup' hmem
      · rcases List.mem_cons.mp hmem with rfl | hmem
        · intro hboth
          rcases hboth with ⟨id, object, heq, hlive⟩
          have hlive' := hrest.1 hlive
          rw [munmap_stray hfirst] at hlive'
          exact hfirst ⟨id, object, heq, hlive'⟩
        · have hnodup' : (os.munmap first).2.live.Nodup := by
            rw [munmap_stray hfirst]
            exact hnodup
          exact ih hnodup' hmem

/-- A buffer that is not live makes one of the calls a stray one. -/
theorem stray_lt_munmapAll {buffers : List Buffer} {buffer : Buffer} (hmem : buffer ∈ buffers)
    (hlive : ¬ os.IsLive buffer) : os.stray < (os.munmapAll buffers).stray := by
  induction buffers generalizing os with
  | nil => cases hmem
  | cons first buffers ih =>
      obtain ⟨hsubset, hstray, -⟩ := munmap_monotone os first
      rcases List.mem_cons.mp hmem with rfl | hmem
      · have hrest := (munmapAll_monotone (os.munmap buffer).2 buffers).2.1
        rw [munmapAll_cons]
        rw [munmap_stray hlive] at hrest ⊢
        exact Nat.lt_of_lt_of_le (Nat.lt_succ_self _) hrest
      · have hnotLive : ¬ (os.munmap first).2.IsLive buffer := by
          intro hboth
          rcases hboth with ⟨id, object, heq, hid⟩
          exact hlive ⟨id, object, heq, hsubset hid⟩
        exact Nat.lt_of_le_of_lt hstray (ih hmem hnotLive)

/-- What has been unmapped by the calls was one of the buffers. -/
theorem mem_unmapped_munmapAll {buffers : List Buffer} {id : Nat}
    (h : id ∈ (os.munmapAll buffers).unmapped) :
    id ∈ os.unmapped ∨ ∃ object, Buffer.region id object ∈ buffers := by
  induction buffers generalizing os with
  | nil => exact .inl h
  | cons first buffers ih =>
      rw [munmapAll_cons] at h
      rcases ih h with hfirst | ⟨object, hmem⟩
      · by_cases hlive : os.IsLive first
        · rcases hlive with ⟨id', object, rfl, hid⟩
          rw [munmap_live hid] at hfirst
          rcases List.mem_cons.mp hfirst with rfl | hold
          · exact .inr ⟨object, List.mem_cons_self⟩
          · exact .inl hold
        · rw [munmap_stray hlive] at hfirst
          exact .inl hfirst
      · exact .inr ⟨object, List.mem_cons_of_mem _ hmem⟩

end Mappings

/-! ## The buffers of the table -/

/-- What `unmapRuntimeMemPools` calls `munmap` on: the mappings of the driver's
own, and the addresses of failed ones. -/
def RuntimeInfo.ownBuffers (info : RuntimeInfo) : List Buffer :=
  info.mRequestPoolInfos.filterMap fun poolInfo =>
    if poolInfo.hidlMemory.name = .mmapFd ∧ poolInfo.buffer ≠ .null then some poolInfo.buffer
    else none

theorem unmap_mem_mappings (poolInfo : RunTimePoolInfo) (os : Mappings) :
    (poolInfo.unmap_mem os).2.2 =
      if poolInfo.hidlMemory.name = .mmapFd ∧ poolInfo.buffer ≠ .null then
        (os.munmap poolInfo.buffer).2
      else os := by
  unfold RunTimePoolInfo.unmap_mem
  by_cases hnull : poolInfo.buffer = .null
  · simp [hnull]
  · by_cases hname : poolInfo.hidlMemory.name = .mmapFd
    · simp only [hnull, hname, ne_eq, not_false_eq_true, if_true, and_self]
      split <;> rfl
    · simp [hnull, hname]

theorem unmapRuntimeMemPools_eq (info : RuntimeInfo) (os : Mappings) :
    info.unmapRuntimeMemPools os = os.munmapAll info.ownBuffers := by
  unfold RuntimeInfo.unmapRuntimeMemPools RuntimeInfo.ownBuffers
  induction info.mRequestPoolInfos generalizing os with
  | nil => rfl
  | cons poolInfo poolInfos ih =>
      rw [List.foldl_cons, ih, unmap_mem_mappings, List.filterMap_cons]
      by_cases h : poolInfo.hidlMemory.name = .mmapFd ∧ poolInfo.buffer ≠ .null
      · simp only [if_pos h, Mappings.munmapAll_cons]
      · simp only [if_neg h]

/-! ## The invariant of the mappings -/

/-- Before the destructors nothing has been unmapped; the live regions have been
handed out, each once; and an `mmap_fd` entry of the table holds one that has
been handed out, or the address of a failed mapping. -/
structure Mappings.Holds (os : Mappings) (poolInfos : List RunTimePoolInfo) : Prop where
  nodup : os.live.Nodup
  live_lt : ∀ id ∈ os.live, id < os.next
  unmapped : os.unmapped = []
  stray : os.stray = 0
  entries : ∀ poolInfo ∈ poolInfos, poolInfo.hidlMemory.name = .mmapFd →
    poolInfo.buffer = .mapFailed ∨ ∃ id < os.next, ∃ object, poolInfo.buffer = .region id object

namespace Mappings.Holds

variable {os : Mappings} {poolInfos : List RunTimePoolInfo}

theorem initial : Mappings.Holds {} [] := by
  constructor <;> simp

/-- The table may lose entries, or get ones that hold nothing. -/
theorem resize (h : os.Holds poolInfos) (n : Nat) : os.Holds (NnHal.resize poolInfos n) := by
  refine { h with entries := fun poolInfo hmem hname => ?_ }
  rcases List.mem_append.mp hmem with htake | hdefault
  · exact h.entries poolInfo (List.mem_of_mem_take htake) hname
  · obtain rfl : poolInfo = default := List.eq_of_mem_replicate hdefault
    cases hname

/-- `mmap` keeps what has been handed out before. -/
theorem mmap (h : os.Holds poolInfos) (object : Nat) (succeeds : Bool) :
    (os.mmap object succeeds).2.Holds poolInfos := by
  cases succeeds with
  | false => exact h
  | true =>
      have hfresh : os.next ∉ os.live := fun hmem => Nat.lt_irrefl _ (h.live_lt _ hmem)
      refine ⟨List.nodup_cons.mpr ⟨hfresh, h.nodup⟩, ?_, h.unmapped, h.stray, ?_⟩
      · intro id hid
        rcases List.mem_cons.mp hid with rfl | hid
        · exact Nat.lt_succ_self _
        · exact Nat.lt_succ_of_lt (h.live_lt id hid)
      · intro poolInfo hmem hname
        rcases h.entries poolInfo hmem hname with hfailed | ⟨id, hid, object', hbuffer⟩
        · exact .inl hfailed
        · exact .inr ⟨id, Nat.lt_succ_of_lt hid, object', hbuffer⟩

/-- An entry of the table is set to one that holds what it may. -/
theorem setEntry (h : os.Holds poolInfos) {i : Nat} {poolInfo : RunTimePoolInfo}
    (hentry : poolInfo.hidlMemory.name = .mmapFd →
      poolInfo.buffer = .mapFailed ∨
        ∃ id < os.next, ∃ object, poolInfo.buffer = .region id object) :
    os.Holds (poolInfos.set i poolInfo) := by
  refine { h with entries := fun other hmem hname => ?_ }
  rcases List.mem_or_eq_of_mem_set hmem with hold | rfl
  · exact h.entries other hold hname
  · exact hentry hname

/-- One round of the loops that map pools. -/
theorem set (h : os.Holds poolInfos) (i : Nat) (pool : HidlMemory) (maps : Bool) :
    let r := (poolInfos.getD i default).set pool maps os
    r.2.2.Holds (poolInfos.set i r.2.1) := by
  unfold RunTimePoolInfo.set
  cases hname : pool.name with
  | mmapFd =>
      refine (h.mmap pool.object maps).setEntry fun _ => ?_
      cases maps with
      | false => exact .inl rfl
      | true => exact .inr ⟨os.next, Nat.lt_succ_self _, pool.object, rfl⟩
  | ashmem | hardwareBufferBlob =>
      cases maps <;> exact h.setEntry fun hmmap => by simp [hname] at hmmap
  | other name => exact h.setEntry fun hmmap => by simp [hname] at hmmap

end Mappings.Holds

theorem setPools_holds (maps : Nat → Bool) (i : Nat) (pools : List HidlMemory)
    {poolInfos : List RunTimePoolInfo} {os : Mappings} (h : os.Holds poolInfos) :
    (setPools maps i pools poolInfos os).2.2.Holds (setPools maps i pools poolInfos os).2.1 := by
  induction pools generalizing i poolInfos os with
  | nil => exact h
  | cons pool pools ih =>
      have hset := h.set i pool (maps i)
      simp only [setPools]
      split
      · exact ih (i + 1) hset
      · exact hset

theorem setMemoryPools_holds (maps : Nat → Bool) (i : Nat) (pools : List MemoryPool)
    {poolInfos : List RunTimePoolInfo} {os : Mappings} (h : os.Holds poolInfos) :
    (setMemoryPools maps i pools poolInfos os).2.2.Holds
      (setMemoryPools maps i pools poolInfos os).2.1 := by
  induction pools generalizing i poolInfos os with
  | nil => exact h
  | cons pool pools ih =>
      cases pool with
      | token token => exact h
      | hidlMemory pool =>
          have hset := h.set i pool (maps i)
          simp only [setMemoryPools]
          split
          · exact ih (i + 1) hset
          · exact hset

/-! ## The invariant over a run -/

/-- The invariant, for the table of the request pools. -/
def SharedState.HoldsPools (s : SharedState) : Prop :=
  s.mappings.Holds s.mModelInfo.mRequestPoolInfos

/-- Only the mapping of a request's pools changes what is mapped. -/
theorem executionAnswer_holdsPools (pm : BasePreparedModel) (b : Behaviour) (c : ExecutionCmd)
    (s : SharedState) (r : c.Answer) (s' : SharedState)
    (h : executionAnswer pm b c s = .ok (r, s')) (hs : s.HoldsPools) : s'.HoldsPools := by
  cases c with
  | setRunTimePoolInfos pools =>
      cases h
      have hmapped := setPools_holds b.maps 0 pools (hs.resize pools.length)
      exact hmapped
  | setRunTimeMemoryPools pools =>
      cases h
      have hmapped := setMemoryPools_holds b.maps 0 pools (hs.resize pools.length)
      exact hmapped
  | copyInput arguments i =>
      obtain ⟨mOperands, inputBlobs, -, rfl⟩ := copyInput_frame h
      exact hs
  | copyOutput scalarDims arguments i =>
      obtain ⟨mOperands, memory, rfl⟩ := copyOutput_frame h
      exact hs
  | infer =>
      have hs' : (s.infer pm b).2 = s' := congrArg Prod.snd (Except.ok.inj h)
      unfold SharedState.infer at hs'
      split at hs'
      · exact hs' ▸ hs
      · exact hs' ▸ hs
  | updateRequestPoolInfos =>
      simp only [executionAnswer] at h
      split at h
      · cases h
        exact hs
      · cases h
  | getOutputShapes | notify n =>
      cases h
      exact hs

theorem runExecutions_holdsPools (pm : BasePreparedModel)
    (executions : List (Behaviour × ExecuteCall)) {s : SharedState} (hs : s.HoldsPools) :
    (runExecutions pm s executions).HoldsPools := by
  induction executions generalizing s with
  | nil => exact hs
  | cons execution executions ih =>
      exact ih (exec_preserves (executionAnswer_holdsPools pm execution.1) _ hs)

/-- `initRuntimeInfo` leaves the mappings of the model's pools, and the table of
the request pools as it was. -/
theorem initRuntimeInfo_holds (maps : Nat → Bool) (pools : List HidlMemory) (model : Model) :
    let r := RuntimeInfo.initRuntimeInfo {} maps pools model {}
    r.2.Holds [] ∧ ∀ info, r.1 = .ok info → info.mRequestPoolInfos = [] := by
  intro r
  have hmapped := setPools_holds maps 0 pools (Mappings.Holds.initial.resize pools.length)
  have hr : r = if (setPools maps 0 pools (resize [] pools.length) {}).1 then
      (RuntimeInfo.initializeRunTimeOperandInfo
        { mPoolInfos := (setPools maps 0 pools (resize [] pools.length) {}).2.1 } model,
        (setPools maps 0 pools (resize [] pools.length) {}).2.2)
    else (.error .returnsFalse, (setPools maps 0 pools (resize [] pools.length) {}).2.2) := rfl
  have hempty : (setPools maps 0 pools (resize [] pools.length) {}).2.2.Holds [] :=
    { hmapped with entries := by simp }
  by_cases hfst : (setPools maps 0 pools (resize [] pools.length) {}).1 = true
  · rw [if_pos hfst] at hr
    rw [hr]
    refine ⟨hempty, fun info hinfo => ?_⟩
    obtain ⟨mOperands, rfl⟩ := initializeRunTimeOperandInfo_frame hinfo
    rfl
  · rw [if_neg hfst] at hr
    rw [hr]
    exact ⟨hempty, nofun⟩

/-- The invariant holds whenever the destructors run. -/
theorem Life.beforeDestruction_holdsPools (life : Life) (pm : BasePreparedModel)
    (s : SharedState) : (life.beforeDestruction pm s).HoldsPools := by
  obtain ⟨hholds, hempty⟩ := initRuntimeInfo_holds life.maps life.pools pm.mModel
  unfold Life.beforeDestruction
  split
  · next mappings hinit =>
    rw [hinit] at hholds
    exact hholds
  · next info mappings hinit =>
    rw [hinit] at hholds hempty
    refine runExecutions_holdsPools pm _ ?_
    unfold SharedState.HoldsPools
    rw [hempty info rfl]
    exact hholds

/-! ## Unmapped once -/

/-- The buffers that are unmapped have been handed out, or stand for a failed
mapping. -/
theorem SharedState.HoldsPools.ownBuffers {s : SharedState} (hs : s.HoldsPools) {buffer : Buffer}
    (h : buffer ∈ s.mModelInfo.ownBuffers) :
    buffer = .mapFailed ∨ ∃ id < s.mappings.next, ∃ object, buffer = .region id object := by
  obtain ⟨poolInfo, hmem, hbuffer⟩ := List.mem_filterMap.mp h
  split at hbuffer
  · next hown =>
    obtain rfl := Option.some.inj hbuffer
    exact hs.entries poolInfo hmem hown.1
  · cases hbuffer

/-- **Unmapped once.**  Over every run up to the destructors: each region is
unmapped once and nothing else is, exactly when `mmap` has never handed out a
region and the table has no `mmap_fd` entry whose mapping failed. -/
theorem Life.unmappedOnce_iff (life : Life) (pm : BasePreparedModel) (s : SharedState) :
    let last := life.beforeDestruction pm s
    last.destroy.UnmappedOnce ↔
      last.mappings.next = 0 ∧
        ∀ poolInfo ∈ last.mModelInfo.mRequestPoolInfos,
          poolInfo.hidlMemory.name = .mmapFd → poolInfo.buffer ≠ .mapFailed := by
  intro last
  have hs : last.HoldsPools := life.beforeDestruction_holdsPools pm s
  let buffers := last.mModelInfo.ownBuffers
  have hdestroy : last.destroy = (last.mappings.munmapAll buffers).munmapAll buffers := by
    simp only [SharedState.destroy, unmapRuntimeMemPools_eq, buffers]
  have hfirst := last.mappings.munmapAll_monotone buffers
  have hsecond := (last.mappings.munmapAll buffers).munmapAll_monotone buffers
  constructor
  · intro hboth
    rcases hboth with ⟨honce, hstray⟩
    rw [hdestroy] at honce hstray
    have hnoStray : (last.mappings.munmapAll buffers).stray = 0 := by omega
    -- whatever the first destructor unmaps, the second one unmaps again
    have hempty : ∀ buffer, buffer ∉ buffers := by
      intro buffer hmem
      have hlive := Mappings.not_isLive_munmapAll hs.nodup hmem
      have hagain := Mappings.stray_lt_munmapAll hmem hlive
      omega
    constructor
    · by_contra hnext
      have hcount := honce 0 (by omega)
      have hunmapped : 0 ∈ ((last.mappings.munmapAll buffers).munmapAll buffers).unmapped := by
        refine List.count_pos_iff.mp ?_
        omega
      rcases Mappings.mem_unmapped_munmapAll hunmapped with hunmapped | ⟨object, hmem⟩
      · rcases Mappings.mem_unmapped_munmapAll hunmapped with hunmapped | ⟨object, hmem⟩
        · rw [hs.unmapped] at hunmapped
          cases hunmapped
        · exact hempty _ hmem
      · exact hempty _ hmem
    · intro poolInfo hmem hname hfailed
      refine hempty .mapFailed (List.mem_filterMap.mpr ⟨poolInfo, hmem, ?_⟩)
      rw [if_pos ⟨hname, by simp [hfailed]⟩, hfailed]
  · intro hboth
    rcases hboth with ⟨hnext, hfailed⟩
    have hempty : buffers = [] := by
      apply List.eq_nil_iff_forall_not_mem.mpr
      intro buffer hmem
      rcases hs.ownBuffers hmem with rfl | ⟨id, hid, -⟩
      · obtain ⟨poolInfo, hentry, hbuffer⟩ := List.mem_filterMap.mp hmem
        split at hbuffer
        · next hown => exact hfailed poolInfo hentry hown.1 (Option.some.inj hbuffer)
        · cases hbuffer
      · omega
    rw [hdestroy, hempty]
    refine ⟨fun id hid => ?_, hs.stray⟩
    have hnone : id < last.mappings.next := hid
    omega

/-- One execution with `mmap_fd` pools: the derived destructor unmaps them, and
the base one unmaps them again. -/
def mmapLife : Life where
  maps _ := true
  pools := []
  executions :=
    [(.permissive, .executeSynchronously true
      { reshapeRequest 1 2 with
        pools := [{ name := .mmapFd, size := 4, object := 1 },
                  { name := .mmapFd, size := 4, object := 2 }] })]

theorem mmapLife_unmaps_twice :
    ¬ ∀ (life : Life) (pm : BasePreparedModel) (s : SharedState),
      (life.beforeDestruction pm s).destroy.UnmappedOnce := by
  intro h
  have hstray := (h mmapLife reshapePreparedModel reshapeStart).2
  cases hstray

end NnHal
