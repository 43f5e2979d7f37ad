import CommonFps.Lib.Memory
import CommonFps.Lib.Scan

/-!
# Discovery of the VideoOut counter

Where the sampler does not know the table of the VideoOut library, it scans the
library's data for records that lead to a counter (`resolve_counter_address`):
window by window, each with enough of the next one to hold a whole record, and
in every record four layouts.

* `collectCandidates`: the scan, as the code does it;
* `flatCounters`: what it is for, the counters of all records one after the other;
* `scan_eq_flat`: no record at the border of two windows is missed, and none is
  counted twice.
-/

namespace CommonFps

namespace FpsSampler

/-- Where the known firmware has its table. -/
def kVideoOutProbeTableOffset : UInt64 := 0x34980

/-- The number of its records. -/
def kVideoOutProbeEntryCount : ℕ := 7

/-- The size of a record of it. -/
def kVideoOutProbeEntrySize : ℕ := 0x18

/-- Where a root has its counter. -/
def kVideoOutCounterOffset : UInt64 := 0x768

/-- The firmware whose table is known. -/
def kProvenFixedTableSdk : UInt32 := 0x09600000

/-- Where the scan begins. -/
def kScanBegin : ℕ := 0x10000

/-- Where it ends. -/
def kScanEnd : ℕ := 0x200000

/-- The distance of its windows. -/
def kScanStep : ℕ := 0x2000

/-- The size of a record of any layout. -/
def kLayoutLookahead : ℕ := 0x20

/-- The size of a window, with the rest of its last record. -/
def kScanReadSize : ℕ := kScanStep + kLayoutLookahead

/-- The number of candidates that are kept. -/
def kMaxCandidates : ℕ := 256

/-- Where a record of a layout says whether it is enabled, and where its pointer is. -/
structure Layout where
  enabledOffset : ℕ
  pointerOffset : ℕ
  deriving DecidableEq

/-- The layouts that a record may have. -/
def kLayouts : List Layout := [⟨0x00, 0x08⟩, ⟨0x04, 0x08⟩, ⟨0x00, 0x10⟩, ⟨0x04, 0x10⟩]

/-- An aligned address of a process. -/
def plausibleUserPointer (value : UInt64) : Bool :=
  value ≥ 0x10000 && value < 0x0000800000000000 && value &&& 0x7 = 0

/-- The memory of the game, as long as it does not change, and which reads of it
    the platform can do. -/
structure RemoteMemory where
  mem : Memory
  readable : UInt64 → ℕ → Bool

namespace RemoteMemory

variable (r : RemoteMemory)

/-- Some bytes, if they can be read. -/
def read (address : UInt64) (size : ℕ) : Option (List UInt8) :=
  if r.readable address size then some (readBytes r.mem address size) else none

/-- A 32-bit word, if it can be read. -/
def readValueU32 (address : UInt64) : Option UInt32 :=
  if r.readable address 4 then some (readU32 r.mem address) else none

/-- A 64-bit word, if it can be read. -/
def readValueU64 (address : UInt64) : Option UInt64 :=
  if r.readable address 8 then some (readU64 r.mem address) else none

end RemoteMemory

/-- The numbers in some bytes that were read. -/
def bytesU32 (bytes : List UInt8) (offset : ℕ) : UInt32 :=
  UInt32.ofNat (leValue ((bytes.drop offset).take 4))

/-- A 64-bit one. -/
def bytesU64 (bytes : List UInt8) (offset : ℕ) : UInt64 :=
  UInt64.ofNat (leValue ((bytes.drop offset).take 8))

/-- The table at its known place: the counter of the first record that leads to one. -/
def fixedTable (sdkVersion : UInt32) (r : RemoteMemory) (moduleBase : UInt64) : Option UInt64 :=
  if sdkVersion &&& 0xFFFF0000 ≠ kProvenFixedTableSdk then none
  else
    match r.read (moduleBase + kVideoOutProbeTableOffset)
      (kVideoOutProbeEntryCount * kVideoOutProbeEntrySize) with
    | none => none
    | some table =>
      (List.range kVideoOutProbeEntryCount).findSome? fun i =>
        let entry := table.drop (i * kVideoOutProbeEntrySize)
        let enabled := bytesU32 entry 0x00
        let pointer := bytesU64 entry 0x08
        if enabled = 0 ∨ pointer = 0 then none
        else
          match r.readValueU64 pointer with
          | none => none
          | some root => if root = 0 then none else some (root + kVideoOutCounterOffset)

/-- A counter that was found, with its first value. -/
structure Candidate where
  counter : UInt64
  first : UInt32
  deriving DecidableEq

/-- A root is a candidate if its counter can be read, is new, and there is room for it. -/
def addCandidate (r : RemoteMemory) (candidates : List Candidate) (root : UInt64) :
    List Candidate :=
  if plausibleUserPointer root = false then candidates
  else
    let counter := root + kVideoOutCounterOffset
    if candidates.any (·.counter = counter) then candidates
    else
      match r.readValueU32 counter with
      | none => candidates
      | some first =>
        if candidates.length = kMaxCandidates then candidates
        else candidates ++ [{ counter, first }]

/-- What the scan does with the bytes of a record, for one layout. -/
def visitLayout (r : RemoteMemory) (record : List UInt8) (candidates : List Candidate)
    (layout : Layout) : List Candidate :=
  let enabled := bytesU32 record layout.enabledOffset
  let pointer := bytesU64 record layout.pointerOffset
  if enabled = 0 ∨ enabled > 8 ∨ plausibleUserPointer pointer = false then candidates
  else
    match r.readValueU64 pointer with
    | none => candidates
    | some indirectRoot =>
      if plausibleUserPointer indirectRoot then addCandidate r candidates indirectRoot
      else candidates

/-- The values of a loop from `start`, in steps of `step`, as long as they are below
    `stop`. -/
def forBelow (start stop step : ℕ) : List ℕ :=
  (List.range ((stop - start + (step - 1)) / step)).map fun i => start + step * i

/-- The records of a window; the last one still has its lookahead. -/
def visitWindow (r : RemoteMemory) (window : List UInt8) (candidates : List Candidate) :
    List Candidate :=
  (forBelow 0 (kScanReadSize - kLayoutLookahead + 1) 8).foldl
    (fun candidates offset => kLayouts.foldl (visitLayout r (window.drop offset)) candidates)
    candidates

/-- The scan: the candidates of all windows that can be read. -/
def collectCandidates (r : RemoteMemory) (moduleBase : UInt64) : List Candidate :=
  (forBelow kScanBegin kScanEnd kScanStep).foldl
    (fun candidates offset =>
      match r.read (moduleBase + UInt64.ofNat offset) kScanReadSize with
      | none => candidates
      | some window => visitWindow r window candidates) []

/-! ## The counters of all records -/

/-- The counter that the record at an address leads to, in one layout. -/
def counterOf (r : RemoteMemory) (record : UInt64) (layout : Layout) : Option UInt64 :=
  let enabled := readU32 r.mem (record + UInt64.ofNat layout.enabledOffset)
  let pointer := readU64 r.mem (record + UInt64.ofNat layout.pointerOffset)
  if 1 ≤ enabled ∧ enabled ≤ 8 ∧ plausibleUserPointer pointer then
    match r.readValueU64 pointer with
    | none => none
    | some root =>
      if plausibleUserPointer root ∧ r.readable (root + kVideoOutCounterOffset) 4 then
        some (root + kVideoOutCounterOffset)
      else none
  else none

/-- The place of a record among all of them, which lie eight bytes apart. -/
def recordAt (moduleBase : UInt64) (i : ℕ) : UInt64 := moduleBase + UInt64.ofNat (kScanBegin + 8 * i)

/-- The counters of the records from `kScanBegin` to `kScanEnd`, both included. -/
def flatCounters (r : RemoteMemory) (moduleBase : UInt64) : List UInt64 :=
  (List.range ((kScanEnd - kScanBegin) / 8 + 1)).flatMap fun i =>
    kLayouts.filterMap (counterOf r (recordAt moduleBase i))

/-! ## One record -/

section Record

variable {r : RemoteMemory} {base record root : UInt64} {candidates : List Candidate}
  {layout : Layout} {n offset i : ℕ}

theorem bytesU32_readBytes (h : offset + i + 4 ≤ n) :
    bytesU32 ((readBytes r.mem base n).drop offset) i =
      readU32 r.mem (base + UInt64.ofNat offset + UInt64.ofNat i) := by
  rw [bytesU32, List.drop_drop, take_drop_readBytes r.mem base h, UInt64.ofNat_add,
    ← UInt64.add_assoc, readU32]

theorem bytesU64_readBytes (h : offset + i + 8 ≤ n) :
    bytesU64 ((readBytes r.mem base n).drop offset) i =
      readU64 r.mem (base + UInt64.ofNat offset + UInt64.ofNat i) := by
  rw [bytesU64, List.drop_drop, take_drop_readBytes r.mem base h, UInt64.ofNat_add,
    ← UInt64.add_assoc, readU64]

variable (r) in

/-- The candidate of a counter, with what it counts while the memory does not change. -/
def candidateAt (counter : UInt64) : Candidate := { counter, first := readU32 r.mem counter }

variable (candidates) in

/-- A candidate is added unless its counter is there, or there is no room. -/
theorem addCandidate_eq (h : plausibleUserPointer root = true) : addCandidate r candidates root =
    if r.readable (root + kVideoOutCounterOffset) 4 then
      addNew Candidate.counter kMaxCandidates candidates
        (candidateAt r (root + kVideoOutCounterOffset))
    else candidates := by
  have hany : (candidates.any (·.counter = root + kVideoOutCounterOffset)) = true ↔
      root + kVideoOutCounterOffset ∈ candidates.map Candidate.counter := by
    simp [List.any_eq_true, List.mem_map]
  have hkeep : addNew Candidate.counter kMaxCandidates candidates
      (candidateAt r (root + kVideoOutCounterOffset)) = candidates ↔
        root + kVideoOutCounterOffset ∈ candidates.map Candidate.counter ∨
          candidates.length = kMaxCandidates := addNew_eq_self_iff
  rw [addCandidate, if_neg (by simp [h])]
  by_cases hdup : root + kVideoOutCounterOffset ∈ candidates.map Candidate.counter
  · rw [if_pos (hany.2 hdup), hkeep.2 (Or.inl hdup), ite_self]
  rw [if_neg fun hdup' => hdup (hany.1 hdup')]
  simp only [RemoteMemory.readValueU32]
  by_cases hread : r.readable (root + kVideoOutCounterOffset) 4 = true
  · rw [if_pos hread, if_pos hread]
    dsimp only
    by_cases hfull : candidates.length = kMaxCandidates
    · rw [if_pos hfull, hkeep.2 (Or.inr hfull)]
    · rw [if_neg hfull]
      exact (if_neg (not_or.2 ⟨hdup, hfull⟩)).symm
  · rw [if_neg hread, if_neg hread]

theorem lookahead_of_mem (h : layout ∈ kLayouts) :
    layout.enabledOffset + 4 ≤ kLayoutLookahead ∧ layout.pointerOffset + 8 ≤ kLayoutLookahead := by
  revert layout
  decide

theorem enabled_iff (enabled : UInt32) (pointer : Bool) :
    1 ≤ enabled ∧ enabled ≤ 8 ∧ pointer = true ↔
      ¬(enabled = 0 ∨ enabled > 8 ∨ pointer = false) := by
  have hpos : 1 ≤ enabled ↔ enabled ≠ 0 := by
    rw [UInt32.le_iff_toNat_le, Ne, ← UInt32.toNat_inj]
    exact Nat.one_le_iff_ne_zero
  rw [hpos, not_or, not_or, gt_iff_lt, UInt32.not_lt, Bool.not_eq_false]

/-- A layout of a record in a window: the counter that the record leads to is added. -/
theorem visitLayout_eq (hlayout : layout ∈ kLayouts) (hn : offset + kLayoutLookahead ≤ n)
    (candidates : List Candidate) :
    visitLayout r ((readBytes r.mem base n).drop offset) candidates layout =
      ((counterOf r (base + UInt64.ofNat offset) layout).map (candidateAt r)).elim candidates
        (addNew Candidate.counter kMaxCandidates candidates) := by
  obtain ⟨henabled, hpointer⟩ := lookahead_of_mem hlayout
  rw [visitLayout, counterOf, bytesU32_readBytes (by omega), bytesU64_readBytes (by omega)]
  simp only [enabled_iff]
  by_cases hbad : readU32 r.mem (base + UInt64.ofNat offset + UInt64.ofNat layout.enabledOffset) = 0 ∨
      readU32 r.mem (base + UInt64.ofNat offset + UInt64.ofNat layout.enabledOffset) > 8 ∨
      plausibleUserPointer (readU64 r.mem
        (base + UInt64.ofNat offset + UInt64.ofNat layout.pointerOffset)) = false
  · rw [if_pos hbad, if_neg (not_not.2 hbad)]
    rfl
  rw [if_neg hbad, if_pos hbad]
  cases r.readValueU64 (readU64 r.mem
    (base + UInt64.ofNat offset + UInt64.ofNat layout.pointerOffset)) with
  | none => rfl
  | some root =>
    dsimp only
    by_cases hroot : plausibleUserPointer root = true
    · rw [if_pos hroot, addCandidate_eq candidates hroot]
      split_ifs with hread hboth hboth
      · rfl
      · exact absurd ⟨hroot, hread⟩ hboth
      · exact absurd hboth.2 hread
      · rfl
    · rw [if_neg hroot, if_neg fun h => hroot h.1]
      rfl

variable (r base) in

/-- What a record adds, whatever window it is in. -/
def visitRecord (candidates : List Candidate) (i : ℕ) : List Candidate :=
  (kLayouts.filterMap fun layout => (counterOf r (recordAt base i) layout).map (candidateAt r)).foldl
    (addNew Candidate.counter kMaxCandidates) candidates

end Record

/-! ## The scan -/

section Scan

variable {r : RemoteMemory} {base : UInt64}

theorem visitRecord_again (candidates : List Candidate) (i : ℕ) :
    visitRecord r base (visitRecord r base candidates i) i = visitRecord r base candidates i :=
  foldl_addNew_again _ _

theorem forBelow_windows :
    forBelow kScanBegin kScanEnd kScanStep =
      (List.range (247 + 1)).map fun w => kScanBegin + kScanStep * w := rfl

theorem forBelow_records :
    forBelow 0 (kScanReadSize - kLayoutLookahead + 1) 8 =
      (List.range (1024 + 1)).map fun i => 0 + 8 * i := rfl

/-- The place of the record `i` of the window `w`. -/
theorem recordAt_window (w i : ℕ) :
    base + UInt64.ofNat (kScanBegin + kScanStep * w) + UInt64.ofNat (0 + 8 * i) =
      recordAt base (1024 * w + i) := by
  rw [recordAt, UInt64.add_assoc, ← UInt64.ofNat_add]
  refine congrArg (fun n => base + UInt64.ofNat n) ?_
  simp only [kScanStep]
  omega

/-- The window `w` begins at the record `1024 * w`, and ends with the first one of
    the next window. -/
theorem visitWindow_eq (candidates : List Candidate) (w : ℕ) :
    visitWindow r (readBytes r.mem (base + UInt64.ofNat (kScanBegin + kScanStep * w)) kScanReadSize)
        candidates =
      (List.range (1024 + 1)).foldl
        (fun candidates i => visitRecord r base candidates (1024 * w + i)) candidates := by
  rw [visitWindow, forBelow_records, List.foldl_map]
  refine List.foldl_ext _ _ _ fun candidates i hi => ?_
  have hin : 0 + 8 * i + kLayoutLookahead ≤ kScanReadSize := by
    have := List.mem_range.1 hi
    simp only [kScanReadSize, kScanStep]
    omega
  rw [visitRecord, List.foldl_filterMap]
  refine List.foldl_ext _ _ _ fun candidates layout hlayout => ?_
  rw [visitLayout_eq hlayout hin, recordAt_window]
  cases (counterOf r (recordAt base (1024 * w + i)) layout).map (candidateAt r) <;> rfl

/-- The counters of a record. -/
theorem map_counter_record (i : ℕ) :
    (kLayouts.filterMap fun layout =>
      (counterOf r (recordAt base i) layout).map (candidateAt r)).map Candidate.counter =
        kLayouts.filterMap (counterOf r (recordAt base i)) := by
  rw [List.map_filterMap]
  refine congrArg (kLayouts.filterMap ·) ?_
  funext layout
  cases counterOf r (recordAt base i) layout <;> rfl

end Scan

/-- If every window can be read: the candidates of the scan are, in their order, the
    first of the counters of all records, less those that were there before. -/
theorem scan_eq_flat (r : RemoteMemory) (moduleBase : UInt64)
    (hwindows : ∀ offset ∈ forBelow kScanBegin kScanEnd kScanStep,
      r.readable (moduleBase + UInt64.ofNat offset) kScanReadSize = true) :
    (collectCandidates r moduleBase).map Candidate.counter =
      (flatCounters r moduleBase).eraseDups.take kMaxCandidates := by
  have hscan : collectCandidates r moduleBase =
      (List.range (247 + 1)).foldl (fun candidates w => (List.range (1024 + 1)).foldl
        (fun candidates i => visitRecord r moduleBase candidates (1024 * w + i)) candidates) [] := by
    rw [collectCandidates]
    rw [forBelow_windows] at hwindows ⊢
    rw [List.foldl_map]
    refine List.foldl_ext _ _ _ fun candidates w hw => ?_
    have hread := hwindows _ (List.mem_map_of_mem hw)
    simp only [RemoteMemory.read, if_pos hread]
    exact visitWindow_eq candidates w
  have hrecords : (kScanEnd - kScanBegin) / 8 + 1 = 1024 * (247 + 1) + 1 := by decide
  rw [hscan, foldl_windows visitRecord_again, flatCounters, hrecords]
  simp only [← map_counter_record]
  rw [← List.map_flatMap, ← map_foldl_addNew, List.foldl_flatMap]
  rfl

/-- The bytes of a game that are not 0, with their addresses: three records, each
    with its pointer, and the roots the pointers lead to. Two records are both the
    last one of a window and the first one of the next, and lead to one counter;
    the third one is the last of all. -/
def gameBytes : List (ℕ × UInt8) :=
  [(0x40012000, 1), (0x4001200b, 0x51), (0x40014000, 1), (0x40014009, 1), (0x4001400b, 0x51),
    (0x40200000, 1), (0x4020000b, 0x54), (0x51000003, 0x52), (0x51000103, 0x52), (0x54000003, 0x55)]

/-- The memory of this game, all of which can be read. -/
def gameMemory : RemoteMemory where
  mem address := (gameBytes.lookup address.toNat).getD 0
  readable _ _ := true

/-- A record of the game none of whose layouts is enabled. -/
theorem gameMemory_disabled {i : ℕ} (hi : i < 253952)
    (hrecords : i ≠ 1024 ∧ i ≠ 1025 ∧ i ≠ 2048 ∧ i ≠ 2049) :
    kLayouts.filterMap (counterOf gameMemory (recordAt 0x40000000 i)) = [] := by
  have hbyte : ∀ k < 8, gameMemory.mem (recordAt 0x40000000 i + UInt64.ofNat k) = 0 := by
    intro k hk
    have haddress : (recordAt 0x40000000 i + UInt64.ofNat k).toNat = 0x40010000 + 8 * i + k := by
      rw [recordAt, UInt64.toNat_add, UInt64.toNat_add, UInt64.toNat_ofNat', UInt64.toNat_ofNat']
      simp only [kScanBegin, UInt64.reduceToNat]
      omega
    have hnone : gameBytes.lookup (0x40010000 + 8 * i + k) = none := by
      rw [List.lookup_eq_none_iff]
      simp only [gameBytes, List.forall_mem_cons, bne_iff_ne]
      refine ⟨?_, ?_, ?_, ?_, ?_, ?_, ?_, ?_, ?_, ?_, by simp⟩ <;> omega
    simp only [gameMemory, haddress, hnone, Option.getD_none]
  have henabled : ∀ offset ≤ 4,
      readU32 gameMemory.mem (recordAt 0x40000000 i + UInt64.ofNat offset) = 0 := by
    intro offset hoffset
    have hbytes : readBytes gameMemory.mem (recordAt 0x40000000 i + UInt64.ofNat offset) 4 =
        List.replicate 4 0 := by
      refine List.eq_replicate_iff.2 ⟨length_readBytes _ _ _, fun b hb => ?_⟩
      obtain ⟨k, hk, rfl⟩ := List.mem_map.1 hb
      rw [UInt64.add_assoc, ← UInt64.ofNat_add]
      exact hbyte _ (by have := List.mem_range.1 hk; omega)
    rw [readU32, hbytes]
    decide
  refine List.filterMap_eq_nil_iff.2 fun layout hlayout => ?_
  have hoffset : layout.enabledOffset ≤ 4 := by
    revert layout
    decide
  rw [counterOf, henabled _ hoffset, if_neg]
  exact fun h => absurd h.1 (by decide)

/-- The records of the game lead to three counters, of which two are the same. -/
theorem flatCounters_gameMemory :
    flatCounters gameMemory 0x40000000 = [0x52000768, 0x52000768, 0x55000768] := by
  let f := fun i => kLayouts.filterMap (counterOf gameMemory (recordAt 0x40000000 i))
  have hsucc : ∀ n, (List.range (n + 1)).flatMap f = (List.range n).flatMap f ++ f n := fun n => by
    rw [List.range_succ, List.flatMap_append, List.flatMap_singleton]
  have hgap : ∀ m n, m ≤ n → n ≤ 253952 → (∀ i, m ≤ i → i < n → i ≠ 1024 ∧ i ≠ 1025 ∧
    i ≠ 2048 ∧ i ≠ 2049) →
      (List.range n).flatMap f = (List.range m).flatMap f := by
    intro m n hmn
    induction n, hmn using Nat.le_induction with
    | base => exact fun _ _ => rfl
    | succ n hmn ih =>
      intro hn hrecords
      rw [hsucc, ih (by omega) fun i h₁ h₂ => hrecords i h₁ (by omega)]
      have hnone : f n = [] := gameMemory_disabled (by omega) (hrecords n hmn n.lt_succ_self)
      rw [hnone, List.append_nil]
  have hfirst : f 1024 = [0x52000768] ∧ f 1025 = [] := by decide +kernel
  have hsecond : f 2048 = [0x52000768] ∧ f 2049 = [] := by decide +kernel
  have hthird : f 253952 = [0x55000768] := by decide +kernel
  have hall : flatCounters gameMemory 0x40000000 = (List.range (253952 + 1)).flatMap f := rfl
  rw [hall, hsucc, hgap 2050 253952 (by decide) le_rfl (by omega), hsucc, hsucc,
    hgap 1026 2048 (by decide) (by decide) (by omega), hsucc, hsucc,
    hgap 0 1024 (by decide) (by decide) (by omega), hfirst.1, hfirst.2, hsecond.1, hsecond.2, hthird]
  rfl

/-- Both records at a border are found, each once, and the counter they share is
    one candidate. -/
theorem scan_eq_flat_borders : (collectCandidates gameMemory 0x40000000).map Candidate.counter =
    [0x52000768, 0x55000768] := by
  rw [scan_eq_flat _ _ fun _ _ => rfl, flatCounters_gameMemory]
  decide

end FpsSampler

end CommonFps
