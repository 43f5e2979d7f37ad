import CommonFps.Lib.Bytes
import CommonFps.Lib.Memory
import CommonFps.Lib.Records

/-!
# The process table

The kernel's table of processes, as `sysctl` returns it: records that tell their
own length, with a process identifier and a name. It is walked by the worker
(`observe_shellui_once`), by the injector (`find_shellui_pid`) and by the sampler
(`find_game_process_sysctl`), each with comparisons of its own.

* `processFraming`: when there is another record;
* `walkTable`: the loop of the walkers, which notes every read of the buffer;
* `process_walkers_agree`: every read is in the buffer, and of a field in its
  record, and all find what they look for, the same where two look for the same;
* `length_read_past_record`: the length of a record may be longer than the record.
-/

namespace CommonFps

/-- Where a record has the process id. -/
def kPidOffset : ℕ := 72

/-- Where a record has the name. -/
def kTdnameOffset : ℕ := 447

/-- With their final zeros, as `sizeof` counts them. -/
def kShellUiName : List UInt8 := ascii "SceShellUI" ++ [0]

/-- The name of a game, with the zero at its end. -/
def kGameName : List UInt8 := ascii "eboot.bin" ++ [0]

/-- The `int` or `pid_t` at the front of some bytes. -/
def readInt (bytes : List UInt8) : Int32 := (UInt32.ofNat (leValue (bytes.take 4))).toInt32

/-- `memcmp` finds no difference to `name`. -/
def equalTo (name bytes : List UInt8) : Bool := bytes.take name.length == name

/-- What a lookup returned: a code, and a process id. -/
structure ProcessLookupResult where
  pid : Int32 := -1
  sizeQueryRc : ℤ := -1
  dataQueryRc : ℤ := -1
  savedErrno : ℤ := 0
  bytes : ℕ := 0
  records : UInt32 := 0
  malformedRecords : UInt32 := 0
  deriving DecidableEq

/-- A read of the buffer: of the length at `cursor`, or of `size` bytes at `offset`
    in the record at `cursor`, which has `recordSize` bytes. -/
inductive TableRead
  | length (cursor : ℕ)
  | field (cursor recordSize offset size : ℕ)
  deriving DecidableEq

/-- What a walker does with a record. -/
structure TableVisit where
  result : ProcessLookupResult
  reads : List TableRead
  stop : Bool := false

/-- The loop of the walkers from `cursor` on, where `rest` is left of the buffer. -/
def walkTable (visit : ℕ → ℕ → List UInt8 → ProcessLookupResult → TableVisit) (cursor : ℕ)
    (rest : List UInt8) (result : ProcessLookupResult) : ProcessLookupResult × List TableRead :=
  let malformed := { result with malformedRecords := result.malformedRecords + 1 }
  if rest.length = 0 then (result, [])
  else if rest.length < 4 then (malformed, [])
  else if readInt rest ≤ 0 ∨ rest.length < (readInt rest).toInt.toNat then
    (malformed, [.length cursor])
  else
    let size := (readInt rest).toInt.toNat
    let visited := visit cursor size rest { result with records := result.records + 1 }
    if visited.stop then (visited.result, .length cursor :: visited.reads)
    else
      let after := walkTable visit (cursor + size) (rest.drop size) visited.result
      (after.1, .length cursor :: (visited.reads ++ after.2))
  termination_by rest.length
  decreasing_by
    rename_i _ _ hsize _
    have hpos : 0 < (readInt rest).toInt := by
      simpa [Int32.lt_iff_toInt_lt, Int32.not_le] using fun h => hsize (.inl h)
    rw [List.length_drop]
    omega

/-- What the worker and the sampler do with a record: where `isNamed`, they read
    the process identifier, and the worker, who looks for one, stops. -/
def checkRecord (isNamed : ℕ → ℕ → List UInt8 → Bool × List TableRead) (stop : Bool)
    (self : Int32) (cursor recordSize : ℕ) (record : List UInt8) (result : ProcessLookupResult) :
    TableVisit :=
  if recordSize ≥ kPidOffset + 4 then
    let named := isNamed cursor recordSize record
    if named.1 then
      let candidate := readInt (record.drop kPidOffset)
      let reads := named.2 ++ [.field cursor recordSize kPidOffset 4]
      if candidate > 0 ∧ candidate ≠ self then
        { result := { result with pid := candidate }, reads, stop }
      else { result, reads }
    else { result, reads := named.2 }
  else { result, reads := [] }

/-! ## The worker -/

/-- The record is that of ShellUI, and what was read to find out. -/
def recordIsShellui (cursor recordSize : ℕ) (record : List UInt8) : Bool × List TableRead :=
  if recordSize < kTdnameOffset + kShellUiName.length then (false, [])
  else (equalTo kShellUiName (record.drop kTdnameOffset),
    [.field cursor recordSize kTdnameOffset kShellUiName.length])

/-- The observer's walker looks at a record. -/
def observeRecord (self : Int32) := checkRecord recordIsShellui true self

/-! ## The injector -/

/-- The name in a field is that of ShellUI, and what was read to find out. -/
def exactProcessName (cursor recordSize fieldSize : ℕ) (field : List UInt8) :
    Bool × List TableRead :=
  let nameSize := kShellUiName.length - 1
  if fieldSize > nameSize then
    let compared : TableRead := .field cursor recordSize kTdnameOffset nameSize
    if equalTo (kShellUiName.take nameSize) field then
      (equalTo [0] (field.drop nameSize),
        [compared, .field cursor recordSize (kTdnameOffset + nameSize) 1])
    else (false, [compared])
  else (false, [])

/-- What `find_shellui_pid` does with a record. -/
def findRecord (self : Int32) (cursor usable : ℕ) (record : List UInt8)
    (result : ProcessLookupResult) : TableVisit :=
  let hasProvenFields : Bool := usable ≥ kTdnameOffset + kShellUiName.length
  let candidatePid := if hasProvenFields then readInt (record.drop kPidOffset) else -1
  let reads : List TableRead := if hasProvenFields then [.field cursor usable kPidOffset 4] else []
  if candidatePid > 0 ∧ candidatePid ≠ self then
    let named := exactProcessName cursor usable (usable - kTdnameOffset)
      (record.drop kTdnameOffset)
    if named.1 then
      { result := { result with pid := candidatePid }, reads := reads ++ named.2, stop := true }
    else { result, reads := reads ++ named.2 }
  else { result, reads }

/-! ## The sampler -/

/-- The record is that of a game, and what was read to find out. -/
def recordNameEquals (cursor recordSize : ℕ) (record : List UInt8) : Bool × List TableRead :=
  if recordSize ≤ kTdnameOffset then (false, [])
  else if recordSize - kTdnameOffset ≥ kGameName.length then
    (equalTo kGameName (record.drop kTdnameOffset),
      [.field cursor recordSize kTdnameOffset kGameName.length])
  else (false, [])

/-- The game's walker looks at a record. -/
def gameRecord (self : Int32) := checkRecord recordNameEquals false self

/-! ## The queries -/

/-- The answers to the two queries of a walker, for the size of the table and for
    the table. -/
structure SysctlAnswers where
  sizeQueryRc : ℤ := 0
  sizeErrno : ℤ := 0
  required : ℕ
  /-- `malloc` gives a buffer. -/
  allocated : Bool := true
  dataQueryRc : ℤ := 0
  dataErrno : ℤ := 0
  /-- As much of the buffer as the kernel reports to have filled. -/
  buffer : List UInt8

namespace SysctlAnswers

/-- The table may grow between the two queries. -/
def capacity (a : SysctlAnswers) : ℕ := (a.required + a.required / 4 + 4096) % 2 ^ 64

/-- The kernel failed, or reports to have filled more than the buffer. -/
def overflows (a : SysctlAnswers) : Bool := a.dataQueryRc ≠ 0 || a.buffer.length > a.capacity

end SysctlAnswers

def ENOMEM : ℤ := 12
def EOVERFLOW : ℤ := 84

/-- The queries, and the walk through the table unless it is `refused`. -/
def processLookup (refused : SysctlAnswers → Bool) (refusedErrno : SysctlAnswers → ℤ)
    (visit : ℕ → ℕ → List UInt8 → ProcessLookupResult → TableVisit) (a : SysctlAnswers) :
    ProcessLookupResult × List TableRead :=
  let sized : ProcessLookupResult := { sizeQueryRc := a.sizeQueryRc }
  if a.sizeQueryRc ≠ 0 ∨ a.required = 0 then ({ sized with savedErrno := a.sizeErrno }, [])
  else if !a.allocated then ({ sized with savedErrno := ENOMEM }, [])
  else
    let result := { sized with bytes := a.buffer.length, dataQueryRc := a.dataQueryRc }
    if refused a then ({ result with savedErrno := refusedErrno a }, [])
    else walkTable visit 0 a.buffer result

/-- The observer looks ShellUI up. -/
def observeShelluiOnce (self : Int32) (a : SysctlAnswers) :
    ProcessLookupResult × List TableRead :=
  processLookup (·.overflows)
    (fun a => if a.buffer.length > a.capacity then EOVERFLOW else a.dataErrno)
    (observeRecord self) a

/-- As the payload is built, with `COMMON_FPS_DIAGNOSTIC_SYSCTL_ONLY`, which leaves
    out the fallback. It does not check that the reported length is within the buffer. -/
def findShelluiPid (self : Int32) (a : SysctlAnswers) : ProcessLookupResult × List TableRead :=
  processLookup (·.dataQueryRc ≠ 0) (·.dataErrno) (findRecord self) a

/-- The game is looked up. -/
def findGameProcessSysctl (self : Int32) (a : SysctlAnswers) :
    ProcessLookupResult × List TableRead :=
  processLookup (·.overflows) (·.dataErrno) (gameRecord self) a

/-! ## What they look for -/

/-- How a table is cut into records: each starts with its size. -/
def processFraming : Framing UInt8 where
  size l :=
    if l.length < 4 ∨ readInt l ≤ 0 ∨ l.length < (readInt l).toInt.toNat then none
    else some (readInt l).toInt.toNat
  size_pos h := by
    split_ifs at h with hsize
    simp only [not_or, Int32.not_le, Int32.lt_iff_toInt_lt] at hsize
    cases h
    have := hsize.2.1
    simp at this
    omega
  size_le h := by
    split_ifs at h with hsize
    simp only [not_or] at hsize
    cases h
    omega

/-- The process id of a record. -/
def recordPid (record : List UInt8) : Int32 := readInt (record.drop kPidOffset)

/-- A record of a process named exactly `name`, other than the process `self`. -/
abbrev IsProcess (name : List UInt8) (self : Int32) (record : List UInt8) : Prop :=
  name <+: record.drop kTdnameOffset ∧ 0 < recordPid record ∧ recordPid record ≠ self

/-- Both queries succeed. -/
abbrev SysctlAnswers.Succeed (a : SysctlAnswers) : Prop :=
  (a.sizeQueryRc = 0 ∧ a.required ≠ 0) ∧ a.allocated = true ∧ a.dataQueryRc = 0

/-- The records of the table, if there is one. -/
def SysctlAnswers.table (a : SysctlAnswers) : List (List UInt8) :=
  if a.Succeed then processFraming.records a.buffer else []

/-- The first process of this name other than the caller. -/
def firstProcess (name : List UInt8) (self : Int32) (table : List (List UInt8)) : Int32 :=
  (table.find? (IsProcess name self ·)).elim (-1) recordPid

/-- The last process of this name other than the caller. -/
def lastProcess (name : List UInt8) (self : Int32) (table : List (List UInt8)) : Int32 :=
  firstProcess name self table.reverse

/-! ## The reads -/

namespace TableRead

/-- Where the record of a read starts. -/
def cursor : TableRead → ℕ
  | length cursor | field cursor _ _ _ => cursor

/-- The first byte after the ones read. -/
def finish : TableRead → ℕ
  | length cursor => cursor + 4
  | field cursor _ offset size => cursor + offset + size

/-- A read of a field of the record of `n` bytes at `c`. -/
def InField (c n : ℕ) (r : TableRead) : Prop :=
  ∃ offset size, r = field c n offset size ∧ offset + size ≤ n

/-- A read of the buffer `l` at `base`: it is in the buffer, and at a record, of which
    it reads a field, or at the first place where there is no record any more. -/
structure Safe (base : ℕ) (l : List UInt8) (r : TableRead) : Prop where
  inBuffer : r.finish ≤ base + l.length
  atRecord : ∃ k ≤ (processFraming.records l).length, r.cursor = base + processFraming.place l k
  inRecord : ∀ c n offset size, r = field c n offset size →
    ∃ k, ∃ hk : k < (processFraming.records l).length,
      c = base + processFraming.place l k ∧ n = (processFraming.records l)[k].length ∧
        offset + size ≤ n

end TableRead

/-! ## One record -/

/-- A walker that, given a record of `n` bytes at the front of the buffer, reads its
    fields only, and looks for the process `name`: for the first one, if it `stop`s. -/
structure LooksFor (name : List UInt8) (own : Int32) (stop : Bool)
    (visit : ℕ → ℕ → List UInt8 → ProcessLookupResult → TableVisit) : Prop where
  reads : ∀ {l n} c r, processFraming.size l = some n →
    ∀ x ∈ (visit c n l r).reads, x.InField c n
  pid : ∀ {l n} c r, processFraming.size l = some n → (visit c n l r).result.pid =
    if IsProcess name own (l.take n) then recordPid (l.take n) else r.pid
  stops : ∀ {l n} c r, processFraming.size l = some n →
    (visit c n l r).stop = (stop && IsProcess name own (l.take n))

variable {l name : List UInt8} {n : ℕ} {self : Int32}

theorem equalTo_iff : equalTo name l = true ↔ name <+: l := by
  rw [equalTo, beq_iff_eq, List.prefix_iff_eq_take, eq_comm]

/-- The name of a record, compared to bytes of the buffer. -/
theorem prefix_name_iff (hname : name ≠ []) :
    name <+: (l.take n).drop kTdnameOffset ↔
      kTdnameOffset + name.length ≤ n ∧ equalTo name (l.drop kTdnameOffset) = true := by
  have hpos := List.length_pos_of_ne_nil hname
  rw [equalTo_iff, List.drop_take, List.prefix_take_iff, and_comm]
  refine and_congr_left fun _ => ?_
  omega

/-- The process identifier of a record, read from the buffer. -/
theorem recordPid_take (h : kPidOffset + 4 ≤ n) :
    recordPid (l.take n) = readInt (l.drop kPidOffset) := by
  rw [recordPid, readInt, readInt, List.drop_take, List.take_take, Nat.min_eq_left (by omega)]

/-- A process is one whose record has a process identifier and the name. -/
theorem isProcess_iff (hname : name ≠ []) : IsProcess name self (l.take n) ↔
    kPidOffset + 4 ≤ n ∧ name <+: (l.take n).drop kTdnameOffset ∧
      0 < readInt (l.drop kPidOffset) ∧ readInt (l.drop kPidOffset) ≠ self := by
  by_cases hn : kPidOffset + 4 ≤ n
  · rw [IsProcess, recordPid_take hn]
    simp [hn]
  · -- The name would begin after the process identifier.
    refine iff_of_false (fun h => hn ?_) fun h => hn h.1
    have hlong := ((prefix_name_iff hname).1 h.1).1
    have hpid : kPidOffset + 4 ≤ kTdnameOffset := by decide
    omega

theorem looksFor_checkRecord {isNamed : ℕ → ℕ → List UInt8 → Bool × List TableRead} {stop : Bool}
    (hname : name ≠ [])
    (hnamed : ∀ {l n} c, (isNamed c n l).1 = true ↔ name <+: (l.take n).drop kTdnameOffset)
    (hreads : ∀ {l n} c, ∀ x ∈ (isNamed c n l).2, x.InField c n) :
    LooksFor name self stop (checkRecord isNamed stop self) where
  reads {l n} c r _ x hx := by
    have hx' : kPidOffset + 4 ≤ n ∧
        (x ∈ (isNamed c n l).2 ∨ x ∈ [TableRead.field c n kPidOffset 4]) := by
      rw [checkRecord] at hx
      split_ifs at hx with hn
      · refine ⟨hn, List.mem_append.1 ?_⟩
        dsimp only at hx
        split_ifs at hx
        · exact hx
        · exact hx
        · exact List.mem_append_left _ hx
      · cases hx
    rcases hx'.2 with hx | hx
    · exact hreads c x hx
    · exact ⟨kPidOffset, 4, List.mem_singleton.1 hx, hx'.1⟩
  pid {l n} c r _ := by
    rw [checkRecord]
    simp only [isProcess_iff hname, hnamed c]
    by_cases hn : kPidOffset + 4 ≤ n <;> by_cases hnm : name <+: (l.take n).drop kTdnameOffset <;>
      simp only [hn, hnm, if_true, if_false, true_and, false_and, and_false]
    rw [recordPid_take hn]
    split_ifs <;> rfl
  stops {l n} c r _ := by
    rw [checkRecord]
    simp only [isProcess_iff hname, hnamed c]
    by_cases hn : kPidOffset + 4 ≤ n <;> by_cases hnm : name <+: (l.take n).drop kTdnameOffset <;>
      simp only [hn, hnm, if_true, if_false, true_and, false_and, and_false,
        decide_false, Bool.and_false]
    split_ifs with hc
    · simpa using fun _ => hc
    · simpa using fun _ => hc

theorem looksFor_observeRecord (self : Int32) :
    LooksFor kShellUiName self true (observeRecord self) := by
  refine looksFor_checkRecord (by decide) (fun {l n} c => ?_) fun {l n} c x hx => ?_
  · rw [prefix_name_iff (by decide), recordIsShellui]
    split_ifs with h
    · exact iff_of_false (by simp) fun hn => absurd hn.1 (by omega)
    · exact (and_iff_right (by omega)).symm
  · rw [recordIsShellui] at hx
    split_ifs at hx with h
    · cases hx
    · exact ⟨_, _, List.mem_singleton.1 hx, by omega⟩

theorem looksFor_gameRecord (self : Int32) :
    LooksFor kGameName self false (gameRecord self) := by
  have hlen : kGameName.length = 10 := rfl
  refine looksFor_checkRecord (by decide) (fun {l n} c => ?_) fun {l n} c x hx => ?_
  · rw [prefix_name_iff (by decide), recordNameEquals]
    split_ifs with h h'
    · exact iff_of_false (by simp) fun hn => absurd hn.1 (by omega)
    · exact (and_iff_right (by omega)).symm
    · exact iff_of_false (by simp) fun hn => absurd hn.1 (by omega)
  · rw [recordNameEquals] at hx
    split_ifs at hx with h h'
    · cases hx
    · exact ⟨_, _, List.mem_singleton.1 hx, by omega⟩
    · cases hx

/-- The comparison of a name in two parts, as the injector makes it. -/
theorem equalTo_append (a b l : List UInt8) :
    equalTo (a ++ b) l = true ↔ equalTo a l = true ∧ equalTo b (l.drop a.length) = true := by
  rw [equalTo_iff, equalTo_iff, equalTo_iff]
  constructor
  · rintro ⟨rest, rfl⟩
    exact ⟨⟨b ++ rest, by simp⟩, ⟨rest, by simp⟩⟩
  · rintro ⟨⟨rest, rfl⟩, hb⟩
    rw [List.drop_left] at hb
    exact (List.prefix_append_right_inj a).2 hb

theorem exactProcessName_iff {c fieldSize : ℕ} {field : List UInt8} :
    (exactProcessName c n fieldSize field).1 = true ↔
      kShellUiName.length ≤ fieldSize ∧ equalTo kShellUiName field = true := by
  have hname : equalTo kShellUiName field = true ↔
      equalTo (kShellUiName.take (kShellUiName.length - 1)) field = true ∧
        equalTo [0] (field.drop (kShellUiName.length - 1)) = true :=
    equalTo_append (kShellUiName.take (kShellUiName.length - 1)) [0] field
  rw [exactProcessName, hname]
  by_cases hsize : fieldSize > kShellUiName.length - 1
  · have hlong : kShellUiName.length ≤ fieldSize := by omega
    rw [if_pos hsize, and_iff_right hlong]
    split_ifs with heq
    · simp [heq]
    · simp [heq]
  · rw [if_neg hsize]
    have hpos : 0 < kShellUiName.length := by decide
    exact iff_of_false (by simp) fun h => hsize (by have := h.1; omega)

theorem inField_exactProcessName {c : ℕ} {field : List UInt8} {x : TableRead}
    (hn : kTdnameOffset ≤ n)
    (hx : x ∈ (exactProcessName c n (n - kTdnameOffset) field).2) : x.InField c n := by
  rw [exactProcessName] at hx
  split_ifs at hx with hsize heq
  · rcases List.mem_cons.1 hx with rfl | hx
    · exact ⟨_, _, rfl, by omega⟩
    · exact ⟨_, _, List.mem_singleton.1 hx, by omega⟩
  · exact ⟨_, _, List.mem_singleton.1 hx, by omega⟩
  · cases hx

/-- The injector reads the process identifier first, and compares the name in two
    parts, but looks for the same. -/
theorem looksFor_findRecord (self : Int32) :
    LooksFor kShellUiName self true (findRecord self) := by
  have hpid : kPidOffset + 4 ≤ kTdnameOffset := by decide
  have hprocess {l : List UInt8} {n : ℕ} (c : ℕ) : IsProcess kShellUiName self (l.take n) ↔
      n ≥ kTdnameOffset + kShellUiName.length ∧
        (readInt (l.drop kPidOffset) > 0 ∧ readInt (l.drop kPidOffset) ≠ self) ∧
        (exactProcessName c n (n - kTdnameOffset) (l.drop kTdnameOffset)).1 = true := by
    rw [isProcess_iff (by decide), prefix_name_iff (by decide), exactProcessName_iff]
    constructor
    · rintro ⟨-, ⟨hlong, hname⟩, hcandidate⟩
      exact ⟨hlong, hcandidate, by omega, hname⟩
    · rintro ⟨hlong, hcandidate, -, hname⟩
      exact ⟨by omega, ⟨hlong, hname⟩, hcandidate⟩
  have hnone : ¬((-1 : Int32) > 0 ∧ (-1 : Int32) ≠ self) := fun h => absurd h.1 (by decide)
  refine ⟨fun {l n} c r _ x hx => ?_, fun {l n} c r _ => ?_, fun {l n} c r _ => ?_⟩
  · rw [findRecord] at hx
    by_cases hn : n ≥ kTdnameOffset + kShellUiName.length
    · have hread : x ∈ [TableRead.field c n kPidOffset 4] ++
          (exactProcessName c n (n - kTdnameOffset) (l.drop kTdnameOffset)).2 := by
        simp only [hn, decide_true, if_true] at hx
        split_ifs at hx
        · exact hx
        · exact hx
        · exact List.mem_append_left _ hx
      rcases List.mem_append.1 hread with hx | hx
      · exact ⟨_, _, List.mem_singleton.1 hx, by omega⟩
      · exact inField_exactProcessName (by omega) hx
    · simp only [hn, decide_false, Bool.false_eq_true, if_false, hnone] at hx
      cases hx
  · rw [findRecord]
    simp only [hprocess c]
    by_cases hn : n ≥ kTdnameOffset + kShellUiName.length
    · rw [recordPid_take (by omega)]
      simp only [hn, decide_true, if_true, true_and]
      split_ifs <;> simp_all
    · simp [hn]
  · rw [findRecord]
    simp only [hprocess c]
    by_cases hn : n ≥ kTdnameOffset + kShellUiName.length
    · simp only [hn, decide_true, if_true, true_and]
      split_ifs <;> simp_all
    · simp [hn]

/-! ## The walk -/

theorem size_processFraming (l : List UInt8) : processFraming.size l =
    if l.length < 4 ∨ readInt l ≤ 0 ∨ l.length < (readInt l).toInt.toNat then none
    else some (readInt l).toInt.toNat := rfl

variable {visit : ℕ → ℕ → List UInt8 → ProcessLookupResult → TableVisit} {c : ℕ}
  {r : ProcessLookupResult}

/-- Where there is no record, the walk ends, having read a length if there is one. -/
theorem walkTable_of_none (h : processFraming.size l = none) :
    (walkTable visit c l r).1.pid = r.pid ∧
      ∀ x ∈ (walkTable visit c l r).2, x = .length c ∧ 4 ≤ l.length := by
  rw [size_processFraming] at h
  rw [walkTable]
  split_ifs at h with hbad
  split_ifs with hempty hshort hsize
  · simp
  · simp
  · simp only [List.mem_singleton, forall_eq, true_and]
    omega
  · exact absurd hbad (not_or.2 ⟨hshort, hsize⟩)

variable (visit c r) in

/-- Where there is one, the walk visits it, and goes on after it. -/
theorem walkTable_of_some (h : processFraming.size l = some n) :
    4 ≤ l.length ∧ ∃ r' : ProcessLookupResult, r'.pid = r.pid ∧ walkTable visit c l r =
      if (visit c n l r').stop then
        ((visit c n l r').result, .length c :: (visit c n l r').reads)
      else
        ((walkTable visit (c + n) (l.drop n) (visit c n l r').result).1,
          .length c :: ((visit c n l r').reads ++
            (walkTable visit (c + n) (l.drop n) (visit c n l r').result).2)) := by
  rw [size_processFraming] at h
  split_ifs at h with hbad
  rw [not_or, not_lt] at hbad
  obtain rfl := Option.some.inj h
  refine ⟨hbad.1, { r with records := r.records + 1 }, rfl, ?_⟩
  rw [walkTable, if_neg (by omega), if_neg (by omega), if_neg hbad.2]

theorem length_mem_walkTable (h : processFraming.size l = some n) :
    .length c ∈ (walkTable visit c l r).2 := by
  obtain ⟨-, r', -, hwalk⟩ := walkTable_of_some visit c r h
  rw [hwalk]
  split_ifs <;> exact List.mem_cons_self

/-- A read that is safe in what follows a record is safe. -/
theorem TableRead.Safe.after {x : TableRead} (h : processFraming.size l = some n)
    (hx : x.Safe (c + n) (l.drop n)) : x.Safe c l := by
  have hle := processFraming.size_le h
  have hlength : (processFraming.records l).length =
      (processFraming.records (l.drop n)).length + 1 := by
    rw [Framing.records_of_some h, List.length_cons]
  refine ⟨?_, ?_, fun c' n' offset size hf => ?_⟩
  · have hin := hx.inBuffer
    rw [List.length_drop] at hin
    omega
  · obtain ⟨k, hk, hcursor⟩ := hx.atRecord
    exact ⟨k + 1, by omega, by rw [hcursor, Framing.place_succ h, Nat.add_assoc]⟩
  · obtain ⟨k, hk, hplace, hn, hin⟩ := hx.inRecord c' n' offset size hf
    refine ⟨k + 1, by omega, by rw [hplace, Framing.place_succ h, Nat.add_assoc], ?_, hin⟩
    simpa only [Framing.records_of_some h, List.getElem_cons_succ] using hn

/-- The read of the length of a record. -/
theorem TableRead.safe_length (hlong : 4 ≤ l.length) : (TableRead.length c).Safe c l :=
  ⟨by rw [finish]; omega, ⟨0, Nat.zero_le _, by rw [Framing.place_zero]; rfl⟩,
    fun _ _ _ _ hf => by cases hf⟩

/-- The read of a field of a record. -/
theorem TableRead.InField.safe {x : TableRead} (h : processFraming.size l = some n)
    (hx : x.InField c n) : x.Safe c l := by
  obtain ⟨offset, size, rfl, hin⟩ := hx
  have hle := processFraming.size_le h
  have hpos : 0 < (processFraming.records l).length := by
    rw [Framing.records_of_some h]
    exact Nat.succ_pos _
  refine ⟨by rw [finish]; omega, ⟨0, Nat.zero_le _, by rw [Framing.place_zero]; rfl⟩, ?_⟩
  intro c' n' offset' size' hf
  cases hf
  refine ⟨0, hpos, by rw [Framing.place_zero, Nat.add_zero], ?_, hin⟩
  simp [Framing.records_of_some h, hle]

/-- Every read of a walk that reads fields of records is safe. -/
theorem safe_walkTable {stop : Bool} (hv : LooksFor name self stop visit) :
    ∀ x ∈ (walkTable visit c l r).2, x.Safe c l := by
  induction hlen : l.length using Nat.strong_induction_on generalizing l c r with
  | _ len ih =>
    subst hlen
    intro x hx
    cases h : processFraming.size l with
    | none =>
      obtain ⟨rfl, hlong⟩ := (walkTable_of_none h).2 x hx
      exact TableRead.safe_length hlong
    | some n =>
      obtain ⟨hlong, r', -, hwalk⟩ := walkTable_of_some visit c r h
      have hle := processFraming.size_le h
      have hpos := processFraming.size_pos h
      have hvisit : ∀ x ∈ (visit c n l r').reads, x.Safe c l :=
        fun x hx => (hv.reads c r' h x hx).safe h
      rw [hwalk] at hx
      split_ifs at hx
      · rcases List.mem_cons.1 hx with rfl | hx
        · exact TableRead.safe_length hlong
        · exact hvisit x hx
      · rcases List.mem_cons.1 hx with rfl | hx
        · exact TableRead.safe_length hlong
        rcases List.mem_append.1 hx with hx | hx
        · exact hvisit x hx
        · exact (ih _ (by rw [List.length_drop]; omega) rfl x hx).after h

/-- A walk that stops finds the first process of the name. -/
theorem pid_walkTable_stop (hv : LooksFor name self true visit) : (walkTable visit c l r).1.pid =
    ((processFraming.records l).find? (IsProcess name self ·)).elim r.pid recordPid := by
  induction hlen : l.length using Nat.strong_induction_on generalizing l c r with
  | _ len ih =>
    subst hlen
    cases h : processFraming.size l with
    | none => rw [(walkTable_of_none h).1, Framing.records_of_none h, List.find?_nil]; rfl
    | some n =>
      obtain ⟨-, r', hr', hwalk⟩ := walkTable_of_some visit c r h
      have hle := processFraming.size_le h
      have hpos := processFraming.size_pos h
      have hstop := hv.stops c r' h
      have hpid := hv.pid c r' h
      rw [hwalk, Framing.records_of_some h]
      by_cases hp : IsProcess name self (l.take n)
      · rw [if_pos (by simpa [hp] using hstop), List.find?_cons_of_pos (by simpa using hp)]
        exact hpid.trans (if_pos hp)
      · rw [if_neg (by simp [hstop, hp]), List.find?_cons_of_neg (by simpa using hp),
          ih _ (by rw [List.length_drop]; omega) rfl, hpid, if_neg hp, hr']

/-- A walk that does not stop finds the last one. -/
theorem pid_walkTable_last (hv : LooksFor name self false visit) : (walkTable visit c l r).1.pid =
    ((processFraming.records l).reverse.find? (IsProcess name self ·)).elim r.pid recordPid := by
  induction hlen : l.length using Nat.strong_induction_on generalizing l c r with
  | _ len ih =>
    subst hlen
    cases h : processFraming.size l with
    | none =>
      rw [(walkTable_of_none h).1, Framing.records_of_none h, List.reverse_nil, List.find?_nil]
      rfl
    | some n =>
      obtain ⟨-, r', hr', hwalk⟩ := walkTable_of_some visit c r h
      have hle := processFraming.size_le h
      have hpos := processFraming.size_pos h
      have hstop := hv.stops c r' h
      have hpid := hv.pid c r' h
      rw [hwalk, Framing.records_of_some h, if_neg (by simp [hstop]), List.reverse_cons,
        List.find?_append, ih _ (by rw [List.length_drop]; omega) rfl, hpid]
      -- The record is the one found only if none of those after it is.
      cases hafter : (processFraming.records (l.drop n)).reverse.find? (IsProcess name self ·) with
      | some record => rfl
      | none =>
        by_cases hp : IsProcess name self (l.take n)
        · rw [if_pos hp, List.find?_cons_of_pos (by simpa using hp)]
          rfl
        · rw [if_neg hp, List.find?_cons_of_neg (by simpa using hp), hr']
          rfl

/-! ## The queries -/

section Lookup

variable {refused : SysctlAnswers → Bool} {errno : SysctlAnswers → ℤ} {a : SysctlAnswers}

variable (visit errno) in

/-- A lookup walks through the table if the queries succeed. -/
theorem processLookup_of_succeed (h : a.Succeed) (hrefused : refused a = false) :
    ∃ r : ProcessLookupResult, r.pid = -1 ∧
      processLookup refused errno visit a = walkTable visit 0 a.buffer r := by
  obtain ⟨⟨hrc, hrequired⟩, halloc, -⟩ := h
  refine ⟨{ sizeQueryRc := a.sizeQueryRc, bytes := a.buffer.length, dataQueryRc := a.dataQueryRc },
    rfl, ?_⟩
  simp [processLookup, hrc, hrequired, halloc, hrefused]

/-- Otherwise it finds nothing, and reads nothing. -/
theorem processLookup_of_fail (h : ¬a.Succeed) (hrefused : a.dataQueryRc ≠ 0 → refused a = true) :
    (processLookup refused errno visit a).1.pid = -1 ∧
      (processLookup refused errno visit a).2 = [] := by
  simp only [processLookup]
  split_ifs with hsize halloc hno
  · exact ⟨rfl, rfl⟩
  · exact ⟨rfl, rfl⟩
  · exact ⟨rfl, rfl⟩
  · -- The queries succeed after all.
    rw [not_or, not_not] at hsize
    exact absurd ⟨hsize, by simpa using halloc, by_contra fun hrc => hno (hrefused hrc)⟩ h

theorem safe_processLookup {stop : Bool} (hv : LooksFor name self stop visit)
    (hrefused : refused a = true ↔ a.dataQueryRc ≠ 0) :
    ∀ x ∈ (processLookup refused errno visit a).2, x.Safe 0 a.buffer := by
  by_cases h : a.Succeed
  · obtain ⟨r, -, hwalk⟩ := processLookup_of_succeed visit errno h
      (Bool.eq_false_iff.2 fun ht => hrefused.1 ht h.2.2)
    rw [hwalk]
    exact safe_walkTable hv
  · rw [(processLookup_of_fail h hrefused.2).2]
    exact fun _ hx => absurd hx List.not_mem_nil

theorem pid_processLookup_stop (hv : LooksFor name self true visit)
    (hrefused : refused a = true ↔ a.dataQueryRc ≠ 0) :
    (processLookup refused errno visit a).1.pid = firstProcess name self a.table := by
  rw [firstProcess, SysctlAnswers.table]
  by_cases h : a.Succeed
  · obtain ⟨r, hr, hwalk⟩ := processLookup_of_succeed visit errno h
      (Bool.eq_false_iff.2 fun ht => hrefused.1 ht h.2.2)
    rw [hwalk, if_pos h, pid_walkTable_stop hv, hr]
  · rw [(processLookup_of_fail h hrefused.2).1, if_neg h]
    rfl

theorem pid_processLookup_last (hv : LooksFor name self false visit)
    (hrefused : refused a = true ↔ a.dataQueryRc ≠ 0) :
    (processLookup refused errno visit a).1.pid = lastProcess name self a.table := by
  rw [lastProcess, firstProcess, SysctlAnswers.table]
  by_cases h : a.Succeed
  · obtain ⟨r, hr, hwalk⟩ := processLookup_of_succeed visit errno h
      (Bool.eq_false_iff.2 fun ht => hrefused.1 ht h.2.2)
    rw [hwalk, if_pos h, pid_walkTable_last hv, hr]
  · rw [(processLookup_of_fail h hrefused.2).1, if_neg h]
    rfl

end Lookup

/-- Whatever the kernel puts into the buffer, if not more than the buffer holds: each
    walker reads the buffer only, at records and where there is no record any more,
    and of fields the record only; the worker and the injector find the first
    ShellUI, and the sampler finds the last game. -/
theorem process_walkers_agree (self : Int32) (a : SysctlAnswers)
    (hcapacity : a.buffer.length ≤ a.capacity) :
    (∀ r ∈ (observeShelluiOnce self a).2, r.Safe 0 a.buffer) ∧
    (∀ r ∈ (findShelluiPid self a).2, r.Safe 0 a.buffer) ∧
    (∀ r ∈ (findGameProcessSysctl self a).2, r.Safe 0 a.buffer) ∧
    (observeShelluiOnce self a).1.pid = firstProcess kShellUiName self a.table ∧
    (findShelluiPid self a).1.pid = (observeShelluiOnce self a).1.pid ∧
    (findGameProcessSysctl self a).1.pid = lastProcess kGameName self a.table := by
  have hguarded : a.overflows = true ↔ a.dataQueryRc ≠ 0 := by
    simp [SysctlAnswers.overflows, Nat.not_lt.2 hcapacity]
  have hobserve : (observeShelluiOnce self a).1.pid = firstProcess kShellUiName self a.table :=
    pid_processLookup_stop (looksFor_observeRecord self) hguarded
  have hfind : (findShelluiPid self a).1.pid = firstProcess kShellUiName self a.table :=
    pid_processLookup_stop (looksFor_findRecord self) (by simp)
  exact ⟨safe_processLookup (looksFor_observeRecord self) hguarded,
    safe_processLookup (looksFor_findRecord self) (by simp),
    safe_processLookup (looksFor_gameRecord self) hguarded, hobserve, hfind.trans hobserve.symm,
    pid_processLookup_last (looksFor_gameRecord self) hguarded⟩

/-- The record of a process, of 462 bytes. -/
def processRecord (pid : UInt8) (name : List UInt8) : List UInt8 :=
  [0xCE, 1, 0, 0] ++ List.replicate 68 0 ++ [pid, 0, 0, 0] ++ List.replicate 371 0 ++ name ++
    List.replicate (15 - name.length) 0

theorem records_processRecord (pid : UInt8) {name : List UInt8} (h : name.length ≤ 15)
    (rest : List UInt8) : processFraming.records (processRecord pid name ++ rest) =
      processRecord pid name :: processFraming.records rest := by
  have hlength : (processRecord pid name).length = 462 := by
    simp only [processRecord, List.length_append, List.length_replicate, List.length_cons,
      List.length_nil]
    omega
  refine Framing.records_append ?_
  have hread : readInt (processRecord pid name ++ rest) = 462 := by
    show (UInt32.ofNat (leValue [0xCE, 1, 0, 0])).toInt32 = 462
    decide
  rw [size_processFraming, hread, hlength, if_neg]
  · rfl
  · rw [List.length_append, hlength, not_or, not_or]
    refine ⟨by omega, by decide, ?_⟩
    rw [show (462 : Int32).toInt.toNat = 462 from rfl]
    omega

/-- Another process, ShellUI between two games and twice, and the start of one more record. -/
def busyTable : SysctlAnswers where
  required := 2314
  buffer := processRecord 3 (ascii "launchd") ++ (processRecord 9 kGameName ++
    (processRecord 7 kShellUiName ++ (processRecord 12 kGameName ++
      (processRecord 8 kShellUiName ++ [0xCE, 1, 0, 0]))))

theorem process_walkers_agree_busy :
    (observeShelluiOnce 1 busyTable).1.pid = 7 ∧ (findShelluiPid 1 busyTable).1.pid = 7 ∧
      (findGameProcessSysctl 1 busyTable).1.pid = 12 := by
  have htable : busyTable.table = [processRecord 3 (ascii "launchd"), processRecord 9 kGameName,
      processRecord 7 kShellUiName, processRecord 12 kGameName, processRecord 8 kShellUiName] := by
    have hend : processFraming.records [0xCE, 1, 0, 0] = [] := Framing.records_of_none (by decide)
    rw [SysctlAnswers.table, if_pos (by decide), busyTable]
    simp only
    rw [records_processRecord 3 (by decide), records_processRecord 9 (by decide),
      records_processRecord 7 (by decide), records_processRecord 12 (by decide),
      records_processRecord 8 (by decide), hend]
  obtain ⟨-, -, -, hobserve, hfind, hgame⟩ := process_walkers_agree 1 busyTable (by decide +kernel)
  rw [htable] at hobserve hgame
  have hpid : (observeShelluiOnce 1 busyTable).1.pid = 7 := hobserve.trans (by decide +kernel)
  exact ⟨hpid, hfind.trans hpid, hgame.trans (by decide +kernel)⟩

/-- A table of four bytes, the first record of which claims to be one byte long. -/
def shortRecord : SysctlAnswers := { required := 4, buffer := [1, 0, 0, 0] }

/-- The length of a record is read whole before it is known: of a record of one byte
    it is not in the record. -/
theorem length_read_past_record :
    ¬∀ (self : Int32) (a : SysctlAnswers), a.buffer.length ≤ a.capacity →
      ∀ r ∈ (observeShelluiOnce self a).2, ∀ n,
        processFraming.size (a.buffer.drop r.cursor) = some n → r.finish ≤ r.cursor + n := by
  intro h
  have hsize : processFraming.size shortRecord.buffer = some 1 := by decide
  have hread : .length 0 ∈ (observeShelluiOnce 1 shortRecord).2 := by
    obtain ⟨r, -, hwalk⟩ := processLookup_of_succeed (a := shortRecord)
      (observeRecord 1) (fun a => if a.buffer.length > a.capacity then EOVERFLOW else a.dataErrno)
      (show shortRecord.Succeed by decide) (show shortRecord.overflows = false by decide)
    rw [observeShelluiOnce, hwalk]
    exact length_mem_walkTable hsize
  exact absurd (h 1 shortRecord (by decide) _ hread 1 hsize) (by decide)

end CommonFps
