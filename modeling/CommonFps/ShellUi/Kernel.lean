import CommonFps.ShellUi.Protocol

/-!
# The kernel, as the patcher sees it

What the controller reads and changes of the system while it patches ShellUI:
the memory of processes, the protection of their mappings, and its own
credentials; and the calls it makes, recorded in order (`Kernel.trace`).

The outcome of a call is an input. A protection query returns the protection or
fails; a request for a protection may take effect, on any addresses, whatever
it returns; so may a write, on any of the bytes it is given.
-/

namespace CommonFps

/-- A call that the trace records. -/
inductive KernelCall
  /-- A protection query (`kernel_get_vmem_protection`), and its result. -/
  | query (pid : Int32) (address : UInt64) (flags : Option ℕ)
  /-- A request for a protection (`kernel_mprotect`). -/
  | mprotect (pid : Int32) (address size : UInt64) (flags : ℕ)
  /-- An attempt to write bytes (`pt_copyin`, `mdbg_copyin`, `shellui_mdbg_write_byte`). -/
  | write (pid : Int32) (address : UInt64) (bytes : List UInt8)
  /-- A read of code, and the code it returned if it succeeded. -/
  | read (pid : Int32) (address : UInt64) (code : Option Code)
  /-- An attempt to attach, and whether it succeeded. -/
  | attach (pid : Int32) (ok : Bool)
  /-- An attempt to detach, and whether it succeeded. -/
  | detach (pid : Int32) (ok : Bool)
  deriving DecidableEq

/-- The memory and the protection of a process, who is attached to it, and the calls so far. -/
structure Kernel where
  memory : Int32 → UInt64 → UInt8
  protection : Int32 → UInt64 → ℕ
  /-- The processes that the controller holds stopped. -/
  attached : Int32 → Bool
  /-- The credential of the controller. -/
  authId : UInt64
  /-- The calls so far, in order. -/
  trace : List KernelCall

/-- The outcome of a request that may take effect whatever it returns. -/
structure SetAnswer where
  rc : ℤ
  applied : Bool

/-- The outcome of a read of code. -/
structure ReadAnswer where
  rc : ℤ
  /-- The credential of the controller after it. -/
  authId : UInt64

/-- The outcome of a request for a protection. -/
structure MprotectAnswer where
  rc : ℤ
  /-- The addresses whose protection changes, whatever the request returns. -/
  applied : UInt64 → Bool

/-- The outcome of a write. -/
structure StoreAnswer where
  rc : ℤ
  errno : ℤ
  /-- Which of the bytes are stored, whatever the write returns. -/
  stored : ℕ → Bool
  /-- The credential of the controller after it. -/
  authId : UInt64

namespace Kernel

/-- The code at an address. -/
def code (k : Kernel) (pid : Int32) (address : UInt64) : Code :=
  fun i => k.memory pid (address + i.val.toUInt64)

/-- A call is recorded. -/
def log (k : Kernel) (call : KernelCall) : Kernel := { k with trace := k.trace ++ [call] }

/-- The result of a protection query, if it succeeds. -/
def queryFlags (k : Kernel) (pid : Int32) (address : UInt64) (ok : Bool) : Option ℕ :=
  if ok then some (k.protection pid address) else none

/-- The protection of a page is asked for. -/
def query (k : Kernel) (pid : Int32) (address : UInt64) (ok : Bool) : Kernel :=
  k.log (.query pid address (k.queryFlags pid address ok))

/-- The protection of pages is changed. -/
def mprotect (k : Kernel) (pid : Int32) (address size : UInt64) (flags : ℕ) (a : MprotectAnswer) : Kernel :=
  { k with
    protection := fun p x => if p = pid ∧ a.applied x then flags else k.protection p x
    trace := k.trace ++ [.mprotect pid address size flags] }

/-- The byte that a write stores at the address `x`, if any. -/
def storedAt (address : UInt64) (bytes : List UInt8) (a : StoreAnswer) (x : UInt64) : Option UInt8 :=
  if a.stored (x - address).toNat then bytes[(x - address).toNat]? else none

/-- Bytes are stored, those that the call reaches. -/
def store (k : Kernel) (pid : Int32) (address : UInt64) (bytes : List UInt8) (a : StoreAnswer) : Kernel :=
  { k with
    memory := fun p x => if p = pid then (storedAt address bytes a x).getD (k.memory p x) else k.memory p x
    authId := a.authId
    trace := k.trace ++ [.write pid address bytes] }

/-- A read returns the code if it succeeds, and zeroes the destination if not. -/
def readCode (k : Kernel) (pid : Int32) (address : UInt64) (a : ReadAnswer) : Kernel × Code :=
  ({ k with
      authId := a.authId
      trace := k.trace ++ [.read pid address (if a.rc = 0 then some (k.code pid address) else none)] },
    if a.rc = 0 then k.code pid address else fun _ => 0)

/-- The controller attaches to a process. -/
def attach (k : Kernel) (pid : Int32) (ok : Bool) : Kernel :=
  { k with
    attached := fun p => if p = pid ∧ ok then true else k.attached p
    trace := k.trace ++ [.attach pid ok] }

/-- The controller detaches from a process. -/
def detach (k : Kernel) (pid : Int32) (ok : Bool) : Kernel :=
  { k with
    attached := fun p => if p = pid ∧ ok then false else k.attached p
    trace := k.trace ++ [.detach pid ok] }

/-- The credential of the controller, or `0` if it cannot be read. -/
def getAuth (k : Kernel) (ok : Bool) : UInt64 := if ok then k.authId else 0

/-- The credentials of the controller are set. -/
def setAuth (k : Kernel) (authId : UInt64) (a : SetAnswer) : Kernel :=
  { k with authId := if a.applied then authId else k.authId }

variable {k : Kernel} {pid : Int32} {address size x : UInt64} {flags : ℕ}

@[simp] theorem query_memory (ok : Bool) : (k.query pid address ok).memory = k.memory := rfl
@[simp] theorem query_protection (ok : Bool) : (k.query pid address ok).protection = k.protection := rfl
@[simp] theorem query_trace (ok : Bool) :
    (k.query pid address ok).trace = k.trace ++ [.query pid address (k.queryFlags pid address ok)] := rfl

@[simp] theorem mprotect_memory (a : MprotectAnswer) :
    (k.mprotect pid address size flags a).memory = k.memory := rfl

@[simp] theorem mprotect_trace (a : MprotectAnswer) :
    (k.mprotect pid address size flags a).trace = k.trace ++ [.mprotect pid address size flags] := rfl

@[simp] theorem store_protection (bytes : List UInt8) (a : StoreAnswer) :
    (k.store pid address bytes a).protection = k.protection := rfl

@[simp] theorem store_trace (bytes : List UInt8) (a : StoreAnswer) :
    (k.store pid address bytes a).trace = k.trace ++ [.write pid address bytes] := rfl

@[simp] theorem readCode_memory (a : ReadAnswer) : (k.readCode pid address a).1.memory = k.memory := rfl
@[simp] theorem readCode_trace (a : ReadAnswer) : (k.readCode pid address a).1.trace = k.trace ++
    [.read pid address (if a.rc = 0 then some (k.code pid address) else none)] := rfl

/-- A read that succeeds returns the code. -/
theorem readCode_code {a : ReadAnswer} (h : a.rc = 0) : (k.readCode pid address a).2 = k.code pid address :=
  if_pos h

/-- The code is that of the memory. -/
theorem code_congr {k' : Kernel} (h : k'.memory = k.memory) : k'.code pid address = k.code pid address := by
  funext i
  exact congrFun (congrFun h pid) (address + i.val.toUInt64)

/-- A query returns nothing but the protection. -/
theorem queryFlags_eq_some {ok : Bool} (h : k.queryFlags pid address ok = some flags) :
    k.protection pid address = flags := by
  rw [queryFlags] at h
  split_ifs at h
  exact Option.some.inj h

/-- A write changes bytes to those it is given, at their places, or leaves them. -/
theorem store_memory (k : Kernel) (pid : Int32) (address : UInt64) (bytes : List UInt8) (a : StoreAnswer)
    (p : Int32) (x : UInt64) : (k.store pid address bytes a).memory p x = k.memory p x ∨
      p = pid ∧ bytes[(x - address).toNat]? = some ((k.store pid address bytes a).memory p x) := by
  by_cases hp : p = pid
  · have hm : (k.store pid address bytes a).memory p x =
        (storedAt address bytes a x).getD (k.memory p x) := if_pos hp
    rw [hm, storedAt]
    split_ifs
    · cases hb : bytes[(x - address).toNat]? with
      | none => exact .inl rfl
      | some b => exact .inr ⟨hp, rfl⟩
    · exact .inl rfl
  · exact .inl (if_neg hp)

/-- A write of one byte changes no other one. -/
theorem store_byte (k : Kernel) (pid : Int32) (address : UInt64) (byte : UInt8) (a : StoreAnswer) (p : Int32)
    (x : UInt64) : (k.store pid address [byte] a).memory p x = k.memory p x ∨
      p = pid ∧ x = address ∧ (k.store pid address [byte] a).memory p x = byte := by
  rcases k.store_memory pid address [byte] a p x with h | ⟨hp, hb⟩
  · exact .inl h
  · obtain ⟨hlt, hb⟩ := List.getElem?_eq_some_iff.1 hb
    have hx : (x - address).toNat = 0 := Nat.lt_one_iff.1 hlt
    refine .inr ⟨hp, ?_, ?_⟩
    · have h₀ : x - address = 0 := UInt64.toNat_inj.1 hx
      exact sub_eq_zero.1 h₀
    · simpa [hx] using hb.symm

end Kernel

end CommonFps
