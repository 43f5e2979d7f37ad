import CommonFps.Lib.Memory

/-!
# Patches

A *patch* of a function is a partial function, laid over it: the patch decides
where it has a value. Writes to a memory are patches of it, and so are changes of
the protection of its pages.

* `patched`: patches laid over a function one after the other, of which the last
  one that has a value decides (`patched_of_last`);
* `rangeAt`, `bytesAt`: the patches of a range of addresses, and by some bytes;
* `readBytes_patched`, `readU64_patched`: what no later patch touches is read back.
-/

section Patches

variable {α β : Type*}

/-- The patches `l` laid over `f`, one after the other. -/
def patched (l : List (α → Option β)) (f : α → β) : α → β :=
  l.foldl (fun f p x => (p x).getD (f x)) f

variable {l l' : List (α → Option β)} {p : α → Option β} {f : α → β} {x : α}

theorem patched_cons (p : α → Option β) (l : List (α → Option β)) (f : α → β) :
    patched (p :: l) f = patched l (patched [p] f) := rfl

theorem patched_append (l l' : List (α → Option β)) (f : α → β) :
    patched (l ++ l') f = patched l' (patched l f) := List.foldl_append

/-- Where no patch has a value, nothing changes. -/
theorem patched_of_forall_none (h : ∀ p ∈ l, p x = none) : patched l f x = f x := by
  induction l generalizing f with
  | nil => rfl
  | cons p l ih =>
    rw [patched_cons, ih fun q hq => h q (List.mem_cons_of_mem p hq)]
    change (p x).getD (f x) = f x
    rw [h p List.mem_cons_self, Option.getD_none]

/-- The last patch that has a value decides. -/
theorem patched_of_last {b : β} (hp : p x = some b) (h : ∀ q ∈ l', q x = none) :
    patched (l ++ p :: l') f x = b := by
  rw [patched_append, patched_cons, patched_of_forall_none h]
  change (p x).getD (patched l f x) = b
  rw [hp, Option.getD_some]

theorem patched_concat {b : β} (hp : p x = some b) : patched (l ++ [p]) f x = b :=
  patched_of_last hp fun _ hq => absurd hq List.not_mem_nil

end Patches

/-- The addresses from `start` on, `size` of them, patched by their distance from `start`. -/
def rangeAt {β : Type*} (start size : UInt64) (f : UInt64 → β) (x : UInt64) : Option β :=
  if x - start < size then some (f (x - start)) else none

/-- Bytes at an address. -/
def bytesAt (start : UInt64) (bytes : List UInt8) (x : UInt64) : Option UInt8 :=
  bytes[(x - start).toNat]?

theorem rangeAt_eq_none {β : Type*} {start size x : UInt64} {f : UInt64 → β} (h : ¬x - start < size) :
    rangeAt start size f x = none := if_neg h

theorem rangeAt_add {β : Type*} {start size o : UInt64} {f : UInt64 → β} (h : o < size) :
    rangeAt start size f (start + o) = some (f o) := by
  rw [rangeAt, add_sub_cancel_left, if_pos h]

theorem bytesAt_eq_none {start x : UInt64} {bytes : List UInt8} (h : ¬(x - start).toNat < bytes.length) :
    bytesAt start bytes x = none := List.getElem?_eq_none (Nat.le_of_not_lt h)

/-- Bytes that no later patch touches are read back. -/
theorem readBytes_patched {l l' : List (UInt64 → Option UInt8)} {memory : Memory} {start : UInt64}
    {bytes : List UInt8} (hlength : bytes.length ≤ 2 ^ 64)
    (h : ∀ q ∈ l', ∀ x : UInt64, (x - start).toNat < bytes.length → q x = none) :
    readBytes (patched (l ++ bytesAt start bytes :: l') memory) start bytes.length = bytes := by
  refine List.ext_getElem (length_readBytes _ _ _) fun i h₁ h₂ => ?_
  have hi : (start + UInt64.ofNat i - start).toNat = i := by
    rw [add_sub_cancel_left, UInt64.toNat_ofNat']
    exact Nat.mod_eq_of_lt (h₂.trans_le hlength)
  rw [getElem_readBytes]
  refine patched_of_last ?_ fun q hq => h q hq _ (hi.symm ▸ h₂)
  rw [bytesAt, hi, List.getElem?_eq_getElem h₂]

/-- A word that no later patch touches is read back. -/
theorem readU64_patched {l l' : List (UInt64 → Option UInt8)} {memory : Memory} {start value : UInt64}
    (h : ∀ q ∈ l', ∀ x : UInt64, (x - start).toNat < 8 → q x = none) :
    readU64 (patched (l ++ bytesAt start (numberBytes 8 value.toNat) :: l') memory) start = value := by
  have hlength := length_numberBytes 8 value.toNat
  have hread : readBytes (patched (l ++ bytesAt start (numberBytes 8 value.toNat) :: l') memory) start
      (numberBytes 8 value.toNat).length = numberBytes 8 value.toNat :=
    readBytes_patched (by rw [hlength]; decide) (by rwa [hlength])
  rw [hlength] at hread
  rw [readU64, hread, leValue_numberBytes, Nat.mod_eq_of_lt (show value.toNat < 256 ^ 8 from value.toNat_lt),
    UInt64.ofNat_toNat]
