import CommonFps.Lib.Memory
import CommonFps.Lib.X86

/-!
# Machines that execute memory

What an instruction does depends on its bytes, on the place where it is and on
the rest of the state; the code itself is no part of that state, as it neither
changes nor is read as data. Instructions that do not refer to their place do the
same wherever they are, so they may be moved, one after another.

* `Machine.run`: the place and the state that some instructions lead to;
* `run_congr`: a run is the same in another memory, if its instructions are;
* `Machine.Moves`: an instruction that may be moved, and `exists_effect`, for
  several ones;
* `Machine.IsX86`: what is assumed of a processor.
-/

/-- Bytes in memory that follow others. -/
theorem readBytes_add (mem : Memory) (address : UInt64) (n k : ℕ) :
    readBytes mem address (n + k) = readBytes mem address n ++ readBytes mem (address + UInt64.ofNat n) k := by
  rw [readBytes, List.range_add, List.map_append, List.map_map, readBytes, readBytes]
  congr 1
  refine List.map_congr_left fun i _ => ?_
  rw [Function.comp_apply, UInt64.ofNat_add, UInt64.add_assoc]

/-- From the code in memory, a place in it and a state, the next place and state, or `none`
    at a fault. -/
structure Machine (σ : Type*) where
  step : Memory → UInt64 → σ → Option (UInt64 × σ)

namespace Machine

variable {σ : Type*} (m : Machine σ)

/-- The machine after a number of steps of the code. -/
def run (code : Memory) : ℕ → UInt64 × σ → Option (UInt64 × σ)
  | 0, c => some c
  | n + 1, c => (m.step code c.1 c.2).bind (run code n)

variable {m} {code code' : Memory}

theorem run_one (place : UInt64) (s : σ) : m.run code 1 (place, s) = m.step code place s :=
  Option.bind_fun_some _

theorem run_add (k n : ℕ) (c : UInt64 × σ) :
    m.run code (k + n) c = (m.run code k c).bind (m.run code n) := by
  induction k generalizing c with
  | zero => rw [Nat.zero_add, run, Option.bind_some]
  | succ k ih =>
    rw [Nat.add_right_comm, run, run, Option.bind_assoc]
    exact Option.bind_congr fun c _ => ih c

/-- The instructions of a run are those of another memory. -/
theorem run_congr {n : ℕ} {c : UInt64 × σ} (h : ∀ i < n, ∀ place s,
    m.run code i c = some (place, s) → m.step code' place s = m.step code place s) :
    m.run code' n c = m.run code n c := by
  induction n generalizing c with
  | zero => rfl
  | succ n ih =>
    rw [run, run, h 0 n.succ_pos c.1 c.2 rfl]
    refine Option.bind_congr fun c' hc' => ih fun i hi place s hs => ?_
    refine h (i + 1) (Nat.succ_lt_succ hi) place s ?_
    rw [run, hc', Option.bind_some, hs]

/-! ## Code that may be moved -/

variable (m) in

/-- An instruction that has the same effect wherever it is, after which the one behind it
    follows. -/
def Moves (bytes : List UInt8) (effect : σ → Option σ) : Prop :=
  ∀ code place s, readBytes code place bytes.length = bytes →
    m.step code place s = (effect s).map fun s => (place + UInt64.ofNat bytes.length, s)

/-- Instructions that may be moved have one effect, wherever they are. -/
theorem exists_effect {block : List (List UInt8)} (h : ∀ bytes ∈ block, ∃ effect, m.Moves bytes effect) :
    ∃ effect : σ → Option σ, ∀ code place s,
      readBytes code place block.flatten.length = block.flatten →
        m.run code block.length (place, s) =
          (effect s).map fun s => (place + UInt64.ofNat block.flatten.length, s) := by
  induction block with
  | nil => exact ⟨some, fun code place s _ => by simp [run]⟩
  | cons bytes block ih =>
    obtain ⟨first, hfirst⟩ := h bytes List.mem_cons_self
    obtain ⟨rest, hrest⟩ := ih fun b hb => h b (List.mem_cons_of_mem bytes hb)
    refine ⟨fun s => (first s).bind rest, fun code place s hread => ?_⟩
    rw [List.flatten_cons, List.length_append, readBytes_add] at hread
    obtain ⟨hhere, hbehind⟩ := List.append_inj hread (length_readBytes _ _ _)
    rw [List.length_cons, run, hfirst code place s hhere]
    dsimp only
    cases first s with
    | none => rfl
    | some s =>
      simp only [Option.map_some, Option.bind_some]
      rw [hrest _ _ _ hbehind, List.flatten_cons, List.length_append, UInt64.ofNat_add, UInt64.add_assoc]

/-- Where the instructions of a block that are executed are. -/
theorem place_of_run {block : List (List UInt8)} (h : ∀ bytes ∈ block, ∃ effect, m.Moves bytes effect)
    {place : UInt64} (hread : readBytes code place block.flatten.length = block.flatten) {i : ℕ}
    (hi : i ≤ block.length) {s t : σ} {there : UInt64} (hrun : m.run code i (place, s) = some (there, t)) :
    there = place + UInt64.ofNat (block.take i).flatten.length := by
  obtain ⟨effect, heffect⟩ := exists_effect fun bytes hb => h bytes (List.mem_of_mem_take hb)
  have hsplit := congrArg List.flatten (List.take_append_drop i block)
  rw [List.flatten_append] at hsplit
  rw [← hsplit, List.length_append, readBytes_add] at hread
  have hpart := heffect code place s (List.append_inj hread (length_readBytes _ _ _)).1
  rw [List.length_take_of_le hi, hrun] at hpart
  obtain ⟨_, _, heq⟩ := Option.map_eq_some_iff.1 hpart.symm
  exact (congrArg Prod.fst heq).symm

/-! ## Processors -/

/-- The instruction that jumps to an address, which follows it. -/
def absoluteJump (target : UInt64) : List UInt8 := [0xff, 0x25, 0, 0, 0, 0] ++ numberBytes 8 target.toNat

@[simp] theorem length_absoluteJump (target : UInt64) : (absoluteJump target).length = 14 := by
  rw [absoluteJump, List.length_append, length_numberBytes]
  rfl

/-- The machine is an x86-64 processor, in which the instructions with some opcodes do nothing
    but refer to registers, to data and to the stack. -/
structure IsX86 (m : Machine σ) (plain : X86.Opcode → Prop) : Prop where
  /-- An instruction has at most 15 bytes. -/
  fetch {code code' : Memory} {place : UInt64} (s : σ)
    (h : readBytes code place 15 = readBytes code' place 15) : m.step code place s = m.step code' place s
  moves {bytes : List UInt8} {op : X86.Opcode} {n : ℕ}
    (hop : X86.opcodeAt bytes (X86.prefixes bytes).length = some op) (hplain : plain op)
    (h : X86.decode bytes = some ⟨n, false, false⟩) : ∃ effect, m.Moves (bytes.take n) effect
  jumps {code : Memory} {place target : UInt64} (s : σ) (h : readBytes code place 14 = absoluteJump target)
    (hlow : target < 0x0000800000000000) : m.step code place s = some (target, s)

/-- Code that may be moved, with a jump behind its copy to what follows it, does there what it
    does here. -/
theorem IsX86.run_moved {plain : X86.Opcode → Prop} (hm : m.IsX86 plain) {block : List (List UInt8)}
    (h : ∀ bytes ∈ block, ∃ effect, m.Moves bytes effect) {here there : UInt64}
    (hhere : readBytes code here block.flatten.length = block.flatten)
    (hthere : readBytes code' there (block.flatten.length + 14) =
      block.flatten ++ absoluteJump (here + UInt64.ofNat block.flatten.length))
    (hlow : here + UInt64.ofNat block.flatten.length < 0x0000800000000000) (s : σ) :
    m.run code' (block.length + 1) (there, s) = m.run code block.length (here, s) := by
  obtain ⟨effect, heffect⟩ := exists_effect h
  rw [readBytes_add] at hthere
  obtain ⟨hcopy, hjump⟩ := List.append_inj hthere (length_readBytes _ _ _)
  rw [run_add, heffect _ _ _ hcopy, heffect _ _ _ hhere]
  cases effect s with
  | none => rfl
  | some s =>
    simp only [Option.map_some, Option.bind_some]
    rw [run_one, hm.jumps s hjump hlow]

end Machine
