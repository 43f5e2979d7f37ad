import CommonFps.Lib.Checksum
import CommonFps.Lib.Memory
import CommonFps.ShellUi.Renderer

/-!
# The bytes of the hook records

The records of the hook protocol as they lie in their files: packed, the least
significant byte of a number first, the checksum last.

* `ShellUiHookRequest.image` and `ShellUiHookAck.image`: the bytes of a record;
* `ShellUiHookRequest.ofImage` and `ShellUiHookAck.ofImage`: the record of some
  bytes, of which nothing is lost;
* `corruption_detected`: one wrong byte anywhere in a record is noticed.
-/

namespace CommonFps

open Checksum

/-! ## Numbers -/

theorem le32_eq (x : UInt32) : le32 x = numberBytes 4 x.toNat := by
  rw [le32, numberBytes]
  refine List.map_congr_left fun i hi => UInt8.toNat_inj.1 ?_
  have hi' := List.mem_range.1 hi
  interval_cases i <;> simp [Nat.shiftRight_eq_div_pow]

theorem le64_eq (x : UInt64) : le64 x = numberBytes 8 x.toNat := by
  rw [le64, numberBytes]
  refine List.map_congr_left fun i hi => UInt8.toNat_inj.1 ?_
  have hi' := List.mem_range.1 hi
  interval_cases i <;> simp [Nat.shiftRight_eq_div_pow]

theorem le32_injective : Function.Injective le32 := by
  intro x y h
  have hvalue (z : UInt32) : leValue (le32 z) = z.toNat := by
    rw [le32_eq, leValue_numberBytes]
    exact Nat.mod_eq_of_lt z.toNat_lt
  exact UInt32.toNat_inj.1 ((hvalue x).symm.trans ((congrArg leValue h).trans (hvalue y)))

/-- The bytes of a field. -/
def fieldBytes (bytes : List UInt8) (offset size : ℕ) : List UInt8 := (bytes.drop offset).take size

/-- The number in four bytes of a record. -/
def field32 (bytes : List UInt8) (offset : ℕ) : UInt32 :=
  UInt32.ofNat (leValue (fieldBytes bytes offset 4))

/-- The number in eight bytes of a record. -/
def field64 (bytes : List UInt8) (offset : ℕ) : UInt64 :=
  UInt64.ofNat (leValue (fieldBytes bytes offset 8))

/-- The code in a record. -/
def fieldCode (bytes : List UInt8) (offset : ℕ) : Code := fun i => bytes.getD (offset + i) 0

section Field

variable {bytes : List UInt8} {offset size : ℕ}

theorem length_fieldBytes (h : offset + size ≤ bytes.length) :
    (fieldBytes bytes offset size).length = size := by
  rw [fieldBytes, List.length_take, List.length_drop]
  omega

/-- A field as a number, and as its bytes again. -/
theorem numberBytes_fieldBytes (h : offset + size ≤ bytes.length) :
    leValue (fieldBytes bytes offset size) < 256 ^ size ∧
      numberBytes size (leValue (fieldBytes bytes offset size)) = fieldBytes bytes offset size := by
  have hlt := leValue_lt (fieldBytes bytes offset size)
  have hbytes := numberBytes_leValue (fieldBytes bytes offset size)
  rw [length_fieldBytes h] at hlt hbytes
  exact ⟨hlt, hbytes⟩

theorem le32_field32 (h : offset + 4 ≤ bytes.length) :
    le32 (field32 bytes offset) = fieldBytes bytes offset 4 := by
  obtain ⟨hlt, hbytes⟩ := numberBytes_fieldBytes h
  rw [le32_eq, field32, UInt32.toNat_ofNat_of_lt' hlt, hbytes]

theorem le64_field64 (h : offset + 8 ≤ bytes.length) :
    le64 (field64 bytes offset) = fieldBytes bytes offset 8 := by
  obtain ⟨hlt, hbytes⟩ := numberBytes_fieldBytes h
  rw [le64_eq, field64, UInt64.toNat_ofNat_of_lt' hlt, hbytes]

theorem ofFn_fieldCode (h : offset + 16 ≤ bytes.length) :
    List.ofFn (fieldCode bytes offset) = fieldBytes bytes offset 16 := by
  refine List.ext_getElem (by rw [List.length_ofFn, length_fieldBytes h]) fun i hi _ => ?_
  rw [List.length_ofFn] at hi
  simp only [List.getElem_ofFn, fieldCode, fieldBytes, List.getElem_take, List.getElem_drop]
  rw [List.getD_eq_getElem?_getD, List.getElem?_eq_getElem (by omega), Option.getD_some]

/-- A field before the rest. -/
theorem fieldBytes_append_drop {next : ℕ} (h : offset + size = next) :
    fieldBytes bytes offset size ++ bytes.drop next = bytes.drop offset := by
  rw [fieldBytes, ← h, ← List.drop_drop]
  exact List.take_append_drop size (bytes.drop offset)

end Field

/-! ## Records -/

/-- The bytes of a request. -/
def kShellUiHookRequestSize : ℕ := 92

/-- The bytes of an acknowledgement. -/
def kShellUiHookAckSize : ℕ := 61

namespace ShellUiHookRequest

/-- The bytes of a request. -/
def image (r : ShellUiHookRequest) : List UInt8 := r.bytes ++ le32 r.checksum

/-- The request that some bytes are. -/
def ofImage (bytes : List UInt8) : ShellUiHookRequest where
  magic := field64 bytes 0
  version := field32 bytes 8
  pid := (field32 bytes 12).toInt32
  nonce := field64 bytes 16
  methodAddress := field64 bytes 24
  hookAddress := field64 bytes 32
  originalCallAddress := field64 bytes 40
  patchSize := field32 bytes 48
  displacedSize := field32 bytes 52
  expected := fieldCode bytes 56
  desired := fieldCode bytes 72
  checksum := field32 bytes 88

theorem length_bytes (r : ShellUiHookRequest) : r.bytes.length = 88 := by
  simp [bytes, le64, le32]

theorem length_image (r : ShellUiHookRequest) : r.image.length = kShellUiHookRequestSize := by
  rw [image, List.length_append, length_bytes]
  rfl

theorem image_ofImage {bytes : List UInt8} (h : bytes.length = kShellUiHookRequestSize) :
    (ofImage bytes).image = bytes := by
  rw [kShellUiHookRequestSize] at h
  have hend : fieldBytes bytes 88 4 = bytes.drop 88 :=
    List.take_of_length_le (by rw [List.length_drop]; omega)
  simp only [image, ShellUiHookRequest.bytes, ofImage, UInt32.toInt32]
  rw [le64_field64 (by omega), le64_field64 (by omega), le64_field64 (by omega),
    le64_field64 (by omega), le64_field64 (by omega), le32_field32 (by omega),
    le32_field32 (by omega), le32_field32 (by omega), le32_field32 (by omega),
    le32_field32 (by omega), ofFn_fieldCode (by omega), ofFn_fieldCode (by omega), hend]
  simp only [List.append_assoc, fieldBytes_append_drop, Nat.reduceAdd, List.drop_zero]

end ShellUiHookRequest

namespace ShellUiHookAck

/-- The bytes of an acknowledgement. -/
def image (a : ShellUiHookAck) : List UInt8 := a.bytes ++ le32 a.checksum

/-- The acknowledgement that some bytes are. -/
def ofImage (bytes : List UInt8) : ShellUiHookAck where
  magic := field64 bytes 0
  version := field32 bytes 8
  pid := (field32 bytes 12).toInt32
  nonce := field64 bytes 16
  status := (field32 bytes 24).toInt32
  readRc := (field32 bytes 28).toInt32
  writeRc := (field32 bytes 32).toInt32
  verified := bytes.getD 36 0
  restored := bytes.getD 37 0
  detached := bytes.getD 38 0
  authRestored := bytes.getD 39 0
  phase := bytes.getD 40 0
  observed := fieldCode bytes 41
  checksum := field32 bytes 57

theorem length_bytes (a : ShellUiHookAck) : a.bytes.length = 57 := by
  simp [bytes, le64, le32]

theorem length_image (a : ShellUiHookAck) : a.image.length = kShellUiHookAckSize := by
  rw [image, List.length_append, length_bytes]
  rfl

theorem image_ofImage {bytes : List UInt8} (h : bytes.length = kShellUiHookAckSize) :
    (ofImage bytes).image = bytes := by
  rw [kShellUiHookAckSize] at h
  have hend : fieldBytes bytes 57 4 = bytes.drop 57 :=
    List.take_of_length_le (by rw [List.length_drop]; omega)
  have hflags : [bytes.getD 36 0, bytes.getD 37 0, bytes.getD 38 0, bytes.getD 39 0,
      bytes.getD 40 0] = fieldBytes bytes 36 5 := by
    refine List.ext_getElem (by rw [length_fieldBytes (by omega)]; rfl) fun i hi _ => ?_
    have hi' : i < 5 := hi
    interval_cases i <;> simp [fieldBytes, List.getD_eq_getElem?_getD, h]
  simp only [image, ShellUiHookAck.bytes, ofImage, UInt32.toInt32]
  rw [le64_field64 (by omega), le64_field64 (by omega), le32_field32 (by omega),
    le32_field32 (by omega), le32_field32 (by omega), le32_field32 (by omega),
    le32_field32 (by omega), le32_field32 (by omega), hflags, ofFn_fieldCode (by omega), hend]
  simp only [List.append_assoc, fieldBytes_append_drop, Nat.reduceAdd, List.drop_zero]

end ShellUiHookAck

/-! ## Corruption -/

theorem shelluiHookChecksum_eq (bytes : List UInt8) :
    shelluiHookChecksum bytes = fnv1a 2166136261 16777619 bytes := rfl

theorem shelluiHookChecksum_ne {bytes bytes' : List UInt8} (h : DifferOnce bytes bytes') :
    shelluiHookChecksum bytes ≠ shelluiHookChecksum bytes' := by
  rw [shelluiHookChecksum_eq, shelluiHookChecksum_eq]
  -- The inverse of the multiplier modulo 2^32.
  exact fnv1a_ne 899433627 (by decide) h

/-- Of bytes and their checksum, one is changed: the checksum is not theirs any more. -/
theorem checksum_ne_of_differOnce {bytes bytes' : List UInt8} {checksum checksum' : UInt32}
    (hlength : bytes.length = bytes'.length) (hchecksum : checksum = shelluiHookChecksum bytes)
    (h : DifferOnce (bytes ++ le32 checksum) (bytes' ++ le32 checksum')) :
    checksum' ≠ shelluiHookChecksum bytes' := by
  rcases h.append_cases hlength with ⟨hbytes, hsame⟩ | ⟨rfl, hne⟩
  · -- One of the bytes: the checksum is still that of the old ones.
    rw [← le32_injective hsame, hchecksum]
    exact shelluiHookChecksum_ne hbytes
  · -- The checksum itself: the bytes are the old ones.
    rw [← hchecksum]
    exact fun heq => hne (congrArg le32 heq.symm)

/-- Bytes that differ in exactly one place have different checksums; so one wrong byte
    of a request or an acknowledgement, its checksum included, makes it another one
    whose checksum is not that of its bytes. -/
theorem corruption_detected :
    (∀ bytes bytes' : List UInt8, DifferOnce bytes bytes' →
      shelluiHookChecksum bytes ≠ shelluiHookChecksum bytes') ∧
    (∀ (r : ShellUiHookRequest) (bytes' : List UInt8), r.checksum = shelluiHookRequestChecksum r →
      DifferOnce r.image bytes' → (ShellUiHookRequest.ofImage bytes').image = bytes' ∧
        (ShellUiHookRequest.ofImage bytes').checksum ≠
          shelluiHookRequestChecksum (ShellUiHookRequest.ofImage bytes')) ∧
    (∀ (a : ShellUiHookAck) (bytes' : List UInt8), a.checksum = shelluiHookAckChecksum a →
      DifferOnce a.image bytes' → (ShellUiHookAck.ofImage bytes').image = bytes' ∧
        (ShellUiHookAck.ofImage bytes').checksum ≠
          shelluiHookAckChecksum (ShellUiHookAck.ofImage bytes')) := by
  refine ⟨fun _ _ => shelluiHookChecksum_ne, fun r bytes' hchecksum h => ?_,
    fun a bytes' hchecksum h => ?_⟩
  · have himage := ShellUiHookRequest.image_ofImage (h.1.symm.trans r.length_image)
    rw [← himage] at h
    exact ⟨himage, checksum_ne_of_differOnce
      (r.length_bytes.trans (ShellUiHookRequest.length_bytes _).symm) hchecksum h⟩
  · have himage := ShellUiHookAck.image_ofImage (h.1.symm.trans a.length_image)
    rw [← himage] at h
    exact ⟨himage, checksum_ne_of_differOnce
      (a.length_bytes.trans (ShellUiHookAck.length_bytes _).symm) hchecksum h⟩

/-- A request to patch the guard method at 0x10000, which arrives as one for 0x20000. -/
theorem corruption_detected_method :
    let r := publishMainThreadGuardRequest ⟨77, 0x10000, 0x40000, 0x30000, 0x50000⟩ fun _ => 0x55
    let wrong := ShellUiHookRequest.ofImage (r.image.set 26 2)
    (r.methodAddress = 0x10000 ∧ wrong.methodAddress = 0x20000) ∧
      wrong.checksum ≠ shelluiHookRequestChecksum wrong := by
  intro r wrong
  have hbyte : r.image[26]? = some 1 := by decide +kernel
  have hdiffer : DifferOnce r.image (r.image.set 26 2) := .set hbyte (by decide)
  exact ⟨⟨rfl, by decide +kernel⟩, (corruption_detected.2.1 r _ (checksum_with_checksum _ _).symm hdiffer).2⟩

end CommonFps
