import CommonFps.Lib.Driven
import CommonFps.Lib.Bytes
import CommonFps.Overlay.Wire

/-!
# Receiver and render hook

How a packet gets from the socket to the widgets (`commonfps_shellui.cpp`): the
receiver stores what it receives, and the hook of `Application.Update` — or,
where there is none, the receiver itself in the background — hands the latest
packet to the update of the widgets. The packet is behind a lock; its number,
whether there is one, and the number of the one applied last are atomics.

* `Receiver`, `Tick`: the two threads, up to the single load, store, or byte
  that is copied under the lock; their steps interleave at will;
* `receivedDatagrams`, `shownPackets`: what was received, and what the widgets
  were updated to;
* `latest_state_shown`: no packet is torn, the order is kept, and the latest
  packet is the next one shown, unless a tick under way brings another one of
  its number (`latest_state_lost`).
-/

namespace CommonFps

/-! ## The bytes of a packet -/

/-- The bytes of a `WirePacket`. -/
abbrev PacketBytes := Fin 44 → UInt8

namespace PacketBytes

/-- The `len` bytes from `offset` on, as a number. -/
@[irreducible] def field (bytes : PacketBytes) (offset len : ℕ) : ℕ :=
  (List.range len).foldr (fun i n => (bytes (Fin.ofNat 44 (offset + i))).toNat + 256 * n) 0

/-- The sequence number in the bytes of a packet. -/
def sequence (bytes : PacketBytes) : UInt64 := (bytes.field 8 8).toUInt64

/-- The packet of its bytes. -/
def packet (bytes : PacketBytes) : WirePacket where
  magic := (bytes.field 0 4).toUInt32
  version := (bytes.field 4 2).toUInt16
  size := (bytes.field 6 2).toUInt16
  sequence := bytes.sequence
  fps := (bytes.field 16 4).toUInt32.toInt32
  loading := bytes 20
  corner := bytes 21
  fontSize := (bytes.field 22 2).toUInt16
  marginX := .ofBits (bytes.field 24 4).toUInt32
  marginY := .ofBits (bytes.field 28 4).toUInt32
  showLabel := bytes 32
  labelColor := (bytes.field 36 4).toUInt32
  valueColor := (bytes.field 40 4).toUInt32

/-- The checks of the magic, the version and the size. -/
def Passes (bytes : PacketBytes) : Prop :=
  bytes.packet.magic = kWireMagic ∧ bytes.packet.version = kWireVersion ∧
    bytes.packet.size = kWirePacketSize

instance (bytes : PacketBytes) : Decidable bytes.Passes := inferInstanceAs (Decidable (_ ∧ _))

/-- The bytes of a packet with the default values. -/
def byDefault : PacketBytes := fun i =>
  let bytes : Bytes :=
    [0x43, 0x50, 0x46, 0x53, 2, 0, 44, 0] ++ List.replicate 12 0 ++ [1, 2, 22, 0] ++
      [0, 0, 0x20, 0x41, 0, 0, 0x80, 0x40] ++ [1, 0, 0, 0] ++
      [0xFF, 0x66, 0xB3, 0, 0xFF, 0xFF, 0xFF, 0]
  bytes.getD i 0

example : byDefault.packet = {} := by decide +kernel

end PacketBytes

/-- What `recv` makes of a datagram: the start of it, if it is as long as a packet. -/
def recvPacket (datagram : Bytes) : Option PacketBytes :=
  if h : 44 ≤ datagram.length then some fun i => datagram.get (i.castLE h) else none

/-- The packet that the receiver takes from a datagram. -/
def acceptDatagram (datagram : Bytes) : Option PacketBytes :=
  match recvPacket datagram with
  | none => none
  | some bytes =>
    if isShutdownWirePacket bytes.packet then none
    else if bytes.Passes then some bytes
    else none

/-! ## The threads -/

/-- Who holds the lock of the packet. -/
inductive Holder
  | receiver
  | tick
  deriving DecidableEq

/-- What the threads share. -/
structure Shared where
  runtimeReady : Bool := false
  havePacket : Bool := false
  sequence : UInt64 := 0
  appliedSequence : UInt64 := 0
  packet : PacketBytes := .byDefault
  packetLock : Option Holder := none

/-- Where the receiver is: before each of its loads and stores, and in the
    background also during the tick that it does itself. -/
inductive Receiver
  | initializing
  | receiving
  | invalidating
  | locking (packet : PacketBytes)
  | storing (packet : PacketBytes) (copied : ℕ)
  | numbering (packet : PacketBytes)
  | flagging (packet : PacketBytes)
  | rendering

/-- Where a tick (`apply_latest_state_on_render`) is. -/
inductive Tick
  | idle
  | loadHavePacket
  | loadSequence
  | loadApplied (sequence : UInt64)
  | locking (sequence : UInt64)
  | copying (sequence : UInt64) (packet : PacketBytes) (copied : ℕ)
  | checking (sequence : UInt64) (packet : PacketBytes)
  | updating (packet : PacketBytes)
  | applying (packet : PacketBytes)

instance (tick : Tick) : Decidable (tick = .idle) :=
  match tick with
  | .idle => .isTrue rfl
  | .loadHavePacket | .loadSequence | .loadApplied _ | .locking _ | .copying _ _ _ | .checking _ _
  | .updating _ | .applying _ => .isFalse nofun

/-- What can be told of a step: the result of a `recv` (`none` for an error, as
    after a timeout), or of an update of the widgets. -/
inductive RenderAct
  | received (datagram : Option Bytes)
  | updated (packet : PacketBytes) (ok : Bool)

/-- A step of a thread: with what `recv` returns, if it is called, and whether an
    update of the widgets succeeds. -/
structure Turn where
  thread : Holder
  datagram : Option Bytes := none
  ok : Bool := true

/-- The state of both threads. -/
structure RenderState where
  shared : Shared := {}
  receiver : Receiver := .initializing
  tick : Tick := .idle

/-- A step of `apply_latest_state_on_render`. -/
def Tick.step (ok : Bool) (shared : Shared) : Tick → Tick × Shared × Option RenderAct
  | .idle => (if shared.runtimeReady then .loadHavePacket else .idle, shared, none)
  | .loadHavePacket => (if shared.havePacket then .loadSequence else .idle, shared, none)
  | .loadSequence => (.loadApplied shared.sequence, shared, none)
  | .loadApplied sequence =>
    (if sequence = shared.appliedSequence then .idle else .locking sequence, shared, none)
  | .locking sequence =>
    if shared.packetLock = none then
      (.copying sequence .byDefault 0, { shared with packetLock := some .tick }, none)
    else (.locking sequence, shared, none)
  | .copying sequence packet i =>
    if h : i < 44 then
      (.copying sequence (Function.update packet ⟨i, h⟩ (shared.packet ⟨i, h⟩)) (i + 1), shared, none)
    else (.checking sequence packet, { shared with packetLock := none }, none)
  | .checking sequence packet =>
    (if packet.sequence ≠ sequence ∨ decodeWirePacket packet.packet = none then .idle
      else .updating packet, shared, none)
  | .updating packet => (if ok then .applying packet else .idle, shared, some (.updated packet ok))
  | .applying packet => (.idle, { shared with appliedSequence := packet.sequence }, none)

/-- A step of the receiver outside the tick that it does itself. -/
def Receiver.step (background : Bool) (datagram : Option Bytes) (shared : Shared) :
    Receiver → Receiver × Shared × Option RenderAct
  | .initializing => (.receiving, { shared with runtimeReady := true }, none)
  | .receiving =>
    (match datagram with
      | none => .invalidating
      | some datagram => match acceptDatagram datagram with
        | none => .receiving
        | some packet => .locking packet, shared, some (.received datagram))
  | .invalidating => (.receiving, { shared with havePacket := false }, none)
  | .locking packet =>
    if shared.packetLock = none then
      (.storing packet 0, { shared with packetLock := some .receiver }, none)
    else (.locking packet, shared, none)
  | .storing packet i =>
    if h : i < 44 then
      (.storing packet (i + 1),
        { shared with packet := Function.update shared.packet ⟨i, h⟩ (packet ⟨i, h⟩) }, none)
    else (.numbering packet, { shared with packetLock := none }, none)
  | .numbering packet => (.flagging packet, { shared with sequence := packet.sequence }, none)
  | .flagging _ =>
    (if background then .rendering else .receiving, { shared with havePacket := true }, none)
  | .rendering => (.rendering, shared, none)

namespace RenderState

/-- A step of a tick, whichever thread does it. -/
def stepTick (s : RenderState) (ok : Bool) : RenderState × Option RenderAct :=
  let (tick, shared, act) := s.tick.step ok s.shared
  ({ s with tick, shared }, act)

/-- A step of a thread. The update hook is installed where the receiver does not
    render in the background. -/
def step (background : Bool) (s : RenderState) (turn : Turn) : RenderState × Option RenderAct :=
  match turn.thread with
  | .tick => if background then (s, none) else s.stepTick turn.ok
  | .receiver => match s.receiver with
    | .rendering =>
      let (s, act) := s.stepTick turn.ok
      (match s.tick with
        | .idle => { s with receiver := .receiving }
        | _ => s, act)
    | phase =>
      let (receiver, shared, act) := phase.step background turn.datagram s.shared
      ({ s with receiver, shared }, act)

/-- Both threads under any order of their steps. -/
def driven (background : Bool) : Driven RenderState Turn (Option RenderAct) where
  init := {}
  step := step background

end RenderState

/-! ## What is told -/

/-- The datagram that a step receives. -/
def datagramOf : Option RenderAct → Option Bytes
  | some (.received datagram) => datagram
  | _ => none

/-- The packet that a step shows: the update of the widgets succeeds. -/
def shownOf : Option RenderAct → Option PacketBytes
  | some (.updated packet true) => some packet
  | _ => none

section Told

variable (background : Bool) (ι : ℕ → Turn) (n : ℕ)

/-- The datagrams received before a step. -/
def receivedDatagrams : List Bytes := (RenderState.driven background).told ι datagramOf n

/-- The packets that the receiver took from them. -/
def acceptedPackets : List PacketBytes := (receivedDatagrams background ι n).filterMap acceptDatagram

/-- The packets to which the widgets were updated before a step. -/
def shownPackets : List PacketBytes := (RenderState.driven background).told ι shownOf n

end Told

theorem acceptDatagram_eq_some {datagram : Bytes} {packet : PacketBytes}
    (h : acceptDatagram datagram = some packet) :
    packet.Passes ∧ 44 ≤ datagram.length ∧ List.ofFn packet = datagram.take 44 := by
  rw [acceptDatagram, recvPacket] at h
  by_cases hlen : 44 ≤ datagram.length
  · rw [dif_pos hlen] at h
    dsimp only at h
    split_ifs at h with hshutdown hpasses
    cases h
    refine ⟨hpasses, hlen, List.ext_getElem ?_ fun i h₁ h₂ => ?_⟩
    · rw [List.length_ofFn, List.length_take, min_eq_left hlen]
    · rw [List.getElem_ofFn, List.getElem_take]
      rfl
  · rw [dif_neg hlen] at h
    cases h

/-- What is accepted is a subsequence of what is received. -/
theorem sublist_accepted (datagrams : List Bytes) :
    ((datagrams.filterMap acceptDatagram).map List.ofFn).Sublist (datagrams.map (List.take 44)) := by
  induction datagrams with
  | nil => exact List.Sublist.slnil
  | cons datagram datagrams ih =>
    rw [List.map_cons, List.filterMap_cons]
    cases h : acceptDatagram datagram with
    | none => exact ih.cons _
    | some packet =>
      rw [List.map_cons, (acceptDatagram_eq_some h).2.2]
      exact ih.cons_cons _

/-! ## The invariant -/

/-- The packet stored last. -/
def latest (stored : List PacketBytes) : PacketBytes := stored.getLastD .byDefault

/-- The packet that the receiver has accepted, but not stored. -/
def Receiver.pending : Receiver → List PacketBytes
  | .locking packet | .storing packet _ => [packet]
  | _ => []

/-- The packet, where the receiver has stored `stored`. -/
def Receiver.Content (stored : List PacketBytes) (packet : PacketBytes) : Receiver → Prop
  | .storing new i => i ≤ 44 ∧ ∀ j, packet j = if j.val < i then new j else latest stored j
  | .numbering new | .flagging new => packet = latest stored ∧ stored.getLast? = some new
  | _ => packet = latest stored

/-- The receiver holds the lock. -/
def Receiver.IsStoring : Receiver → Prop
  | .storing _ _ => True
  | _ => False

/-- The tick holds the lock. -/
def Tick.IsCopying : Tick → Prop
  | .copying _ _ _ => True
  | _ => False

/-- What the threads share, where the receiver has stored `stored`. -/
structure Shares (stored : List PacketBytes) (s : RenderState) : Prop where
  content : s.receiver.Content stored s.shared.packet
  sequence : ∀ packet, s.receiver = .flagging packet → s.shared.sequence = packet.sequence
  havePacket : s.shared.havePacket → stored ≠ []
  runtimeReady : s.receiver = .initializing ∨ s.shared.runtimeReady
  storing : s.shared.packetLock = some .receiver ↔ s.receiver.IsStoring
  copying : s.shared.packetLock = some .tick ↔ s.tick.IsCopying

/-- The number applied is that of the last packet of `past`. -/
def IsApplied (past : List PacketBytes) (sequence : UInt64) : Prop :=
  ∀ packet, past.getLast? = some packet → packet.sequence = sequence

/-- What a tick has, where the packets stored are those of `past`, up to the one
    shown last, and those of `next`, after it. -/
def Tick.Has (past next shown : List PacketBytes) (applied : UInt64) : Tick → Prop
  | .idle | .loadHavePacket => IsApplied past applied
  | .loadSequence | .loadApplied _ => IsApplied past applied ∧ past ++ next ≠ []
  | .locking sequence => IsApplied past applied ∧ past ++ next ≠ [] ∧ sequence ≠ applied
  | .copying sequence packet i => IsApplied past applied ∧ past ++ next ≠ [] ∧ sequence ≠ applied ∧
      i ≤ 44 ∧ ∀ j : Fin 44, j.val < i → packet j = latest (past ++ next) j
  | .checking sequence packet => IsApplied past applied ∧ sequence ≠ applied ∧
      (packet ∈ next ∨ past.getLast? = some packet)
  | .updating packet => IsApplied past applied ∧ packet ∈ next
  | .applying packet => past.getLast? = some packet ∧ shown.getLast? = some packet

/-- The invariant of a run that has accepted and shown these packets. -/
def RenderInv (accepted shown : List PacketBytes) (s : RenderState) : Prop :=
  ∃ past next, accepted = past ++ next ++ s.receiver.pending ∧ shown.Sublist past ∧
    Shares (past ++ next) s ∧ s.tick.Has past next shown s.shared.appliedSequence

section Steps

variable {accepted shown : List PacketBytes} {s : RenderState}

theorem renderInv_init : RenderInv [] [] {} := by
  refine ⟨[], [], rfl, List.Sublist.slnil, ⟨rfl, ?_, ?_, .inl rfl, ?_, ?_⟩, ?_⟩
  · rintro _ ⟨⟩
  · exact fun h => absurd h (by decide)
  · exact ⟨nofun, nofun⟩
  · exact ⟨nofun, nofun⟩
  · rintro _ ⟨⟩

namespace Shares

variable {stored : List PacketBytes} {shared : Shared} {receiver receiver' : Receiver} {tick tick' : Tick}

/-- While a thread holds the lock, the other one does not. -/
theorem not_storing (h : Shares stored ⟨shared, receiver, tick⟩) (ht : tick.IsCopying) :
    ¬receiver.IsStoring :=
  fun hr => absurd ((h.copying.2 ht).symm.trans (h.storing.2 hr)) (by decide)

theorem not_copying (h : Shares stored ⟨shared, receiver, tick⟩) (hr : receiver.IsStoring) :
    ¬tick.IsCopying :=
  fun ht => h.not_storing ht hr

/-- A step of a tick that neither takes nor gives back the lock. -/
theorem of_tick (h : Shares stored ⟨shared, receiver, tick⟩) (ht : tick'.IsCopying ↔ tick.IsCopying) :
    Shares stored ⟨shared, receiver, tick'⟩ :=
  ⟨h.content, h.sequence, h.havePacket, h.runtimeReady, h.storing, h.copying.trans ht.symm⟩

/-- A tick takes the lock. -/
theorem tick_locks (h : Shares stored ⟨shared, receiver, tick⟩) (hlock : shared.packetLock = none)
    (ht : tick'.IsCopying) : Shares stored ⟨{ shared with packetLock := some .tick }, receiver, tick'⟩ := by
  have hstoring : ¬receiver.IsStoring := fun hr => absurd (hlock.symm.trans (h.storing.2 hr)) (by decide)
  refine ⟨h.content, h.sequence, h.havePacket, h.runtimeReady, ?_, fun _ => ht, fun _ => rfl⟩
  exact ⟨nofun, fun hr => absurd hr hstoring⟩

/-- A tick gives back the lock. -/
theorem tick_unlocks (h : Shares stored ⟨shared, receiver, tick⟩) (ht : tick.IsCopying)
    (ht' : ¬tick'.IsCopying) :
    Shares stored ⟨{ shared with packetLock := none }, receiver, tick'⟩ := by
  refine ⟨h.content, h.sequence, h.havePacket, h.runtimeReady, ?_, nofun, fun ht => absurd ht ht'⟩
  exact ⟨nofun, fun hr => absurd hr (h.not_storing ht)⟩

/-- A step of the receiver that neither takes nor gives back the lock. -/
theorem of_receiver {shared' : Shared} (h : Shares stored ⟨shared, receiver, tick⟩)
    (hlock : shared'.packetLock = shared.packetLock) (hr : receiver'.IsStoring ↔ receiver.IsStoring)
    (hcontent : receiver'.Content stored shared'.packet)
    (hsequence : ∀ packet, receiver' = .flagging packet → shared'.sequence = packet.sequence)
    (hhave : shared'.havePacket → stored ≠ []) (hready : shared'.runtimeReady) :
    Shares stored ⟨shared', receiver', tick⟩ := by
  refine ⟨hcontent, hsequence, hhave, .inr hready, ?_, ?_⟩
  · exact (iff_of_eq (congrArg (· = some Holder.receiver) hlock)).trans (h.storing.trans hr.symm)
  · exact (iff_of_eq (congrArg (· = some Holder.tick) hlock)).trans h.copying

/-- The receiver takes the lock, with nothing stored yet. -/
theorem receiver_locks {packet : PacketBytes} (h : Shares stored ⟨shared, .locking packet, tick⟩)
    (hlock : shared.packetLock = none) :
    Shares stored ⟨{ shared with packetLock := some .receiver }, .storing packet 0, tick⟩ := by
  have hcopying : ¬tick.IsCopying := fun ht => absurd (hlock.symm.trans (h.copying.2 ht)) nofun
  have hcontent : shared.packet = latest stored := h.content
  refine ⟨⟨Nat.zero_le _, fun j => ?_⟩, nofun, h.havePacket, .inr (h.runtimeReady.resolve_left nofun),
    ⟨fun _ => trivial, fun _ => rfl⟩, nofun, fun ht => absurd ht hcopying⟩
  rw [if_neg (Nat.not_lt_zero _), ← hcontent]

end Shares

theorem latest_mem {stored : List PacketBytes} (h : stored ≠ []) :
    stored.getLast? = some (latest stored) := by
  rw [latest, List.getLastD_eq_getLast?]
  obtain ⟨packet, hp⟩ := Option.isSome_iff_exists.1 (List.getLast?_isSome.2 h)
  rw [hp, Option.getD_some]

/-- The packet stored last is the one shown last, or a later one. -/
theorem latest_append {past next : List PacketBytes} (h : past ++ next ≠ []) :
    latest (past ++ next) ∈ next ∨ past.getLast? = some (latest (past ++ next)) := by
  have hlast := latest_mem h
  rcases List.eq_nil_or_concat next with rfl | ⟨before, last, rfl⟩
  · rw [List.append_nil] at hlast ⊢
    exact .inr hlast
  · rw [List.concat_eq_append] at hlast ⊢
    rw [← List.append_assoc, List.getLast?_concat] at hlast
    rw [← List.append_assoc, ← Option.some.inj hlast]
    exact .inl (List.mem_append_right _ List.mem_cons_self)

/-- One more byte of a copy. -/
theorem copied_succ {source copy : PacketBytes} {i : ℕ} (hi : i < 44)
    (h : ∀ j : Fin 44, j.val < i → copy j = source j) (j : Fin 44) (hj : j.val < i + 1) :
    Function.update copy ⟨i, hi⟩ (source ⟨i, hi⟩) j = source j := by
  rcases Nat.lt_succ_iff_lt_or_eq.1 hj with hlt | heq
  · rw [Function.update_of_ne (fun he => hlt.ne (congrArg Fin.val he)), h j hlt]
  · have hj : j = ⟨i, hi⟩ := Fin.ext heq
    rw [hj, Function.update_self]

/-- One more byte of a packet over another one. -/
theorem stored_succ {old new packet : PacketBytes} {i : ℕ} (hi : i < 44)
    (h : ∀ j, packet j = if j.val < i then new j else old j) (j : Fin 44) :
    Function.update packet ⟨i, hi⟩ (new ⟨i, hi⟩) j = if j.val < i + 1 then new j else old j := by
  by_cases heq : j = ⟨i, hi⟩
  · rw [heq, Function.update_self, if_pos (Nat.lt_succ_self i)]
  · have hne : j.val ≠ i := fun hj => heq (Fin.ext hj)
    rw [Function.update_of_ne heq, h j]
    exact if_congr (by omega) rfl rfl

theorem Receiver.Content.of_not_storing {stored : List PacketBytes} {packet : PacketBytes}
    {receiver : Receiver} (h : receiver.Content stored packet) (hr : ¬receiver.IsStoring) :
    packet = latest stored := by
  cases receiver with
  | storing new i => exact absurd trivial hr
  | numbering new => exact h.1
  | flagging new => exact h.1
  | initializing => exact h
  | receiving => exact h
  | invalidating => exact h
  | locking new => exact h
  | rendering => exact h

/-- A step of a tick that shows nothing. -/
theorem RenderInv.of_stepTick {t : RenderState} {ok : Bool} (hstep : s.stepTick ok = (t, none))
    (h : RenderInv accepted shown t) :
    RenderInv accepted (shown ++ (shownOf (s.stepTick ok).2).toList) (s.stepTick ok).1 := by
  have hshown : shown ++ (shownOf none).toList = shown := List.append_nil shown
  rw [hstep, hshown]
  exact h

/-- The packets are shown up to one that was not, and that is the one shown now. -/
theorem RenderInv.updated {shared : Shared} {receiver : Receiver} {packet : PacketBytes}
    (h : RenderInv accepted shown ⟨shared, receiver, .updating packet⟩) :
    RenderInv accepted (shown ++ [packet]) ⟨shared, receiver, .applying packet⟩ := by
  obtain ⟨past, next, haccepted, hshown, hshares, _, hnext⟩ := h
  obtain ⟨before, after, rfl⟩ := List.append_of_mem hnext
  have hsplit : past ++ (before ++ packet :: after) = past ++ before ++ [packet] ++ after := by
    simp only [List.append_assoc, List.singleton_append]
  rw [hsplit] at haccepted hshares
  refine ⟨past ++ before ++ [packet], after, haccepted, ?_, hshares.of_tick Iff.rfl, ?_, ?_⟩
  · exact (hshown.trans (List.sublist_append_left past before)).append (List.Sublist.refl _)
  · exact List.getLast?_concat
  · exact List.getLast?_concat

/-- A step of a tick keeps the invariant. -/
theorem RenderInv.stepTick (h : RenderInv accepted shown s) (ok : Bool) :
    RenderInv accepted (shown ++ (shownOf (s.stepTick ok).2).toList) (s.stepTick ok).1 := by
  obtain ⟨shared, receiver, tick⟩ := s
  have hinv := h
  obtain ⟨past, next, haccepted, hshown, hshares, hhas⟩ := h
  cases tick with
  | idle =>
    refine .of_stepTick (t :=
      ⟨shared, receiver, if shared.runtimeReady then .loadHavePacket else .idle⟩) rfl ?_
    split_ifs
    · exact ⟨past, next, haccepted, hshown, hshares.of_tick Iff.rfl, hhas⟩
    · exact hinv
  | loadHavePacket =>
    refine .of_stepTick (t := ⟨shared, receiver, if shared.havePacket then .loadSequence else .idle⟩) rfl ?_
    split_ifs with hhave
    · exact ⟨past, next, haccepted, hshown, hshares.of_tick Iff.rfl, hhas, hshares.havePacket hhave⟩
    · exact ⟨past, next, haccepted, hshown, hshares.of_tick Iff.rfl, hhas⟩
  | loadSequence => exact .of_stepTick rfl ⟨past, next, haccepted, hshown, hshares.of_tick Iff.rfl, hhas⟩
  | loadApplied sequence =>
    refine .of_stepTick
      (t := ⟨shared, receiver, if sequence = shared.appliedSequence then .idle else .locking
        sequence⟩) rfl ?_
    split_ifs with hsequence
    · exact ⟨past, next, haccepted, hshown, hshares.of_tick Iff.rfl, hhas.1⟩
    · exact ⟨past, next, haccepted, hshown, hshares.of_tick Iff.rfl, hhas.1, hhas.2, hsequence⟩
  | locking sequence =>
    by_cases hlock : shared.packetLock = none
    · have hstep : RenderState.stepTick ⟨shared, receiver, .locking sequence⟩ ok =
          (⟨{ shared with packetLock := some .tick }, receiver, .copying sequence .byDefault 0⟩, none) := by
        rw [RenderState.stepTick, Tick.step, if_pos hlock]
      refine .of_stepTick hstep ⟨past, next, haccepted, hshown, hshares.tick_locks hlock trivial,
        hhas.1, hhas.2.1, hhas.2.2, Nat.zero_le _, ?_⟩
      exact fun j hj => absurd hj (Nat.not_lt_zero _)
    · have hstep : RenderState.stepTick ⟨shared, receiver, .locking sequence⟩ ok =
          (⟨shared, receiver, .locking sequence⟩, none) := by
        rw [RenderState.stepTick, Tick.step, if_neg hlock]
      exact .of_stepTick hstep hinv
  | copying sequence packet i =>
    obtain ⟨happlied, hne, hsequence, hi, hcopied⟩ := hhas
    -- The receiver is kept from storing while the tick copies.
    have hcontent : shared.packet = latest (past ++ next) :=
      hshares.content.of_not_storing (hshares.not_storing trivial)
    by_cases hlt : i < 44
    · have hstep : RenderState.stepTick ⟨shared, receiver, .copying sequence packet i⟩ ok =
          (⟨shared, receiver, .copying sequence
            (Function.update packet ⟨i, hlt⟩ (shared.packet ⟨i, hlt⟩)) (i + 1)⟩, none) := by
        rw [RenderState.stepTick, Tick.step, dif_pos hlt]
      refine .of_stepTick hstep
        ⟨past, next, haccepted, hshown, hshares.of_tick Iff.rfl, happlied, hne, hsequence, hlt, ?_⟩
      rw [hcontent]
      exact copied_succ hlt hcopied
    · have hstep : RenderState.stepTick ⟨shared, receiver, .copying sequence packet i⟩ ok =
          (⟨{ shared with packetLock := none }, receiver, .checking sequence packet⟩, none) := by
        rw [RenderState.stepTick, Tick.step, dif_neg hlt]
      have hpacket : packet = latest (past ++ next) :=
        funext fun j => hcopied j (j.isLt.trans_le (not_lt.1 hlt))
      refine .of_stepTick hstep
        ⟨past, next, haccepted, hshown, hshares.tick_unlocks trivial id, happlied, hsequence, ?_⟩
      rw [hpacket]
      exact latest_append hne
  | checking sequence packet =>
    refine .of_stepTick (t := ⟨shared, receiver,
      if packet.sequence ≠ sequence ∨ decodeWirePacket packet.packet =
        none then .idle else .updating packet⟩) rfl ?_
    obtain ⟨happlied, hsequence, hpacket⟩ := hhas
    split_ifs with hcheck
    · exact ⟨past, next, haccepted, hshown, hshares.of_tick Iff.rfl, happlied⟩
    · -- The number differs from that of the packet shown last, so the packet is another one.
      have hnext : packet ∈ next := by
        refine hpacket.resolve_right fun hlast => hcheck (.inl fun hp => hsequence ?_)
        rw [← hp]
        exact happlied packet hlast
      exact ⟨past, next, haccepted, hshown, hshares.of_tick Iff.rfl, happlied, hnext⟩
  | updating packet =>
    cases ok with
    | false =>
      change RenderInv accepted (shown ++ []) ⟨shared, receiver, .idle⟩
      rw [List.append_nil]
      exact ⟨past, next, haccepted, hshown, hshares.of_tick Iff.rfl, hhas.1⟩
    | true => exact hinv.updated
  | applying packet =>
    refine .of_stepTick (t := ⟨{ shared with appliedSequence := packet.sequence }, receiver, .idle⟩) rfl
      ⟨past, next, haccepted, hshown, ⟨hshares.content, hshares.sequence, hshares.havePacket,
        hshares.runtimeReady, hshares.storing, hshares.copying⟩, fun last hlast => ?_⟩
    rw [Option.some.inj (hlast.symm.trans hhas.1)]

/-- A tick that is not copying has the same, where one more packet is stored. -/
theorem Tick.Has.append {past next : List PacketBytes} {applied : UInt64} {tick : Tick}
    (h : tick.Has past next shown applied) (ht : ¬tick.IsCopying) (packet : PacketBytes) :
    tick.Has past (next ++ [packet]) shown applied := by
  have hne : past ++ (next ++ [packet]) ≠ [] := by simp
  cases tick with
  | copying sequence packet i => exact absurd trivial ht
  | loadSequence => exact ⟨h.1, hne⟩
  | loadApplied sequence => exact ⟨h.1, hne⟩
  | locking sequence => exact ⟨h.1, hne, h.2.2⟩
  | checking sequence packet => exact ⟨h.1, h.2.1, h.2.2.imp_left (List.mem_append_left _)⟩
  | updating packet => exact ⟨h.1, List.mem_append_left _ h.2⟩
  | idle => exact h
  | loadHavePacket => exact h
  | applying packet => exact h

/-- A packet is stored in full, and the receiver gives back the lock. -/
theorem RenderInv.stored {shared : Shared} {packet : PacketBytes} {i : ℕ} {tick : Tick} (hi : ¬i < 44)
    (h : RenderInv accepted shown ⟨shared, .storing packet i, tick⟩) :
    RenderInv accepted shown ⟨{ shared with packetLock := none }, .numbering packet, tick⟩ := by
  obtain ⟨past, next, haccepted, hshown, hshares, hhas⟩ := h
  obtain ⟨_, hstored⟩ := hshares.content
  have hcopying : ¬tick.IsCopying := hshares.not_copying trivial
  have hpacket : shared.packet = packet :=
    funext fun j => (hstored j).trans (if_pos (j.isLt.trans_le (not_lt.1 hi)))
  have hlast : (past ++ (next ++ [packet])).getLast? = some packet := by
    rw [← List.append_assoc, List.getLast?_concat]
  have hne : past ++ (next ++ [packet]) ≠ [] := by simp
  refine ⟨past, next ++ [packet], ?_, hshown, ⟨⟨?_, hlast⟩, nofun, fun _ => hne,
    .inr (hshares.runtimeReady.resolve_left nofun), ⟨nofun, nofun⟩,
    ⟨nofun, fun ht => absurd ht hcopying⟩⟩, hhas.append hcopying packet⟩
  · exact (haccepted.trans (List.append_assoc _ _ _)).trans (List.append_nil _).symm
  · exact hpacket.trans (Option.some.inj (hlast.symm.trans (latest_mem hne)))

/-- A step of the receiver that receives nothing. -/
theorem RenderInv.of_stepReceiver {receiver : Receiver} {shared : Shared} {background : Bool}
    {datagram : Option Bytes} (hstep : s.receiver.step background datagram s.shared = (receiver, shared, none))
    (h : RenderInv accepted shown ⟨shared, receiver, s.tick⟩) :
    let after := s.receiver.step background datagram s.shared
    RenderInv (accepted ++ ((datagramOf after.2.2).bind acceptDatagram).toList) shown
      { s with receiver := after.1, shared := after.2.1 } := by
  have haccepted : accepted ++ ((datagramOf none).bind acceptDatagram).toList = accepted :=
    List.append_nil accepted
  simp only [hstep, haccepted]
  exact h

/-- A step of the receiver keeps the invariant. -/
theorem RenderInv.stepReceiver (h : RenderInv accepted shown s) (background : Bool) (datagram : Option Bytes) :
    let after := s.receiver.step background datagram s.shared
    RenderInv (accepted ++ ((datagramOf after.2.2).bind acceptDatagram).toList) shown
      { s with receiver := after.1, shared := after.2.1 } := by
  obtain ⟨shared, receiver, tick⟩ := s
  have hinv := h
  obtain ⟨past, next, haccepted, hshown, hshares, hhas⟩ := h
  have hready : receiver ≠ .initializing → shared.runtimeReady = true := hshares.runtimeReady.resolve_left
  cases receiver with
  | initializing =>
    exact .of_stepReceiver rfl ⟨past, next, haccepted, hshown,
      hshares.of_receiver rfl Iff.rfl hshares.content nofun hshares.havePacket rfl, hhas⟩
  | receiving =>
    cases datagram with
    | none =>
      change RenderInv (accepted ++ []) shown ⟨shared, .invalidating, tick⟩
      rw [List.append_nil]
      exact ⟨past, next, haccepted, hshown,
        hshares.of_receiver rfl Iff.rfl hshares.content nofun hshares.havePacket (hready nofun), hhas⟩
    | some datagram =>
      cases hd : acceptDatagram datagram with
      | none =>
        have hstep : Receiver.step background (some datagram) shared .receiving =
            (.receiving, shared, some (.received (some datagram))) := by
          simp only [Receiver.step, hd]
        simp only [hstep, datagramOf, Option.bind_some, hd, Option.toList_none, List.append_nil]
        exact hinv
      | some packet =>
        have hstep : Receiver.step background (some datagram) shared .receiving =
            (.locking packet, shared, some (.received (some datagram))) := by
          simp only [Receiver.step, hd]
        simp only [hstep, datagramOf, Option.bind_some, hd, Option.toList_some]
        have haccepted : accepted = past ++ next := haccepted.trans (List.append_nil _)
        exact ⟨past, next, congrArg (· ++ [packet]) haccepted, hshown,
          hshares.of_receiver rfl Iff.rfl hshares.content nofun hshares.havePacket (hready nofun), hhas⟩
  | invalidating =>
    exact .of_stepReceiver rfl ⟨past, next, haccepted, hshown,
      hshares.of_receiver rfl Iff.rfl hshares.content nofun nofun (hready nofun), hhas⟩
  | locking packet =>
    by_cases hlock : shared.packetLock = none
    · have hstep : Receiver.step background datagram shared (.locking packet) =
          (.storing packet 0, { shared with packetLock := some .receiver }, none) := by
        rw [Receiver.step, if_pos hlock]
      exact .of_stepReceiver hstep ⟨past, next, haccepted, hshown, hshares.receiver_locks hlock, hhas⟩
    · have hstep : Receiver.step background datagram shared (.locking packet) =
          (.locking packet, shared, none) := by
        rw [Receiver.step, if_neg hlock]
      exact .of_stepReceiver hstep hinv
  | storing packet i =>
    by_cases hlt : i < 44
    · have hstep : Receiver.step background datagram shared (.storing packet i) =
          (.storing packet (i + 1), { shared with
            packet := Function.update shared.packet ⟨i, hlt⟩ (packet ⟨i, hlt⟩) }, none) := by
        rw [Receiver.step, dif_pos hlt]
      obtain ⟨_, hstored⟩ := hshares.content
      exact .of_stepReceiver hstep ⟨past, next, haccepted, hshown, hshares.of_receiver rfl Iff.rfl
        ⟨hlt, stored_succ hlt hstored⟩ nofun hshares.havePacket (hready nofun), hhas⟩
    · have hstep : Receiver.step background datagram shared (.storing packet i) =
          (.numbering packet, { shared with packetLock := none }, none) := by
        rw [Receiver.step, dif_neg hlt]
      exact .of_stepReceiver hstep (hinv.stored hlt)
  | numbering packet =>
    refine .of_stepReceiver rfl ⟨past, next, haccepted, hshown,
      hshares.of_receiver rfl Iff.rfl hshares.content ?_ hshares.havePacket (hready nofun), hhas⟩
    rintro _ ⟨⟩
    rfl
  | flagging packet =>
    obtain ⟨hcontent, hlast⟩ := hshares.content
    have hne : past ++ next ≠ [] := fun hnil => absurd (hlast.symm.trans (congrArg _ hnil)) nofun
    cases background with
    | false =>
      exact .of_stepReceiver rfl ⟨past, next, haccepted, hshown,
        hshares.of_receiver rfl Iff.rfl hcontent nofun (fun _ => hne) (hready nofun), hhas⟩
    | true =>
      exact .of_stepReceiver rfl ⟨past, next, haccepted, hshown,
        hshares.of_receiver rfl Iff.rfl hcontent nofun (fun _ => hne) (hready nofun), hhas⟩
  | rendering => exact .of_stepReceiver rfl hinv

/-- What is told of a step of a tick. -/
theorem Tick.step_act (tick : Tick) (ok : Bool) (shared : Shared) :
    (tick.step ok shared).2.2 = none ∨
      ∃ packet, tick = .updating packet ∧ (tick.step ok shared).2.2 = some (.updated packet ok) := by
  cases tick with
  | updating packet => exact .inr ⟨packet, rfl, rfl⟩
  | locking sequence =>
    rw [Tick.step]
    split_ifs <;> exact .inl rfl
  | copying sequence packet i =>
    rw [Tick.step]
    split_ifs <;> exact .inl rfl
  | _ => exact .inl rfl

/-- What is told of a step of the receiver. -/
theorem Receiver.step_act (receiver : Receiver) (background : Bool) (datagram : Option Bytes)
    (shared : Shared) :
    (receiver.step background datagram shared).2.2 = none ∨ receiver = .receiving ∧
      (receiver.step background datagram shared).2.2 = some (.received datagram) := by
  cases receiver with
  | receiving => exact .inr ⟨rfl, rfl⟩
  | locking packet =>
    rw [Receiver.step]
    split_ifs <;> exact .inl rfl
  | storing packet i =>
    rw [Receiver.step]
    split_ifs <;> exact .inl rfl
  | _ => exact .inl rfl

theorem datagramOf_stepTick (s : RenderState) (ok : Bool) : datagramOf (s.stepTick ok).2 = none := by
  have hact : (s.stepTick ok).2 = (s.tick.step ok s.shared).2.2 := rfl
  rcases s.tick.step_act ok s.shared with h | ⟨packet, -, h⟩ <;> rw [hact, h] <;> rfl

theorem shownOf_step (receiver : Receiver) (background : Bool) (datagram : Option Bytes)
    (shared : Shared) : shownOf (receiver.step background datagram shared).2.2 = none := by
  rcases receiver.step_act background datagram shared with h | ⟨-, h⟩ <;> rw [h] <;> rfl

/-- A step of either thread is one of the tick, after which the receiver may have
    done its own, or one of the receiver, or nothing. -/
theorem renderStep_cases (background : Bool) (s : RenderState) (turn : Turn) :
    (∃ receiver, (receiver = s.receiver ∨ s.receiver = .rendering ∧ receiver = .receiving) ∧
      s.step background turn =
        ({ (s.stepTick turn.ok).1 with receiver }, (s.stepTick turn.ok).2)) ∨
    s.step background turn = (s, none) ∨
    (turn.thread = .receiver ∧ s.receiver ≠ .rendering ∧
      let after := s.receiver.step background turn.datagram s.shared
      s.step background turn = ({ s with receiver := after.1, shared := after.2.1 }, after.2.2)) := by
  obtain ⟨shared, receiver, tick⟩ := s
  obtain ⟨thread, datagram, ok⟩ := turn
  cases thread with
  | tick =>
    cases background with
    | true => exact .inr (.inl rfl)
    | false => exact .inl ⟨receiver, .inl rfl, rfl⟩
  | receiver =>
    cases receiver with
    | rendering =>
      have hafter : (RenderState.stepTick ⟨shared, .rendering, tick⟩ ok).1.receiver = .rendering := rfl
      simp only [RenderState.step]
      generalize RenderState.stepTick ⟨shared, .rendering, tick⟩ ok = after at hafter ⊢
      obtain ⟨⟨shared', receiver', tick'⟩, act⟩ := after
      cases tick' with
      | idle => exact .inl ⟨.receiving, .inr ⟨trivial, rfl⟩, rfl⟩
      | _ => exact .inl ⟨.rendering, .inl rfl, by rw [← hafter]⟩
    | _ => exact .inr (.inr ⟨rfl, nofun, rfl⟩)

theorem RenderInv.rendered {shared : Shared} {tick : Tick}
    (h : RenderInv accepted shown ⟨shared, .rendering, tick⟩) :
    RenderInv accepted shown ⟨shared, .receiving, tick⟩ := by
  obtain ⟨past, next, haccepted, hshown, hshares, hhas⟩ := h
  exact ⟨past, next, haccepted, hshown, ⟨hshares.content, nofun, hshares.havePacket,
    .inr (hshares.runtimeReady.resolve_left nofun), hshares.storing, hshares.copying⟩, hhas⟩

/-- A step of either thread keeps the invariant. -/
theorem RenderInv.step (h : RenderInv accepted shown s) (background : Bool) (turn : Turn) :
    let act := (s.step background turn).2
    RenderInv (accepted ++ ((datagramOf act).bind acceptDatagram).toList)
      (shown ++ (shownOf act).toList) (s.step background turn).1 := by
  rcases renderStep_cases background s turn with ⟨receiver, hreceiver, hstep⟩ | hstep | ⟨-, -, hstep⟩
  · have htick := h.stepTick turn.ok
    simp only [hstep, datagramOf_stepTick, Option.bind_none, Option.toList_none, List.append_nil]
    rcases hreceiver with rfl | ⟨hrendering, rfl⟩
    · exact htick
    · have hafter : (s.stepTick turn.ok).1.receiver = .rendering := hrendering
      generalize s.stepTick turn.ok = after at htick hafter ⊢
      obtain ⟨⟨shared, receiver, tick⟩, act⟩ := after
      cases hafter
      exact htick.rendered
  · simp only [hstep, datagramOf, shownOf, Option.bind_none, Option.toList_none, List.append_nil]
    exact h
  · simp only [hstep, shownOf_step, Option.toList_none, List.append_nil]
    exact h.stepReceiver background turn.datagram

end Steps

section Run

variable (background : Bool) (ι : ℕ → Turn) (n : ℕ)

theorem acceptedPackets_succ :
    acceptedPackets background ι (n + 1) = acceptedPackets background ι n ++
      ((datagramOf ((RenderState.driven background).output ι n)).bind acceptDatagram).toList := by
  rw [acceptedPackets, receivedDatagrams, Driven.told_succ, List.filterMap_append]
  congr 1
  cases datagramOf ((RenderState.driven background).output ι n) with
  | none => rfl
  | some datagram => cases h : acceptDatagram datagram <;> simp [h]

theorem shownPackets_succ :
    shownPackets background ι (n + 1) = shownPackets background ι n ++
      (shownOf ((RenderState.driven background).output ι n)).toList :=
  Driven.told_succ n

/-- The invariant along a run. -/
theorem renderInv_state :
    RenderInv (acceptedPackets background ι n) (shownPackets background ι n)
      ((RenderState.driven background).state ι n) := by
  induction n with
  | zero => exact renderInv_init
  | succ n ih =>
    rw [acceptedPackets_succ, shownPackets_succ, Driven.state_succ]
    exact ih.step background (ι n)

end Run

/-! ## The latest packet -/

/-- The packet is stored, and so is its number. -/
structure IsStored (p : PacketBytes) (shared : Shared) : Prop where
  packet : shared.packet = p
  sequence : shared.sequence = p.sequence
  havePacket : shared.havePacket
  runtimeReady : shared.runtimeReady

/-- The packet that a tick has read from what is shared. -/
def Tick.held : Tick → Option PacketBytes
  | .checking _ packet | .updating packet | .applying packet => some packet
  | _ => none

/-- What a tick has read is of the packet. -/
def Tick.Brings (packet : PacketBytes) : Tick → Prop
  | .idle | .loadHavePacket | .loadSequence => True
  | .loadApplied sequence | .locking sequence => sequence = packet.sequence
  | .copying sequence copy i => sequence = packet.sequence ∧ ∀ j : Fin 44, j.val < i → copy j = packet j
  | .checking sequence copy => sequence = packet.sequence ∧ copy = packet
  | .updating copy | .applying copy => copy = packet

/-- A tick on its way to an update. -/
def Tick.IsUnderway : Tick → Prop
  | .idle | .applying _ => False
  | _ => True

section Ticks

variable {packet : PacketBytes} {shared : Shared} {tick : Tick}

theorem IsStored.step (h : IsStored packet shared) (ok : Bool) :
    IsStored packet (tick.step ok shared).2.1 := by
  cases tick with
  | locking sequence =>
    rw [Tick.step]
    split_ifs
    · exact ⟨h.packet, h.sequence, h.havePacket, h.runtimeReady⟩
    · exact h
  | copying sequence copy i =>
    rw [Tick.step]
    split_ifs
    · exact h
    · exact ⟨h.packet, h.sequence, h.havePacket, h.runtimeReady⟩
  | applying copy =>
    change IsStored packet { shared with appliedSequence := copy.sequence }
    exact ⟨h.packet, h.sequence, h.havePacket, h.runtimeReady⟩
  | _ => exact h

/-- While a packet is stored, a tick that brings it goes on to. -/
theorem Tick.Brings.step (h : tick.Brings packet) (hstored : IsStored packet shared) (ok : Bool) :
    (tick.step ok shared).1.Brings packet := by
  cases tick with
  | idle =>
    rw [Tick.step]
    split_ifs <;> trivial
  | loadHavePacket =>
    rw [Tick.step]
    split_ifs <;> trivial
  | loadSequence =>
    change shared.sequence = packet.sequence
    exact hstored.sequence
  | loadApplied sequence =>
    rw [Tick.step]
    split_ifs
    · exact True.intro
    · exact h
  | locking sequence =>
    rw [Tick.step]
    split_ifs
    · exact ⟨h, fun j hj => absurd hj (Nat.not_lt_zero _)⟩
    · exact h
  | copying sequence copy i =>
    rw [Tick.step]
    split_ifs with hi
    · rw [hstored.packet]
      exact ⟨h.1, copied_succ hi h.2⟩
    · exact ⟨h.1, funext fun j => h.2 j (j.isLt.trans_le (not_lt.1 hi))⟩
  | checking sequence copy =>
    rw [Tick.step]
    split_ifs
    · exact True.intro
    · exact h.2
  | updating copy =>
    cases ok with
    | false => exact True.intro
    | true => exact h
  | applying copy => exact True.intro

theorem Tick.Brings.of_updated (h : tick.Brings packet) {ok ok' : Bool} {copy : PacketBytes}
    (hact : (tick.step ok shared).2.2 = some (.updated copy ok')) :
    copy = packet ∧ (ok' → (tick.step ok shared).1 = .applying packet) := by
  rcases tick.step_act ok shared with hnone | ⟨copy', rfl, hsome⟩
  · cases hnone.symm.trans hact
  · cases hsome.symm.trans hact
    cases h
    exact ⟨rfl, fun hok => if_pos hok⟩

theorem Tick.step_applied (ok : Bool) (ht : ∀ q, tick ≠ .applying q) :
    (tick.step ok shared).2.1.appliedSequence = shared.appliedSequence := by
  cases tick with
  | applying copy => exact absurd rfl (ht copy)
  | locking sequence =>
    rw [Tick.step]
    split_ifs <;> rfl
  | copying sequence copy i =>
    rw [Tick.step]
    split_ifs <;> rfl
  | _ => rfl

theorem Tick.Brings.applied (h : tick.Brings packet)
    (happlied : tick = .applying packet ∨ shared.appliedSequence = packet.sequence) (ok : Bool) :
    (tick.step ok shared).2.1.appliedSequence = packet.sequence := by
  by_cases ht : ∃ q, tick = .applying q
  · obtain ⟨q, rfl⟩ := ht
    cases h
    rfl
  · push Not at ht
    rw [Tick.step_applied ok ht]
    exact happlied.resolve_left (ht packet)

/-- A tick that may still see that the number is applied. -/
def Tick.IsEarly (packet : PacketBytes) : Tick → Prop
  | .idle | .loadHavePacket | .loadSequence => True
  | .loadApplied sequence => sequence = packet.sequence
  | _ => False

/-- With its number applied, a stored packet is not read. -/
theorem Tick.IsEarly.step (h : tick.IsEarly packet) (hstored : IsStored packet shared)
    (happlied : shared.appliedSequence = packet.sequence) (ok : Bool) :
    (tick.step ok shared).1.IsEarly packet ∧
      (tick.step ok shared).2.1.appliedSequence = packet.sequence := by
  cases tick with
  | idle =>
    rw [Tick.step]
    split_ifs <;> exact ⟨trivial, happlied⟩
  | loadHavePacket =>
    rw [Tick.step]
    split_ifs <;> exact ⟨trivial, happlied⟩
  | loadSequence => exact ⟨hstored.sequence, happlied⟩
  | loadApplied sequence =>
    have hsequence : sequence = shared.appliedSequence := h.trans happlied.symm
    rw [Tick.step, if_pos hsequence]
    exact ⟨trivial, happlied⟩
  | locking sequence => exact h.elim
  | copying sequence copy i => exact h.elim
  | checking sequence copy => exact h.elim
  | updating copy => exact h.elim
  | applying copy => exact h.elim

/-- With another number applied, a tick under way to a stored packet that passes
    gets to its update. -/
theorem Tick.IsUnderway.step (h : tick.IsUnderway) (hbrings : tick.Brings packet)
    (hstored : IsStored packet shared) (hpasses : packet.Passes)
    (happlied : shared.appliedSequence ≠ packet.sequence) (ok : Bool) :
    (∃ ok', (tick.step ok shared).2.2 = some (.updated packet ok')) ∨
      (tick.step ok shared).1.IsUnderway ∧
        (tick.step ok shared).2.1.appliedSequence = shared.appliedSequence := by
  cases tick with
  | idle => exact h.elim
  | loadHavePacket => exact .inr ⟨by rw [Tick.step, if_pos hstored.havePacket]; trivial, rfl⟩
  | loadSequence => exact .inr ⟨trivial, rfl⟩
  | loadApplied sequence =>
    have hne : sequence ≠ shared.appliedSequence := fun heq => happlied (heq.symm.trans hbrings)
    exact .inr ⟨by rw [Tick.step, if_neg hne]; trivial, rfl⟩
  | locking sequence =>
    rw [Tick.step]
    split_ifs <;> exact .inr ⟨trivial, rfl⟩
  | copying sequence copy i =>
    rw [Tick.step]
    split_ifs <;> exact .inr ⟨trivial, rfl⟩
  | checking sequence copy =>
    obtain ⟨rfl, rfl⟩ := hbrings
    have hdecode : decodeWirePacket copy.packet ≠ none := by
      obtain ⟨hmagic, hversion, hsize⟩ := hpasses
      rw [decodeWirePacket, if_neg (by simp [hmagic, hversion, hsize])]
      exact Option.some_ne_none _
    have hcheck : ¬(copy.sequence ≠ copy.sequence ∨ decodeWirePacket copy.packet = none) := by
      rintro (hne | hnone)
      · exact hne rfl
      · exact hdecode hnone
    exact .inr ⟨by rw [Tick.step, if_neg hcheck]; trivial, rfl⟩
  | updating copy =>
    cases hbrings
    exact .inl ⟨ok, rfl⟩
  | applying copy => exact h.elim

end Ticks

/-- The packet shown last is the stored one if its number is applied, where no tick
    has read another one of its number. -/
structure ShowsLatest (p : PacketBytes) (shown : List PacketBytes) (tick : Tick) (shared : Shared) :
    Prop where
  copying : ∀ sequence copy i, tick = .copying sequence copy i → ∀ j : Fin 44, j.val < i → copy j = p j
  held : ∀ q, tick.held = some q →
    q = p ∨ q.sequence ≠ p.sequence ∧ shared.appliedSequence ≠ p.sequence
  applying : ∀ q, tick = .applying q → shown.getLast? = some q
  applied : shared.appliedSequence = p.sequence → shown.getLast? = some p

theorem ShowsLatest.step {p : PacketBytes} {shown : List PacketBytes} {tick : Tick} {shared : Shared}
    (h : ShowsLatest p shown tick shared) (hstored : IsStored p shared) (ok : Bool) :
    ShowsLatest p (shown ++ (shownOf (tick.step ok shared).2.2).toList) (tick.step ok shared).1
      (tick.step ok shared).2.1 := by
  have hnil : shown ++ (shownOf none).toList = shown := List.append_nil _
  cases tick with
  | idle =>
    rw [Tick.step, hnil]
    split_ifs <;> exact ⟨nofun, nofun, nofun, h.applied⟩
  | loadHavePacket =>
    rw [Tick.step, hnil]
    split_ifs <;> exact ⟨nofun, nofun, nofun, h.applied⟩
  | loadSequence =>
    rw [Tick.step, hnil]
    exact ⟨nofun, nofun, nofun, h.applied⟩
  | loadApplied sequence =>
    rw [Tick.step, hnil]
    split_ifs <;> exact ⟨nofun, nofun, nofun, h.applied⟩
  | locking sequence =>
    rw [Tick.step]
    split_ifs
    · rw [hnil]
      refine ⟨?_, nofun, nofun, h.applied⟩
      rintro _ _ _ ⟨⟩ j hj
      exact absurd hj (Nat.not_lt_zero _)
    · rw [hnil]
      exact ⟨nofun, nofun, nofun, h.applied⟩
  | copying sequence copy i =>
    rw [Tick.step]
    split_ifs with hi
    · rw [hnil, hstored.packet]
      refine ⟨?_, nofun, nofun, h.applied⟩
      rintro _ _ _ ⟨⟩ j hj
      exact copied_succ hi (h.copying _ _ _ rfl) j hj
    · rw [hnil]
      refine ⟨nofun, ?_, nofun, h.applied⟩
      rintro _ ⟨⟩
      exact .inl (funext fun j => h.copying _ _ _ rfl j (j.isLt.trans_le (not_lt.1 hi)))
  | checking sequence copy =>
    rw [Tick.step, hnil]
    split_ifs
    · exact ⟨nofun, nofun, nofun, h.applied⟩
    · refine ⟨nofun, ?_, nofun, h.applied⟩
      rintro _ ⟨⟩
      exact h.held copy rfl
  | updating copy =>
    cases ok with
    | false =>
      change ShowsLatest p (shown ++ []) .idle shared
      rw [List.append_nil]
      exact ⟨nofun, nofun, nofun, h.applied⟩
    | true =>
      change ShowsLatest p (shown ++ [copy]) (.applying copy) shared
      refine ⟨nofun, ?_, ?_, fun happlied => ?_⟩
      · rintro _ ⟨⟩
        exact h.held copy rfl
      · rintro _ ⟨⟩
        exact List.getLast?_concat
      · have hcopy : copy = p := (h.held copy rfl).resolve_right fun hne => hne.2 happlied
        rw [hcopy, List.getLast?_concat]
  | applying copy =>
    change ShowsLatest p (shown ++ []) .idle { shared with appliedSequence := copy.sequence }
    rw [List.append_nil]
    refine ⟨nofun, nofun, nofun, fun happlied => ?_⟩
    have hcopy : copy = p := (h.held copy rfl).resolve_right fun hne => hne.1 happlied
    rw [h.applying copy rfl, hcopy]

/-- The packet is stored, and the receiver waits for another one. -/
structure Rests (p : PacketBytes) (s : RenderState) : Prop where
  receiver : s.receiver = .receiving ∨ s.receiver = .rendering
  stored : IsStored p s.shared

/-- Unless something is received, a step is one of the tick, or nothing. -/
theorem Rests.step {p : PacketBytes} {s : RenderState} (h : Rests p s) {background : Bool}
    {turn : Turn} (hquiet : ∀ datagram, (s.step background turn).2 ≠ some (.received datagram)) :
    Rests p (s.step background turn).1 ∧
      ((∃ ok, ((s.step background turn).1.tick, (s.step background turn).1.shared,
          (s.step background turn).2) = s.tick.step ok s.shared) ∨
        (s.step background turn).1 = s ∧ (s.step background turn).2 = none) := by
  rcases renderStep_cases background s turn with ⟨receiver, hreceiver, hstep⟩ | hstep | ⟨-, hne, hstep⟩
  · rw [hstep]
    refine ⟨⟨?_, h.stored.step turn.ok⟩, .inl ⟨turn.ok, rfl⟩⟩
    rcases hreceiver with rfl | ⟨-, rfl⟩
    · exact h.receiver
    · exact .inl rfl
  · rw [hstep]
    exact ⟨h, .inr ⟨rfl, rfl⟩⟩
  · have hreceiving : s.receiver = .receiving := h.receiver.resolve_right hne
    refine absurd ?_ (hquiet turn.datagram)
    rw [hstep, hreceiving]
    rfl

section Window

variable {background : Bool} {ι : ℕ → Turn}

/-- Nothing is received from the step `m` on, before the step `n`. -/
def Quiet (background : Bool) (ι : ℕ → Turn) (m n : ℕ) : Prop :=
  ∀ k, m ≤ k → k < n → ∀ datagram,
    (RenderState.driven background).output ι k ≠ some (.received datagram)

theorem Quiet.mono {m n m' n' : ℕ} (h : Quiet background ι m n) (hm : m ≤ m') (hn : n' ≤ n) :
    Quiet background ι m' n' :=
  fun k hk hkn => h k (hm.trans hk) (hkn.trans_le hn)

/-- While nothing is received, what the steps of the tick keep is kept. -/
theorem Rests.window {p : PacketBytes} {m n : ℕ} {P : List PacketBytes → Tick → Shared → Prop}
    (h : Rests p ((RenderState.driven background).state ι m)) (hmn : m ≤ n)
    (hquiet : Quiet background ι m n)
    (hm : P (shownPackets background ι m) ((RenderState.driven background).state ι m).tick
      ((RenderState.driven background).state ι m).shared)
    (hs : ∀ shown tick shared ok, IsStored p shared → P shown tick shared →
      P (shown ++ (shownOf (tick.step ok shared).2.2).toList) (tick.step ok shared).1
        (tick.step ok shared).2.1) :
    Rests p ((RenderState.driven background).state ι n) ∧
      P (shownPackets background ι n) ((RenderState.driven background).state ι n).tick
        ((RenderState.driven background).state ι n).shared := by
  refine Driven.invariant_from
    (P := fun k s => Rests p s ∧ P (shownPackets background ι k) s.tick s.shared)
    hmn ⟨h, hm⟩ fun k hk hkn ih => ?_
  obtain ⟨hrests, hP⟩ := ih
  obtain ⟨hrests', hstep⟩ := hrests.step (hquiet k hk hkn)
  refine ⟨hrests', ?_⟩
  rw [shownPackets_succ]
  rcases hstep with ⟨ok, hstep⟩ | ⟨hstep, hact⟩
  · have := hs _ _ _ ok hrests.stored hP
    rw [← hstep] at this
    exact this
  · have hout : (RenderState.driven background).output ι k = none := hact
    rw [hout, shownOf, Option.toList_none, List.append_nil]
    · exact hstep.symm ▸ hP
    · exact nofun

end Window

section Shown

variable {background : Bool} {ι : ℕ → Turn}

/-- An update is a step of a tick that has come to it. -/
theorem tick_of_output {n : ℕ} {packet : PacketBytes} {ok : Bool}
    (h : (RenderState.driven background).output ι n = some (.updated packet ok)) :
    ((RenderState.driven background).state ι n).tick = .updating packet := by
  have hout : (((RenderState.driven background).state ι n).step background (ι n)).2 =
      some (.updated packet ok) := h
  generalize (RenderState.driven background).state ι n = s at hout ⊢
  rcases renderStep_cases background s (ι n) with ⟨receiver, -, hstep⟩ | hstep | ⟨-, -, hstep⟩
  · rw [hstep] at hout
    have hout : (s.tick.step (ι n).ok s.shared).2.2 = some (.updated packet ok) := hout
    rcases s.tick.step_act (ι n).ok s.shared with hact | ⟨packet', htick, hact⟩
    · cases hact.symm.trans hout
    · cases hact.symm.trans hout
      exact htick
  · rw [hstep] at hout
    cases hout
  · rw [hstep] at hout
    rcases s.receiver.step_act background (ι n).datagram s.shared with hact | ⟨-, hact⟩
    · cases hact.symm.trans hout
    · cases hact.symm.trans hout

/-- The hook receives nothing. -/
theorem not_received_of_tick {s : RenderState} {turn : Turn} (ht : turn.thread = .tick)
    (datagram : Option Bytes) : (s.step background turn).2 ≠ some (.received datagram) := by
  intro hout
  rcases renderStep_cases background s turn with ⟨receiver, -, hstep⟩ | hstep | ⟨hr, -, -⟩
  · rw [hstep] at hout
    have hout : (s.tick.step turn.ok s.shared).2.2 = some (.received datagram) := hout
    rcases s.tick.step_act turn.ok s.shared with hact | ⟨packet, -, hact⟩
    · cases hact.symm.trans hout
    · cases hact.symm.trans hout
  · rw [hstep] at hout
    cases hout
  · cases ht.symm.trans hr

/-- A packet that the widgets are updated to was received. -/
theorem mem_of_output {n : ℕ} {packet : PacketBytes} {ok : Bool}
    (h : (RenderState.driven background).output ι n = some (.updated packet ok)) :
    packet ∈ acceptedPackets background ι n := by
  obtain ⟨past, next, haccepted, -, -, hhas⟩ := renderInv_state background ι n
  rw [tick_of_output h] at hhas
  rw [haccepted]
  exact List.mem_append_left _ (List.mem_append_right _ hhas.2)

/-- Once the number of the stored packet is applied, there are no more updates. -/
theorem Rests.not_updated {p : PacketBytes} {m n : ℕ}
    (h : Rests p ((RenderState.driven background).state ι m)) (hmn : m ≤ n)
    (hquiet : Quiet background ι m n) (hidle : ((RenderState.driven background).state ι m).tick = .idle)
    (happlied : ((RenderState.driven background).state ι m).shared.appliedSequence = p.sequence)
    (q : PacketBytes) (ok : Bool) :
    (RenderState.driven background).output ι n ≠ some (.updated q ok) := by
  intro hout
  obtain ⟨-, hearly, -⟩ := h.window
    (P := fun _ tick shared => tick.IsEarly p ∧ shared.appliedSequence = p.sequence) hmn hquiet
    ⟨hidle ▸ trivial, happlied⟩ fun _ _ _ ok hstored htick => htick.1.step hstored htick.2 ok
  rw [tick_of_output hout] at hearly
  exact hearly

theorem exists_received {n : ℕ} {packet : PacketBytes} (h : packet ∈ acceptedPackets background ι n) :
    ∃ datagram ∈ receivedDatagrams background ι n,
      packet.Passes ∧ 44 ≤ datagram.length ∧ List.ofFn packet = datagram.take 44 := by
  obtain ⟨datagram, hmem, haccept⟩ := List.mem_filterMap.1 h
  exact ⟨datagram, hmem, acceptDatagram_eq_some haccept⟩

/-- The step `m` is the last one of the receiver in storing the packet `p`. -/
def Finishes (background : Bool) (ι : ℕ → Turn) (m : ℕ) (p : PacketBytes) : Prop :=
  ((RenderState.driven background).state ι m).receiver = .flagging p ∧ (ι m).thread = .receiver

namespace Finishes

variable {m n : ℕ} {p : PacketBytes} (h : Finishes background ι m p)
include h

theorem passes : p.Passes := by
  obtain ⟨past, next, haccepted, -, hshares, -⟩ := renderInv_state background ι m
  have hcontent := hshares.content
  rw [h.1] at hcontent haccepted
  have hp : p ∈ acceptedPackets background ι m := by
    rw [haccepted]
    exact List.mem_append_left _ (List.mem_of_getLast? hcontent.2)
  obtain ⟨-, -, hpasses, -⟩ := exists_received hp
  exact hpasses

/-- The packet is stored afterwards. -/
theorem rests : Rests p ((RenderState.driven background).state ι (m + 1)) := by
  obtain ⟨past, next, -, -, hshares, -⟩ := renderInv_state background ι m
  obtain ⟨hreceiver, hthread⟩ := h
  rw [Driven.state_succ]
  generalize (RenderState.driven background).state ι m = s at hshares hreceiver ⊢
  generalize ι m = turn at hthread ⊢
  obtain ⟨shared, receiver, tick⟩ := s
  obtain ⟨thread, datagram, ok⟩ := turn
  cases hreceiver
  cases hthread
  obtain ⟨hcontent, hlast⟩ := hshares.content
  have hpacket : shared.packet = p :=
    hcontent.trans (Option.some.inj ((latest_mem fun hnil => by simp [hnil] at hlast).symm.trans hlast))
  refine ⟨?_, hpacket, hshares.sequence p rfl, rfl, hshares.runtimeReady.resolve_left nofun⟩
  cases background with
  | false => exact .inl rfl
  | true => exact .inr rfl

theorem rests_of_quiet (hquiet : Quiet background ι (m + 1) n) {k : ℕ} (hmk : m < k) (hkn : k ≤ n) :
    Rests p ((RenderState.driven background).state ι k) :=
  (h.rests.window (P := fun _ _ _ => True) hmk (hquiet.mono le_rfl hkn) trivial
    fun _ _ _ _ _ _ => trivial).1

/-- A tick begun afterwards updates the widgets to the packet only, and then applies
    its number. -/
theorem updated_eq (hquiet : Quiet background ι (m + 1) n) {b k : ℕ} (hb : m < b) (hbk : b ≤ k)
    (hkn : k < n) (hidle : ((RenderState.driven background).state ι b).tick = .idle)
    {q : PacketBytes} {ok : Bool}
    (hupdated : (RenderState.driven background).output ι k = some (.updated q ok)) :
    q = p ∧ (ok → ∀ j, k < j → j ≤ n →
      ((RenderState.driven background).state ι j).tick = .idle →
        ((RenderState.driven background).state ι j).shared.appliedSequence = p.sequence) := by
  have hrests := h.rests_of_quiet hquiet hb (hbk.trans hkn.le)
  have hbrings : ((RenderState.driven background).state ι k).tick.Brings p := by
    refine (hrests.window (P := fun _ tick _ => tick.Brings p) hbk (hquiet.mono hb hkn.le) ?_ ?_).2
    · rw [hidle]
      trivial
    · exact fun _ _ _ ok hstored htick => htick.step hstored ok
  have hrests := h.rests_of_quiet hquiet (hb.trans_le hbk) hkn.le
  obtain ⟨hrests', ⟨ok', hstep⟩ | ⟨-, hact⟩⟩ := hrests.step (hquiet k (hb.trans_le hbk) hkn)
  · have hact : (((RenderState.driven background).state ι k).tick.step ok'
        ((RenderState.driven background).state ι k).shared).2.2 = some (.updated q ok) := by
      rw [← hstep]
      exact hupdated
    obtain ⟨hq, happlying⟩ := hbrings.of_updated hact
    refine ⟨hq, fun hok j hkj hjn hidle => ?_⟩
    have htick : ((RenderState.driven background).state ι (k + 1)).tick = .applying p := by
      rw [← happlying hok, ← hstep]
      rfl
    obtain ⟨-, -, happlied⟩ := hrests'.window (m := k + 1)
      (P := fun _ tick shared => tick.Brings p ∧ (tick = .applying p ∨ shared.appliedSequence = p.sequence))
      hkj (hquiet.mono (hb.trans_le (hbk.trans k.le_succ)) hjn) ⟨htick ▸ rfl, .inl htick⟩
      fun _ _ _ ok hstored htick => ⟨htick.1.step hstored ok, .inr (htick.1.applied htick.2 ok)⟩
    exact happlied.resolve_left fun happlying => nomatch hidle.symm.trans happlying
  · exact nomatch hact.symm.trans hupdated

theorem showsLatest
    (happlied : ((RenderState.driven background).state ι (m + 1)).shared.appliedSequence ≠ p.sequence)
    (hheld : ∀ q, ((RenderState.driven background).state ι (m + 1)).tick.held = some q →
      q.sequence = p.sequence → q = p) :
    ShowsLatest p (shownPackets background ι (m + 1))
      ((RenderState.driven background).state ι (m + 1)).tick
      ((RenderState.driven background).state ι (m + 1)).shared := by
  have hrests := h.rests
  obtain ⟨past, next, -, -, hshares, hhas⟩ := renderInv_state background ι (m + 1)
  generalize (RenderState.driven background).state ι (m + 1) = s at hrests hshares hhas happlied hheld ⊢
  have hstoring : ¬s.receiver.IsStoring := by
    rcases hrests.receiver with hr | hr <;> rw [hr] <;> exact id
  have hlatest : latest (past ++ next) = p :=
    (hshares.content.of_not_storing hstoring).symm.trans hrests.stored.packet
  refine ⟨fun sequence copy i ht j hj => ?_, fun q hq => ?_, fun q ht => ?_, fun h => absurd h happlied⟩
  · rw [ht] at hhas
    rw [hhas.2.2.2.2 j hj, hlatest]
  · by_cases hsequence : q.sequence = p.sequence
    · exact .inl (hheld q hq hsequence)
    · exact .inr ⟨hsequence, happlied⟩
  · rw [ht] at hhas
    exact hhas.2

/-- Unless a tick under way has read another packet of its number, the packet is
    shown, or the next tick gets to its update. -/
theorem shown_or_updated (hquiet : Quiet background ι (m + 1) n)
    (happlied : ((RenderState.driven background).state ι (m + 1)).shared.appliedSequence ≠ p.sequence)
    (hheld : ∀ q, ((RenderState.driven background).state ι (m + 1)).tick.held = some q →
      q.sequence = p.sequence → q = p)
    {b j : ℕ} (hb : m < b) (hbj : b < j) (hjn : j ≤ n)
    (hidle : ((RenderState.driven background).state ι b).tick = .idle)
    (hbegun : ((RenderState.driven background).state ι (b + 1)).tick ≠ .idle)
    (hend : ((RenderState.driven background).state ι j).tick = .idle) :
    ((shownPackets background ι b).getLast? = some p ∧
        ((RenderState.driven background).state ι b).shared.appliedSequence = p.sequence) ∨
      ∃ k ok, b < k ∧ k < j ∧ (RenderState.driven background).output ι k = some (.updated p ok) := by
  have hbn := hbj.le.trans hjn
  by_cases hshown : ((RenderState.driven background).state ι b).shared.appliedSequence = p.sequence
  · -- Its number is applied, so it was shown last.
    have hlatest := h.showsLatest happlied hheld
    obtain ⟨-, hlatest⟩ := h.rests.window (P := ShowsLatest p) hb (hquiet.mono le_rfl hbn) hlatest
      fun _ _ _ ok hstored htick => htick.step hstored ok
    exact .inl ⟨hlatest.applied hshown, hshown⟩
  · -- Until it updates the widgets, the tick begun at `b` stays under way.
    right
    by_contra hno
    push Not at hno
    have hunderway : ((RenderState.driven background).state ι j).tick.IsUnderway ∧
        ((RenderState.driven background).state ι j).tick.Brings p ∧
        ((RenderState.driven background).state ι j).shared.appliedSequence ≠ p.sequence := by
      refine Driven.invariant_from (m := b + 1) (P := fun _ (s : RenderState) => s.tick.IsUnderway ∧
        s.tick.Brings p ∧ s.shared.appliedSequence ≠ p.sequence) hbj ?_ fun k hk hkj ih => ?_
      · have hrests := h.rests_of_quiet hquiet hb hbn
        obtain ⟨-, ⟨ok, hstep⟩ | ⟨hsame, -⟩⟩ := hrests.step (hquiet b hb (hbj.trans_le hjn))
        · rw [hidle, Tick.step, if_pos hrests.stored.runtimeReady, Prod.mk.injEq, Prod.mk.injEq] at hstep
          rw [Driven.state_succ]
          refine ⟨?_, ?_, ?_⟩
          · exact hstep.1 ▸ trivial
          · exact hstep.1 ▸ trivial
          · exact fun happlied => hshown (hstep.2.1 ▸ happlied)
        · exact absurd ((congrArg RenderState.tick hsame).trans hidle) hbegun
      · obtain ⟨hunderway, hbrings, happlied⟩ := ih
        have hrests := h.rests_of_quiet hquiet (hb.trans hk) (hkj.le.trans hjn)
        obtain ⟨-, ⟨ok, hstep⟩ | ⟨hsame, -⟩⟩ :=
          hrests.step (hquiet k (hb.trans hk) (hkj.trans_le hjn))
        · rcases hunderway.step hbrings hrests.stored h.passes happlied ok with ⟨ok', hact⟩ | hnext
          · rw [← hstep] at hact
            exact absurd hact (hno k ok' hk hkj)
          · have hbrings' := hbrings.step hrests.stored ok
            rw [← hstep] at hnext hbrings'
            exact ⟨hnext.1, hbrings', fun heq => happlied (hnext.2.symm.trans heq)⟩
        · exact hsame.symm ▸ ⟨hunderway, hbrings, happlied⟩
    rw [hend] at hunderway
    exact hunderway.1

end Finishes

/-- No packet is torn, their order is kept, and none is shown twice. The latest packet
    is the only one that the ticks begun after it is stored update the widgets to, and
    they do so until an update succeeds, unless a tick under way has read another
    packet of its number. -/
theorem latest_state_shown (background : Bool) (ι : ℕ → Turn) :
    (∀ n packet ok, (RenderState.driven background).output ι n = some (.updated packet ok) →
      ∃ datagram ∈ receivedDatagrams background ι n,
        packet.Passes ∧ 44 ≤ datagram.length ∧ List.ofFn packet = datagram.take 44) ∧
    (∀ n, ((shownPackets background ι n).map List.ofFn).Sublist
      ((receivedDatagrams background ι n).map (List.take 44))) ∧
    ∀ m n p, Finishes background ι m p → Quiet background ι (m + 1) n →
      (∀ b k q ok, m < b → b ≤ k → k < n →
        ((RenderState.driven background).state ι b).tick = .idle →
        (RenderState.driven background).output ι k = some (.updated q ok) →
        q = p ∧ (ok → ∀ j, k < j → j ≤ n →
          ((RenderState.driven background).state ι j).tick = .idle →
            ((RenderState.driven background).state ι j).shared.appliedSequence = p.sequence)) ∧
      (((RenderState.driven background).state ι (m + 1)).shared.appliedSequence ≠ p.sequence →
        (∀ q, ((RenderState.driven background).state ι (m + 1)).tick.held = some q →
          q.sequence = p.sequence → q = p) →
        ∀ b j, m < b → b < j → j ≤ n →
          ((RenderState.driven background).state ι b).tick = .idle →
          ((RenderState.driven background).state ι (b + 1)).tick ≠ .idle →
          ((RenderState.driven background).state ι j).tick = .idle →
          ((shownPackets background ι b).getLast? = some p ∧
              ((RenderState.driven background).state ι b).shared.appliedSequence = p.sequence) ∨
            ∃ k ok, b < k ∧ k < j ∧
              (RenderState.driven background).output ι k = some (.updated p ok)) := by
  refine ⟨fun n packet ok h => exists_received (mem_of_output h), fun n => ?_,
    fun m n p h hquiet => ⟨?_, ?_⟩⟩
  · obtain ⟨past, next, haccepted, hshown, -, -⟩ := renderInv_state background ι n
    have hsub : (shownPackets background ι n).Sublist (acceptedPackets background ι n) := by
      rw [haccepted, List.append_assoc]
      exact hshown.trans (List.sublist_append_left _ _)
    exact (hsub.map List.ofFn).trans (sublist_accepted _)
  · exact fun b k q ok hb hbk hkn hidle hupdated => h.updated_eq hquiet hb hbk hkn hidle hupdated
  · exact fun happlied hheld b j hb hbj hjn hidle hbegun hend =>
      h.shown_or_updated hquiet happlied hheld hb hbj hjn hidle hbegun hend

end Shown

/-! ## Two packets -/

/-- A packet with a number and a rate. -/
def numbered (sequence fps : UInt8) : PacketBytes :=
  Function.update (Function.update PacketBytes.byDefault 8 sequence) 16 fps

/-- A packet with number `1` comes in a datagram that is too long, and a tick reads it;
    before the tick updates the widgets, a packet with number `second` comes. -/
def twoPackets (second : UInt8) (n : ℕ) : Turn :=
  if n = 1 then { thread := .receiver, datagram := some (List.ofFn (numbered 1 30) ++ [0]) }
  else if n = 101 then { thread := .receiver, datagram := some (List.ofFn (numbered second 60)) }
  else if n < 50 ∨ (101 ≤ n ∧ n < 150) then { thread := .receiver }
  else { thread := .tick }

theorem twoPackets_of_le (second : UInt8) {n : ℕ} (h : 150 ≤ n) :
    twoPackets second n = { thread := .tick } := by
  rw [twoPackets, if_neg (by omega), if_neg (by omega), if_neg (by omega)]

theorem updated_of_shownOf {act : Option RenderAct} {packet : PacketBytes}
    (h : shownOf act = some packet) : act = some (.updated packet true) := by
  match act with
  | some (.updated _ true) => cases h; rfl
  | some (.updated _ false) => cases h
  | some (.received _) => cases h
  | none => cases h

/-- The packet whose number the receiver has stored, before it tells that there is one. -/
def Receiver.flagged : Receiver → Option PacketBytes
  | .flagging packet => some packet
  | _ => none

theorem flagging_of_flagged {receiver : Receiver} {packet : PacketBytes}
    (h : receiver.flagged = some packet) : receiver = .flagging packet := by
  cases receiver with
  | flagging packet' => cases h; rfl
  | _ => cases h

theorem finishes_twoPackets (second : UInt8) (h : second = 1 ∨ second = 2) :
    Finishes false (twoPackets second) 149 (numbered second 60) := by
  have hthread : (twoPackets second 149).thread = .receiver := rfl
  refine ⟨flagging_of_flagged ?_, hthread⟩
  rcases h with rfl | rfl <;> decide +kernel

theorem quiet_twoPackets (second : UInt8) (n : ℕ) : Quiet false (twoPackets second) 150 n := by
  intro k hk hkn datagram
  exact not_received_of_tick (congrArg Turn.thread (twoPackets_of_le second hk)) datagram

/-- A packet with another number is shown. -/
theorem latest_state_shown_other :
    ((RenderState.driven false).output (twoPackets 2) 203 = some (.updated (numbered 2 60) true) ∧
      ((RenderState.driven false).state (twoPackets 2) 205).shared.appliedSequence =
        (numbered 2 60).sequence) ∧
    ∃ k ok, 152 < k ∧ k < 205 ∧
      (RenderState.driven false).output (twoPackets 2) k = some (.updated (numbered 2 60) ok) := by
  have hfinishes : Finishes false (twoPackets 2) 149 (numbered 2 60) :=
    finishes_twoPackets 2 (.inr rfl)
  have hupdated : (RenderState.driven false).output (twoPackets 2) 203 =
      some (.updated (numbered 2 60) true) := updated_of_shownOf (by decide +kernel)
  have hidle : ((RenderState.driven false).state (twoPackets 2) 152).tick = .idle := by decide +kernel
  have hend : ((RenderState.driven false).state (twoPackets 2) 205).tick = .idle := by decide +kernel
  obtain ⟨honly, hnext⟩ := (latest_state_shown false (twoPackets 2)).2.2 149 205 (numbered 2 60)
    hfinishes (quiet_twoPackets 2 205)
  refine ⟨⟨hupdated, ?_⟩, ?_⟩
  · exact (honly 152 203 (numbered 2 60) true (by decide) (by decide) (by decide) hidle hupdated).2 rfl
      205 (by decide) le_rfl hend
  · have hheld : ((RenderState.driven false).state (twoPackets 2) 150).tick.held =
        some (numbered 1 30) := by decide +kernel
    refine (hnext (by decide +kernel) (fun q hq hsequence => ?_) 152 205 (by decide) (by decide) le_rfl
      hidle (by decide +kernel) hend).resolve_left fun hshown => ?_
    · cases hheld.symm.trans hq
      exact absurd hsequence (by decide +kernel)
    · exact absurd hshown.2 (by decide +kernel)

/-- The same number: the update is to a packet that no datagram of its length
    brought, and the packet that came last is never shown. -/
theorem latest_state_lost :
    (RenderState.driven false).output (twoPackets 1) 150 = some (.updated (numbered 1 30) true) ∧
    (∀ datagram ∈ receivedDatagrams false (twoPackets 1) 150,
      datagram.length = 44 → List.ofFn (numbered 1 30) ≠ datagram) ∧
    Finishes false (twoPackets 1) 149 (numbered 1 60) ∧
    ((RenderState.driven false).state (twoPackets 1) 150).shared.appliedSequence ≠
      (numbered 1 60).sequence ∧
    ∀ n, Quiet false (twoPackets 1) 150 n ∧ (150 ≤ n → ∀ ok,
      (RenderState.driven false).output (twoPackets 1) n ≠ some (.updated (numbered 1 60) ok)) := by
  have hfinishes : Finishes false (twoPackets 1) 149 (numbered 1 60) :=
    finishes_twoPackets 1 (.inl rfl)
  have hupdated : (RenderState.driven false).output (twoPackets 1) 150 =
      some (.updated (numbered 1 30) true) := updated_of_shownOf (by decide +kernel)
  refine ⟨hupdated, by decide +kernel, hfinishes, by decide +kernel, fun n =>
    ⟨quiet_twoPackets 1 n, fun hn ok hlast => ?_⟩⟩
  rcases Nat.lt_or_ge n 152 with hlt | hge
  · -- The tick under way ends.
    have hn : n = 150 ∨ n = 151 := by omega
    rcases hn with rfl | rfl
    · have hsame : RenderAct.updated (numbered 1 30) true = .updated (numbered 1 60) ok :=
        Option.some.inj (hupdated.symm.trans hlast)
      have hbytes : numbered 1 30 = numbered 1 60 := (RenderAct.updated.inj hsame).1
      exact absurd (congrFun hbytes 16) (by decide)
    · have hheld : ((RenderState.driven false).state (twoPackets 1) 151).tick.held =
          some (numbered 1 30) := by decide +kernel
      have hbytes : numbered 1 30 = numbered 1 60 :=
        Option.some.inj (hheld.symm.trans (congrArg Tick.held (tick_of_output hlast)))
      exact absurd (congrFun hbytes 16) (by decide)
  · have hrests := hfinishes.rests_of_quiet (quiet_twoPackets 1 152) (by decide) le_rfl
    have hquiet : Quiet false (twoPackets 1) 152 n := (quiet_twoPackets 1 n).mono (by decide) le_rfl
    exact hrests.not_updated hge hquiet (by decide +kernel) (by decide +kernel) _ _ hlast

end CommonFps
