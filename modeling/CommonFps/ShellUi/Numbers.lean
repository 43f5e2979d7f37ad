import CommonFps.ShellUi.Receiver

/-!
# Packets with different numbers

`apply_latest_state_on_render` takes a packet to be shown if its number is the
one applied last, which starts as `0`. Where the numbers of the packets that the
receiver stores differ, and none is `0`, that is what the number tells.

* `applied_spec`: the number applied is `0`, or that of a packet shown;
* `Finishes.shown_or_updated_of_nodup`: the packet stored last is shown, or the
  next tick gets to its update, whatever a tick under way has read;
* `Finishes.shown_of_nodup`: after that tick it is the one shown last, unless its
  update fails.
-/

namespace CommonFps

section Numbers

variable {background : Bool} {ι : ℕ → Turn} {n : ℕ}

theorem Receiver.step_applied (receiver : Receiver) (datagram : Option Bytes) (shared : Shared) :
    (receiver.step background datagram shared).2.1.appliedSequence = shared.appliedSequence := by
  cases receiver with
  | locking packet =>
    rw [Receiver.step]
    split_ifs <;> rfl
  | storing packet i =>
    rw [Receiver.step]
    split_ifs <;> rfl
  | _ => rfl

/-- The number applied is `0`, or that of a packet that was shown. -/
theorem applied_spec (background : Bool) (ι : ℕ → Turn) (n : ℕ) :
    ((RenderState.driven background).state ι n).shared.appliedSequence = 0 ∨
    ∃ q ∈ shownPackets background ι n,
      q.sequence = ((RenderState.driven background).state ι n).shared.appliedSequence := by
  induction n with
  | zero => exact .inl rfl
  | succ n ih =>
    obtain ⟨past, next, -, -, -, hhas⟩ := renderInv_state background ι n
    rw [shownPackets_succ, Driven.state_succ]
    generalize (RenderState.driven background).state ι n = s at ih hhas ⊢
    have hkept (happlied : (s.step background (ι n)).1.shared.appliedSequence =
        s.shared.appliedSequence) :
        (s.step background (ι n)).1.shared.appliedSequence = 0 ∨
          ∃ q ∈ shownPackets background ι n ++
            (shownOf ((RenderState.driven background).output ι n)).toList,
            q.sequence = (s.step background (ι n)).1.shared.appliedSequence := by
      rw [happlied]
      exact ih.imp_right fun ⟨q, hq, hsequence⟩ => ⟨q, List.mem_append_left _ hq, hsequence⟩
    rcases renderStep_cases background s (ι n) with ⟨receiver, -, hstep⟩ | hstep | ⟨-, -, hstep⟩
    · by_cases ht : ∃ q, s.tick = .applying q
      · -- The packet shown last is the one whose number is applied.
        obtain ⟨q, hq⟩ := ht
        rw [hq] at hhas
        refine .inr ⟨q, List.mem_append_left _ (List.mem_of_getLast? hhas.2), ?_⟩
        change q.sequence = (s.step background (ι n)).1.shared.appliedSequence
        rw [hstep]
        change q.sequence = (s.tick.step (ι n).ok s.shared).2.1.appliedSequence
        rw [hq]
        rfl
      · push Not at ht
        refine hkept ?_
        rw [hstep]
        exact Tick.step_applied _ ht
    · exact hkept (by rw [hstep])
    · refine hkept ?_
      rw [hstep]
      exact s.receiver.step_applied _ _

/-- The packet that a tick has read was stored, and not shown before another one. -/
theorem Tick.Has.of_held {past next shown : List PacketBytes} {applied : UInt64} {tick : Tick}
    {q : PacketBytes} (h : tick.Has past next shown applied) (hq : tick.held = some q) :
    q ∈ next ∨ past.getLast? = some q := by
  cases tick with
  | checking sequence copy =>
    cases hq
    exact h.2.2
  | updating copy =>
    cases hq
    exact .inl h.2
  | applying copy =>
    cases hq
    exact .inr h.1
  | _ => cases hq

/-- A part of a list that has its last packet ends with it. -/
theorem getLast?_of_sublist {l past : List PacketBytes} {p : PacketBytes} (h : l.Sublist past)
    (hnodup : past.Nodup) (hlast : past.getLast? = some p) (hp : p ∈ l) : l.getLast? = some p := by
  obtain ⟨init, rfl⟩ := List.getLast?_eq_some_iff.1 hlast
  obtain ⟨l₁, l₂, rfl, h₁, h₂⟩ := List.sublist_append_iff.1 h
  rcases List.mem_append.1 hp with hp | hp
  · exact (List.disjoint_of_nodup_append hnodup (h₁.subset hp) (List.mem_singleton_self p)).elim
  · rcases List.sublist_singleton.1 h₂ with rfl | rfl
    · cases hp
    · exact List.getLast?_concat

namespace Finishes

variable {m : ℕ} {p : PacketBytes} (h : Finishes background ι m p)

include h in
/-- The packet stored last was received. -/
theorem mem_accepted : p ∈ acceptedPackets background ι (m + 1) := by
  obtain ⟨past, next, haccepted, -, hshares, -⟩ := renderInv_state background ι m
  have hcontent := hshares.content
  rw [h.1] at hcontent
  rw [acceptedPackets_succ, haccepted]
  exact List.mem_append_left _ (List.mem_append_left _ (List.mem_of_getLast? hcontent.2))

variable (hnodup : ((acceptedPackets background ι (m + 1)).map PacketBytes.sequence).Nodup)
  (hne : p.sequence ≠ 0)
include h hnodup hne

theorem showsLatest_of_nodup :
    ShowsLatest p (shownPackets background ι (m + 1))
      ((RenderState.driven background).state ι (m + 1)).tick
      ((RenderState.driven background).state ι (m + 1)).shared := by
  have hrests := h.rests
  obtain ⟨past, next, haccepted, hshown, hshares, hhas⟩ := renderInv_state background ι (m + 1)
  have hpending : ((RenderState.driven background).state ι (m + 1)).receiver.pending = [] := by
    rcases hrests.receiver with hr | hr <;> rw [hr] <;> rfl
  have hstoring : ¬((RenderState.driven background).state ι (m + 1)).receiver.IsStoring := by
    rcases hrests.receiver with hr | hr <;> rw [hr] <;> exact id
  rw [hpending, List.append_nil] at haccepted
  have hlatest : latest (past ++ next) = p :=
    (hshares.content.of_not_storing hstoring).symm.trans hrests.stored.packet
  have hlast : (past ++ next).getLast? = some p :=
    hlatest ▸ latest_mem (hshares.havePacket hrests.stored.havePacket)
  have heq {q : PacketBytes} (hq : q ∈ past ++ next) (hsequence : q.sequence = p.sequence) : q = p :=
    List.inj_on_of_nodup_map hnodup (haccepted ▸ hq) (haccepted ▸ List.mem_of_getLast? hlast) hsequence
  by_cases happlied :
      ((RenderState.driven background).state ι (m + 1)).shared.appliedSequence = p.sequence
  · -- The packet that the number belongs to is the last one, so nothing comes after it.
    obtain hzero | ⟨q, hq, hsequence⟩ := applied_spec background ι (m + 1)
    · exact absurd (happlied.symm.trans hzero) hne
    obtain rfl := heq (List.mem_append_left _ (hshown.subset hq)) (hsequence.trans happlied)
    obtain rfl : next = [] := by
      by_contra hnext
      have hmem : q ∈ next := by
        rw [List.getLast?_append_of_ne_nil _ hnext] at hlast
        exact List.mem_of_getLast? hlast
      exact (List.disjoint_of_nodup_append (haccepted ▸ hnodup.of_map)) (hshown.subset hq) hmem
    rw [List.append_nil] at hlast haccepted
    have hshows := getLast?_of_sublist hshown (haccepted ▸ hnodup.of_map) hlast hq
    have hpast {r : PacketBytes} (hr : past.getLast? = some r) : r = q :=
      Option.some.inj (hr.symm.trans hlast)
    refine ⟨fun sequence copy i ht j hj => ?_, fun r hr => .inl ?_, fun r ht => ?_, fun _ => hshows⟩
    · rw [ht] at hhas
      rw [hhas.2.2.2.2 j hj, hlatest]
    · have hlast' := (hhas.of_held hr).resolve_left List.not_mem_nil
      exact Option.some.inj (hlast'.symm.trans hlast)
    · rw [ht] at hhas
      exact hhas.2
  · -- A tick under way has read a packet that was received.
    refine h.showsLatest happlied fun q hq hsequence => heq ?_ hsequence
    rcases hhas.of_held hq with hmem | hmem
    · exact List.mem_append_right _ hmem
    · exact List.mem_append_left _ (List.mem_of_getLast? hmem)

/-- If all numbers differ, the packet is shown, or the next tick gets to its update. -/
theorem shown_or_updated_of_nodup {n : ℕ} (hquiet : Quiet background ι (m + 1) n) {b j : ℕ}
    (hb : m < b) (hbj : b < j) (hjn : j ≤ n)
    (hidle : ((RenderState.driven background).state ι b).tick = .idle)
    (hbegun : ((RenderState.driven background).state ι (b + 1)).tick ≠ .idle)
    (hend : ((RenderState.driven background).state ι j).tick = .idle) :
    (shownPackets background ι b).getLast? = some p ∨
      ∃ k ok, b < k ∧ k < j ∧ (RenderState.driven background).output ι k = some (.updated p ok) := by
  have hshows := h.showsLatest_of_nodup hnodup hne
  by_cases happlied :
      ((RenderState.driven background).state ι (m + 1)).shared.appliedSequence = p.sequence
  · -- The number stays applied, as only the packet itself is read under it.
    obtain ⟨-, happlied', hshows'⟩ := h.rests.window (P := fun shown tick shared =>
        shared.appliedSequence = p.sequence ∧ ShowsLatest p shown tick shared)
      hb (hquiet.mono le_rfl (hbj.le.trans hjn)) ⟨happlied, hshows⟩ fun shown tick shared ok hstored h => by
        obtain ⟨happlied, hshows⟩ := h
        refine ⟨?_, hshows.step hstored ok⟩
        by_cases ht : ∃ q, tick = .applying q
        · obtain ⟨q, rfl⟩ := ht
          obtain rfl := (hshows.held q rfl).resolve_right fun hne => hne.2 happlied
          rfl
        · push Not at ht
          rw [Tick.step_applied ok ht, happlied]
    exact .inl (hshows'.applied happlied')
  · exact (h.shown_or_updated hquiet happlied (fun q hq hsequence => (hshows.held q hq).resolve_right
      fun hother => hother.1 hsequence) hb hbj hjn hidle hbegun hend).imp_left And.left

/-- Unless an update to it fails, the packet is the one shown last. -/
theorem shown_of_nodup {n : ℕ} (hquiet : Quiet background ι (m + 1) n) {b j : ℕ}
    (hb : m < b) (hbj : b < j) (hjn : j ≤ n)
    (hidle : ((RenderState.driven background).state ι b).tick = .idle)
    (hbegun : ((RenderState.driven background).state ι (b + 1)).tick ≠ .idle)
    (hend : ((RenderState.driven background).state ι j).tick = .idle) :
    (∃ k, b < k ∧ k < j ∧ (RenderState.driven background).output ι k = some (.updated p false)) ∨
      (shownPackets background ι j).getLast? = some p := by
  have hstays {k : ℕ} (hbk : b ≤ k) (hkj : k ≤ j)
      (hlast : (shownPackets background ι k).getLast? = some p) :
      (shownPackets background ι j).getLast? = some p := by
    refine Driven.invariant_from (d := RenderState.driven background) (ι := ι)
      (P := fun i _ => (shownPackets background ι i).getLast? = some p) hkj hlast fun i hki hij ih => ?_
    rw [shownPackets_succ]
    cases hshown : shownOf ((RenderState.driven background).output ι i) with
    | none => rw [Option.toList_none, List.append_nil, ih]
    | some q =>
      have hupdated := updated_of_shownOf hshown
      obtain ⟨rfl, -⟩ := h.updated_eq hquiet hb (hbk.trans hki) (hij.trans_le hjn) hidle hupdated
      exact List.getLast?_concat
  rcases h.shown_or_updated_of_nodup hnodup hne hquiet hb hbj hjn hidle hbegun hend with
    hlast | ⟨k, ok, hbk, hkj, hupdated⟩
  · exact .inr (hstays le_rfl hbj.le hlast)
  · cases ok with
    | false => exact .inl ⟨k, hbk, hkj, hupdated⟩
    | true =>
      refine .inr (hstays (hbk.le.trans k.le_succ) hkj ?_)
      rw [shownPackets_succ, hupdated]
      exact List.getLast?_concat

end Finishes

end Numbers

end CommonFps
