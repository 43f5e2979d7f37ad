import CommonFps.Lib.Locked

/-!
# Session logs

The log of a session (`session_log.hpp`): every message opens the file anew,
takes its lock, and appends what still fits under the limit, so that the earliest
lines are those that survive.

* `SessionLog.act`: a call of `write_session_log`, one system call after the
  other, with any answers; `writeSessionLog`: any number of writers on one path;
* `SessionLog.expected`: what the file is for, the log of a sequence of calls;
* `fails`: what it is for a system call to fail, in terms of its answer;
* `todo`: how much of a call is left, which decreases with every answer that is no
  failure and no interruption;
* `session_log_kept`: through any interleaving, with any partial writes and
  failures, the file stays under its limit, is changed by appending prefixes only,
  and without failures is the expected log of the calls in the order of the lock.
-/

namespace CommonFps

/-- The limit on the size of the log. -/
def kSessionLogLimit : ℕ := 64 * 1024

namespace SessionLog

/-- The arguments of a call of `write_session_log`. -/
structure Call where
  data : List UInt8
  reset : Bool := false
  durable : Bool := false
  deriving DecidableEq

/-- `reset_session_log`. -/
def resetSessionLog : Call := { data := [], reset := true }

/-- `log_message_v`, for the text that its format and arguments stand for: the
    buffer of 2048 bytes has room for a line break and a final zero. -/
def logMessageV (text : List UInt8) (durable : Bool) : Call :=
  { data := text.take (2048 - 2) ++ [0x0A], durable }

/-- A system call returns, for `write` with a number of bytes, or fails. -/
inductive Answer
  | done (bytes : ℕ)
  | interrupted
  | error
  deriving DecidableEq

/-- The system call succeeded. -/
def Answer.ok : Answer → Bool
  | .done _ => true
  | _ => false

/-- A call of the log begins, or a system call is answered. -/
inductive Event
  | call (c : Call)
  | answer (a : Answer)
  deriving DecidableEq

/-- A system call does its work. -/
def Event.done : Event → Bool
  | .call _ => false
  | .answer a => a.ok

/-- Where a writer is in `write_session_log`; in `writing` the pointer `data` is at
    `pos` and `size` bytes are left, in `closing` the lock is `kept` if it could not
    be released. -/
inductive Phase
  | idle
  | opening (c : Call)
  | locking (c : Call)
  | locked (c : Call)
  | sizing (c : Call)
  | writing (c : Call) (pos size : ℕ)
  | syncing (c : Call)
  | unlocking
  | closing (kept : Bool)
  deriving DecidableEq

/-- What a step does besides appending to the file. -/
inductive Output
  | locked (c : Call)
  | truncated (c : Call)
  | failed
  | quiet
  deriving DecidableEq

/-- The file, `none` while there is none on the path. -/
abbrev File := Option (List UInt8)

/-- The bytes of the file; a missing one has none. -/
def content (file : File) : List UInt8 := file.getD []

/-- After `fstat`, with the size of the file: what is still free under the limit. -/
def sized (c : Call) (stSize : ℕ) : Phase :=
  if stSize < kSessionLogLimit then .writing c 0 (min c.data.length (kSessionLogLimit - stSize))
  else .syncing c

/-- After `write` was asked for `size` bytes, not none. -/
def wrote (c : Call) (pos size : ℕ) (file : File) : Answer → Phase × File × Output
  | .done 0 => (.syncing c, file, .failed)
  | .done n =>
    (.writing c (pos + min n size) (size - min n size),
      some (content file ++ (c.data.drop pos).take (min n size)), .quiet)
  | .interrupted => (.writing c pos size, file, .quiet)
  | .error => (.syncing c, file, .failed)

/-- The next step of a writer, given the answer of its system call. -/
def answer (phase : Phase) (file : File) (a : Answer) : Phase × File × Output :=
  match phase with
  | .idle => (.idle, file, .quiet)
  | .opening c =>
    if a.ok then (.locking c, some (content file), .quiet) else (.idle, file, .failed)
  | .locking c =>
    if a.ok then (.locked c, file, .locked c)
    else if a = .interrupted then (.locking c, file, .quiet)
    else (.closing false, file, .failed)
  | .locked c =>
    if c.reset = false then (.sizing c, file, .quiet)
    else if a.ok then (.sizing c, some [], .truncated c)
    else (.unlocking, file, .failed)
  | .sizing c =>
    if a.ok then (sized c (content file).length, file, .quiet) else (.unlocking, file, .failed)
  | .writing c pos size =>
    if size ≠ 0 then wrote c pos size file a else (.syncing c, file, .quiet)
  | .syncing c => (.unlocking, file, if c.durable ∧ ¬a.ok then .failed else .quiet)
  | .unlocking => if a.ok then (.closing false, file, .quiet) else (.closing true, file, .failed)
  -- The last descriptor of the lock is gone, whatever `close` says.
  | .closing _ => (.idle, file, if a.ok then .quiet else .failed)

/-- The system call that a writer makes in a phase, if it makes one, fails: it neither
    does its work, as a `write` of nothing does not, nor is it a `flock` or a
    `write` that is interrupted. -/
def fails : Phase → Event → Bool
  | _, .call _ | .idle, _ => false
  | .locking _, .answer a => a = .error
  | .locked c, .answer a => c.reset && !a.ok
  | .writing _ _ size, .answer a => size ≠ 0 && (a = .error || a = .done 0)
  | .syncing c, .answer a => c.durable && !a.ok
  | .opening _, .answer a | .sizing _, .answer a | .unlocking, .answer a | .closing _, .answer a => !a.ok

/-- A step of a writer: an idle one begins a call. -/
def act (phase : Phase) (file : File) : Event → Phase × File × Output
  | .call c => (if phase = .idle then .opening c else phase, file, .quiet)
  | .answer a => answer phase file a

/-- The phases between `flock` and the release of the lock. -/
def holds : Phase → Bool
  | .idle | .opening _ | .locking _ | .closing false => false
  | _ => true

/-- The phases in which a call does not write, or will not any more. -/
def Neutral : Phase → Prop
  | .locked _ | .sizing _ | .writing _ _ _ => False
  | _ => True

theorem neutral_of_holds : ∀ {l : Phase}, holds l = false → Neutral l
  | .idle, _ | .opening _, _ | .locking _, _ | .closing _, _ => trivial

/-- What a step can do: move between neutral phases, take the lock, reset the file
    or keep it, learn its size, append, stop when everything is written, stay, or
    fail. -/
inductive Step : Phase → File → Phase → File → Output → Prop
  | neutral {l l' file file' o} (hl : Neutral l) (hl' : Neutral l')
      (hfile : content file' = content file) (ho : o = .quiet ∨ o = .failed) :
      Step l file l' file' o
  | acquire (c file) : Step (.locking c) file (.locked c) file (.locked c)
  | reset {c} (hc : c.reset = true) (file) :
      Step (.locked c) file (.sizing c) (some []) (.truncated c)
  | keep {c} (hc : c.reset = false) (file) : Step (.locked c) file (.sizing c) file .quiet
  | size (c file) : Step (.sizing c) file (sized c (content file).length) file .quiet
  | write {n size : ℕ} (c pos file) (hn : n ≤ size) :
      Step (.writing c pos size) file (.writing c (pos + n) (size - n))
        (some (content file ++ (c.data.drop pos).take n)) .quiet
  | written (c pos file) : Step (.writing c pos 0) file (.syncing c) file .quiet
  | stay (l file) : Step l file l file .quiet
  | fail {l'} (l file) (hl' : Neutral l') : Step l file l' file .failed

theorem answer_step (l : Phase) (file : File) (a : Answer) :
    Step l file (answer l file a).1 (answer l file a).2.1 (answer l file a).2.2 := by
  cases l with
  | idle => exact .stay ..
  | opening c =>
    simp only [answer]
    split_ifs
    · exact .neutral trivial trivial rfl (.inl rfl)
    · exact .fail _ _ trivial
  | locking c =>
    simp only [answer]
    split_ifs
    · exact .acquire ..
    · exact .stay ..
    · exact .fail _ _ trivial
  | locked c =>
    simp only [answer]
    split_ifs with hc
    · exact .keep hc _
    · exact .reset (by simpa using hc) _
    · exact .fail _ _ trivial
  | sizing c =>
    simp only [answer]
    split_ifs
    · exact .size ..
    · exact .fail _ _ trivial
  | writing c pos size =>
    simp only [answer]
    split_ifs with hsize
    · cases a with
      | done n =>
        cases n with
        | zero => exact .fail _ _ trivial
        | succ n => exact .write _ _ _ (min_le_right _ _)
      | interrupted => exact .stay ..
      | error => exact .fail _ _ trivial
    · -- Nothing is left to write.
      obtain rfl : size = 0 := by simpa using hsize
      exact .written ..
  | syncing c =>
    refine .neutral trivial trivial rfl ?_
    simp only [answer]
    split_ifs
    · exact .inr rfl
    · exact .inl rfl
  | unlocking =>
    simp only [answer]
    split_ifs
    · exact .neutral trivial trivial rfl (.inl rfl)
    · exact .fail _ _ trivial
  | closing kept =>
    simp only [answer]
    split_ifs
    · exact .neutral trivial trivial rfl (.inl rfl)
    · exact .fail _ _ trivial

theorem act_step (l : Phase) (file : File) (e : Event) :
    Step l file (act l file e).1 (act l file e).2.1 (act l file e).2.2 := by
  cases e with
  | call c =>
    rw [act]
    split_ifs with hl
    · subst hl
      exact .neutral trivial trivial rfl (.inl rfl)
    · exact .stay ..
  | answer a => exact answer_step l file a

/-- A step whose system call does not fail goes on. -/
theorem act_ne_failed {l : Phase} {e : Event} (file : File) (h : fails l e = false) :
    (act l file e).2.2 ≠ .failed := by
  cases e with
  | call c => nofun
  | answer a =>
    rw [act]
    cases l with
    | idle => nofun
    | opening c | sizing c | unlocking | closing kept =>
      have hok : a.ok = true := by simpa [fails] using h
      simp [answer, hok]
    | locking c =>
      cases a with
      | error => cases h
      | done _ | interrupted => nofun
    | locked c =>
      cases hc : c.reset with
      | false => simp [answer, hc]
      | true =>
        have hok : a.ok = true := by simpa [fails, hc] using h
        simp [answer, hc, hok]
    | writing c pos size =>
      by_cases hsize : size = 0
      · simp [answer, hsize]
      · obtain ⟨herror, hzero⟩ : a ≠ .error ∧ a ≠ .done 0 := by simpa [fails, hsize] using h
        rcases a with (_ | n) | _ | _
        · exact absurd rfl hzero
        · simp [answer, hsize, wrote]
        · simp [answer, hsize, wrote]
        · exact absurd rfl herror
    | syncing c =>
      cases hc : c.durable with
      | false => simp [answer, hc]
      | true =>
        have hok : a.ok = true := by simpa [fails, hc] using h
        simp [answer, hok]

/-- How many system calls, at most, a writer has still to make before it returns. -/
def todo : Phase → ℕ
  | .idle => 0
  | .closing _ => 1
  | .unlocking => 2
  | .syncing _ => 3
  | .writing _ _ size => 4 + size
  | .sizing c => 5 + c.data.length
  | .locked c => 6 + c.data.length
  | .locking c => 7 + c.data.length
  | .opening c => 8 + c.data.length

/-- A step of a call that does not fail leaves less to do, or as much if it is
    interrupted. -/
theorem todo_act {l : Phase} {e : Event} (file : File) (h : fails l e = false) (hl : l ≠ .idle) :
    todo (act l file e).1 + (if e.done then 1 else 0) ≤ todo l := by
  cases e with
  | call c => simp [act, hl, Event.done]
  | answer a =>
    rw [act, Event.done]
    cases l with
    | idle => exact absurd rfl hl
    | opening c | unlocking | closing kept =>
      have hok : a.ok = true := by simpa [fails] using h
      simp [answer, hok, todo]
    | sizing c =>
      have hok : a.ok = true := by simpa [fails] using h
      simp only [answer, hok, if_true, sized]
      split_ifs <;> simp [todo] <;> omega
    | locking c =>
      cases a with
      | error => cases h
      | done _ => simp [answer, Answer.ok, todo]
      | interrupted => simp [answer, Answer.ok, todo]
    | locked c =>
      cases hc : c.reset with
      | false =>
        simp only [answer, hc, if_true, todo]
        split_ifs <;> omega
      | true =>
        have hok : a.ok = true := by simpa [fails, hc] using h
        simp [answer, hc, hok, todo]
    | writing c pos size =>
      by_cases hsize : size = 0
      · simp only [answer, hsize, ne_eq, not_true_eq_false, if_false, todo]
        split_ifs <;> omega
      · obtain ⟨herror, hzero⟩ : a ≠ .error ∧ a ≠ .done 0 := by simpa [fails, hsize] using h
        rcases a with (_ | n) | _ | _
        · exact absurd rfl hzero
        · simp only [answer, hsize, ne_eq, not_false_eq_true, if_true, wrote, todo]
          split_ifs <;> omega
        · simp [answer, hsize, wrote, Answer.ok, todo]
        · exact absurd rfl herror
    | syncing c =>
      simp only [answer, todo]
      split_ifs <;> omega

/-- What a step outside of any session does, no session can see. -/
theorem Step.outside {l l' : Phase} {file file' : File} {o : Output} (h : Step l file l' file' o)
    (hl : holds l = false) (hl' : holds l' = false) :
    content file' = content file ∧ (o = .quiet ∨ o = .failed) := by
  cases h with
  | neutral _ _ hfile ho => exact ⟨hfile, ho⟩
  | stay => exact ⟨rfl, .inl rfl⟩
  | fail => exact ⟨rfl, .inr rfl⟩
  | acquire => cases hl'
  | reset | keep | size | write | written => cases hl

theorem Step.of_locked {l l' : Phase} {file file' : File} {c : Call}
    (h : Step l file l' file' (.locked c)) : l' = .locked c ∧ file' = file := by
  cases h with
  | neutral _ _ _ ho => simp at ho
  | acquire => exact ⟨rfl, rfl⟩

/-- The file is changed by a reset, or by bytes appended to it. -/
theorem Step.grows {l l' : Phase} {file file' : File} {o : Output} (h : Step l file l' file' o) :
    content file <+: content file' ∨
      (∃ c : Call, c.reset = true ∧ o = .truncated c) ∧ content file' = [] := by
  cases h with
  | neutral _ _ hfile _ => exact .inl (by rw [hfile])
  | reset hc _ => exact .inr ⟨⟨_, hc, rfl⟩, rfl⟩
  | write => exact .inl (List.prefix_append _ _)
  | _ => exact .inl (List.prefix_refl _)

/-! ## The log of a sequence of calls -/

/-- What a sequence of calls writes since the last reset. -/
def sinceReset (cs : List Call) : List UInt8 :=
  cs.foldl (fun kept c => (if c.reset then [] else kept) ++ c.data) []

/-- What the file keeps of it: the beginning. -/
def expected (cs : List Call) : List UInt8 := (sinceReset cs).take kSessionLogLimit

theorem sinceReset_concat (cs : List Call) (c : Call) :
    sinceReset (cs ++ [c]) = (if c.reset then [] else sinceReset cs) ++ c.data := by
  rw [sinceReset, List.foldl_append]
  rfl

/-- The next call sees what is kept of the calls before it, which is enough. -/
theorem expected_concat (cs : List Call) (c : Call) :
    expected (cs ++ [c]) =
      ((if c.reset then [] else expected cs) ++ c.data).take kSessionLogLimit := by
  rw [expected, sinceReset_concat]
  split_ifs
  · rfl
  · rw [expected, List.take_append, List.take_append, List.take_take, Nat.min_self,
      List.length_take]
    congr 2
    omega

end SessionLog

open SessionLog

/-- The writers of one path, each of which opens the file for itself. -/
def writeSessionLog : Locked Phase File Event Output where
  idle := .idle
  holds := holds
  holds_idle := rfl
  act := act

namespace SessionLog

/-- A condition on the phase of the holder and the content of the file, which in
    neutral phases says nothing of the phase. -/
theorem local_of_neutral {J : Phase → List UInt8 → Prop}
    (h : ∀ l text, Neutral l → (J l text ↔ J .idle text)) :
    writeSessionLog.Local fun l file => J l (content file) :=
  fun _ _ hl => h _ _ (neutral_of_holds hl)

theorem turns_of_step {J J' : Phase → List UInt8 → Prop} {l : Phase} {file : File} {e : Event}
    (hown : J l (content file) → J' (act l file e).1 (content (act l file e).2.1))
    (hframe : (act l file e).2.2 = .quiet ∨ (act l file e).2.2 = .failed →
      ∀ l text, J l text → J' l text) :
    writeSessionLog.Turns (fun l file => J l (content file)) (fun l file => J' l (content file))
      l file e where
  own := hown
  frame hl hl' l₂ h := by
    obtain ⟨hfile, hout⟩ := (act_step l file e).outside hl hl'
    have hafter := hframe hout l₂ _ h
    rwa [← hfile] at hafter

/-! ## What holds inside of a call -/

/-- What is in the file and what is going to be written fit under the limit. -/
def Bounded : Phase → List UInt8 → Prop
  | .writing _ _ size, text => text.length + size ≤ kSessionLogLimit
  | _, text => text.length ≤ kSessionLogLimit

theorem Bounded.length_le {l : Phase} {text : List UInt8} (h : Bounded l text) :
    text.length ≤ kSessionLogLimit := by
  cases l with
  | writing c pos size => exact le_trans (Nat.le_add_right _ _) h
  | _ => exact h

theorem bounded_neutral (l : Phase) (text : List UInt8) (hl : Neutral l) :
    Bounded l text ↔ Bounded .idle text := by
  cases l with
  | locked | sizing | writing => exact hl.elim
  | _ => exact Iff.rfl

theorem Bounded.step {l l' : Phase} {file file' : File} {o : Output}
    (hs : Step l file l' file' o) (h : Bounded l (content file)) : Bounded l' (content file') := by
  cases hs with
  | neutral _ hl' hfile _ => exact (bounded_neutral _ _ hl').2 (hfile ▸ h.length_le)
  | reset => exact Nat.zero_le _
  | size =>
    have hlen := h.length_le
    rw [sized]
    split_ifs with hfree
    · show (content file).length + min _ _ ≤ kSessionLogLimit
      omega
    · exact hlen
  | @write n size c pos file hn =>
    show (content file ++ (c.data.drop pos).take n).length + (size - n) ≤ kSessionLogLimit
    have hsize : (content file).length + size ≤ kSessionLogLimit := h
    have htake := List.length_take_le n (c.data.drop pos)
    rw [List.length_append]
    omega
  | written => exact h.length_le
  | fail _ _ hl' => exact (bounded_neutral _ _ hl').2 h.length_le
  | _ => exact h

/-- The file is what it was when the call took the lock, or empty if the call
    resets it, and a prefix of the data of the call. -/
def Appended (c : Call) (base text : List UInt8) : Prop :=
  ∃ kept written, (kept = base ∨ c.reset = true ∧ kept = []) ∧ written <+: c.data ∧
    text = kept ++ written

/-- A call on its way, from when it takes the lock with `base` in the file to when
    another one does. -/
def Appending (c : Call) (base : List UInt8) : Phase → List UInt8 → Prop
  | .locked c', text => c' = c ∧ text = base
  | .sizing c', text => c' = c ∧ (text = base ∨ c.reset = true ∧ text = [])
  | .writing c' pos size, text => c' = c ∧ pos + size ≤ c.data.length ∧
    ∃ kept, (kept = base ∨ c.reset = true ∧ kept = []) ∧ text = kept ++ c.data.take pos
  | _, text => Appended c base text

variable {c : Call} {base : List UInt8}

theorem Appending.appended {l : Phase} {text : List UInt8} (h : Appending c base l text) :
    Appended c base text := by
  cases l with
  | locked => exact ⟨base, [], .inl rfl, List.nil_prefix, by simp [h.2]⟩
  | sizing => exact ⟨text, [], h.2, List.nil_prefix, by simp⟩
  | writing c' pos size =>
    obtain ⟨-, -, kept, hkept, htext⟩ := h
    exact ⟨kept, c.data.take pos, hkept, List.take_prefix _ _, htext⟩
  | _ => exact h

theorem appending_neutral (l : Phase) (text : List UInt8) (hl : Neutral l) :
    Appending c base l text ↔ Appending c base .idle text := by
  cases l with
  | locked | sizing | writing => exact hl.elim
  | _ => exact Iff.rfl

theorem Appending.step {l l' : Phase} {file file' : File} {o : Output}
    (hs : Step l file l' file' o) (hno : ∀ c, o ≠ .locked c)
    (h : Appending c base l (content file)) : Appending c base l' (content file') := by
  cases hs with
  | neutral _ hl' hfile _ => exact (appending_neutral _ _ hl').2 (hfile ▸ h.appended)
  | acquire => exact absurd rfl (hno _)
  | reset hc =>
    obtain ⟨rfl, -⟩ := h
    exact ⟨rfl, .inr ⟨hc, rfl⟩⟩
  | keep => exact ⟨h.1, .inl h.2⟩
  | size =>
    obtain ⟨rfl, hbase⟩ := h
    rw [sized]
    split_ifs
    · exact ⟨rfl, by rw [Nat.zero_add]; exact min_le_left _ _, _, hbase, by simp⟩
    · exact ⟨_, [], hbase, List.nil_prefix, by simp⟩
  | @write n size _ pos file hn =>
    obtain ⟨rfl, hlen, kept, hkept, htext⟩ := h
    refine ⟨rfl, by omega, kept, hkept, ?_⟩
    rw [htext, List.take_add, ← List.append_assoc]
    rfl
  | written => exact h.appended
  | stay => exact h
  | fail _ _ hl' => exact (appending_neutral _ _ hl').2 h.appended

/-- After the calls `cs` took the lock, and without failures: the file is on its
    way to the log expected of them. -/
def Logged (cs : List Call) : Phase → List UInt8 → Prop
  | .locked c, text => ∃ before, cs = before ++ [c] ∧ text = expected before
  | .sizing c, text =>
    ∃ before, cs = before ++ [c] ∧ text = if c.reset then [] else expected before
  | .writing c pos size, text => text ++ (c.data.drop pos).take size = expected cs
  | _, text => text = expected cs

theorem logged_neutral (cs : List Call) (l : Phase) (text : List UInt8) (hl : Neutral l) :
    Logged cs l text ↔ Logged cs .idle text := by
  cases l with
  | locked | sizing | writing => exact hl.elim
  | _ => exact Iff.rfl

/-- The call that an output says took the lock. -/
def lockOrder : Option Output → Option Call
  | some (.locked c) => some c
  | _ => none

theorem Logged.step {cs : List Call} {l l' : Phase} {file file' : File} {o : Output}
    (hs : Step l file l' file' o) (hok : o ≠ .failed) (h : Logged cs l (content file)) :
    Logged (cs ++ (lockOrder (some o)).toList) l' (content file') := by
  cases hs with
  | neutral hl hl' hfile ho =>
    obtain rfl := ho.resolve_right hok
    rw [hfile]
    simpa [lockOrder] using (logged_neutral cs _ _ hl').2 ((logged_neutral cs _ _ hl).1 h)
  | acquire => exact ⟨cs, rfl, h⟩
  | reset hc =>
    obtain ⟨before, rfl, -⟩ := h
    exact ⟨before, by simp [lockOrder], by simp [hc, content]⟩
  | keep hc =>
    obtain ⟨before, rfl, htext⟩ := h
    exact ⟨before, by simp [lockOrder], by simp [hc, htext]⟩
  | size c file =>
    obtain ⟨before, rfl, htext⟩ := h
    have hexpected : expected (before ++ [c]) = (content file ++ c.data).take kSessionLogLimit := by
      rw [expected_concat, htext]
    have hle : (content file).length ≤ kSessionLogLimit := by
      rw [htext]
      split_ifs
      · exact Nat.zero_le _
      · exact List.length_take_le _ _
    simp only [lockOrder, Option.toList_none, List.append_nil, sized]
    split_ifs with hfree
    · -- The free space, or all of the data if it is less.
      show content file ++ (c.data.drop 0).take (min _ _) = _
      rw [hexpected, List.take_append, List.take_of_length_le hle, List.drop_zero, Nat.min_comm,
        ← List.take_take, List.take_length]
    · show content file = _
      rw [hexpected, List.take_append, List.take_of_length_le hle,
        Nat.sub_eq_zero_of_le (Nat.le_of_not_lt hfree), List.take_zero, List.append_nil]
  -- A partial write: what was written and what is left make up what was to be written.
  | @write n size c pos file hn =>
    have htext : content file ++ (c.data.drop pos).take size = expected cs := h
    obtain ⟨rest, rfl⟩ := Nat.exists_eq_add_of_le hn
    simp only [lockOrder, Option.toList_none, List.append_nil]
    show content file ++ (c.data.drop pos).take n ++ (c.data.drop (pos + n)).take (n + rest - n) = _
    rw [Nat.add_sub_cancel_left, ← htext, List.take_add, List.drop_drop, List.append_assoc]
  | written => simpa [lockOrder, Logged] using h
  | stay => simpa [lockOrder] using h
  | fail => exact absurd rfl hok

/-! ## Runs -/

/-- The writers `W` of a path, on which initially there is no file, or an empty one. -/
def sessionLog (W : Type*) [DecidableEq W] (present : Bool) :
    Driven (Locked.State W Phase File) (W × Event) (Option Output) :=
  writeSessionLog.system W (if present then some [] else none)

variable {W : Type*} [DecidableEq W] (present : Bool) (ι : ℕ → W × Event)

/-- What is in the file before the step `n`. -/
def text (n : ℕ) : List UInt8 := content ((sessionLog W present).state ι n).resource

/-- A step of a run waits, or is one of those that a writer can do. -/
theorem output_cases (n : ℕ) :
    (sessionLog W present).output ι n = none ∧
      (sessionLog W present).state ι (n + 1) = (sessionLog W present).state ι n ∨
    ∃ l l' file' o, Step l ((sessionLog W present).state ι n).resource l' file' o ∧
      (sessionLog W present).output ι n = some o ∧
      (sessionLog W present).state ι (n + 1) =
        writeSessionLog.moved ((sessionLog W present).state ι n) (ι n).1 l' file' := by
  rcases Locked.step_cases (p := writeSessionLog) ((sessionLog W present).state ι n) (ι n)
    with hstep | ⟨-, hstep⟩
  · exact .inl ⟨congrArg Prod.snd hstep, congrArg Prod.fst hstep⟩
  · exact .inr ⟨_, _, _, _, act_step .., congrArg Prod.snd hstep, congrArg Prod.fst hstep⟩

variable {present ι}

theorem text_length_le (n : ℕ) : (text present ι n).length ≤ kSessionLogLimit := by
  have hguard := Locked.guarded_from (p := writeSessionLog)
    (fun _ l file => Bounded l (content file)) (if present then some [] else none) ι n.zero_le
    (fun _ => local_of_neutral bounded_neutral)
    (Locked.guarded_init (by cases present <;> exact Nat.zero_le _)) (fun _ _ _ _ _ _ h => h)
    fun _ _ _ l file e _ => turns_of_step (fun h => h.step (act_step l file e)) fun _ _ _ h => h
  exact hguard.resource fun _ _ h => h.length_le

/-- As long as no reset truncates the file, what is in it stays. -/
theorem text_prefix {m n : ℕ} (hmn : m ≤ n)
    (hno : ∀ k c, m ≤ k → k < n → c.reset = true →
      (sessionLog W present).output ι k ≠ some (.truncated c)) :
    text present ι m <+: text present ι n := by
  induction n, hmn using Nat.le_induction with
  | base => exact List.prefix_refl _
  | succ n hmn ih =>
    refine (ih fun k c hk hkn => hno k c hk (hkn.trans n.lt_succ_self)).trans ?_
    rcases output_cases present ι n with ⟨-, hstate⟩ | ⟨_, _, _, o, hs, hout, hstate⟩
    · rw [text, text, hstate]
    · rw [text, text, hstate]
      rcases hs.grows with hgrows | ⟨⟨c, hc, rfl⟩, -⟩
      · exact hgrows
      · exact absurd hout (hno n c hmn n.lt_succ_self hc)

/-- From the step in which a call takes the lock to the next such step, a prefix
    of its data is appended. -/
theorem text_appended {m n : ℕ} {c : Call} (hmn : m < n)
    (hm : (sessionLog W present).output ι m = some (.locked c))
    (hno : ∀ k c', m < k → k < n → (sessionLog W present).output ι k ≠ some (.locked c')) :
    Appended c (text present ι m) (text present ι n) := by
  have hguard := Locked.guarded_from (p := writeSessionLog)
    (fun _ l file => Appending c (text present ι m) l (content file))
    (if present then some [] else none) ι
    (Nat.succ_le_of_lt hmn) (fun _ => local_of_neutral appending_neutral) ?_
    (fun _ _ _ _ _ _ h => h)
    fun k hk hkn l file e hout => turns_of_step
      (fun h => h.step (act_step l file e) fun c' ho => hno k c' hk hkn (ho ▸ hout))
      fun _ _ _ h => h
  · exact hguard.resource fun _ _ h => h.appended
  · rcases output_cases present ι m with ⟨hnone, -⟩ | ⟨_, _, _, o, hs, hout, hstate⟩
    · exact absurd (hnone.symm.trans hm) (by simp)
    · obtain rfl : o = .locked c := Option.some.inj (hout.symm.trans hm)
      obtain ⟨rfl, rfl⟩ := hs.of_locked
      rw [sessionLog] at hstate
      rw [hstate]
      exact Locked.guarded_moved rfl ⟨rfl, rfl⟩

variable (present ι) in

/-- No system call fails before the step `n`: every answer is that of a call that
    does its work, or of a `flock` or a `write` that is interrupted. -/
def NoneFails (n : ℕ) : Prop :=
  ∀ k < n, fails (((sessionLog W present).state ι k).phase (ι k).1) (ι k).2 = false

theorem output_ne_failed {n k : ℕ} (hok : NoneFails present ι n) (hk : k < n) :
    (sessionLog W present).output ι k ≠ some .failed := by
  intro hfailed
  rcases Locked.step_cases (p := writeSessionLog) ((sessionLog W present).state ι k) (ι k)
    with hstep | ⟨-, hstep⟩
  · exact absurd ((congrArg Prod.snd hstep).symm.trans hfailed) nofun
  · have hout := Option.some.inj ((congrArg Prod.snd hstep).symm.trans hfailed)
    exact act_ne_failed _ (hok k hk) hout

/-- Without failures, the file is the log expected of the calls that took the lock. -/
theorem text_eq_expected {n : ℕ} (hok : NoneFails present ι n)
    (hfree : ((sessionLog W present).state ι n).lock = none) :
    text present ι n = expected ((sessionLog W present).told ι lockOrder n) := by
  have hguard := Locked.guarded_from (p := writeSessionLog)
    (fun k l file => Logged ((sessionLog W present).told ι lockOrder k) l (content file))
    (if present then some [] else none) ι n.zero_le
    (fun _ => local_of_neutral (logged_neutral _)) ?_ ?_ ?_
  · exact hguard.1 hfree
  · exact Locked.guarded_init (by cases present <;> rfl)
  · intro k _ _ hout l file h
    have hnone : (sessionLog W present).output ι k = none := hout
    rw [Driven.told_succ, hnone]
    simpa [lockOrder] using h
  · intro k _ hkn l file e hout
    have hsome : (sessionLog W present).output ι k = some (act l file e).2.2 := hout
    rw [Driven.told_succ, hsome]
    refine turns_of_step
      (fun h => h.step (act_step l file e) fun ho => output_ne_failed hok hkn (ho ▸ hsome)) ?_
    intro ho l text h
    rcases ho with ho | ho <;> simpa [ho, lockOrder] using h

/-! ### The calls of a writer -/

/-- The call that an event begins, if the writer is idle. -/
def beginning : Phase → Event → Option Call
  | .idle, .call c => some c
  | _, _ => none

variable (present ι)

/-- The call that the writer `w` begins in the step `k`: it is called while it is idle. -/
def begins (w : W) (k : ℕ) : Option Call :=
  if (ι k).1 = w then beginning (((sessionLog W present).state ι k).phase w) (ι k).2 else none

/-- The calls that the writer `w` began before the step `n`. -/
def begun (w : W) (n : ℕ) : List Call := (List.range n).filterMap (begins present ι w)

/-- The calls of the writer `w` that took the lock before the step `n`. -/
def admitted (w : W) (n : ℕ) : List Call :=
  (List.range n).filterMap fun k =>
    if (ι k).1 = w then lockOrder ((sessionLog W present).output ι k) else none

variable {present ι}

/-- The call that waits for the lock in a phase. -/
def pending : Phase → Option Call
  | .opening c | .locking c => some c
  | _ => none

/-- Past the lock, a call does not wait for it. -/
theorem pending_answer_past (l : Phase) (file : File) (a : Answer) (hl : pending l = none) :
    lockOrder (some (answer l file a).2.2) = none ∧ pending (answer l file a).1 = none := by
  cases l with
  | opening c | locking c => cases hl
  | idle => exact ⟨rfl, rfl⟩
  | locked c | unlocking | closing kept | syncing c =>
    simp only [answer]
    split_ifs <;> exact ⟨rfl, rfl⟩
  | sizing c =>
    simp only [answer, sized]
    split_ifs <;> exact ⟨rfl, rfl⟩
  | writing c pos size =>
    simp only [answer]
    split_ifs
    · rcases a with (_ | n) | _ | _ <;> exact ⟨rfl, rfl⟩
    · exact ⟨rfl, rfl⟩

/-- A step that does not fail takes the lock with the call that waits for it, or
    leaves it waiting. -/
theorem pending_act {l : Phase} {file : File} {e : Event} (hok : fails l e = false) :
    (lockOrder (some (act l file e).2.2)).toList ++ (pending (act l file e).1).toList =
      (pending l).toList ++ (beginning l e).toList := by
  cases e with
  | call c =>
    cases l with
    | idle => rfl
    | _ => exact (List.append_nil _).symm
  | answer a =>
    have hnone : beginning l (.answer a) = none := by cases l <;> rfl
    rw [hnone]
    cases hp : pending l with
    | none =>
      obtain ⟨hlock, hpending⟩ := pending_answer_past l file a hp
      rw [act, hlock, hpending]
    | some c' =>
      cases l with
      | opening c =>
        have hopened : a.ok = true := by simpa [fails] using hok
        rw [← hp]
        simp [act, answer, hopened, lockOrder, pending]
      | locking c =>
        rw [← hp]
        cases a with
        | error => cases hok
        | done _ | interrupted => rfl
      | _ => cases hp

theorem holds_act_of_beginning {l : Phase} {file : File} {e : Event} (h : beginning l e ≠ none) :
    holds (act l file e).1 = false := by
  cases l <;> cases e <;> first | rfl | exact absurd rfl h

/-- The calls of a writer take the lock in the order in which it begins them, all but
    the one that waits for it. -/
theorem admitted_pending {n : ℕ} (hok : NoneFails present ι n) (w : W) :
    admitted present ι w n ++ (pending (((sessionLog W present).state ι n).phase w)).toList =
      begun present ι w n := by
  induction n with
  | zero => rfl
  | succ n ih =>
    have ih := ih fun k hk => hok k (hk.trans n.lt_succ_self)
    have hadmitted : admitted present ι w (n + 1) = admitted present ι w n ++
        (if (ι n).1 = w then lockOrder ((sessionLog W present).output ι n) else none).toList := by
      rw [admitted, List.range_succ, List.filterMap_append, admitted]
      cases h : (if (ι n).1 = w then lockOrder ((sessionLog W present).output ι n) else none) <;>
        simp [h]
    have hbegun : begun present ι w (n + 1) = begun present ι w n ++ (begins present ι w n).toList := by
      rw [begun, List.range_succ, List.filterMap_append, begun]
      cases h : begins present ι w n <;> simp [h]
    rw [hadmitted, hbegun, ← ih, begins, List.append_assoc, List.append_assoc]
    congr 1
    by_cases hwait : writeSessionLog.Waits ((sessionLog W present).state ι n) (ι n).1 (ι n).2
    · -- Nothing begins in a step that waits, as it would take the lock.
      have hstep : writeSessionLog.step _ (ι n) = _ := if_pos hwait
      have hstate : (sessionLog W present).state ι (n + 1) = (sessionLog W present).state ι n :=
        congrArg Prod.fst hstep
      have hout : (sessionLog W present).output ι n = none := congrArg Prod.snd hstep
      have hnone : beginning (((sessionLog W present).state ι n).phase (ι n).1) (ι n).2 = none := by
        by_contra hsome
        exact absurd hwait.1 (Bool.eq_false_iff.1 (holds_act_of_beginning hsome))
      rw [hstate, hout]
      by_cases hw : (ι n).1 = w
      · subst hw
        simp [hnone, lockOrder]
      · simp [hw]
    · have hstep : writeSessionLog.step _ (ι n) = _ := if_neg hwait
      have hstate : (sessionLog W present).state ι (n + 1) = writeSessionLog.moved _ _ _ _ :=
        congrArg Prod.fst hstep
      have hout : (sessionLog W present).output ι n = _ := congrArg Prod.snd hstep
      rw [hstate, hout]
      by_cases hw : (ι n).1 = w
      · subst hw
        rw [if_pos rfl, if_pos rfl, Locked.moved_phase_self]
        exact pending_act (hok n n.lt_succ_self)
      · rw [if_neg hw, if_neg hw, Locked.moved_phase_of_ne fun h => hw h.symm]
        exact (List.append_nil _).symm

/-- A step of a writer that nobody makes wait, in a call. -/
theorem todo_step {k : ℕ} (hok : fails (((sessionLog W present).state ι k).phase (ι k).1) (ι k).2 = false)
    (hlock : ((sessionLog W present).state ι k).lock = none ∨
      ((sessionLog W present).state ι k).lock = some (ι k).1)
    (hbusy : ((sessionLog W present).state ι k).phase (ι k).1 ≠ .idle) :
    todo (((sessionLog W present).state ι (k + 1)).phase (ι k).1) + (if (ι k).2.done then 1 else 0) ≤
        todo (((sessionLog W present).state ι k).phase (ι k).1) ∧
      (((sessionLog W present).state ι (k + 1)).lock = none ∨
        ((sessionLog W present).state ι (k + 1)).lock = some (ι k).1) := by
  have hgo : ¬writeSessionLog.Waits ((sessionLog W present).state ι k) (ι k).1 (ι k).2 :=
    fun hwait => hlock.elim hwait.2.1 hwait.2.2
  have hstate : (sessionLog W present).state ι (k + 1) = writeSessionLog.moved
      ((sessionLog W present).state ι k) (ι k).1 _ _ := congrArg Prod.fst (if_neg hgo)
  rw [hstate, Locked.moved_phase_self]
  refine ⟨todo_act _ hok hbusy, ?_⟩
  simp only [Locked.moved]
  split_ifs
  · exact .inr rfl
  · exact .inl rfl
  · exact hlock

/-- A call begins with the lock untouched. -/
theorem state_of_begins {w : W} {c : Call} {m : ℕ} (h : begins present ι w m = some c)
    (hfree : ((sessionLog W present).state ι m).lock = none) :
    ((sessionLog W present).state ι (m + 1)).phase w = .opening c ∧
      ((sessionLog W present).state ι (m + 1)).lock = none := by
  rw [begins] at h
  split_ifs at h with hw
  subst hw
  cases he : (ι m).2 with
  | answer a =>
    rw [he] at h
    cases hphase : ((sessionLog W present).state ι m).phase (ι m).1 <;> simp [hphase, beginning] at h
  | call c' =>
    cases hphase : ((sessionLog W present).state ι m).phase (ι m).1 with
    | idle =>
      rw [he, hphase] at h
      obtain rfl : c' = c := by simpa [beginning] using h
      have hact : writeSessionLog.act (((sessionLog W present).state ι m).phase (ι m).1)
          ((sessionLog W present).state ι m).resource (ι m).2 =
            (.opening c', ((sessionLog W present).state ι m).resource, .quiet) := by
        rw [hphase, he]
        rfl
      have hgo : ¬writeSessionLog.Waits ((sessionLog W present).state ι m) (ι m).1 (ι m).2 :=
        fun hwait => hwait.2.1 hfree
      have hstate : (sessionLog W present).state ι (m + 1) = writeSessionLog.moved
          ((sessionLog W present).state ι m) (ι m).1 _ _ := congrArg Prod.fst (if_neg hgo)
      rw [hstate, hact, Locked.moved_phase_self, Locked.moved_lock_of_outside rfl (by simp [hfree])]
      exact ⟨rfl, hfree⟩
    | _ =>
      rw [he, hphase] at h
      cases h

/-- A call returns: from when it begins with the lock free, if the others rest and
    no system call fails, as soon as enough of its system calls were not interrupted. -/
theorem returns {w : W} {c : Call} {m n : ℕ} (hbegins : begins present ι w m = some c) (hmn : m < n)
    (hfree : ((sessionLog W present).state ι m).lock = none)
    (halone : ∀ k, m < k → k < n → (ι k).1 = w ∧
      fails (((sessionLog W present).state ι k).phase w) (ι k).2 = false)
    (hcount : 8 + c.data.length ≤
      ((Finset.Ico (m + 1) n).filter fun k => (ι k).2.done = true).card) :
    ∃ k, m < k ∧ k ≤ n ∧ ((sessionLog W present).state ι k).phase w = .idle := by
  by_contra hnever
  push Not at hnever
  obtain ⟨hopening, hfree⟩ := state_of_begins hbegins hfree
  have hleft : ∀ k, m < k → k ≤ n →
      todo (((sessionLog W present).state ι k).phase w) +
          ((Finset.Ico (m + 1) k).filter fun k => (ι k).2.done = true).card ≤
        8 + c.data.length ∧
      (((sessionLog W present).state ι k).lock = none ∨
        ((sessionLog W present).state ι k).lock = some w) := by
    intro k hk
    induction k, hk using Nat.le_induction with
    | base =>
      intro _
      rw [hopening]
      refine ⟨?_, .inl hfree⟩
      simp [todo]
    | succ k hk ih =>
      intro hkn
      obtain ⟨hle, hlock⟩ := ih (Nat.le_of_succ_le hkn)
      obtain ⟨hw, hok⟩ := halone k hk hkn
      have hbusy := hnever k hk (Nat.le_of_succ_le hkn)
      subst hw
      obtain ⟨hstep, hlock'⟩ := todo_step hok hlock hbusy
      refine ⟨?_, hlock'⟩
      have hk' : m + 1 ≤ k := hk
      rw [← Finset.insert_Ico_right_eq_Ico_add_one hk', Finset.filter_insert]
      split_ifs at hstep ⊢
      · rw [Finset.card_insert_of_notMem fun h => Finset.right_notMem_Ico (Finset.mem_filter.1 h).1]
        omega
      · omega
  have hbusy := hnever n hmn le_rfl
  have hpos : 0 < todo (((sessionLog W present).state ι n).phase w) := by
    cases h : ((sessionLog W present).state ι n).phase w with
    | idle => exact absurd h hbusy
    | _ => simp [todo]
  have hle := (hleft n hmn le_rfl).1
  omega

/-- Through every interleaving of the writers, with any partial writes,
    interruptions and failures, from no file or an empty one: the file never exceeds
    its limit; what is in it is changed by a reset only; each call that takes the
    lock appends a prefix of its data. If no system call fails, whenever no call
    holds the lock, the file is the beginning of what the calls, in the order of the
    lock, wrote since the last reset; these are, of each writer, the calls that it
    began, in their order, all but one that waits for the lock; and a call that is
    left alone with the lock returns. -/
theorem session_log_kept {W : Type*} [DecidableEq W] (present : Bool) (ι : ℕ → W × Event) :
    (∀ n, (text present ι n).length ≤ kSessionLogLimit) ∧
    (∀ m n, m ≤ n →
      (∀ k c, m ≤ k → k < n → c.reset = true →
        (sessionLog W present).output ι k ≠ some (.truncated c)) →
      text present ι m <+: text present ι n) ∧
    (∀ m n c, m < n → (sessionLog W present).output ι m = some (.locked c) →
      (∀ k c', m < k → k < n → (sessionLog W present).output ι k ≠ some (.locked c')) →
      Appended c (text present ι m) (text present ι n)) ∧
    (∀ n, NoneFails present ι n →
      (((sessionLog W present).state ι n).lock = none → text present ι n =
        (sinceReset ((sessionLog W present).told ι lockOrder n)).take kSessionLogLimit) ∧
      ∀ w, admitted present ι w n ++ (pending (((sessionLog W present).state ι n).phase w)).toList =
        begun present ι w n) ∧
    ∀ w c m n, begins present ι w m = some c → m < n →
      ((sessionLog W present).state ι m).lock = none →
      (∀ k, m < k → k < n → (ι k).1 = w ∧
        fails (((sessionLog W present).state ι k).phase w) (ι k).2 = false) →
      8 + c.data.length ≤ ((Finset.Ico (m + 1) n).filter fun k => (ι k).2.done = true).card →
      ∃ k, m < k ∧ k ≤ n ∧ ((sessionLog W present).state ι k).phase w = .idle :=
  ⟨text_length_le, fun _ _ => text_prefix, fun _ _ _ => text_appended,
    fun _ hok => ⟨text_eq_expected hok, admitted_pending hok⟩, fun _ _ _ _ => returns⟩

/-- Two writers: one resets the log and then writes two lines; the other one is
    interrupted before it takes the lock, and writes its line in two parts. -/
def twoWriters (k : ℕ) : Bool × Event :=
  let events : List (Bool × Event) :=
    [(false, .call resetSessionLog), (true, .call (logMessageV [0x61, 0x62] false)),
    (false, .answer (.done 0)), (true, .answer (.done 0)), (false, .answer (.done 0)),
    (true, .answer (.done 0)), (false, .answer (.done 0)), (false, .answer (.done 0)),
    (false, .answer (.done 0)), (false, .answer (.done 0)), (false, .answer (.done 0)),
    (true, .answer .interrupted), (true, .answer (.done 0)), (false, .answer (.done 0)),
    (false, .call (logMessageV [0x63] true)), (true, .answer (.done 0)), (true, .answer (.done 0)),
    (true, .answer (.done 1)), (false, .answer (.done 0)), (false, .answer (.done 0)),
    (true, .answer .interrupted), (true, .answer (.done 2)), (true, .answer (.done 0)),
    (true, .answer (.done 0)), (true, .answer (.done 0))]
  if k = 35 then (false, .call (logMessageV [0x64] false))
  else events.getD k (false, .answer (.done 1))

/-- The log has the lines in the order of the lock, each of them whole. -/
theorem session_log_kept_twoWriters :
    text false twoWriters 50 = [0x61, 0x62, 0x0a, 0x63, 0x0a, 0x64, 0x0a] ∧
      admitted false twoWriters false 50 =
        [resetSessionLog, logMessageV [0x63] true, logMessageV [0x64] false] ∧
      ∃ k, 35 < k ∧ k ≤ 46 ∧ ((sessionLog Bool false).state twoWriters k).phase false = .idle := by
  obtain ⟨-, -, -, hlogged, hreturns⟩ := session_log_kept false twoWriters
  obtain ⟨htext, hcalls⟩ := hlogged 50 (by rw [NoneFails]; decide +kernel)
  have hfree : ((sessionLog Bool false).state twoWriters 50).lock = none := by decide +kernel
  have horder : (sessionLog Bool false).told twoWriters lockOrder 50 = [resetSessionLog,
      logMessageV [0x61, 0x62] false, logMessageV [0x63] true, logMessageV [0x64] false] := by
    decide +kernel
  have hidle : ((sessionLog Bool false).state twoWriters 50).phase false = .idle := by decide +kernel
  refine ⟨?_, ?_, ?_⟩
  · rw [htext hfree, horder]
    decide +kernel
  · have hbegun := hcalls false
    rw [hidle] at hbegun
    rw [← List.append_nil (admitted false twoWriters false 50)]
    exact hbegun.trans (by decide +kernel)
  · have halone : ∀ k < 46, 35 < k → (twoWriters k).1 = false ∧
        fails (((sessionLog Bool false).state twoWriters k).phase false) (twoWriters k).2 = false := by
      decide +kernel
    exact hreturns false (logMessageV [0x64] false) 35 46 (by decide +kernel) (by decide)
      (by decide +kernel) (fun k h₁ h₂ => halone k h₂ h₁) (by decide +kernel)

end SessionLog

end CommonFps
