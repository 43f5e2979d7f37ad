import CommonFps.Settings.Http

/-!
# The settings over a socket

How the service collects a request before it replies (`client` in
`settings_service.cpp`). What `recv` gives is scanned after each piece, on its
own, for the end of the head and for a length; the reply is that to what was
collected.

* `readRequest`: the reading loop, under the answers of `recv`;
* `eq_of_isComplete`: on the pieces of a request that is read past the check of
  its length, the scan is complete at its end only;
* `framing_agrees`: such a request is collected whole, however it is cut.
-/

namespace CommonFps

/-- An answer of `recv`: bytes, an interruption, or nothing more (the end of the
    stream, an error or the timeout). -/
inductive RecvAnswer
  | received (segment : Bytes)
  | interrupted
  | ended

/-- The number that a text starts with, after spaces, in 64 bits. -/
def strtoul (text : Bytes) : ℕ :=
  let (neg, s) := readSign (text.dropWhile isSpace)
  let n := readNumeral 10 (s.takeWhile isDigit)
  if 2 ^ 64 ≤ n then 2 ^ 64 - 1 else if neg then (2 ^ 64 - n) % 2 ^ 64 else n

/-- The name of a header, after the end of a line. -/
def kContentLength : Bytes := ascii "content-length:"

/-- The length that the head of a request announces. -/
def scanLength (headers : Bytes) : ℕ :=
  match find (crlf ++ kContentLength) headers with
  | none => 0
  | some key => strtoul (headers.drop (key + 17))

/-- Whether the loop stops at the bytes received, up to the first NUL if the
    head does not end before it. -/
def isComplete (buffer : Bytes) : Bool :=
  match find (crlf ++ crlf) (buffer.takeWhile fun c => decide (c ≠ 0)) with
  | none => false
  | some stop =>
    let length := scanLength ((buffer.take stop).map toLower)
    512 < length || stop + 4 + length ≤ buffer.length

/-- The reading loop. It ends with the answers, that is, at the deadline. -/
def readLoop : List RecvAnswer → Bytes → Bytes
  | [], buffer => buffer
  | answer :: answers, buffer =>
    if kMaxSettingsBytes ≤ buffer.length then buffer
    else match answer with
      | .interrupted => readLoop answers buffer
      | .ended | .received [] => buffer
      | .received segment =>
        let buffer := buffer ++ segment.take (kMaxSettingsBytes - buffer.length)
        if isComplete buffer then buffer else readLoop answers buffer

/-- What is read of a connection. -/
def readRequest (answers : List RecvAnswer) : Bytes := readLoop answers []

/-- The reply to a client. -/
def client (answers : List RecvAnswer) (store : SettingsStore) (page : Bytes)
    (saves : SaveAnswers) : Option HttpOutcome :=
  settingsHttpResponse (readRequest answers) store page saves

/-- What the peer sends before the stream ends. -/
def sent : List RecvAnswer → Bytes
  | [] | .ended :: _ => []
  | .interrupted :: answers => sent answers
  | .received segment :: answers => segment ++ sent answers

/-! ## The head of a request -/

/-- The lines of a head, with a line end between two of them. -/
def headText (line : Bytes) : List Bytes → Bytes
  | [] => line
  | header :: headers => line ++ crlf ++ headText header headers

theorem requestBytes_eq_headText (line : Bytes) (headers : List Bytes) (body : Bytes) :
    requestBytes line headers body = headText line headers ++ (crlf ++ crlf ++ body) := by
  induction headers generalizing line with
  | nil => simp only [requestBytes, lineText, List.flatMap_nil, headText, List.nil_append,
      List.append_assoc]
  | cons header headers ih =>
    have hcons : requestBytes line (header :: headers) body =
        line ++ crlf ++ requestBytes header headers body := by
      simp only [requestBytes, lineText, List.flatMap_cons, List.append_assoc]
    rw [hcons, ih, headText, List.append_assoc (line ++ crlf)]

theorem length_headText (line : Bytes) (headers : List Bytes) :
    (headText line headers).length = line.length + (lineText headers).length := by
  have := congrArg List.length (requestBytes_eq_headText line headers [])
  simp only [requestBytes, List.length_append, List.append_nil] at this
  omega

/-! ### Lower case -/

theorem toLower_eq_iff {d : UInt8} (hd : d = 10 ∨ d = 13 ∨ d = 58) (c : UInt8) :
    toLower c = d ↔ c = d := by
  revert c
  rcases hd with rfl | rfl | rfl <;> decide +kernel

theorem map_toLower_headText (line : Bytes) (headers : List Bytes) :
    (headText line headers).map toLower =
      headText (line.map toLower) (headers.map (List.map toLower)) := by
  induction headers generalizing line with
  | nil => rfl
  | cons header headers ih =>
    rw [headText, List.map_append, List.map_append, ih, List.map_cons, headText]
    rfl

theorem not_crlf_map_toLower {line : Bytes} (h : ¬crlf <:+: line) :
    ¬crlf <:+: line.map toLower := by
  intro hc
  obtain ⟨t, ht, hct⟩ := List.infix_map_iff.1 hc
  have hlen := congrArg List.length hct
  rw [List.length_map] at hlen
  obtain ⟨a, b, rfl⟩ := List.length_eq_two.1 hlen.symm
  rw [List.map_cons, List.map_cons, List.map_nil, crlf, List.cons.injEq, List.cons.injEq] at hct
  have ha := (toLower_eq_iff (.inr (.inl rfl)) a).1 hct.1.symm
  have hb := (toLower_eq_iff (.inl rfl) b).1 hct.2.1.symm
  exact h (by rwa [crlf, ← ha, ← hb])

/-! ### The scan for a length -/

theorem prefix_of_append {pat line s : Bytes} (hpat : 13 ∉ pat) (h : pat <+: line ++ crlf ++ s) :
    pat <+: line := by
  rcases le_or_gt pat.length line.length with hle | hlt
  · rw [List.append_assoc] at h
    exact List.prefix_of_prefix_length_le h (List.prefix_append line _) hle
  · -- A longer pattern would contain the end of the line.
    have hline : line ++ [13] <+: line ++ crlf ++ s := ⟨10 :: s, by
      simp only [crlf, List.append_assoc, List.cons_append, List.nil_append]⟩
    have := List.prefix_of_prefix_length_le hline h (by
      rw [List.length_append, List.length_singleton]
      omega)
    exact absurd (this.subset (List.mem_append_right _ (List.mem_singleton.2 rfl))) hpat

theorem prefix_of_headText {pat line : Bytes} {headers : List Bytes} (hpat : 13 ∉ pat)
    (h : pat <+: headText line headers) : pat <+: line := by
  cases headers with
  | nil => exact h
  | cons header headers => exact prefix_of_append hpat h

variable {pat line : Bytes} {headers : List Bytes}

/-- A pattern that starts no header line is not found. -/
theorem find_headText_eq_none (hpat : 13 ∉ pat) (hline : ¬crlf <:+: line)
    (hheaders : ∀ header ∈ headers, ¬crlf <:+: header) (hno : ∀ header ∈ headers, ¬pat <+: header) :
    find (crlf ++ pat) (headText line headers) = none := by
  induction headers generalizing line with
  | nil =>
    refine find_eq_none_iff.2 fun n hn => hline ?_
    exact ((List.prefix_append _ _).trans hn).isInfix.trans (List.drop_suffix n line).isInfix
  | cons header headers ih =>
    obtain ⟨hh, hheaders⟩ := List.forall_mem_cons.1 hheaders
    obtain ⟨hn, hno⟩ := List.forall_mem_cons.1 hno
    rw [headText, find_line_append hline fun h => hn (prefix_of_headText hpat h),
      ih hh hheaders hno, Option.map_none]

/-- A pattern that starts one header line is found there. -/
theorem find_headText (hpat : 13 ∉ pat) (hline : ¬crlf <:+: line)
    (hheaders : ∀ header ∈ headers, ¬crlf <:+: header) {header : Bytes} (hmem : header ∈ headers)
    (hstart : pat <+: header) (hunique : ∀ h ∈ headers, pat <+: h → h = header) :
    ∃ key rest, find (crlf ++ pat) (headText line headers) = some key ∧
      (headText line headers).drop (key + 2) = header ++ rest ∧
        (rest = [] ∨ rest.head? = some 13) := by
  induction headers generalizing line with
  | nil => cases hmem
  | cons first headers ih =>
    obtain ⟨hh, hheaders⟩ := List.forall_mem_cons.1 hheaders
    obtain ⟨hfirst, hunique⟩ := List.forall_mem_cons.1 hunique
    have hdrop : (headText line (first :: headers)).drop (line.length + 2) =
        headText first headers := by
      rw [headText, List.drop_left' (by rw [List.length_append]; rfl)]
    -- The pattern starts a header, and none before it: it is found at the line end before that one.
    by_cases hp : pat <+: first
    · obtain rfl := hfirst hp
      have hpre : pat <+: headText first headers := by
        cases headers with
        | nil => exact hp
        | cons second headers =>
          rw [headText, List.append_assoc]
          exact hp.trans (List.prefix_append _ _)
      refine ⟨line.length, (headText first headers).drop first.length,
        find_line_append_of_prefix hline hpre, ?_, ?_⟩
      · cases headers with
        | nil => rw [hdrop, headText, List.drop_length, List.append_nil]
        | cons second headers => rw [hdrop, headText, List.append_assoc, List.drop_left]
      · cases headers with
        | nil => exact .inl (by rw [headText, List.drop_length])
        | cons second headers =>
          rw [headText, List.append_assoc, List.drop_left]
          exact .inr rfl
    · have hmem : header ∈ headers := by
        rcases List.mem_cons.1 hmem with rfl | hmem
        · exact absurd hstart hp
        · exact hmem
      obtain ⟨key, rest, hkey, hrest, htail⟩ := ih hh hheaders hmem hunique
      refine ⟨line.length + 2 + key, rest, ?_, ?_, htail⟩
      · rw [headText, find_line_append hline fun h => hp (prefix_of_headText hpat h), hkey,
          Option.map_some]
      · rw [Nat.add_assoc, ← List.drop_drop, hdrop, hrest]

/-! ### The length read -/

/-- What the spaces around a value are. -/
theorem exists_spaces (value : Bytes) : ∃ a b, value = a ++ (trimSpaces value ++ b) ∧
    (∀ c ∈ a, c = 32) ∧ ∀ c ∈ b, c = 32 := by
  refine ⟨value.takeWhile fun c => decide (c = 32),
    (value.dropWhile fun c => decide (c = 32)).rtakeWhile fun c => decide (c = 32), ?_, ?_, ?_⟩
  · rw [trimSpaces, List.rdropWhile_append_rtakeWhile, List.takeWhile_append_dropWhile]
  · exact fun c hc => by simpa using List.mem_takeWhile_imp hc
  · exact fun c hc => by simpa using List.mem_rtakeWhile_imp hc

section Value

variable {value : Bytes} (hdigits : ∀ c ∈ trimSpaces value, isDigit c)
include hdigits

theorem map_toLower_of_trimSpaces : value.map toLower = value := by
  obtain ⟨a, b, hvalue, ha, hb⟩ := exists_spaces value
  have hspaces {s : Bytes} (hs : ∀ c ∈ s, c = 32) : s.map toLower = s :=
    (List.map_congr_left fun c hc => by rw [hs c hc]; rfl).trans s.map_id
  rw [hvalue, List.map_append, List.map_append, hspaces ha, hspaces hb, map_toLower_of_digits hdigits]

/-- A value of digits, with spaces around them, is read, whatever line follows. -/
theorem strtoul_of_digits {rest : Bytes} (hne : trimSpaces value ≠ [])
    (hsmall : readNumeral 10 (trimSpaces value) < 2 ^ 64)
    (hrest : rest = [] ∨ rest.head? = some 13) :
    strtoul (value ++ rest) = readNumeral 10 (trimSpaces value) := by
  obtain ⟨a, b, hvalue, ha, hb⟩ := exists_spaces value
  have hspace : ∀ c ∈ a, isSpace c := fun c hc => by rw [ha c hc]; rfl
  -- A space or the end of the line ends the digits.
  have hstop : ∀ c, (b ++ rest).head? = some c → ¬isDigit c := by
    intro c hc
    cases b with
    | cons d b =>
      rw [List.cons_append, List.head?_cons, Option.some.injEq, hb d List.mem_cons_self] at hc
      rw [← hc]
      decide
    | nil =>
      rcases hrest with rfl | hrest
      · cases hc
      · rw [List.nil_append, hrest, Option.some.injEq] at hc
        rw [← hc]
        decide
  have hskip : (value ++ rest).dropWhile isSpace = trimSpaces value ++ (b ++ rest) := by
    obtain ⟨d, t, ht⟩ := List.exists_cons_of_ne_nil hne
    have hd : isDigit d := hdigits d (ht ▸ List.mem_cons_self)
    conv_lhs => rw [hvalue, List.append_assoc, List.append_assoc, List.dropWhile_append_of_pos hspace]
    rw [ht, List.cons_append, dropWhile_isSpace_of_digit hd]
  have hsign : readSign (trimSpaces value ++ (b ++ rest)) = (false, trimSpaces value ++ (b ++ rest)) := by
    obtain ⟨d, t, ht⟩ := List.exists_cons_of_ne_nil hne
    rw [ht, List.cons_append, readSign_of_digit (hdigits d (ht ▸ List.mem_cons_self))]
  rw [strtoul, hskip, hsign]
  simp only [takeWhile_of_digits hdigits hstop]
  rw [if_neg (not_le.2 hsmall), if_neg Bool.false_ne_true]

end Value

/-- The name of a header line is what precedes its first colon. -/
theorem name_eq_of_prefix {name value pat : Bytes} (hname : 58 ∉ name) (hpat : 58 ∉ pat)
    (h : pat ++ [58] <+: name ++ 58 :: value) : name = pat := by
  obtain ⟨t, ht⟩ := h
  rw [List.append_assoc, List.singleton_append] at ht
  have hlen := find_byte_append hpat t
  rw [ht, find_byte_append hname, Option.some.injEq] at hlen
  exact (List.append_inj_left ht hlen.symm).symm

theorem kContentLength_eq : kContentLength = ascii "content-length" ++ [58] := by decide +kernel

theorem map_toLower_headerLine (header : Bytes × Bytes) :
    (headerLine header).map toLower = header.1.map toLower ++ 58 :: header.2.map toLower := by
  rw [headerLine, List.map_append, List.map_cons]
  rfl

/-- The header line where the scan finds its pattern. -/
theorem kContentLength_prefix_iff {header : Bytes × Bytes} (h : 58 ∉ header.1) :
    kContentLength <+: (headerLine header).map toLower ↔
      header.1.map toLower = ascii "content-length" := by
  have hname : 58 ∉ header.1.map toLower := fun hmem => by
    obtain ⟨c, hc, hlower⟩ := List.mem_map.1 hmem
    exact h ((toLower_eq_iff (.inr (.inr rfl)) c).1 hlower ▸ hc)
  rw [map_toLower_headerLine, kContentLength_eq]
  constructor
  · exact name_eq_of_prefix hname (by decide)
  · rintro hh
    rw [hh]
    exact ⟨header.2.map toLower, by rw [List.append_assoc, List.singleton_append]⟩

/-- The scan finds the length of the body of a request that is read. -/
theorem scanLength_of_reads {text : RequestText} {request : ParsedRequest}
    (h : Reads text request) :
    scanLength ((headText text.line (text.headers.map headerLine)).map toLower) =
      text.body.length := by
  have hline : ¬crlf <:+: text.line.map toLower := not_crlf_map_toLower h.wellFormed.line
  have hheaders : ∀ l ∈ (text.headers.map headerLine).map (List.map toLower), ¬crlf <:+: l := by
    intro l hl
    obtain ⟨l', hl', rfl⟩ := List.mem_map.1 hl
    obtain ⟨header, hmem, rfl⟩ := List.mem_map.1 hl'
    exact not_crlf_map_toLower (h.wellFormed.header header hmem).2
  have hno13 : 13 ∉ kContentLength := by decide
  have hlength := h.contentLength
  rw [contentLength, h.body] at hlength
  rw [scanLength, map_toLower_headText]
  cases hlookup : request.headers.lookup (ascii "content-length") with
  | none =>
    -- No line starts with the name of the length, so that there is no body.
    have hno : ∀ l ∈ (text.headers.map headerLine).map (List.map toLower), ¬kContentLength <+: l := by
      intro l hl hp
      obtain ⟨l', hl', rfl⟩ := List.mem_map.1 hl
      obtain ⟨header, hmem, rfl⟩ := List.mem_map.1 hl'
      have hname := (kContentLength_prefix_iff (h.wellFormed.header header hmem).1).1 hp
      have := (h.wellFormed.lookup _ _).2 ⟨header, hmem, hname, rfl⟩
      rw [← h.headers, hlookup] at this
      cases this
    rw [hlookup, Option.some.injEq] at hlength
    rw [find_headText_eq_none hno13 hline hheaders hno]
    exact hlength
  | some digits =>
    rw [hlookup] at hlength
    rw [h.headers, h.wellFormed.lookup] at hlookup
    obtain ⟨header, hmem, hname, rfl⟩ := hlookup
    obtain ⟨hpos, hlen3, hdigits, hvalue⟩ :=
      (integer_eq_some_iff.1 hlength).1
    have hstart := (kContentLength_prefix_iff (h.wellFormed.header header hmem).1).2 hname
    -- No two headers have one name, so that the scan finds the one that the parser reads.
    have hunique : ∀ l ∈ (text.headers.map headerLine).map (List.map toLower),
        kContentLength <+: l → l = (headerLine header).map toLower := by
      intro l hl hp
      obtain ⟨l', hl', rfl⟩ := List.mem_map.1 hl
      obtain ⟨header', hmem', rfl⟩ := List.mem_map.1 hl'
      have hname' := (kContentLength_prefix_iff (h.wellFormed.header header' hmem').1).1 hp
      rw [List.inj_on_of_nodup_map h.wellFormed.nodup hmem' hmem (hname'.trans hname.symm)]
    obtain ⟨key, rest, hkey, hdrop, hrest⟩ := find_headText hno13 hline hheaders
      (List.mem_map_of_mem (List.mem_map_of_mem hmem)) hstart hunique
    have hrestDrop : (headText (text.line.map toLower)
        ((text.headers.map headerLine).map (List.map toLower))).drop (key + 17) =
          header.2 ++ rest := by
      have hsplit : (headerLine header).map toLower = kContentLength ++ header.2 := by
        rw [map_toLower_headerLine, hname, map_toLower_of_trimSpaces hdigits, kContentLength_eq,
          List.append_assoc, List.singleton_append]
      rw [show key + 17 = key + 2 + kContentLength.length from rfl, ← List.drop_drop, hdrop, hsplit,
        List.append_assoc, List.drop_left]
    have hne : trimSpaces header.2 ≠ [] := List.length_pos_iff.1 hpos
    have hsmall : readNumeral 10 (trimSpaces header.2) < 2 ^ 64 := by
      have := (integer_eq_some hlength).2
      omega
    simp only [hkey, hrestDrop]
    rw [strtoul_of_digits hdigits hne hsmall hrest, hvalue]

theorem contentLength_le {headers : Entries} {n : ℕ} (h : contentLength headers = some n) :
    n ≤ 512 := by
  rw [contentLength] at h
  split at h
  · exact (integer_eq_some h).2
  · cases h
    exact Nat.zero_le _

/-! ## The reading loop -/

/-- On the pieces of a request that is read, the scan is complete at its end. -/
theorem eq_of_isComplete {text : RequestText} {request : ParsedRequest} (h : Reads text request)
    {buffer : Bytes} (hbuffer : buffer <+: text.bytes) (hcomplete : isComplete buffer) :
    buffer = text.bytes := by
  have hbytes := requestBytes_eq_headText text.line (text.headers.map headerLine) text.body
  have hsplit := find_blank h.wellFormed.line h.wellFormed.areLines text.body
  rw [← length_headText] at hsplit
  have hscanned : (buffer.takeWhile fun c => decide (c ≠ 0)) <+: text.bytes :=
    (List.takeWhile_prefix _).trans hbuffer
  rw [isComplete] at hcomplete
  cases hstop : find (crlf ++ crlf) (buffer.takeWhile fun c => decide (c ≠ 0)) with
  | none =>
    rw [hstop] at hcomplete
    cases hcomplete
  | some stop =>
    -- The end of the head in the bytes scanned is that of the request.
    have hfound := find_of_prefix hscanned hstop
    obtain rfl : stop = (headText text.line (text.headers.map headerLine)).length := by
      rw [RequestText.bytes, hsplit] at hfound
      exact (Option.some.inj hfound).symm
    have hlen := (length_le_of_find hstop).trans (List.takeWhile_prefix _).length_le
    have hhead : buffer.take (headText text.line (text.headers.map headerLine)).length =
        headText text.line (text.headers.map headerLine) := by
      rw [List.prefix_iff_eq_take.1 hbuffer, List.take_take, min_eq_left (by omega),
        RequestText.bytes, hbytes, List.take_left]
    rw [hstop] at hcomplete
    simp only [hhead, scanLength_of_reads h, Bool.or_eq_true, decide_eq_true_eq] at hcomplete
    have hbody : text.body.length ≤ 512 := contentLength_le (h.body ▸ h.contentLength)
    refine hbuffer.eq_of_length_le ?_
    rw [RequestText.bytes, hbytes, List.length_append, List.length_append]
    have hblank : (crlf ++ crlf).length = 4 := rfl
    omega

/-- The loop collects a request whole, if the scan is not complete before its end. -/
theorem readLoop_eq {request : Bytes} (hlen : request.length ≤ kMaxSettingsBytes)
    (hscan : ∀ buffer, buffer <+: request → isComplete buffer → buffer = request)
    {answers : List RecvAnswer} {buffer : Bytes} (h : buffer ++ sent answers = request)
    (hne : ∀ segment, .received segment ∈ answers → segment ≠ []) :
    readLoop answers buffer = request := by
  have hle := congrArg List.length h
  rw [List.length_append] at hle
  induction answers generalizing buffer with
  | nil => rw [readLoop, ← h, sent, List.append_nil]
  | cons answer answers ih =>
    have hne' : ∀ segment, .received segment ∈ answers → segment ≠ [] :=
      fun segment hs => hne segment (List.mem_cons_of_mem _ hs)
    -- A full buffer ends the loop, with the request whole as it is no longer than the buffer.
    by_cases hfull : kMaxSettingsBytes ≤ buffer.length
    · have hnil : sent (answer :: answers) = [] := List.length_eq_zero_iff.1 (by omega)
      rw [hnil, List.append_nil] at h
      rw [readLoop.eq_def]
      simp only [if_pos hfull]
      exact h
    · cases answer with
      | interrupted =>
        simp only [readLoop, if_neg hfull]
        exact ih h hne' hle
      | ended =>
        rw [sent, List.append_nil] at h
        simp only [readLoop, if_neg hfull]
        exact h
      | received segment =>
        obtain ⟨c, s, rfl⟩ := List.exists_cons_of_ne_nil (hne _ List.mem_cons_self)
        rw [sent] at h hle
        rw [List.length_append] at hle
        have htake : (c :: s).take (kMaxSettingsBytes - buffer.length) = c :: s :=
          List.take_of_length_le (by omega)
        rw [← List.append_assoc] at h
        simp only [readLoop, if_neg hfull, htake]
        split_ifs with hcomplete
        · -- A scan that is complete is so at the end of the request only.
          exact hscan _ ⟨sent answers, h⟩ hcomplete
        · exact ih h hne' (by rw [List.length_append]; omega)

/-- A request that is read past the check of its length is collected whole,
    however it is cut into pieces and whatever interruptions there are, so the
    reply is that to the request. -/
theorem framing_agrees {request : Bytes} {parsed : ParsedRequest}
    (h : parseRequest request = some (.ok parsed)) {answers : List RecvAnswer}
    (hsent : sent answers = request)
    (hne : ∀ segment, .received segment ∈ answers → segment ≠ []) :
    readRequest answers = request ∧ ∀ store page saves,
      client answers store page saves = settingsHttpResponse request store page saves := by
  obtain ⟨hlen, text, rfl, hreads⟩ := parseRequest_eq_ok.1 h
  have hread : readRequest answers = text.bytes :=
    readLoop_eq hlen (fun _ hp hc => eq_of_isComplete hreads hp hc) hsent hne
  exact ⟨hread, fun store page saves => by rw [client, hread]⟩

/-- The request of the page, in two pieces. -/
theorem framing_agrees_pageRequest :
    readRequest [.received (pageRequest.bytes.take 30), .interrupted,
      .received (pageRequest.bytes.drop 30), .ended] = pageRequest.bytes := by
  obtain ⟨parsed, hparsed, -⟩ := parseRequest_of_authorised pageRequest_authorised
  refine (framing_agrees hparsed ?_ ?_).1
  · simp only [sent, List.append_nil, List.take_append_drop]
  · intro segment hsegment
    simp only [List.mem_cons, RecvAnswer.received.injEq, reduceCtorEq, List.not_mem_nil, or_false,
      false_or] at hsegment
    rcases hsegment with rfl | rfl <;> decide +kernel

end CommonFps
