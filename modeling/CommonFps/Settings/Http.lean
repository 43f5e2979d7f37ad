import CommonFps.Settings.Store

/-!
# The settings over HTTP

The server of the settings page (`settings_http_response` in `settings.cpp`): a
whole request, bounded, gives a reply and perhaps a save. An outer `none` stands
for an access out of range, for a line end that is not found, or for a loop that
does not end; there is none of them.

* `parseRequest`, `respond`: the reading of a request, up to the check of its
  length, and the reply to it;
* `RequestText`: a request taken apart, into its lines and its body;
* `Authorised`: the requests that may change the settings;
* `settings_http`: only these do, and they do if the file can be written.
-/

namespace CommonFps

/-- The host that a request has to name. -/
def kSettingsHost : Bytes := ascii "127.0.0.1:39029"

/-! ## Replies -/

/-- A reply: its status, its body, and the type of that. -/
structure HttpReply where
  status : ℕ
  reason : Bytes
  body : Bytes
  type : Bytes
  deriving DecidableEq

/-- A reply, of plain text unless it says otherwise. -/
def response (status : ℕ) (reason : String) (body : Bytes)
    (type : String := "text/plain; charset=utf-8") : HttpReply :=
  ⟨status, ascii reason, body, ascii type⟩

/-- The bytes sent for a reply. -/
def HttpReply.bytes (reply : HttpReply) : Bytes :=
  ascii "HTTP/1.1 " ++ numeral 10 reply.status ++ ascii " " ++ reply.reason ++
    crlf ++ ascii "Content-Type: " ++ reply.type ++
    crlf ++ ascii "Content-Length: " ++ numeral 10 reply.body.length ++
    crlf ++ ascii "Connection: close" ++ crlf ++ ascii "Cache-Control: no-store" ++
    crlf ++ ascii "X-Content-Type-Options: nosniff" ++ crlf ++ ascii "X-Frame-Options: DENY" ++
    crlf ++ ascii ("Content-Security-Policy: default-src 'self'; " ++
      "script-src 'self' 'unsafe-inline'; style-src 'self' 'unsafe-inline'; " ++
      "connect-src 'self'; img-src 'self' data:; frame-ancestors 'none'") ++
    crlf ++ crlf ++ reply.body

/-- The reply to a request that is malformed. -/
def badRequest : HttpReply := response 400 "Bad Request" (ascii "Invalid request\n")

/-- The reply to a request for another host. -/
def invalidHost : HttpReply := response 403 "Forbidden" (ascii "Invalid host\n")

/-- The reply to a request from another origin. -/
def invalidOrigin : HttpReply := response 403 "Forbidden" (ascii "Invalid origin\n")

/-! ## Reading a request -/

/-- A request, up to the check of its length. -/
structure ParsedRequest where
  method : Bytes
  path : Bytes
  headers : Entries
  body : Bytes

/-- The method and the path of a request line. -/
def parseRequestLine (line : Bytes) : Option (Option (Bytes × Bytes)) := do
  let some space := find [32] line | return none
  let some last := rfind 32 line | return none
  if space = last then return none
  let version ← substr line (last + 1)
  if version ≠ ascii "HTTP/1.1" ∧ version ≠ ascii "HTTP/1.0" then return none
  let method ← substr line 0 space
  let path ← substr line (space + 1) (last - space - 1)
  return some (method, path)

/-- A value without the spaces around it. -/
def trimSpaces (value : Bytes) : Bytes :=
  (value.dropWhile fun c => decide (c = 32)).rdropWhile fun c => decide (c = 32)

/-- The headers with the one of a line. -/
def addHeader (line : Bytes) (headers : Entries) : Option (Option Entries) := do
  let some colon := find [58] line | return none
  let key ← substr line 0 colon
  let value ← substr line (colon + 1)
  return emplace headers (key.map toLower) (trimSpaces value)

/-- The loop over the headers: those from `pos` on, after those read so far. -/
def parseHeaders (request : Bytes) (split : ℕ) : ℕ → ℕ → Entries → Option (Option Entries)
  | 0, _, _ => none
  | fuel + 1, pos, headers => do
    if split ≤ pos then return headers
    let stop ← findFrom crlf request pos
    let line ← substr request pos (stop - pos)
    let some headers ← addHeader line headers | return none
    parseHeaders request split fuel (stop + 2) headers

/-- The length that the headers give, if it makes sense. -/
def contentLength (headers : Entries) : Option ℕ :=
  match headers.lookup (ascii "content-length") with
  | some value => integer value 0 512
  | none => some 0

/-- The checks of the host and of the length. -/
def checkHeaders (method path : Bytes) (headers : Entries) (body : Bytes) :
    Except HttpReply ParsedRequest :=
  let (host, headers) := entryAt headers (ascii "host")
  if host ≠ kSettingsHost then .error invalidHost
  else if (headers.lookup (ascii "transfer-encoding")).isSome then .error badRequest
  else if contentLength headers ≠ some body.length then .error badRequest
  else .ok { method, path, headers, body }

/-- The parts of a request, or the reply that refuses it. -/
def parseRequest (request : Bytes) : Option (Except HttpReply ParsedRequest) := do
  if kMaxSettingsBytes < request.length then return .error badRequest
  let some split := find (crlf ++ crlf) request | return .error badRequest
  let some lineEnd := find crlf request | return .error badRequest
  let line ← substr request 0 lineEnd
  let some (method, path) ← parseRequestLine line | return .error badRequest
  let some headers ← parseHeaders request split (request.length + 1) (lineEnd + 2) []
    | return .error badRequest
  let body ← substr request (split + 4)
  return checkHeaders method path headers body

/-! ## Replying to a request -/

/-- The check of where a form comes from. -/
def sameOrigin (headers : Entries) : Bool :=
  let (marker, headers) := entryAt headers (ascii "x-commonfps")
  if marker ≠ ascii "1" then false
  else
    let (type, headers) := entryAt headers (ascii "content-type")
    if type ≠ ascii "application/x-www-form-urlencoded" then false
    else
      !(headers.lookup (ascii "origin")).isSome ||
        (entryAt headers (ascii "origin")).1 = ascii "http://" ++ kSettingsHost

/-- A reply, the settings files on the way to it, and the store afterwards. -/
abbrev HttpOutcome := HttpReply × List SettingsFiles × SettingsStore

/-- The reply to a request that was parsed, and the store after it. -/
def respond (request : ParsedRequest) (store : SettingsStore) (page : Bytes)
    (answers : SaveAnswers) : Option HttpOutcome := do
  if request.method = ascii "GET" ∧ request.path = ascii "/" then
    return (response 200 "OK" page "text/html; charset=utf-8", [], store)
  if request.method = ascii "GET" ∧ request.path = ascii "/api/config" then
    return (response 200 "OK" (serializeConfig store.config), [], store)
  if request.method = ascii "POST" ∧ request.path = ascii "/api/config" then
    if ¬sameOrigin request.headers then return (invalidOrigin, [], store)
    let some config ← parseSettingsForm request.body
      | return (response 422 "Unprocessable Entity" (ascii "Invalid settings\n"), [], store)
    let (saved, trace, store) := store.save config answers
    if ¬saved then
      return (response 500 "Internal Server Error" (ascii "Cannot save settings\n"), trace, store)
    return (response 200 "OK" (serializeConfig store.config), trace, store)
  return (response 404 "Not Found" (ascii "Not found\n"), [], store)

/-- The reply to a request, and the store after it. -/
def settingsHttpResponse (request : Bytes) (store : SettingsStore) (page : Bytes)
    (answers : SaveAnswers) : Option HttpOutcome := do
  match ← parseRequest request with
  | .error reply => return (reply, [], store)
  | .ok request => respond request store page answers

/-! ## The lines of a request -/

/-- Lines, each with its end. -/
def lineText (lines : List Bytes) : Bytes := lines.flatMap (· ++ crlf)

/-- A request line, header lines, an empty line and a body. -/
def requestBytes (line : Bytes) (headers : List Bytes) (body : Bytes) : Bytes :=
  line ++ crlf ++ (lineText headers ++ crlf ++ body)

/-- The lines are not empty, and end where they say. -/
def AreLines (lines : List Bytes) : Prop := ∀ line ∈ lines, ¬crlf <:+: line ∧ line ≠ []

/-- A line that is not empty does not start with a line end. -/
theorem not_crlf_prefix {line : Bytes} (h : ¬crlf <:+: line) (hne : line ≠ []) (s : Bytes) :
    ¬crlf <+: line ++ crlf ++ s := by
  have := not_crlf_prefix_drop h s (List.length_pos_iff.2 hne)
  rwa [List.drop_zero] at this

/-- The first empty line is the one before the body. -/
theorem find_blank {line : Bytes} {headers : List Bytes} (hline : ¬crlf <:+: line)
    (hheaders : AreLines headers) (body : Bytes) :
    find (crlf ++ crlf) (requestBytes line headers body) =
      some (line.length + (lineText headers).length) := by
  induction headers generalizing line with
  | nil => exact find_line_append_of_prefix hline (List.prefix_append crlf body)
  | cons header headers ih =>
    obtain ⟨hh, hne⟩ := hheaders header List.mem_cons_self
    have htail := ih hh fun l hl => hheaders l (List.mem_cons_of_mem _ hl)
    have hcons : requestBytes line (header :: headers) body =
        line ++ crlf ++ requestBytes header headers body := by
      simp only [requestBytes, lineText, List.flatMap_cons, List.append_assoc]
    have hfirst : ¬crlf <+: requestBytes header headers body := not_crlf_prefix hh hne _
    rw [hcons, find_line_append hline hfirst, htail, Option.map_some, lineText, lineText,
      List.flatMap_cons, List.length_append, List.length_append, show crlf.length = 2 from rfl,
      Option.some.injEq]
    omega

/-- A request with an empty line is one with a request line, header lines and a
    body. -/
theorem exists_requestBytes {request : Bytes} {split : ℕ}
    (h : find (crlf ++ crlf) request = some split) :
    ∃ line headers body, request = requestBytes line headers body ∧ ¬crlf <:+: line ∧
      AreLines headers := by
  induction hlen : request.length using Nat.strong_induction_on generalizing request split with
  | _ n ih =>
    have hcrlf : find crlf request ≠ none := fun hnone =>
      find_eq_none_iff.1 hnone split ((List.prefix_append _ _).trans (find_eq_some_iff.1 h).1)
    obtain ⟨k, hk⟩ := Option.ne_none_iff_exists'.1 hcrlf
    obtain ⟨line, s, rfl, -, hline⟩ := exists_of_find_crlf hk
    by_cases hs : crlf <+: s
    · obtain ⟨body, rfl⟩ := hs
      exact ⟨line, [], body, rfl, hline, fun l hl => absurd hl List.not_mem_nil⟩
    · rw [find_line_append hline hs, Option.map_eq_some_iff] at h
      obtain ⟨split', hsplit', -⟩ := h
      have hlt : s.length < n := by
        rw [← hlen, List.length_append, List.length_append, show crlf.length = 2 from rfl]
        omega
      obtain ⟨header, headers, body, rfl, hh, hheaders⟩ := ih s.length hlt hsplit' rfl
      refine ⟨line, header :: headers, body, ?_, hline, fun l hl => ?_⟩
      · simp only [requestBytes, lineText, List.flatMap_cons, List.append_assoc]
      · rcases List.mem_cons.1 hl with rfl | hl
        · refine ⟨hh, fun hnil => hs ?_⟩
          rw [hnil]
          exact ⟨_, rfl⟩
        · exact hheaders l hl

/-! ### Reading them -/

/-- The headers of the lines, added to others. -/
def readHeaders : List Bytes → Entries → Option Entries
  | [], headers => some headers
  | line :: lines, headers => (addHeader line headers).join.bind (readHeaders lines)

theorem addHeader_append {name : Bytes} (h : 58 ∉ name) (value : Bytes) (headers : Entries) :
    addHeader (name ++ 58 :: value) headers =
      some (emplace headers (name.map toLower) (trimSpaces value)) := by
  rw [addHeader, find_byte_append h]
  simp only [substr_append_left, substr_append, Option.bind_eq_bind, Option.bind_some]
  rfl

theorem addHeader_isSome (line : Bytes) (headers : Entries) : (addHeader line headers).isSome := by
  cases h : find [58] line with
  | none => rw [addHeader, h]; rfl
  | some colon =>
    obtain ⟨name, value, rfl, -, hname⟩ := exists_of_find_byte h
    rw [addHeader_append hname]
    rfl

/-- The loop reads the header lines one by one, and ends. -/
theorem parseHeaders_eq {lines : List Bytes} (hlines : AreLines lines) (before body : Bytes)
    {split fuel : ℕ} (hsplit : split + 2 = (before ++ lineText lines).length)
    (hfuel : (lineText lines).length < fuel) (headers : Entries) :
    parseHeaders (before ++ (lineText lines ++ crlf ++ body)) split fuel before.length headers =
      some (readHeaders lines headers) := by
  induction lines generalizing before fuel headers with
  | nil =>
    obtain ⟨fuel, rfl⟩ := Nat.exists_eq_succ_of_ne_zero (Nat.ne_of_gt hfuel)
    rw [lineText, List.flatMap_nil, List.append_nil] at hsplit
    rw [parseHeaders, if_pos (by omega)]
    rfl
  | cons line lines ih =>
    obtain ⟨fuel, rfl⟩ := Nat.exists_eq_succ_of_ne_zero (Nat.ne_of_gt (Nat.zero_lt_of_lt hfuel))
    obtain ⟨hline, hne⟩ := hlines line List.mem_cons_self
    have hpos := List.length_pos_iff.2 hne
    have htext : lineText (line :: lines) = line ++ crlf ++ lineText lines := by
      rw [lineText, List.flatMap_cons, lineText]
    have hcrlf : crlf.length = 2 := rfl
    simp only [htext, List.length_append, hcrlf] at hsplit hfuel
    -- The line ends at the first line end, as it has none inside.
    have hstop : findFrom crlf (before ++ (lineText (line :: lines) ++ crlf ++ body)) before.length =
        some (before.length + line.length) := by
      rw [findFrom, List.drop_left, htext, List.append_assoc, List.append_assoc,
        find_crlf_append hline, Option.map_some]
    have hsub : substr (before ++ (lineText (line :: lines) ++ crlf ++ body)) before.length
        line.length = some line := by
      rw [substr_eq_some (by rw [List.length_append]; omega), List.drop_left, htext]
      simp only [List.append_assoc, List.take_left]
    obtain ⟨headers', hadd⟩ := Option.isSome_iff_exists.1 (addHeader_isSome line headers)
    have hbefore : before ++ (lineText (line :: lines) ++ crlf ++ body) =
        (before ++ line ++ crlf) ++ (lineText lines ++ crlf ++ body) := by
      simp only [htext, List.append_assoc]
    rw [parseHeaders, if_neg (by omega), hstop]
    simp only [Option.bind_eq_bind, Option.bind_some, Nat.add_sub_cancel_left, hsub, hadd]
    rw [readHeaders, hadd]
    cases headers' with
    | none => rfl
    | some headers' =>
      have hlast : before.length + line.length + 2 = (before ++ line ++ crlf).length := by
        rw [List.length_append, List.length_append, hcrlf]
      rw [hlast, hbefore]
      refine ih (fun l hl => hlines l (List.mem_cons_of_mem _ hl)) _ ?_ ?_ headers'
      · simp only [List.length_append, hcrlf]
        omega
      · omega

/-! ### Reading the request line -/

theorem parseRequestLine_append {method version : Bytes} (hmethod : 32 ∉ method)
    (hversion : 32 ∉ version) (path : Bytes) :
    parseRequestLine (method ++ 32 :: (path ++ 32 :: version)) =
      some (if version ≠ ascii "HTTP/1.1" ∧ version ≠ ascii "HTTP/1.0" then none
        else some (method, path)) := by
  have hassoc : method ++ 32 :: (path ++ 32 :: version) =
      (method ++ 32 :: path) ++ 32 :: version := by
    rw [List.append_assoc, List.cons_append]
  have hlen : (method ++ 32 :: path).length = method.length + path.length + 1 := by
    rw [List.length_append, List.length_cons]
    omega
  have hlast : rfind 32 (method ++ 32 :: (path ++ 32 :: version)) =
      some (method.length + path.length + 1) := by
    rw [hassoc, rfind_append hversion, hlen]
  have hv : substr (method ++ 32 :: (path ++ 32 :: version)) (method.length + path.length + 1 + 1) =
      some version := by
    rw [hassoc, ← hlen]
    exact substr_append
  have hp : substr (method ++ 32 :: (path ++ 32 :: version)) (method.length + 1) path.length =
      some path := by
    rw [substr_eq_some (by rw [List.length_append, List.length_cons]; omega), ← List.drop_drop,
      List.drop_left, List.drop_one, List.tail_cons, List.take_left]
  rw [parseRequestLine, find_byte_append hmethod, hlast]
  simp only [Option.bind_eq_bind, if_neg (show method.length ≠ method.length + path.length + 1 by omega),
    hv, Option.bind_some, substr_append_left,
    show method.length + path.length + 1 - method.length - 1 = path.length by omega, hp]
  split_ifs <;> rfl

theorem parseRequestLine_cases (line : Bytes) :
    parseRequestLine line = some none ∨ ∃ method path version,
      line = method ++ 32 :: (path ++ 32 :: version) ∧ 32 ∉ method ∧ 32 ∉ version := by
  cases hspace : find [32] line with
  | none => exact .inl (by rw [parseRequestLine, hspace]; rfl)
  | some space =>
    obtain ⟨method, rest, rfl, rfl, hmethod⟩ := exists_of_find_byte hspace
    cases hrest : rfind 32 rest with
    | none =>
      refine .inl ?_
      rw [parseRequestLine, hspace, rfind_append (rfind_eq_none_iff.1 hrest)]
      simp only [if_pos]
      rfl
    | some last =>
      obtain ⟨path, version, rfl, -, hversion⟩ := exists_of_rfind hrest
      exact .inr ⟨method, path, version, rfl, hmethod, hversion⟩

/-! ### Reading the request -/

/-- What is read of a request of given lines and body. -/
theorem parseRequest_eq {line : Bytes} {headers : List Bytes} {body : Bytes}
    (hline : ¬crlf <:+: line) (hheaders : AreLines headers)
    (hlen : (requestBytes line headers body).length ≤ kMaxSettingsBytes) :
    parseRequest (requestBytes line headers body) =
      some (match (parseRequestLine line).join, readHeaders headers [] with
        | some (method, path), some headers => checkHeaders method path headers body
        | _, _ => .error badRequest) := by
  have hcrlf : crlf.length = 2 := rfl
  have hfind : find crlf (requestBytes line headers body) = some line.length :=
    find_crlf_append hline _
  have hsub : substr (requestBytes line headers body) 0 line.length = some line := by
    rw [requestBytes, List.append_assoc]
    exact substr_append_left
  have hloop : parseHeaders (requestBytes line headers body) (line.length + (lineText headers).length)
      ((requestBytes line headers body).length + 1) (line.length + 2) [] =
        some (readHeaders headers []) := by
    have hsplit : line.length + (lineText headers).length + 2 =
        (line ++ crlf ++ lineText headers).length := by
      simp only [List.length_append, hcrlf]
      omega
    -- There are no more lines than bytes.
    have hfuel : (lineText headers).length < (requestBytes line headers body).length + 1 := by
      simp only [requestBytes, List.length_append]
      omega
    have := parseHeaders_eq hheaders (line ++ crlf) body hsplit hfuel []
    rwa [List.length_append, hcrlf] at this
  have hbody : substr (requestBytes line headers body)
      (line.length + (lineText headers).length + 4) = some body := by
    have hdrop : requestBytes line headers body = (line ++ crlf ++ lineText headers ++ crlf) ++ body := by
      simp only [requestBytes, List.append_assoc]
    have hlen : line.length + (lineText headers).length + 4 =
        (line ++ crlf ++ lineText headers ++ crlf).length := by
      simp only [List.length_append, hcrlf]
      omega
    rw [hlen, hdrop, substr_eq_some (by simp only [List.length_append]; omega), List.drop_left,
      List.take_of_length_le (by simp only [List.length_append]; omega)]
  have hrl : (parseRequestLine line).isSome := by
    rcases parseRequestLine_cases line with h | ⟨method, path, version, rfl, hm, hv⟩
    · rw [h]; rfl
    · rw [parseRequestLine_append hm hv]; rfl
  obtain ⟨requestLine, hrl⟩ := Option.isSome_iff_exists.1 hrl
  rw [parseRequest, if_neg (not_lt.2 hlen), find_blank hline hheaders, hfind]
  simp only [Option.bind_eq_bind, hsub, Option.bind_some, hrl, hloop, hbody, Option.join_some]
  cases requestLine with
  | none => rfl
  | some requestLine =>
    cases readHeaders headers [] <;> rfl

/-! ### Reading the headers -/

/-- The line of a header. -/
def headerLine (header : Bytes × Bytes) : Bytes := header.1 ++ 58 :: header.2

/-- What is kept of a header: its name in lower case, and its value without spaces around. -/
def headerEntry (header : Bytes × Bytes) : Bytes × Bytes :=
  (header.1.map toLower, trimSpaces header.2)

theorem addHeader_eq_some {line : Bytes} {headers headers' : Entries} :
    (addHeader line headers).join = some headers' ↔
      ∃ header, line = headerLine header ∧ 58 ∉ header.1 ∧
        (headerEntry header).1 ∉ headers.map Prod.fst ∧ headerEntry header :: headers = headers' := by
  constructor
  · intro h
    cases hfind : find [58] line with
    | none =>
      rw [addHeader, hfind] at h
      cases h
    | some colon =>
      obtain ⟨name, value, rfl, -, hname⟩ := exists_of_find_byte hfind
      rw [addHeader_append hname, Option.join_some, emplace_eq_some] at h
      exact ⟨(name, value), rfl, hname, h⟩
  · rintro ⟨header, rfl, hname, hnew, rfl⟩
    rw [headerLine, addHeader_append hname, Option.join_some, emplace_eq_some]
    exact ⟨hnew, rfl⟩

/-- The headers read are those of the lines, of different names. -/
theorem readHeaders_eq_some {lines : List Bytes} {before after : Entries}
    (hbefore : (before.map Prod.fst).Nodup) :
    readHeaders lines before = some after ↔ ∃ headers : List (Bytes × Bytes),
      lines = headers.map headerLine ∧ (∀ header ∈ headers, 58 ∉ header.1) ∧
        after = (headers.map headerEntry).reverse ++ before ∧ (after.map Prod.fst).Nodup := by
  induction lines generalizing before with
  | nil =>
    rw [readHeaders, Option.some.injEq]
    constructor
    · rintro rfl
      exact ⟨[], rfl, fun _ h => absurd h List.not_mem_nil, rfl, hbefore⟩
    · rintro ⟨headers, hnil, -, rfl, -⟩
      rw [List.map_eq_nil_iff.1 hnil.symm]
      rfl
  | cons line lines ih =>
    rw [readHeaders, Option.bind_eq_some_iff]
    constructor
    · rintro ⟨mid, hadd, hread⟩
      obtain ⟨header, rfl, hname, hnew, rfl⟩ := addHeader_eq_some.1 hadd
      have hmid : ((headerEntry header :: before).map Prod.fst).Nodup :=
        List.nodup_cons.2 ⟨hnew, hbefore⟩
      obtain ⟨headers, rfl, hnames, rfl, hnodup⟩ := (ih hmid).1 hread
      refine ⟨header :: headers, rfl, ?_, ?_, hnodup⟩
      · exact List.forall_mem_cons.2 ⟨hname, hnames⟩
      · rw [List.map_cons, List.reverse_cons, List.append_assoc, List.singleton_append]
    · rintro ⟨headers, hlines, hnames, rfl, hnodup⟩
      cases headers with
      | nil => cases hlines
      | cons header headers =>
        obtain ⟨rfl, rfl⟩ := List.cons.inj hlines
        obtain ⟨hname, hnames⟩ := List.forall_mem_cons.1 hnames
        have hmid : ((headerEntry header :: before).map Prod.fst).Nodup := by
          rw [List.map_cons, List.reverse_cons, List.append_assoc, List.map_append] at hnodup
          exact hnodup.of_append_right
        refine ⟨headerEntry header :: before, addHeader_eq_some.2
          ⟨header, rfl, hname, (List.nodup_cons.1 hmid).1, rfl⟩, ?_⟩
        refine (ih hmid).2 ⟨headers, rfl, hnames, ?_, ?_⟩
        · rw [List.map_cons, List.reverse_cons, List.append_assoc, List.singleton_append]
        · exact hnodup

/-! ## Requests taken apart -/

/-- A request, taken apart: its request line, its header lines, each split at
    its first colon, and its body. -/
structure RequestText where
  line : Bytes
  headers : List (Bytes × Bytes)
  body : Bytes

namespace RequestText

/-- The bytes of a request. -/
def bytes (text : RequestText) : Bytes :=
  requestBytes text.line (text.headers.map headerLine) text.body

/-- Every line ends where it says, and the names of the headers differ. -/
structure WellFormed (text : RequestText) : Prop where
  line : ¬crlf <:+: text.line
  header : ∀ header ∈ text.headers, 58 ∉ header.1 ∧ ¬crlf <:+: headerLine header
  nodup : (text.headers.map fun header => header.1.map toLower).Nodup

/-- There is a header with this name, up to its case, and this value, up to the
    spaces around it. -/
def HasHeader (text : RequestText) (name value : Bytes) : Prop :=
  ∃ header ∈ text.headers, header.1.map toLower = name ∧ trimSpaces header.2 = value

end RequestText

/-- What a request is made of that is read past the check of its length. -/
structure Reads (text : RequestText) (request : ParsedRequest) : Prop where
  wellFormed : text.WellFormed
  line : ∃ version, (version = ascii "HTTP/1.1" ∨ version = ascii "HTTP/1.0") ∧
    32 ∉ request.method ∧ text.line = request.method ++ 32 :: (request.path ++ 32 :: version)
  headers : request.headers = (text.headers.map headerEntry).reverse
  body : request.body = text.body
  host : request.headers.lookup (ascii "host") = some kSettingsHost
  transferEncoding : request.headers.lookup (ascii "transfer-encoding") = none
  contentLength : contentLength request.headers = some request.body.length

section Reads

variable {text : RequestText}

theorem RequestText.WellFormed.areLines (h : text.WellFormed) :
    AreLines (text.headers.map headerLine) := by
  intro line hline
  obtain ⟨header, hheader, rfl⟩ := List.mem_map.1 hline
  refine ⟨(h.header header hheader).2, ?_⟩
  rw [headerLine]
  simp

/-- The headers read from a well formed request. -/
theorem RequestText.WellFormed.readHeaders (h : text.WellFormed) :
    CommonFps.readHeaders (text.headers.map headerLine) [] =
      some (text.headers.map headerEntry).reverse := by
  have hnil : (([] : Entries).map Prod.fst).Nodup := List.nodup_nil
  refine (readHeaders_eq_some hnil).2
    ⟨text.headers, rfl, fun header hh => (h.header header hh).1, (List.append_nil _).symm, ?_⟩
  rw [List.map_reverse, List.nodup_reverse, List.map_map]
  exact h.nodup

theorem RequestText.WellFormed.lookup (h : text.WellFormed) (name value : Bytes) :
    (text.headers.map headerEntry).reverse.lookup name = some value ↔ text.HasHeader name value := by
  have hnodup : ((text.headers.map headerEntry).reverse.map Prod.fst).Nodup := by
    rw [List.map_reverse, List.nodup_reverse, List.map_map]
    exact h.nodup
  rw [lookup_eq_some_iff hnodup, List.mem_reverse, List.mem_map]
  simp only [headerEntry, Prod.mk.injEq]
  rfl

theorem checkHeaders_eq_ok {method path : Bytes} {headers : Entries} {body : Bytes}
    {request : ParsedRequest} :
    checkHeaders method path headers body = .ok request ↔
      headers.lookup (ascii "host") = some kSettingsHost ∧
        headers.lookup (ascii "transfer-encoding") = none ∧
          contentLength headers = some body.length ∧ request = ⟨method, path, headers, body⟩ := by
  rw [checkHeaders]
  simp only
  by_cases hhost : (entryAt headers (ascii "host")).1 = kSettingsHost
  · obtain ⟨hlookup, hheaders⟩ := lookup_of_entryAt hhost (by decide)
    rw [if_neg (not_not.2 hhost), hheaders, hlookup]
    cases headers.lookup (ascii "transfer-encoding") with
    | some value => simp
    | none =>
      by_cases hlen : contentLength headers = some body.length
      · simp [hlen, eq_comm]
      · simp [hlen]
  · have hlookup : headers.lookup (ascii "host") ≠ some kSettingsHost := fun h => hhost (by
      rw [entryAt, h])
    simp [hhost, hlookup]

/-- The requests that are read past the check of their length. -/
theorem parseRequest_eq_ok {bytes : Bytes} {request : ParsedRequest} :
    parseRequest bytes = some (.ok request) ↔ bytes.length ≤ kMaxSettingsBytes ∧
      ∃ text : RequestText, bytes = text.bytes ∧ Reads text request := by
  have hnil : (([] : Entries).map Prod.fst).Nodup := List.nodup_nil
  constructor
  · intro h
    have hlen : bytes.length ≤ kMaxSettingsBytes := by
      by_contra hlen
      rw [parseRequest, if_pos (not_le.1 hlen)] at h
      cases h
    have hblank : find (crlf ++ crlf) bytes ≠ none := fun hnone => by
      rw [parseRequest, if_neg (not_lt.2 hlen), hnone] at h
      cases h
    obtain ⟨split, hsplit⟩ := Option.ne_none_iff_exists'.1 hblank
    obtain ⟨line, lines, body, rfl, hline, hlines⟩ := exists_requestBytes hsplit
    rw [parseRequest_eq hline hlines hlen, Option.some.injEq] at h
    rcases parseRequestLine_cases line with hrl | ⟨method, path, version, rfl, hmethod, hversion⟩
    · rw [hrl] at h
      cases h
    rw [parseRequestLine_append hmethod hversion] at h
    split_ifs at h with hv
    · cases h
    cases hread : readHeaders lines [] with
    | none =>
      rw [hread] at h
      cases h
    | some headers =>
      rw [hread] at h
      obtain ⟨hhost, htransfer, hcontent, rfl⟩ := checkHeaders_eq_ok.1 h
      obtain ⟨pairs, rfl, hnames, rfl, hnodup⟩ := (readHeaders_eq_some hnil).1 hread
      refine ⟨hlen, ⟨_, pairs, body⟩, rfl, ?_⟩
      exact
        { wellFormed := {
            line := hline
            header := fun header hh => ⟨hnames header hh, (hlines _ (List.mem_map_of_mem hh)).1⟩
            nodup := by
              rw [List.append_nil, List.map_reverse, List.nodup_reverse, List.map_map] at hnodup
              exact hnodup }
          line := ⟨version, (not_and_or.1 hv).imp not_not.1 not_not.1, hmethod, rfl⟩
          headers := List.append_nil _
          body := rfl
          host := hhost
          transferEncoding := htransfer
          contentLength := hcontent }
  · rintro ⟨hlen, text, rfl, h⟩
    obtain ⟨version, hversion, hmethod, hline⟩ := h.line
    have hv : 32 ∉ version := by
      rcases hversion with rfl | rfl <;> decide
    have hok : ¬(version ≠ ascii "HTTP/1.1" ∧ version ≠ ascii "HTTP/1.0") :=
      fun h => hversion.elim h.1 h.2
    rw [RequestText.bytes, parseRequest_eq h.wellFormed.line h.wellFormed.areLines hlen, hline,
      parseRequestLine_append hmethod hv, if_neg hok, h.wellFormed.readHeaders, Option.some.injEq]
    refine checkHeaders_eq_ok.2 ⟨?_, ?_, ?_, ?_⟩
    · rw [← h.headers, h.host]
    · rw [← h.headers, h.transferEncoding]
    · rw [← h.headers, h.contentLength, h.body]
    · rw [← h.headers, ← h.body]

/-- Every access is in range, every line end is found and the loop ends. -/
theorem parseRequest_isSome (bytes : Bytes) : (parseRequest bytes).isSome := by
  by_cases hlen : bytes.length ≤ kMaxSettingsBytes
  · cases hsplit : find (crlf ++ crlf) bytes with
    | none =>
      rw [parseRequest, if_neg (not_lt.2 hlen), hsplit]
      rfl
    | some split =>
      obtain ⟨line, lines, body, rfl, hline, hlines⟩ := exists_requestBytes hsplit
      rw [parseRequest_eq hline hlines hlen]
      rfl
  · rw [parseRequest, if_pos (not_le.1 hlen)]
    rfl

end Reads

/-! ## Who may change the settings -/

/-- A request that may change the settings, to `config`. -/
structure Authorised (text : RequestText) (config : OverlayConfig) : Prop where
  length : text.bytes.length ≤ kMaxSettingsBytes
  wellFormed : text.WellFormed
  line : text.line = ascii "POST /api/config HTTP/1.1" ∨
    text.line = ascii "POST /api/config HTTP/1.0"
  host : text.HasHeader (ascii "host") (ascii "127.0.0.1:39029")
  marker : text.HasHeader (ascii "x-commonfps") (ascii "1")
  type : text.HasHeader (ascii "content-type") (ascii "application/x-www-form-urlencoded")
  origin : ∀ value, text.HasHeader (ascii "origin") value → value = ascii "http://127.0.0.1:39029"
  transferEncoding : ∀ value, ¬text.HasHeader (ascii "transfer-encoding") value
  contentLength : ∃ value, text.HasHeader (ascii "content-length") value ∧
    1 ≤ value.length ∧ value.length ≤ 3 ∧ (∀ c ∈ value, isDigit c) ∧
      readNumeral 10 value = text.body.length
  body : parseSettingsForm text.body = some (some config)

/-- The bytes are those of a request that may change the settings, to `config`. -/
def IsAuthorised (bytes : Bytes) (config : OverlayConfig) : Prop :=
  ∃ text : RequestText, bytes = text.bytes ∧ Authorised text config

theorem sameOrigin_iff {headers : Entries} :
    sameOrigin headers ↔ headers.lookup (ascii "x-commonfps") = some (ascii "1") ∧
      headers.lookup (ascii "content-type") = some (ascii "application/x-www-form-urlencoded") ∧
        ∀ value, headers.lookup (ascii "origin") = some value →
          value = ascii "http://127.0.0.1:39029" := by
  have horigin (value : Bytes) (h : headers.lookup (ascii "origin") = some value) :
      (entryAt headers (ascii "origin")).1 = value := by rw [entryAt, h]
  rw [sameOrigin]
  simp only
  by_cases hmarker : (entryAt headers (ascii "x-commonfps")).1 = ascii "1"
  · obtain ⟨hm, hheaders⟩ := lookup_of_entryAt hmarker (by decide)
    rw [if_neg (not_not.2 hmarker), hheaders, hm]
    by_cases htype : (entryAt headers (ascii "content-type")).1 =
        ascii "application/x-www-form-urlencoded"
    · obtain ⟨ht, hheaders⟩ := lookup_of_entryAt htype (by decide)
      rw [if_neg (not_not.2 htype), hheaders, ht]
      cases ho : headers.lookup (ascii "origin") with
      | none => simp
      | some value =>
        rw [horigin value ho]
        simp only [Option.isSome_some, Bool.not_true, Bool.false_or, decide_eq_true_eq, true_and,
          Option.some.injEq, forall_eq']
        rfl
    · have ht : headers.lookup (ascii "content-type") ≠
          some (ascii "application/x-www-form-urlencoded") := fun h => htype (by rw [entryAt, h])
      simp [htype, ht]
  · have hm : headers.lookup (ascii "x-commonfps") ≠ some (ascii "1") := fun h =>
      hmarker (by rw [entryAt, h])
    simp [hmarker, hm]

section Request

variable {text : RequestText} {config : OverlayConfig}

/-- What is read of a request that may change the settings. -/
theorem parseRequest_of_authorised (h : Authorised text config) :
    ∃ request, parseRequest text.bytes = some (.ok request) ∧
      request.method = ascii "POST" ∧ request.path = ascii "/api/config" ∧
        sameOrigin request.headers ∧ parseSettingsForm request.body = some (some config) := by
  have hlookup := h.wellFormed.lookup
  have hline : ∃ version, (version = ascii "HTTP/1.1" ∨ version = ascii "HTTP/1.0") ∧
      32 ∉ ascii "POST" ∧
        text.line = ascii "POST" ++ 32 :: (ascii "/api/config" ++ 32 :: version) := by
    rcases h.line with hline | hline
    · exact ⟨_, .inl rfl, by decide, hline⟩
    · exact ⟨_, .inr rfl, by decide, hline⟩
  have htransfer : (text.headers.map headerEntry).reverse.lookup (ascii "transfer-encoding") =
      none := by
    cases ht : (text.headers.map headerEntry).reverse.lookup (ascii "transfer-encoding") with
    | none => rfl
    | some value => exact absurd ((hlookup _ _).1 ht) (h.transferEncoding value)
  have hcontent : contentLength (text.headers.map headerEntry).reverse =
      some text.body.length := by
    obtain ⟨value, hvalue, hdigits⟩ := h.contentLength
    rw [contentLength, (hlookup _ _).2 hvalue]
    exact integer_eq_some_iff.2
      ⟨hdigits, Nat.zero_le _, (length_of_parseSettingsForm h.body).2⟩
  refine ⟨⟨ascii "POST", ascii "/api/config", (text.headers.map headerEntry).reverse, text.body⟩,
    parseRequest_eq_ok.2 ⟨h.length, text, rfl, ?_⟩, rfl, rfl, ?_, h.body⟩
  · exact ⟨h.wellFormed, hline, rfl, rfl, (hlookup _ _).2 h.host, htransfer, hcontent⟩
  · exact sameOrigin_iff.2 ⟨(hlookup _ _).2 h.marker, (hlookup _ _).2 h.type,
      fun value hvalue => h.origin value ((hlookup _ _).1 hvalue)⟩

/-- A request that is read, asks for a change and carries a form may change the
    settings. -/
theorem isAuthorised_of_parseRequest {bytes : Bytes} {request : ParsedRequest}
    (h : parseRequest bytes = some (.ok request)) (hmethod : request.method = ascii "POST")
    (hpath : request.path = ascii "/api/config") (horigin : sameOrigin request.headers)
    (hform : parseSettingsForm request.body = some (some config)) : IsAuthorised bytes config := by
  obtain ⟨hlen, text, rfl, hr⟩ := parseRequest_eq_ok.1 h
  have hlookup (name value : Bytes) :
      request.headers.lookup name = some value ↔ text.HasHeader name value := by
    rw [hr.headers, hr.wellFormed.lookup]
  obtain ⟨hmarker, htype, ho⟩ := sameOrigin_iff.1 horigin
  refine ⟨text, rfl, ?_⟩
  exact
    { length := hlen
      wellFormed := hr.wellFormed
      line := by
        obtain ⟨version, hversion, -, hline⟩ := hr.line
        rw [hline, hmethod, hpath]
        exact hversion.imp (fun h => by rw [h]; rfl) fun h => by rw [h]; rfl
      host := (hlookup _ _).1 hr.host
      marker := (hlookup _ _).1 hmarker
      type := (hlookup _ _).1 htype
      origin := fun value hvalue => ho value ((hlookup _ _).2 hvalue)
      transferEncoding := fun value hvalue => by
        rw [← hlookup, hr.transferEncoding] at hvalue
        cases hvalue
      contentLength := by
        -- No form is empty, so the length was told.
        obtain ⟨hne, hle⟩ := length_of_parseSettingsForm hform
        have hcontent := hr.contentLength
        rw [contentLength] at hcontent
        cases hv : request.headers.lookup (ascii "content-length") with
        | none =>
          rw [hv] at hcontent
          exact absurd (List.length_eq_zero_iff.1 (Option.some.inj hcontent).symm) hne
        | some value =>
          rw [hv] at hcontent
          refine ⟨value, (hlookup _ _).1 hv, ?_⟩
          rw [← hr.body]
          exact (integer_eq_some_iff.1 hcontent).1
      body := hr.body ▸ hform }

/-! ### The replies -/

variable {request : ParsedRequest} (store : SettingsStore) (page : Bytes) (answers : SaveAnswers)

/-- The reply to a request for a change. -/
theorem respond_of_form (hmethod : request.method = ascii "POST")
    (hpath : request.path = ascii "/api/config") (horigin : sameOrigin request.headers)
    (hform : parseSettingsForm request.body = some (some config)) :
    ∃ reply, respond request store page answers =
        some (reply, (store.save config answers).2.1, (store.save config answers).2.2) ∧
      reply.status = if (store.save config answers).1 then 200 else 500 := by
  have hget : request.method ≠ ascii "GET" := by
    rw [hmethod]
    decide
  rw [respond, if_neg (fun h => hget h.1), if_neg (fun h => hget h.1), if_pos ⟨hmethod, hpath⟩,
    if_neg (not_not.2 horigin), hform]
  simp only [Option.bind_eq_bind, Option.bind_some]
  rcases store.save config answers with ⟨saved, trace, store'⟩
  cases saved with
  | true =>
    refine ⟨_, rfl, ?_⟩
    rfl
  | false =>
    refine ⟨_, rfl, ?_⟩
    rfl

/-- Any other request is replied to without a change. -/
theorem respond_of_no_form (h : ¬(request.method = ascii "POST" ∧ request.path = ascii "/api/config" ∧
      sameOrigin request.headers ∧ ∃ config, parseSettingsForm request.body = some (some config))) :
    ∃ reply, respond request store page answers = some (reply, [], store) := by
  rw [respond]
  split_ifs with h₁ h₂ h₃ h₄
  · exact ⟨_, rfl⟩
  · exact ⟨_, rfl⟩
  · obtain ⟨config, hform⟩ := Option.isSome_iff_exists.1 (parseSettingsForm_isSome request.body)
    rw [hform]
    cases config with
    | none => exact ⟨_, rfl⟩
    | some config => exact absurd ⟨h₃.1, h₃.2, h₄, config, hform⟩ h
  · exact ⟨_, rfl⟩
  · exact ⟨_, rfl⟩

end Request

/-- Every request is replied to. A request that may change the settings does so,
    with the reply 200, if the file can be written, and otherwise gets the reply
    500 and changes nothing; no other request changes anything. -/
theorem settings_http (bytes : Bytes) (store : SettingsStore) (page : Bytes)
    (answers : SaveAnswers) :
    ∃ reply trace store',
      settingsHttpResponse bytes store page answers = some (reply, trace, store') ∧
      (∀ config, IsAuthorised bytes config →
        if (store.save config answers).1 then
          reply.status = 200 ∧ store'.config = config ∧
            store'.files.final = some (serializeConfig config)
        else
          reply.status = 500 ∧ store'.config = store.config ∧
            store'.files.final = store.files.final ∧ ∀ f ∈ trace, f.final = store.files.final) ∧
      ((¬∃ config, IsAuthorised bytes config) → store' = store ∧ trace = []) := by
  obtain ⟨result, hparse⟩ := Option.isSome_iff_exists.1 (parseRequest_isSome bytes)
  rw [settingsHttpResponse, hparse]
  cases result with
  | error reply =>
    -- A request that is refused is not authorised, and touches nothing.
    refine ⟨reply, [], store, rfl, fun config ⟨text, htext, h⟩ => ?_, fun _ => ⟨rfl, rfl⟩⟩
    obtain ⟨request, hok, -⟩ := parseRequest_of_authorised h
    rw [← htext, hparse] at hok
    cases hok
  | ok request =>
    by_cases hform : request.method = ascii "POST" ∧ request.path = ascii "/api/config" ∧
        sameOrigin request.headers ∧ ∃ config, parseSettingsForm request.body = some (some config)
    · obtain ⟨hmethod, hpath, horigin, config, hform⟩ := hform
      obtain ⟨reply, hrespond, hstatus⟩ :=
        respond_of_form store page answers hmethod hpath horigin hform
      refine ⟨reply, _, _, hrespond, fun config' ⟨text, htext, h⟩ => ?_, fun hno => ?_⟩
      · obtain ⟨request', hok, -, -, -, hform'⟩ := parseRequest_of_authorised h
        rw [← htext, hparse] at hok
        cases hok
        -- A form has one meaning.
        obtain rfl : config = config' := by
          rw [hform] at hform'
          exact Option.some.inj (Option.some.inj hform')
        split_ifs with hsaved
        · obtain ⟨hconfig, hfiles, -⟩ := SettingsStore.save_succeeded hsaved
          rw [(whole_of_parseSettingsForm hform).sanitized] at hconfig hfiles
          rw [if_pos hsaved] at hstatus
          exact ⟨hstatus, hconfig, congrArg SettingsFiles.final hfiles⟩
        · obtain ⟨hconfig, hfinal, htrace⟩ :=
            SettingsStore.save_failed (Bool.not_eq_true _ ▸ hsaved)
          rw [if_neg hsaved] at hstatus
          exact ⟨hstatus, hconfig, hfinal, htrace⟩
      · exact absurd ⟨config, isAuthorised_of_parseRequest hparse hmethod hpath horigin hform⟩ hno
    · obtain ⟨reply, hrespond⟩ := respond_of_no_form store page answers hform
      refine ⟨reply, [], store, hrespond, fun config ⟨text, htext, h⟩ => ?_, fun _ => ⟨rfl, rfl⟩⟩
      obtain ⟨request', hok, hmethod, hpath, horigin, hform'⟩ := parseRequest_of_authorised h
      rw [← htext, hparse] at hok
      cases hok
      exact absurd ⟨hmethod, hpath, horigin, config, hform'⟩ hform

/-- The request of the settings page. -/
def pageRequest : RequestText where
  line := ascii "POST /api/config HTTP/1.1"
  headers := [(ascii "Host", ascii " 127.0.0.1:39029"), (ascii "X-CommonFPS", ascii " 1"),
    (ascii "Content-Type", ascii " application/x-www-form-urlencoded"),
    (ascii "Content-Length", ascii " 111")]
  body := ascii ("corner=bottom_left&font_size=22&margin_x=10&margin_y=4&show_label=1" ++
    "&label_color=%23B366FF&value_color=%23FFFFFF")

theorem pageRequest_authorised : Authorised pageRequest {} where
  length := by decide +kernel
  wellFormed := ⟨by decide +kernel, by decide +kernel, by decide +kernel⟩
  line := .inl rfl
  host := ⟨_, List.mem_cons_self, by decide +kernel, by decide +kernel⟩
  marker := ⟨_, List.mem_cons_of_mem _ List.mem_cons_self, by decide +kernel, by decide +kernel⟩
  type := ⟨(ascii "Content-Type", ascii " application/x-www-form-urlencoded"), by decide +kernel,
    by decide +kernel, by decide +kernel⟩
  origin := by
    have hno : ∀ header ∈ pageRequest.headers, header.1.map toLower ≠ ascii "origin" := by
      decide +kernel
    rintro value ⟨header, hheader, hname, -⟩
    exact absurd hname (hno header hheader)
  transferEncoding := by
    have hno : ∀ header ∈ pageRequest.headers,
        header.1.map toLower ≠ ascii "transfer-encoding" := by
      decide +kernel
    rintro value ⟨header, hheader, hname, -⟩
    exact absurd hname (hno header hheader)
  contentLength := ⟨ascii "111", ⟨(ascii "Content-Length", ascii " 111"), by decide +kernel,
    by decide +kernel, by decide +kernel⟩, by decide +kernel⟩
  body := by decide +kernel

/-- The page saves the default settings, in one piece. -/
theorem settings_http_pageRequest :
    IsAuthorised pageRequest.bytes {} ∧
      ∃ reply trace store', settingsHttpResponse pageRequest.bytes (.fromFiles {}) []
          { writes := [.wrote 500] } = some (reply, trace, store') ∧
        reply.status = 200 ∧ store'.files.final = some (serializeConfig {}) := by
  have hauth : IsAuthorised pageRequest.bytes {} := ⟨pageRequest, rfl, pageRequest_authorised⟩
  obtain ⟨reply, trace, store', hrespond, hsave, -⟩ :=
    settings_http pageRequest.bytes (.fromFiles {}) [] { writes := [.wrote 500] }
  have := hsave {} hauth
  rw [if_pos (by decide +kernel)] at this
  exact ⟨hauth, reply, trace, store', hrespond, this.1, this.2.2⟩

end CommonFps
