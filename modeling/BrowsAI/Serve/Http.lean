import BrowsAI.Library.ByteLines
import BrowsAI.Library.Json
import BrowsAI.Library.TextLines

/-!
# Requests and responses of the server

`handle_request` and `write_response` of the `serve` command of `browsai-cli`, from the bytes that a
client sends to the bytes that it gets. Of the headers only the content length is read, the last one
of several counts, and one that is no number is zero. What the paths of the server answer is a
parameter.
-/

namespace BrowsAI.Serve

open Utf8

/-- What comes and goes over the wire. -/
abbrev Bytes := List UInt8

/-! ## Requests -/

/-- A request as it is read. -/
structure HttpRequest where
  method : Text
  path : Text
  query : Text
  body : Bytes
  deriving DecidableEq

/-- Why a request is not read. -/
inductive RequestError where
  | emptyRequestLine
  | invalidUtf8
  deriving DecidableEq

/-- What the formatted error says. -/
def RequestError.message : RequestError → Text
  | .emptyRequestLine => "empty request line"
  | .invalidUtf8 => "stream did not contain valid UTF-8"

/-- The first of the lines, as text. -/
def readRequestLine : List Bytes → Except RequestError Text
  | [] => .error .emptyRequestLine
  | line :: _ =>
      match fromUtf8 line with
      | none => .error .invalidUtf8
      | some line => .ok line

/-- The method and the target; missing parts have defaults. -/
def splitRequestLine (line : Text) : Text × Text :=
  match split ' ' (trimEnd line) with
  | [] => ("GET", "/")
  | [method] => (method, "/")
  | method :: target :: _ => (method, target)

/-- The path and the query. -/
def splitPathQuery (pathWithQuery : Text) : Text × Text :=
  (splitOnce '?' pathWithQuery).getD (pathWithQuery, [])

/-- `s.parse::<usize>()` where a `usize` has 64 bits. -/
def parseUsize (s : Text) : Option Nat := parseUnsigned (2 ^ 64) s

/-- The content length after a header line. -/
def readHeader (contentLength : Nat) (trimmed : Text) : Nat :=
  match splitOnce ':' trimmed with
  | none => contentLength
  | some (name, value) =>
      if eqIgnoreAsciiCase (trim name) "content-length" then (parseUsize (trim value)).getD 0
      else contentLength

/-- The loop over the header lines: the content length, and the lines behind the blank one. -/
def readHeaders (contentLength : Nat) : List Bytes → Option (Nat × List Bytes)
  | [] => some (contentLength, [])
  | line :: rest =>
      match fromUtf8 line with
      | none => none
      | some line =>
          if (trimEnd line).isEmpty then some (contentLength, rest)
          else readHeaders (readHeader contentLength (trimEnd line)) rest

/-! ## Responses -/

/-- What is answered. -/
structure Response where
  status : UInt16
  statusText : Text
  contentType : Text
  body : Bytes

/-- The name of a status. -/
def statusText (code : UInt16) : Text :=
  if code = 200 then "OK"
  else if code = 400 then "Bad Request"
  else if code = 404 then "Not Found"
  else if code = 405 then "Method Not Allowed"
  else if code = 500 then "Internal Server Error"
  else "Unknown"

/-- An answer in JSON. -/
def Response.json (status : UInt16) (body : Bytes) : Response :=
  ⟨status, Serve.statusText status, "application/json", body⟩

/-- An answer as a text. -/
def Response.text (status : UInt16) (contentType : Text) (body : Bytes) : Response :=
  ⟨status, Serve.statusText status, contentType, body⟩

/-- The lines of a response before its body. -/
def responseHead (response : Response) : List Text :=
  ["HTTP/1.1 " ++ ofNat response.status.toNat ++ " " ++ response.statusText,
    "Content-Type: " ++ response.contentType,
    "Content-Length: " ++ ofNat response.body.length,
    "Connection: close", []]

/-- A line with the end that lines have in a message. -/
def crlf (line : Text) : Text := line ++ ("\r\n" : Text)

/-- `write_response`: the bytes that are written to the stream. -/
def writeResponse (response : Response) : Bytes :=
  toBytes ((responseHead response).flatMap crlf) ++ response.body

/-- `write_http_error`: a response with the message as JSON. -/
def writeHttpError (status : UInt16) (message : Text) : Bytes :=
  writeResponse (.json status
    (toBytes (JsonPrint.object [("error", JsonPrint.quote message)])))

/-! ## The exchange -/

/-- What becomes of a connection: an answer, an error of the stream that is only logged, or a panic
because no vector is that long. -/
inductive Outcome where
  | answered (output : Bytes)
  | failed
  | panicked
  deriving DecidableEq

/-- `isize::MAX`, the length of the longest vector of bytes. -/
def maxVecLength : Nat := 2 ^ 63 - 1

/-- `handle_request` on all bytes that the client sends before it closes its side. -/
def handleRequest (route : HttpRequest → Response) (input : Bytes) : Outcome :=
  match readRequestLine (rawLines input) with
  | .error error => .answered (writeHttpError 400 ("bad request: " ++ error.message))
  | .ok requestLine =>
      let (method, pathWithQuery) := splitRequestLine requestLine
      let (path, query) := splitPathQuery pathWithQuery
      match readHeaders 0 (rawLines input).tail with
      | none => .failed
      | some (contentLength, rest) =>
          if maxVecLength < contentLength then .panicked
          else if rest.flatten.length < contentLength then .failed
          else
            let body := rest.flatten.take contentLength
            .answered (writeResponse (route { method, path, query, body }))

/-! ## Lines of a message -/

theorem trim_end_crlf (line : Text) : trimEnd (crlf line) = trimEnd line :=
  trim_end_append (forall_mem_of_all rfl) line

/-- The lines of a head stand before those of the body. -/
theorem raw_lines_head {lines : List Text} (h : ∀ line ∈ lines, '\n' ∉ line) (body : Bytes) :
    rawLines (toBytes (lines.flatMap crlf) ++ body) =
      lines.map (fun line => toBytes (crlf line)) ++ rawLines body := by
  induction lines with
  | nil => rfl
  | cons line lines ih =>
      obtain ⟨hline, hlines⟩ := List.forall_mem_cons.mp h
      have hreturn : '\n' ∉ line ++ ['\r'] := by
        rw [List.mem_append, not_or]
        exact ⟨hline, by decide⟩
      have hcrlf : crlf line = (line ++ ['\r']) ++ ['\n'] := by rw [List.append_assoc]; rfl
      rw [List.flatMap_cons, to_bytes_append, List.append_assoc, hcrlf,
        raw_lines_to_bytes hreturn, ih hlines, List.map_cons, hcrlf]
      rfl

/-! ## What a client sends -/

/-- A request as a client writes it, with the version behind the target and the header fields. -/
structure Message where
  request : HttpRequest
  version : Text
  headers : List (Text × Text)

namespace Message

/-- The path with its query. -/
def target (message : Message) : Text :=
  if message.request.query = [] then message.request.path
  else message.request.path ++ '?' :: message.request.query

/-- The first line of a message. -/
def requestLine (message : Message) : Text :=
  message.request.method ++ ' ' :: (message.target ++ ' ' :: message.version)

/-- A line for a header. -/
def headerLine (field : Text × Text) : Text := field.1 ++ ':' :: field.2

/-- The lines before the body. -/
def head (message : Message) : List Text :=
  message.requestLine :: (message.headers.map headerLine ++ [[]])

/-- The bytes of a message. -/
def write (message : Message) : Bytes :=
  toBytes (message.head.flatMap crlf) ++ message.request.body

/-- The field tells the length of the body. -/
def isContentLength (field : Text × Text) : Bool :=
  eqIgnoreAsciiCase (trim field.1) "content-length"

/-- What the last of the fields for it says about the content length. -/
def declaredLength (headers : List (Text × Text)) : Nat :=
  ((headers.filter isContentLength).getLast?.bind fun field => parseUsize (trim field.2)).getD 0

/-- No part of the head has a character that would end it, and the content length is right. -/
structure WellFormed (message : Message) : Prop where
  method : ∀ c ∈ message.request.method, ¬ isWhitespace c
  target : ∀ c ∈ message.target, ¬ isWhitespace c
  version : message.version ≠ [] ∧ ∀ c ∈ message.version, ¬ isWhitespace c
  path : '?' ∉ message.request.path
  fields : ∀ field ∈ message.headers, ':' ∉ field.1 ∧ '\n' ∉ field.1 ∧ '\n' ∉ field.2
  length : declaredLength message.headers = message.request.body.length
  fits : message.request.body.length ≤ maxVecLength

/-- The target is read as path and query. -/
theorem split_path_query_target (message : Message) (h : '?' ∉ message.request.path) :
    splitPathQuery message.target = (message.request.path, message.request.query) := by
  rw [splitPathQuery, target]
  split_ifs with hquery
  · have hnone : splitOnce '?' message.request.path = none := by
      cases hsplit : splitOnce '?' message.request.path with
      | none => rfl
      | some parts =>
          obtain ⟨heq, -⟩ := splitOnce_eq_some_iff.mp hsplit
          exact absurd (by rw [heq]; simp) h
    rw [hnone, hquery]
    rfl
  · rw [splitOnce_append h]
    rfl

theorem not_mem_of_not_whitespace {c : Char} (hc : isWhitespace c = true) {s : Text}
    (h : ∀ d ∈ s, ¬ isWhitespace d) : c ∉ s := fun hmem => h c hmem hc

/-- The first line is read as method and target. -/
theorem split_request_line {message : Message} (h : message.WellFormed) :
    splitRequestLine (crlf message.requestLine) = (message.request.method, message.target) := by
  have hspace : isWhitespace ' ' = true := by decide
  have hend : trimEnd message.requestLine = message.requestLine := by
    refine trim_end_eq_self fun c hc => h.version.2 c ?_
    have hlast : message.requestLine.getLast? = message.version.getLast? := by
      rw [requestLine, List.getLast?_append, List.getLast?_cons, List.getLast?_append,
        List.getLast?_cons]
      obtain ⟨d, hd⟩ := Option.isSome_iff_exists.mp (List.getLast?_isSome.mpr h.version.1)
      rw [hd]
      rfl
    rw [hlast] at hc
    exact List.mem_of_getLast? hc
  obtain ⟨first, rest, hversion⟩ :=
    List.exists_cons_of_ne_nil (List.splitOn_ne_nil ' ' message.version)
  rw [splitRequestLine, trim_end_crlf, hend, requestLine,
    split_append_cons (not_mem_of_not_whitespace hspace h.method),
    split_append_cons (not_mem_of_not_whitespace hspace h.target), split, hversion]

/-! ## The header loop -/

theorem trim_end_header_line {field : Text × Text} :
    trimEnd (crlf (headerLine field)) = field.1 ++ ':' :: trimEnd field.2 := by
  rw [trim_end_crlf, headerLine, trimEnd_append_cons _ (by decide)]

/-- A field for the content length replaces it. -/
theorem read_header_line {field : Text × Text} (h : ':' ∉ field.1) (contentLength : Nat) :
    readHeader contentLength (trimEnd (crlf (headerLine field))) =
      if isContentLength field then (parseUsize (trim field.2)).getD 0 else contentLength := by
  rw [readHeader, trim_end_header_line, splitOnce_append h]
  dsimp only
  rw [trim_trim_end, isContentLength]

/-- The last field counts. By induction on the fields from behind. -/
theorem foldl_read_header (headers : List (Text × Text)) :
    headers.foldl (fun contentLength field =>
      if isContentLength field then (parseUsize (trim field.2)).getD 0 else contentLength) 0 =
        declaredLength headers := by
  induction headers using List.reverseRecOn with
  | nil => rfl
  | append_singleton headers field ih =>
      rw [List.foldl_append, declaredLength, List.filter_append, List.filter_singleton]
      show (if isContentLength field then _ else _) = _
      split_ifs with hfield
      · rw [hfield, cond_true, List.getLast?_append]
        rfl
      · rw [Bool.eq_false_iff.mpr hfield, cond_false, List.append_nil]
        exact ih

/-- The loop reads the fields and stops behind the blank line. -/
theorem read_headers_eq {headers : List (Text × Text)} (h : ∀ field ∈ headers, ':' ∉ field.1)
    (contentLength : Nat) (rest : List Bytes) :
    readHeaders contentLength
        ((headers.map headerLine ++ [[]]).map (fun line => toBytes (crlf line)) ++ rest) =
      some (headers.foldl (fun contentLength field =>
        if isContentLength field then (parseUsize (trim field.2)).getD 0 else contentLength)
          contentLength, rest) := by
  induction headers generalizing contentLength with
  | nil =>
      show readHeaders contentLength (toBytes (crlf []) :: rest) = _
      rw [readHeaders, from_utf8_to_bytes]
      rfl
  | cons field headers ih =>
      obtain ⟨hfield, hheaders⟩ := List.forall_mem_cons.mp h
      have hne : (trimEnd (crlf (headerLine field))).isEmpty = false := by
        rw [trim_end_header_line]
        simp
      show readHeaders contentLength (toBytes (crlf (headerLine field)) ::
        ((headers.map headerLine ++ [[]]).map (fun line => toBytes (crlf line)) ++ rest)) = _
      rw [readHeaders, from_utf8_to_bytes]
      dsimp only
      rw [hne, read_header_line hfield, ih hheaders]
      rfl

/-- No line of the head has a line feed. -/
theorem WellFormed.not_mem_head {message : Message} (h : message.WellFormed) :
    ∀ line ∈ message.head, '\n' ∉ line := by
  have hfeed : isWhitespace '\n' = true := by decide
  intro line hline
  rcases List.mem_cons.mp hline with rfl | hline
  · rw [requestLine, List.mem_append, List.mem_cons, List.mem_append, List.mem_cons]
    rintro (hmem | hmem | hmem | hmem | hmem)
    · exact not_mem_of_not_whitespace hfeed h.method hmem
    · exact absurd hmem (by decide)
    · exact not_mem_of_not_whitespace hfeed h.target hmem
    · exact absurd hmem (by decide)
    · exact not_mem_of_not_whitespace hfeed h.version.2 hmem
  rcases List.mem_append.mp hline with hline | hline
  · obtain ⟨field, hfield, rfl⟩ := List.mem_map.mp hline
    rw [headerLine, List.mem_append, List.mem_cons]
    rintro (hmem | hmem | hmem)
    · exact (h.fields field hfield).2.1 hmem
    · exact absurd hmem (by decide)
    · exact (h.fields field hfield).2.2 hmem
  · rw [List.mem_singleton.mp hline]
    exact List.not_mem_nil

/-- A message is read as its request, whatever follows it. -/
theorem handle_request_write (route : HttpRequest → Response) {message : Message}
    (h : message.WellFormed) (extra : Bytes) :
    handleRequest route (message.write ++ extra) =
      .answered (writeResponse (route message.request)) := by
  have hlines : rawLines (message.write ++ extra) =
      toBytes (crlf message.requestLine) ::
        ((message.headers.map headerLine ++ [[]]).map (fun line => toBytes (crlf line)) ++
          rawLines (message.request.body ++ extra)) := by
    rw [write, List.append_assoc, raw_lines_head h.not_mem_head]
    rfl
  have hheaders := read_headers_eq (fun field hfield => (h.fields field hfield).1) 0
    (rawLines (message.request.body ++ extra))
  rw [foldl_read_header, h.length] at hheaders
  have hbody : ¬ (message.request.body ++ extra).length < message.request.body.length := by
    rw [List.length_append]
    omega
  rw [handleRequest, hlines, readRequestLine, from_utf8_to_bytes]
  dsimp only
  rw [split_request_line h, List.tail_cons, hheaders]
  dsimp only
  rw [split_path_query_target message h.path, if_neg (Nat.not_lt.mpr h.fits), flatten_raw_lines,
    if_neg hbody, List.take_left]

end Message

/-! ## What a client reads -/

/-- The header fields up to the blank line, with their values trimmed, and the lines behind it. -/
def readFields : List Bytes → Option (List (Text × Text) × List Bytes)
  | [] => none
  | line :: rest => do
      let line ← fromUtf8 line
      if (trimEnd line).isEmpty then some ([], rest)
      else
        let (name, value) ← splitOnce ':' line
        let (fields, rest) ← readFields rest
        some ((name, trim value) :: fields, rest)

/-- The status, the content type, and the body of a response, if it has just as many bytes as it says
that it has. -/
def readResponse (output : Bytes) : Option (Nat × Text × Bytes) :=
  match rawLines output with
  | [] => none
  | statusLine :: rest => do
      let line ← fromUtf8 statusLine
      let status ← (split ' ' line)[1]?.bind parseDigits
      let (fields, lines) ← readFields rest
      let contentType ← fields.lookup ("Content-Type" : Text)
      let length ← (fields.lookup ("Content-Length" : Text)).bind parseDigits
      if lines.flatten.length = length then some (status, contentType, lines.flatten) else none

/-- The status text and the content type keep to their lines. -/
structure Response.Printable (response : Response) : Prop where
  statusText : '\n' ∉ response.statusText
  contentType : '\n' ∉ response.contentType ∧ trim response.contentType = response.contentType

theorem not_mem_status_text (code : UInt16) : '\n' ∉ statusText code := by
  rw [statusText]
  split_ifs
  all_goals decide

theorem text_printable (status : UInt16) {contentType : Text} (body : Bytes)
    (h : '\n' ∉ contentType ∧ trim contentType = contentType) :
    (Response.text status contentType body).Printable := ⟨not_mem_status_text status, h⟩

/-- The answer of the route for the root of the server keeps to its lines. -/
theorem plain_printable (status : UInt16) (body : Bytes) :
    (Response.text status "text/plain; charset=utf-8" body).Printable :=
  text_printable status body ⟨by decide, by decide⟩

/-- The answers of all other routes do. -/
theorem json_printable (status : UInt16) (body : Bytes) : (Response.json status body).Printable :=
  text_printable status body ⟨by decide, by decide⟩

theorem trim_crlf (line : Text) : trim (crlf line) = trim line := by
  rw [← trim_trim_end, trim_end_crlf, trim_trim_end]

/-- A field with a blank before its value is read. -/
theorem read_fields_cons {name : Text} (hname : ':' ∉ name) (value : Text) (rest : List Bytes) :
    readFields (toBytes (crlf (name ++ ':' :: ' ' :: value)) :: rest) =
      (readFields rest).map fun (fields, lines) => ((name, trim value) :: fields, lines) := by
  have hline : crlf (name ++ ':' :: ' ' :: value) = name ++ ':' :: ' ' :: crlf value := by
    rw [crlf, crlf, List.append_assoc]
    rfl
  have hne : (trimEnd (crlf (name ++ ':' :: ' ' :: value))).isEmpty = false := by
    rw [trim_end_crlf, trimEnd_append_cons _ (by decide)]
    simp
  have hvalue : trim (' ' :: crlf value) = trim value := by
    rw [← trim_crlf value]
    rfl
  rw [readFields, from_utf8_to_bytes]
  simp only [Option.bind_eq_bind, Option.bind_some, hne, Bool.false_eq_true, if_false]
  rw [hline, splitOnce_append hname]
  simp only [Option.bind_some, hvalue]
  cases readFields rest with
  | none => rfl
  | some found => rfl

theorem split_space_of_nat (n : Nat) (s : Text) :
    split ' ' (ofNat n ++ ' ' :: s) = ofNat n :: split ' ' s :=
  split_append_cons (not_mem_of_nat (by decide) n) s

/-- A response is read as what it is. -/
theorem read_response_write {response : Response} (h : response.Printable) :
    readResponse (writeResponse response) =
      some (response.status.toNat, response.contentType, response.body) := by
  have hdigits (n : Nat) : '\n' ∉ ofNat n := not_mem_of_nat (by decide) n
  have hhead : ∀ line ∈ responseHead response, '\n' ∉ line := by
    simp only [responseHead, List.forall_mem_cons, List.mem_append, not_or]
    exact ⟨⟨⟨⟨by decide, hdigits _⟩, by decide⟩, h.statusText⟩, ⟨by decide, h.contentType.1⟩,
      ⟨by decide, hdigits _⟩, by decide, List.not_mem_nil, nofun⟩
  have hstatus : ((split ' ' (crlf ("HTTP/1.1 " ++ ofNat response.status.toNat ++ " " ++
      response.statusText)))[1]?.bind parseDigits) = some response.status.toNat := by
    have hline : crlf ("HTTP/1.1 " ++ ofNat response.status.toNat ++ " " ++ response.statusText) =
        ("HTTP/1.1" : Text) ++ ' ' :: (ofNat response.status.toNat ++ ' ' ::
          crlf response.statusText) := by
      simp only [crlf, List.append_assoc]
      rfl
    rw [hline, split_append_cons (by decide), split_space_of_nat]
    exact parse_digits_of_nat _
  have hfields : readFields (["Content-Type: " ++ response.contentType,
        "Content-Length: " ++ ofNat response.body.length, "Connection: close", []].map
          (fun line => toBytes (crlf line)) ++ rawLines response.body) =
      some ([(("Content-Type" : Text), trim response.contentType),
        (("Content-Length" : Text), trim (ofNat response.body.length)),
        (("Connection" : Text), trim "close")], rawLines response.body) := by
    have hblank : readFields (toBytes (crlf []) :: rawLines response.body) =
        some ([], rawLines response.body) := by
      rw [readFields, from_utf8_to_bytes]
      rfl
    show readFields (toBytes (crlf (("Content-Type" : Text) ++ ':' :: ' ' :: response.contentType)) ::
      toBytes (crlf (("Content-Length" : Text) ++ ':' :: ' ' :: ofNat response.body.length)) ::
      toBytes (crlf (("Connection" : Text) ++ ':' :: ' ' :: "close")) ::
      toBytes (crlf []) :: rawLines response.body) = _
    rw [read_fields_cons (by decide), read_fields_cons (by decide), read_fields_cons (by decide),
      hblank]
    rfl
  rw [readResponse, writeResponse, raw_lines_head hhead, responseHead, List.map_cons,
    List.cons_append]
  dsimp only
  rw [from_utf8_to_bytes]
  simp only [Option.bind_eq_bind, Option.bind_some, hstatus]
  rw [hfields, Option.bind_some]
  show (some (trim response.contentType)).bind (fun contentType =>
    ((some (trim (ofNat response.body.length))).bind parseDigits).bind fun length => _) = _
  rw [Option.bind_some, Option.bind_some, trim_of_nat, parse_digits_of_nat, Option.bind_some,
    flatten_raw_lines, if_pos rfl, h.contentType.2]

/-- An error is read as a response with its message. -/
theorem read_http_error (status : UInt16) (message : Text) :
    readResponse (writeHttpError status message) = some (status.toNat, ("application/json" : Text),
      toBytes (JsonPrint.object [("error", JsonPrint.quote message)])) :=
  read_response_write (json_printable status _)

/-- The server answers a well-formed request, whatever the client sends behind it, and what it answers
is read as the response of the route for just this request. -/
theorem exchange (route : HttpRequest → Response) (hroute : ∀ request, (route request).Printable)
    (message : Message) (h : message.WellFormed) (extra : Bytes) :
    ∃ output, handleRequest route (message.write ++ extra) = .answered output ∧
      readResponse output = some ((route message.request).status.toNat,
        (route message.request).contentType, (route message.request).body) :=
  ⟨_, message.handle_request_write route h extra, read_response_write (hroute message.request)⟩

/-- A route that gives the name of the server, or answers with what it was sent. -/
def echo (request : HttpRequest) : Response :=
  if request.path = "/" then .text 200 "text/plain; charset=utf-8" (toBytes "browsai")
  else .json 200 request.body

/-- Two fields for the content length, the second of which is right. -/
def greeting : Message where
  request := ⟨"POST", "/browse", "mode=fast", [104, 105]⟩
  version := "HTTP/1.1"
  headers := [("Content-Length", " 7"), ("content-length ", "2"), ("Host", " localhost:80")]

/-- A request and its answer. -/
theorem greeting_exchange :
    ∃ output, handleRequest echo (greeting.write ++ [33]) = .answered output ∧
      readResponse output =
        some (200, ("application/json" : Text), ([104, 105] : Bytes)) := by
  have hroute : ∀ request, (echo request).Printable := by
    intro request
    rw [echo]
    split_ifs
    · exact plain_printable 200 _
    · exact json_printable 200 request.body
  have hwell : greeting.WellFormed :=
    ⟨forall_mem_of_all rfl, forall_mem_of_all rfl, ⟨by decide, forall_mem_of_all rfl⟩, by decide,
      by decide, by decide, by decide⟩
  exact exchange echo hroute greeting hwell [33]

end BrowsAI.Serve
