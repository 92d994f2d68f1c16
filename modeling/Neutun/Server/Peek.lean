/-
  Neutun/Server/Peek.lean
  =======================
  How the server learns the host of a remote connection
  (`peek_http_request_host` of `remote.rs`).

  The function peeks once, at whatever has arrived, and parses that.  A parse of
  less than the whole request is no error: it reports the header lines that are
  complete, and a `Host` line that is not among them is not there.  So the result
  depends on how much has arrived (`peek_segmentation_iff`).

  The parser is `httparse`, a parameter here.  What is used of it is that it
  reports each initial part of a request that way (`Reports`).
-/
import Neutun.Server.State

namespace Neutun

open Foundation

/-! ### `httparse` -/

/-- `httparse::Header` -/
structure Header where
  name : Text
  value : Bytes
deriving DecidableEq

/-- The unused places of the array of headers. -/
def EMPTY_HEADER : Header := ⟨[], []⟩

/-- What is read of a `httparse::Request` after a parse, complete or partial. -/
structure Request where
  path : Option Text
  headers : List Header

/-! ### `peek_http_request_host` -/

def HTTP_OK_RESPONSE : Bytes := utf8 "HTTP/1.1 200 OK\r\nContent-Length: 2\r\n\r\nok".toList

def HEALTH_CHECK_PATH : Bytes := utf8 "/0xDEADBEEF_HEALTH_CHECK".toList

def MAX_HEADER_PEAK : Nat := 4096

structure StreamWithPeekedHost where
  host : Text
  forwardedFor : Text
deriving DecidableEq

variable (p : Platform) (parse : Bytes → Option Request)

/-- The header has the name, given in lower case. -/
def Header.named (name : Text) (h : Header) : Bool := decide (p.toLowercase h.name = name)

/-- The first header of the name, if it is valid UTF-8. -/
def textOf (headers : List Header) (name : Text) : Option Text :=
  (headers.find? (Header.named p name)).bind fun h => fromUtf8 h.value

/-- The host and what is written to the socket; no bytes are what `peek` returns
    at the end of the stream, `none` an error of it. -/
def peekHttpRequestHost (peeked : Option Bytes) : Option StreamWithPeekedHost × Bytes :=
  match peeked with
  | none => (none, [])
  | some buf =>
    if buf = [] then (none, [])
    else
      match parse buf with
      | none => (none, [])
      | some req =>
        -- Handle the health check route
        if req.path.map utf8 = some HEALTH_CHECK_PATH then (none, HTTP_OK_RESPONSE)
        else
          let forwardedFor := (textOf p req.headers "x-forwarded-for".toList).getD []
          match textOf p req.headers "host".toList with
          | some host => (some ⟨host, forwardedFor⟩, [])
          | none => (none, [])

/-! ### Requests -/

/-- A header line and what it says. -/
structure HeaderLine where
  raw : Bytes
  header : Header

/-- A request as it is sent.  Its path is known after `pathEnd` bytes, and `rest`
    is the empty line and the body. -/
structure HttpRequest where
  requestLine : Bytes
  path : Text
  pathEnd : Nat
  lines : List HeaderLine
  rest : Bytes
  pathEnd_pos : 0 < pathEnd
  pathEnd_le : pathEnd ≤ requestLine.length
  lines_le : lines.length ≤ 64

/-- The headers of the lines that are complete in the first `n` bytes. -/
def completeLines : List HeaderLine → Nat → List Header
  | [], _ => []
  | line :: lines, n =>
    if line.raw.length ≤ n then line.header :: completeLines lines (n - line.raw.length) else []

namespace HttpRequest

variable (r : HttpRequest)

def bytes : Bytes := r.requestLine ++ r.lines.flatMap HeaderLine.raw ++ r.rest

def headers : List Header := r.lines.map HeaderLine.header

/-- The headers that are complete in the first `n` bytes of the request. -/
def complete (n : Nat) : List Header :=
  if r.requestLine.length ≤ n then completeLines r.lines (n - r.requestLine.length) else []

/-- All lines of the name lie within the first `n` bytes. -/
def Within (name : Text) (n : Nat) : Prop :=
  ∀ before line after, r.lines = before ++ line :: after → line.header.named p name = true →
    r.requestLine.length + ((before ++ [line]).flatMap HeaderLine.raw).length ≤ n

/-- A line of the name is complete in the first `n` bytes. -/
def Has (name : Text) (n : Nat) : Prop := ∃ h ∈ r.complete n, h.named p name = true

/-- `httparse` reports of each initial part of the request the path, once it is
    there, and the header lines that are complete. -/
def Reports : Prop :=
  ∀ n, ∃ spare, parse (r.bytes.take n) = some
    ⟨if r.pathEnd ≤ n then some r.path else none,
      r.complete n ++ List.replicate spare EMPTY_HEADER⟩

end HttpRequest

/-! ### Complete lines -/

theorem completeLines_isPrefix (lines : List HeaderLine) (n : Nat) :
    completeLines lines n <+: lines.map HeaderLine.header := by
  induction lines generalizing n with
  | nil => exact List.prefix_refl _
  | cons line lines ih =>
    rw [completeLines, List.map_cons]
    split
    · exact (List.prefix_cons_inj _).mpr (ih _)
    · exact List.nil_prefix

/-- A line that ends in time is complete. -/
theorem mem_completeLines {before after : List HeaderLine} {line : HeaderLine} {n : Nat}
    (h : ((before ++ [line]).flatMap HeaderLine.raw).length ≤ n) :
    line.header ∈ completeLines (before ++ line :: after) n := by
  induction before generalizing n with
  | nil =>
    rw [List.nil_append, List.flatMap_singleton] at h
    rw [List.nil_append, completeLines, if_pos h]
    exact List.mem_cons_self
  | cons first before ih =>
    rw [List.cons_append, List.flatMap_cons, List.length_append] at h
    rw [List.cons_append, completeLines, if_pos (by omega)]
    apply List.mem_cons_of_mem
    exact ih (by omega)

namespace HttpRequest

variable {p parse} {r : HttpRequest} {name : Text} {n : Nat}

theorem complete_isPrefix (r : HttpRequest) (n : Nat) : r.complete n <+: r.headers := by
  unfold complete
  split
  · exact completeLines_isPrefix _ _
  · exact List.nil_prefix

theorem complete_of_lt (h : n < r.pathEnd) : r.complete n = [] :=
  if_neg (by have := r.pathEnd_le; omega)

/-- With one line of the name complete, the first one is. -/
theorem textOf_complete (h : r.Has p name n) :
    textOf p (r.complete n) name = textOf p r.headers name := by
  obtain ⟨found, hmem, hnamed⟩ := h
  cases hfind : (r.complete n).find? (Header.named p name) with
  | none => exact absurd hnamed (List.find?_eq_none.mp hfind found hmem)
  | some first =>
    rw [textOf, textOf, hfind, (r.complete_isPrefix n).find?_eq_some hfind]

theorem textOf_incomplete (h : ¬ r.Has p name n) : textOf p (r.complete n) name = none := by
  have hnone : (r.complete n).find? (Header.named p name) = none := by
    rw [List.find?_eq_none]
    intro found hmem hnamed
    exact h ⟨found, hmem, hnamed⟩
  rw [textOf, hnone]
  rfl

/-- Of lines that are all within the bytes nothing is missed. -/
theorem textOf_within (h : r.Within p name n) :
    textOf p (r.complete n) name = textOf p r.headers name := by
  by_cases hhas : r.Has p name n
  · exact textOf_complete hhas
  · have hnone : r.headers.find? (Header.named p name) = none := by
      rw [List.find?_eq_none]
      intro found hmem hnamed
      obtain ⟨line, hline, rfl⟩ := List.mem_map.mp hmem
      obtain ⟨before, after, hlines⟩ := List.append_of_mem hline
      have hend := h before line after hlines hnamed
      apply hhas
      refine ⟨line.header, ?_, hnamed⟩
      rw [complete, if_pos (by omega), hlines]
      exact mem_completeLines (by omega)
    rw [textOf_incomplete hhas, textOf, hnone]
    rfl

/-- The unused places of the array have no name. -/
theorem textOf_spare (headers : List Header) (spare : Nat) (hname : name ≠ []) :
    textOf p (headers ++ List.replicate spare EMPTY_HEADER) name = textOf p headers name := by
  have hlower : p.toLowercase [] = [] := p.toLowercase_ascii [] nofun
  have hempty : (List.replicate spare EMPTY_HEADER).find? (Header.named p name) = none := by
    rw [List.find?_eq_none]
    intro h hmem hnamed
    rw [(List.mem_replicate.mp hmem).2, Header.named, decide_eq_true_eq, EMPTY_HEADER,
      hlower] at hnamed
    exact hname hnamed.symm
  rw [textOf, textOf, List.find?_append, hempty, Option.or_none]

/-- What is found in the first bytes of a request. -/
theorem peek_take (hreports : r.Reports parse) (hn : 0 < n) :
    (peekHttpRequestHost p parse (some (r.bytes.take n))).1 =
      if utf8 r.path = HEALTH_CHECK_PATH then none
      else (textOf p (r.complete n) "host".toList).map fun host =>
        ⟨host, (textOf p (r.complete n) "x-forwarded-for".toList).getD []⟩ := by
  obtain ⟨spare, hparse⟩ := hreports n
  have hsome : r.bytes.take n ≠ [] := by
    have hpos := r.pathEnd_pos
    have hle := r.pathEnd_le
    rw [← List.length_pos_iff, List.length_take, bytes, List.length_append, List.length_append]
    omega
  simp only [peekHttpRequestHost, if_neg hsome, hparse]
  rw [textOf_spare _ _ (by decide), textOf_spare _ _ (by decide)]
  by_cases hpath : r.pathEnd ≤ n
  · simp only [if_pos hpath, Option.map_some, Option.some.injEq]
    split
    · rfl
    · cases textOf p (r.complete n) "host".toList <;> rfl
  · -- nothing is complete before the path is
    rw [if_neg hpath, complete_of_lt (Nat.lt_of_not_le hpath)]
    have hnothing : ∀ name, textOf p [] name = none := fun _ => rfl
    simp only [hnothing, Option.map_none, reduceCtorEq, if_false]
    exact (ite_self _).symm

end HttpRequest

/-- What is found in the first bytes of a request is what is found in all bytes
    that fit the buffer, exactly if nothing is to be found, or the `Host` line is
    complete, and so is that of `X-Forwarded-For` unless it says nothing. -/
theorem peek_segmentation_iff (p : Platform) (parse : Bytes → Option Request) (r : HttpRequest)
    (hreports : r.Reports parse) (hhost : r.Within p "host".toList MAX_HEADER_PEAK)
    (hforwarded : r.Within p "x-forwarded-for".toList MAX_HEADER_PEAK) (n : Nat) (hpos : 0 < n)
    (hn : n ≤ MAX_HEADER_PEAK) :
    (peekHttpRequestHost p parse (some (r.bytes.take n))).1 =
        (peekHttpRequestHost p parse (some (r.bytes.take MAX_HEADER_PEAK))).1 ↔
      utf8 r.path = HEALTH_CHECK_PATH ∨ textOf p r.headers "host".toList = none ∨
        r.Has p "host".toList n ∧
          (r.Has p "x-forwarded-for".toList n ∨
            (textOf p r.headers "x-forwarded-for".toList).getD [] = []) := by
  rw [HttpRequest.peek_take hreports hpos,
    HttpRequest.peek_take hreports (Nat.lt_of_lt_of_le hpos hn), HttpRequest.textOf_within hhost,
    HttpRequest.textOf_within hforwarded]
  generalize "host".toList = host
  generalize "x-forwarded-for".toList = forwarded
  by_cases hhealth : utf8 r.path = HEALTH_CHECK_PATH
  · simp only [hhealth, if_true, true_or]
  rw [if_neg hhealth, if_neg hhealth]
  by_cases hhas : r.Has p host n
  · rw [HttpRequest.textOf_complete hhas]
    cases hvalue : textOf p r.headers host with
    | none => simp
    | some value =>
      by_cases hhas' : r.Has p forwarded n
      · rw [HttpRequest.textOf_complete hhas']
        simp [hhas, hhas']
      · rw [HttpRequest.textOf_incomplete hhas']
        simp only [Option.getD_none, Option.map_some, Option.some.injEq, hhealth, hhas, hhas',
          StreamWithPeekedHost.mk.injEq, true_and, false_or, reduceCtorEq]
        exact eq_comm
  · rw [HttpRequest.textOf_incomplete hhas]
    cases hvalue : textOf p r.headers host with
    | none => simp
    | some value => simp [hhealth, hhas]

/-! ### A request in pieces -/

theorem completeLines_of_le {lines : List HeaderLine} {n : Nat}
    (h : (lines.flatMap HeaderLine.raw).length ≤ n) :
    completeLines lines n = lines.map HeaderLine.header := by
  induction lines generalizing n with
  | nil => rfl
  | cons line lines ih =>
    rw [List.flatMap_cons, List.length_append] at h
    rw [completeLines, if_pos (by omega), ih (by omega), List.map_cons]

namespace HttpRequest

/-- What `httparse` answers for the initial parts of one request: the array of
    headers is cut to size when the empty line is there. -/
def parser (r : HttpRequest) (buf : Bytes) : Option Request :=
  let headers := r.complete buf.length
  let spare := if r.bytes.length ≤ buf.length + r.rest.length - 2 then 0 else 64 - headers.length
  some ⟨if r.pathEnd ≤ buf.length then some r.path else none,
    headers ++ List.replicate spare EMPTY_HEADER⟩

theorem reports_whole (r : HttpRequest) : r.Reports r.parser := by
  intro n
  have hlen : r.bytes.length =
      r.requestLine.length + (r.lines.flatMap HeaderLine.raw).length + r.rest.length := by
    rw [bytes, List.length_append, List.length_append]
  have hpath := r.pathEnd_le
  have hcomplete : r.complete (r.bytes.take n).length = r.complete n := by
    rw [List.length_take]
    rcases Nat.le_total n r.bytes.length with hle | hge
    · rw [Nat.min_eq_left hle]
    · rw [Nat.min_eq_right hge, complete, complete, if_pos (by omega), if_pos (by omega),
        completeLines_of_le (by omega), completeLines_of_le (by omega)]
  have hknown : r.pathEnd ≤ (r.bytes.take n).length ↔ r.pathEnd ≤ n := by
    rw [List.length_take]
    omega
  simp only [parser, hcomplete, hknown]
  exact ⟨_, rfl⟩

/-- A request for "a.b.co" that has come through a proxy. -/
def sample : HttpRequest where
  requestLine := utf8 "GET / HTTP/1.1\r\n".toList
  path := "/".toList
  pathEnd := 6
  lines :=
    [⟨utf8 "Host: a.b.co\r\n".toList, ⟨"Host".toList, utf8 "a.b.co".toList⟩⟩,
      ⟨utf8 "X-Forwarded-For: 1.2.3.4\r\n".toList,
        ⟨"X-Forwarded-For".toList, utf8 "1.2.3.4".toList⟩⟩]
  rest := utf8 "\r\n".toList
  pathEnd_pos := by decide
  pathEnd_le := by decide
  lines_le := by decide

theorem sample_within (name : Text) : sample.Within Platform.ascii name MAX_HEADER_PEAK := by
  intro before line after hlines _
  have hle : ((before ++ [line]).flatMap HeaderLine.raw).length ≤
      (sample.lines.flatMap HeaderLine.raw).length := by
    rw [hlines, List.flatMap_append, List.flatMap_append, List.length_append, List.length_append]
    simp
  have hshort : sample.requestLine.length + (sample.lines.flatMap HeaderLine.raw).length ≤
      MAX_HEADER_PEAK := by decide
  omega

end HttpRequest

open HttpRequest in
/-- With both lines complete the rest of the request does not matter. -/
theorem peek_segmentation_iff_lines :
    (peekHttpRequestHost Platform.ascii sample.parser (some (sample.bytes.take 56))).1 =
      (peekHttpRequestHost Platform.ascii sample.parser
        (some (sample.bytes.take MAX_HEADER_PEAK))).1 := by
  apply (peek_segmentation_iff Platform.ascii sample.parser sample sample.reports_whole
    (sample_within _) (sample_within _) 56 (by decide) (by decide)).mpr
  right
  right
  have hhost : sample.Has Platform.ascii "host".toList 56 :=
    ⟨⟨"Host".toList, utf8 "a.b.co".toList⟩, List.mem_cons_self, rfl⟩
  have hforwarded : sample.Has Platform.ascii "x-forwarded-for".toList 56 :=
    ⟨⟨"X-Forwarded-For".toList, utf8 "1.2.3.4".toList⟩,
      List.mem_cons_of_mem _ List.mem_cons_self, rfl⟩
  exact ⟨hhost, Or.inl hforwarded⟩

open HttpRequest in
/-- The same request is dropped if its first 20 bytes are there, has no
    `X-Forwarded-For` if 30 are, and both lines are found if all are. -/
theorem host_lost_in_pieces :
    sample.Reports sample.parser ∧
      (∀ name, sample.Within Platform.ascii name MAX_HEADER_PEAK) ∧
      (peekHttpRequestHost Platform.ascii sample.parser (some (sample.bytes.take 20))).1 = none ∧
      (peekHttpRequestHost Platform.ascii sample.parser (some (sample.bytes.take 30))).1 =
        some ⟨"a.b.co".toList, []⟩ ∧
      (peekHttpRequestHost Platform.ascii sample.parser
        (some (sample.bytes.take MAX_HEADER_PEAK))).1 =
          some ⟨"a.b.co".toList, "1.2.3.4".toList⟩ := by
  refine ⟨sample.reports_whole, sample_within, by rfl, by rfl, by rfl⟩

end Neutun
