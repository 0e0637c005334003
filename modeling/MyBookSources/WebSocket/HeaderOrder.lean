import MyBookSources.WebSocket.HandshakeHeaders
import Mathlib.Data.List.Nodup
import Mathlib.Data.List.Perm.Basic

/-! # The order of the headers

A request with the same header lines in another order is handled in the same way, as long as
no two lines have the same name: the map is the same once all lines are in it, and nothing is
decided before.
-/

namespace MyBookSources.WebSocket

/-- A header line as it may come in a request: neither the name nor the value ends it, and the
value has more than blanks. -/
structure HeaderLine where
  name : Bytes
  value : Bytes
  named : name ≠ []
  noColon : 58 ∉ name
  nameInLine : 13 ∉ name ∧ 10 ∉ name
  valueInLine : 13 ∉ value ∧ 10 ∉ value
  filled : ∃ byte ∈ value, byte ≠ 32

namespace HeaderLine

def text (header : HeaderLine) : Bytes := header.name ++ 58 :: header.value

def trimmed (header : HeaderLine) : Bytes := StringUtil.stripped header.value 32

theorem headerOf_text (header : HeaderLine) :
    headerOf header.text = some (header.name, header.trimmed) := by
  rcases header.filled with ⟨byte, member, other⟩
  have some_byte : header.value ≠ [] := List.ne_nil_of_mem member
  rw [text, headerOf_named header.named header.noColon some_byte, StringUtil.trim_eq,
    if_neg (StringUtil.stripped_ne_nil ⟨byte, member, other⟩)]
  rfl

theorem text_clean (header : HeaderLine) : ¬ [13, 10] <:+: header.text := by
  intro within
  have end_mem : 10 ∈ header.text := within.subset (by simp)
  simp only [text, List.mem_append, List.mem_cons] at end_mem
  rcases end_mem with inName | colon | inValue
  · exact header.nameInLine.2 inName
  · cases colon
  · exact header.valueInLine.2 inValue

theorem storeHeader_text (headers : Bytes → Option Bytes) (header : HeaderLine) :
    storeHeader headers header.text = Function.update headers header.name header.trimmed := by
  rw [storeHeader, headerOf_text]

end HeaderLine

/-- The request line, the header lines and the empty line. -/
def request (requestLine : Bytes) (headers : List HeaderLine) : Bytes :=
  (requestLine :: headers.map HeaderLine.text ++ [[]]).flatMap (· ++ ascii "\r\n")

theorem Split_request {requestLine : Bytes} (filled : requestLine ≠ [])
    (clean : ¬ ascii "\r\n" <:+: requestLine) (headers : List HeaderLine) :
    StringUtil.Split (request requestLine headers) (ascii "\r\n") =
      some (requestLine :: headers.map HeaderLine.text) := by
  have crlf : ascii "\r\n" = [13, 10] := by decide
  rw [crlf] at clean
  have pieces : ∀ piece ∈ requestLine :: headers.map HeaderLine.text ++ [[]],
      ¬ [13, 10] <:+: piece := by
    intro piece member
    simp only [List.cons_append, List.mem_cons, List.mem_append, List.mem_map, List.not_mem_nil,
      or_false] at member
    rcases member with rfl | ⟨header, _, rfl⟩ | rfl
    · exact clean
    · exact header.text_clean
    · decide
  have lines : (headers.map HeaderLine.text).filter (fun piece => !piece.isEmpty) =
      headers.map HeaderLine.text := by
    apply List.filter_eq_self.mpr
    intro line member
    rcases List.mem_map.mp member with ⟨header, _, rfl⟩
    simp [HeaderLine.text]
  rw [request, crlf, StringUtil.Split_pieces (by decide) pieces, List.filter_append,
    List.filter_cons_of_pos (by simpa using filled), lines]
  simp

theorem foldl_storeHeader_perm {left right : List HeaderLine} (permuted : left.Perm right)
    (distinct : (left.map HeaderLine.name).Nodup) (headers : Bytes → Option Bytes) :
    (left.map HeaderLine.text).foldl storeHeader headers =
      (right.map HeaderLine.text).foldl storeHeader headers := by
  rw [List.foldl_map, List.foldl_map]
  apply permuted.foldl_eq'
  intro first firstMember second secondMember stored
  simp only [HeaderLine.storeHeader_text]
  by_cases same : first.name = second.name
  · have equal := List.inj_on_of_nodup_map distinct firstMember secondMember same
    rw [equal]
  · exact Function.update_comm same _ _ _

/-- What a handshake does under one clock and under another: the same, up to the date in the
response. -/
inductive SameUpToDate (left right : Platform) : List SessionEvent → List SessionEvent → Prop
  | refused : SameUpToDate left right [] []
  | answered (head : Bytes) :
      SameUpToDate left right
        [.sent (head ++ ascii "Date: " ++ left.now ++ ascii "\r\n\r\n"), .onConnect]
        [.sent (head ++ ascii "Date: " ++ right.now ++ ascii "\r\n\r\n"), .onConnect]

namespace MyWebSocketSession

theorem answered_sameUpToDate (left right : Platform) (session : MyWebSocketSession) {key : Bytes}
    (long : 24 ≤ key.length) :
    ∃ next eventsLeft eventsRight,
      session.answered left key = some (true, next, eventsLeft) ∧
        session.answered right key = some (true, next, eventsRight) ∧
        SameUpToDate left right eventsLeft eventsRight := by
  have enough : ¬ key.length < 23 := by omega
  refine ⟨{ session with updateToWebSocket := true }, _, _, if_neg enough, if_neg enough, ?_⟩
  exact .answered _

/-- Once the headers are in the map, the clock only shows in the response. -/
theorem checkHttpHeaders_sameUpToDate (left right : Platform) {session : MyWebSocketSession}
    (long : ∀ key, session.httpHeaders (ascii "Sec-WebSocket-Key") = some key → 24 ≤ key.length) :
    ∃ accepted next eventsLeft eventsRight,
      session.checkHttpHeaders left = some (accepted, next, eventsLeft) ∧
        session.checkHttpHeaders right = some (accepted, next, eventsRight) ∧
        SameUpToDate left right eventsLeft eventsRight := by
  rcases session.checkHttpHeaders_eq with ⟨next, checked⟩
  rw [checked left, checked right]
  cases key : session.checkedKey with
  | none => exact ⟨false, next, [], [], rfl, rfl, .refused⟩
  | some stored =>
      exact ⟨true, answered_sameUpToDate left right next (long stored (checkedKey_some key))⟩

theorem parseHttpHeaders_text (session : MyWebSocketSession) (headers : List HeaderLine) :
    session.parseHttpHeaders (headers.map HeaderLine.text) =
      some (true, { session with
        httpHeaders := (headers.map HeaderLine.text).foldl storeHeader session.httpHeaders }) := by
  refine parseHttpHeaders_iff.mpr ⟨?_, rfl⟩
  intro line member
  rcases List.mem_map.mp member with ⟨header, _, rfl⟩
  rw [header.headerOf_text]
  rfl

theorem lastValue_text {headers : List HeaderLine} {name value : Bytes}
    (stored : lastValue name (headers.map HeaderLine.text) = some value) :
    ∃ header ∈ headers, header.name = name ∧ header.trimmed = value := by
  rcases List.exists_of_findSome?_eq_some stored with ⟨line, member, own⟩
  rcases List.mem_map.mp (List.mem_reverse.mp member) with ⟨header, headerMember, rfl⟩
  rw [headerValue, header.headerOf_text] at own
  by_cases same : header.name = name
  · rw [← same] at own
    exact ⟨header, headerMember, same, by simpa using own⟩
  · simp [same] at own

/-- A fresh session comes to the same with the header lines in any order. -/
theorem handshake_sameUpToDate (left right : Platform) {requestLine : Bytes}
    (filled : requestLine ≠ []) (clean : ¬ ascii "\r\n" <:+: requestLine)
    {headers others : List HeaderLine} (permuted : headers.Perm others)
    (distinct : (headers.map HeaderLine.name).Nodup)
    (long : ∀ header ∈ headers, header.name = ascii "Sec-WebSocket-Key" →
      24 ≤ header.trimmed.length) :
    ∃ accepted next eventsLeft eventsRight,
      create.handleHandshake left (request requestLine headers) =
          some (accepted, next, eventsLeft) ∧
        create.handleHandshake right (request requestLine others) =
          some (accepted, next, eventsRight) ∧
        SameUpToDate left right eventsLeft eventsRight := by
  have same := foldl_storeHeader_perm permuted distinct
  simp only [handleHandshake, Split_request filled clean, Option.bind_eq_bind, Option.bind_some,
    List.length_map, permuted.length_eq]
  split
  · exact ⟨false, create, [], [], rfl, rfl, .refused⟩
  · rcases parseHttpPath_some create requestLine with ⟨⟨pathParsed, withPath⟩, path⟩
    have empty : withPath.httpHeaders = create.httpHeaders := parseHttpPath_httpHeaders path
    simp only [path, Option.bind_some]
    cases pathParsed with
    | false => exact ⟨false, withPath, [], [], rfl, rfl, .refused⟩
    | true =>
        simp only [parseHttpHeaders_text, same, Option.bind_some, Bool.not_true,
          Bool.false_eq_true, if_false]
        apply checkHttpHeaders_sameUpToDate
        intro key stored
        have stored : (others.map HeaderLine.text).foldl storeHeader create.httpHeaders
            (ascii "Sec-WebSocket-Key") = some key := empty ▸ stored
        rw [foldl_storeHeader_apply, show create.httpHeaders _ = none from rfl,
          Option.or_none] at stored
        rcases lastValue_text stored with ⟨header, member, name, rfl⟩
        exact long header (permuted.mem_iff.mpr member) name

end MyWebSocketSession

def HeaderLine.ofAscii (name value : String)
    (well : ascii name ≠ [] ∧ 58 ∉ ascii name ∧ (13 ∉ ascii name ∧ 10 ∉ ascii name) ∧
      (13 ∉ ascii value ∧ 10 ∉ ascii value) ∧ ∃ byte ∈ ascii value, byte ≠ 32) : HeaderLine where
  name := ascii name
  value := ascii value
  named := well.1
  noColon := well.2.1
  nameInLine := well.2.2.1
  valueInLine := well.2.2.2.1
  filled := well.2.2.2.2

def testedHeaders : List HeaderLine :=
  [.ofAscii "Host" " a:80" (by decide +kernel),
    .ofAscii "Connection" " Upgrade" (by decide +kernel),
    .ofAscii "Upgrade" " websocket" (by decide +kernel),
    .ofAscii "Origin" " b" (by decide +kernel),
    .ofAscii "Sec-WebSocket-Key" " IqcAWodjyPDJuhGgZwkpKg==" (by decide +kernel),
    .ofAscii "Sec-WebSocket-Extensions" " permessage-deflate; server_no_context_takeover"
      (by decide +kernel)]

theorem handshake_sameUpToDate_reversed :
    ∃ accepted next eventsLeft eventsRight,
      MyWebSocketSession.create.handleHandshake .still
          (request (ascii "GET / HTTP/1.1") testedHeaders) =
          some (accepted, next, eventsLeft) ∧
        MyWebSocketSession.create.handleHandshake .still
          (request (ascii "GET / HTTP/1.1") testedHeaders.reverse) =
          some (accepted, next, eventsRight) ∧
        SameUpToDate .still .still eventsLeft eventsRight :=
  MyWebSocketSession.handshake_sameUpToDate .still .still (by decide +kernel)
    (by decide +kernel) (List.reverse_perm testedHeaders).symm (by decide +kernel)
    (by decide +kernel)

end MyBookSources.WebSocket
