import MyBookSources.Foundation.QuotedPrintable
import MyBookSources.SendMail.SmtpDialogue

/-! # The text of a message

What `send` transmits behind the reply to `DATA`, as the server frames it and as a reader of
the mail understands it.
-/

namespace MyBookSources.SendMail.SmtpSocket

open MailText QuotedPrintable

def encodingField : Bytes := ascii "Content-Transfer-Encoding: quoted-printable"

def readBodyLine (header : List Bytes) (line : Bytes) : Bytes × Bool :=
  if header.contains encodingField then decodeLine line else (line, true)

def readBody (content : List Bytes) : Bytes :=
  readLines (readBodyLine (content.takeWhile (· ≠ []))) (content.dropWhile (· ≠ [])).tail

/-- The server takes the bytes up to their end for the message, and this is its content. -/
def Framed (text : Bytes) (content : List Bytes) : Prop :=
  receiveData (lines text) = some (content, [[]])

/-- The message ends at its end, and its reader gets what was to be sent. -/
def Recovered (text mailData : Bytes) : Prop :=
  ∃ content, Framed text content ∧ readBody content = mailData

structure Plain (line : Bytes) : Prop where
  noDot : line.head? ≠ some 46
  literal : Literal line

variable {now : Int} {strFrom subject mailData : Bytes} {strTo : List Bytes}

theorem lines_messageText (now : Int) (strFrom : Bytes) (strTo : List Bytes)
    (subject mailData : Bytes) :
    lines (messageText now strFrom strTo subject mailData) =
      (lines (headerText now strFrom strTo subject) ++ [] :: lines mailData) ++ [[46], []] := by
  have dot : lines [46] = [[46]] := rfl
  have split : messageText now strFrom strTo subject mailData =
      headerText now strFrom strTo subject ++ crlf ++
        (crlf ++ (mailData ++ crlf ++ ([46] ++ crlf ++ []))) := by
    simp [messageText, crlf, ascii]
  rw [split, lines_append, lines_crlf, lines_append, lines_append, dot]
  simp [lines]

theorem lines_headerText (now : Int) (strFrom : Bytes) (strTo : List Bytes) (subject : Bytes) :
    ∃ front, lines (headerText now strFrom strTo subject) = front ++ [encodingField] := by
  -- Long literals are compared by their characters, which the kernel takes long to find.
  have lineEnd : ascii "\r\n" = crlf := by decide
  have typeLine : ascii "Content-Type: text/plain; charset=UTF-8\r\n" =
      ascii "Content-Type: text/plain; charset=UTF-8" ++ crlf := by
    rw [ascii_ofList, ascii_ofList]
    rfl
  have split : headerText now strFrom strTo subject =
      (ascii "Date: " ++ ascii (toString now) ++ crlf ++ ascii "from: " ++ strFrom ++ crlf ++
        ascii "to: " ++ strTo.flatMap (· ++ ascii ";") ++ crlf ++ ascii "subject: " ++ subject ++
        crlf ++ ascii "Content-Type: text/plain; charset=UTF-8") ++ crlf ++ encodingField := by
    rw [headerText, typeLine, lineEnd, encodingField]
    simp only [List.append_assoc]
  have own : lines encodingField = [encodingField] := by
    rw [encodingField, ascii_ofList]
    decide
  exact ⟨_, by rw [split, lines_append, own]⟩

theorem framed_iff (content : List Bytes) :
    Framed (messageText now strFrom strTo subject mailData) content ↔
      [46] ∉ lines (headerText now strFrom strTo subject) ++ [] :: lines mailData ∧
        content = (lines (headerText now strFrom strTo subject) ++ [] :: lines mailData).map
          unstuff := by
  rw [Framed, lines_messageText, receiveData_iff]

/-! ## Reading the body -/

theorem unstuff_ne_nil {line : Bytes} (some_byte : line ≠ []) (noDot : line ≠ [46]) :
    unstuff line ≠ [] := by
  rw [unstuff]
  cases line with
  | nil => exact absurd rfl some_byte
  | cons first rest =>
      split
      · next dot =>
          cases dot
          cases rest with
          | nil => exact absurd rfl noDot
          | cons next rest => exact List.cons_ne_nil _ _
      · exact List.cons_ne_nil _ _

/-- The body is what stands behind the first empty line. -/
theorem readBody_eq {header body : List Bytes} (filled : [] ∉ header) (noDot : [46] ∉ header) :
    readBody ((header ++ [] :: body).map unstuff) =
      readLines (fun line => readBodyLine (header.map unstuff) (unstuff line)) body := by
  have some_bytes : ∀ line ∈ header.map unstuff, decide (line ≠ []) = true := by
    intro line member
    rcases List.mem_map.mp member with ⟨raw, inHeader, rfl⟩
    apply decide_eq_true
    apply unstuff_ne_nil
    · rintro rfl
      exact filled inHeader
    · rintro rfl
      exact noDot inHeader
  have empty : unstuff [] = [] := rfl
  have front : (header.map unstuff ++ [] :: body.map unstuff).takeWhile (fun line =>
      decide (line ≠ [])) = header.map unstuff := by
    rw [List.takeWhile_append_of_pos some_bytes]
    simp
  have back : (header.map unstuff ++ [] :: body.map unstuff).dropWhile (fun line =>
      decide (line ≠ [])) = [] :: body.map unstuff := by
    rw [List.dropWhile_append_of_pos some_bytes]
    simp
  rw [readBody, List.map_append, List.map_cons, empty, front, back, List.tail_cons,
    readLines_map]

theorem unstuff_eq_iff (line : Bytes) : unstuff line = line ↔ line.head? ≠ some 46 := by
  rw [unstuff]
  cases line with
  | nil => simp
  | cons first rest =>
      by_cases dot : first = 46
      · subst dot
        simp
      · simp [dot]

theorem length_unstuff_lt {line : Bytes} (dot : line.head? = some 46) :
    (unstuff line).length < line.length := by
  cases line with
  | nil => cases dot
  | cons first rest => simp [unstuff, dot]

theorem decodeLine_unstuff_cases (line : Bytes) :
    (Plain line ∧ decodeLine (unstuff line) = (line, true)) ∨
      (¬ Plain line ∧ (decodeLine (unstuff line)).1.length < line.length) := by
  by_cases dot : line.head? = some 46
  · right
    constructor
    · intro plain
      exact plain.noDot dot
    · have less := length_unstuff_lt dot
      rcases decodeLine_shrinks (unstuff line) with same | further
      · rw [same]
        exact less
      · exact further.trans less
  · rw [(unstuff_eq_iff line).mpr dot]
    rcases decodeLine_cases line with ⟨literal, same⟩ | ⟨other, less⟩
    · exact .inl ⟨⟨dot, literal⟩, same⟩
    · exact .inr ⟨fun plain => other plain.literal, less⟩

theorem decodeLine_unstuff_shrinks : Shrinks fun line => decodeLine (unstuff line) := by
  intro line
  rcases decodeLine_unstuff_cases line with ⟨_, same⟩ | ⟨_, less⟩
  · exact .inl same
  · exact .inr less

/-- A line behind the server is read as itself exactly if it is plain. -/
theorem decodeLine_unstuff_eq_iff (line : Bytes) :
    decodeLine (unstuff line) = (line, true) ↔ Plain line := by
  rcases decodeLine_unstuff_cases line with ⟨plain, same⟩ | ⟨other, less⟩
  · exact ⟨fun _ => plain, fun _ => same⟩
  · constructor
    · intro same
      rw [same] at less
      exact absurd less (Nat.lt_irrefl _)
    · intro plain
      exact absurd plain other

/-! ## Headers that end early -/

/-- The end of the encoding's name, which every reader keeps. -/
def kept : Bytes := ascii "le"

theorem unstuff_append_kept (front : Bytes) :
    ∃ rest, unstuff (front ++ kept) = rest ++ kept := by
  cases front with
  | nil => exact ⟨[], rfl⟩
  | cons first rest =>
      rw [unstuff]
      split
      · exact ⟨rest, rfl⟩
      · exact ⟨first :: rest, rfl⟩

theorem decodeLine_append_kept (front : Bytes) :
    decodeLine (front ++ kept) = (decodeText front ++ kept, true) := by
  have text : (front ++ kept).rdropWhile whiteSpace = front ++ kept := by
    rw [rdropWhile_eq_self_iff]
    intro last member
    have letter : last = 101 := by
      rw [kept, ascii] at member
      simpa using member.symm
    subst letter
    rfl
  have decoded : decodeText (front ++ kept) = decodeText front ++ kept :=
    decodeText_append (by decide) (by decide) front [101]
  unfold decodeLine
  rw [text]
  dsimp only
  rw [decoded, if_neg (by simp [kept, ascii])]

theorem readBodyLine_keeps (header : List Bytes) :
    Keeps kept fun line => readBodyLine header (unstuff line) := by
  intro front
  rcases unstuff_append_kept front with ⟨rest, same⟩
  dsimp only
  rw [same, readBodyLine]
  split
  · exact ⟨_, decodeLine_append_kept rest⟩
  · exact ⟨rest, rfl⟩

theorem encodingField_ne_nil : encodingField ≠ [] := by
  rw [encodingField, ascii_ofList]
  exact List.cons_ne_nil _ _

theorem readBody_ne_of_early (mailData : Bytes)
    (noDot : [46] ∉ lines (headerText now strFrom strTo subject))
    (early : [] ∈ lines (headerText now strFrom strTo subject)) :
    readBody ((lines (headerText now strFrom strTo subject) ++ [] :: lines mailData).map
      unstuff) ≠ mailData := by
  rcases lines_headerText now strFrom strTo subject with ⟨front, last⟩
  rcases List.eq_append_cons_of_mem early with ⟨header, post, split, filled⟩
  have declared : ∃ others, post = others ++ [encodingField] := by
    rw [split] at last
    rcases List.eq_nil_or_concat post with rfl | ⟨others, field, rfl⟩
    · have ends := congrArg List.getLast? last
      rw [List.getLast?_concat, List.getLast?_concat, Option.some.injEq] at ends
      exact absurd ends.symm encodingField_ne_nil
    · have ends := congrArg List.getLast? last
      simp only [List.concat_eq_append] at ends
      rw [← List.cons_append, ← List.append_assoc, List.getLast?_concat,
        List.getLast?_concat, Option.some.injEq] at ends
      exact ⟨others, by rw [List.concat_eq_append, ends]⟩
  rcases declared with ⟨others, rfl⟩
  have headerDot : [46] ∉ header := by
    intro member
    apply noDot
    rw [split]
    exact List.mem_append_left _ member
  have body : lines (headerText now strFrom strTo subject) ++ [] :: lines mailData =
      header ++ [] :: ((others ++ [encodingField, []]) ++ lines mailData) := by
    rw [split]
    simp
  rw [body, readBody_eq filled headerDot, readLines_append _ _ (lines_ne_nil mailData)]
  rcases readBodyLine_keeps (header.map unstuff)
    (ascii "Content-Transfer-Encoding: quoted-printab") with ⟨before, read⟩
  have field : ascii "Content-Transfer-Encoding: quoted-printab" ++ kept = encodingField := by
    rw [encodingField, ascii_ofList, ascii_ofList]
    rfl
  have empty : readBodyLine (header.map unstuff) (unstuff []) = ([], true) := by
    rw [readBodyLine]
    split <;> rfl
  dsimp only at read
  rw [field] at read
  intro same
  apply text_ne_read (by decide) (by decide) (readBodyLine_keeps (header.map unstuff)) empty
    (readFront (fun line => readBodyLine (header.map unstuff) (unstuff line)) others ++ before)
    mailData
  refine same.symm.trans ?_
  simp [readFront, read, empty]

theorem unstuff_encodingField : unstuff encodingField = encodingField := by
  rw [encodingField, ascii_ofList]
  rfl

theorem readBody_messageText (filled : [] ∉ lines (headerText now strFrom strTo subject))
    (noDot : [46] ∉ lines (headerText now strFrom strTo subject)) :
    readBody ((lines (headerText now strFrom strTo subject) ++ [] :: lines mailData).map
      unstuff) = readLines (fun line => decodeLine (unstuff line)) (lines mailData) := by
  rcases lines_headerText now strFrom strTo subject with ⟨front, last⟩
  have declared : ((lines (headerText now strFrom strTo subject)).map unstuff).contains
      encodingField = true := by
    rw [List.contains_iff_mem, last, List.map_append, List.map_singleton, unstuff_encodingField]
    exact List.mem_append_right _ (List.mem_singleton.mpr rfl)
  rw [readBody_eq filled noDot]
  unfold readBodyLine
  simp only [if_pos declared]

theorem readLines_plain_iff (mailData : Bytes) :
    readLines (fun line => decodeLine (unstuff line)) (lines mailData) = mailData ↔
      ∀ line ∈ lines mailData, Plain line := by
  have whole := readLines_eq_iff decodeLine_unstuff_shrinks (lines mailData)
  rw [unlines_lines] at whole
  rw [whole]
  simp only [decodeLine_unstuff_eq_iff]

theorem recovered_messageText_iff :
    Recovered (messageText now strFrom strTo subject mailData) mailData ↔
      (∀ line ∈ lines (headerText now strFrom strTo subject), line ≠ [] ∧ line ≠ [46]) ∧
      ∀ line ∈ lines mailData, Plain line := by
  constructor
  · rintro ⟨content, framed, whole⟩
    rcases (framed_iff content).mp framed with ⟨noDot, content_eq⟩
    rw [content_eq] at whole
    have headerDot : [46] ∉ lines (headerText now strFrom strTo subject) :=
      fun member => noDot (List.mem_append_left _ member)
    have filled : [] ∉ lines (headerText now strFrom strTo subject) :=
      fun early => absurd whole (readBody_ne_of_early mailData headerDot early)
    rw [readBody_messageText filled headerDot, readLines_plain_iff] at whole
    refine ⟨?_, whole⟩
    intro line member
    constructor
    · rintro rfl
      exact filled member
    · rintro rfl
      exact headerDot member
  · rintro ⟨header, plain⟩
    have filled : [] ∉ lines (headerText now strFrom strTo subject) :=
      fun member => (header [] member).1 rfl
    have headerDot : [46] ∉ lines (headerText now strFrom strTo subject) :=
      fun member => (header [46] member).2 rfl
    have noDot : [46] ∉ lines (headerText now strFrom strTo subject) ++ [] :: lines mailData := by
      intro member
      rcases List.mem_append.mp member with inHeader | inBody
      · exact headerDot inHeader
      · rcases List.mem_cons.mp inBody with empty | inText
        · cases empty
        · exact (plain [46] inText).noDot rfl
    refine ⟨_, (framed_iff _).mpr ⟨noDot, rfl⟩, ?_⟩
    rw [readBody_messageText filled headerDot, readLines_plain_iff]
    exact plain

/-- A text with a line that is a single dot, and a command behind it. -/
def dotMail : Mail :=
  ⟨ascii "smtp", ascii "a@b", ascii "secret", [ascii "c@d"], ascii "s", ascii "a\r\n.\r\nQUIT"⟩

end MyBookSources.SendMail.SmtpSocket
