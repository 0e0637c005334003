import MyBookSources.RecvMail.Base64LineBreaks
import MyBookSources.RecvMail.QuotedPrintableRoundTrip
import MyBookSources.RecvMail.MailHelper

/-! # Encoded words

A mail header writes what is no ASCII as words `=?charset?code?text?=`. The code `B` is base64.
The code `Q` is like quoted-printable, with an underscore for a blank.
-/

namespace MyBookSources.RecvMail

open EncodeUtil QuotedPrintable

/-! ## Words -/

def Visible (byte : Byte) : Prop := 33 ≤ byte ∧ byte ≤ 126

instance (byte : Byte) : Decidable (Visible byte) :=
  inferInstanceAs (Decidable (_ ∧ _))

inductive QEncodes : (data text : Bytes) → Prop
  | nil : QEncodes [] []
  | plain {byte data text} : Visible byte → byte ≠ 61 → byte ≠ 63 → byte ≠ 95 →
      QEncodes data text → QEncodes (byte :: data) (byte :: text)
  | blank {data text} : QEncodes data text → QEncodes (32 :: data) (95 :: text)
  | escaped {byte high low data text} : hexPair high low = some byte → QEncodes data text →
      QEncodes (byte :: data) (61 :: high :: low :: text)

def Names (charset : Bytes) (page : CodePage) : Prop :=
  (stringToUpper charset = ascii "UTF-8" ∧ page = .utf8) ∨
    (stringToUpper charset = ascii "GB2312" ∧ page = .gb2312)

def isQ (code : Byte) : Bool := code == 113 || code == 81

/-- A well-formed word that stands for some bytes. -/
structure Word where
  charset : Bytes
  page : CodePage
  code : Byte
  data : Bytes
  text : Bytes
  named : Names charset page
  filled : data ≠ []
  coded : (isQ code = false ∧ (code = 98 ∨ code = 66) ∧ text = Base64.encode data) ∨
    (isQ code = true ∧ QEncodes data text)

namespace Word

def body (word : Word) : Bytes := word.charset ++ 63 :: word.code :: 63 :: word.text

def bytes (word : Word) : Bytes := ascii "=?" ++ (word.body ++ ascii "?=")

/-- The bytes that the decoder makes of the text. It leaves underscores as they are. -/
def taken (word : Word) : Bytes := if isQ word.code then decodeText word.text else word.data

/-- The buffer for the code `Q` has 128 bytes. -/
def Fits (word : Word) : Prop := isQ word.code = true → word.data.length < 128

instance (word : Word) : Decidable word.Fits :=
  inferInstanceAs (Decidable (_ → _))

end Word

/-! ## What a word is made of -/

theorem visible_upper {byte : Byte}
    (upper : (if 97 ≤ byte ∧ byte ≤ 122 then byte - 32 else byte) ∈
      ascii "UTF-8" ++ ascii "GB2312") : Visible byte ∧ byte ≠ 63 := by
  have all : ∀ byte : Byte, (if 97 ≤ byte ∧ byte ≤ 122 then byte - 32 else byte) ∈
      ascii "UTF-8" ++ ascii "GB2312" → Visible byte ∧ byte ≠ 63 :=
    forall_byte (by decide +kernel)
  exact all byte upper

theorem Names.visible {charset : Bytes} {page : CodePage} (named : Names charset page) :
    ∀ byte ∈ charset, Visible byte ∧ byte ≠ 63 := by
  intro byte member
  have upper := List.mem_map_of_mem
    (f := fun char : Byte => if 97 ≤ char ∧ char ≤ 122 then char - 32 else char) member
  apply visible_upper
  change _ ∈ stringToUpper charset at upper
  rcases named with ⟨name, _⟩ | ⟨name, _⟩
  · rw [name] at upper
    exact List.mem_append_left _ upper
  · rw [name] at upper
    exact List.mem_append_right _ upper

theorem visible_hexValue {digit value : Byte} (hex : hexValue digit = some value) :
    Visible digit := by
  have all : ∀ digit : Byte, hexValue digit = none ∨ Visible digit :=
    forall_byte (by decide +kernel)
  rcases all digit with none | visible
  · rw [none] at hex
    cases hex
  · exact visible

theorem visible_hexPair {high low byte : Byte} (pair : hexPair high low = some byte) :
    Visible high ∧ Visible low := by
  unfold hexPair at pair
  split at pair
  · next one two => exact ⟨visible_hexValue one, visible_hexValue two⟩
  · cases pair

theorem QEncodes.visible {data text : Bytes} (encodes : QEncodes data text) :
    ∀ byte ∈ text, Visible byte := by
  induction encodes with
  | nil => exact fun _ member => absurd member List.not_mem_nil
  | plain visible _ _ _ _ induction => exact List.forall_mem_cons.mpr ⟨visible, induction⟩
  | blank _ induction => exact List.forall_mem_cons.mpr ⟨by decide, induction⟩
  | escaped pair _ induction =>
      have digits := visible_hexPair pair
      exact List.forall_mem_cons.mpr ⟨by decide, List.forall_mem_cons.mpr
        ⟨digits.1, List.forall_mem_cons.mpr ⟨digits.2, induction⟩⟩⟩

theorem visible_digit {value : Nat} (small : value < 64) : Visible (Base64.digit value) := by
  have range := Base64.digit_range small
  constructor
  · rw [UInt8.le_iff_toNat_le]
    exact Nat.le_trans (by decide) range.1
  · rw [UInt8.le_iff_toNat_le]
    exact Nat.le_trans (Nat.le_of_lt_succ range.2.1) (by decide)

theorem visible_encode (data : Bytes) : ∀ byte ∈ Base64.encode data, Visible byte := by
  rw [Base64.encode]
  fun_induction Base64.groups data with
  | case1 c1 c2 c3 rest induction =>
      have first := c1.toNat_lt
      have second := c2.toNat_lt
      have third := c3.toNat_lt
      simp only [List.flatten_cons, List.cons_append, List.nil_append, List.forall_mem_cons]
      exact ⟨visible_digit (by omega), visible_digit (by omega), visible_digit (by omega),
        visible_digit (by omega), induction⟩
  | case2 c1 c2 =>
      have first := c1.toNat_lt
      have second := c2.toNat_lt
      simp only [List.flatten_cons, List.flatten_nil, List.append_nil, List.forall_mem_cons]
      exact ⟨visible_digit (by omega), visible_digit (by omega), visible_digit (by omega),
        by decide, fun _ member => absurd member List.not_mem_nil⟩
  | case3 c1 =>
      have first := c1.toNat_lt
      simp only [List.flatten_cons, List.flatten_nil, List.append_nil, List.forall_mem_cons]
      exact ⟨visible_digit (by omega), visible_digit (by omega), by decide, by decide,
        fun _ member => absurd member List.not_mem_nil⟩
  | case4 => exact fun _ member => absurd member List.not_mem_nil

namespace Word

variable (word : Word)

theorem visible_text : ∀ byte ∈ word.text, Visible byte := by
  rcases word.coded with ⟨_, _, text⟩ | ⟨_, encodes⟩
  · rw [text]
    exact visible_encode word.data
  · exact encodes.visible

theorem visible_code : Visible word.code ∧ word.code ≠ 63 := by
  rcases word.coded with ⟨_, b | b, _⟩ | ⟨q, _⟩
  · rw [b]
    decide
  · rw [b]
    decide
  · rw [isQ, Bool.or_eq_true, beq_iff_eq, beq_iff_eq] at q
    rcases q with q | q <;> rw [q] <;> decide

theorem visible_body : ∀ byte ∈ word.body, Visible byte := by
  intro byte member
  simp only [body, List.mem_append, List.mem_cons] at member
  rcases member with name | rfl | rfl | rfl | text
  · exact (word.named.visible byte name).1
  · decide
  · exact word.visible_code.1
  · decide
  · exact word.visible_text byte text

theorem text_ne_nil : word.text ≠ [] := by
  have filled := word.filled
  rcases word.coded with ⟨_, _, text⟩ | ⟨_, encodes⟩
  · rw [text]
    cases data : word.data with
    | nil => exact absurd data filled
    | cons c1 rest =>
        rcases rest with _ | ⟨c2, _ | ⟨c3, rest⟩⟩ <;> simp [Base64.encode, Base64.groups]
  · intro empty
    rw [empty] at encodes
    generalize word.data = data at encodes filled
    cases encodes
    exact filled rfl

end Word

/-! ## What is decoded -/

theorem hexPair_ne {high low byte : Byte} (pair : hexPair high low = some byte) :
    high ≠ 95 ∧ low ≠ 95 := by
  unfold hexPair at pair
  constructor
  · rintro rfl
    cases pair
  · rintro rfl
    cases digit : hexValue high with
    | none =>
        rw [digit] at pair
        cases pair
    | some value =>
        rw [digit] at pair
        cases pair

theorem QEncodes.decodeText_spec {data text : Bytes} (encodes : QEncodes data text) :
    Encodes (decodeText text) text ∧ (decodeText text).length = data.length ∧
      (decodeText text = data ↔ 95 ∉ text) := by
  induction encodes with
  | nil => exact ⟨.nil, rfl, iff_of_true rfl List.not_mem_nil⟩
  | plain _ noSign _ other _ induction =>
      rcases induction with ⟨own, length, same⟩
      rw [decodeText_cons fun sign => absurd sign noSign]
      refine ⟨.literal noSign own, congrArg Nat.succ length, ?_⟩
      rw [List.cons_inj_right, same, List.mem_cons, not_or]
      exact (and_iff_right other.symm).symm
  | blank _ induction =>
      rcases induction with ⟨own, length, _⟩
      rw [decodeText_cons fun sign => absurd sign (by decide)]
      refine ⟨.literal (by decide) own, congrArg Nat.succ length, iff_of_false ?_ ?_⟩
      · intro same
        exact absurd (List.cons.inj same).1 (by decide)
      · exact fun absent => absent List.mem_cons_self
  | @escaped byte high low data text pair _ induction =>
      rcases induction with ⟨own, length, same⟩
      have escape : decodeText (61 :: high :: low :: text) = byte :: decodeText text := by
        rw [decodeText, if_pos rfl, pair]
      have digits := hexPair_ne pair
      rw [escape]
      refine ⟨.escaped pair own, congrArg Nat.succ length, ?_⟩
      rw [List.cons_inj_right, same]
      simp only [List.mem_cons, not_or]
      exact ⟨fun absent => ⟨by decide, digits.1.symm, digits.2.symm, absent⟩,
        fun all => all.2.2.2⟩

theorem cString_cString (text : Bytes) : cString (cString text) = cString text :=
  List.takeWhile_idem

namespace Word

variable (word : Word)

theorem cString_text : cString word.text = word.text := by
  rw [cString_eq_iff]
  intro member
  exact absurd (word.visible_text 0 member) (by decide)

theorem length_taken : word.taken.length = word.data.length := by
  rw [taken]
  split
  · next q =>
    rcases word.coded with ⟨b, _⟩ | ⟨_, encodes⟩
    · rw [b] at q
      cases q
    · exact encodes.decodeText_spec.2.1
  · rfl

theorem taken_eq_iff : word.taken = word.data ↔ (isQ word.code = true → 95 ∉ word.text) := by
  rw [taken]
  split
  · next q =>
    rcases word.coded with ⟨b, _⟩ | ⟨_, encodes⟩
    · rw [b] at q
      cases q
    · rw [encodes.decodeText_spec.2.2]
      exact ⟨fun absent _ => absent, fun absent => absent q⟩
  · next b => exact iff_of_true rfl fun q => absurd q b

/-- What is given to the conversion, up to its first zero byte. -/
theorem decodeWord_eq (platform : Platform) (short : word.text.length < 2 ^ 31)
    (strTemp : Bytes) :
    ∃ handed, cString handed = cString word.taken ∧
      decodeWord platform word.code word.text strTemp =
        if word.Fits then some handed else none := by
  rcases word.coded with ⟨b, code, text⟩ | ⟨q, encodes⟩
  · have decoded : Base64Util.decode platform word.text = word.data := by
      rw [text] at short ⊢
      refine (Base64Util.decode_iff_of_short platform (Base64.wrapped_flatten _) short).mpr
        (.inr ?_)
      intro last
      have visible := visible_encode word.data 10 (List.mem_of_getLast? last)
      exact absurd visible (by decide)
    have fits : word.Fits := by
      intro q
      rw [b] at q
      cases q
    refine ⟨word.data, ?_, ?_⟩
    · rw [taken, b]
      rfl
    · rw [decodeWord, if_pos code, decoded, if_pos fits]
  · have decoded : DecodeQuotedPrintable platform word.text = word.taken := by
      rw [DecodeQuotedPrintable, word.cString_text,
        quotedPrintableLoop_eq platform _ (Nat.le_refl 0), List.drop_zero,
        (tokens_of_encodes platform encodes.decodeText_spec.1).1, taken, if_pos q]
      rfl
    have codes : ¬ (word.code = 98 ∨ word.code = 66) ∧ (word.code = 113 ∨ word.code = 81) := by
      rw [isQ, Bool.or_eq_true, beq_iff_eq, beq_iff_eq] at q
      rcases q with q | q <;> rw [q] <;> decide
    refine ⟨cString word.taken, cString_cString _, ?_⟩
    have fits : word.taken.length < 128 ↔ word.Fits := by
      rw [word.length_taken]
      exact ⟨fun small _ => small, fun small => small q⟩
    rw [decodeWord, if_neg codes.1, if_pos codes.2, decoded]
    exact if_congr fits rfl rfl

end Word

end MyBookSources.RecvMail
