import ClassSkeleton.Text.Digit
import ClassSkeleton.Text.Utf8

/-!
Percent-encoding: a byte is written as a percent sign and two hexadecimal digits. Controls and
characters outside ASCII are encoded in every part of an address; each part adds marks of its own
that would end it or be misread in it. A percent sign is never encoded, so that text which holds
encoded bytes already keeps them; text without one is decoded to its own bytes (`decode_encode`).
-/
namespace ClassSkeleton.Url

def fragmentMarks : List Char := " \"<>`".toList

def pathMarks : List Char := fragmentMarks ++ "#?\x7b\x7d".toList

def userMarks : List Char := pathMarks ++ "/:;=@[\\]^|".toList

def queryMarks : List Char := " \"#<>".toList

def hexDigit (n : Nat) : Char := Char.ofNat (if n < 10 then 48 + n else 55 + n)

def encodeByte (byte : UInt8) : Text :=
  ['%', hexDigit (byte.toNat / 16), hexDigit (byte.toNat % 16)]

/-- Controls and everything outside ASCII. -/
def isHidden (c : Char) : Bool := c.toNat < 0x20 || 0x7E < c.toNat

def encode (marks : List Char) (text : Text) : Text :=
  text.flatMap fun c =>
    if isHidden c || c ∈ marks then (Text.utf8 [c]).flatMap encodeByte else [c]

/-- The bytes meant by a text. A percent sign without two digits after it means itself. -/
def decode : Text → List UInt8
  | [] => []
  | '%' :: high :: low :: rest =>
    match Text.digitValue? high, Text.digitValue? low with
    | some h, some l => UInt8.ofNat (h * 16 + l) :: decode rest
    | _, _ => Text.utf8 ['%'] ++ decode (high :: low :: rest)
  | c :: rest => Text.utf8 [c] ++ decode rest

theorem digitValue?_hexDigit : ∀ n < 16, Text.digitValue? (hexDigit n) = some n := by decide

theorem decode_encodeByte (byte : UInt8) (rest : Text) :
    decode (encodeByte byte ++ rest) = byte :: decode rest := by
  have hlt := byte.toNat_lt
  have hhigh := digitValue?_hexDigit (byte.toNat / 16) (by omega)
  have hlow := digitValue?_hexDigit (byte.toNat % 16) (by omega)
  simp only [encodeByte, List.cons_append, List.nil_append, decode, hhigh, hlow]
  rw [Nat.div_add_mod' byte.toNat 16, UInt8.ofNat_toNat]

theorem decode_flatMap_encodeByte (bytes : List UInt8) (rest : Text) :
    decode (bytes.flatMap encodeByte ++ rest) = bytes ++ decode rest := by
  induction bytes with
  | nil => rfl
  | cons byte bytes ih =>
    rw [List.flatMap_cons, List.append_assoc, decode_encodeByte, ih, List.cons_append]

theorem decode_cons {c : Char} (h : c ≠ '%') (rest : Text) :
    decode (c :: rest) = Text.utf8 [c] ++ decode rest := by
  rw [decode]
  intro high low tail hc
  exact absurd hc h

/-- Encoding keeps the bytes that a text stands for, unless it holds percent signs of its own. -/
theorem decode_encode {marks : List Char} {text : Text} (h : '%' ∉ text) :
    decode (encode marks text) = Text.utf8 text := by
  induction text with
  | nil => rfl
  | cons c rest ih =>
    obtain ⟨hc, hrest⟩ := not_or.mp fun hmem => h (List.mem_cons.mpr hmem)
    have hsplit : Text.utf8 (c :: rest) = Text.utf8 [c] ++ Text.utf8 rest := by simp [Text.utf8]
    rw [hsplit, ← ih hrest, encode, List.flatMap_cons]
    split
    · exact decode_flatMap_encodeByte _ _
    · exact decode_cons (Ne.symm hc) _

/-- The text meant by a text, if its bytes are one. -/
def decodeText? (text : Text) : Option Text := Text.ofUtf8? (decode text)

example : encode pathMarks "a b%é".toList = "a%20b%%C3%A9".toList := by decide +kernel

example : decodeText? "a%20b%%c3%a9".toList = some "a b%é".toList := by decide +kernel

end ClassSkeleton.Url
