import ReportEngine.Text.Hex

/-! Universally unique identifiers: 32 hexadecimal digits, read in any usual spelling. -/

namespace ReportEngine

structure Uuid where
  digits : List (Fin 16)
  complete : digits.length = 32
deriving DecidableEq

namespace Uuid

/-- The identifier with the given value in its last digits. -/
def ofDigits? (digits : List (Fin 16)) : Option Uuid :=
  if complete : digits.length = 32 then some ⟨digits, complete⟩ else none

/-- The identifier with the given bytes, each the value of two digits. -/
def ofBytes? (bytes : List UInt8) : Option Uuid :=
  ofDigits? (bytes.flatMap fun byte => [Fin.ofNat 16 (byte.toNat / 16), Fin.ofNat 16 byte.toNat])

def nil : Uuid := ⟨List.replicate 32 0, by decide⟩

instance : Inhabited Uuid := ⟨nil⟩

private def digitChar (digit : Fin 16) : Char := Nat.digitChar digit

/-- Lower-case digits in groups of 8, 4, 4, 4 and 12. -/
def chars (uuid : Uuid) : List Char :=
  let written := uuid.digits.map digitChar
  written.take 8 ++ '-' :: (written.drop 8).take 4 ++ '-' :: (written.drop 12).take 4 ++
    '-' :: (written.drop 16).take 4 ++ '-' :: written.drop 20

def text (uuid : Uuid) : String := String.ofList uuid.chars

private def readPlain? (text : List Char) : Option Uuid :=
  (text.mapM fun c => (Text.hexDigit? c).map (Fin.ofNat 16)).bind ofDigits?

private def readHyphenated? (text : List Char) : Option Uuid :=
  let hyphens := [8, 13, 18, 23]
  if text.length = 36 ∧ hyphens.all (fun place => text[place]? == some '-') then
    readPlain? (text.take 8 ++ (text.drop 9).take 4 ++ (text.drop 14).take 4 ++
      (text.drop 19).take 4 ++ text.drop 24)
  else none

/-- Reads 32 digits, or the hyphenated form, which may stand in braces or in a name of the `urn`
scheme. -/
def read? (text : List Char) : Option Uuid :=
  if text.length = 32 then readPlain? text
  else if text.length = 38 ∧ text.head? = some '\x7b' ∧ text.getLast? = some '\x7d' then
    readHyphenated? ((text.drop 1).dropLast)
  else if text.length = 45 ∧ text.take 9 = "urn:uuid:".toList then readHyphenated? (text.drop 9)
  else readHyphenated? text

private theorem hexDigit?_digitChar (digit : Fin 16) :
    (Text.hexDigit? (digitChar digit)).map (Fin.ofNat 16) = some digit := by
  revert digit
  decide

private theorem readPlain?_digits (uuid : Uuid) : readPlain? (uuid.digits.map digitChar) = some uuid := by
  have read (digits : List (Fin 16)) :
      (digits.map digitChar).mapM (fun c => (Text.hexDigit? c).map (Fin.ofNat 16)) = some digits := by
    induction digits with
    | nil => rfl
    | cons digit digits ih => simp [hexDigit?_digitChar, ih]
  rw [readPlain?, read, Option.bind_some, ofDigits?, dif_pos uuid.complete]

private theorem readHyphenated?_groups {a b c d e : List Char} (long : a.length = 8) (second : b.length = 4)
    (third : c.length = 4) (fourth : d.length = 4) (last : e.length = 12) :
    readHyphenated? (a ++ '-' :: b ++ '-' :: c ++ '-' :: d ++ '-' :: e) = readPlain? (a ++ b ++ c ++ d ++ e) := by
  have hyphens : [8, 13, 18, 23].all fun place =>
      (a ++ '-' :: b ++ '-' :: c ++ '-' :: d ++ '-' :: e)[place]? == some '-' := by
    simp [List.getElem?_append, long, second, third, fourth]
  have length : (a ++ '-' :: b ++ '-' :: c ++ '-' :: d ++ '-' :: e).length = 36 := by
    simp [long, second, third, fourth, last]
  rw [readHyphenated?, if_pos ⟨length, hyphens⟩]
  simp (disch := omega) [long, second, third, fourth, List.drop_append, List.drop_eq_nil_of_le]

private theorem groups_append (digits : List Char) :
    digits.take 8 ++ (digits.drop 8).take 4 ++ (digits.drop 12).take 4 ++ (digits.drop 16).take 4 ++ digits.drop 20 =
      digits := by
  have joined (start count : Nat) : (digits.drop start).take count ++ digits.drop (start + count) = digits.drop start := by
    rw [← List.drop_drop, List.take_append_drop]
  simp only [List.append_assoc]
  rw [joined 16 4, joined 12 4, joined 8 4, List.take_append_drop]

/-- An identifier is read back from the form in which it is written. -/
theorem read?_chars (uuid : Uuid) : read? uuid.chars = some uuid := by
  have length : (uuid.digits.map digitChar).length = 32 := by rw [List.length_map, uuid.complete]
  have hyphenated : read? uuid.chars = readHyphenated? uuid.chars := by
    simp [read?, chars, length]
  rw [hyphenated, chars, readHyphenated?_groups, groups_append, readPlain?_digits]
  all_goals simp [length]

end Uuid

end ReportEngine
