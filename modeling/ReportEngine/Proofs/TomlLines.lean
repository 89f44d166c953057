import ReportEngine.Proofs.TomlQuoting
import ReportEngine.Toml.Reader

/-! What is written line by line is read back as the statements on the lines. -/

namespace ReportEngine.Toml

open Text

/-- A key that is read without quotes around it. -/
structure IsBareKey (key : String) : Prop where
  spelled : key.toList ≠ []
  bare : key.toList.all isBareChar = true

instance (key : String) : Decidable (IsBareKey key) :=
  decidable_of_iff (key.toList ≠ [] ∧ key.toList.all isBareChar = true)
    ⟨fun ⟨spelled, bare⟩ => ⟨spelled, bare⟩, fun ⟨spelled, bare⟩ => ⟨spelled, bare⟩⟩

def Scalar.IsHeld : Scalar → Prop
  | natural n => n < twoTo 128
  | string _ | emptyArray => True

def Line.IsReadable : Line → Prop
  | header key | arrayHeader key => IsBareKey key
  | assign key value => IsBareKey key ∧ value.IsHeld
  | blank => True

section Spans

variable {rest : List Char}

private theorem skipSpaces_of_head? (stops : ∀ c, rest.head? = some c → isSpace c = false) : skipSpaces rest = rest := by
  cases rest with
  | nil => rfl
  | cons c rest => exact List.dropWhile_cons_of_neg (by simp [stops c rfl])

end Spans

section Values

private theorem Quoting.head_write (quoting : Quoting) (text : List Char) :
    ∃ quote more, quoting.write text = quote :: more ∧ (quote = '\x22' ∨ quote = '\x27') := by
  cases quoting with
  | basic | basicLines => exact ⟨'\x22', _, rfl, .inl rfl⟩
  | literal | literalLines => exact ⟨'\x27', _, rfl, .inr rfl⟩

private theorem Scalar.head_write (value : Scalar) : ∃ first more, value.write = first :: more ∧ isSpace first = false := by
  cases value with
  | string text =>
    obtain ⟨quote, more, written, quoted⟩ := (Quoting.ofText text.toList).head_write text.toList
    rcases quoted with rfl | rfl
    · exact ⟨'\x22', more, written, rfl⟩
    · exact ⟨'\x27', more, written, rfl⟩
  | natural n =>
    obtain ⟨c, digits, written⟩ := List.exists_cons_of_ne_nil (digitsOfNat_ne_nil n)
    have digit : c.isDigit = true := isDigit_of_mem_digitsOfNat (written ▸ List.mem_cons_self)
    refine ⟨c, digits, written, Bool.eq_false_iff.mpr fun space => ?_⟩
    simp only [isSpace, Bool.or_eq_true, beq_iff_eq] at space
    rcases space with rfl | rfl <;> cases digit
  | emptyArray => exact ⟨'[', _, rfl, rfl⟩

variable {rest : List Char}

theorem readScalar?_digitsOfNat {n : Nat} (held : n < twoTo 128) : readScalar? (digitsOfNat n) = some (.integer n) := by
  have digit : ∀ c ∈ digitsOfNat n, c.isDigit = true := fun c member => isDigit_of_mem_digitsOfNat member
  have noWord {word : List Char} (letter : Char) (inWord : letter ∈ word) (other : letter.isDigit = false) :
      digitsOfNat n ≠ word := by
    intro same
    rw [digit letter (same ▸ inWord)] at other
    cases other
  have integer : ofInteger n = .integer n := if_pos ⟨by have := Int.natCast_nonneg n; omega, by exact_mod_cast held⟩
  rw [readScalar?, if_neg (noWord 't' (by decide) rfl), if_neg (noWord 'f' (by decide) rfl), readInteger?_digitsOfNat,
    integer]
  rfl

private theorem spanScalar_digitsOfNat (n : Nat) :
    spanScalar (digitsOfNat n ++ '\n' :: rest) = (digitsOfNat n, '\n' :: rest) := by
  have inside : ∀ c ∈ digitsOfNat n, isScalarChar c = true := by
    have ends : "=,[]\x7b\x7d \t#\r\n".toList.all (!Char.isDigit ·) = true := by decide
    intro c member
    refine Bool.not_eq_true' _ |>.mpr (Bool.eq_false_iff.mpr fun ending => ?_)
    have other := List.all_eq_true.mp ends c (List.contains_iff_mem.mp ending)
    rw [isDigit_of_mem_digitsOfNat member] at other
    cases other
  have stops : ∀ c, ('\n' :: rest).head? = some c → isScalarChar c = false := by
    rintro c ⟨⟩
    rfl
  obtain ⟨taken, left⟩ := span_append inside stops
  simp only [spanScalar, taken, left]
  split
  next same => cases same
  next => rfl

theorem readValue?_write {value : Scalar} (held : value.IsHeld) (fuel : Nat) :
    readValue? maxDepth (fuel + 2) (value.write ++ '\n' :: rest) = some (value.node, '\n' :: rest) := by
  cases value with
  | string text =>
    obtain ⟨quote, more, written, quoted⟩ := (Quoting.ofText text.toList).head_write text.toList
    have read : readQuoted? ((Quoting.ofText text.toList).write text.toList ++ '\n' :: rest) = some (text.toList, '\n' :: rest) :=
      Quoting.readQuoted?_write _ (Quoting.admits_ofText text.toList)
    rw [Scalar.write, written, List.cons_append]
    rw [written, List.cons_append] at read
    rcases quoted with rfl | rfl
    · rw [readValue?, read]
      simp [Scalar.node]
    · rw [readValue?, read]
      simp [Scalar.node]
  | natural n =>
    obtain ⟨c, digits, written⟩ := List.exists_cons_of_ne_nil (digitsOfNat_ne_nil n)
    have digit : c.isDigit = true := isDigit_of_mem_digitsOfNat (written ▸ List.mem_cons_self)
    rw [Scalar.write, written, List.cons_append]
    unfold readValue?
    split
    next same => cases (List.cons.inj same).1; cases digit
    next same => cases (List.cons.inj same).1; cases digit
    next same => cases (List.cons.inj same).1; cases digit
    next same => cases (List.cons.inj same).1; cases digit
    next =>
      rw [← List.cons_append, ← written, spanScalar_digitsOfNat]
      simp [readScalar?_digitsOfNat held, Scalar.node]
  | emptyArray =>
    simp [Scalar.write, Scalar.node, readValue?, readItems?, maxDepth, skipLines?, skipSpaces, isSpace]

end Values

section Keys

variable {key : String} {rest : List Char}

private theorem IsBareKey.first (bare : IsBareKey key) : ∃ c tail, key.toList = c :: tail ∧ isBareChar c = true := by
  obtain ⟨c, tail, spelled⟩ := List.exists_cons_of_ne_nil bare.spelled
  exact ⟨c, tail, spelled, List.all_eq_true.mp bare.bare c (spelled ▸ List.mem_cons_self)⟩

private theorem isSpace_of_isBareChar {c : Char} (bare : isBareChar c = true) : isSpace c = false := by
  refine Bool.eq_false_iff.mpr fun space => ?_
  simp only [isSpace, Bool.or_eq_true, beq_iff_eq] at space
  rcases space with rfl | rfl <;> cases bare

private theorem readSimpleKey?_bare (bare : IsBareKey key) (stops : ∀ c, rest.head? = some c → isBareChar c = false) :
    readSimpleKey? (key.toList ++ rest) = some (key, rest) := by
  obtain ⟨taken, left⟩ := span_append (List.all_eq_true.mp bare.bare) stops
  obtain ⟨c, tail, spelled, first⟩ := bare.first
  unfold readSimpleKey?
  split
  next same => rw [spelled] at same; cases (List.cons.inj same).1; cases first
  next same => rw [spelled] at same; cases (List.cons.inj same).1; cases first
  next => simp only [taken, left, List.isEmpty_eq_false_iff.mpr bare.spelled, Bool.false_eq_true, if_false,
    String.ofList_toList]

private theorem readKey?_bare (bare : IsBareKey key) (stops : ∀ c, rest.head? = some c → isBareChar c = false)
    (ends : (skipSpaces rest).head? ≠ some '.') :
    readKey? (key.toList ++ rest).length (key.toList ++ rest) = some ([key], skipSpaces rest) := by
  obtain ⟨c, tail, spelled, first⟩ := bare.first
  have enough : (key.toList ++ rest).length = (tail ++ rest).length + 1 := by rw [spelled]; rfl
  have unspaced : skipSpaces (key.toList ++ rest) = key.toList ++ rest := by
    apply skipSpaces_of_head?
    rw [spelled]
    rintro c ⟨⟩
    exact isSpace_of_isBareChar first
  simp only [enough, readKey?, unspaced, readSimpleKey?_bare bare stops, Option.bind_some]
  split
  next same => exact absurd (by rw [same]; rfl) ends
  next => rfl

private theorem readHeader?_bare (bare : IsBareKey key) {closing more : List Char} (closes : closing = ']' :: more) :
    readHeader? closing (key.toList ++ (closing ++ rest)) = some ([key], rest) := by
  subst closes
  have unspaced : skipSpaces (']' :: more ++ rest) = ']' :: more ++ rest := rfl
  rw [readHeader?, readKey?_bare bare (by rintro c ⟨⟩; rfl) (by rw [unspaced]; nofun), unspaced]
  simp

private theorem readAssignment?_bare (bare : IsBareKey key) {value : Scalar} (held : value.IsHeld) :
    readAssignment? (key.toList ++ (' ' :: '=' :: ' ' :: (value.write ++ '\n' :: rest))) =
      some (.assign [key] value.node, '\n' :: rest) := by
  have spaced : skipSpaces (' ' :: '=' :: ' ' :: (value.write ++ '\n' :: rest)) =
    '=' :: ' ' :: (value.write ++ '\n' :: rest) := rfl
  have unspaced : skipSpaces (' ' :: (value.write ++ '\n' :: rest)) = value.write ++ '\n' :: rest := by
    obtain ⟨first, more, written, other⟩ := value.head_write
    change skipSpaces (value.write ++ '\n' :: rest) = _
    apply skipSpaces_of_head?
    rw [written]
    rintro c ⟨⟩
    exact other
  rw [readAssignment?, readKey?_bare bare (by rintro c ⟨⟩; rfl) (by rw [spaced]; nofun), spaced, Option.bind_some]
  have deep : 2 * (' ' :: (value.write ++ '\n' :: rest)).length + 1 = 2 * (value.write ++ '\n' :: rest).length + 1 + 2 := by
    rw [List.length_cons]
    omega
  simp only [unspaced, deep, readValue?_write held, Option.map_some]

end Keys

section Lines

variable {first : Char} {text rest : List Char} {statement : Statement}

private theorem readLinesOf?_statement (unspaced : isSpace first = false) (begins : first ∉ ['\n', '\r', '#'])
    (read : readStatement? (first :: text) = some (statement, '\n' :: rest)) (lines : Nat) :
    readLinesOf? (lines + 1) (first :: text) = (readLinesOf? lines rest).map (statement :: ·) := by
  have stands : skipSpaces (first :: text) = first :: text := skipSpaces_of_head? (by rintro c ⟨⟩; exact unspaced)
  have other : ¬(first = '\n' ∨ first = '\r' ∨ first = '#') := by simpa using begins
  have ends : endLine? ('\n' :: rest) = some rest := rfl
  simp only [readLinesOf?, stands, if_neg other, read, ends, Option.bind_some]

private theorem readStatement?_assignment (other : first ≠ '[') :
    readStatement? (first :: text) = readAssignment? (first :: text) := by
  unfold readStatement?
  split
  next same => exact absurd (List.cons.inj same).1 other
  next same => exact absurd (List.cons.inj same).1 other
  next => rfl

private theorem readStatement?_header (single : text.head? ≠ some '[') :
    readStatement? ('[' :: text) = (readHeader? "]".toList text).map fun (path, rest) => (.header path, rest) := by
  unfold readStatement?
  split
  next same => exact absurd (by rw [(List.cons.inj same).2]; rfl) single
  next same => rw [(List.cons.inj same).2]
  next _ other => exact absurd rfl (other text)

/-- A line is read as its statement, or passed over if it is blank. -/
theorem readLinesOf?_write {line : Line} (readable : line.IsReadable) (lines : Nat) (rest : List Char) :
    readLinesOf? (lines + 1) (line.write ++ rest) = (readLinesOf? lines rest).map (line.statement?.toList ++ ·) := by
  cases line with
  | header key =>
    have written : (Line.header key).write ++ rest = '[' :: (key.toList ++ ("]".toList ++ '\n' :: rest)) := by
      simp [Line.write]
    have single : (key.toList ++ ("]".toList ++ '\n' :: rest)).head? ≠ some '[' := by
      obtain ⟨c, tail, spelled, bare⟩ := IsBareKey.first readable
      rw [spelled]
      rintro ⟨⟩
      cases bare
    rw [written]
    apply readLinesOf?_statement rfl (by decide)
    have closes : "]".toList = [']'] := rfl
    rw [readStatement?_header single, readHeader?_bare readable closes]
    rfl
  | arrayHeader key =>
    have written : (Line.arrayHeader key).write ++ rest = '[' :: '[' :: (key.toList ++ ("]]".toList ++ '\n' :: rest)) := by
      simp [Line.write]
    rw [written]
    apply readLinesOf?_statement rfl (by decide)
    have closes : "]]".toList = [']', ']'] := rfl
    rw [readStatement?, readHeader?_bare readable closes]
    rfl
  | assign key value =>
    obtain ⟨bare, held⟩ := readable
    have written : (Line.assign key value).write ++ rest =
        key.toList ++ (' ' :: '=' :: ' ' :: (value.write ++ '\n' :: rest)) := by
      simp [Line.write]
    have read : readAssignment? (key.toList ++ (' ' :: '=' :: ' ' :: (value.write ++ '\n' :: rest))) =
        some (.assign [key] value.node, '\n' :: rest) := readAssignment?_bare bare held
    obtain ⟨c, tail, spelled, first⟩ := bare.first
    have begins : c ∉ ['\n', '\r', '#'] := by
      intro member
      simp only [List.mem_cons, List.not_mem_nil, or_false] at member
      rcases member with rfl | rfl | rfl <;> cases first
    have other : c ≠ '[' := by
      rintro rfl
      cases first
    rw [written]
    rw [spelled, List.cons_append] at read ⊢
    apply readLinesOf?_statement (isSpace_of_isBareChar first) begins
    rw [readStatement?_assignment other, read]
  | blank =>
    have ends : endLine? ('\n' :: rest) = some rest := rfl
    have nothing : (Line.blank.statement?.toList ++ · : List Statement → List Statement) = id := rfl
    rw [nothing, Option.map_id, id_eq]
    change (endLine? ('\n' :: rest)).bind (readLinesOf? lines) = _
    rw [ends, Option.bind_some]

theorem readLinesOf?_writeLines {written : List Line} (readable : ∀ line ∈ written, line.IsReadable) :
    ∀ lines ≥ written.length, readLinesOf? lines (writeLines written) = some (written.filterMap Line.statement?) := by
  induction written with
  | nil => intro lines _; cases lines <;> rfl
  | cons line written ih =>
    intro lines enough
    obtain ⟨fewer, rfl⟩ := Nat.exists_eq_add_of_le' (Nat.le_trans (Nat.le_add_left 1 written.length) enough)
    obtain ⟨first, readable⟩ := List.forall_mem_cons.mp readable
    have step : writeLines (line :: written) = line.write ++ writeLines written := rfl
    rw [step, readLinesOf?_write first, ih readable fewer (Nat.le_of_succ_le_succ enough)]
    cases line <;> rfl

private theorem head_write {line : Line} (readable : line.IsReadable) :
    ∃ first more, line.write = first :: more ∧ first ≠ '\uFEFF' := by
  cases line with
  | header key => exact ⟨'[', _, rfl, by decide⟩
  | arrayHeader key => exact ⟨'[', _, rfl, by decide⟩
  | blank => exact ⟨'\n', [], rfl, by decide⟩
  | assign key value =>
    obtain ⟨c, tail, spelled, first⟩ := readable.1.first
    refine ⟨c, _, by rw [Line.write, spelled, List.cons_append], ?_⟩
    rintro rfl
    cases first

private theorem length_le_writeLines {written : List Line} (readable : ∀ line ∈ written, line.IsReadable) :
    written.length ≤ (writeLines written).length := by
  induction written with
  | nil => exact Nat.le_refl 0
  | cons line written ih =>
    obtain ⟨first, readable⟩ := List.forall_mem_cons.mp readable
    obtain ⟨_, _, begins, _⟩ := head_write first
    have step : writeLines (line :: written) = line.write ++ writeLines written := rfl
    have shorter := ih readable
    rw [step, begins, List.length_append, List.length_cons, List.length_cons]
    omega

theorem readStatements?_writeLines {written : List Line} (readable : ∀ line ∈ written, line.IsReadable) :
    readStatements? (writeLines written) = some (written.filterMap Line.statement?) := by
  unfold readStatements?
  split
  next same =>
    cases written with
    | nil => cases same
    | cons line written =>
      obtain ⟨_, _, begins, noMark⟩ := head_write (readable line List.mem_cons_self)
      rw [writeLines, List.flatMap_cons, begins] at same
      exact absurd (List.cons.inj same).1 noMark
  next => exact readLinesOf?_writeLines readable _ (length_le_writeLines readable)

end Lines

end ReportEngine.Toml
