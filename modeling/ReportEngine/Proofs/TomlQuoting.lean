import ReportEngine.Toml.Writer

/-! Quoted texts are read back, whichever of the ways to quote them is taken. A way without escapes takes only
the texts that its quotes close where they end; with escapes any text can be written. -/

namespace ReportEngine.Toml

namespace Quoting

/-- Whether a text can be quoted in a way at all. -/
def Admits : Quoting → List Char → Prop
  | literal, text => ∀ c ∈ text, c ≠ '\x27' ∧ isForbidden c = false
  | literalLines, text => hasTriple '\x27' text = false ∧ ∀ c ∈ text, needsCode c = false
  | basic, _ | basicLines, _ => True

private theorem isForbidden_of_needsCode {c : Char} (plain : needsCode c = false) (inLine : c ≠ '\n') :
    isForbidden c = false := by
  simpa [needsCode, inLine] using plain

theorem admits_ofText (text : List Char) : (ofText text).Admits text := by
  simp only [ofText]
  split
  next => trivial
  split
  next chosen =>
    simp only [Bool.and_eq_true, Bool.not_eq_true', List.any_eq_false, List.contains_eq_mem, decide_eq_false_iff_not]
      at chosen
    obtain ⟨⟨plain, unquoted⟩, unbroken⟩ := chosen
    intro c member
    have inLine : c ≠ '\n' := fun same => unbroken (same ▸ member)
    refine ⟨fun same => unquoted (same ▸ member), ?_⟩
    exact isForbidden_of_needsCode (Bool.eq_false_iff.mpr (plain c member)) inLine
  split
  next => trivial
  split
  next chosen =>
    simp only [Bool.and_eq_true, Bool.not_eq_true', List.any_eq_false] at chosen
    exact ⟨chosen.2, fun c member => Bool.eq_false_iff.mpr (chosen.1 c member)⟩
  split
  next => trivial
  next => trivial

end Quoting

section Steps

variable {c : Char} {text rest : List Char}

theorem scalarOfHex?_control : ∀ n < 128, scalarOfHex? ['0', '0', hexChar (n / 16), hexChar n] = some (Char.ofNat n) := by
  decide +kernel

/-- A character is written as an escape that is read as the character, or as it is. -/
private theorem escapeChar_cases (overLines : Bool) (c : Char) :
    (∃ mark, escapeChar overLines c = '\\' :: mark ∧ ∀ rest, readEscape? (mark ++ rest) = some (c, rest)) ∨
      escapeChar overLines c = [c] ∧ c ≠ '\\' ∧ (isForbidden c = false ∨ overLines = true ∧ c = '\n') := by
  unfold escapeChar
  split
  next same =>
    subst same
    exact .inl ⟨['\\'], rfl, fun rest => rfl⟩
  next other =>
    split
    next same => exact .inl ⟨['b'], rfl, fun rest => same ▸ rfl⟩
    split
    next same => exact .inl ⟨['t'], rfl, fun rest => same ▸ rfl⟩
    split
    next same =>
      split
      next broken => exact .inr ⟨by rw [same], other, .inr ⟨broken, same⟩⟩
      next => exact .inl ⟨['n'], rfl, fun rest => same ▸ rfl⟩
    split
    next same => exact .inl ⟨['f'], rfl, fun rest => same ▸ rfl⟩
    split
    next same => exact .inl ⟨['r'], rfl, fun rest => same ▸ rfl⟩
    split
    next forbidden =>
      have small : c.toNat < 128 := by
        simp only [isForbidden, Bool.or_eq_true, Bool.and_eq_true, decide_eq_true_eq, beq_iff_eq] at forbidden
        omega
      refine .inl ⟨['u', '0', '0', hexChar (c.toNat / 16), hexChar c.toNat], rfl, fun rest => ?_⟩
      have denotes := scalarOfHex?_control c.toNat small
      rw [Char.ofNat_toNat] at denotes
      have width : escapeWidth? 'u' = some 4 := rfl
      simp [readEscape?, width, denotes]
    next plain => exact .inr ⟨rfl, other, .inl (Bool.eq_false_iff.mpr plain)⟩

theorem readBasic?_plain (unquoted : c ≠ '\x22') (unescaped : c ≠ '\\') (plain : isForbidden c = false) :
    readBasic? (c :: rest) = prepend c (readBasic? rest) := by
  rw [readBasic?, if_neg unquoted, if_neg unescaped, plain]
  rfl

theorem readBasic?_escape (read : readEscape? text = some (c, rest)) :
    readBasic? ('\\' :: text) = prepend c (readBasic? rest) := by
  rw [readBasic?, if_neg (by decide), if_pos rfl]
  split
  next none => rw [read] at none; cases none
  next some => rw [read] at some; cases some; rfl

theorem readBasic?_escaped (text rest : List Char) :
    readBasic? (escape false 0 text ++ '\x22' :: rest) = some (text, rest) := by
  induction text with
  | nil => rw [escape, List.nil_append, readBasic?, if_pos rfl]
  | cons c text ih =>
    rw [escape]
    split
    next same =>
      subst same
      have read : readEscape? ('\x22' :: (escape false 0 text ++ '\x22' :: rest)) =
        some ('\x22', escape false 0 text ++ '\x22' :: rest) := rfl
      rw [Bool.false_and, if_neg Bool.false_ne_true, List.cons_append, List.cons_append, readBasic?_escape read, ih]
      rfl
    next unquoted =>
      rcases escapeChar_cases false c with ⟨mark, written, read⟩ | ⟨written, unescaped, plain⟩
      · rw [written, List.append_assoc, List.cons_append, readBasic?_escape (read _), ih]
        rfl
      · rw [written, List.append_assoc, List.singleton_append,
          readBasic?_plain unquoted unescaped (plain.resolve_right fun broken => Bool.false_ne_true broken.1), ih]
        rfl

theorem readLiteral?_plain (plain : ∀ c ∈ text, c ≠ '\x27' ∧ isForbidden c = false) :
    readLiteral? (text ++ '\x27' :: rest) = some (text, rest) := by
  induction text with
  | nil => rfl
  | cons c text ih =>
    obtain ⟨⟨unquoted, allowed⟩, plain⟩ := List.forall_mem_cons.mp plain
    rw [List.cons_append, readLiteral?, if_neg unquoted, allowed, ih plain]
    rfl

end Steps

section Lines

variable {c quote : Char} {text rest tail : List Char}

private theorem leading_replicate (count : Nat) (other : tail.head? ≠ some quote) :
    (List.replicate count quote ++ tail).takeWhile (· == quote) = List.replicate count quote := by
  rw [List.takeWhile_append_of_pos (by simp)]
  have stop : tail.takeWhile (· == quote) = [] := by
    cases tail with
    | nil => rfl
    | cons first tail =>
      have differs : first ≠ quote := fun same => other (congrArg some same)
      simp [differs]
  rw [stop, List.append_nil]

/-- Fewer than three quotes close nothing. -/
theorem readClosing?_open (count : Nat) (few : count < 3) (other : tail.head? ≠ some quote) :
    readClosing? quote (List.replicate count quote ++ tail) = none := by
  have run : min 5 count = count := Nat.min_eq_right (by omega)
  simp only [readClosing?, leading_replicate count other, List.length_replicate, run, few, if_true]

/-- Up to two quotes in front of those that close a text belong to it. -/
theorem readClosing?_close (count : Nat) (few : count < 3) (other : rest.head? ≠ some quote) :
    readClosing? quote (List.replicate (count + 3) quote ++ rest) = some (List.replicate count quote, rest) := by
  have run : min 5 (count + 3) = count + 3 := Nat.min_eq_right (by omega)
  simp [readClosing?, leading_replicate (count + 3) other, run]

theorem readClosing?_other (differs : c ≠ quote) : readClosing? quote (c :: text) = none := by
  have other : (c :: text).head? ≠ some quote := fun same => differs (Option.some.inj same)
  exact readClosing?_open 0 (by decide) other

theorem readLines?_break : readLines? .content ('\n' :: rest) = prepend '\n' (readLines? .content rest) := by
  rw [readLines?, if_pos rfl, if_pos rfl]

private theorem readLines?_closing {closed : List Char × List Char}
    (closes : readClosing? '\x22' ('\x22' :: rest) = some closed) : readLines? .content ('\x22' :: rest) = some closed := by
  simp [readLines?, closes]

private theorem readLines?_quote (goesOn : readClosing? '\x22' ('\x22' :: rest) = none) :
    readLines? .content ('\x22' :: rest) = prepend '\x22' (readLines? .content rest) := by
  have plain : isForbidden '\x22' = false := rfl
  simp [readLines?, goesOn, plain]

private theorem readLines?_plain (unquoted : c ≠ '\x22') (unescaped : c ≠ '\\') (plain : isForbidden c = false) :
    readLines? .content (c :: rest) = prepend c (readLines? .content rest) := by
  have inLine : c ≠ '\n' := by
    rintro rfl
    cases plain
  have noReturn : c ≠ '\r' := by
    rintro rfl
    cases plain
  simp [readLines?, readClosing?_other unquoted, inLine, noReturn, unescaped, plain]

private theorem readLines?_escape (read : readEscape? text = some (c, rest)) :
    readLines? .content ('\\' :: text) = prepend c (readLines? .content rest) := by
  have goesOn : readClosing? '\x22' ('\\' :: text) = none := readClosing?_other (by decide)
  rw [readLines?]
  simp only [goesOn, reduceCtorEq, Char.reduceEq, false_and, if_false, if_true, ne_eq, not_true_eq_false]
  split
  next none => rw [read] at none; cases none
  next some => rw [read] at some; cases some; rfl

/-- Where a text with fewer than three quotes in front is nothing but these quotes, the ones after it close
it, and else they are too far away. -/
private theorem readClosing?_body {count : Nat} (few : count ≤ 2) (stops : tail.head? ≠ some quote)
    (other : rest.head? ≠ some quote) :
    readClosing? quote (List.replicate count quote ++ tail ++ quote :: quote :: quote :: rest) =
      if tail = [] then some (List.replicate count quote, rest) else none := by
  cases tail with
  | nil =>
    have closes := readClosing?_close count (by omega) other
    rw [← List.replicate_append_replicate, List.append_assoc] at closes
    rw [List.append_nil, if_pos rfl]
    exact closes
  | cons c more =>
    rw [if_neg (List.cons_ne_nil c more), List.append_assoc]
    exact readClosing?_open count (by omega) stops

/-- What is escaped begins with a quote only where quotes stand as they are. A line break or the character
before one never comes first, unless the text has a line break. -/
private theorem head?_escape {overLines : Bool} {run : Nat} (begins : (escape overLines run text).head? = some c) :
    (c = '\x22' → overLines = true) ∧ c ≠ '\r' ∧ (c = '\n' → '\n' ∈ text) := by
  cases text with
  | nil => cases begins
  | cons first text =>
    rw [escape] at begins
    split at begins
    next =>
      split at begins
      next raw =>
        cases begins
        exact ⟨fun _ => (Bool.and_eq_true_iff.mp raw).1, by decide, nofun⟩
      next => cases begins; exact ⟨nofun, by decide, nofun⟩
    next unquoted =>
      rcases escapeChar_cases overLines first with ⟨mark, written, _⟩ | ⟨written, _, plain⟩
      · rw [written] at begins
        cases begins
        exact ⟨nofun, by decide, nofun⟩
      · rw [written] at begins
        cases begins
        refine ⟨fun same => absurd same unquoted, ?_, fun same => same ▸ List.mem_cons_self⟩
        rintro rfl
        rcases plain with plain | ⟨_, same⟩
        · cases plain
        · cases same

/-- An escaped text over several lines begins with its own quotes that stand as they are: the whole text, if
it has no others, or else fewer than three. -/
private theorem escape_quotes (text : List Char) : ∀ run ≤ 2, ∃ count tail,
    escape true run text = List.replicate count '\x22' ++ tail ∧ run + count ≤ 2 ∧ tail.head? ≠ some '\x22' ∧
      (tail = [] → text = List.replicate count '\x22') := by
  induction text with
  | nil => exact fun run few => ⟨0, [], rfl, few, nofun, fun _ => rfl⟩
  | cons c text ih =>
    intro run few
    rw [escape]
    split
    next same =>
      subst same
      by_cases fits : run < 2
      · obtain ⟨count, tail, written, bound, stops, whole⟩ := ih (run + 1) fits
        refine ⟨count + 1, tail, ?_, by omega, stops, ?_⟩
        · simp [fits, written, List.replicate_succ]
        · intro none
          rw [whole none, List.replicate_succ]
      · have full : ¬(true && decide (run < 2)) = true := by simpa using fits
        rw [if_neg full]
        exact ⟨0, _, rfl, few, by simp, nofun⟩
    next unquoted =>
      rcases escapeChar_cases true c with ⟨mark, written, _⟩ | ⟨written, _⟩
      · rw [written]
        exact ⟨0, _, rfl, few, by simp, nofun⟩
      · rw [written]
        exact ⟨0, _, rfl, few, by simpa using unquoted, nofun⟩

/-- A quote of the text is one of those right before the end, which are read with the closing ones, or a
character like any other. -/
theorem readLines?_escaped (text : List Char) {rest : List Char} (other : rest.head? ≠ some '\x22') : ∀ run ≤ 2,
    readLines? .content (escape true run text ++ '\x22' :: '\x22' :: '\x22' :: rest) = some (text, rest) := by
  induction text with
  | nil => exact fun run _ => readLines?_closing (readClosing?_close 0 (by decide) other)
  | cons c text ih =>
    intro run few
    by_cases same : c = '\x22'
    · subst same
      by_cases fits : run < 2
      · have raw : escape true run ('\x22' :: text) = '\x22' :: escape true (run + 1) text := by simp [escape, fits]
        obtain ⟨count, tail, written, bound, stops, whole⟩ := escape_quotes ('\x22' :: text) run few
        have looked := readClosing?_body (by omega : count ≤ 2) stops other
        rw [← written, raw, List.cons_append] at looked
        rw [raw, List.cons_append]
        split at looked
        next none => rw [readLines?_closing looked, whole none]
        next => rw [readLines?_quote looked, ih (run + 1) fits]; rfl
      · have coded : escape true run ('\x22' :: text) = '\\' :: '\x22' :: escape true 0 text := by simp [escape, fits]
        rw [coded, List.cons_append, List.cons_append, readLines?_escape rfl, ih 0 (by decide)]
        rfl
    · rw [escape, if_neg same]
      rcases escapeChar_cases true c with ⟨mark, written, read⟩ | ⟨written, unescaped, plain⟩
      · rw [written, List.append_assoc, List.cons_append, readLines?_escape (read _), ih 0 (by decide)]
        rfl
      · rw [written, List.append_assoc, List.singleton_append]
        rcases plain with plain | ⟨_, broken⟩
        · rw [readLines?_plain same unescaped plain, ih 0 (by decide)]
          rfl
        · rw [broken, readLines?_break, ih 0 (by decide)]
          rfl

private theorem leading_quotes (quote : Char) (text : List Char) : ∃ count tail,
    text = List.replicate count quote ++ tail ∧ tail.head? ≠ some quote := by
  induction text with
  | nil => exact ⟨0, [], rfl, nofun⟩
  | cons c text ih =>
    by_cases same : c = quote
    · obtain ⟨count, tail, rfl, stops⟩ := ih
      exact ⟨count + 1, tail, by rw [same, List.replicate_succ, List.cons_append], stops⟩
    · exact ⟨0, c :: text, rfl, by simpa using same⟩

private theorem hasTriple_replicate (count : Nat) : hasTriple quote (List.replicate (count + 3) quote ++ tail) = true := by
  simp [List.replicate_succ, hasTriple]

theorem readLiteralLines?_plain (noTriple : hasTriple '\x27' text = false) (plain : ∀ c ∈ text, needsCode c = false)
    (other : rest.head? ≠ some '\x27') :
    readLiteralLines? (text ++ '\x27' :: '\x27' :: '\x27' :: rest) = some (text, rest) := by
  induction text with
  | nil =>
    have closes : readClosing? '\x27' ('\x27' :: '\x27' :: '\x27' :: rest) = some ([], rest) :=
      readClosing?_close 0 (by decide) other
    rw [List.nil_append, readLiteralLines?, closes]
  | cons c text ih =>
    obtain ⟨allowed, plain⟩ := List.forall_mem_cons.mp plain
    obtain ⟨count, tail, begins, stops⟩ := leading_quotes '\x27' (c :: text)
    have few : count ≤ 2 := by
      rcases Nat.lt_or_ge 2 count with many | few
      · obtain ⟨more, rfl⟩ := Nat.exists_eq_add_of_le' many
        rw [begins, hasTriple_replicate] at noTriple
        cases noTriple
      · exact few
    have looked := readClosing?_body few stops other
    rw [← begins, List.cons_append] at looked
    rw [List.cons_append, readLiteralLines?]
    split at looked
    next none =>
      rw [none, List.append_nil] at begins
      rw [looked, begins]
    next =>
      simp only [hasTriple, Bool.or_eq_false_iff] at noTriple
      have stands : (isForbidden c && c != '\n') = false := allowed
      simp only [looked, stands, Bool.false_and, Bool.false_eq_true, if_false]
      rw [ih noTriple.2 plain]
      rfl

end Lines

namespace Quoting

variable {text rest : List Char}

/-- The break after the opening quotes is the one that is dropped, or there is none to drop. -/
private theorem dropFirstBreak_opening {body : List Char}
    (begins : ∀ c, body.head? = some c → c ≠ '\r' ∧ (c = '\n' → '\n' ∈ text)) :
    dropFirstBreak (opening text ++ body) = body := by
  unfold opening
  split
  next => rfl
  next unbroken =>
    rw [List.nil_append]
    cases body with
    | nil => rfl
    | cons c body =>
      obtain ⟨noReturn, broken⟩ := begins c rfl
      have inLine : c ≠ '\n' := fun same => unbroken (List.contains_iff_mem.mpr (broken same))
      unfold dropFirstBreak
      split
      next same => exact absurd (List.cons.inj same).1 inLine
      next same => exact absurd (List.cons.inj same).1 noReturn
      next => rfl

private theorem readQuoted?_basic (single : ∀ more, text ≠ '\x22' :: '\x22' :: more) :
    readQuoted? ('\x22' :: text) = readBasic? text := by
  unfold readQuoted?
  split
  next same => exact absurd (List.cons.inj same).2 (single _)
  next same => cases (List.cons.inj same).1
  next same => rw [(List.cons.inj same).2]
  next same => cases (List.cons.inj same).1
  next other _ => exact absurd rfl (other text)

private theorem readQuoted?_literal (single : ∀ more, text ≠ '\x27' :: '\x27' :: more) :
    readQuoted? ('\x27' :: text) = readLiteral? text := by
  unfold readQuoted?
  split
  next same => cases (List.cons.inj same).1
  next same => exact absurd (List.cons.inj same).2 (single _)
  next same => cases (List.cons.inj same).1
  next same => rw [(List.cons.inj same).2]
  next other => exact absurd rfl (other text)

theorem readQuoted?_write (quoting : Quoting) (admits : quoting.Admits text) :
    readQuoted? (quoting.write text ++ '\n' :: rest) = some (text, '\n' :: rest) := by
  cases quoting with
  | basic =>
    have written : basic.write text ++ '\n' :: rest = '\x22' :: (escape false 0 text ++ '\x22' :: '\n' :: rest) := by
      simp [write]
    rw [written, readQuoted?_basic ?_, readBasic?_escaped]
    intro more same
    cases quoted : escape false 0 text with
    | nil => rw [quoted] at same; cases same
    | cons c tail =>
      rw [quoted] at same
      have begins : (escape false 0 text).head? = some c := by rw [quoted]; rfl
      exact Bool.false_ne_true ((head?_escape begins).1 (List.cons.inj same).1)
  | literal =>
    have written : literal.write text ++ '\n' :: rest = '\x27' :: (text ++ '\x27' :: '\n' :: rest) := by
      simp [write]
    rw [written, readQuoted?_literal ?_, readLiteral?_plain admits]
    intro more same
    cases text with
    | nil => cases same
    | cons c text => exact (admits c List.mem_cons_self).1 (List.cons.inj same).1
  | basicLines =>
    have written : basicLines.write text ++ '\n' :: rest = '\x22' :: '\x22' :: '\x22' ::
        (opening text ++ (escape true 0 text ++ '\x22' :: '\x22' :: '\x22' :: '\n' :: rest)) := by
      simp [write]
    have ends : ('\n' :: rest).head? ≠ some '\x22' := nofun
    rw [written, readQuoted?, dropFirstBreak_opening ?_, readLines?_escaped text ends 0 (by decide)]
    intro c begins
    cases quoted : escape true 0 text with
    | nil => rw [quoted] at begins; cases begins; exact ⟨by decide, nofun⟩
    | cons first tail =>
      rw [quoted] at begins
      cases begins
      have begins : (escape true 0 text).head? = some c := by rw [quoted]; rfl
      exact (head?_escape begins).2
  | literalLines =>
    have written : literalLines.write text ++ '\n' :: rest = '\x27' :: '\x27' :: '\x27' ::
        (opening text ++ (text ++ '\x27' :: '\x27' :: '\x27' :: '\n' :: rest)) := by
      simp [write]
    have ends : ('\n' :: rest).head? ≠ some '\x27' := nofun
    rw [written, readQuoted?, dropFirstBreak_opening ?_, readLiteralLines?_plain admits.1 admits.2 ends]
    intro c begins
    cases text with
    | nil => cases begins; exact ⟨by decide, nofun⟩
    | cons first text =>
      cases begins
      have plain := admits.2 c List.mem_cons_self
      refine ⟨?_, fun same => same ▸ List.mem_cons_self⟩
      rintro rfl
      cases plain

end Quoting

end ReportEngine.Toml
