import ReportEngine.Markup.Item

/-! Text written with references is read back as it was. A reference is closed by its own `;`, so what
follows it is read as if nothing had been in front. -/

namespace ReportEngine.Markup

/-- The characters that markup gives a meaning to, but for the one that begins a reference. -/
def marks : List Char := ['<', '>', '\x27', '\x22']

/-- The references that markup predefines. -/
def predefined : List (List Char) :=
  ["&lt;".toList, "&gt;".toList, "&amp;".toList, "&apos;".toList, "&quot;".toList]

/-- Nothing in a predefined reference is taken for markup, and no reference begins within another. -/
theorem plain_of_predefined {entity : List Char} (known : entity ∈ predefined) :
    (∀ mark ∈ marks, mark ∉ entity) ∧ '&' ∉ entity.tail := by
  have checked : ∀ entity ∈ predefined,
      (marks.all fun mark => !entity.contains mark) = true ∧ entity.tail.contains '&' = false := by decide
  obtain ⟨plain, alone⟩ := checked entity known
  constructor
  · intro mark member inside
    have absent := List.all_eq_true.mp plain mark member
    rw [List.contains_iff_mem.mpr inside] at absent
    cases absent
  · intro again
    rw [List.contains_iff_mem.mpr again] at alone
    cases alone

theorem reference?_eq_some {c : Char} {written : List Char} (found : reference? c = some written) :
    written ∈ predefined ∧ unescape? written = some [c] := by
  unfold reference? at found
  split at found
  next same => subst same; cases found; decide
  split at found
  next same => subst same; cases found; decide
  split at found
  next same => subst same; cases found; decide
  split at found
  next same => subst same; cases found; decide
  split at found
  next same => subst same; cases found; decide
  next => cases found

theorem reference?_eq_none {c : Char} (plain : reference? c = none) : c ∉ marks ∧ c ≠ '&' := by
  have written : (('&' :: marks).all fun mark => (reference? mark).isSome) = true := by decide
  have unwritten : c ∉ '&' :: marks := by
    intro member
    have found := List.all_eq_true.mp written c member
    rw [plain] at found
    cases found
  constructor
  · exact fun mark => unwritten (.tail _ mark)
  · rintro rfl
    exact unwritten (.head _)

theorem escape_cons (c : Char) (text : List Char) :
    escape (c :: text) = (reference? c).getD [c] ++ escape text := List.flatMap_cons

/-- Nothing in an escaped text is taken for markup. -/
theorem not_mem_escape {mark : Char} (known : mark ∈ marks) (text : List Char) : mark ∉ escape text := by
  intro member
  obtain ⟨c, _, inside⟩ := List.mem_flatMap.mp member
  cases found : reference? c with
  | none =>
    have same : mark = c := by simpa [found] using inside
    exact (reference?_eq_none found).1 (same ▸ known)
  | some written =>
    rw [found, Option.getD_some] at inside
    exact (plain_of_predefined (reference?_eq_some found).1).1 mark known inside

/-- No tag begins in an escaped text. -/
theorem lt_not_mem_escape (text : List Char) : '<' ∉ escape text := not_mem_escape (by decide) text

/-- Every `&` of an escaped text is one that escaping wrote, at the beginning of a reference: by induction on the
text, it stands in what the first character is written as, or in the rest. -/
theorem predefined_at_escaped {text front rest : List Char} (split : escape text = front ++ '&' :: rest) :
    ∃ entity ∈ predefined, entity <+: '&' :: rest := by
  induction text generalizing front with
  | nil =>
    have empty : [] = front ++ '&' :: rest := split
    simp at empty
  | cons c text ih =>
    rw [escape_cons] at split
    obtain ⟨between, -, later⟩ | ⟨piece, written, later⟩ := List.append_eq_append_iff.mp split
    · exact ih later
    · cases piece with
      | nil =>
        have start : escape text = [] ++ '&' :: rest := later.symm
        exact ih start
      | cons first piece =>
        obtain ⟨rfl, -⟩ := List.cons.inj later
        cases found : reference? c with
        | none =>
          have same : c = '&' := by
            rw [found, Option.getD_none, List.singleton_eq_append_iff] at written
            obtain ⟨-, same⟩ | ⟨-, none⟩ := written
            · exact (List.cons.inj same).1.symm
            · cases none
          exact absurd same (reference?_eq_none found).2
        | some entity =>
          rw [found, Option.getD_some] at written
          have known := (reference?_eq_some found).1
          have begins : front = [] := by
            cases front with
            | nil => rfl
            | cons other front =>
              apply absurd _ (plain_of_predefined known).2
              rw [written]
              simp
          refine ⟨entity, known, escape text, ?_⟩
          rw [written, begins, later, List.nil_append]

/-- A text whose references are all closed can go on in any way. -/
theorem unescapeFrom_append {pending : Option (List Char)} {front meaning : List Char} (rest : List Char)
    (unescaped : unescapeFrom pending front = some meaning) :
    unescapeFrom pending (front ++ rest) = (unescape? rest).map (meaning ++ ·) := by
  unfold unescape?
  induction front generalizing pending meaning with
  | nil =>
    rw [unescapeFrom] at unescaped
    split at unescaped
    next => cases unescaped
    next closed =>
      cases unescaped
      have none : pending = none := by simpa using closed
      simp [none]
  | cons c front ih =>
    rw [List.cons_append]
    cases pending with
    | none =>
      rw [unescapeFrom] at unescaped ⊢
      by_cases opens : c = '&'
      · simp only [opens, if_true] at unescaped ⊢
        exact ih unescaped
      · simp only [opens, if_false] at unescaped ⊢
        obtain ⟨later, read, rfl⟩ := Option.map_eq_some_iff.mp unescaped
        rw [ih read, Option.map_map]
        rfl
    | some name =>
      rw [unescapeFrom] at unescaped ⊢
      by_cases closes : c = ';'
      · simp only [closes, if_true] at unescaped ⊢
        cases found : resolve? name.reverse with
        | none => simp [found] at unescaped
        | some first =>
          simp only [found] at unescaped ⊢
          obtain ⟨later, read, rfl⟩ := Option.map_eq_some_iff.mp unescaped
          rw [ih read, Option.map_map]
          rfl
      · simp only [closes, if_false] at unescaped ⊢
        by_cases again : c = '&'
        · simp [again] at unescaped
        · simp only [again, if_false] at unescaped ⊢
          exact ih unescaped

theorem unescape?_singleton {c : Char} (plain : c ≠ '&') : unescape? [c] = some [c] := by
  rw [unescape?, unescapeFrom]
  simp only [plain, if_false]
  rfl

theorem unescape?_escape (text : List Char) : unescape? (escape text) = some text := by
  induction text with
  | nil => rfl
  | cons c rest ih =>
    have first : unescape? ((reference? c).getD [c]) = some [c] := by
      cases found : reference? c with
      | none => exact unescape?_singleton (reference?_eq_none found).2
      | some written => exact (reference?_eq_some found).2
    rw [escape_cons, unescape?, unescapeFrom_append _ first, ih]
    rfl

theorem unescape?_of_plain {text : List Char} (plain : '&' ∉ text) : unescape? text = some text := by
  induction text with
  | nil => rfl
  | cons c rest ih =>
    simp only [List.mem_cons, not_or] at plain
    have first := unescape?_singleton (Ne.symm plain.1)
    rw [← List.singleton_append, unescape?, unescapeFrom_append _ first, ih plain.2]
    rfl

/-- Of all characters that markup gives a meaning to, an escaped text has only the `&` of predefined references, and
unescaping it gives the text. -/
theorem unescape_escaped (text : String) :
    (∀ mark ∈ marks, mark ∉ escape text.toList) ∧
      (∀ front rest, escape text.toList = front ++ '&' :: rest → ∃ entity ∈ predefined, entity <+: '&' :: rest) ∧
      unescape (String.ofList (escape text.toList)) = .ok text := by
  refine ⟨?_, fun _ _ => predefined_at_escaped, ?_⟩
  · intro mark known
    exact not_mem_escape known text.toList
  · rw [unescape, String.toList_ofList, unescape?_escape]
    exact congrArg Except.ok String.ofList_toList

/-- A text that looks like a reference is not read as one. -/
theorem unescape_escaped_reference :
    '<' ∉ escape "&#60; '&lt;".toList ∧ (∃ entity ∈ predefined, entity <+: "&amp;#60; &apos;&amp;lt;".toList) ∧
      unescape "&amp;#60; &apos;&amp;lt;" = .ok "&#60; '&lt;" := by
  obtain ⟨plain, references, back⟩ := unescape_escaped "&#60; '&lt;"
  exact ⟨plain '<' (by decide), references [] "amp;#60; &apos;&amp;lt;".toList (by decide), back⟩

end ReportEngine.Markup
