import ReportEngine.Markup.Entity
import ReportEngine.Text.Blank

/-! Markup read as a sequence of tags and texts. Tags must nest, but beyond that little is validated:
names may be empty, and attributes are skipped unread. -/

namespace ReportEngine.Markup

inductive Event where
  | start (name : List Char)
  | empty (name : List Char)
  | finish
  | text (content : List Char)
  | cdata (content : List Char)
  | other
deriving DecidableEq

/-- What follows the first colon of a name. -/
def localName (name : List Char) : List Char :=
  if name.contains ':' then (name.dropWhile (· != ':')).drop 1 else name

/-- Separates names from what follows them in a tag. -/
def isTagBlank (c : Char) : Bool := c == ' ' || c == '\t' || c == '\r' || c == '\n'

/-- Splits a text at the first place where `mark` stands, leaving it out. -/
def splitAt? (mark : List Char) : List Char → Option (List Char × List Char)
  | [] => none
  | c :: rest =>
    if mark.isPrefixOf (c :: rest) then some ([], (c :: rest).drop mark.length)
    else (splitAt? mark rest).map fun (before, after) => (c :: before, after)

/-- Splits a tag off at the first `>` that is not quoted. -/
def spanTag? (quote : Option Char) : List Char → Option (List Char × List Char)
  | [] => none
  | c :: rest =>
    let next :=
      match quote with
      | some mark => if c = mark then none else some mark
      | none => if c = '\x27' ∨ c = '\x22' then some c else none
    if quote.isNone ∧ c = '>' then some ([], rest)
    else (spanTag? next rest).map fun (content, after) => (c :: content, after)

/-- Splits a declaration off at the `>` that balances it, given the number of `<` open inside it. -/
def spanBalanced? (depth : Nat) : List Char → Option (List Char × List Char)
  | [] => none
  | c :: rest =>
    if c = '>' ∧ depth = 0 then some ([], rest)
    else
      let next := if c = '<' then depth + 1 else if c = '>' then depth - 1 else depth
      (spanBalanced? next rest).map fun (content, after) => (c :: content, after)

/-- Removes a word in any case from the front of a text. -/
def dropWord? (word text : List Char) : Option (List Char) :=
  if Text.eqIgnoringCase (text.take word.length) word then some (text.drop word.length) else none

/-- What comes next in a text: its end, an error, or an event and the text after it, with the names
of the elements that are then open, innermost first. -/
inductive Step where
  | done
  | malformed
  | next (event : Event) (opened : List (List Char)) (rest : List Char)

def skipTo (opened : List (List Char)) : Option (List Char × List Char) → Step
  | some (_, rest) => .next .other opened rest
  | none => .malformed

/-- Reads on after `<!`. The word of a document type may be in any case, that of literal text may not. -/
def declaration (opened : List (List Char)) (text : List Char) : Step :=
  match text with
  | '-' :: '-' :: body => skipTo opened (splitAt? "-->".toList body)
  | '[' :: 'C' :: 'D' :: 'A' :: 'T' :: 'A' :: '[' :: body =>
    match splitAt? "]]>".toList body with
    | some (content, rest) => .next (.cdata content) opened rest
    | none => .malformed
  | _ =>
    match (dropWord? "DOCTYPE".toList text).bind (spanBalanced? 0) with
    | some (content, rest) => if content.all isTagBlank then .malformed else .next .other opened rest
    | none => .malformed

def instruction (opened : List (List Char)) (text : List Char) : Step :=
  match text with
  | '>' :: _ => .malformed
  | _ => skipTo opened (splitAt? "?>".toList text)

/-- The name in an end tag. Blanks after it are dropped. -/
def endName (content : List Char) : List Char :=
  if content.all isTagBlank then content else (content.reverse.dropWhile isTagBlank).reverse

def endTag (opened : List (List Char)) (text : List Char) : Step :=
  match spanTag? none text, opened with
  | some (content, rest), name :: outer =>
    if endName content = name then .next .finish outer rest else .malformed
  | _, _ => .malformed

/-- Reads on after the `<` of a tag that opens an element, or that is all of one. -/
def startTag (opened : List (List Char)) (text : List Char) : Step :=
  match spanTag? none text with
  | none => .malformed
  | some (content, rest) =>
    let name := fun (content : List Char) => content.takeWhile (!isTagBlank ·)
    if content.getLast? = some '/' then .next (.empty (name content.dropLast)) opened rest
    else .next (.start (name content)) (name content :: opened) rest

def markup (opened : List (List Char)) (text : List Char) : Step :=
  match text with
  | [] => .malformed
  | '!' :: rest => declaration opened rest
  | '?' :: rest => instruction opened rest
  | '/' :: rest => endTag opened rest
  | text => startTag opened text

def step (opened : List (List Char)) (text : List Char) : Step :=
  match text with
  | [] => .done
  | '<' :: rest => markup opened rest
  | text =>
    match unescape? (text.takeWhile (· != '<')) with
    | some content => .next (.text content) opened (text.dropWhile (· != '<'))
    | none => .malformed

theorem length_of_splitAt? {mark text before after : List Char} (found : splitAt? mark text = some (before, after)) :
    after.length ≤ text.length := by
  induction text generalizing before with
  | nil => simp [splitAt?] at found
  | cons c rest ih =>
    simp only [splitAt?] at found
    split at found
    · simp only [Option.some.injEq, Prod.mk.injEq] at found
      rw [← found.2]
      exact List.length_drop ▸ Nat.sub_le _ _
    · obtain ⟨⟨inner, tail⟩, split, same⟩ := Option.map_eq_some_iff.mp found
      obtain ⟨_, rfl⟩ := Prod.mk.injEq .. ▸ same
      exact Nat.le_succ_of_le (ih split)

theorem length_of_spanTag? {quote : Option Char} {text content after : List Char}
    (found : spanTag? quote text = some (content, after)) : after.length < text.length := by
  induction text generalizing quote content with
  | nil => simp [spanTag?] at found
  | cons c rest ih =>
    simp only [spanTag?] at found
    split at found
    · simp only [Option.some.injEq, Prod.mk.injEq] at found
      rw [← found.2]
      exact Nat.lt_succ_self _
    · obtain ⟨⟨inner, tail⟩, span, same⟩ := Option.map_eq_some_iff.mp found
      obtain ⟨_, rfl⟩ := Prod.mk.injEq .. ▸ same
      exact Nat.lt_succ_of_lt (ih span)

theorem length_of_spanBalanced? {depth : Nat} {text content after : List Char}
    (found : spanBalanced? depth text = some (content, after)) : after.length < text.length := by
  induction text generalizing depth content with
  | nil => simp [spanBalanced?] at found
  | cons c rest ih =>
    simp only [spanBalanced?] at found
    split at found
    · simp only [Option.some.injEq, Prod.mk.injEq] at found
      rw [← found.2]
      exact Nat.lt_succ_self _
    · obtain ⟨⟨inner, tail⟩, span, same⟩ := Option.map_eq_some_iff.mp found
      obtain ⟨_, rfl⟩ := Prod.mk.injEq .. ▸ same
      exact Nat.lt_succ_of_lt (ih span)

private theorem length_of_dropWord? {word text rest : List Char} (found : dropWord? word text = some rest) :
    rest.length ≤ text.length := by
  simp only [dropWord?] at found
  split at found
  · cases found
    exact List.length_drop ▸ Nat.sub_le _ _
  · cases found

private theorem length_of_skipTo {opened outer : List (List Char)} {event : Event} {rest : List Char}
    {found : Option (List Char × List Char)} (reached : skipTo opened found = .next event outer rest) :
    ∃ before, found = some (before, rest) := by
  match found with
  | none => simp [skipTo] at reached
  | some (before, after) =>
    simp only [skipTo, Step.next.injEq] at reached
    exact ⟨before, by rw [reached.2.2]⟩

private theorem length_of_declaration {opened outer : List (List Char)} {event : Event}
    {text rest : List Char} (reached : declaration opened text = .next event outer rest) :
    rest.length ≤ text.length := by
  unfold declaration at reached
  split at reached
  next body =>
    obtain ⟨before, found⟩ := length_of_skipTo reached
    have shorter := length_of_splitAt? found
    simp only [List.length_cons]
    omega
  next body =>
    split at reached
    next content after found =>
      simp only [Step.next.injEq] at reached
      have shorter := length_of_splitAt? found
      rw [← reached.2.2]
      simp only [List.length_cons]
      omega
    next => cases reached
  next =>
    split at reached
    next content after found =>
      obtain ⟨body, dropped, span⟩ := Option.bind_eq_some_iff.mp found
      have first := length_of_dropWord? dropped
      have second := length_of_spanBalanced? span
      split at reached
      · cases reached
      · simp only [Step.next.injEq] at reached
        rw [← reached.2.2]
        omega
    next => cases reached

private theorem length_of_markup {opened outer : List (List Char)} {event : Event}
    {text rest : List Char} (reached : markup opened text = .next event outer rest) :
    rest.length ≤ text.length := by
  unfold markup at reached
  split at reached
  · cases reached
  · exact Nat.le_succ_of_le (length_of_declaration reached)
  next body =>
    unfold instruction at reached
    split at reached
    · cases reached
    · obtain ⟨before, found⟩ := length_of_skipTo reached
      exact Nat.le_succ_of_le (length_of_splitAt? found)
  next body =>
    unfold endTag at reached
    split at reached
    next content after name inner found =>
      have shorter := length_of_spanTag? found
      split at reached
      · simp only [Step.next.injEq] at reached
        rw [← reached.2.2]
        simp only [List.length_cons]
        omega
      · cases reached
    next => cases reached
  next =>
    unfold startTag at reached
    split at reached
    next => cases reached
    next content after found =>
      have shorter := length_of_spanTag? found
      split at reached <;>
      · simp only [Step.next.injEq] at reached
        rw [← reached.2.2]
        omega

/-- Every event takes some of the text. -/
theorem length_of_step {opened outer : List (List Char)} {event : Event} {text rest : List Char}
    (reached : step opened text = .next event outer rest) : rest.length < text.length := by
  cases text with
  | nil => cases reached
  | cons c tail =>
    unfold step at reached
    split at reached
    next empty => cases empty
    next same =>
      cases same
      exact Nat.lt_succ_of_le (length_of_markup reached)
    next nonempty other =>
      split at reached
      next =>
        simp only [Step.next.injEq] at reached
        have differs : (c != '<') = true := by
          simp only [bne_iff_ne, ne_eq]
          intro same
          exact other tail (by rw [same])
        rw [← reached.2.2, List.dropWhile_cons, if_pos differs]
        exact Nat.lt_succ_of_le (List.dropWhile_suffix _).length_le
      next => cases reached

/-- The events of a text, up to its end or the first place where it is malformed. -/
structure Reading where
  events : List Event
  complete : Bool

/-- Reads the events of a text inside the given open elements. -/
def readFrom (opened : List (List Char)) (text : List Char) : Reading :=
  match _reached : step opened text with
  | .done => ⟨[], true⟩
  | .malformed => ⟨[], false⟩
  | .next event outer rest =>
    let reading := readFrom outer rest
    ⟨event :: reading.events, reading.complete⟩
termination_by text.length
decreasing_by exact length_of_step ‹_›

/-- Reads the events of a document. One byte order mark may stand in front of it. -/
def read (text : List Char) : Reading :=
  match text with
  | '\uFEFF' :: rest => readFrom [] rest
  | _ => readFrom [] text

end ReportEngine.Markup
