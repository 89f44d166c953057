import Mathlib.Data.List.TakeWhile
import ReportEngine.Markup.Event
import ReportEngine.Proofs.Escaping

/-! The tokens of markup. Each event is read off the front of what is left and off the innermost open
elements, so neither the text behind it nor the elements around it can change it. Only a text has to be
followed by a tag, for otherwise it would go on. -/

namespace ReportEngine.Markup

/-- The rest begins with a tag, if it is not empty. -/
def AtTag (rest : List Char) : Prop := ∀ c ∈ rest.head?, c = '<'

theorem AtTag.append {front rest other : List Char} (here : AtTag (front ++ rest)) (later : AtTag other) :
    AtTag (front ++ other) := by
  cases front with
  | nil => exact later
  | cons c front => exact here

theorem AtTag.extend {rest : List Char} (here : AtTag rest) (nonempty : rest ≠ []) (other : List Char) : AtTag (rest ++ other) := by
  obtain ⟨c, tail, rfl⟩ := List.exists_cons_of_ne_nil nonempty
  exact here

/-- A text ends at a tag. Everything else has a mark of its own at its end. -/
def Event.EndsBefore (rest : List Char) : Event → Prop
  | .text _ => AtTag rest
  | _ => True

theorem Event.EndsBefore.append {event : Event} {front rest other : List Char} (ends : event.EndsBefore (front ++ rest))
    (later : AtTag other) : event.EndsBefore (front ++ other) := by
  cases event with
  | text content => exact AtTag.append ends later
  | start | empty | finish | cdata | other => trivial

theorem Event.EndsBefore.extend {event : Event} {rest : List Char} (ends : event.EndsBefore rest) (nonempty : rest ≠ [])
    (other : List Char) : event.EndsBefore (rest ++ other) := by
  cases event with
  | text content => exact AtTag.extend ends nonempty other
  | start | empty | finish | cdata | other => trivial

/-- What an event does to the elements that are open. -/
inductive Event.Moves : Event → List (List Char) → List (List Char) → Prop where
  | start {name : List Char} {opened : List (List Char)} : Moves (.start name) opened (name :: opened)
  | empty {name : List Char} {opened : List (List Char)} : Moves (.empty name) opened opened
  | finish {name : List Char} {opened : List (List Char)} : Moves .finish (name :: opened) opened
  | text {content : List Char} {opened : List (List Char)} : Moves (.text content) opened opened
  | cdata {content : List Char} {opened : List (List Char)} : Moves (.cdata content) opened opened
  | other {opened : List (List Char)} : Moves .other opened opened

section Spans

variable {mark text before content after : List Char} {quote : Option Char} {depth : Nat}

private theorem isPrefixOf_append {front : List Char} (long : mark.length ≤ front.length) (rest : List Char) :
    mark.isPrefixOf (front ++ rest) = mark.isPrefixOf front := by
  rw [Bool.eq_iff_iff, List.isPrefixOf_iff_prefix, List.isPrefixOf_iff_prefix]
  constructor
  · intro starts
    exact List.prefix_of_prefix_length_le starts (List.prefix_append front rest) long
  · intro starts
    exact starts.trans (List.prefix_append front rest)

theorem splitAt?_eq_some (marked : mark ≠ []) (found : splitAt? mark text = some (before, after)) :
    text = before ++ (mark ++ after) ∧ ∀ other, splitAt? mark (before ++ (mark ++ other)) = some (before, other) := by
  induction text generalizing before with
  | nil => cases found
  | cons c rest ih =>
    rw [splitAt?] at found
    split at found
    next starts =>
      obtain ⟨tail, whole⟩ := List.isPrefixOf_iff_prefix.mp starts
      cases found
      rw [← whole, List.drop_left]
      refine ⟨rfl, fun other => ?_⟩
      obtain ⟨first, further, rfl⟩ := List.exists_cons_of_ne_nil marked
      have again : (first :: further).isPrefixOf (first :: (further ++ other)) = true :=
        List.isPrefixOf_iff_prefix.mpr (List.prefix_append (first :: further) other)
      rw [List.nil_append, List.cons_append, splitAt?, if_pos again, ← List.cons_append, List.drop_left]
    next differs =>
      obtain ⟨⟨inner, tail⟩, split, same⟩ := Option.map_eq_some_iff.mp found
      cases same
      obtain ⟨whole, again⟩ := ih split
      refine ⟨congrArg (c :: ·) whole, fun other => ?_⟩
      have long : mark.length ≤ (c :: (inner ++ mark)).length := by
        simp only [List.length_cons, List.length_append]
        omega
      have kept : ¬mark.isPrefixOf (c :: (inner ++ (mark ++ other))) = true := by
        rw [whole] at differs
        rw [← List.append_assoc, ← List.cons_append, isPrefixOf_append long] at differs ⊢
        exact differs
      rw [List.cons_append, splitAt?, if_neg kept, again other]
      rfl

/-- The quote that is open after one more character of a tag. -/
private def quoteAfter (quote : Option Char) (c : Char) : Option Char :=
  match quote with
  | some mark => if c = mark then none else some mark
  | none => if c = '\x27' ∨ c = '\x22' then some c else none

theorem spanTag?_cons (quote : Option Char) (c : Char) (text : List Char) :
    spanTag? quote (c :: text) =
      if quote.isNone ∧ c = '>' then some ([], text)
      else (spanTag? (quoteAfter quote c) text).map fun (content, after) => (c :: content, after) := by
  cases quote <;> rfl

theorem spanTag?_eq_some (found : spanTag? quote text = some (content, after)) :
    text = content ++ '>' :: after ∧ ∀ other, spanTag? quote (content ++ '>' :: other) = some (content, other) := by
  induction text generalizing quote content with
  | nil => cases found
  | cons c rest ih =>
    rw [spanTag?_cons] at found
    split at found
    next ends =>
      obtain ⟨bare, rfl⟩ := ends
      cases found
      refine ⟨rfl, fun other => ?_⟩
      rw [List.nil_append, spanTag?_cons, if_pos ⟨bare, rfl⟩]
    next within =>
      obtain ⟨⟨inner, tail⟩, span, same⟩ := Option.map_eq_some_iff.mp found
      cases same
      obtain ⟨whole, again⟩ := ih span
      refine ⟨congrArg (c :: ·) whole, fun other => ?_⟩
      rw [List.cons_append, spanTag?_cons, if_neg within, again other]
      rfl

theorem spanBalanced?_eq_some (found : spanBalanced? depth text = some (content, after)) :
    text = content ++ '>' :: after ∧
      ∀ other, spanBalanced? depth (content ++ '>' :: other) = some (content, other) := by
  induction text generalizing depth content with
  | nil => cases found
  | cons c rest ih =>
    unfold spanBalanced? at found
    split at found
    next ends =>
      obtain ⟨rfl, balanced⟩ := ends
      cases found
      refine ⟨rfl, fun other => ?_⟩
      unfold spanBalanced?
      exact if_pos ⟨rfl, balanced⟩
    next within =>
      obtain ⟨⟨inner, tail⟩, span, same⟩ := Option.map_eq_some_iff.mp found
      cases same
      obtain ⟨whole, again⟩ := ih span
      refine ⟨congrArg (c :: ·) whole, fun other => ?_⟩
      unfold spanBalanced?
      exact (if_neg within).trans (congrArg (Option.map _) (again other))

theorem dropWord?_eq_some {word rest : List Char} (found : dropWord? word text = some rest) :
    ∃ front, text = front ++ rest ∧ Text.eqIgnoringCase front word = true ∧
      ∀ other, dropWord? word (front ++ other) = some other := by
  unfold dropWord? at found
  split at found
  next same =>
    cases found
    have length : (text.take word.length).length = word.length := by
      simpa only [List.length_map] using congrArg List.length (eq_of_beq same)
    refine ⟨text.take word.length, (List.take_append_drop _ _).symm, same, fun other => ?_⟩
    unfold dropWord?
    rw [List.take_left' length, List.drop_left' length, if_pos same]
  next => cases found

end Spans

section Locality

variable {opened outer : List (List Char)} {text rest : List Char} {event : Event}

/-- What a step answers to a piece of markup, whatever comes after it and around it. -/
private structure Local (take : List (List Char) → List Char → Step) (opened outer : List (List Char)) (event : Event)
    (token : List Char) : Prop where
  moves : event.Moves opened outer
  marked : ∀ rest, event.EndsBefore rest
  again : ∀ below other, take (opened ++ below) (token ++ other) = .next event (outer ++ below) other

/-- Past the marks of comments and literal text, only a document type is left. -/
private theorem declaration_doctype {c : Char} (word : Text.eqIgnoringCase (c :: text) "DOCTYPE".toList = true) :
    declaration opened (c :: (text ++ rest)) =
      match (dropWord? "DOCTYPE".toList (c :: (text ++ rest))).bind (spanBalanced? 0) with
      | some (content, after) => if content.all isTagBlank then .malformed else .next .other opened after
      | none => .malformed := by
  have lower : c.toLower = 'd' := (List.cons.inj (eq_of_beq word)).1
  have notComment : c ≠ '-' := by
    rintro rfl
    cases lower
  have notLiteral : c ≠ '[' := by
    rintro rfl
    cases lower
  unfold declaration
  split
  next same => exact absurd (List.cons.inj same).1 notComment
  next same => exact absurd (List.cons.inj same).1 notLiteral
  next => rfl

private theorem declaration_local (reached : declaration opened text = .next event outer rest) :
    ∃ token, text = token ++ rest ∧ Local declaration opened outer event token := by
  unfold declaration at reached
  split at reached
  next body =>
    cases found : splitAt? "-->".toList body with
    | none => rw [found] at reached; cases reached
    | some halves =>
      obtain ⟨whole, again⟩ := splitAt?_eq_some (by decide) found
      rw [found] at reached
      cases reached
      refine ⟨'-' :: '-' :: (halves.1 ++ "-->".toList), ?_, .other, fun _ => trivial, ?_⟩
      · simp only [List.cons_append, List.append_assoc, ← whole]
      · intro below other
        simp only [List.cons_append, List.append_assoc, declaration, again other, skipTo]
  next body =>
    split at reached
    next content after found =>
      obtain ⟨whole, again⟩ := splitAt?_eq_some (by decide) found
      cases reached
      refine ⟨'[' :: 'C' :: 'D' :: 'A' :: 'T' :: 'A' :: '[' :: (content ++ "]]>".toList), ?_, .cdata, fun _ => trivial, ?_⟩
      · simp only [List.cons_append, List.append_assoc, ← whole]
      · intro below other
        simp only [List.cons_append, List.append_assoc, declaration, again other]
    next => cases reached
  next =>
    split at reached
    next content after found =>
      obtain ⟨body, dropped, span⟩ := Option.bind_eq_some_iff.mp found
      obtain ⟨front, rfl, word, dropAgain⟩ := dropWord?_eq_some dropped
      obtain ⟨rfl, spanAgain⟩ := spanBalanced?_eq_some span
      split at reached
      next => cases reached
      next named =>
        cases reached
        refine ⟨front ++ (content ++ ['>']), by simp, .other, fun _ => trivial, ?_⟩
        intro below other
        cases front with
        | nil => cases word
        | cons c letters =>
          have again := dropAgain (content ++ '>' :: other)
          rw [List.cons_append] at again
          rw [List.append_assoc, List.append_assoc, List.singleton_append, List.cons_append,
            declaration_doctype word, again, Option.bind_some, spanAgain]
          exact if_neg named
    next => cases reached

private theorem instruction_local (reached : instruction opened text = .next event outer rest) :
    ∃ token, text = token ++ rest ∧ Local instruction opened outer event token := by
  unfold instruction at reached
  split at reached
  next => cases reached
  next named =>
    cases found : splitAt? "?>".toList text with
    | none => rw [found] at reached; cases reached
    | some halves =>
      obtain ⟨rfl, again⟩ := splitAt?_eq_some (by decide) found
      rw [found] at reached
      cases reached
      refine ⟨halves.1 ++ "?>".toList, (List.append_assoc ..).symm, .other, fun _ => trivial, ?_⟩
      intro below other
      rw [List.append_assoc]
      unfold instruction
      split
      next tail same =>
        cases shape : halves.1 with
        | nil => rw [shape] at same; cases same
        | cons c front =>
          rw [shape, List.cons_append] at same named
          cases same
          exact absurd rfl (named _)
      next => rw [again other]; rfl

private theorem endTag_local (reached : endTag opened text = .next event outer rest) :
    ∃ token, text = token ++ rest ∧ Local endTag opened outer event token := by
  unfold endTag at reached
  split at reached
  next content after name inner found =>
    obtain ⟨rfl, again⟩ := spanTag?_eq_some found
    split at reached
    next same =>
      cases reached
      refine ⟨content ++ ['>'], by simp, .finish, fun _ => trivial, ?_⟩
      intro below other
      have spanned : spanTag? none (content ++ ['>'] ++ other) = some (content, other) := by
        rw [List.append_assoc]
        exact again other
      rw [List.cons_append]
      unfold endTag
      rw [spanned]
      exact if_pos same
    next => cases reached
  next => cases reached

private theorem startTag_local (reached : startTag opened text = .next event outer rest) :
    ∃ c token, text = c :: token ++ rest ∧ Local startTag opened outer event (c :: token) := by
  unfold startTag at reached
  split at reached
  next => cases reached
  next content after found =>
    obtain ⟨rfl, again⟩ := spanTag?_eq_some found
    have same : after = rest := by
      split at reached
      all_goals
        cases reached
        rfl
    subst same
    have taken : Local startTag opened outer event (content ++ ['>']) := by
      split at reached
      next closed =>
        cases reached
        refine ⟨.empty, fun _ => trivial, fun below other => ?_⟩
        rw [List.append_assoc, List.singleton_append, startTag, again other]
        exact if_pos closed
      next wide =>
        cases reached
        refine ⟨.start, fun _ => trivial, fun below other => ?_⟩
        rw [List.append_assoc, List.singleton_append, startTag, again other]
        exact if_neg wide
    cases content with
    | nil => exact ⟨'>', [], rfl, taken⟩
    | cons c front => exact ⟨c, front ++ ['>'], by simp, taken⟩

/-- What begins with no other mark is the tag of an element that begins. -/
theorem markup_eq_startTag {c : Char} (notDeclaration : c ≠ '!') (notInstruction : c ≠ '?') (notEnd : c ≠ '/') :
    markup opened (c :: text) = startTag opened (c :: text) := by
  unfold markup
  split
  next same => cases same
  next same => exact absurd (List.cons.inj same).1 notDeclaration
  next same => exact absurd (List.cons.inj same).1 notInstruction
  next same => exact absurd (List.cons.inj same).1 notEnd
  next => rfl

private theorem markup_local (reached : markup opened text = .next event outer rest) :
    ∃ token, text = token ++ rest ∧ Local markup opened outer event token := by
  unfold markup at reached
  split at reached
  next => cases reached
  next body =>
    obtain ⟨token, rfl, taken⟩ := declaration_local reached
    exact ⟨'!' :: token, rfl, taken.moves, taken.marked, taken.again⟩
  next body =>
    obtain ⟨token, rfl, taken⟩ := instruction_local reached
    exact ⟨'?' :: token, rfl, taken.moves, taken.marked, taken.again⟩
  next body =>
    obtain ⟨token, rfl, taken⟩ := endTag_local reached
    exact ⟨'/' :: token, rfl, taken.moves, taken.marked, taken.again⟩
  next notDeclaration notInstruction notEnd =>
    obtain ⟨c, token, rfl, taken⟩ := startTag_local reached
    refine ⟨c :: token, rfl, taken.moves, taken.marked, ?_⟩
    intro below other
    rw [List.cons_append, markup_eq_startTag]
    · exact taken.again below other
    · rintro rfl
      exact notDeclaration _ rfl
    · rintro rfl
      exact notInstruction _ rfl
    · rintro rfl
      exact notEnd _ rfl

private theorem spans_text {written : List Char} (free : '<' ∉ written) (ends : AtTag rest) :
    (written ++ rest).takeWhile (· != '<') = written ∧ (written ++ rest).dropWhile (· != '<') = rest := by
  have plain : ∀ c ∈ written, (c != '<') = true := by
    intro c member
    apply bne_iff_ne.mpr
    rintro rfl
    exact free member
  have stops : rest.takeWhile (· != '<') = [] ∧ rest.dropWhile (· != '<') = rest := by
    cases rest with
    | nil => exact ⟨rfl, rfl⟩
    | cons c rest =>
      cases ends c rfl
      exact ⟨rfl, rfl⟩
  rw [List.takeWhile_append_of_pos plain, List.dropWhile_append_of_pos plain, stops.1, stops.2, List.append_nil]
  exact ⟨rfl, rfl⟩

def textStep (opened : List (List Char)) (rest : List Char) : Option (List Char) → Step
  | some content => .next (.text content) opened rest
  | none => .malformed

theorem step_text {written : List Char} (nonempty : written ≠ []) (free : '<' ∉ written) (ends : AtTag rest) :
    step opened (written ++ rest) = textStep opened rest (unescape? written) := by
  obtain ⟨taken, left⟩ := spans_text free ends
  obtain ⟨c, front, rfl⟩ := List.exists_cons_of_ne_nil nonempty
  unfold step
  split
  next same => cases same
  next same =>
    cases same
    exact absurd List.mem_cons_self free
  next =>
    rw [taken, left]
    cases unescape? (c :: front) with
    | none => rfl
    | some content => rfl

theorem step_of_text {written content : List Char} (nonempty : written ≠ []) (free : '<' ∉ written)
    (meaning : unescape? written = some content) (ends : AtTag rest) :
    step opened (written ++ rest) = .next (.text content) opened rest := by
  rw [step_text nonempty free ends, meaning, textStep]

/-- A step that does not fail at a text has read it. -/
theorem textStep_eq_next {found : Option (List Char)} {left : List Char} (reached : textStep opened left found = .next event outer rest) :
    ∃ content, found = some content ∧ event = .text content ∧ outer = opened ∧ rest = left := by
  cases found with
  | none => cases reached
  | some content =>
    cases reached
    exact ⟨content, rfl, rfl, rfl, rfl⟩

theorem exists_text (bare : ¬AtTag text) :
    ∃ written rest, text = written ++ rest ∧ written ≠ [] ∧ '<' ∉ written ∧ AtTag rest := by
  refine ⟨text.takeWhile (· != '<'), text.dropWhile (· != '<'), List.takeWhile_append_dropWhile.symm, ?_, ?_, ?_⟩
  · cases text with
    | nil => exact absurd nofun bare
    | cons c tail =>
      have other : (c != '<') = true := by
        refine bne_iff_ne.mpr ?_
        rintro rfl
        exact bare (by rintro c ⟨⟩; rfl)
      rw [List.takeWhile_cons, if_pos other]
      nofun
  · intro member
    have passed := List.all_takeWhile (p := (· != '<')) (l := text)
    exact absurd (List.all_eq_true.mp passed _ member) (by decide)
  · intro c first
    have stopped := List.head?_dropWhile_not (· != '<') text
    rw [Option.mem_def.mp first] at stopped
    simpa using stopped

theorem atTag_of_step (reached : step opened text = .next event outer rest) (markup : ∀ content, event ≠ .text content) :
    AtTag text := by
  by_contra bare
  obtain ⟨written, left, rfl, nonempty, free, ends⟩ := exists_text bare
  rw [step_text nonempty free ends] at reached
  obtain ⟨content, _, same, _⟩ := textStep_eq_next reached
  exact markup content same

theorem text_of_step {content : List Char} (reached : step opened text = .next (.text content) outer rest) :
    ∃ written, text = written ++ rest ∧ written ≠ [] ∧ '<' ∉ written ∧ unescape? written = some content ∧
      outer = opened ∧ AtTag rest := by
  by_cases tag : AtTag text
  · cases text with
    | nil => cases reached
    | cons c tail =>
      cases tag c rfl
      obtain ⟨_, _, taken⟩ := markup_local reached
      exact absurd (taken.marked ['>'] '>' rfl) (by decide)
  · obtain ⟨written, left, rfl, nonempty, free, ends⟩ := exists_text tag
    rw [step_text nonempty free ends] at reached
    obtain ⟨_, meaning, same, rfl, rfl⟩ := textStep_eq_next reached
    cases same
    exact ⟨written, rfl, nonempty, free, meaning, rfl, ends⟩

/-- A step takes a token off the text, and would do so before any other text and inside any more
elements. -/
theorem step_eq_next (reached : step opened text = .next event outer rest) :
    event.Moves opened outer ∧ event.EndsBefore rest ∧ ∃ token, text = token ++ rest ∧
      ∀ below other, event.EndsBefore other → step (opened ++ below) (token ++ other) = .next event (outer ++ below) other := by
  by_cases tag : AtTag text
  · cases text with
    | nil => cases reached
    | cons c body =>
      cases tag c rfl
      obtain ⟨token, rfl, taken⟩ := markup_local reached
      exact ⟨taken.moves, taken.marked rest, '<' :: token, rfl, fun below other _ => taken.again below other⟩
  · obtain ⟨written, left, rfl, nonempty, free, ends⟩ := exists_text tag
    rw [step_text nonempty free ends] at reached
    obtain ⟨_, meaning, rfl, rfl, rfl⟩ := textStep_eq_next reached
    refine ⟨.text, ends, written, rfl, ?_⟩
    intro below other endsAgain
    exact step_of_text nonempty free meaning endsAgain

end Locality

section Written

variable {opened final : List (List Char)} {name rest left : List Char} {events : List Event}

private theorem spanTag?_of_plain {content : List Char}
    (plain : ∀ c ∈ content, c ≠ '>' ∧ c ≠ '\x27' ∧ c ≠ '\x22') (rest : List Char) :
    spanTag? none (content ++ '>' :: rest) = some (content, rest) := by
  induction content with
  | nil => rfl
  | cons c content ih =>
    obtain ⟨⟨notEnd, notSingle, notDouble⟩, further⟩ := List.forall_mem_cons.mp plain
    have unquoted : quoteAfter none c = none := if_neg (not_or.mpr ⟨notSingle, notDouble⟩)
    rw [List.cons_append, spanTag?_cons, if_neg (fun ends => notEnd ends.2), unquoted, ih further]
    rfl

/-- A name that needs no care in a tag: one or more letters. -/
structure IsPlain (name : List Char) : Prop where
  nonempty : name ≠ []
  letters : ∀ c ∈ name, c.isAlpha = true

namespace IsPlain

theorem of_all (nonempty : name.isEmpty = false) (letters : name.all Char.isAlpha = true) : IsPlain name where
  nonempty := List.isEmpty_eq_false_iff.mp nonempty
  letters := List.all_eq_true.mp letters

theorem ne (plain : IsPlain name) {mark : Char} (other : mark.isAlpha = false) : ∀ c ∈ name, c ≠ mark := by
  rintro c member rfl
  exact Bool.false_ne_true (other.symm.trans (plain.letters c member))

private theorem spanTag?_eq (plain : IsPlain name) (rest : List Char) :
    spanTag? none (name ++ '>' :: rest) = some (name, rest) :=
  spanTag?_of_plain (fun c member => ⟨plain.ne rfl c member, plain.ne rfl c member, plain.ne rfl c member⟩) rest

private theorem not_isTagBlank (plain : IsPlain name) : ∀ c ∈ name, (!isTagBlank c) = true := by
  intro c member
  have letter := plain.letters c member
  simp only [isTagBlank, Bool.not_eq_true', Bool.or_eq_false_iff, beq_eq_false_iff_ne]
  refine ⟨⟨⟨?_, ?_⟩, ?_⟩, ?_⟩
  all_goals
    rintro rfl
    cases letter

theorem step_start (plain : IsPlain name) :
    step opened ('<' :: (name ++ '>' :: rest)) = .next (.start name) (name :: opened) rest := by
  obtain ⟨c, letters, rfl⟩ := List.exists_cons_of_ne_nil plain.nonempty
  have first : c ∈ c :: letters := List.mem_cons_self
  have unclosed : (c :: letters).getLast? ≠ some '/' :=
    fun last => plain.ne rfl _ (List.mem_of_getLast? last) rfl
  have whole : (c :: letters).takeWhile (!isTagBlank ·) = c :: letters := List.takeWhile_eq_self_iff.mpr plain.not_isTagBlank
  change markup opened (c :: (letters ++ '>' :: rest)) = _
  rw [markup_eq_startTag (plain.ne rfl c first) (plain.ne rfl c first) (plain.ne rfl c first), ← List.cons_append, startTag,
    plain.spanTag?_eq]
  simp only [if_neg unclosed, whole]

theorem step_finish (plain : IsPlain name) :
    step (name :: opened) ('<' :: '/' :: (name ++ '>' :: rest)) = .next .finish opened rest := by
  have trimmed : endName name = name := by
    unfold endName
    split
    next => rfl
    next =>
      have kept : name.reverse.dropWhile isTagBlank = name.reverse := by
        refine List.dropWhile_eq_self_iff.mpr fun positive => ?_
        have last := plain.not_isTagBlank _ (List.mem_reverse.mp (List.getElem_mem positive))
        simpa using last
      rw [kept, List.reverse_reverse]
  change endTag (name :: opened) (name ++ '>' :: rest) = _
  unfold endTag
  rw [plain.spanTag?_eq]
  exact if_pos trimmed

end IsPlain

end Written

end ReportEngine.Markup
