import ReportEngine.Proofs.MarkupTokens

/-! How far the reader has got. What it reads is the same before any other text and inside more elements,
so an element can be put in anywhere between two tokens, and is read as the element it is. However far it gets,
the tags it has read nest. -/

namespace ReportEngine.Markup

/-- From inside some open elements the reader takes events off a text, and is then inside others with
the rest of the text to come. -/
inductive Reads : List (List Char) → List Char → List Event → List (List Char) → List Char → Prop where
  | stop {opened : List (List Char)} {text : List Char} : Reads opened text [] opened text
  | next {opened inner final : List (List Char)} {text rest left : List Char} {event : Event} {events : List Event}
      (taken : step opened text = .next event inner rest) (later : Reads inner rest events final left) :
      Reads opened text (event :: events) final left

theorem readFrom_of_next {opened inner : List (List Char)} {text rest : List Char} {event : Event}
    (taken : step opened text = .next event inner rest) :
    readFrom opened text = ⟨event :: (readFrom inner rest).events, (readFrom inner rest).complete⟩ := by
  rw [readFrom]
  split
  next ended => cases taken.symm.trans ended
  next broken => cases taken.symm.trans broken
  next reached =>
    cases taken.symm.trans reached
    rfl

theorem readFrom_of_malformed {opened : List (List Char)} {text : List Char} (broken : step opened text = .malformed) :
    readFrom opened text = ⟨[], false⟩ := by
  rw [readFrom]
  split
  next ended => cases broken.symm.trans ended
  next => rfl
  next reached => cases broken.symm.trans reached

namespace Reads

variable {opened inner final : List (List Char)} {text rest left : List Char} {before after : List Event}

theorem trans (first : Reads opened text before inner rest) (second : Reads inner rest after final left) :
    Reads opened text (before ++ after) final left := by
  induction first with
  | stop => exact second
  | next taken _ ih => exact .next taken (ih second)

theorem readFrom_eq (reads : Reads opened text before final left) :
    readFrom opened text = ⟨before ++ (readFrom final left).events, (readFrom final left).complete⟩ := by
  induction reads with
  | stop => rfl
  | next taken _ ih =>
    rw [readFrom_of_next taken, ih]
    rfl

end Reads

theorem Reads.local {opened final : List (List Char)} {text left : List Char} {events : List Event}
    (reads : Reads opened text events final left) :
    ∃ read, text = read ++ left ∧
      ∀ below other, AtTag other → Reads (opened ++ below) (read ++ other) events (final ++ below) other := by
  induction reads with
  | stop => exact ⟨[], rfl, fun _ _ _ => .stop⟩
  | next taken _ ih =>
    obtain ⟨_, ends, token, rfl, again⟩ := step_eq_next taken
    obtain ⟨read, rfl, later⟩ := ih
    refine ⟨token ++ read, (List.append_assoc ..).symm, fun below other atTag => ?_⟩
    rw [List.append_assoc]
    exact .next (again below _ (ends.append atTag)) (later below other atTag)

/-- The events of a text that is cut in two. A text may be cut in its middle. -/
inductive Joined : List Event → List Event → List Event → Prop where
  | apart {before after : List Event} : Joined before after (before ++ after)
  | within {before after : List Event} {content more : List Char} :
      Joined (before ++ [.text content]) (.text more :: after) (before ++ .text (content ++ more) :: after)

theorem Joined.cons {before after whole : List Event} (event : Event) (joined : Joined before after whole) :
    Joined (event :: before) after (event :: whole) := by
  cases joined with
  | apart => exact .apart
  | @within before after content more => exact @Joined.within (event :: before) after content more

/-- A text at the end of the first part goes on in the second. -/
private theorem joined_text {opened inner : List (List Char)} {front back content : List Char}
    (taken : step opened front = .next (.text content) inner []) (goesOn : ¬AtTag back)
    (complete : (readFrom opened (front ++ back)).complete = true) :
    (readFrom inner back).complete = true ∧
      Joined [.text content] (readFrom inner back).events (readFrom opened (front ++ back)).events := by
  obtain ⟨written, rfl, nonempty, free, meaning, rfl, _⟩ := text_of_step taken
  obtain ⟨more, rest, rfl, moreNonempty, moreFree, ends⟩ := exists_text goesOn
  have wholeFree : '<' ∉ written ++ more := by
    intro member
    rcases List.mem_append.mp member with inFront | inBack
    · exact free inFront
    · exact moreFree inBack
  have wholeMeaning := unescapeFrom_append more meaning
  have wholeNonempty : written ++ more ≠ [] := List.append_ne_nil_of_left_ne_nil nonempty more
  have taken : step inner (written ++ more ++ rest) = _ := step_text wholeNonempty wholeFree ends
  rw [unescape?, wholeMeaning] at taken
  rw [List.append_nil, ← List.append_assoc] at complete ⊢
  cases unescaped : unescape? more with
  | none =>
    rw [unescaped] at taken
    rw [readFrom_of_malformed taken] at complete
    cases complete
  | some goes =>
    rw [unescaped] at taken
    rw [readFrom_of_next taken] at complete ⊢
    rw [readFrom_of_next (step_of_text moreNonempty moreFree unescaped ends)]
    exact ⟨complete, @Joined.within [] _ _ _⟩

theorem Reads.joined {opened inner : List (List Char)} {front back : List Char} {before : List Event}
    (reads : Reads opened front before inner []) (complete : (readFrom opened (front ++ back)).complete = true) :
    (readFrom inner back).complete = true ∧
      Joined before (readFrom inner back).events (readFrom opened (front ++ back)).events := by
  generalize ended : ([] : List Char) = left at reads
  induction reads with
  | stop =>
    subst ended
    exact ⟨complete, .apart⟩
  | @next opened mid final text rest left event events taken later ih =>
    subst ended
    obtain ⟨_, ends, token, rfl, again⟩ := step_eq_next taken
    have further (ends : event.EndsBefore (rest ++ back)) :
        readFrom opened (token ++ rest ++ back) = ⟨event :: (readFrom mid (rest ++ back)).events, (readFrom mid (rest ++ back)).complete⟩ := by
      have here := again [] (rest ++ back) ends
      rw [List.append_nil, List.append_nil, ← List.append_assoc] at here
      exact readFrom_of_next here
    by_cases last : rest = []
    · subst last
      cases later with
      | next taken _ => cases taken
      | stop =>
        by_cases apart : event.EndsBefore back
        · rw [further apart] at complete ⊢
          exact ⟨complete, @Joined.apart [event] _⟩
        · cases event with
          | text content => exact joined_text taken apart complete
          | start | empty | finish | cdata | other => exact absurd trivial apart
    · rw [further (ends.extend last back)] at complete ⊢
      obtain ⟨completeBack, joined⟩ := ih complete rfl
      exact ⟨completeBack, joined.cons event⟩

/-- A chain of events, by what they do to the elements that are open. -/
inductive Walk : List (List Char) → List Event → List (List Char) → Prop where
  | stop {opened : List (List Char)} : Walk opened [] opened
  | next {opened inner final : List (List Char)} {event : Event} {events : List Event}
      (moves : event.Moves opened inner) (later : Walk inner events final) : Walk opened (event :: events) final

theorem Reads.walk {opened final : List (List Char)} {text left : List Char} {events : List Event}
    (reads : Reads opened text events final left) : Walk opened events final := by
  induction reads with
  | stop => exact .stop
  | next taken _ ih => exact .next (step_eq_next taken).1 ih

/-- However far a text can be read, its tags nest. -/
theorem exists_walk (opened : List (List Char)) (text : List Char) : ∃ final, Walk opened (readFrom opened text).events final := by
  fun_induction readFrom opened text with
  | case1 opened | case2 opened => exact ⟨opened, .stop⟩
  | case3 opened text event inner rest taken reading ih =>
    obtain ⟨final, walk⟩ := ih
    exact ⟨final, .next (step_eq_next taken).1 walk⟩

/-- An event ends the outermost element, or is one inside it. -/
theorem Event.Moves.within {event : Event} {opened inner : List (List Char)} {name : List Char}
    (moves : event.Moves (opened ++ [name]) inner) :
    (event = .finish ∧ opened = [] ∧ inner = []) ∨ ∃ left, inner = left ++ [name] ∧ event.Moves opened left := by
  generalize around : opened ++ [name] = names at moves
  cases moves with
  | start =>
    subst around
    exact .inr ⟨_ :: opened, rfl, .start⟩
  | finish =>
    cases opened with
    | nil =>
      cases around
      exact .inl ⟨rfl, rfl, rfl⟩
    | cons _ opened =>
      cases around
      exact .inr ⟨opened, rfl, .finish⟩
  | empty => exact .inr ⟨opened, around.symm, .empty⟩
  | text => exact .inr ⟨opened, around.symm, .text⟩
  | cdata => exact .inr ⟨opened, around.symm, .cdata⟩
  | other => exact .inr ⟨opened, around.symm, .other⟩

/-- Where nothing is left open, the outermost element ends after all that begins in it. -/
theorem Walk.closes {opened : List (List Char)} {name : List Char} {events : List Event}
    (walk : Walk (opened ++ [name]) events []) :
    ∃ inside after, events = inside ++ .finish :: after ∧ Walk opened inside [] := by
  induction events generalizing opened with
  | nil =>
    generalize around : opened ++ [name] = names at walk
    cases walk
    exact absurd around (List.append_ne_nil_of_right_ne_nil _ (List.cons_ne_nil _ _))
  | cons event events ih =>
    cases walk with
    | next moves later =>
      rcases moves.within with ⟨rfl, rfl, _⟩ | ⟨left, rfl, movesWithin⟩
      · exact ⟨[], events, rfl, .stop⟩
      · obtain ⟨inside, after, rfl, nested⟩ := ih later
        exact ⟨event :: inside, after, rfl, .next movesWithin nested⟩

/-- A text that is an element: an empty tag, or a start tag, then what the element holds, in which every
element is closed again, and the end tag. -/
inductive IsElement : List Char → List Event → Prop where
  | empty {text name : List Char} (tag : step [] text = .next (.empty name) [] []) : IsElement text [.empty name]
  | whole {text name body tail : List Char} {events : List Event}
      (opens : step [] text = .next (.start name) [name] body) (holds : Reads [] body events [] tail)
      (closes : step [name] tail = .next .finish [] []) : IsElement text (.start name :: (events ++ [.finish]))

namespace IsElement

variable {text : List Char} {events : List Event}

theorem atTag (element : IsElement text events) (rest : List Char) : AtTag (text ++ rest) := by
  cases element with
  | empty tag =>
    obtain ⟨_, _, token, rfl, again⟩ := step_eq_next tag
    have here := again [] rest trivial
    rw [List.append_nil]
    exact atTag_of_step here nofun
  | whole opens holds closes =>
    obtain ⟨_, _, token, rfl, again⟩ := step_eq_next opens
    rw [List.append_assoc]
    exact atTag_of_step (again [] _ trivial) nofun

/-- An element is read as one wherever it stands, and leaves the same elements open. -/
theorem reads (element : IsElement text events) (opened : List (List Char)) (rest : List Char) :
    Reads opened (text ++ rest) events opened rest := by
  cases element with
  | empty tag =>
    obtain ⟨_, _, token, rfl, again⟩ := step_eq_next tag
    rw [List.append_nil]
    exact .next (again opened rest trivial) .stop
  | whole opens holds closes =>
    have atEnd := atTag_of_step closes nofun
    obtain ⟨_, _, first, rfl, openAgain⟩ := step_eq_next opens
    obtain ⟨_, _, last, rfl, closeAgain⟩ := step_eq_next closes
    obtain ⟨read, rfl, readAgain⟩ := holds.local
    have closed := closeAgain opened rest trivial
    rw [List.append_nil, List.append_assoc, List.append_assoc]
    refine .next (openAgain opened _ trivial) ?_
    refine (readAgain _ _ (atTag_of_step closed nofun)).trans ?_
    exact .next closed .stop

end IsElement

end ReportEngine.Markup
