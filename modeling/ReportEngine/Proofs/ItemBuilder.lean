import ReportEngine.Error
import ReportEngine.Markup.Item
import ReportEngine.Proofs.MarkupReading

/-! An item is gathered while its markup is read. Reading and gathering are followed together here, from
one place in a text to a later one. -/

namespace ReportEngine.ItemMarkup

open Markup

namespace Builder

def run (builder : Builder) (events : List Event) : Except MarkupError Builder := events.foldlM take builder

variable {builder final : Builder} {event : Event} {before after events : List Event}

theorem run_cons_eq_ok :
    builder.run (event :: events) = .ok final ↔ ∃ next, builder.take event = .ok next ∧ next.run events = .ok final := by
  rw [run, List.foldlM_cons]
  exact bind_eq_ok

theorem run_append_eq_ok :
    builder.run (before ++ after) = .ok final ↔ ∃ between, builder.run before = .ok between ∧ between.run after = .ok final := by
  rw [run, List.foldlM_append]
  exact bind_eq_ok

theorem addText_append {content more : List Char} (added : builder.addText (content ++ more) = .ok final) :
    ∃ between, builder.addText content = .ok between ∧ between.addText more = .ok final := by
  unfold addText at added
  split at added
  next => cases added
  next blank =>
    cases added
    have parts : builder.path.isEmpty = true → content.all Text.isBlank = true ∧ more.all Text.isBlank = true := by
      intro outside
      simpa [outside] using blank
    have firstBlank : ¬(builder.path.isEmpty && !content.all Text.isBlank) = true := by
      intro stray
      obtain ⟨outside, notBlank⟩ := Bool.and_eq_true_iff.mp stray
      simp [(parts outside).1] at notBlank
    have moreBlank : ¬(builder.path.isEmpty && !more.all Text.isBlank) = true := by
      intro stray
      obtain ⟨outside, notBlank⟩ := Bool.and_eq_true_iff.mp stray
      simp [(parts outside).2] at notBlank
    refine ⟨{ builder with text := builder.text ++ content }, if_neg firstBlank, ?_⟩
    rw [addText, if_neg moreBlank, List.append_assoc]

/-- It makes no difference where a text is cut. -/
theorem run_of_joined {whole : List Event} (joined : Joined before after whole) (ran : builder.run whole = .ok final) :
    builder.run (before ++ after) = .ok final := by
  cases joined with
  | apart => exact ran
  | @within before after content more =>
    obtain ⟨here, ranHere, ran⟩ := run_append_eq_ok.mp ran
    obtain ⟨there, took, ran⟩ := run_cons_eq_ok.mp ran
    obtain ⟨between, first, second⟩ := addText_append took
    rw [List.append_assoc]
    refine run_append_eq_ok.mpr ⟨here, ranHere, ?_⟩
    refine run_cons_eq_ok.mpr ⟨between, first, ?_⟩
    exact run_cons_eq_ok.mpr ⟨there, second, ran⟩

end Builder

/-- The text of a document without the mark that may stand in front of it. -/
def withoutMark : List Char → List Char
  | '\uFEFF' :: rest => rest
  | text => text

theorem withoutMark_cons {c : Char} (unmarked : c ≠ '\uFEFF') (text : List Char) : withoutMark (c :: text) = c :: text := by
  unfold withoutMark
  split
  next same => exact absurd (List.cons.inj same).1 unmarked
  next => rfl

theorem withoutMark_append {front : List Char} (nonempty : withoutMark front ≠ []) (rest : List Char) :
    withoutMark (front ++ rest) = withoutMark front ++ rest := by
  cases front with
  | nil => exact absurd rfl nonempty
  | cons c front =>
    rw [List.cons_append]
    by_cases marked : c = '\uFEFF'
    · subst marked
      rfl
    · rw [withoutMark_cons marked, withoutMark_cons marked, List.cons_append]

theorem read_eq (text : List Char) : Markup.read text = readFrom [] (withoutMark text) := by
  cases text with
  | nil => rfl
  | cons c rest =>
    by_cases marked : c = '\uFEFF'
    · subst marked
      rfl
    · rw [withoutMark_cons marked]
      unfold Markup.read
      split
      next same => exact absurd (List.cons.inj same).1 marked
      next => rfl

theorem read_eq_ok {document : String} {item : ItemMarkup} :
    read document = .ok item ↔ (readFrom [] (withoutMark document.toList)).complete = true ∧
      ∃ builder, Builder.start.run (readFrom [] (withoutMark document.toList)).events = .ok builder ∧ builder.finish = .ok item := by
  rw [read, read_eq, ofReading]
  refine bind_eq_ok.trans ?_
  constructor
  · rintro ⟨builder, ran, finished⟩
    split at finished
    next complete => exact ⟨complete, builder, ran, finished⟩
    next => cases finished
  · rintro ⟨complete, builder, ran, finished⟩
    refine ⟨builder, ran, ?_⟩
    rw [if_pos complete]
    exact finished

/-- A document that is read to its end is the item that its events say. -/
theorem read_eq_ok_of_reads {document : String} {item : ItemMarkup} {events : List Event} {opened : List (List Char)}
    (reads : Reads [] (withoutMark document.toList) events opened []) :
    read document = .ok item ↔ ∃ builder, Builder.start.run events = .ok builder ∧ builder.finish = .ok item := by
  have ended : readFrom opened [] = ⟨[], true⟩ := by
    rw [readFrom]
    rfl
  rw [read_eq_ok, reads.readFrom_eq, ended, List.append_nil]
  exact and_iff_right rfl

/-- How far reading has got: the elements that are open, what has been gathered, and the text to come. -/
structure Progress where
  opened : List (List Char)
  builder : Builder
  text : List Char

/-- Reading on from one place gets to another. -/
def Progress.Reaches (first last : Progress) : Prop :=
  ∃ events, Reads first.opened first.text events last.opened last.text ∧ first.builder.run events = .ok last.builder

namespace Progress.Reaches

variable {first second third : Progress} {opened : List (List Char)} {builder : Builder} {rest : List Char}

theorem refl (progress : Progress) : progress.Reaches progress := ⟨[], .stop, rfl⟩

theorem trans (reached : first.Reaches second) (further : second.Reaches third) : first.Reaches third := by
  obtain ⟨before, read, ran⟩ := reached
  obtain ⟨after, readOn, ranOn⟩ := further
  exact ⟨before ++ after, read.trans readOn, Builder.run_append_eq_ok.mpr ⟨_, ran, ranOn⟩⟩

theorem step {event : Event} {final : List (List Char)} {text : List Char} {gathered : Builder}
    (taken : Markup.step opened text = .next event final rest) (ok : builder.take event = .ok gathered) :
    Reaches ⟨opened, builder, text⟩ ⟨final, gathered, rest⟩ :=
  ⟨[event], .next taken .stop, Builder.run_cons_eq_ok.mpr ⟨gathered, ok, rfl⟩⟩

theorem text {written content : List Char} (inside : builder.path ≠ []) (free : '<' ∉ written)
    (meaning : unescape? written = some content) (ends : AtTag rest) :
    Reaches ⟨opened, builder, written ++ rest⟩ ⟨opened, { builder with text := builder.text ++ content }, rest⟩ := by
  by_cases nothing : written = []
  · subst nothing
    cases meaning
    rw [List.append_nil]
    exact refl _
  · refine step (step_of_text nothing free meaning ends) ?_
    have within : builder.path.isEmpty = false := List.isEmpty_eq_false_iff.mpr inside
    simp only [Builder.take, Builder.addText, within, Bool.false_and, Bool.false_eq_true, if_false]

theorem start {tag : String} {inner : Builder} (plain : IsPlain tag.toList) (opens : builder.openElement tag = .ok inner) :
    Reaches ⟨opened, builder, '<' :: (tag.toList ++ '>' :: rest)⟩ ⟨tag.toList :: opened, inner, rest⟩ := by
  have bare : Builder.tagOf tag.toList = tag := by
    have noColon : tag.toList.contains ':' = false := by
      simpa using fun member => plain.ne rfl _ member rfl
    rw [Builder.tagOf, localName, noColon, if_neg Bool.false_ne_true, String.ofList_toList]
  refine step plain.step_start ?_
  rw [Builder.take, bare]
  exact opens

theorem finish {tag : String} {outer : Builder} (plain : IsPlain tag.toList) (closes : builder.closeElement = .ok outer) :
    Reaches ⟨tag.toList :: opened, builder, '<' :: '/' :: (tag.toList ++ '>' :: rest)⟩ ⟨opened, outer, rest⟩ :=
  step plain.step_finish closes

theorem exists_events {inner final : List (List Char)} {text left : List Char} {next : Builder}
    (reached : Reaches ⟨inner, builder, text⟩ ⟨final, next, left⟩) :
    ∃ events, Reads inner text events final left ∧ builder.run events = .ok next := reached

theorem read_eq {document : String} {item : ItemMarkup}
    (reached : Reaches ⟨[], .start, withoutMark document.toList⟩ ⟨opened, builder, []⟩) (finished : builder.finish = .ok item) :
    read document = .ok item := by
  obtain ⟨events, reads, ran⟩ := reached.exists_events
  exact (read_eq_ok_of_reads reads).mpr ⟨builder, ran, finished⟩

end Progress.Reaches

end ReportEngine.ItemMarkup
