import ReportEngine.Proofs.ItemBuilder
import ReportEngine.Proofs.PropertyOrder

/-! What is written for a custom item is read back as that item. Names and values are escaped, so no
tag begins in them; the layout between the tags is gathered too, but dropped when the next tag comes. -/

namespace ReportEngine.ItemMarkup

open Markup

section Written

variable {opened : List (List Char)} {builder inner outer : Builder} {rest : List Char} {tag : String}

theorem append_toList_append (first second : String) (rest : List Char) :
    (first ++ second).toList ++ rest = first.toList ++ (second.toList ++ rest) := by
  rw [String.toList_append, List.append_assoc]

theorem atTag_tag (rest : List Char) : AtTag ('<' :: rest) := by
  rintro c ⟨⟩
  rfl

private theorem element_append (tag content : String) (rest : List Char) :
    (element tag content).toList ++ rest =
      '<' :: (tag.toList ++ '>' :: (escape content.toList ++ '<' :: '/' :: (tag.toList ++ '>' :: '\n' :: rest))) := by
  unfold element
  simp only [append_toList_append, String.toList_ofList]
  rfl

theorem reaches_element {content : String} (plain : IsPlain tag.toList) (opens : builder.openElement tag = .ok inner)
    (inside : inner.path ≠ [])
    (closes : { inner with text := inner.text ++ content.toList }.closeElement = .ok outer) :
    Progress.Reaches ⟨opened, builder, (element tag content).toList ++ rest⟩ ⟨opened, outer, '\n' :: rest⟩ := by
  rw [element_append]
  refine (Progress.Reaches.start plain opens).trans ?_
  refine (Progress.Reaches.text inside (lt_not_mem_escape _) (unescape?_escape _) (atTag_tag _)).trans ?_
  exact Progress.Reaches.finish plain closes

theorem atTag_element (tag content : String) (rest : List Char) : AtTag ((element tag content).toList ++ rest) := by
  rw [element_append]
  exact atTag_tag _

/-- Between two tags stands the start of a line. -/
theorem reaches_tag (indent : List Char) (inside : builder.path ≠ []) (blank : indent.all (· == ' ') = true) (ends : AtTag rest) :
    Progress.Reaches ⟨opened, builder, '\n' :: (indent ++ rest)⟩
      ⟨opened, { builder with text := builder.text ++ '\n' :: indent }, rest⟩ := by
  have free : ∀ mark, mark ≠ '\n' → mark ≠ ' ' → mark ∉ '\n' :: indent := by
    intro mark notLine notSpace member
    rcases List.mem_cons.mp member with line | space
    · exact notLine line
    · exact notSpace (beq_iff_eq.mp (List.all_eq_true.mp blank mark space))
  have unescaped := unescape?_of_plain (free '&' (by decide) (by decide))
  exact Progress.Reaches.text inside (free '<' (by decide) (by decide)) unescaped ends

end Written

section Item

variable {opened : List (List Char)} {text : List Char} {outer : List String} {typeName : Option String} {properties : Properties}

private theorem writeProperty_append (property : Property) (rest : List Char) :
    (writeProperty property).toList ++ rest =
      "    ".toList ++ ('<' :: ("CustomProperty".toList ++ '>' :: '\n' :: ("      ".toList ++
        ((element "Name" property.name).toList ++ ("      ".toList ++ ((element "Value" property.value).toList ++
          ("    ".toList ++ '<' :: '/' :: ("CustomProperty".toList ++ '>' :: '\n' :: rest)))))))) := by
  unfold writeProperty
  simp only [append_toList_append]
  rfl

theorem reaches_property (property : Property) (rest : List Char) :
    Progress.Reaches
      ⟨opened, ⟨"CustomProperties" :: outer, text, typeName, properties, none, none, false⟩,
        '\n' :: ((writeProperty property).toList ++ rest)⟩
      ⟨opened, ⟨"CustomProperties" :: outer, [], typeName, properties.set property.name property.value, none, none, false⟩,
        '\n' :: rest⟩ := by
  rw [writeProperty_append]
  refine (reaches_tag _ (List.cons_ne_nil _ _) rfl (atTag_tag _)).trans ?_
  refine (Progress.Reaches.start (.of_all rfl rfl) rfl).trans ?_
  refine (reaches_tag _ (List.cons_ne_nil _ _) rfl (atTag_element _ _ _)).trans ?_
  refine (reaches_element (.of_all rfl rfl) rfl (List.cons_ne_nil _ _) rfl).trans ?_
  refine (reaches_tag _ (List.cons_ne_nil _ _) rfl (atTag_element _ _ _)).trans ?_
  refine (reaches_element (.of_all rfl rfl) rfl (List.cons_ne_nil _ _) rfl).trans ?_
  refine (reaches_tag _ (List.cons_ne_nil _ _) rfl (atTag_tag _)).trans ?_
  refine Progress.Reaches.finish (.of_all rfl rfl) ?_
  simp [Builder.closeElement]

theorem reaches_properties (entries : List Property) (rest : List Char) :
    ∃ left, Progress.Reaches
      ⟨opened, ⟨"CustomProperties" :: outer, text, typeName, properties, none, none, false⟩,
        '\n' :: ((String.join (entries.map writeProperty)).toList ++ rest)⟩
      ⟨opened, ⟨"CustomProperties" :: outer, left, typeName, properties.setAll entries, none, none, false⟩, '\n' :: rest⟩ := by
  rw [String.toList_join]
  induction entries generalizing text properties with
  | nil => exact ⟨text, .refl _⟩
  | cons property entries ih =>
    rw [List.map_cons, List.flatMap_cons, List.append_assoc]
    obtain ⟨left, reached⟩ := ih
    exact ⟨left, (reaches_property property _).trans reached⟩

private theorem write_toList (item : ItemMarkup) :
    item.write.toList =
      '<' :: (itemTag.toList ++ '>' :: '\n' :: ("  ".toList ++ ((element "Type" item.typeName).toList ++ ("  ".toList ++
        '<' :: ("CustomProperties".toList ++ '>' :: '\n' :: ((String.join (item.properties.entries.map writeProperty)).toList ++
          ("  ".toList ++ '<' :: '/' :: ("CustomProperties".toList ++ '>' :: '\n' :: ([] ++
            '<' :: '/' :: (itemTag.toList ++ ['>'])))))))))) := by
  rw [← List.append_nil item.write.toList]
  unfold write
  simp only [append_toList_append]
  rfl

theorem reaches_type (content : String) (rest : List Char) :
    Progress.Reaches ⟨opened, ⟨[itemTag], text, typeName, properties, none, none, false⟩, (element "Type" content).toList ++ rest⟩
      ⟨opened, ⟨[itemTag], [], some content, properties, none, none, false⟩, '\n' :: rest⟩ := by
  have closes : Builder.closeElement ⟨["Type", itemTag], content.toList, typeName, properties, none, none, false⟩ =
      .ok ⟨[itemTag], [], some content, properties, none, none, false⟩ := by
    simp [Builder.closeElement]
  exact reaches_element (.of_all rfl rfl) rfl (List.cons_ne_nil _ _) closes

theorem reaches_item (item : ItemMarkup) :
    Progress.Reaches ⟨[], .start, item.write.toList⟩
      ⟨[], ⟨[], [], some item.typeName, Properties.empty.setAll item.properties.entries, none, none, true⟩, []⟩ := by
  have opens : Builder.start.openElement itemTag = .ok ⟨[itemTag], [], none, .empty, none, none, false⟩ := rfl
  have opensList (text : List Char) : Builder.openElement ⟨[itemTag], text, some item.typeName, .empty, none, none, false⟩
      "CustomProperties" = .ok ⟨["CustomProperties", itemTag], [], some item.typeName, .empty, none, none, false⟩ := rfl
  have closesList (text : List Char) (properties : Properties) :
      Builder.closeElement ⟨["CustomProperties", itemTag], text, some item.typeName, properties, none, none, false⟩ =
        .ok ⟨[itemTag], [], some item.typeName, properties, none, none, false⟩ := rfl
  have closes (text : List Char) (properties : Properties) :
      Builder.closeElement ⟨[itemTag], text, some item.typeName, properties, none, none, false⟩ =
        .ok ⟨[], [], some item.typeName, properties, none, none, true⟩ := rfl
  obtain ⟨left, reached⟩ := reaches_properties item.properties.entries _
  rw [write_toList]
  refine (Progress.Reaches.start (.of_all rfl rfl) opens).trans ?_
  refine (reaches_tag _ (List.cons_ne_nil _ _) rfl (atTag_element _ _ _)).trans ?_
  refine (reaches_type item.typeName _).trans ?_
  refine (reaches_tag _ (List.cons_ne_nil _ _) rfl (atTag_tag _)).trans ?_
  refine (Progress.Reaches.start (.of_all rfl rfl) (opensList _)).trans ?_
  refine reached.trans ?_
  refine (reaches_tag _ (List.cons_ne_nil _ _) rfl (atTag_tag _)).trans ?_
  refine (Progress.Reaches.finish (.of_all rfl rfl) (closesList _ _)).trans ?_
  refine (reaches_tag _ (List.cons_ne_nil _ _) rfl (atTag_tag _)).trans ?_
  exact Progress.Reaches.finish (.of_all rfl rfl) (closes _ _)

end Item

theorem read_write (typeName : String) (pairs : List (String × String)) :
    read (write ⟨typeName, .ofList pairs⟩) = .ok ⟨typeName, .ofList pairs⟩ := by
  have unmarked : withoutMark (write ⟨typeName, .ofList pairs⟩).toList = (write ⟨typeName, .ofList pairs⟩).toList := by
    rw [write_toList]
    rfl
  have reached := reaches_item ⟨typeName, .ofList pairs⟩
  rw [Properties.setAll_entries, ← unmarked] at reached
  exact reached.read_eq rfl

end ReportEngine.ItemMarkup
