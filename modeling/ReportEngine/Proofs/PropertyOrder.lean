import ReportEngine.Markup.Properties

/-! Properties keep the order in which their names were first set, and no name comes twice. So setting
them again from the start, in the order they are in, builds the same properties. Each name has the value
that it was set to last. -/

namespace ReportEngine.Properties

variable {name value : String} {entries : List Property}

def names (entries : List Property) : List String := entries.map Property.name

theorem setEntry_of_not_mem (fresh : name ∉ names entries) : setEntry name value entries = entries ++ [⟨name, value⟩] := by
  induction entries with
  | nil => rfl
  | cons property rest ih =>
    simp only [names, List.map_cons, List.mem_cons, not_or] at fresh
    have differs : (property.name == name) = false := beq_false_of_ne (Ne.symm fresh.1)
    rw [setEntry, differs, if_neg Bool.false_ne_true, ih fresh.2, List.cons_append]

theorem names_setEntry_of_mem (held : name ∈ names entries) : names (setEntry name value entries) = names entries := by
  induction entries with
  | nil => cases held
  | cons property rest ih =>
    rw [setEntry]
    split
    next => rfl
    next differs =>
      have other : name ≠ property.name := fun same => differs (beq_iff_eq.mpr same.symm)
      simp only [names, List.map_cons, List.mem_cons, other, false_or] at held ⊢
      exact congrArg _ (ih held)

theorem nodup_setEntry (distinct : (names entries).Nodup) : (names (setEntry name value entries)).Nodup := by
  by_cases held : name ∈ names entries
  · rw [names_setEntry_of_mem held]
    exact distinct
  · rw [setEntry_of_not_mem held, names, List.map_append, List.map_singleton]
    refine List.nodup_append.mpr ⟨distinct, by simp, ?_⟩
    intro earlier member other last same
    have sameName : earlier = name := same.trans (List.mem_singleton.mp last)
    exact held (sameName ▸ member)

theorem nodup_ofList (pairs : List (String × String)) : (names (ofList pairs).entries).Nodup := by
  have kept : ∀ properties : Properties, (names properties.entries).Nodup →
      (names (pairs.foldl (fun (held : Properties) (pair : String × String) => held.set pair.1 pair.2) properties).entries).Nodup := by
    induction pairs with
    | nil => exact fun _ distinct => distinct
    | cons pair rest ih => exact fun properties distinct => ih _ (nodup_setEntry distinct)
  exact kept empty List.nodup_nil

/-- Sets every entry of a list, one after the other. -/
def setAll (properties : Properties) (entries : List Property) : Properties :=
  entries.foldl (fun held entry => held.set entry.name entry.value) properties

theorem setAll_of_nodup (before : List Property) (distinct : (names (before ++ entries)).Nodup) :
    setAll ⟨before⟩ entries = ⟨before ++ entries⟩ := by
  induction entries generalizing before with
  | nil => rw [List.append_nil]; rfl
  | cons property rest ih =>
    have fresh : property.name ∉ names before := by
      intro earlier
      rw [names, List.map_append] at distinct
      exact (List.nodup_append.mp distinct).2.2 _ earlier _ List.mem_cons_self rfl
    have appended : set ⟨before⟩ property.name property.value = ⟨before ++ [property]⟩ := by
      rw [set, setEntry_of_not_mem fresh]
    have whole : before ++ property :: rest = before ++ [property] ++ rest := List.append_cons before property rest
    rw [setAll, List.foldl_cons, appended, whole]
    exact ih (before ++ [property]) (whole ▸ distinct)

theorem setAll_entries (pairs : List (String × String)) : setAll empty (ofList pairs).entries = ofList pairs :=
  setAll_of_nodup [] (nodup_ofList pairs)

section Map

theorem get?_set (properties : Properties) (name value other : String) :
    (properties.set name value).get? other = if other = name then some value else properties.get? other := by
  obtain ⟨entries⟩ := properties
  rw [set, get?, get?]
  induction entries with
  | nil =>
    by_cases same : other = name
    · simp [setEntry, same]
    · simp [setEntry, same, Ne.symm same]
  | cons property rest ih =>
    rw [setEntry]
    by_cases here : property.name = name
    · subst here
      by_cases same : other = property.name
      · simp [same]
      · simp [same, Ne.symm same]
    · rw [if_neg (fun same => here (eq_of_beq same))]
      by_cases found : property.name = other
      · subst found
        simp [here]
      · simpa [found] using ih

/-- Setting a name passes over the entries of all others. -/
theorem others_setEntry (name value : String) (entries : List Property) :
    (setEntry name value entries).filter (·.name != name) = entries.filter (·.name != name) := by
  induction entries with
  | nil => simp [setEntry]
  | cons property rest ih =>
    rw [setEntry]
    split
    next here => simp [eq_of_beq here]
    next => rw [List.filter_cons, List.filter_cons, ih]

/-- What is left of a sequence of calls that set properties: each name where it was set first, with the value that it
was set to last. -/
structure Keeps (calls : List (String × String)) (properties : Properties) : Prop where
  first : names properties.entries = (calls.map Prod.fst).eraseDups
  last : ∀ name, properties.get? name = calls.reverse.lookup name

namespace Keeps

variable {before : List (String × String)} {properties : Properties}

theorem set (keeps : Keeps before properties) (name value : String) :
    Keeps (before ++ [(name, value)]) (properties.set name value) where
  first := by
    have held : name ∈ names properties.entries ↔ name ∈ before.map Prod.fst := by
      rw [keeps.first, List.mem_eraseDups]
    rw [List.map_append, List.map_singleton, List.eraseDups_append, ← keeps.first, Properties.set]
    by_cases member : name ∈ before.map Prod.fst
    · have nothing : [name].removeAll (before.map Prod.fst) = [] := by
        simpa [List.removeAll] using member
      rw [names_setEntry_of_mem (held.mpr member), nothing, List.eraseDups_nil, List.append_nil]
    · have whole : [name].removeAll (before.map Prod.fst) = [name] := by
        simpa [List.removeAll] using member
      rw [setEntry_of_not_mem (fun early => member (held.mp early)), whole, names, List.map_append]
      rfl
  last other := by
    rw [get?_set, List.reverse_append, List.reverse_singleton, List.singleton_append, List.lookup_cons, keeps.last other]
    by_cases same : other = name
    · rw [if_pos same, beq_iff_eq.mpr same]
    · rw [if_neg same, beq_false_of_ne same]

/-- By induction on the calls still to come, with those already made in hand. -/
theorem setAll (keeps : Keeps before properties) (calls : List (String × String)) :
    Keeps (before ++ calls) (calls.foldl (fun held (name, value) => held.set name value) properties) := by
  induction calls generalizing before properties with
  | nil =>
    rw [List.append_nil]
    exact keeps
  | cons call rest ih =>
    rw [List.append_cons]
    exact ih (keeps.set call.1 call.2)

end Keeps

/-- However often names are set and set again, properties are a map in the order of first use, and setting one name is
nothing to the others. -/
theorem ofList_ordered_map (calls : List (String × String)) :
    (names (ofList calls).entries).Nodup ∧ names (ofList calls).entries = (calls.map Prod.fst).eraseDups ∧
      (∀ name, (ofList calls).get? name = calls.reverse.lookup name) ∧
      ∀ name value, ofList (calls ++ [(name, value)]) = (ofList calls).set name value ∧
        (∀ other, ((ofList calls).set name value).get? other =
          if other = name then some value else (ofList calls).get? other) ∧
        ((ofList calls).set name value).entries.filter (·.name != name) =
          (ofList calls).entries.filter (·.name != name) := by
  have start : Keeps [] empty := ⟨rfl, fun _ => rfl⟩
  have keeps := start.setAll calls
  refine ⟨nodup_ofList calls, keeps.first, keeps.last, fun name value => ⟨?_, ?_, ?_⟩⟩
  · rw [ofList, List.foldl_append]
    rfl
  · exact get?_set (ofList calls) name value
  · exact others_setEntry name value (ofList calls).entries

example : (ofList [("a", "1"), ("b", "2"), ("a", "3")]).entries = [⟨"a", "3"⟩, ⟨"b", "2"⟩] := by decide

end Map

end ReportEngine.Properties
