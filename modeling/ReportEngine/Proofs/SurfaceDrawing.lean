import ReportEngine.Surface

/-! Drawing on a surface, seen through single pixels. Every call gives one color to the pixels of a region and
keeps all others; what a call leaves of the surface is as good to draw on as what it found. -/

namespace ReportEngine.Surface

variable {surface before between after : Surface} {color : Rgba}

section Offsets

theorem offset?_eq_some {x y offset : Nat} :
    surface.offset? x y = some offset ↔ x < surface.width ∧ y < surface.height ∧ y * surface.width + x = offset := by
  unfold offset?
  split
  next inside => simp [inside]
  next outside =>
    constructor
    · intro found
      cases found
    · intro found
      exact absurd ⟨found.1, found.2.1⟩ outside

theorem offset?_eq_none {x y : Nat} :
    surface.offset? x y = none ↔ ¬(x < surface.width ∧ y < surface.height) := by
  unfold offset?
  split
  next inside => simp [inside]
  next outside => simp [outside]

/-- The last place of the last row is the last pixel. -/
theorem offset_lt_area {x y offset : Nat} (found : surface.offset? x y = some offset) :
    offset < surface.width * surface.height := by
  obtain ⟨left, above, rfl⟩ := offset?_eq_some.mp found
  have rows : (y + 1) * surface.width ≤ surface.height * surface.width := Nat.mul_le_mul_right surface.width above
  rw [Nat.succ_mul] at rows
  rw [Nat.mul_comm surface.width]
  omega

/-- No two places share a pixel: the quotient of an offset by the width is the row, the remainder is the column. -/
theorem offset?_injective {x y i j offset : Nat} (first : surface.offset? x y = some offset)
    (second : surface.offset? i j = some offset) : i = x ∧ j = y := by
  obtain ⟨inside, -, rfl⟩ := offset?_eq_some.mp first
  obtain ⟨within, -, same⟩ := offset?_eq_some.mp second
  have positive : 0 < surface.width := Nat.zero_lt_of_lt inside
  have rows := congrArg (· / surface.width) same
  have columns := congrArg (· % surface.width) same
  simp only [Nat.mul_comm _ surface.width, Nat.mul_add_div positive, Nat.mul_add_mod, Nat.div_eq_of_lt inside,
    Nat.div_eq_of_lt within, Nat.mod_eq_of_lt inside, Nat.mod_eq_of_lt within, Nat.add_zero] at rows columns
  exact ⟨columns, rows⟩

theorem get?_of_outside {x y : Nat} (outside : ¬(x < surface.width ∧ y < surface.height)) : surface.get? x y = none := by
  rw [get?, offset?_eq_none.mpr outside]
  rfl

end Offsets

/-- What lies between two surfaces of one size: the pixels of a region have a color, the others are kept. -/
structure Colors (color : Rgba) (region : Nat → Nat → Prop) (before after : Surface) : Prop where
  width : after.width = before.width
  height : after.height = before.height
  size : after.pixels.size = before.pixels.size
  inside : ∀ i j, region i j → after.get? i j = (before.get? i j).map fun _ => color
  outside : ∀ i j, ¬region i j → after.get? i j = before.get? i j

namespace Colors

variable {region further : Nat → Nat → Prop}

theorem nothing (color : Rgba) (surface : Surface) : Colors color (fun _ _ => False) surface surface :=
  ⟨rfl, rfl, rfl, fun _ _ none => none.elim, fun _ _ _ => rfl⟩

theorem trans (first : Colors color region before between) (second : Colors color further between after) :
    Colors color (fun i j => region i j ∨ further i j) before after := by
  refine ⟨second.width.trans first.width, second.height.trans first.height, second.size.trans first.size, ?_, ?_⟩
  · intro i j either
    by_cases again : further i j
    · rw [second.inside i j again]
      by_cases colored : region i j
      · rw [first.inside i j colored, Option.map_map]
        rfl
      · rw [first.outside i j colored]
    · rw [second.outside i j again, first.inside i j (either.resolve_right again)]
  · intro i j neither
    rw [second.outside i j fun again => neither (.inr again), first.outside i j fun colored => neither (.inl colored)]

/-- Only the places on the surface count. -/
theorem congr (colors : Colors color region before after)
    (same : ∀ i j, i < before.width → j < before.height → (region i j ↔ further i j)) :
    Colors color further before after := by
  have nowhere : ∀ i j, ¬(i < before.width ∧ j < before.height) →
      after.get? i j = none ∧ before.get? i j = none := by
    intro i j outside
    refine ⟨get?_of_outside ?_, get?_of_outside outside⟩
    rwa [colors.width, colors.height]
  refine ⟨colors.width, colors.height, colors.size, ?_, ?_⟩
  · intro i j within
    by_cases place : i < before.width ∧ j < before.height
    · exact colors.inside i j ((same i j place.1 place.2).mpr within)
    · rw [(nowhere i j place).1, (nowhere i j place).2]
      rfl
  · intro i j beyond
    by_cases place : i < before.width ∧ j < before.height
    · exact colors.outside i j fun within => beyond ((same i j place.1 place.2).mp within)
    · rw [(nowhere i j place).1, (nowhere i j place).2]

/-- A loop colors what its turns color. -/
theorem foldl {α : Type} {draw : Surface → α → Surface} {regions : α → Nat → Nat → Prop}
    (turn : ∀ surface item, Colors color (regions item) surface (draw surface item)) (items : List α)
    (surface : Surface) :
    Colors color (fun i j => ∃ item ∈ items, regions item i j) surface (items.foldl draw surface) := by
  induction items generalizing surface with
  | nil =>
    apply (nothing color surface).congr
    intro i j _ _
    simp
  | cons item rest ih =>
    apply ((turn surface item).trans (ih (draw surface item))).congr
    intro i j _ _
    simp only [List.mem_cons, exists_eq_or_imp]

end Colors

theorem colors_set (surface : Surface) (x y : Nat) (color : Rgba) :
    Colors color (fun i j => i = x ∧ j = y) surface (surface.set x y color) := by
  unfold set
  split
  next offset found =>
    refine ⟨rfl, rfl, Array.size_setIfInBounds, ?_, ?_⟩
    · rintro i j ⟨rfl, rfl⟩
      have place : ({ surface with pixels := surface.pixels.setIfInBounds offset color } : Surface).offset? i j =
          some offset := found
      rw [get?, place, get?, found, Option.bind_some, Option.bind_some, Array.getElem?_setIfInBounds_self]
      split
      next inside => rw [Array.getElem?_eq_getElem inside, Option.map_some]
      next beyond => rw [Array.getElem?_eq_none (Nat.le_of_not_lt beyond), Option.map_none]
    · intro i j elsewhere
      change (surface.offset? i j).bind _ = (surface.offset? i j).bind _
      cases other : surface.offset? i j with
      | none => rfl
      | some position =>
        apply Array.getElem?_setIfInBounds_ne
        rintro rfl
        exact elsewhere (offset?_injective found other)
  next none =>
    apply (Colors.nothing color surface).congr
    rintro i j within above
    constructor
    · exact False.elim
    · rintro ⟨rfl, rfl⟩
      exact offset?_eq_none.mp none ⟨within, above⟩

theorem colors_fill (surface : Surface) (color : Rgba) :
    Colors color (fun _ _ => True) surface (surface.fill color) := by
  refine ⟨rfl, rfl, Array.size_map, ?_, fun _ _ nowhere => absurd trivial nowhere⟩
  intro i j _
  change (surface.offset? i j).bind _ = ((surface.offset? i j).bind _).map _
  cases surface.offset? i j with
  | none => rfl
  | some offset => exact Array.getElem?_map

/-- A sum that stopped at the last coordinate is beyond every limit, so nothing is lost by that. -/
theorem mem_stretch {start length limit position : Nat} (words : limit ≤ 0xFFFFFFFF) (below : position < limit) :
    position ∈ List.range' start (stretchEnd start length limit - start) ↔
      start ≤ position ∧ position < start + length := by
  rw [List.mem_range'_1, stretchEnd]
  omega

theorem colors_fillRect {surface : Surface} (wide : surface.width ≤ 0xFFFFFFFF) (high : surface.height ≤ 0xFFFFFFFF)
    (x y width height : Nat) (color : Rgba) :
    Colors color (fun i j => (x ≤ i ∧ i < x + width) ∧ y ≤ j ∧ j < y + height) surface
      (surface.fillRect x y width height color) := by
  have row : ∀ (before : Surface) (y : Nat), Colors color _ before _ := fun before y =>
    Colors.foldl (fun surface column => colors_set surface column y color)
      (List.range' x (stretchEnd x width surface.width - x)) before
  apply (Colors.foldl row (List.range' y (stretchEnd y height surface.height - y)) surface).congr
  intro i j within above
  rw [← mem_stretch wide within, ← mem_stretch high above]
  constructor
  · rintro ⟨_, rows, _, columns, rfl, rfl⟩
    exact ⟨columns, rows⟩
  · rintro ⟨columns, rows⟩
    exact ⟨j, rows, i, columns, rfl, rfl⟩

/-- The surfaces that calls make of a fresh one. All coordinates and sizes are words of 32 bits. -/
inductive Drawn (width height : UInt32) : Surface → Prop
  | fresh : Drawn width height (transparent width.toNat height.toNat)
  | set {surface : Surface} (x y : UInt32) (color : Rgba) :
      Drawn width height surface → Drawn width height (surface.set x.toNat y.toNat color)
  | fill {surface : Surface} (color : Rgba) : Drawn width height surface → Drawn width height (surface.fill color)
  | fillRect {surface : Surface} (x y w h : UInt32) (color : Rgba) :
      Drawn width height surface →
        Drawn width height (surface.fillRect x.toNat y.toNat w.toNat h.toNat color)

/-- A surface of a given size, with a pixel for each of its places. -/
structure Sized (width height : UInt32) (surface : Surface) : Prop where
  columns : surface.width = width.toNat
  rows : surface.height = height.toNat
  area : surface.pixels.size = width.toNat * height.toNat

namespace Sized

variable {width height : UInt32}

theorem wide (sized : Sized width height surface) : surface.width ≤ 0xFFFFFFFF := by
  have bound := width.toNat_lt
  rw [sized.columns]
  omega

theorem high (sized : Sized width height surface) : surface.height ≤ 0xFFFFFFFF := by
  have bound := height.toNat_lt
  rw [sized.rows]
  omega

theorem mono {region : Nat → Nat → Prop} (sized : Sized width height before)
    (colors : Colors color region before after) : Sized width height after :=
  ⟨colors.width.trans sized.columns, colors.height.trans sized.rows, colors.size.trans sized.area⟩

theorem offset_lt (sized : Sized width height surface) {x y offset : Nat}
    (found : surface.offset? x y = some offset) : offset < surface.pixels.size := by
  have inside := offset_lt_area found
  rwa [sized.columns, sized.rows, ← sized.area] at inside

theorem isSome_get? (sized : Sized width height surface) (i j : Nat) :
    (surface.get? i j).isSome = true ↔ i < width.toNat ∧ j < height.toNat := by
  rw [← sized.columns, ← sized.rows, get?]
  cases found : surface.offset? i j with
  | none => simp [offset?_eq_none.mp found]
  | some offset =>
    obtain ⟨within, above, -⟩ := offset?_eq_some.mp found
    simp [within, above, sized.offset_lt found]

end Sized

theorem Drawn.sized {width height : UInt32} (drawn : Drawn width height surface) : Sized width height surface := by
  induction drawn with
  | fresh => exact ⟨rfl, rfl, Array.size_replicate⟩
  | set x y color _ ih => exact ih.mono (colors_set _ _ _ color)
  | fill color _ ih => exact ih.mono (colors_fill _ color)
  | fillRect x y w h color _ ih => exact ih.mono (colors_fillRect ih.wide ih.high _ _ _ _ color)

/-- On every surface that drawing leads to, each place has a pixel of its own within the vector, whose offset fits
into 64 bits; and whatever the coordinates, `set` colors at most the one pixel, `fill` all of them, and `fillRect`
those of the rectangle over the whole numbers. -/
theorem drawing_exact {width height : UInt32} {surface : Surface} (drawn : Drawn width height surface) :
    surface.pixels.size = width.toNat * height.toNat ∧ surface.pixels.size ≤ 0xFFFFFFFFFFFFFFFF ∧
      (∀ i j offset, surface.offset? i j = some offset → offset < surface.pixels.size) ∧
      (∀ i j, (surface.get? i j).isSome = true ↔ i < width.toNat ∧ j < height.toNat) ∧
      (∀ (x y : UInt32) (color : Rgba),
        Colors color (fun i j => i = x.toNat ∧ j = y.toNat) surface (surface.set x.toNat y.toNat color)) ∧
      (∀ color : Rgba, Colors color (fun _ _ => True) surface (surface.fill color)) ∧
      ∀ (x y w h : UInt32) (color : Rgba),
        Colors color
          (fun i j => (x.toNat ≤ i ∧ i < x.toNat + w.toNat) ∧ y.toNat ≤ j ∧ j < y.toNat + h.toNat) surface
          (surface.fillRect x.toNat y.toNat w.toNat h.toNat color) := by
  have sized := drawn.sized
  have area : width.toNat * height.toNat ≤ 0xFFFFFFFF * 0xFFFFFFFF :=
    Nat.mul_le_mul (sized.columns ▸ sized.wide) (sized.rows ▸ sized.high)
  refine ⟨sized.area, ?_, fun _ _ _ => sized.offset_lt, sized.isSome_get?, ?_, colors_fill surface, ?_⟩
  · rw [sized.area]
    omega
  · intro x y color
    exact colors_set surface x.toNat y.toNat color
  · intro x y w h color
    exact colors_fillRect sized.wide sized.high x.toNat y.toNat w.toNat h.toNat color

/-- A rectangle that starts on a surface of four by three pixels and ends beyond the last coordinate covers the
corner that it starts in. -/
theorem drawing_exact_beyondCoordinates :
    Drawn 4 3 (transparent 4 3) ∧
      ((transparent 4 3).fillRect 2 1 0xFFFFFFFF 0xFFFFFFFF .black).get? 3 2 = some .black ∧
      ((transparent 4 3).fillRect 2 1 0xFFFFFFFF 0xFFFFFFFF .black).get? 1 2 = some .transparent ∧
      ((transparent 4 3).set 0xFFFFFFFF 0 .black).get? 3 0 = some .transparent := by
  have drawn : Drawn 4 3 (transparent 4 3) := .fresh
  obtain ⟨-, -, -, -, set, -, fillRect⟩ := drawing_exact drawn
  have rectangle := fillRect 2 1 0xFFFFFFFF 0xFFFFFFFF .black
  refine ⟨drawn, rectangle.inside 3 2 (by decide), rectangle.outside 1 2 (by decide), ?_⟩
  exact (set 0xFFFFFFFF 0 .black).outside 3 0 (by decide)

end ReportEngine.Surface
