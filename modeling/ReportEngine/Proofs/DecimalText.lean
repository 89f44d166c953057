import ReportEngine.Decimal.Text
import ReportEngine.Text.Blank

/-! Decimals are read back from what they are written as. In front of an exponent or behind a point the digits
keep their scale; where a negative scale is written out as zeros, the number is the same at scale zero. -/

namespace ReportEngine.Decimal

open Text

/-- Marks an exponent. -/
def IsMark (c : Char) : Prop := c = 'e' ∨ c = 'E'

private theorem not_isMark_of_isDigit {c : Char} (digit : c.isDigit = true) : ¬IsMark c := by
  rintro (rfl | rfl) <;> cases digit

section Reading

/-- What stands behind the digits: nothing, or an exponent. -/
inductive IsExponent : List Char → Int → Prop where
  | none {exponent : Int} (zero : exponent = 0) : IsExponent [] exponent
  | marked {mark : Char} {text : List Char} {exponent : Int} (marks : IsMark mark)
      (read : readInt? text = some exponent) : IsExponent (mark :: text) exponent

theorem read?_append {base tail : List Char} {exponent : Int} (unmarked : ∀ c ∈ base, ¬IsMark c)
    (ends : IsExponent tail exponent) :
    read? (base ++ tail) =
      if fits64 ((spanPoint base).2 - exponent) = true then
        (readSigned? (spanPoint base).1).map (⟨·, (spanPoint base).2 - exponent⟩)
      else none := by
  have inside : ∀ c ∈ base, (!(c == 'e' || c == 'E')) = true := by
    intro c member
    simpa [IsMark, not_or] using unmarked c member
  have stops : ∀ c, tail.head? = some c → (!(c == 'e' || c == 'E')) = false := by
    intro c first
    cases ends with
    | none zero => cases first
    | marked marks read =>
      cases first
      rcases marks with rfl | rfl <;> rfl
  obtain ⟨taken, left⟩ := span_append inside stops
  rw [read?, taken, left]
  obtain ⟨digits, places⟩ := spanPoint base
  cases ends with
  | none zero =>
    rw [← zero]
    cases fits : fits64 (places - exponent) <;> simp [fits]
  | @marked mark text exponent marks read =>
    cases fits : fits64 (places - exponent) <;> simp [read, fits]

/-- A point before the fraction, if there is one. -/
def pointed (fraction : List Char) : List Char := if fraction = [] then [] else '.' :: fraction

theorem spanPoint_pointed {whole fraction : List Char} (pointless : '.' ∉ whole) (grouped : '_' ∉ fraction) :
    spanPoint (whole ++ pointed fraction) = (whole ++ fraction, fraction.length) := by
  have inside : ∀ c ∈ whole, (c != '.') = true := fun c member =>
    bne_iff_ne.mpr fun same => pointless (same ▸ member)
  have stops : ∀ c, (pointed fraction).head? = some c → (c != '.') = false := by
    intro c first
    unfold pointed at first
    split at first
    · cases first
    · cases first
      rfl
  have behind : (pointed fraction).drop 1 = fraction := by
    unfold pointed
    split
    next none => exact none.symm
    next => rfl
  have plain : fraction.filter (· != '_') = fraction :=
    List.filter_eq_self.mpr fun c member => bne_iff_ne.mpr fun same => grouped (same ▸ member)
  obtain ⟨taken, left⟩ := span_append inside stops
  rw [spanPoint, taken, left, behind, plain]

theorem readSigned?_digits (n : Int) {digits : List Char} (nonempty : digits ≠ [])
    (plain : ∀ c ∈ digits, c.isDigit = true) :
    readSigned? (signText n ++ digits) =
      some (if n < 0 then -(natOfDigits digits : Int) else natOfDigits digits) := by
  have grouped : readGrouped? digits = some (natOfDigits digits) := by
    have kept : digits.filter (· != '_') = digits := by
      refine List.filter_eq_self.mpr fun c member => bne_iff_ne.mpr ?_
      rintro rfl
      cases plain '_' member
    have all : (digits.all fun c => c.isDigit || c == '_') = true :=
      List.all_eq_true.mpr fun c member => by rw [plain c member, Bool.true_or]
    unfold readGrouped?
    split
    next => exact absurd rfl nonempty
    next => cases plain '_' List.mem_cons_self
    next => rw [if_pos all, kept]
  by_cases negative : n < 0
  · rw [signText, if_pos negative, if_pos negative, readSigned?]
    simp [spanSign, grouped]
  · rw [signText, if_neg negative, if_neg negative, readSigned?, List.nil_append,
      spanSign_of_isDigit fun c first => plain c (List.mem_of_head? first)]
    simp [grouped]

/-- A sign, digits around a point, and an exponent. -/
theorem read?_parts (n : Int) (whole fraction : List Char) (size : Nat) (scale : Int) {tail : List Char} {exponent : Int}
    (nonempty : whole ≠ []) (plain : ∀ c ∈ whole ++ fraction, c.isDigit = true)
    (value : natOfDigits (whole ++ fraction) = size) (ends : IsExponent tail exponent)
    (places : fraction.length - exponent = scale) :
    read? (signText n ++ (whole ++ pointed fraction) ++ tail) =
      if fits64 scale = true then some ⟨if n < 0 then -(size : Int) else size, scale⟩ else none := by
  subst value places
  have signs : ∀ c ∈ signText n, c = '-' := by
    intro c member
    unfold signText at member
    split at member
    · exact List.mem_singleton.mp member
    · cases member
  have points : ∀ c ∈ pointed fraction, c = '.' ∨ c ∈ fraction := by
    intro c member
    unfold pointed at member
    split at member
    · cases member
    · exact List.mem_cons.mp member
  have unmarked : ∀ c ∈ signText n ++ (whole ++ pointed fraction), ¬IsMark c := by
    intro c member
    rcases List.mem_append.mp member with sign | member
    · rw [signs c sign]
      rintro (same | same) <;> cases same
    rcases List.mem_append.mp member with digit | member
    · exact not_isMark_of_isDigit (plain c (List.mem_append_left _ digit))
    rcases points c member with rfl | digit
    · rintro (same | same) <;> cases same
    · exact not_isMark_of_isDigit (plain c (List.mem_append_right _ digit))
  have pointless : '.' ∉ signText n ++ whole := by
    intro member
    rcases List.mem_append.mp member with sign | digit
    · cases signs '.' sign
    · cases plain '.' (List.mem_append_left _ digit)
  have grouped : '_' ∉ fraction := fun member => by cases plain '_' (List.mem_append_right _ member)
  have spelled : whole ++ fraction ≠ [] := fun none => nonempty (List.append_eq_nil_iff.mp none).1
  rw [read?_append unmarked ends, ← List.append_assoc, spanPoint_pointed pointless grouped, List.append_assoc,
    readSigned?_digits n spelled plain]
  rfl

end Reading

section Writing

variable {d : Decimal}

private theorem plain_digitsOfNat (n : Nat) : ∀ c ∈ digitsOfNat n, c.isDigit = true :=
  fun _ member => isDigit_of_mem_digitsOfNat member

private theorem signed_natAbs (n : Int) : (if n < 0 then -(n.natAbs : Int) else n.natAbs) = n := by
  split <;> omega

private theorem signed_natAbs_mul (n : Int) (m : Nat) :
    (if n < 0 then -((n.natAbs * m : Nat) : Int) else (n.natAbs * m : Nat)) = n * m := by
  have signed := signed_natAbs n
  split at signed
  next negative => rw [if_pos negative, Int.natCast_mul, ← Int.neg_mul, signed]
  next positive => rw [if_neg positive, Int.natCast_mul, signed]

private theorem readInt?_exponentText (n : Int) : readInt? (exponentText n) = some n := by
  unfold exponentText
  split
  next => exact readInt?_digitsOfInt n
  next positive =>
    have whole : (n.natAbs : Int) = n := Int.natAbs_of_nonneg (Int.not_lt.mp positive)
    have signed := readInt?_signed false n.natAbs
    rw [digitsOfInt_eq, if_neg positive, List.nil_append]
    simpa [whole] using signed

/-- Digits with an exponent behind them. -/
private theorem read?_raised {mark : Char} {exponent : List Char} {scale : Int} (n : Int) (marks : IsMark mark)
    (read : readInt? exponent = some (-scale)) :
    read? (signText n ++ digitsOfNat n.natAbs ++ mark :: exponent) =
      if fits64 scale = true then some ⟨n, scale⟩ else none := by
  have digits : digitsOfNat n.natAbs ++ [] = digitsOfNat n.natAbs := List.append_nil _
  have parts := read?_parts n (digitsOfNat n.natAbs) [] n.natAbs scale (digitsOfNat_ne_nil n.natAbs)
    (by rw [digits]; exact plain_digitsOfNat _) (by rw [digits, natOfDigits_digitsOfNat]) (.marked marks read)
    (by rw [List.length_nil]; omega)
  rw [signed_natAbs, pointed, if_pos rfl, digits] at parts
  exact parts

/-- Digits and a power of ten are read as they stand. -/
theorem read?_exponent (word : fits64 d.scale = true) :
    read? (digitsOfInt d.digits ++ 'e' :: digitsOfInt (-d.scale)) = some d := by
  have read := read?_raised d.digits (.inl rfl) (readInt?_digitsOfInt (-d.scale))
  rw [if_pos word] at read
  rw [digitsOfInt_eq d.digits]
  exact read

/-- What a decimal is read back as. Zero loses its scale, and zeros that are written out raise it. -/
def asWritten (d : Decimal) : Decimal :=
  if d.isZero then zero else if d.scale < -15 then d else d.atLeastScale 0

private theorem read?_scientific (fits : fits64 d.scale = true) :
    read? (signText d.digits ++ (pointAfterFirst (digitsOfNat d.digits.natAbs) ++
      'E' :: exponentText ((digitsOfNat d.digits.natAbs).length - 1 - d.scale))) = some d := by
  obtain ⟨first, rest, written⟩ := List.exists_cons_of_ne_nil (digitsOfNat_ne_nil d.digits.natAbs)
  have placed : pointAfterFirst (digitsOfNat d.digits.natAbs) = [first] ++ pointed rest := by
    rw [written]
    cases rest <;> rfl
  have digits : [first] ++ rest = digitsOfNat d.digits.natAbs := written.symm
  have parts := read?_parts d.digits [first] rest d.digits.natAbs d.scale (List.cons_ne_nil first [])
    (by rw [digits]; exact plain_digitsOfNat _) (by rw [digits, natOfDigits_digitsOfNat])
    (.marked (.inr rfl) (readInt?_exponentText ((digitsOfNat d.digits.natAbs).length - 1 - d.scale)))
    (by rw [written, List.length_cons]; omega)
  rw [fits, if_pos rfl, signed_natAbs] at parts
  rw [placed, ← List.append_assoc]
  exact parts

private theorem read?_whole (low : d.scale ≤ 0) :
    read? (signText d.digits ++ plain d.digits.natAbs d.scale) = some (d.atLeastScale 0) := by
  have raised : d.atLeastScale 0 = ⟨d.digits * tenTo (-d.scale).toNat, 0⟩ := by
    rcases Int.lt_or_eq_of_le low with below | level
    · rw [atLeastScale, if_pos below, digitsAt, Int.zero_sub]
    · rw [atLeastScale, if_neg (by omega), level]
      have same : d = ⟨d.digits, d.scale⟩ := rfl
      rw [same, level]
      exact congrArg (Decimal.mk · 0) (Int.mul_one d.digits).symm
  have zeros : ∀ c ∈ List.replicate (-d.scale).toNat '0', c.isDigit = true := fun c zero => by
    rw [List.eq_of_mem_replicate zero]
    rfl
  have parts := read?_parts d.digits (digitsOfNat d.digits.natAbs ++ List.replicate (-d.scale).toNat '0') []
    (d.digits.natAbs * tenTo (-d.scale).toNat) 0 (fun none => digitsOfNat_ne_nil _ (List.append_eq_nil_iff.mp none).1)
    (by rw [List.append_nil]; exact List.forall_mem_append.mpr ⟨plain_digitsOfNat _, zeros⟩)
    (by rw [List.append_nil, natOfDigits_append_zeros, natOfDigits_digitsOfNat]) (.none rfl) rfl
  rw [if_pos (by decide), signed_natAbs_mul, pointed, if_pos rfl, List.append_nil, List.append_nil] at parts
  rw [plain, if_pos low, raised]
  exact parts

private theorem read?_pointed (positive : 0 < d.scale) (fits : fits64 d.scale = true) :
    read? (signText d.digits ++ plain d.digits.natAbs d.scale) = some d := by
  have long : d.scale.toNat < (padded (d.scale.toNat + 1) d.digits.natAbs).length := by
    rw [padded, List.length_append, List.length_replicate]
    omega
  have value := natOfDigits_padded (d.scale.toNat + 1) d.digits.natAbs
  have digits : ∀ c ∈ padded (d.scale.toNat + 1) d.digits.natAbs, c.isDigit = true :=
    fun c member => isDigit_of_mem_padded member
  rw [plain, if_neg (by omega)]
  dsimp only
  generalize padded (d.scale.toNat + 1) d.digits.natAbs = written at *
  have split : written.take (written.length - d.scale.toNat) ++ written.drop (written.length - d.scale.toNat) = written :=
    List.take_append_drop _ _
  have behind : (written.drop (written.length - d.scale.toNat)).length = d.scale.toNat := by
    rw [List.length_drop]
    omega
  have fraction : written.drop (written.length - d.scale.toNat) ≠ [] := by
    rw [← List.length_pos_iff, behind]
    omega
  have parts := read?_parts d.digits (written.take (written.length - d.scale.toNat))
    (written.drop (written.length - d.scale.toNat)) d.digits.natAbs d.scale
    (by rw [← List.length_pos_iff, List.length_take]; omega) (by rw [split]; exact digits) (by rw [split, value])
    (.none rfl) (by rw [behind]; omega)
  rw [fits, if_pos rfl, signed_natAbs, pointed, if_neg fraction, List.append_nil] at parts
  exact parts

private theorem toText_zero (nothing : d.digits = 0) : d.toText = signText 0 ++ plain 0 0 := by
  have isZero : d.isZero = true := beq_iff_eq.mpr nothing
  simp only [toText, isZero, nothing, if_true]
  rfl

theorem read?_toText (d : Decimal) (fits : fits64 d.scale = true) : read? d.toText = some d.asWritten := by
  by_cases nothing : d.isZero = true
  · rw [toText_zero (eq_of_beq nothing), asWritten, if_pos nothing]
    exact read?_whole (d := zero) (Int.le_refl 0)
  · simp only [toText, asWritten, if_neg nothing]
    split
    next small => rw [read?_scientific fits, if_neg (by omega), atLeastScale, if_neg (by omega)]
    next =>
      split
      next large =>
        rw [← List.append_assoc, read?_raised d.digits (.inl rfl) (readInt?_exponentText (-d.scale)), fits,
          if_pos rfl, if_pos (by omega)]
      next =>
        rw [if_neg (by omega)]
        rcases Int.lt_or_le 0 d.scale with positive | low
        · rw [read?_pointed positive fits, atLeastScale, if_neg (by omega)]
        · exact read?_whole low

private theorem noBlank_exponentText (n : Int) : NoBlank (exponentText n) := by
  unfold exponentText
  split
  next => exact .digitsOfInt n
  next => exact .cons rfl (.digitsOfInt n)

private theorem noBlank_pointAfterFirst {digits : List Char} (plain : NoBlank digits) : NoBlank (pointAfterFirst digits) := by
  unfold pointAfterFirst
  split
  next first second rest =>
    obtain ⟨start, behind⟩ := List.forall_mem_cons.mp plain
    exact .cons start (.cons rfl behind)
  next => exact plain

private theorem noBlank_plain (n : Nat) (scale : Int) : NoBlank (plain n scale) := by
  unfold plain
  split
  next =>
    refine .append (.of_digits (plain_digitsOfNat n)) fun c zero => ?_
    rw [List.eq_of_mem_replicate zero]
    rfl
  next =>
    have digits : NoBlank (padded (scale.toNat + 1) n) := .of_digits fun _ member => isDigit_of_mem_padded member
    exact .append (fun c member => digits c (List.mem_of_mem_take member))
      (.cons rfl fun c member => digits c (List.mem_of_mem_drop member))

theorem noBlank_toText (d : Decimal) : NoBlank d.toText := by
  have digits : NoBlank (digitsOfNat d.digits.natAbs) := .of_digits (plain_digitsOfNat _)
  simp only [toText]
  generalize (if d.isZero = true then 0 else d.scale) = scale
  refine .append ?_ ?_
  · unfold signText
    split
    next => exact .cons rfl nofun
    next => nofun
  · split
    next => exact .append (noBlank_pointAfterFirst digits) (.cons rfl (noBlank_exponentText _))
    next =>
      split
      next => exact .append digits (.cons rfl (noBlank_exponentText _))
      next => exact noBlank_plain _ _

end Writing

end ReportEngine.Decimal
