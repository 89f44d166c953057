import ReportEngine.Text.Digits

/-! White space as the Unicode property `White_Space` lists it, and trimming by it. -/

namespace ReportEngine.Text

/-- Membership in the Unicode property `White_Space`. -/
def isBlank (c : Char) : Bool :=
  let code := c.toNat
  (9 ≤ code && code ≤ 13) || code == 0x20 || code == 0x85 || code == 0xA0 || code == 0x1680 ||
    (0x2000 ≤ code && code ≤ 0x200A) || code == 0x2028 || code == 0x2029 || code == 0x202F ||
    code == 0x205F || code == 0x3000

def trimStart (text : List Char) : List Char := text.dropWhile isBlank

def trimEnd (text : List Char) : List Char := (text.reverse.dropWhile isBlank).reverse

def trim (text : List Char) : List Char := trimEnd (trimStart text)

theorem isBlank_of_isDigit {c : Char} (digit : c.isDigit = true) : isBlank c = false := by
  have lower : 48 ≤ c.toNat := (Char.isDigit_iff_toNat.mp digit).1
  have upper : c.toNat ≤ 57 := (Char.isDigit_iff_toNat.mp digit).2
  simp only [isBlank, Bool.or_eq_false_iff, Bool.and_eq_false_iff, decide_eq_false_iff_not, beq_eq_false_iff_ne]
  omega

theorem trimStart_of_head? {text : List Char} (plain : ∀ c, text.head? = some c → isBlank c = false) :
    trimStart text = text := by
  cases text with
  | nil => rfl
  | cons c rest => exact List.dropWhile_cons_of_neg (by rw [plain c rfl]; exact Bool.false_ne_true)

def NoBlank (text : List Char) : Prop := ∀ c ∈ text, isBlank c = false

namespace NoBlank

theorem append {left right : List Char} (first : NoBlank left) (second : NoBlank right) : NoBlank (left ++ right) :=
  List.forall_mem_append.mpr ⟨first, second⟩

theorem cons {c : Char} {rest : List Char} (first : isBlank c = false) (second : NoBlank rest) : NoBlank (c :: rest) :=
  List.forall_mem_cons.mpr ⟨first, second⟩

theorem of_digits {text : List Char} (digits : ∀ c ∈ text, c.isDigit = true) : NoBlank text :=
  fun c member => isBlank_of_isDigit (digits c member)

theorem digitsOfInt (n : Int) : NoBlank (digitsOfInt n) := by
  rw [digitsOfInt_eq]
  refine .append ?_ (.of_digits fun _ member => isDigit_of_mem_digitsOfNat member)
  split
  next => exact .cons rfl nofun
  next => nofun

theorem trim_eq {text : List Char} (plain : NoBlank text) : trim text = text := by
  have turned : text.reverse.dropWhile isBlank = text.reverse :=
    trimStart_of_head? fun c last => plain c (List.mem_reverse.mp (List.mem_of_head? last))
  rw [trim, trimStart_of_head? fun c first => plain c (List.mem_of_head? first), trimEnd, turned, List.reverse_reverse]

end NoBlank

def eqIgnoringCase (left right : List Char) : Bool :=
  left.map Char.toLower == right.map Char.toLower

end ReportEngine.Text
