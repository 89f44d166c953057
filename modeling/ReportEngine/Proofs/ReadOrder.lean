import ReportEngine.Proofs.Subtrees
import ReportEngine.Proofs.Tracing

/-! The order in which evaluation asks the row for fields. Fields are read by the references of the tree,
and these are told apart by numbering them from left to right: evaluation goes through increasing
numbers, so it comes to each reference at most once and never back to one on the left. -/

namespace ReportEngine

variable {context : Context} {fields : Fields}

namespace Traced

variable {α β : Type}

/-- The same run, with the fields it read under other indices. -/
def renamed (name : Nat → Nat) (traced : Traced α) : Traced α := ⟨traced.reads.map name, traced.result⟩

theorem renamed_ofExcept (name : Nat → Nat) (result : Except ExprError α) :
    (ofExcept result).renamed name = ofExcept result := rfl

theorem renamed_pure (name : Nat → Nat) (value : α) : (Traced.pure value).renamed name = .pure value := rfl

theorem renamed_bind (name : Nat → Nat) (traced : Traced α) (next : α → Traced β) :
    (traced.bind next).renamed name = (traced.renamed name).bind fun value => (next value).renamed name := by
  obtain ⟨reads, result⟩ := traced
  cases result with
  | error error => rfl
  | ok value => simp only [Traced.bind, renamed, List.map_append]

theorem renamed_convert (name : Nat → Nat) (traced : Traced Value) (kind : Kind) :
    (traced.convert kind).renamed name = (traced.renamed name).convert kind :=
  renamed_bind name traced _

theorem renamed_truth (name : Nat → Nat) (traced : Traced Value) :
    traced.truth.renamed name = (traced.renamed name).truth :=
  renamed_bind name traced _

/-- What a later evaluation reads comes after what the earlier one has read. -/
theorem bind_reads_sublist {traced : Traced α} {next : α → Traced β} {first later : List Nat}
    (head : traced.reads.Sublist first) (tail : ∀ value, (next value).reads.Sublist later) :
    (traced.bind next).reads.Sublist (first ++ later) := by
  cases outcome : traced.result with
  | error error =>
    rw [bind_of_error outcome]
    exact head.trans (List.sublist_append_left first later)
  | ok value =>
    rw [bind_of_ok outcome]
    exact head.append (tail value)

/-- Nothing is read by what only goes on with a value. -/
theorem bind_reads_sublist_of_silent {traced : Traced α} {next : α → Traced β} {first : List Nat}
    (head : traced.reads.Sublist first) (silent : ∀ value, (next value).reads = []) :
    (traced.bind next).reads.Sublist first := by
  have tail : ∀ value, (next value).reads.Sublist [] := fun value => (silent value) ▸ List.Sublist.refl []
  simpa only [List.append_nil] using bind_reads_sublist head tail

theorem convert_reads_sublist {traced : Traced Value} {first : List Nat} (head : traced.reads.Sublist first)
    (kind : Kind) : (traced.convert kind).reads.Sublist first :=
  bind_reads_sublist_of_silent head fun _ => rfl

theorem truth_reads_sublist {traced : Traced Value} {first : List Nat} (head : traced.reads.Sublist first) :
    traced.truth.reads.Sublist first :=
  bind_reads_sublist_of_silent head fun _ => rfl

end Traced

section References

def Expr.reference? : Expr → Option FieldRef
  | .field reference => some reference
  | _ => none

/-- The field references of a tree, depth first and from left to right. -/
def Expr.references (expr : Expr) : List FieldRef := expr.subtrees.filterMap Expr.reference?

def Branches.references (branches : Branches) : List FieldRef := branches.subtrees.filterMap Expr.reference?

variable {lhs rhs operand condition result consequent alternative : Expr} {others rest : Branches}

theorem Expr.references_binary (op : BinaryOp) (operandKind : Kind) (overflow : OverflowPolicy) :
    (binary op operandKind overflow lhs rhs).references = lhs.references ++ rhs.references :=
  List.filterMap_append

theorem Expr.references_unary (op : UnaryOp) (overflow : OverflowPolicy) :
    (unary op overflow operand).references = operand.references := rfl

theorem Expr.references_logical (op : LogicalOp) :
    (logical op lhs rhs).references = lhs.references ++ rhs.references :=
  List.filterMap_append

theorem Expr.references_switch : (switch condition result others).references =
    condition.references ++ (result.references ++ others.references) := by
  simp only [references, Branches.references, subtrees, List.filterMap_cons, reference?, List.filterMap_append]

theorem Expr.references_iif : (iif condition consequent alternative).references =
    condition.references ++ (consequent.references ++ alternative.references) := by
  simp only [references, subtrees, List.filterMap_cons, reference?, List.filterMap_append]

theorem Branches.references_cons : (Branches.cons condition result rest).references =
    condition.references ++ (result.references ++ rest.references) := by
  simp only [references, Expr.references, subtrees, List.filterMap_append]

end References

section Reads

open Traced

mutual

/-- Every read is made by a reference of the tree, and the reads come in the order of the references. -/
theorem Expr.reads_sublist : ∀ expr : Expr, (expr.eval context fields).reads.Sublist (expr.references.map FieldRef.index)
  | .constant _ | .parameter _ _ | .aggregate _ _ | .global _ => List.nil_sublist _
  | .field reference => List.Sublist.refl [reference.index]
  | .binary op operandKind _ lhs rhs => by
    rw [Expr.references_binary, List.map_append, Expr.eval]
    split
    · exact List.nil_sublist _
    · refine bind_reads_sublist (convert_reads_sublist lhs.reads_sublist _) fun left => ?_
      exact bind_reads_sublist_of_silent (convert_reads_sublist rhs.reads_sublist _) fun _ => rfl
  | .unary .not _ operand =>
    bind_reads_sublist_of_silent (convert_reads_sublist operand.reads_sublist _) fun _ => rfl
  | .unary .negate _ operand => by
    rw [Expr.references_unary, Expr.eval]
    split
    · exact bind_reads_sublist_of_silent (convert_reads_sublist operand.reads_sublist _) fun _ => rfl
    · exact List.nil_sublist _
  | .logical op lhs rhs => by
    rw [Expr.references_logical, List.map_append]
    refine bind_reads_sublist (truth_reads_sublist lhs.reads_sublist) fun left => ?_
    split
    · exact List.nil_sublist _
    · exact bind_reads_sublist_of_silent (truth_reads_sublist rhs.reads_sublist) fun _ => rfl
  | .switch condition result others => by
    rw [Expr.references_switch, List.map_append, List.map_append]
    refine bind_reads_sublist (truth_reads_sublist condition.reads_sublist) fun matched => ?_
    split
    · exact result.reads_sublist.trans (List.sublist_append_left _ _)
    · exact (others.reads_sublist _).trans (List.sublist_append_right _ _)
  | .iif condition consequent alternative => by
    rw [Expr.references_iif, List.map_append, List.map_append]
    refine bind_reads_sublist (truth_reads_sublist condition.reads_sublist) fun chosen => ?_
    split
    · exact consequent.reads_sublist.trans (List.sublist_append_left _ _)
    · refine List.Sublist.trans ?_ (List.sublist_append_right _ _)
      split
      · exact alternative.reads_sublist
      · exact convert_reads_sublist alternative.reads_sublist _
  | .convert inner kind => convert_reads_sublist inner.reads_sublist kind

theorem Branches.reads_sublist : ∀ (branches : Branches) (kind : Kind),
    (branches.eval context fields kind).reads.Sublist (branches.references.map FieldRef.index)
  | .nil, _ => List.nil_sublist _
  | .cons condition result rest, kind => by
    rw [Branches.references_cons, List.map_append, List.map_append]
    refine bind_reads_sublist (truth_reads_sublist condition.reads_sublist) fun matched => ?_
    split
    · refine List.Sublist.trans ?_ (List.sublist_append_left _ _)
      split
      · exact result.reads_sublist
      · exact convert_reads_sublist result.reads_sublist _
    · exact (rest.reads_sublist _).trans (List.sublist_append_right _ _)

end

end Reads

section Numbering

mutual

/-- The tree with its references numbered from left to right, where each had the index of its field. -/
def Expr.numberedFrom : Nat → Expr → Expr
  | start, .binary op operandKind overflow lhs rhs =>
    .binary op operandKind overflow (lhs.numberedFrom start) (rhs.numberedFrom (start + lhs.references.length))
  | start, .unary op overflow operand => .unary op overflow (operand.numberedFrom start)
  | start, .logical op lhs rhs =>
    .logical op (lhs.numberedFrom start) (rhs.numberedFrom (start + lhs.references.length))
  | start, .switch condition result others =>
    .switch (condition.numberedFrom start) (result.numberedFrom (start + condition.references.length))
      (others.numberedFrom (start + condition.references.length + result.references.length))
  | start, .iif condition consequent alternative =>
    .iif (condition.numberedFrom start) (consequent.numberedFrom (start + condition.references.length))
      (alternative.numberedFrom (start + condition.references.length + consequent.references.length))
  | start, .convert inner kind => .convert (inner.numberedFrom start) kind
  | start, .field reference => .field { reference with index := start }
  | _, .constant value => .constant value
  | _, .parameter name kind => .parameter name kind
  | _, .aggregate name kind => .aggregate name kind
  | _, .global which => .global which

def Branches.numberedFrom : Nat → Branches → Branches
  | _, .nil => .nil
  | start, .cons condition result rest =>
    .cons (condition.numberedFrom start) (result.numberedFrom (start + condition.references.length))
      (rest.numberedFrom (start + condition.references.length + result.references.length))

end

theorem Expr.kind_numberedFrom : ∀ (expr : Expr) (start : Nat), (expr.numberedFrom start).kind = expr.kind
  | .unary _ _ operand, start => operand.kind_numberedFrom start
  | .switch condition result _, start => result.kind_numberedFrom (start + condition.references.length)
  | .iif condition consequent _, start => consequent.kind_numberedFrom (start + condition.references.length)
  | .binary .., _ | .logical .., _ | .convert .., _ | .field _, _ | .constant _, _ | .parameter .., _
  | .aggregate .., _ | .global _, _ => rfl

mutual

/-- The references of the numbered tree are its numbers, in order. -/
theorem Expr.indices_numberedFrom : ∀ (expr : Expr) (start : Nat),
    (expr.numberedFrom start).references.map FieldRef.index = List.range' start expr.references.length
  | .binary _ _ _ lhs rhs, start => by
    simp only [Expr.numberedFrom, Expr.references_binary, List.map_append, List.length_append,
      ← List.range'_append_1, lhs.indices_numberedFrom, rhs.indices_numberedFrom]
  | .logical _ lhs rhs, start => by
    simp only [Expr.numberedFrom, Expr.references_logical, List.map_append, List.length_append,
      ← List.range'_append_1, lhs.indices_numberedFrom, rhs.indices_numberedFrom]
  | .switch condition result others, start => by
    simp only [Expr.numberedFrom, Expr.references_switch, List.map_append, List.length_append,
      ← List.range'_append_1, condition.indices_numberedFrom, result.indices_numberedFrom,
      others.indices_numberedFrom]
  | .iif condition consequent alternative, start => by
    simp only [Expr.numberedFrom, Expr.references_iif, List.map_append, List.length_append,
      ← List.range'_append_1, condition.indices_numberedFrom, consequent.indices_numberedFrom,
      alternative.indices_numberedFrom]
  | .unary _ _ inner, start | .convert inner _, start => inner.indices_numberedFrom start
  | .field _, _ | .constant _, _ | .parameter .., _ | .aggregate .., _ | .global _, _ => rfl

theorem Branches.indices_numberedFrom : ∀ (branches : Branches) (start : Nat),
    (branches.numberedFrom start).references.map FieldRef.index = List.range' start branches.references.length
  | .nil, _ => rfl
  | .cons condition result rest, start => by
    simp only [Branches.numberedFrom, Branches.references_cons, List.map_append, List.length_append,
      ← List.range'_append_1, condition.indices_numberedFrom, result.indices_numberedFrom,
      rest.indices_numberedFrom]

end

/-- Gives every number from `start` on the index of the reference it stands for. -/
def Names (name : Nat → Nat) (start : Nat) (references : List FieldRef) : Prop :=
  (List.range' start references.length).map name = references.map FieldRef.index

theorem Names.parts {name : Nat → Nat} {start : Nat} {first later : List FieldRef}
    (names : Names name start (first ++ later)) :
    Names name start first ∧ Names name (start + first.length) later := by
  rw [Names, List.length_append, ← List.range'_append_1, List.map_append, List.map_append] at names
  exact List.append_inj names (by simp)

mutual

/-- Numbering a tree changes nothing but the indices that are read. The row is asked for numbers instead,
and answers each for the field that the number is the name of. -/
theorem Expr.eval_numberedFrom {name : Nat → Nat} : ∀ (expr : Expr) {start : Nat}, Names name start expr.references →
    ((expr.numberedFrom start).eval context (fields ∘ name)).renamed name = expr.eval context fields
  | .field reference, start, names => by
    have here : name start = reference.index := (List.cons.inj names).1
    simp only [Expr.numberedFrom, Expr.eval, Traced.read, Traced.renamed, Function.comp_apply, here, List.map_cons,
      List.map_nil]
  | .binary op operandKind _ lhs rhs, start, names => by
    obtain ⟨left, right⟩ := Names.parts (Expr.references_binary .. ▸ names)
    simp only [Expr.numberedFrom, Expr.eval, apply_ite (Traced.renamed name), Traced.renamed_bind,
      Traced.renamed_convert, Traced.renamed_ofExcept, lhs.eval_numberedFrom left, rhs.eval_numberedFrom right]
  | .unary op _ operand, start, names => by
    cases op <;> simp only [Expr.numberedFrom, Expr.eval, Expr.kind_numberedFrom, apply_ite (Traced.renamed name),
      Traced.renamed_bind, Traced.renamed_convert, Traced.renamed_ofExcept, operand.eval_numberedFrom names]
  | .logical op lhs rhs, start, names => by
    obtain ⟨left, right⟩ := Names.parts (Expr.references_logical .. ▸ names)
    simp only [Expr.numberedFrom, Expr.eval, apply_ite (Traced.renamed name), Traced.renamed_bind,
      Traced.renamed_truth, Traced.renamed_pure, lhs.eval_numberedFrom left, rhs.eval_numberedFrom right]
  | .switch condition result others, start, names => by
    obtain ⟨test, names⟩ := Names.parts (Expr.references_switch ▸ names)
    obtain ⟨first, later⟩ := Names.parts names
    simp only [Expr.numberedFrom, Expr.eval, Expr.kind_numberedFrom, apply_ite (Traced.renamed name),
      Traced.renamed_bind, Traced.renamed_truth, condition.eval_numberedFrom test, result.eval_numberedFrom first,
      others.eval_numberedFrom later]
  | .iif condition consequent alternative, start, names => by
    obtain ⟨test, names⟩ := Names.parts (Expr.references_iif ▸ names)
    obtain ⟨first, second⟩ := Names.parts names
    simp only [Expr.numberedFrom, Expr.eval, Expr.kind_numberedFrom, apply_ite (Traced.renamed name),
      Traced.renamed_bind, Traced.renamed_truth, Traced.renamed_convert, condition.eval_numberedFrom test,
      consequent.eval_numberedFrom first, alternative.eval_numberedFrom second]
  | .convert inner kind, start, names => by
    simp only [Expr.numberedFrom, Expr.eval, Traced.renamed_convert, inner.eval_numberedFrom names]
  | .constant _, _, _ | .parameter .., _, _ | .aggregate .., _, _ | .global _, _, _ => rfl

theorem Branches.eval_numberedFrom {name : Nat → Nat} : ∀ (branches : Branches) {start : Nat} {kind : Kind},
    Names name start branches.references →
    ((branches.numberedFrom start).eval context (fields ∘ name) kind).renamed name = branches.eval context fields kind
  | .nil, _, _, _ => rfl
  | .cons condition result rest, start, kind, names => by
    obtain ⟨test, names⟩ := Names.parts (Branches.references_cons ▸ names)
    obtain ⟨first, later⟩ := Names.parts names
    simp only [Branches.numberedFrom, Branches.eval, Expr.kind_numberedFrom, apply_ite (Traced.renamed name),
      Traced.renamed_bind, Traced.renamed_truth, Traced.renamed_convert, condition.eval_numberedFrom test,
      result.eval_numberedFrom first, rest.eval_numberedFrom later]

end

end Numbering

namespace Expr

/-- The tree in which each reference has its own position among the references as its index. -/
def numbered (expr : Expr) : Expr := expr.numberedFrom 0

/-- The field that the reference at a position stands for. -/
def indexAt (expr : Expr) (position : Nat) : Nat := (expr.references.map FieldRef.index).getD position 0

/-- The positions of the references that evaluation comes to, in the order it comes to them. -/
def visits (context : Context) (fields : Fields) (expr : Expr) : List Nat :=
  (expr.numbered.eval context (fields ∘ expr.indexAt)).reads

theorem map_indexAt (expr : Expr) :
    (List.range expr.references.length).map expr.indexAt = expr.references.map FieldRef.index := by
  refine List.ext_getElem (by simp) fun position inside _ => ?_
  rw [List.getElem_map, List.getElem_range, indexAt, List.getD_eq_getElem?_getD,
    List.getElem?_eq_getElem (by assumption), Option.getD_some]

/-- The numbered tree is evaluated alike, once its row answers for the fields the numbers stand for. -/
theorem eval_numbered (expr : Expr) (context : Context) (fields : Fields) :
    (expr.numbered.eval context (fields ∘ expr.indexAt)).renamed expr.indexAt = expr.eval context fields := by
  refine expr.eval_numberedFrom ?_
  rw [Names, ← List.range_eq_range']
  exact expr.map_indexAt

theorem visits_sublist (expr : Expr) (context : Context) (fields : Fields) :
    (expr.visits context fields).Sublist (List.range expr.references.length) := by
  have positions : expr.numbered.references.map FieldRef.index = List.range expr.references.length := by
    rw [numbered, indices_numberedFrom, List.range_eq_range']
  rw [← positions]
  exact expr.numbered.reads_sublist

/-- Evaluation asks for the fields of the references it comes to, which it does from left to right and at
most once for each. -/
theorem reads_in_order (expr : Expr) (context : Context) (fields : Fields) :
    (expr.eval context fields).reads.Sublist (expr.references.map FieldRef.index) ∧
    (expr.numbered.eval context (fields ∘ expr.indexAt)).renamed expr.indexAt = expr.eval context fields ∧
    (expr.visits context fields).Sublist (List.range expr.references.length) :=
  ⟨expr.reads_sublist, expr.eval_numbered context fields, expr.visits_sublist context fields⟩

/-- A column added to itself is read for each of its two references. -/
example :
    let twice := binary (.arithmetic .add) .int32 .wrap (field ⟨3, "x", .int32⟩) (field ⟨3, "x", .int32⟩)
    (twice.eval .detached fun _ => some (.int32 7)).reads = [3, 3] ∧
      (twice.visits .detached fun _ => some (.int32 7)) = [0, 1] :=
  ⟨rfl, rfl⟩

end Expr

end ReportEngine
