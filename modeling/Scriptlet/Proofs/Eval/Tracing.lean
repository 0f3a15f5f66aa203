import Scriptlet.Proofs.Eval.Origins

/-!
# Tracing follows evaluation

Tracing an evaluation changes neither what it ends with nor what it does to the store, and it keeps
the record sound. A value that is passed on keeps its origin, an operator comes to a value that
needs none, and only a literal creates a function.
-/

namespace Scriptlet

/-- The value with its origin forgotten is this one, and the origin is as recorded. -/
structure Marked.Marks (trace : Trace) (marked : Marked) (value : Value) : Prop where
  value_eq : marked.value = value
  stems : marked.Stems trace

theorem Marked.marks_null (trace : Trace) : Marked.Marks trace ⟨.null, none⟩ .null :=
  ⟨rfl, rfl⟩

theorem Marked.map_value_of_marks {trace : Trace} {markeds : List Marked} {values : List Value}
    (marks : List.Forall₂ (Marked.Marks trace) markeds values) :
    markeds.map Marked.value = values ∧ ∀ marked ∈ markeds, marked.Stems trace := by
  induction marks with
  | nil => simp
  | cons first _ ih =>
      exact ⟨by simp [first.value_eq, ih.1], List.forall_mem_cons.2 ⟨first.stems, ih.2⟩⟩

/-- A traced evaluation does what the evaluation does, to the same store, and its record stays
sound. -/
def Traced.following : Traced.interpreter.Relation Eval.interpreter where
  Grows := Trace.Grows
  Fits trace store := trace.Sound ∧ trace.store = store
  Like := Marked.Marks
  Stands _ _ := Eq

/-- An expression that is no literal passes on a value that was there before. -/
theorem Traced.leave_of_noLiteral {trace : Trace} {node : Node} {marked : Marked}
    (sound : trace.Sound) (stems : marked.Stems trace) (noLiteral : node.isLiteral = false) :
    trace.Grows (Traced.interpreter.leave node marked trace) ∧
      (Traced.interpreter.leave node marked trace).Sound ∧
      (Traced.interpreter.leave node marked trace).store = trace.store := by
  cases node with
  | expr expr =>
      have grows := trace.grows_note expr marked
      refine ⟨grows, sound.note (stems.mono grows) (sound.id_lt stems) ?_, rfl⟩
      rintro token params body rfl
      cases noLiteral
  | stmt | block => exact ⟨.refl trace, sound, rfl⟩

theorem Traced.lawful_following : Traced.following.Lawful := by
  constructor
  case refl => exact Trace.Grows.refl
  case trans => exact Trace.Grows.trans
  case like_mono => exact fun marks grows => ⟨marks.value_eq, marks.stems.mono grows⟩
  case stands_mono => exact fun same _ => same
  case mayFail_mono => exact fun _ _ => trivial
  case plain => exact fun _ _ isPlain => ⟨rfl, Marked.stems_of_plain isPlain⟩
  case resembles =>
    rintro _ marked _ ⟨rfl, _⟩
    exact .refl _
  case child => exact fun same _ _ _ => same
  case visit => exact fun fits _ => ⟨.refl _, fits, fun _ _ => trivial⟩
  case leave =>
    rintro trace _ node marked _ ⟨sound, rfl⟩ ⟨_, stems⟩ noLiteral
    exact Traced.leave_of_noLiteral sound stems noLiteral
  case lookup =>
    rintro trace _ ident scope _ ⟨sound, rfl⟩ rfl
    simp only [Traced.interpreter, Eval.interpreter, ← trace.map_value_get?]
    cases found : trace.get? scope ident.name with
    | none => exact .none
    | some marked => exact .some ⟨rfl, sound.stems_get? found⟩
  case create =>
    rintro trace _ token params body scope _ ⟨sound, rfl⟩ rfl
    have created := sound.create token params body scope
    have found := (trace.newFunction params body scope).2.getElem?_note_self
      (.function token params body) (trace.newFunction params body scope).1
    have grows := (trace.newFunction params body scope).2.grows_note
      (.function token params body) (trace.newFunction params body scope).1
    exact ⟨fun number event => grows number event, ⟨created, rfl⟩, rfl, created.stems found⟩
  case bindName =>
    rintro trace _ token name expr scope _ marked _ ⟨sound, rfl⟩ rfl ⟨rfl, stems⟩
    exact ⟨.refl trace, sound.set stems scope name.name, rfl⟩
  case openInside =>
    rintro trace _ block scope _ ⟨sound, rfl⟩ rfl
    exact ⟨.refl trace, ⟨sound.push (Scope.stems_empty trace (some scope)), rfl⟩, fun _ _ => rfl⟩
  case openCall =>
    rintro trace _ marked _ closure closure' args values ⟨sound, rfl⟩ ⟨rfl, _⟩ isValue isValue'
      marks
    cases isValue.symm.trans isValue'
    rcases Marked.map_value_of_marks marks with ⟨rfl, stem⟩
    have empty := Scope.stems_empty trace (some closure.scope)
    exact ⟨.refl trace, ⟨sound.push (empty.bindAll stem), rfl⟩, fun _ _ => rfl⟩

/-- Settled by itself, a traced evaluation ends with the value that the evaluation ends with. -/
theorem Traced.settle_of_ends {trace : Trace} {traced : Traced Marked} {evaluation : Eval Value}
    (ends : Traced.following.Ends trace Marked.Marks (traced trace) (evaluation trace.store)) :
    (traced.settle trace).2.Sound ∧ trace.Grows (traced.settle trace).2 ∧
      evaluation.settle trace.store =
        ((traced.settle trace).1.map Marked.value, (traced.settle trace).2.store) ∧
      ∀ marked, (traced.settle trace).1 = .ok marked → marked.Stems (traced.settle trace).2 := by
  rw [Traced.settle, Eval.settle]
  generalize traced trace = ended at ends
  generalize evaluation trace.store = plainEnded at ends
  cases ends with
  | ok grows fits marks =>
      rcases fits with ⟨sound, rfl⟩
      rcases marks with ⟨rfl, stems⟩
      refine ⟨sound, grows, rfl, ?_⟩
      rintro _ ⟨⟩
      exact stems
  | returned grows fits marks =>
      rcases fits with ⟨sound, rfl⟩
      rcases marks with ⟨rfl, stems⟩
      refine ⟨sound, grows, rfl, ?_⟩
      rintro _ ⟨⟩
      exact stems
  | failed grows fits _ =>
      rcases fits with ⟨sound, rfl⟩
      refine ⟨sound, grows, rfl, ?_⟩
      rintro _ ⟨⟩
  | excused excused => exact absurd excused id

end Scriptlet
