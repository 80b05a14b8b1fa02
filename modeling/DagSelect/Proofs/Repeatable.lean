/-
Module: DagSelect.Proofs.Repeatable
Purpose: A context only grows, and a type keeps its number. So an answer that was given once is
  given again by whatever the context has grown to, without making anything more; and a name that
  was read can be read again at any later time, as the same type.
Main exports: Repeatable, Repeatable.bind, Repeatable.mapM_eq_ok,
  TypeContext.internInteger_repeatable, TypeContext.internVector_repeatable,
  ValueType.ofChars_repeatable
-/
import DagSelect.Proofs.TypeNames

namespace DagSelect

/-- A computation that only lets the context grow, and that gives the same result again in whatever
the context has grown to, without making anything more. -/
def Repeatable {ε α : Type} (action : EStateM ε TypeContext α) : Prop :=
  ∀ context a later, action.run context = .ok a later → context.Grows later ∧
    ∀ final, later.Grows final → action.run final = .ok a final

namespace Repeatable

variable {ε α β : Type}

theorem pure (a : α) : Repeatable (Pure.pure a : EStateM ε TypeContext α) := by
  rintro context _ _ ⟨⟩
  exact ⟨.refl context, fun _ _ => rfl⟩

theorem throw (cause : ε) : Repeatable (MonadExcept.throw cause : EStateM ε TypeContext α) := by
  rintro _ _ _ ⟨⟩

theorem bind {first : EStateM ε TypeContext α} {next : α → EStateM ε TypeContext β}
    (begins : Repeatable first) (continues : ∀ a, Repeatable (next a)) :
    Repeatable (first >>= next) := by
  intro context b later run
  obtain ⟨a, middle, firstRun, nextRun⟩ := run_bind_eq_ok.mp run
  obtain ⟨firstGrows, firstAgain⟩ := begins context a middle firstRun
  obtain ⟨nextGrows, nextAgain⟩ := continues a middle b later nextRun
  refine ⟨firstGrows.trans nextGrows, fun final grows => ?_⟩
  have again := firstAgain final (nextGrows.trans grows)
  exact run_bind_eq_ok.mpr ⟨a, final, again, nextAgain final grows⟩

theorem refuse {refused : Prop} [Decidable refused] {cause : ε}
    {next : PUnit → EStateM ε TypeContext α} {rest : EStateM ε TypeContext α}
    (repeatable : Repeatable rest) :
    Repeatable (if refused then MonadExcept.throw cause >>= next else rest) := by
  intro context a later run
  obtain ⟨passed, run⟩ := run_refuse_eq_ok.mp run
  obtain ⟨grows, again⟩ := repeatable context a later run
  exact ⟨grows, fun final more => run_refuse_eq_ok.mpr ⟨passed, again final more⟩⟩

theorem adaptExcept {ε' : Type} {action : EStateM ε TypeContext α} (change : ε → ε')
    (repeatable : Repeatable action) : Repeatable (EStateM.adaptExcept change action) := by
  intro context a later run
  obtain ⟨grows, again⟩ := repeatable context a later (run_adaptExcept_eq_ok.mp run)
  exact ⟨grows, fun final more => run_adaptExcept_eq_ok.mpr (again final more)⟩

/-- A traversal gives, piece by piece, what reading the piece gives in the end. -/
theorem mapM_eq_ok {step : α → EStateM ε TypeContext β} (repeatable : ∀ a, Repeatable (step a))
    {inputs : List α} {outputs : List β} {context later : TypeContext}
    (run : (inputs.mapM step).run context = .ok outputs later) :
    context.Grows later ∧ ∀ final, later.Grows final →
      List.Forall₂ (fun a b => (step a).run final = .ok b final) inputs outputs := by
  induction inputs generalizing context outputs with
  | nil =>
      cases run
      exact ⟨.refl _, fun _ _ => .nil⟩
  | cons input rest inductionHypothesis =>
      rw [List.mapM_cons] at run
      simp only [run_bind_eq_ok] at run
      obtain ⟨first, middle, firstRun, others, _, othersRun, result⟩ := run
      cases result
      obtain ⟨firstGrows, firstAgain⟩ := repeatable input _ _ _ firstRun
      obtain ⟨othersGrow, othersAgain⟩ := inductionHypothesis othersRun
      refine ⟨firstGrows.trans othersGrow, fun final more => ?_⟩
      exact .cons (firstAgain final (othersGrow.trans more)) (othersAgain final more)

end Repeatable

/-! ### Types -/

namespace TypeContext

theorem internInteger_repeatable (bits : Nat) : Repeatable (internInteger bits) := by
  intro context type later made
  have interns := (internInteger_ends bits context).of_ok made
  refine ⟨interns.grows, fun final more => ?_⟩
  rw [internInteger_of_getElem? (more.getElem? interns.there), more.owner, interns.grows.owner,
    ← interns.owner, ← interns.isForm]

theorem internVector_repeatable (key : ElementKey) (count : Nat) :
    Repeatable (internVector key count) := by
  intro context type later made
  -- Whatever the element is, the vector has been asked for as a form when its element was there.
  obtain ⟨middle, element, sameKey, middleGrows, interns⟩ :
      ∃ (middle : TypeContext) (element : ElementType), element.key = key ∧
        context.Grows middle ∧ middle.Interns (.vector element count) type later := by
    cases key with
    | simple entry =>
        exact ⟨context, .simple entry, rfl, .refl context,
          (internVector_simple_ends entry count context).of_ok made⟩
    | integer bits =>
        obtain ⟨integer, middle, integerInterns, interns⟩ :=
          (internVector_integer_ends bits count context).of_ok made
        exact ⟨middle, .integer integer.id bits, rfl, integerInterns.grows, interns⟩
  refine ⟨middleGrows.trans interns.grows, fun final more => ?_⟩
  rw [← sameKey, internVector_of_getElem? (more.getElem? interns.there), more.owner,
    interns.grows.owner, ← interns.owner, ← interns.isForm]

theorem integerType_repeatable (bits : Nat) : Repeatable (integerType bits) := by
  unfold integerType
  exact .refuse (.refuse (internInteger_repeatable _))

theorem vectorType_repeatable (element : ValueType) (count : Nat) :
    Repeatable (vectorType element count) := by
  unfold vectorType
  apply Repeatable.refuse
  split
  · exact .refuse (.refuse (internVector_repeatable _ _))
  · exact .refuse (internVector_repeatable _ _)
  · exact .throw _

end TypeContext

namespace ValueType

theorem integer_repeatable (bits : Nat) : Repeatable (integer bits) := by
  unfold integer
  split
  · exact .pure _
  · exact .bind (TypeContext.integerType_repeatable bits) fun _ => .pure _

theorem vector_repeatable (element : ValueType) (count : Nat) :
    Repeatable (vector element count) := by
  unfold vector
  split
  · exact .pure _
  · exact .bind (TypeContext.vectorType_repeatable element count) fun _ => .pure _

/-- A name that was read is read again as the same type, in whatever the context has grown to. -/
theorem ofChars_repeatable (text : List Char) : Repeatable (ofChars text) := by
  -- The name of an element is shorter than that of the vector.
  induction size : text.length using Nat.strongRecOn generalizing text with
  | _ size inductionHypothesis =>
      unfold ofChars
      split
      · exact .pure _
      · split
        · split
          · split
            · exact .bind (integer_repeatable _) fun _ => .pure _
            · exact .pure _
          · exact .pure _
        · rename_i rest
          split
          · exact .pure _
          · refine .bind (inductionHypothesis _ ?_ _ rfl) fun element => ?_
            · rw [← size, List.length_cons]
              exact Nat.lt_succ_of_le (List.dropWhile_sublist _).length_le
            · split
              · exact .pure _
              · split
                · exact .pure _
                · exact .bind (vector_repeatable _ _) fun _ => .pure _
        · exact .pure _

end ValueType

end DagSelect
