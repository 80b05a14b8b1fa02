/-
Module: DagSelect.Proofs.TypeNames
Purpose: Types and their names. Every type that is read is canonical: an entry of the enumeration, or
  an integer or a vector that no entry describes. The name of a canonical type is read back in any
  context, as a type with the same name and width. Two contexts number their types apart, so it need
  not be the same type.
Main exports: ElementType.Canonical, ValueType.Canonical, ValueType.ofChars_induction,
  ValueType.canonical_of_ofChars, ValueType.Alike, ValueType.Canonical.exists_ofChars
-/
import DagSelect.Proofs.Computation
import DagSelect.Proofs.Meaning
import DagSelect.Proofs.Registry
import DagSelect.Proofs.Text
import DagSelect.ValueType.Read

namespace DagSelect

/-! ### Canonical types -/

/-- An element as reading makes it: a sized scalar entry, or an integer that is no entry. -/
inductive ElementType.Canonical : ElementType → Prop
  | simple {type : SimpleType} (sized : type.isSized = true) (scalar : type.isVector = false) :
      Canonical (.simple type)
  | integer {id bits : Nat} (positive : 1 ≤ bits) (bounded : bits ≤ maxIntegerBits)
      (isNew : SimpleType.integer? bits = none) : Canonical (.integer id bits)

/-- A type as reading makes it. -/
inductive ValueType.Canonical : ValueType → Prop
  | simple (type : SimpleType) : Canonical (.simple type)
  | integer {owner id bits : Nat} (positive : 1 ≤ bits) (bounded : bits ≤ maxIntegerBits)
      (isNew : SimpleType.integer? bits = none) : Canonical (.extended ⟨owner, id, .integer bits⟩)
  | vector {owner id count : Nat} {element : ElementType} (canonical : element.Canonical)
      (inhabited : count ≠ 0) (fits : element.bits * count < widthBound)
      (isNew : ∀ type, element = .simple type → SimpleType.vector? type count = none) :
      Canonical (.extended ⟨owner, id, .vector element count⟩)

namespace TypeContext

variable {context context' : TypeContext} {type : ExtendedType}

theorem form_of_integerType {bits : Nat}
    (made : (integerType bits).run context = .ok type context') :
    type.form = .integer bits ∧ 1 ≤ bits ∧ bits ≤ maxIntegerBits := by
  simp only [integerType, run_refuse_eq_ok] at made
  obtain ⟨positive, bounded, made⟩ := made
  have interns := (internInteger_ends bits context).of_ok made
  exact ⟨interns.isForm, Nat.one_le_iff_ne_zero.mpr positive, Nat.not_lt.mp bounded⟩

theorem exists_integerType {bits : Nat} (positive : 1 ≤ bits) (bounded : bits ≤ maxIntegerBits)
    (context : TypeContext) :
    ∃ owner id context',
      (integerType bits).run context = .ok ⟨owner, id, .integer bits⟩ context' := by
  simp only [integerType, run_refuse_eq_ok]
  obtain ⟨⟨owner, id, _⟩, context', made, interns⟩ := (internInteger_ends bits context).exists_ok
  cases interns.isForm
  exact ⟨owner, id, context', Nat.one_le_iff_ne_zero.mp positive, Nat.not_lt.mpr bounded, made⟩

end TypeContext

namespace SimpleType

theorem mem_all (type : SimpleType) : type ∈ all := by
  cases type <;> decide

theorem ofName?_name (type : SimpleType) : ofName? type.name = some type := by
  have entries : ∀ type ∈ all, ofName? type.name = some type := by decide +kernel
  exact entries type type.mem_all

theorem name_of_ofName? {text : String} {type : SimpleType} (found : ofName? text = some type) :
    type.name = text := by
  unfold ofName? at found
  have here := List.find?_some found
  exact beq_iff_eq.mp here

/-- An entry with the name of an integer is the integer. -/
theorem integer?_of_name {type : SimpleType} {bits : Nat}
    (name : type.name.toList = 'i' :: Nat.toDigits 10 bits) : integer? bits = some type := by
  have entries : ∀ type ∈ all, ((Text.stripLeading? 'i' type.name.toList).all fun digits =>
      (Text.readDigits? digits).all fun bits => integer? bits == some type) = true := by
    decide +kernel
  have own := entries type type.mem_all
  rw [Text.stripLeading?_eq_some_iff.mpr name] at own
  simpa [Text.readDigits?_toDigits] using own

/-- An entry with the name of a vector is the vector of an entry. -/
theorem vector?_of_name {type : SimpleType} {count : Nat} {element : List Char}
    (letter : ∀ c ∈ element.head?, c.isDigit = false)
    (name : type.name.toList = 'v' :: (Nat.toDigits 10 count ++ element)) :
    ∃ inner, ofName? (String.ofList element) = some inner ∧ vector? inner count = some type := by
  have entries : ∀ type ∈ all, ((Text.stripLeading? 'v' type.name.toList).all fun rest =>
      (Text.readDigits? (rest.takeWhile Char.isDigit)).all fun count =>
        (ofName? (String.ofList (rest.dropWhile Char.isDigit))).any fun inner =>
          vector? inner count == some type) = true := by decide +kernel
  have own := entries type type.mem_all
  rw [Text.stripLeading?_eq_some_iff.mpr name] at own
  simp only [Text.takeWhile_append_stop (fun _ => Text.isDigit_of_mem_toDigits) letter,
    Text.dropWhile_append_stop (fun _ => Text.isDigit_of_mem_toDigits) letter,
    Text.readDigits?_toDigits, Option.all_some, Option.any_eq_true, beq_iff_eq] at own
  exact own

theorem word_name (type : SimpleType) : Text.Word type.name.toList := by
  have entries : ∀ type ∈ all, Text.Word type.name.toList := by decide +kernel
  exact entries type type.mem_all

theorem letter_name (type : SimpleType) : ∀ c ∈ type.name.toList.head?, c.isDigit = false := by
  have entries : ∀ type ∈ all, type.name.toList.head?.all (fun c => !c.isDigit) = true := by
    decide +kernel
  intro c first
  have own := entries type type.mem_all
  rw [Option.mem_def.mp first] at own
  simpa using own

theorem bits?_of_scalar {type : SimpleType} (sized : type.isSized = true)
    (scalar : type.isVector = false) : type.bits? = some type.scalarBits := by
  cases form : type.form with
  | integer bits => simp [bits?, scalarBits, form]
  | float bits => simp [bits?, scalarBits, form]
  | vector element count => simp [isVector, form] at scalar
  | special => simp [isSized, bits?, form] at sized
  | overloaded => simp [isSized, bits?, form] at sized

end SimpleType

namespace ElementType

theorem Canonical.positive {element : ElementType} (canonical : element.Canonical) :
    0 < element.bits := by
  cases canonical with
  | @simple type sized scalar =>
      have entries : ∀ type ∈ SimpleType.all, type.isSized = true → type.isVector = false →
          0 < type.scalarBits := by decide
      exact entries type type.mem_all sized scalar
  | integer positive _ _ => exact positive

/-- The type that the element of a vector has on its own, in any context. -/
inductive StandsFor : ElementType → ValueType → Prop
  | simple (type : SimpleType) : StandsFor (.simple type) (.simple type)
  | integer (id bits owner other : Nat) :
      StandsFor (.integer id bits) (.extended ⟨owner, other, .integer bits⟩)

/-- As an element, the type is no vector and has the width of the element. -/
theorem StandsFor.scalar {element : ElementType} {inner : ValueType}
    (stands : element.StandsFor inner) (canonical : element.Canonical) :
    inner.isVector = false ∧ inner.bits? = some element.bits := by
  cases stands with
  | simple type =>
      cases canonical with
      | simple sized scalar => exact ⟨scalar, SimpleType.bits?_of_scalar sized scalar⟩
  | integer => exact ⟨rfl, rfl⟩

theorem toList_name_integer (id bits : Nat) :
    (integer id bits).name.toList = 'i' :: Nat.toDigits 10 bits := by
  change ("i" ++ toString bits).toList = _
  rw [String.toList_append, Text.toList_toString_nat]
  rfl

theorem word_name (element : ElementType) : Text.Word element.name.toList := by
  cases element with
  | simple type => exact type.word_name
  | integer id bits =>
      rw [toList_name_integer]
      exact Text.word_cons (by decide) (Text.word_toDigits bits)

theorem letter_name (element : ElementType) :
    ∀ c ∈ element.name.toList.head?, c.isDigit = false := by
  cases element with
  | simple type => exact type.letter_name
  | integer id bits =>
      rw [toList_name_integer]
      rintro _ ⟨⟩
      decide

end ElementType

namespace ValueType

/-! ### What is read is canonical -/

theorem canonical_of_integer {bits : Nat} {context context' : TypeContext} {type : ValueType}
    (made : (integer bits).run context = .ok type context') : type.Canonical := by
  unfold integer at made
  split at made
  · cases made
    exact .simple _
  · rename_i isNew
    obtain ⟨⟨owner, id, form⟩, _, interned, result⟩ := run_bind_eq_ok.mp made
    cases result
    obtain ⟨rfl, positive, bounded⟩ := TypeContext.form_of_integerType interned
    exact .integer positive bounded isNew

theorem canonical_of_vector {element : ValueType} {count : Nat} {context context' : TypeContext}
    {type : ValueType} (canonical : element.Canonical)
    (made : (vector element count).run context = .ok type context') : type.Canonical := by
  unfold vector at made
  split at made
  · cases made
    exact .simple _
  · rename_i isNew
    obtain ⟨⟨owner, id, form⟩, _, interned, result⟩ := run_bind_eq_ok.mp made
    cases result
    simp only [TypeContext.vectorType, run_refuse_eq_ok] at interned
    obtain ⟨inhabited, interned⟩ := interned
    cases canonical with
    | simple inner =>
        simp only [run_refuse_eq_ok, Bool.not_eq_true', Bool.or_eq_true, not_or,
          Bool.not_eq_false, Bool.not_eq_true] at interned
        obtain ⟨⟨sized, scalar⟩, fits, interned⟩ := interned
        cases ((TypeContext.internVector_simple_ends inner count context).of_ok interned).isForm
        simp only [TypeContext.fitsVector, bits?, SimpleType.bits?_of_scalar sized scalar,
          decide_eq_true_eq] at fits
        refine .vector (.simple sized scalar) inhabited fits ?_
        rintro _ ⟨⟩
        exact isNew
    | @integer _ _ bits positive bounded innerNew =>
        simp only [run_refuse_eq_ok, Bool.not_eq_true', Bool.not_eq_false] at interned
        obtain ⟨fits, interned⟩ := interned
        obtain ⟨_, _, _, interns⟩ :=
          (TypeContext.internVector_integer_ends bits count context).of_ok interned
        cases interns.isForm
        simp only [TypeContext.fitsVector, bits?, decide_eq_true_eq] at fits
        refine .vector (.integer positive bounded innerNew) inhabited fits ?_
        rintro _ ⟨⟩
    | vector => cases interned

/-- What is read is an entry, an integer, or a vector of what is read from the rest of the name. -/
theorem ofChars_induction {motive : TypeContext → ValueType → TypeContext → Prop}
    (simple : ∀ context entry, motive context (.simple entry) context)
    (integer : ∀ context bits type later, (integer bits).run context = .ok type later →
      motive context type later)
    (vector : ∀ context element middle count type later, motive context element middle →
      (vector element count).run middle = .ok type later → motive context type later)
    {text : List Char} {context later : TypeContext} {type : ValueType}
    (read : (ofChars text).run context = .ok (some type) later) : motive context type later := by
  -- The name of an element is shorter than that of the vector.
  induction size : text.length using Nat.strongRecOn generalizing text context later type with
  | _ size inductionHypothesis =>
      unfold ofChars at read
      split at read
      · cases read
        apply simple
      · split at read
        · split at read
          · split at read
            · obtain ⟨made, _, integerMade, result⟩ := run_bind_eq_ok.mp read
              cases result
              exact integer _ _ _ _ integerMade
            · cases read
          · cases read
        · split at read
          · cases read
          · obtain ⟨element, _, elementRead, read⟩ := run_bind_eq_ok.mp read
            split at read
            · cases read
            · split at read
              · cases read
              · obtain ⟨made, _, vectorMade, result⟩ := run_bind_eq_ok.mp read
                cases result
                apply vector _ _ _ _ _ _ _ vectorMade
                apply inductionHypothesis _ _ elementRead rfl
                rw [← size, List.length_cons]
                exact Nat.lt_succ_of_le (List.dropWhile_sublist _).length_le
        · cases read

/-- Every type that is read is canonical. -/
theorem canonical_of_ofChars {text : List Char} {context context' : TypeContext} {type : ValueType}
    (read : (ofChars text).run context = .ok (some type) context') : type.Canonical := by
  apply ofChars_induction (motive := fun _ type _ => type.Canonical) _ _ _ read
  · exact fun _ entry => .simple entry
  · exact fun _ _ _ _ made => canonical_of_integer made
  · exact fun _ _ _ _ _ _ canonical made => canonical_of_vector canonical made

theorem Canonical.positive {type : ValueType} (canonical : type.Canonical) {bits : Nat}
    (sized : type.width? = some bits) : 1 ≤ bits := by
  cases canonical with
  | simple type =>
      have entries : (ValueType.simple type).width?.all (fun bits => decide (1 ≤ bits)) = true := by
        cases type <;> rfl
      rw [sized] at entries
      simpa using entries
  | integer positive _ _ =>
      cases sized
      exact positive
  | vector => cases sized

/-! ### Names are read back -/

/-- The two types are written alike and have the same kind and width. -/
structure Alike (type other : ValueType) : Prop where
  name : type.name = other.name
  isScalarInteger : type.isScalarInteger = other.isScalarInteger
  bits : type.bits? = other.bits?

theorem ofChars_simple (type : SimpleType) (context : TypeContext) :
    (ofChars type.name.toList).run context = .ok (some (.simple type)) context := by
  unfold ofChars
  rw [String.ofList_toList, type.ofName?_name]
  rfl

section Names

variable {bits count : Nat} {context : TypeContext}

theorem ofName?_integer (isNew : SimpleType.integer? bits = none) :
    SimpleType.ofName? (String.ofList ('i' :: Nat.toDigits 10 bits)) = none := by
  cases found : SimpleType.ofName? (String.ofList ('i' :: Nat.toDigits 10 bits)) with
  | none => rfl
  | some type =>
      have name := SimpleType.name_of_ofName? found
      rw [SimpleType.integer?_of_name (by rw [name, String.toList_ofList])] at isNew
      cases isNew

/-- Reading the name of an integer makes the integer. -/
theorem ofChars_integer (positive : 1 ≤ bits) (bounded : bits ≤ maxIntegerBits)
    (isNew : SimpleType.integer? bits = none) :
    ofChars ('i' :: Nat.toDigits 10 bits) = do return some (← integer bits) := by
  have inside : bits < widthBound := Nat.lt_of_le_of_lt bounded (by decide)
  unfold ofChars
  simp only [ofName?_integer isNew, Text.readNat?_toDigits inside, positive, bounded, and_self, if_true]

theorem exists_ofChars_integer (positive : 1 ≤ bits) (bounded : bits ≤ maxIntegerBits)
    (isNew : SimpleType.integer? bits = none) (context : TypeContext) :
    ∃ owner id context', (ofChars ('i' :: Nat.toDigits 10 bits)).run context =
      .ok (some (.extended ⟨owner, id, .integer bits⟩)) context' := by
  obtain ⟨owner, id, context', made⟩ :=
    TypeContext.exists_integerType positive bounded context
  refine ⟨owner, id, context', ?_⟩
  rw [ofChars_integer positive bounded isNew]
  simp only [integer, isNew, EStateM.run_bind, made, EStateM.run_pure]

theorem exists_ofChars_element {element : ElementType} (canonical : element.Canonical)
    (context : TypeContext) :
    ∃ inner context', (ofChars element.name.toList).run context = .ok (some inner) context' ∧
      element.StandsFor inner := by
  cases canonical with
  | @simple type _ _ => exact ⟨_, _, ofChars_simple type context, .simple type⟩
  | @integer id bits positive bounded isNew =>
      obtain ⟨owner, other, context', read⟩ :=
        exists_ofChars_integer positive bounded isNew context
      rw [ElementType.toList_name_integer]
      exact ⟨_, context', read, .integer id bits owner other⟩

theorem exists_vector {element : ElementType} {inner : ValueType} (canonical : element.Canonical)
    (inhabited : count ≠ 0) (fits : TypeContext.fitsVector inner count = true)
    (isNew : ∀ type, element = .simple type → SimpleType.vector? type count = none)
    (stands : element.StandsFor inner) (context : TypeContext) :
    ∃ owner id other context', (vector inner count).run context =
      .ok (.extended ⟨owner, id, .vector other count⟩) context' ∧ other.name = element.name ∧
        other.bits = element.bits := by
  cases stands with
  | simple type =>
      cases canonical with
      | simple sized scalar =>
          obtain ⟨⟨owner, id, _⟩, context', made, interns⟩ :=
            (TypeContext.internVector_simple_ends type count context).exists_ok
          cases interns.isForm
          refine ⟨owner, id, .simple type, context', ?_, rfl, rfl⟩
          simp only [vector, simpleVector?, isNew type rfl]
          refine run_bind_eq_ok.mpr ⟨_, _, ?_, rfl⟩
          simp only [TypeContext.vectorType, run_refuse_eq_ok]
          exact ⟨inhabited, by simp [sized, scalar], by simp [fits], made⟩
  | integer id bits =>
      obtain ⟨⟨owner, id, _⟩, context', made, integer, _, _, interns⟩ :=
        (TypeContext.internVector_integer_ends bits count context).exists_ok
      cases interns.isForm
      refine ⟨owner, id, .integer integer.id bits, context', ?_, rfl, rfl⟩
      simp only [vector, simpleVector?]
      refine run_bind_eq_ok.mpr ⟨_, _, ?_, rfl⟩
      simp only [TypeContext.vectorType, run_refuse_eq_ok]
      exact ⟨inhabited, by simp [fits], made⟩

theorem ofName?_vector {element : ElementType} (canonical : element.Canonical)
    (isNew : ∀ type, element = .simple type → SimpleType.vector? type count = none) :
    SimpleType.ofName?
      (String.ofList ('v' :: (Nat.toDigits 10 count ++ element.name.toList))) = none := by
  cases found : SimpleType.ofName?
      (String.ofList ('v' :: (Nat.toDigits 10 count ++ element.name.toList))) with
  | none => rfl
  | some type =>
      have name := SimpleType.name_of_ofName? found
      obtain ⟨inner, innerFound, vector⟩ := SimpleType.vector?_of_name element.letter_name
        (by rw [name, String.toList_ofList])
      cases canonical with
      | @simple simple _ _ =>
          have same : inner = simple := by
            have own := simple.ofName?_name
            rw [ElementType.name, String.ofList_toList, own] at innerFound
            exact (Option.some.inj innerFound).symm
          rw [same, isNew simple rfl] at vector
          cases vector
      | integer _ _ integerNew =>
          rw [ElementType.toList_name_integer, ofName?_integer integerNew] at innerFound
          cases innerFound

/-- Reading the name of a vector reads that of the element and makes the vector. -/
theorem run_ofChars_vector {element : ElementType} {inner : ValueType} {middle : TypeContext}
    (canonical : element.Canonical) (inhabited : count ≠ 0)
    (fits : element.bits * count < widthBound)
    (isNew : ∀ type, element = .simple type → SimpleType.vector? type count = none)
    (stands : element.StandsFor inner)
    (elementRead : (ofChars element.name.toList).run context = .ok (some inner) middle) :
    (ofChars ('v' :: (Nat.toDigits 10 count ++ element.name.toList))).run context =
      (do return some (← vector inner count) : Interning (Option ValueType)).run middle := by
  obtain ⟨scalar, innerBits⟩ := stands.scalar canonical
  have innerFits : TypeContext.fitsVector inner count = true := by
    simpa only [TypeContext.fitsVector, innerBits, decide_eq_true_eq] using fits
  have inside : count < widthBound :=
    Nat.lt_of_le_of_lt (Nat.le_mul_of_pos_left count canonical.positive) fits
  unfold ofChars
  simp only [ofName?_vector canonical isNew, Text.readNat?_toDigits inside,
    Text.takeWhile_append_stop (fun _ => Text.isDigit_of_mem_toDigits) element.letter_name,
    Text.dropWhile_append_stop (fun _ => Text.isDigit_of_mem_toDigits) element.letter_name]
  rw [EStateM.run_bind, elementRead]
  simp only [inhabited, scalar, innerFits, Bool.not_true, decide_false, Bool.or_self,
    Bool.false_eq_true, if_false]

theorem exists_ofChars_vector {element : ElementType} (canonical : element.Canonical)
    (inhabited : count ≠ 0) (fits : element.bits * count < widthBound)
    (isNew : ∀ type, element = .simple type → SimpleType.vector? type count = none)
    (context : TypeContext) :
    ∃ owner id other context',
      (ofChars ('v' :: (Nat.toDigits 10 count ++ element.name.toList))).run context =
        .ok (some (.extended ⟨owner, id, .vector other count⟩)) context' ∧
      other.name = element.name ∧ other.bits = element.bits := by
  obtain ⟨inner, middle, elementRead, stands⟩ := exists_ofChars_element canonical context
  have innerFits : TypeContext.fitsVector inner count = true := by
    simpa only [TypeContext.fitsVector, (stands.scalar canonical).2, decide_eq_true_eq] using fits
  obtain ⟨owner, id, other, context', made, name, bits⟩ :=
    exists_vector canonical inhabited innerFits isNew stands middle
  refine ⟨owner, id, other, context', ?_, name, bits⟩
  rw [run_ofChars_vector canonical inhabited fits isNew stands elementRead]
  exact run_bind_eq_ok.mpr ⟨_, _, made, rfl⟩

theorem toList_name_integer (owner id bits : Nat) :
    (extended ⟨owner, id, .integer bits⟩).name.toList = 'i' :: Nat.toDigits 10 bits :=
  ElementType.toList_name_integer id bits

theorem toList_name_vector (owner id count : Nat) (element : ElementType) :
    (extended ⟨owner, id, .vector element count⟩).name.toList =
      'v' :: (Nat.toDigits 10 count ++ element.name.toList) := by
  change ("v" ++ toString count ++ element.name).toList = _
  rw [String.toList_append, String.toList_append, Text.toList_toString_nat]
  rfl

/-- Names of types hold no separator. -/
theorem word_name (type : ValueType) : Text.Word type.name.toList := by
  cases type with
  | simple type => exact type.word_name
  | extended type =>
      obtain ⟨owner, id, form⟩ := type
      cases form with
      | integer bits =>
          rw [toList_name_integer]
          exact Text.word_cons (by decide) (Text.word_toDigits bits)
      | vector element count =>
          rw [toList_name_vector]
          exact Text.word_cons (by decide) ((Text.word_toDigits count).append element.word_name)

/-- The name of a canonical type is read back in any context. -/
theorem Canonical.exists_ofChars {type : ValueType} (canonical : type.Canonical)
    (context : TypeContext) :
    ∃ other context', (ofChars type.name.toList).run context = .ok (some other) context' ∧
      other.Alike type := by
  cases canonical with
  | simple type => exact ⟨_, _, ofChars_simple type context, rfl, rfl, rfl⟩
  | integer positive bounded isNew =>
      obtain ⟨_, _, context', read⟩ := exists_ofChars_integer positive bounded isNew context
      rw [toList_name_integer]
      exact ⟨_, context', read, rfl, rfl, rfl⟩
  | vector canonical inhabited fits isNew =>
      obtain ⟨_, _, other, context', read, name, bits⟩ :=
        exists_ofChars_vector canonical inhabited fits isNew context
      rw [toList_name_vector]
      refine ⟨_, context', read, ?_, rfl, ?_⟩
      · apply String.toList_injective
        rw [toList_name_vector, toList_name_vector, name]
      · simp only [bits?, ExtendedType.bits, bits]

end Names

end ValueType

end DagSelect
