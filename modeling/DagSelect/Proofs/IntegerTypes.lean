/-
Module: DagSelect.Proofs.IntegerTypes
Purpose: The integer types that are made from a type. It does not matter which of the types are
  entries of the enumeration and which are objects of a context: an integer is known by its width,
  and a vector of integers by the width and the number of its elements. So the integer type of the
  same form, the vector of wider elements and the next round integer are made exactly where their
  widths are allowed, and a context that has made one of them makes it again without growing.
Main exports: ValueType.IntegerOf, ValueType.IntegerVectorOf, ValueType.integer_makes,
  ValueType.vector_makes, ValueType.integerVector, ValueType.BuiltOfIntegers, conversions_keep_shape,
  roundedWidth, ValueType.run_roundInteger, rounding_is_closure
-/
import DagSelect.Proofs.WidthRange

namespace DagSelect

namespace SimpleType

theorem integer?_eq_some {bits : Nat} {entry : SimpleType} (found : integer? bits = some entry) :
    entry.isScalarInteger = true ∧ entry.bits? = some bits := by
  have scalars : ∀ entry ∈ integers, entry.isScalarInteger = true := by decide
  have width := List.find?_some found
  exact ⟨scalars entry (List.mem_of_find?_eq_some found), beq_iff_eq.mp width⟩

theorem form_of_vector? {element entry : SimpleType} {count : Nat}
    (found : vector? element count = some entry) : entry.form = .vector element count := by
  have form := List.find?_some found
  exact beq_iff_eq.mp form

end SimpleType

namespace ValueType

/-! ### Integers and vectors of integers -/

/-- An integer of a width. -/
structure IntegerOf (type : ValueType) (bits : Nat) : Prop where
  scalar : type.isScalarInteger = true
  width : type.bits? = some bits

/-- A vector of integers of a width. -/
structure IntegerVectorOf (type : ValueType) (bits count : Nat) : Prop where
  isVector : type.isVector = true
  isInteger : type.isInteger = true
  isCount : type.count? = some count
  isElement : ∃ element, type.element? = some element ∧ element.IntegerOf bits
  whole : type.bits? = some (bits * count)

variable {type element : ValueType} {bits count : Nat} {context later : TypeContext}

theorem IntegerOf.isInteger (integer : type.IntegerOf bits) : type.isInteger = true := by
  have scalar := integer.scalar
  cases type with
  | simple entry =>
      cases form : entry.form <;> simp_all [isScalarInteger, SimpleType.isScalarInteger,
        ValueType.isInteger, SimpleType.isInteger]
  | extended object =>
      obtain ⟨_, _, form⟩ := object
      cases form with
      | integer => rfl
      | vector => cases scalar

/-- An integer is made exactly if its width is allowed. -/
theorem integer_makes (bits : Nat) (context : TypeContext) :
    Ends (fun type _ => (1 ≤ bits ∧ bits ≤ maxIntegerBits) ∧ type.IntegerOf bits)
      (fun _ _ => ¬ (1 ≤ bits ∧ bits ≤ maxIntegerBits)) ((integer bits).run context) := by
  unfold integer
  split
  · rename_i entry found
    have entryInteger := SimpleType.integer?_eq_some found
    have bounds := SimpleType.bits?_bounds entryInteger.2
    have allowed : bits ≤ maxIntegerBits := Nat.le_trans bounds.2 (by decide)
    exact ⟨⟨bounds.1, allowed⟩, entryInteger.1, entryInteger.2⟩
  · have asked := (Request.integer bits).ask_ends context
    apply Ends.bind (asked.mono (fun _ _ granted => granted) fun _ _ refused => refused.1)
    intro object middle granted
    cases granted.2 with
    | integer interns =>
        have form := interns.isForm
        obtain ⟨_, _, _⟩ := object
        cases form
        exact ⟨granted.1, rfl, rfl⟩

/-- An entry that is a vector of integers. -/
theorem integerVectorOf_of_form {inner entry : SimpleType}
    (integer : (simple inner).IntegerOf bits) (form : entry.form = .vector inner count) :
    (simple entry).IntegerVectorOf bits count := by
  have parts := SimpleType.vector_parts form
  have width : inner.scalarBits = bits :=
    Option.some.inj ((SimpleType.bits?_of_scalar parts.1 parts.2.1).symm.trans integer.width)
  constructor
  · rw [isVector, SimpleType.isVector, form]
  · rw [ValueType.isInteger, SimpleType.isInteger, form]
    exact integer.scalar
  · rw [count?, SimpleType.count?, form]
  · rw [element?, SimpleType.element?, form]
    exact ⟨_, rfl, integer⟩
  · rw [bits?, SimpleType.bits?, form, ← width]

/-- The object that a context makes for a vector of integers. -/
theorem integerVectorOf_of_made {object : ExtendedType} (integer : element.IntegerOf bits)
    (valid : (Request.vector element count).Valid)
    (made : (Request.vector element count).Made context object later) :
    (extended object).IntegerVectorOf bits count := by
  obtain ⟨owner, id, form⟩ := object
  cases made with
  | @simpleVector inner _ _ _ interns =>
      cases interns.isForm
      have width : inner.scalarBits = bits :=
        Option.some.inj ((SimpleType.bits?_of_scalar valid.2.1 valid.2.2.1).symm.trans integer.width)
      exact ⟨rfl, integer.isInteger, rfl, ⟨_, rfl, integer⟩, by rw [← width]; rfl⟩
  | integerVector _ interns =>
      cases interns.isForm
      cases integer.width
      exact ⟨rfl, rfl, rfl, ⟨_, rfl, rfl, rfl⟩, rfl⟩

/-- A vector of integers is made exactly if it has elements and its width is in range. -/
theorem vector_makes (integer : element.IntegerOf bits) (count : Nat) (context : TypeContext) :
    Ends
      (fun type _ => (1 ≤ count ∧ bits * count < widthBound) ∧ type.IntegerVectorOf bits count)
      (fun _ _ => ¬ (1 ≤ count ∧ bits * count < widthBound))
      ((vector element count).run context) := by
  unfold vector
  split
  · rename_i entry found
    cases element with
    | simple inner =>
        have form := SimpleType.form_of_vector? found
        have shape := integerVectorOf_of_form integer form
        have bounds := SimpleType.bits?_bounds shape.whole
        have inRange : bits * count < widthBound := Nat.lt_of_le_of_lt bounds.2 (by decide)
        exact ⟨⟨(SimpleType.vector_parts form).2.2, inRange⟩, shape⟩
    | extended object => cases found
  · have scalar := isVector_of_isScalarInteger integer.scalar
    have fits : TypeContext.fitsVector element count = decide (bits * count < widthBound) := by
      rw [TypeContext.fitsVector, integer.width]
    have asked := (Request.vector element count).ask_ends context
    apply Ends.bind (asked.mono (fun _ _ granted => granted) _)
    · intro object middle granted
      have shape := integerVectorOf_of_made integer granted.1 granted.2
      refine ⟨⟨granted.1.inhabited, ?_⟩, shape⟩
      cases granted.2 with
      | simpleVector =>
          have width := SimpleType.bits?_of_scalar granted.1.2.1 granted.1.2.2.1
          cases width.symm.trans integer.width
          exact granted.1.2.2.2
      | integerVector =>
          cases integer.width
          exact granted.1.2
    · intro _ _ refused allowed
      apply refused.1
      apply valid_of_fitsVector (Nat.one_le_iff_ne_zero.mp allowed.1) scalar
      rw [fits, decide_eq_true allowed.2]

/-- The vector of `count` integers of a width. -/
def integerVector (bits count : Nat) : Interning ValueType := do
  let element ← integer bits
  vector element count

/-- A vector of integers is made exactly if the width of its elements and its own are allowed. -/
theorem integerVector_makes (bits count : Nat) (context : TypeContext) :
    Ends
      (fun type _ => ((1 ≤ bits ∧ bits ≤ maxIntegerBits) ∧ 1 ≤ count ∧ bits * count < widthBound) ∧
        type.IntegerVectorOf bits count)
      (fun _ _ => ¬ ((1 ≤ bits ∧ bits ≤ maxIntegerBits) ∧ 1 ≤ count ∧ bits * count < widthBound))
      ((integerVector bits count).run context) := by
  have element := integer_makes bits context
  apply Ends.bind (element.mono (fun _ _ made => made) fun _ _ refused allowed => refused allowed.1)
  intro element middle integer
  apply (vector_makes integer.2 count middle).mono
  · exact fun _ _ made => ⟨⟨integer.1, made.1⟩, made.2⟩
  · exact fun _ _ refused allowed => refused allowed.2

/-! ### The integer type of the same form -/

theorem run_changeToScalarInteger (width : type.bits? = some bits) (context : TypeContext) :
    type.changeToScalarInteger.run context = (integer bits).run context := by
  rw [changeToScalarInteger, sizeInBits_of_bits? width, run_liftM_ok_bind]

section Vector

variable (isElement : type.element? = some element) (isCount : type.count? = some count)
  (width : element.bits? = some bits)

include isElement isCount width

theorem run_changeElementsToInteger (context : TypeContext) :
    type.changeElementsToInteger.run context = (integerVector bits count).run context := by
  rw [changeElementsToInteger, elementType, isElement, numElements, isCount]
  simp only [run_liftM_ok_bind, sizeInBits_of_bits? width]
  rfl

theorem run_widenElements (integers : (type.isVector && type.isInteger) = true)
    (inRange : 2 * bits < widthBound) (context : TypeContext) :
    type.widenElements.run context = (integerVector (2 * bits) count).run context := by
  rw [widenElements, elementType, isElement, numElements, isCount, integers]
  have doubled : mulWidth 2 bits = .ok (2 * bits) := if_pos inRange
  simp only [Bool.not_true, Bool.false_eq_true, if_false, run_liftM_ok_bind,
    sizeInBits_of_bits? width, doubled]
  rfl

end Vector

/-- An integer type of the same form as a type. -/
structure IntegerForm (type changed : ValueType) : Prop where
  isInteger : changed.isInteger = true
  size : changed.sizeInBits = type.sizeInBits
  isVector : changed.isVector = type.isVector
  count : changed.count? = type.count?
  scalarSize : changed.scalarSizeInBits = type.scalarSizeInBits

variable {changed : ValueType}

theorem IntegerOf.integerForm (integer : changed.IntegerOf bits) (width : type.bits? = some bits)
    (scalar : type.isVector = false) : IntegerForm type changed := by
  have single := isVector_of_isScalarInteger integer.scalar
  have size : changed.sizeInBits = type.sizeInBits := by
    rw [sizeInBits_of_bits? integer.width, sizeInBits_of_bits? width]
  constructor
  · exact integer.isInteger
  · exact size
  · rw [single, scalar]
  · rw [(parts_eq_none single).2, (parts_eq_none scalar).2]
  · rw [scalarSizeInBits, scalarType, (parts_eq_none single).1, scalarSizeInBits, scalarType,
      (parts_eq_none scalar).1]
    exact size

theorem IntegerVectorOf.scalarSize (integers : type.IntegerVectorOf bits count) :
    type.scalarSizeInBits = .ok bits := by
  obtain ⟨element, isElement, integer⟩ := integers.isElement
  rw [scalarSizeInBits, scalarType, isElement]
  exact sizeInBits_of_bits? integer.width

theorem IntegerVectorOf.integerForm (integers : changed.IntegerVectorOf bits count)
    (isVector : type.isVector = true) (isElement : type.element? = some element)
    (isCount : type.count? = some count) (width : element.bits? = some bits)
    (whole : type.bits? = some (bits * count)) : IntegerForm type changed := by
  constructor
  · exact integers.isInteger
  · rw [sizeInBits_of_bits? integers.whole, sizeInBits_of_bits? whole]
  · rw [integers.isVector, isVector]
  · rw [integers.isCount, isCount]
  · rw [integers.scalarSize, scalarSizeInBits, scalarType, isElement]
    exact (sizeInBits_of_bits? width).symm

/-- Every sized type has an integer type of the same form. -/
theorem Measured.changes (measured : type.Measured) (sized : type.isSized = true)
    (context : TypeContext) :
    ∃ changed later, type.changeToInteger.run context = .ok changed later ∧
      IntegerForm type changed := by
  unfold changeToInteger
  cases measured with
  | unsized unsized _ => simp [isSized, SimpleType.isSized, unsized] at sized
  | @scalar _ bits width scalar positive bounded =>
      rw [if_neg (by simp [scalar]), run_changeToScalarInteger width]
      have made := integer_makes bits context
      apply Ends.exists_ok (made.mono _ fun _ _ refused => refused ⟨positive, bounded⟩)
      exact fun _ _ integer => integer.2.integerForm width scalar
  | @vector _ element bits count isVector isElement isCount width _ positive bounded inhabited whole
      fits =>
      rw [if_pos isVector, run_changeElementsToInteger isElement isCount width]
      have made := integerVector_makes bits count context
      have allowed := And.intro (And.intro positive bounded) (And.intro inhabited fits)
      apply Ends.exists_ok (made.mono _ fun _ _ refused => refused allowed)
      exact fun _ _ integers => integers.2.integerForm isVector isElement isCount width whole

/-! ### Types that are built are kept -/

/-- The integers and vectors of integers that a context has made, or has grown from one that made
them. The element of a vector may come from another context. -/
inductive BuiltOfIntegers (context : TypeContext) : ValueType → Prop
  | integer {type : ValueType} {bits : Nat} {earlier later : TypeContext}
      (made : (integer bits).run earlier = .ok type later) (grows : later.Grows context) :
      BuiltOfIntegers context type
  | vector {type element : ValueType} {bits count : Nat} {other otherLater earlier later : TypeContext}
      (integer : (integer bits).run other = .ok element otherLater)
      (made : (vector element count).run earlier = .ok type later) (grows : later.Grows context) :
      BuiltOfIntegers context type

/-- What a vector of extended integers takes from its element is the width. -/
theorem vectorType_eq_ok_of_integer {owner id otherOwner otherId : Nat} {object : ExtendedType}
    (made : (TypeContext.vectorType (.extended ⟨owner, id, .integer bits⟩) count).run context =
      .ok object later) :
    (TypeContext.vectorType (.extended ⟨otherOwner, otherId, .integer bits⟩) count).run context =
      .ok object later := by
  unfold TypeContext.vectorType at made ⊢
  simp only [run_refuse_eq_ok] at made ⊢
  exact made

/-- The context that has made a vector of integers makes it again from an integer of its own. -/
theorem run_integerVector_of_made {other otherLater earlier : TypeContext}
    (integerMade : (integer bits).run other = .ok element otherLater)
    (made : (vector element count).run earlier = .ok type later) (grows : later.Grows context) :
    (integerVector bits count).run context = .ok type context := by
  have again := (vector_repeatable element count earlier type later made).2 context grows
  unfold integer at integerMade
  split at integerMade
  · rename_i entry found
    cases integerMade
    refine run_bind_eq_ok.mpr ⟨.simple entry, context, ?_, again⟩
    rw [integer, found]
    rfl
  · rename_i missing
    obtain ⟨⟨owner, id, form⟩, _, objectMade, result⟩ := run_bind_eq_ok.mp integerMade
    cases result
    obtain ⟨rfl, positive, bounded⟩ := TypeContext.form_of_integerType objectMade
    obtain ⟨vectorObject, _, vectorMade, result⟩ := run_bind_eq_ok.mp made
    cases result
    have granted := ((Request.vector (.extended ⟨owner, id, .integer bits⟩) count).ask_ends
      earlier).of_ok vectorMade
    cases granted.2 with
    | @integerVector _ _ _ _ own _ middle _ ownInterns interns =>
        -- The vector has the integer of its own context, which that context therefore has.
        have ownThere := (interns.grows.trans grows).getElem? ownInterns.there
        have ownAgain := TypeContext.internInteger_of_getElem? ownThere
        have integerAgain : (TypeContext.integerType bits).run context =
            .ok ⟨context.owner, own.id, .integer bits⟩ context := by
          simp only [TypeContext.integerType, run_refuse_eq_ok]
          exact ⟨Nat.one_le_iff_ne_zero.mp positive, Nat.not_lt.mpr bounded, ownAgain⟩
        obtain ⟨_, _, vectorAgain, result⟩ := run_bind_eq_ok.mp again
        cases result
        refine run_bind_eq_ok.mpr
          ⟨.extended ⟨context.owner, own.id, .integer bits⟩, context, ?_, ?_⟩
        · rw [integer, missing]
          exact run_bind_eq_ok.mpr ⟨_, _, integerAgain, rfl⟩
        · exact run_bind_eq_ok.mpr ⟨_, _, vectorType_eq_ok_of_integer vectorAgain, rfl⟩

/-- What is built is its own integer type. -/
theorem BuiltOfIntegers.changeToInteger_eq (built : type.BuiltOfIntegers context) :
    type.changeToInteger.run context = .ok type context := by
  unfold changeToInteger
  cases built with
  | @integer bits earlier _ made grows =>
      have integer := ((integer_makes bits earlier).of_ok made).2
      rw [isVector_of_isScalarInteger integer.scalar]
      change type.changeToScalarInteger.run context = _
      rw [run_changeToScalarInteger integer.width]
      exact (integer_repeatable bits _ _ _ made).2 context grows
  | @vector element bits count other _ earlier _ integer made grows =>
      have elementInteger := ((integer_makes bits other).of_ok integer).2
      have integers := ((vector_makes elementInteger count earlier).of_ok made).2
      obtain ⟨own, isElement, ownInteger⟩ := integers.isElement
      rw [if_pos integers.isVector,
        run_changeElementsToInteger isElement integers.isCount ownInteger.width]
      exact run_integerVector_of_made integer made grows

/-! ### Wider elements -/

/-- The elements of a vector of integers can be twice as wide exactly if that is allowed. -/
theorem Measured.widens (measured : type.Measured) (isVector : type.isVector = true)
    (isInteger : type.isInteger = true) (scalarSize : type.scalarSizeInBits = .ok bits)
    (numElements : type.numElements = .ok count) (context : TypeContext) :
    Ends
      (fun widened _ => (2 * bits ≤ maxIntegerBits ∧ 2 * bits * count < widthBound) ∧
        widened.IntegerVectorOf (2 * bits) count)
      (fun _ _ => ¬ (2 * bits ≤ maxIntegerBits ∧ 2 * bits * count < widthBound))
      (type.widenElements.run context) := by
  cases measured with
  | unsized _ scalar => cases isVector.symm.trans scalar
  | scalar _ scalar => cases isVector.symm.trans scalar
  | vector _ isElement isCount width _ positive bounded inhabited =>
      rw [ValueType.numElements, isCount] at numElements
      rw [scalarSizeInBits, scalarType, isElement] at scalarSize
      cases numElements
      cases (sizeInBits_of_bits? width).symm.trans scalarSize
      have inRange : 2 * bits < widthBound := by
        have bound : 2 * maxIntegerBits < widthBound := by decide
        omega
      rw [run_widenElements isElement isCount width (by rw [isVector, isInteger]; rfl) inRange]
      apply (integerVector_makes (2 * bits) count context).mono
      · exact fun _ _ made => ⟨⟨made.1.1.2, made.1.2.2⟩, made.2⟩
      · intro _ _ refused allowed
        exact refused ⟨⟨by omega, allowed.1⟩, inhabited, allowed.2⟩

end ValueType

/-- Making the elements of a type integers keeps its form, and keeps what is built of integers as it
is. Making them twice as wide works exactly as far as contexts make types of that width. -/
theorem conversions_keep_shape {type : ValueType} (admitted : type.Admitted) (context : TypeContext) :
    (type.isSized = true → ∃ changed later,
      type.changeToInteger.run context = .ok changed later ∧ type.IntegerForm changed) ∧
    (type.BuiltOfIntegers context → type.changeToInteger.run context = .ok type context) ∧
    ∀ bits count, type.isVector = true → type.isInteger = true →
      type.scalarSizeInBits = .ok bits → type.numElements = .ok count →
      Ends
        (fun widened _ => (2 * bits ≤ maxIntegerBits ∧ 2 * bits * count < widthBound) ∧
          widened.IntegerVectorOf (2 * bits) count)
        (fun _ _ => ¬ (2 * bits ≤ maxIntegerBits ∧ 2 * bits * count < widthBound))
        (type.widenElements.run context) := by
  have measured := admitted.measured
  refine ⟨fun sized => measured.changes sized context, fun built => built.changeToInteger_eq, ?_⟩
  intro bits count isVector isInteger scalarSize numElements
  exact measured.widens isVector isInteger scalarSize numElements context

/-- A vector whose elements become the widest integers that there are. -/
def wideIntegers : ValueType := .extended ⟨0, 1, .vector (.integer 0 8388608) 255⟩

/-- The context that has made it. -/
def wideIntegersContext : TypeContext :=
  (TypeContext.new 0).after (TypeContext.vectorType (.extended ⟨0, 0, .integer 8388608⟩) 255)

/-- A request for an integer refers to no other type. -/
theorem Request.known_integer (bits : Nat) (answers : List Answer) :
    (Request.integer bits).Known answers := by
  intro _ _ impossible
  cases impossible

theorem admitted_wideIntegers : wideIntegers.Admitted := by
  have element : Requests _ [⟨0, .integer 8388608, ⟨0, 0, .integer 8388608⟩⟩] :=
    .granted .start (Request.known_integer _ _) rfl
  have known : (Request.vector (.extended ⟨0, 0, .integer 8388608⟩) 255).Known
      [⟨0, .integer 8388608, ⟨0, 0, .integer 8388608⟩⟩] := by
    intro object count same
    cases same
    exact ⟨_, List.mem_cons_self, Or.inl rfl⟩
  have requests : Requests _ [⟨0, .vector (.extended ⟨0, 0, .integer 8388608⟩) 255,
      ⟨0, 1, .vector (.integer 0 8388608) 255⟩⟩, ⟨0, .integer 8388608, ⟨0, 0, .integer 8388608⟩⟩] :=
    .granted element known rfl
  exact .extended requests ⟨_, List.mem_cons_self, Or.inl rfl⟩

theorem built_wideIntegers : wideIntegers.BuiltOfIntegers wideIntegersContext := by
  have element : (ValueType.integer 8388608).run {} =
      .ok (.extended ⟨0, 0, .integer 8388608⟩)
        (TypeContext.after {} (TypeContext.integerType 8388608)) := rfl
  have made : (ValueType.vector (.extended ⟨0, 0, .integer 8388608⟩) 255).run {} =
      .ok wideIntegers wideIntegersContext := rfl
  exact .vector element made (.refl _)

/-- The vector is kept where it was built, has its form in an empty context, and can be widened. -/
theorem wideIntegers_keep_shape :
    wideIntegers.Admitted ∧ wideIntegers.BuiltOfIntegers wideIntegersContext ∧
      wideIntegers.changeToInteger.run wideIntegersContext = .ok wideIntegers wideIntegersContext ∧
      (∃ changed later, wideIntegers.changeToInteger.run {} = .ok changed later ∧
        wideIntegers.IntegerForm changed) ∧
      ∃ widened later, wideIntegers.widenElements.run {} = .ok widened later ∧
        widened.IntegerVectorOf 16777216 255 := by
  obtain ⟨_, kept, _⟩ := conversions_keep_shape admitted_wideIntegers wideIntegersContext
  obtain ⟨changes, _, widens⟩ := conversions_keep_shape admitted_wideIntegers {}
  have widened := (widens 8388608 255 rfl rfl rfl rfl).mono (fun _ _ made => made.2)
    fun _ _ refused => refused (by decide)
  exact ⟨admitted_wideIntegers, built_wideIntegers, kept built_wideIntegers, changes rfl,
    widened.exists_ok⟩

/-! ### Round widths -/

/-- The least power of two that is at least eight and not below a width. -/
def roundedWidth (bits : Nat) : Nat :=
  twoPow (max 3 (Nat.clog 2 bits))

theorem isLeast_roundedWidth (bits : Nat) :
    IsLeast {power | power.isPowerOfTwo ∧ max 8 bits ≤ power} (roundedWidth bits) := by
  constructor
  · refine ⟨⟨_, rfl⟩, Nat.max_le.mpr ⟨?_, ?_⟩⟩
    · exact Nat.pow_le_pow_right (show 0 < 2 by decide) (Nat.le_max_left 3 _)
    · have reached := Nat.le_pow_clog (b := 2) (by decide) bits
      exact reached.trans (Nat.pow_le_pow_right (by decide) (Nat.le_max_right 3 _))
  · rintro power ⟨⟨exponent, rfl⟩, holds⟩
    obtain ⟨holdsByte, holdsBits⟩ := Nat.max_le.mp holds
    have byteExponent : 3 ≤ exponent := (Nat.pow_le_pow_iff_right (a := 2) (by decide)).mp holdsByte
    have bitsExponent := (Nat.clog_le_iff_le_pow (by decide)).mpr holdsBits
    exact Nat.pow_le_pow_right (by decide) (Nat.max_le.mpr ⟨byteExponent, bitsExponent⟩)

theorem roundedWidth_mono {bits other : Nat} (wider : bits ≤ other) :
    roundedWidth bits ≤ roundedWidth other := by
  obtain ⟨power, holds⟩ := (isLeast_roundedWidth other).1
  obtain ⟨byte, covers⟩ := Nat.max_le.mp holds
  exact (isLeast_roundedWidth bits).2 ⟨power, Nat.max_le.mpr ⟨byte, wider.trans covers⟩⟩

theorem roundedWidth_idem (bits : Nat) : roundedWidth (roundedWidth bits) = roundedWidth bits := by
  obtain ⟨power, holds⟩ := (isLeast_roundedWidth bits).1
  have byte := (Nat.max_le.mp holds).1
  apply Nat.le_antisymm
  · exact (isLeast_roundedWidth _).2 ⟨power, Nat.max_le.mpr ⟨byte, Nat.le_refl _⟩⟩
  · exact (Nat.max_le.mp (isLeast_roundedWidth (roundedWidth bits)).1.2).2

/-- The widest integer is round, so rounding does not leave the widths that are allowed. -/
theorem roundedWidth_le {bits : Nat} (bounded : bits ≤ maxIntegerBits) :
    roundedWidth bits ≤ maxIntegerBits :=
  (isLeast_roundedWidth bits).2 ⟨⟨24, rfl⟩, Nat.max_le.mpr ⟨by decide, bounded⟩⟩

namespace ValueType

variable {type : ValueType} {bits : Nat}

theorem run_roundInteger (isInteger : type.IntegerOf bits) (bounded : bits ≤ maxIntegerBits)
    (context : TypeContext) :
    type.roundInteger.run context = (integer (roundedWidth bits)).run context := by
  have exponent : Nat.clog 2 bits ≤ 24 := (Nat.clog_le_iff_le_pow (by decide)).mpr bounded
  have inRange : Nat.clog 2 bits < 32 := Nat.lt_of_le_of_lt exponent (by decide)
  rw [roundInteger, isInteger.scalar]
  simp only [Bool.not_true, Bool.false_eq_true, if_false, sizeInBits_of_bits? isInteger.width,
    run_liftM_ok_bind]
  split
  · rename_i narrow
    have small : Nat.clog 2 bits ≤ 3 := (Nat.clog_le_iff_le_pow (by decide)).mpr narrow
    rw [roundedWidth, Nat.max_eq_left small]
    rfl
  · rename_i wide
    have large : 3 ≤ Nat.clog 2 bits := by
      by_contra small
      have exponent : Nat.clog 2 bits ≤ 3 := by omega
      exact wide ((Nat.clog_le_iff_le_pow (by decide)).mp exponent)
    rw [roundedWidth, Nat.max_eq_right large, nextPowerOfTwo_eq, if_pos inRange, run_liftM_ok_bind]

/-- A scalar integer is rounded to the integer of the rounded width. -/
theorem round_makes (isInteger : type.IntegerOf bits) (bounded : bits ≤ maxIntegerBits)
    (context : TypeContext) :
    Ends (fun rounded _ => rounded.IntegerOf (roundedWidth bits)) (fun _ _ => False)
      (type.roundInteger.run context) := by
  rw [run_roundInteger isInteger bounded]
  have positive : 1 ≤ roundedWidth bits := Nat.two_pow_pos _
  exact (integer_makes (roundedWidth bits) context).mono (fun _ _ made => made.2)
    fun _ _ refused => refused ⟨positive, roundedWidth_le bounded⟩

/-- What was rounded is rounded to itself, and nothing more is made. -/
theorem round_again {rounded : ValueType} {context later final : TypeContext}
    (isInteger : type.IntegerOf bits) (bounded : bits ≤ maxIntegerBits)
    (made : type.roundInteger.run context = .ok rounded later) (grows : later.Grows final) :
    rounded.roundInteger.run final = .ok rounded final ∧
      type.roundInteger.run final = .ok rounded final := by
  have roundedInteger := (round_makes isInteger bounded context).of_ok made
  rw [run_roundInteger isInteger bounded] at made
  have again := (integer_repeatable _ _ _ _ made).2 final grows
  rw [run_roundInteger roundedInteger (roundedWidth_le bounded), roundedWidth_idem,
    run_roundInteger isInteger bounded]
  exact ⟨again, again⟩

theorem Measured.exists_integerOf (measured : type.Measured)
    (integer : type.isScalarInteger = true) :
    ∃ bits, type.IntegerOf bits ∧ 1 ≤ bits ∧ bits ≤ maxIntegerBits := by
  cases measured with
  | @unsized entry unsized _ =>
      cases form : entry.form <;> simp_all [SimpleType.bits?, isScalarInteger,
        SimpleType.isScalarInteger]
  | scalar width _ positive bounded => exact ⟨_, ⟨integer, width⟩, positive, bounded⟩
  | vector isVector => cases isVector.symm.trans (isVector_of_isScalarInteger integer)

end ValueType

/-- Rounding is a closure operator on the scalar integers: it never fails, it goes to the least power
of two that is at least eight and not below the width, what it gives is rounded to itself without
making anything, and a wider integer is never rounded to a narrower one. -/
theorem rounding_is_closure {type : ValueType} (admitted : type.Admitted)
    (integer : type.isScalarInteger = true) (context : TypeContext) :
    ∃ bits rounded later width,
      (type.sizeInBits = .ok bits ∧ 1 ≤ bits ∧ bits ≤ maxIntegerBits) ∧
      type.roundInteger.run context = .ok rounded later ∧
      (rounded.isScalarInteger = true ∧ rounded.sizeInBits = .ok width) ∧
      IsLeast {power | power.isPowerOfTwo ∧ max 8 bits ≤ power} width ∧
      (∀ final, later.Grows final → rounded.roundInteger.run final = .ok rounded final ∧
        type.roundInteger.run final = .ok rounded final) ∧
      ∀ (wider : ValueType) (widerBits : Nat) (other : TypeContext), wider.Admitted →
        wider.isScalarInteger = true → wider.sizeInBits = .ok widerBits → bits ≤ widerBits →
        ∃ widerRounded otherLater widerWidth,
          wider.roundInteger.run other = .ok widerRounded otherLater ∧
          widerRounded.sizeInBits = .ok widerWidth ∧ width ≤ widerWidth := by
  obtain ⟨bits, isInteger, positive, bounded⟩ := admitted.measured.exists_integerOf integer
  obtain ⟨rounded, later, made, roundedInteger⟩ :=
    (ValueType.round_makes isInteger bounded context).exists_ok
  have size := ValueType.sizeInBits_of_bits? isInteger.width
  have roundedSize := ValueType.sizeInBits_of_bits? roundedInteger.width
  refine ⟨bits, rounded, later, roundedWidth bits, ⟨size, positive, bounded⟩, made,
    ⟨roundedInteger.scalar, roundedSize⟩, isLeast_roundedWidth bits, ?_, ?_⟩
  · exact fun final grows => ValueType.round_again isInteger bounded made grows
  · intro wider widerBits other widerAdmitted widerScalar widerSize noNarrower
    obtain ⟨_, widerInteger, _, widerBounded⟩ :=
      widerAdmitted.measured.exists_integerOf widerScalar
    cases (ValueType.sizeInBits_of_bits? widerInteger.width).symm.trans widerSize
    obtain ⟨widerRounded, otherLater, widerMade, widerRoundedInteger⟩ :=
      (ValueType.round_makes widerInteger widerBounded other).exists_ok
    exact ⟨widerRounded, otherLater, _, widerMade,
      ValueType.sizeInBits_of_bits? widerRoundedInteger.width, roundedWidth_mono noNarrower⟩

/-- An integer of three hundred bits. -/
def oddInteger : ValueType := .extended ⟨0, 0, .integer 300⟩

theorem admitted_oddInteger : oddInteger.Admitted :=
  admitted_of_ask (Request.known_integer 300 []) rfl

/-- The integer becomes one of 512 bits, whatever else the context has. -/
theorem rounding_oddInteger :
    oddInteger.Admitted ∧ oddInteger.isScalarInteger = true ∧ ∀ context, ∃ rounded later,
      oddInteger.roundInteger.run context = .ok rounded later ∧ rounded.sizeInBits = .ok 512 ∧
      rounded.roundInteger.run later = .ok rounded later := by
  refine ⟨admitted_oddInteger, rfl, fun context => ?_⟩
  obtain ⟨bits, rounded, later, width, size, made, roundedSize, least, again, _⟩ :=
    rounding_is_closure admitted_oddInteger rfl context
  cases size.1
  have isWidth : width = 512 := by
    have same := least.unique (isLeast_roundedWidth 300)
    rw [same]
    decide
  rw [isWidth] at roundedSize
  exact ⟨rounded, later, made, roundedSize.2, (again later (.refl later)).1⟩

end DagSelect
