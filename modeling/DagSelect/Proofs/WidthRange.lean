/-
Module: DagSelect.Proofs.WidthRange
Purpose: Where arithmetic on widths leaves its range. The types that contexts hand out are bounded: no
  scalar has more than `2 ^ 24` bits, and no type `2 ^ 32` or more. So nearly every question about a
  width has an answer, and nearly every type made from another is made or is refused for a reason
  that the caller can be told. Two computations can overflow: the bits that a store writes, if less
  than a byte is missing to `2 ^ 32`, and the next power of two of a count above `2 ^ 31`.
Main exports: ValueType.Admitted, ValueType.Measured, ValueType.Sizes, TypeDerivation,
  TypeDerivation.Refuses, TypeDerivation.Overflows, overflows_exactly
-/
import DagSelect.Proofs.LineReading
import DagSelect.ValueType.Derived
import Mathlib.Data.Nat.Log
import Mathlib.Order.Bounds.Basic

namespace DagSelect

/-! ### Arithmetic -/

/-- The least power of two that is not below a number has the rounded logarithm as its exponent. -/
theorem nextPowerOfTwo_eq (n : Nat) :
    nextPowerOfTwo n =
      if Nat.clog 2 n < 32 then .ok (twoPow (Nat.clog 2 n)) else .error .sumOverflow := by
  have power : (if n ≤ 1 then 1 else twoPow ((n - 1).log2 + 1)) = twoPow (Nat.clog 2 n) := by
    split
    · rename_i small
      rw [Nat.clog_of_right_le_one small]
      rfl
    · have exponent : (n - 1).log2 + 1 = Nat.clog 2 n := by
        apply Nat.le_antisymm
        · rw [Nat.succ_le_iff, Nat.log2_lt (by omega)]
          have reached := Nat.le_pow_clog (b := 2) (by decide) n
          omega
        · rw [Nat.clog_le_iff_le_pow (by decide)]
          have below := Nat.lt_log2_self (n := n - 1)
          omega
      rw [exponent]
  unfold nextPowerOfTwo
  rw [power]
  exact if_congr (Nat.pow_lt_pow_iff_right (by decide)) rfl rfl

/-- A count below `2 ^ 32` that is a power of two is at most `2 ^ 31`. -/
theorem le_of_isPowerOfTwo {n : Nat} (power : isPowerOfTwo n = true) (inside : n < widthBound) :
    n ≤ twoPow 31 := by
  simp only [isPowerOfTwo, Bool.and_eq_true, bne_iff_ne, beq_iff_eq] at power
  obtain ⟨_, isPower⟩ := power
  rw [← isPower] at inside ⊢
  have exponent : n.log2 < 32 := (Nat.pow_lt_pow_iff_right (by decide)).mp inside
  exact Nat.pow_le_pow_right (by decide) (Nat.le_of_lt_succ exponent)

theorem clog_lt_iff {n : Nat} : Nat.clog 2 n < 32 ↔ n ≤ twoPow 31 := by
  rw [Nat.lt_succ_iff, Nat.clog_le_iff_le_pow (by decide)]
  rfl

/-- The quotient rounded up is the least number of parts that suffices. -/
theorem isLeast_divCeil {n part : Nat} (positive : 0 < part) :
    IsLeast {count | n ≤ count * part} ((n + part - 1) / part) := by
  constructor
  · have rest := Nat.div_add_mod (n + part - 1) part
    have small := Nat.mod_lt (n + part - 1) positive
    rw [Nat.mul_comm] at rest
    simp only [Set.mem_ofPred_eq]
    omega
  · intro count enough
    rw [Set.mem_ofPred_eq] at enough
    apply Nat.le_of_lt_succ
    rw [Nat.div_lt_iff_lt_mul positive, Nat.succ_mul]
    omega

/-! ### Bounded types -/

namespace SimpleType

theorem bits?_bounds {entry : SimpleType} {bits : Nat} (width : entry.bits? = some bits) :
    1 ≤ bits ∧ bits ≤ 2048 := by
  have entries : ∀ entry ∈ all,
      entry.bits?.all (fun bits => decide (1 ≤ bits ∧ bits ≤ 2048)) = true := by decide
  have own := entries entry entry.mem_all
  rw [width] at own
  simpa using own

/-- The parts of a vector entry. -/
theorem vector_parts {entry inner : SimpleType} {count : Nat}
    (form : entry.form = .vector inner count) :
    inner.isSized = true ∧ inner.isVector = false ∧ 1 ≤ count := by
  have entries : ∀ entry ∈ all, entry.element?.all (fun inner =>
      inner.isSized && !inner.isVector && entry.count?.all fun count => decide (1 ≤ count)) = true := by
    decide
  have own := entries entry entry.mem_all
  simpa [element?, count?, form, and_assoc] using own

end SimpleType

namespace ValueType

/-- A type that can be had: an entry of the enumeration, or an object that some contexts handed out
after any requests. -/
inductive Admitted : ValueType → Prop
  | simple (entry : SimpleType) : Admitted (.simple entry)
  | extended {contexts : Nat → TypeContext} {answers : List Answer} {object : ExtendedType}
      (requests : Requests contexts answers) (obtained : Obtained answers object) :
      Admitted (.extended object)

/-- The three kinds of type, with the bounds of each. -/
inductive Measured : ValueType → Prop
  /-- An entry without a width. -/
  | unsized {entry : SimpleType} (unsized : entry.bits? = none)
      (scalar : (simple entry).isVector = false) : Measured (.simple entry)
  /-- A scalar of a width. -/
  | scalar {type : ValueType} {bits : Nat} (width : type.bits? = some bits)
      (scalar : type.isVector = false) (positive : 1 ≤ bits) (bounded : bits ≤ maxIntegerBits) :
      Measured type
  /-- A vector of scalars. -/
  | vector {type element : ValueType} {bits count : Nat} (isVector : type.isVector = true)
      (isElement : type.element? = some element) (isCount : type.count? = some count)
      (width : element.bits? = some bits) (scalar : element.isVector = false)
      (positive : 1 ≤ bits) (bounded : bits ≤ maxIntegerBits) (inhabited : 1 ≤ count)
      (whole : type.bits? = some (bits * count)) (fits : bits * count < widthBound) :
      Measured type

theorem measured_of_width {entry : SimpleType} {bits : Nat} (width : entry.bits? = some bits)
    (scalar : entry.isVector = false) : Measured (.simple entry) := by
  have bounds := SimpleType.bits?_bounds width
  exact .scalar width scalar bounds.1 (Nat.le_trans bounds.2 (by decide))

theorem measured_simple (entry : SimpleType) : Measured (.simple entry) := by
  cases form : entry.form with
  | integer bits =>
      apply measured_of_width
      · rw [SimpleType.bits?, form]
      · rw [SimpleType.isVector, form]
  | float bits =>
      apply measured_of_width
      · rw [SimpleType.bits?, form]
      · rw [SimpleType.isVector, form]
  | vector inner count =>
      obtain ⟨sized, scalar, inhabited⟩ := SimpleType.vector_parts form
      have isVector : entry.isVector = true := by rw [SimpleType.isVector, form]
      have isElement : (simple entry).element? = some (.simple inner) := by
        rw [element?, SimpleType.element?, form]
        rfl
      have isCount : entry.count? = some count := by rw [SimpleType.count?, form]
      have whole : entry.bits? = some (inner.scalarBits * count) := by rw [SimpleType.bits?, form]
      have width := SimpleType.bits?_of_scalar sized scalar
      have bounds := SimpleType.bits?_bounds width
      have fits := Nat.lt_of_le_of_lt (SimpleType.bits?_bounds whole).2
        (show 2048 < widthBound by decide)
      exact .vector isVector isElement isCount width scalar bounds.1
        (Nat.le_trans bounds.2 (by decide)) inhabited whole fits
  | special =>
      apply Measured.unsized
      · rw [SimpleType.bits?, form]
      · rw [isVector, SimpleType.isVector, form]
  | overloaded =>
      apply Measured.unsized
      · rw [SimpleType.bits?, form]
      · rw [isVector, SimpleType.isVector, form]

theorem Admitted.measured {type : ValueType} (admitted : type.Admitted) : type.Measured := by
  cases admitted with
  | simple entry => exact measured_simple entry
  | @extended contexts answers object requests obtained =>
      have consistent := requests.consistent
      have made := consistent.made_of_obtained obtained
      obtain ⟨owner, id, form⟩ := object
      cases made with
      | integer positive bounded => exact .scalar rfl rfl positive bounded
      | simpleVector sized scalar inhabited fits =>
          have width := SimpleType.bits?_of_scalar sized scalar
          have bounds := SimpleType.bits?_bounds width
          exact .vector rfl rfl rfl width scalar bounds.1 (Nat.le_trans bounds.2 (by decide))
            inhabited rfl fits
      | integerVector _ there inhabited fits =>
          cases consistent.sound owner _ _ there with
          | integer positive bounded =>
              exact .vector rfl rfl rfl rfl rfl positive bounded inhabited rfl fits

/-! ### Sizes -/

theorem sizeInBits_of_bits? {type : ValueType} {bits : Nat} (width : type.bits? = some bits) :
    type.sizeInBits = .ok bits := by
  cases type with
  | simple entry => rw [sizeInBits, SimpleType.sizeInBits, show entry.bits? = some bits from width]
  | extended object =>
      cases width
      rfl

theorem numParts_eq {type : ValueType} {bits part : Nat} (width : type.bits? = some bits)
    (positive : 0 < part) : type.numParts part = .ok ((bits + part - 1) / part) := by
  rw [numParts, sizeInBits_of_bits? width]
  exact if_neg (Nat.ne_of_gt positive)

/-- The answers to the questions about the size of a type of `bits` bits. Only the bits that a store
writes may be too many for a 32-bit number. -/
structure Sizes (type : ValueType) (bits : Nat) : Prop where
  size : type.sizeInBits = .ok bits
  inRange : bits < widthBound
  scalarSize : ∃ scalar, type.scalarSizeInBits = .ok scalar ∧ scalar ≤ bits
  parts : ∀ part, 0 < part → ∃ count, type.numParts part = .ok count ∧ count ≤ bits ∧
    IsLeast {count | bits ≤ count * part} count
  storeSize : ∃ bytes, type.storeSize = .ok bytes ∧ bytes ≤ bits ∧
    IsLeast {bytes | bits ≤ bytes * 8} bytes
  storeBits : ∃ store, IsLeast {store | 8 ∣ store ∧ bits ≤ store} store ∧
    type.storeSizeInBits = if store < widthBound then .ok store else .error .productOverflow

theorem isLeast_storeBits (bits : Nat) :
    IsLeast {store | 8 ∣ store ∧ bits ≤ store} ((bits + 8 - 1) / 8 * 8) := by
  obtain ⟨enough, least⟩ := isLeast_divCeil (n := bits) (show 0 < 8 by decide)
  constructor
  · exact ⟨Nat.dvd_mul_left 8 _, enough⟩
  · rintro store ⟨⟨bytes, rfl⟩, covers⟩
    rw [Nat.mul_comm 8] at covers ⊢
    exact Nat.mul_le_mul_right 8 (least covers)

theorem sizes_of_bits? {type : ValueType} {bits scalar : Nat} (width : type.bits? = some bits)
    (inRange : bits < widthBound) (scalarWidth : type.scalarType.bits? = some scalar)
    (narrower : scalar ≤ bits) : type.Sizes bits := by
  have parts : ∀ part, 0 < part → ∃ count, type.numParts part = .ok count ∧ count ≤ bits ∧
      IsLeast {count | bits ≤ count * part} count := by
    intro part positive
    have least := isLeast_divCeil (n := bits) positive
    exact ⟨_, numParts_eq width positive, least.2 (Nat.le_mul_of_pos_right bits positive), least⟩
  constructor
  · exact sizeInBits_of_bits? width
  · exact inRange
  · exact ⟨scalar, sizeInBits_of_bits? scalarWidth, narrower⟩
  · exact parts
  · exact parts 8 (by decide)
  · refine ⟨_, isLeast_storeBits bits, ?_⟩
    rw [storeSizeInBits, storeSize, numParts_eq width (by decide)]
    rfl

/-- Only a vector has an element and a count. -/
theorem parts_eq_none {type : ValueType} (scalar : type.isVector = false) :
    type.element? = none ∧ type.count? = none := by
  cases type with
  | simple entry =>
      cases form : entry.form <;> simp_all [isVector, SimpleType.isVector, element?,
        SimpleType.element?, count?, SimpleType.count?]
  | extended object =>
      obtain ⟨_, _, form⟩ := object
      cases form with
      | integer => exact ⟨rfl, rfl⟩
      | vector => cases scalar

theorem Measured.sizes {type : ValueType} (measured : type.Measured)
    (sized : type.isSized = true) : ∃ bits, type.Sizes bits := by
  cases measured with
  | unsized unsized _ => simp [isSized, SimpleType.isSized, unsized] at sized
  | @scalar _ bits width scalar positive bounded =>
      refine ⟨bits, sizes_of_bits? width ?_ ?_ (Nat.le_refl bits)⟩
      · exact Nat.lt_of_le_of_lt bounded (by decide)
      · rw [scalarType, (parts_eq_none scalar).1]
        exact width
  | @vector _ element bits count _ isElement _ width _ _ _ inhabited whole fits =>
      refine ⟨bits * count, sizes_of_bits? whole fits ?_ (Nat.le_mul_of_pos_right bits inhabited)⟩
      rw [scalarType, isElement]
      exact width

/-! ### Types made from types -/

/-- An integer is refused only if it is too wide. -/
theorem integer_ends {bits : Nat} (positive : 1 ≤ bits) (context : TypeContext) :
    Ends (fun type _ => type.bits? = some bits ∧ type.isVector = false)
      (fun cause _ => maxIntegerBits < bits ∧ cause = .integerTooWide bits maxIntegerBits)
      ((integer bits).run context) := by
  unfold integer
  split
  · rename_i entry found
    have width := List.find?_some found
    have listed := List.mem_of_find?_eq_some found
    have scalars : ∀ entry ∈ SimpleType.integers, entry.isVector = false := by decide
    exact ⟨beq_iff_eq.mp width, scalars entry listed⟩
  · have made : Ends (fun object _ => object.form = .integer bits)
        (fun cause _ => maxIntegerBits < bits ∧ cause = .integerTooWide bits maxIntegerBits)
        ((TypeContext.integerType bits).run context) := by
      apply Ends.refuse
      · exact fun empty => absurd empty (Nat.ne_of_gt positive)
      · intro _
        apply Ends.refuse
        · exact fun tooWide => ⟨tooWide, rfl⟩
        · intro _
          exact (TypeContext.internInteger_ends bits context).mono
            (fun _ _ interns => interns.isForm) fun _ _ impossible => impossible.elim
    apply Ends.bind made
    rintro ⟨_, _, _⟩ _ ⟨⟩
    exact ⟨rfl, rfl⟩

/-- A vector of scalars is refused only if it is too wide. -/
theorem vector_ends {element : ValueType} {bits count : Nat} (width : element.bits? = some bits)
    (scalar : element.isVector = false) (inhabited : 1 ≤ count) (context : TypeContext) :
    Ends (fun _ _ => True)
      (fun cause _ => widthBound ≤ bits * count ∧ cause = .vectorTooWide count element)
      ((vector element count).run context) := by
  have positive : count ≠ 0 := Nat.one_le_iff_ne_zero.mp inhabited
  have fitsVector : TypeContext.fitsVector element count = decide (bits * count < widthBound) := by
    rw [TypeContext.fitsVector, width]
  by_cases fits : bits * count < widthBound
  · have valid := valid_of_fitsVector positive scalar (fitsVector.trans (decide_eq_true fits))
    exact (vector_answers valid context).mono (fun _ _ _ => trivial)
      fun _ _ impossible => impossible.elim
  · rw [decide_eq_false fits] at fitsVector
    have tooWide : (TypeContext.vectorType element count).run context =
        .error (.vectorTooWide count element) context := by
      unfold TypeContext.vectorType
      cases element with
      | simple entry =>
          have sized : entry.isSized = true := by
            rw [SimpleType.isSized, show entry.bits? = some bits from width]
            rfl
          have single : entry.isVector = false := scalar
          simp [positive, sized, single, fitsVector]
      | extended type =>
          obtain ⟨_, _, form⟩ := type
          cases form with
          | integer => simp [positive, fitsVector]
          | vector => cases scalar
    unfold vector
    split
    · trivial
    · rw [EStateM.run_bind, tooWide]
      exact ⟨Nat.le_of_not_lt fits, rfl⟩

theorem isVector_of_isScalarInteger {type : ValueType} (integer : type.isScalarInteger = true) :
    type.isVector = false := by
  cases type with
  | simple entry =>
      cases form : entry.form <;> simp_all [isVector, SimpleType.isVector, isScalarInteger,
        SimpleType.isScalarInteger]
  | extended object =>
      obtain ⟨_, _, form⟩ := object
      cases form with
      | integer => rfl
      | vector => cases integer

/-- A scalar integer has a width that is allowed. -/
theorem Measured.exists_width {type : ValueType} (measured : type.Measured)
    (integer : type.isScalarInteger = true) :
    ∃ bits, type.sizeInBits = .ok bits ∧ 1 ≤ bits ∧ bits ≤ maxIntegerBits := by
  cases measured with
  | @unsized entry unsized _ =>
      cases form : entry.form <;> simp_all [SimpleType.bits?, isScalarInteger,
        SimpleType.isScalarInteger]
  | scalar width _ positive bounded => exact ⟨_, sizeInBits_of_bits? width, positive, bounded⟩
  | vector isVector =>
      rw [isVector_of_isScalarInteger integer] at isVector
      cases isVector

end ValueType

/-- The ways to make a type from another. -/
inductive TypeDerivation where
  | scalarInteger
  | round
  | half
  | widen
  | pow2
  deriving DecidableEq, Repr

namespace TypeDerivation

def apply : TypeDerivation → ValueType → Interning ValueType
  | .scalarInteger => ValueType.changeToScalarInteger
  | .round => ValueType.roundInteger
  | .half => ValueType.halfInteger
  | .widen => ValueType.widenElements
  | .pow2 => ValueType.pow2Vector

/-- The reasons to refuse: the type is not of the kind that is asked for, or what would be made is
wider than contexts make. -/
inductive Refuses (type : ValueType) : TypeDerivation → Fault → Prop
  | unsized {entry : SimpleType} (isEntry : type = .simple entry) (unsized : entry.bits? = none) :
      Refuses type .scalarInteger (.unsized entry)
  | integerTooWide {bits : Nat} (width : type.bits? = some bits) (wide : maxIntegerBits < bits) :
      Refuses type .scalarInteger (.integerTooWide bits maxIntegerBits)
  | roundOther (other : type.isScalarInteger = false) :
      Refuses type .round (.roundOfNonInteger type)
  | halfOther (other : type.isScalarInteger = false) : Refuses type .half (.halfOfNonInteger type)
  | widenOther (other : (type.isVector && type.isInteger) = false) :
      Refuses type .widen (.widenOfNonIntegerVector type)
  | elementTooWide {element : ValueType} {bits : Nat} (isElement : type.element? = some element)
      (width : element.bits? = some bits) (wide : maxIntegerBits < 2 * bits) :
      Refuses type .widen (.integerTooWide (2 * bits) maxIntegerBits)
  | widenedTooWide {element widened : ValueType} {bits count : Nat}
      (isElement : type.element? = some element) (isCount : type.count? = some count)
      (width : element.bits? = some bits) (widenedWidth : widened.bits? = some (2 * bits))
      (wide : widthBound ≤ 2 * bits * count) : Refuses type .widen (.vectorTooWide count widened)
  | pow2Other (other : type.isVector = false) : Refuses type .pow2 (.countOfNonVector type)
  | pow2TooWide {element : ValueType} {bits count : Nat} (isElement : type.element? = some element)
      (isCount : type.count? = some count) (width : element.bits? = some bits)
      (wide : widthBound ≤ bits * twoPow (Nat.clog 2 count)) :
      Refuses type .pow2 (.vectorTooWide (twoPow (Nat.clog 2 count)) element)

/-- The next power of two of the count has no 32-bit number. -/
def Overflows (type : ValueType) (derivation : TypeDerivation) : Prop :=
  derivation = .pow2 ∧ ∃ count, type.count? = some count ∧ twoPow 31 < count

variable {type : ValueType} (measured : type.Measured) (context : TypeContext)

include measured

theorem scalarInteger_ends :
    Ends (fun _ _ => True) (fun cause _ => Refuses type .scalarInteger cause)
      (type.changeToScalarInteger.run context) := by
  have made : ∀ bits, type.bits? = some bits → 1 ≤ bits →
      Ends (fun _ _ => True) (fun cause _ => Refuses type .scalarInteger cause)
        (type.changeToScalarInteger.run context) := by
    intro bits width positive
    simp only [ValueType.changeToScalarInteger, ValueType.sizeInBits_of_bits? width,
      run_liftM_ok_bind]
    apply (ValueType.integer_ends positive context).mono
    · exact fun _ _ _ => trivial
    · rintro _ _ ⟨wide, rfl⟩
      exact .integerTooWide width wide
  cases measured with
  | @unsized entry unsized _ =>
      simp only [ValueType.changeToScalarInteger, ValueType.sizeInBits, SimpleType.sizeInBits,
        unsized, EStateM.run_bind, run_liftM_error]
      exact .unsized rfl unsized
  | scalar width _ positive _ => exact made _ width positive
  | vector _ _ _ _ _ positive _ inhabited whole _ => exact made _ whole (Nat.mul_pos positive inhabited)

theorem round_ends :
    Ends (fun _ _ => True) (fun cause _ => Refuses type .round cause)
      (type.roundInteger.run context) := by
  apply Ends.refuse
  · intro other
    rw [Bool.not_eq_true'] at other
    exact .roundOther other
  · intro integer
    obtain ⟨bits, size, positive, bounded⟩ := measured.exists_width (by simpa using integer)
    have exponent : Nat.clog 2 bits ≤ 24 := (Nat.clog_le_iff_le_pow (by decide)).mpr bounded
    have small : Nat.clog 2 bits < 32 := Nat.lt_of_le_of_lt exponent (by decide)
    simp only [size, run_liftM_ok_bind]
    split
    · trivial
    · simp only [nextPowerOfTwo_eq, small, if_true, run_liftM_ok_bind]
      have allowed : twoPow (Nat.clog 2 bits) ≤ maxIntegerBits :=
        Nat.pow_le_pow_right (by decide) exponent
      exact (ValueType.integer_answers (Nat.two_pow_pos _) allowed context).mono
        (fun _ _ _ => trivial) fun _ _ impossible => impossible.elim

theorem half_ends :
    Ends (fun _ _ => True) (fun cause _ => Refuses type .half cause)
      (type.halfInteger.run context) := by
  apply Ends.refuse
  · intro other
    rw [Bool.not_eq_true'] at other
    exact .halfOther other
  · intro integer
    obtain ⟨bits, size, positive, bounded⟩ := measured.exists_width (by simpa using integer)
    simp only [size, run_liftM_ok_bind]
    split
    · trivial
    · have half : divCeil bits 2 = .ok ((bits + 2 - 1) / 2) := rfl
      simp only [half, run_liftM_ok_bind]
      exact (ValueType.integer_answers (by omega) (by omega) context).mono
        (fun _ _ _ => trivial) fun _ _ impossible => impossible.elim

theorem widen_ends :
    Ends (fun _ _ => True) (fun cause _ => Refuses type .widen cause)
      (type.widenElements.run context) := by
  apply Ends.refuse
  · intro other
    rw [Bool.not_eq_true'] at other
    exact .widenOther other
  · intro integers
    cases measured with
    | unsized _ scalar => simp [scalar] at integers
    | scalar _ scalar => simp [scalar] at integers
    | @vector _ element bits count _ isElement isCount width _ positive bounded inhabited _ _ =>
        have small : 2 * bits < widthBound := by
          have bound : maxIntegerBits * 2 < widthBound := by decide
          omega
        have elementType : type.elementType = .ok element := by rw [ValueType.elementType, isElement]
        have numElements : type.numElements = .ok count := by rw [ValueType.numElements, isCount]
        have doubled : mulWidth 2 bits = .ok (2 * bits) := if_pos small
        simp only [elementType, numElements, doubled, ValueType.sizeInBits_of_bits? width,
          run_liftM_ok_bind]
        have widened : Ends (fun widened _ => widened.bits? = some (2 * bits) ∧ widened.isVector = false)
            (fun cause _ => Refuses type .widen cause)
            ((ValueType.integer (2 * bits)).run context) := by
          apply (ValueType.integer_ends (by omega) context).mono
          · exact fun _ _ made => made
          · rintro _ _ ⟨wide, rfl⟩
            exact .elementTooWide isElement width wide
        apply Ends.bind widened
        rintro wide middle ⟨wideWidth, wideScalar⟩
        simp only [run_liftM_ok_bind]
        apply (ValueType.vector_ends wideWidth wideScalar inhabited middle).mono
        · exact fun _ _ _ => trivial
        · rintro _ _ ⟨tooWide, rfl⟩
          exact .widenedTooWide isElement isCount width wideWidth tooWide

omit measured in
theorem pow2_ends_of_scalar (scalar : type.isVector = false) :
    Ends (fun _ _ => False) (fun cause _ => Refuses type .pow2 cause ∧ ¬ Overflows type .pow2)
      (type.pow2Vector.run context) := by
  have noCount := (ValueType.parts_eq_none scalar).2
  have refused : type.isPow2Vector = .error (.countOfNonVector type) := by
    rw [ValueType.isPow2Vector, ValueType.numElements, noCount]
    rfl
  simp only [ValueType.pow2Vector, refused, EStateM.run_bind, run_liftM_error]
  constructor
  · exact .pow2Other scalar
  · rintro ⟨_, count, isCount, _⟩
    rw [noCount] at isCount
    cases isCount

theorem pow2_ends :
    Ends (fun _ _ => ¬ Overflows type .pow2)
      (fun cause _ => Refuses type .pow2 cause ∧ ¬ Overflows type .pow2 ∨
        Overflows type .pow2 ∧ cause = .sumOverflow)
      (type.pow2Vector.run context) := by
  cases measured with
  | unsized _ scalar =>
      exact (pow2_ends_of_scalar context scalar).mono (fun _ _ impossible => impossible.elim)
        fun _ _ refused => Or.inl refused
  | scalar _ scalar =>
      exact (pow2_ends_of_scalar context scalar).mono (fun _ _ impossible => impossible.elim)
        fun _ _ refused => Or.inl refused
  | @vector _ element bits count _ isElement isCount width scalar positive _ inhabited _ fits =>
      have small : count < widthBound :=
        Nat.lt_of_le_of_lt (Nat.le_mul_of_pos_left count positive) fits
      have inRange : count ≤ twoPow 31 → ¬ Overflows type .pow2 := by
        rintro few ⟨_, other, isOther, many⟩
        rw [isCount] at isOther
        cases isOther
        exact Nat.not_lt.mpr few many
      have numElements : type.numElements = .ok count := by rw [ValueType.numElements, isCount]
      have elementType : type.elementType = .ok element := by rw [ValueType.elementType, isElement]
      have isPow2 : type.isPow2Vector = .ok (isPowerOfTwo count) := by
        rw [ValueType.isPow2Vector, numElements]
        rfl
      simp only [ValueType.pow2Vector, isPow2, run_liftM_ok_bind]
      split
      · rename_i power
        exact inRange (le_of_isPowerOfTwo power small)
      · simp only [numElements, elementType, nextPowerOfTwo_eq, run_liftM_ok_bind, clog_lt_iff]
        split
        · rename_i few
          simp only [run_liftM_ok_bind]
          apply (ValueType.vector_ends width scalar (Nat.two_pow_pos _) context).mono
          · exact fun _ _ _ => inRange few
          · rintro _ _ ⟨tooWide, rfl⟩
            exact Or.inl ⟨.pow2TooWide isElement isCount width tooWide, inRange few⟩
        · rename_i many
          exact Or.inr ⟨⟨rfl, count, isCount, Nat.lt_of_not_le many⟩, rfl⟩

omit measured in
/-- Only a power of two can overflow. -/
theorem ends_of_refuses {derivation : TypeDerivation} (other : derivation ≠ .pow2)
    (ends : Ends (fun _ _ => True) (fun cause _ => derivation.Refuses type cause)
      ((derivation.apply type).run context)) :
    Ends (fun _ _ => ¬ derivation.Overflows type)
      (fun cause _ => derivation.Refuses type cause ∧ ¬ derivation.Overflows type ∨
        derivation.Overflows type ∧ cause = .sumOverflow)
      ((derivation.apply type).run context) := by
  have inRange : ¬ derivation.Overflows type := fun overflows => other overflows.1
  exact ends.mono (fun _ _ _ => inRange) fun _ _ refused => Or.inl ⟨refused, inRange⟩

/-- A derivation makes a type, or is refused for one of its reasons, or overflows. -/
theorem apply_ends (derivation : TypeDerivation) :
    Ends (fun _ _ => ¬ derivation.Overflows type)
      (fun cause _ => derivation.Refuses type cause ∧ ¬ derivation.Overflows type ∨
        derivation.Overflows type ∧ cause = .sumOverflow)
      ((derivation.apply type).run context) := by
  cases derivation with
  | scalarInteger => exact ends_of_refuses context (by decide) (scalarInteger_ends measured context)
  | round => exact ends_of_refuses context (by decide) (round_ends measured context)
  | half => exact ends_of_refuses context (by decide) (half_ends measured context)
  | widen => exact ends_of_refuses context (by decide) (widen_ends measured context)
  | pow2 => exact pow2_ends measured context

end TypeDerivation

/-- Where arithmetic on widths overflows. Every question about the size of a type that has one is
answered in range, and the bits that a store writes are the least multiple of eight that holds the
type, unless that is `2 ^ 32`. Every type made from another is made or refused for a reason, except
that a vector of more than `2 ^ 31` elements has no next power of two. -/
theorem overflows_exactly {type : ValueType} (admitted : type.Admitted) :
    (type.isSized = true → ∃ bits, type.Sizes bits) ∧
    ∀ (derivation : TypeDerivation) (context : TypeContext),
      Ends (fun _ _ => ¬ derivation.Overflows type)
        (fun cause _ => derivation.Refuses type cause ∧ ¬ derivation.Overflows type ∨
          derivation.Overflows type ∧ cause = .sumOverflow)
        ((derivation.apply type).run context) :=
  ⟨admitted.measured.sizes,
    fun derivation context => TypeDerivation.apply_ends admitted.measured context derivation⟩

theorem admitted_of_ask {request : Request} {object : ExtendedType} {later : TypeContext}
    (known : request.Known []) (granted : request.ask.run {} = .ok object later) :
    (ValueType.extended object).Admitted := by
  have requests : Requests _ [⟨0, request, object⟩] := .granted .start known granted
  exact .extended requests ⟨_, List.mem_cons_self, Or.inl rfl⟩

/-- A vector of bytes that is one byte narrower than `2 ^ 32` bits. -/
def widestBytes : ValueType := .extended ⟨0, 0, .vector (.simple .i8) 536870911⟩

theorem admitted_widestBytes : widestBytes.Admitted := by
  have known : (Request.vector (.simple .i8) 536870911).Known [] := by
    intro _ _ impossible
    cases impossible
  exact admitted_of_ask known rfl

/-- The vector of bytes fills its store, and with the next power of two of elements it would be too
wide. -/
theorem sizes_widestBytes :
    widestBytes.Admitted ∧ widestBytes.Sizes 4294967288 ∧
      widestBytes.storeSizeInBits = .ok 4294967288 ∧
      ∀ context, ∃ cause later, widestBytes.pow2Vector.run context = .error cause later ∧
        TypeDerivation.pow2.Refuses widestBytes cause := by
  obtain ⟨sizes, derives⟩ := overflows_exactly admitted_widestBytes
  obtain ⟨bits, sizes⟩ := sizes rfl
  obtain rfl : 4294967288 = bits := Except.ok.inj sizes.size
  refine ⟨admitted_widestBytes, sizes, rfl, fun context => ⟨_, _, rfl, ?_⟩⟩
  rcases (derives .pow2 context).of_error rfl with ⟨refused, _⟩ | ⟨overflows, _⟩
  · exact refused
  · obtain ⟨_, count, isCount, many⟩ := overflows
    cases isCount
    exact absurd many (by decide)

/-- A vector of bits that is one bit narrower than `2 ^ 32` bits. -/
def widestBits : ValueType := .extended ⟨0, 0, .vector (.simple .i1) 4294967295⟩

/-- The vector of bits has neither a store size in bits nor a next power of two of elements. -/
theorem overflows_widestBits :
    widestBits.Admitted ∧ widestBits.isSized = true ∧
      widestBits.storeSizeInBits = .error .productOverflow ∧
      ∀ context, widestBits.pow2Vector.run context = .error .sumOverflow context := by
  have known : (Request.vector (.simple .i1) 4294967295).Known [] := by
    intro _ _ impossible
    cases impossible
  exact ⟨admitted_of_ask known rfl, rfl, rfl, fun _ => rfl⟩

end DagSelect
