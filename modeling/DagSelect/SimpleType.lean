/-
Module: DagSelect.SimpleType
Purpose: The compact enumeration of machine value types that every target shares. One table gives
  each entry its printed name, another its form: an integer or float of a width, a vector of an
  element type and a count, or a special entry without a size.
Main exports: SimpleType, SimpleType.Form, SimpleType.all, SimpleType.ofName?, SimpleType.integer?,
  SimpleType.vector?, SimpleType.float?
-/
namespace DagSelect

/-- One entry of the enumeration. The order of the entries is the order that `rank` counts. -/
inductive SimpleType where
  | chain
  | i1 | i8 | i16 | i24 | i32 | i64 | i128
  | f16 | f32 | f64 | f80 | f128 | ppcf128
  | v2i1 | v4i1 | v8i1 | v16i1 | v32i1 | v64i1 | v512i1 | v1024i1
  | v1i8 | v2i8 | v4i8 | v8i8 | v16i8 | v32i8 | v64i8 | v128i8 | v256i8
  | v1i16 | v2i16 | v4i16 | v8i16 | v16i16 | v32i16 | v64i16 | v128i16
  | v1i32 | v2i32 | v4i32 | v8i32 | v16i32 | v32i32 | v64i32
  | v1i64 | v2i64 | v4i64 | v8i64 | v16i64 | v32i64
  | v1i128
  | v2f16 | v4f16 | v8f16
  | v1f32 | v2f32 | v4f32 | v8f32 | v16f32
  | v1f64 | v2f64 | v4f64 | v8f64
  | glue | void | untyped
  | anyPointer | anyVector | anyFloat | anyInteger | pointer
  deriving DecidableEq, Repr, Inhabited

namespace SimpleType

/-- What an entry describes. -/
inductive Form where
  /-- A scalar integer. -/
  | integer (bits : Nat)
  /-- A scalar floating-point number. -/
  | float (bits : Nat)
  /-- A vector of scalars. -/
  | vector (element : SimpleType) (count : Nat)
  /-- A value that has no size, such as a chain. -/
  | special
  /-- A placeholder that stands for several types while patterns are written. -/
  | overloaded
  deriving DecidableEq, Repr

/-- Every entry, in order. -/
def all : List SimpleType :=
  [.chain, .i1, .i8, .i16, .i24, .i32, .i64, .i128, .f16, .f32, .f64, .f80, .f128, .ppcf128, .v2i1,
   .v4i1, .v8i1, .v16i1, .v32i1, .v64i1, .v512i1, .v1024i1, .v1i8, .v2i8, .v4i8, .v8i8, .v16i8,
   .v32i8, .v64i8, .v128i8, .v256i8, .v1i16, .v2i16, .v4i16, .v8i16, .v16i16, .v32i16, .v64i16,
   .v128i16, .v1i32, .v2i32, .v4i32, .v8i32, .v16i32, .v32i32, .v64i32, .v1i64, .v2i64, .v4i64,
   .v8i64, .v16i64, .v32i64, .v1i128, .v2f16, .v4f16, .v8f16, .v1f32, .v2f32, .v4f32, .v8f32,
   .v16f32, .v1f64, .v2f64, .v4f64, .v8f64, .glue, .void, .untyped, .anyPointer, .anyVector,
   .anyFloat, .anyInteger, .pointer]

/-- The printed name of an entry. -/
def name : SimpleType → String
  | .chain => "ch"
  | .i1 => "i1"
  | .i8 => "i8"
  | .i16 => "i16"
  | .i24 => "i24"
  | .i32 => "i32"
  | .i64 => "i64"
  | .i128 => "i128"
  | .f16 => "f16"
  | .f32 => "f32"
  | .f64 => "f64"
  | .f80 => "f80"
  | .f128 => "f128"
  | .ppcf128 => "ppcf128"
  | .v2i1 => "v2i1"
  | .v4i1 => "v4i1"
  | .v8i1 => "v8i1"
  | .v16i1 => "v16i1"
  | .v32i1 => "v32i1"
  | .v64i1 => "v64i1"
  | .v512i1 => "v512i1"
  | .v1024i1 => "v1024i1"
  | .v1i8 => "v1i8"
  | .v2i8 => "v2i8"
  | .v4i8 => "v4i8"
  | .v8i8 => "v8i8"
  | .v16i8 => "v16i8"
  | .v32i8 => "v32i8"
  | .v64i8 => "v64i8"
  | .v128i8 => "v128i8"
  | .v256i8 => "v256i8"
  | .v1i16 => "v1i16"
  | .v2i16 => "v2i16"
  | .v4i16 => "v4i16"
  | .v8i16 => "v8i16"
  | .v16i16 => "v16i16"
  | .v32i16 => "v32i16"
  | .v64i16 => "v64i16"
  | .v128i16 => "v128i16"
  | .v1i32 => "v1i32"
  | .v2i32 => "v2i32"
  | .v4i32 => "v4i32"
  | .v8i32 => "v8i32"
  | .v16i32 => "v16i32"
  | .v32i32 => "v32i32"
  | .v64i32 => "v64i32"
  | .v1i64 => "v1i64"
  | .v2i64 => "v2i64"
  | .v4i64 => "v4i64"
  | .v8i64 => "v8i64"
  | .v16i64 => "v16i64"
  | .v32i64 => "v32i64"
  | .v1i128 => "v1i128"
  | .v2f16 => "v2f16"
  | .v4f16 => "v4f16"
  | .v8f16 => "v8f16"
  | .v1f32 => "v1f32"
  | .v2f32 => "v2f32"
  | .v4f32 => "v4f32"
  | .v8f32 => "v8f32"
  | .v16f32 => "v16f32"
  | .v1f64 => "v1f64"
  | .v2f64 => "v2f64"
  | .v4f64 => "v4f64"
  | .v8f64 => "v8f64"
  | .glue => "glue"
  | .void => "isVoid"
  | .untyped => "Untyped"
  | .anyPointer => "iPTRAny"
  | .anyVector => "vAny"
  | .anyFloat => "fAny"
  | .anyInteger => "iAny"
  | .pointer => "iPTR"

/-- The form of an entry. -/
def form : SimpleType → Form
  | .chain => .special
  | .i1 => .integer 1
  | .i8 => .integer 8
  | .i16 => .integer 16
  | .i24 => .integer 24
  | .i32 => .integer 32
  | .i64 => .integer 64
  | .i128 => .integer 128
  | .f16 => .float 16
  | .f32 => .float 32
  | .f64 => .float 64
  | .f80 => .float 80
  | .f128 => .float 128
  | .ppcf128 => .float 128
  | .v2i1 => .vector .i1 2
  | .v4i1 => .vector .i1 4
  | .v8i1 => .vector .i1 8
  | .v16i1 => .vector .i1 16
  | .v32i1 => .vector .i1 32
  | .v64i1 => .vector .i1 64
  | .v512i1 => .vector .i1 512
  | .v1024i1 => .vector .i1 1024
  | .v1i8 => .vector .i8 1
  | .v2i8 => .vector .i8 2
  | .v4i8 => .vector .i8 4
  | .v8i8 => .vector .i8 8
  | .v16i8 => .vector .i8 16
  | .v32i8 => .vector .i8 32
  | .v64i8 => .vector .i8 64
  | .v128i8 => .vector .i8 128
  | .v256i8 => .vector .i8 256
  | .v1i16 => .vector .i16 1
  | .v2i16 => .vector .i16 2
  | .v4i16 => .vector .i16 4
  | .v8i16 => .vector .i16 8
  | .v16i16 => .vector .i16 16
  | .v32i16 => .vector .i16 32
  | .v64i16 => .vector .i16 64
  | .v128i16 => .vector .i16 128
  | .v1i32 => .vector .i32 1
  | .v2i32 => .vector .i32 2
  | .v4i32 => .vector .i32 4
  | .v8i32 => .vector .i32 8
  | .v16i32 => .vector .i32 16
  | .v32i32 => .vector .i32 32
  | .v64i32 => .vector .i32 64
  | .v1i64 => .vector .i64 1
  | .v2i64 => .vector .i64 2
  | .v4i64 => .vector .i64 4
  | .v8i64 => .vector .i64 8
  | .v16i64 => .vector .i64 16
  | .v32i64 => .vector .i64 32
  | .v1i128 => .vector .i128 1
  | .v2f16 => .vector .f16 2
  | .v4f16 => .vector .f16 4
  | .v8f16 => .vector .f16 8
  | .v1f32 => .vector .f32 1
  | .v2f32 => .vector .f32 2
  | .v4f32 => .vector .f32 4
  | .v8f32 => .vector .f32 8
  | .v16f32 => .vector .f32 16
  | .v1f64 => .vector .f64 1
  | .v2f64 => .vector .f64 2
  | .v4f64 => .vector .f64 4
  | .v8f64 => .vector .f64 8
  | .glue => .special
  | .void => .special
  | .untyped => .special
  | .anyPointer => .overloaded
  | .anyVector => .overloaded
  | .anyFloat => .overloaded
  | .anyInteger => .overloaded
  | .pointer => .overloaded

/-- The position of an entry in the enumeration. -/
def rank (type : SimpleType) : Nat :=
  all.idxOf type

/-- The entry with a printed name. -/
def ofName? (text : String) : Option SimpleType :=
  all.find? fun type => type.name == text

/-! ### Classification -/

/-- Scalar integers only. -/
def isScalarInteger (type : SimpleType) : Bool :=
  match type.form with
  | .integer _ => true
  | _ => false

/-- Scalar floats only. -/
def isScalarFloat (type : SimpleType) : Bool :=
  match type.form with
  | .float _ => true
  | _ => false

/-- Vectors of either kind of element. -/
def isVector (type : SimpleType) : Bool :=
  match type.form with
  | .vector _ _ => true
  | _ => false

/-- Integers and vectors of integers. -/
def isInteger (type : SimpleType) : Bool :=
  match type.form with
  | .integer _ => true
  | .vector element _ => element.isScalarInteger
  | _ => false

/-- Floats and vectors of floats. -/
def isFloatingPoint (type : SimpleType) : Bool :=
  match type.form with
  | .float _ => true
  | .vector element _ => element.isScalarFloat
  | _ => false

/-- The placeholders of pattern writing. -/
def isOverloaded (type : SimpleType) : Bool :=
  match type.form with
  | .overloaded => true
  | _ => false

/-! ### Sizes and parts -/

/-- The width of a scalar entry; the entries without one count as zero. -/
def scalarBits (type : SimpleType) : Nat :=
  match type.form with
  | .integer bits | .float bits => bits
  | _ => 0

/-- The width of an entry, if it has one. -/
def bits? (type : SimpleType) : Option Nat :=
  match type.form with
  | .integer bits | .float bits => some bits
  | .vector element count => some (element.scalarBits * count)
  | .special | .overloaded => none

/-- Whether an entry has a fixed width. -/
def isSized (type : SimpleType) : Bool :=
  type.bits?.isSome

/-- Whether an entry is a vector of exactly `bits` bits in all. -/
def isVectorOfBits (bits : Nat) (type : SimpleType) : Bool :=
  type.isVector && type.bits? == some bits

/-- The element type of a vector entry. -/
def element? (type : SimpleType) : Option SimpleType :=
  match type.form with
  | .vector element _ => some element
  | _ => none

/-- The element count of a vector entry. -/
def count? (type : SimpleType) : Option Nat :=
  match type.form with
  | .vector _ count => some count
  | _ => none

/-! ### Entries by form -/

/-- The scalar integer entries, narrowest first. -/
def integers : List SimpleType :=
  [.i1, .i8, .i16, .i24, .i32, .i64, .i128]

/-- The scalar integer entry of exactly `bits` bits. -/
def integer? (bits : Nat) : Option SimpleType :=
  integers.find? fun type => type.bits? == some bits

/-- The vector entry with a given element type and count. -/
def vector? (element : SimpleType) (count : Nat) : Option SimpleType :=
  all.find? fun type => type.form == .vector element count

/-- The floating-point entry of a width. Two formats have 128 bits; this is the one called `f128`. -/
def float? : Nat → Option SimpleType
  | 16 => some .f16
  | 32 => some .f32
  | 64 => some .f64
  | 80 => some .f80
  | 128 => some .f128
  | _ => none

end SimpleType

end DagSelect
