/-
Module: DagSelect.ValueType.Read
Purpose: Reading the name of a type. A name is an entry of the enumeration, `i` and a width, or `v`, a
  count and the name of the element. A name that no context can make a type of gives none.
Main exports: ValueType.ofChars, ValueType.ofName
-/
import DagSelect.Text.Numeral
import DagSelect.Text.Basic
import DagSelect.ValueType.Context

namespace DagSelect.ValueType

/-- The type with a name. The element of a vector is read, and so made, before the vector is
judged. -/
def ofChars (text : List Char) : Interning (Option ValueType) := do
  match SimpleType.ofName? (String.ofList text) with
  | some type => return some (.simple type)
  | none =>
    match text with
    | 'i' :: digits =>
      match Text.readNat? widthBound digits with
      | some bits =>
        if 1 ≤ bits ∧ bits ≤ maxIntegerBits then return some (← integer bits) else return none
      | none => return none
    | 'v' :: rest =>
      match Text.readNat? widthBound (rest.takeWhile Char.isDigit) with
      | none => return none
      | some count =>
        match ← ofChars (rest.dropWhile Char.isDigit) with
        | none => return none
        | some element =>
          if count = 0 || element.isVector || !TypeContext.fitsVector element count then
            return none
          else
            return some (← vector element count)
    | _ => return none
termination_by text.length
decreasing_by
  have := (List.dropWhile_sublist (l := rest) Char.isDigit).length_le
  simp only [List.length_cons]
  omega

/-- The type with a name. -/
def ofName (name : String) : Interning (Option ValueType) :=
  ofChars name.toList

end DagSelect.ValueType
