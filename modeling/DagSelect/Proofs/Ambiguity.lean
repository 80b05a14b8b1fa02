/-
Module: DagSelect.Proofs.Ambiguity
Purpose: Which payloads survive being written. A payload that was read is read back from its written
  form, with one exception: a symbol whose offset is zero is written without it, so that a symbol
  that itself ends in a sign and digits is read back as a shorter symbol with an offset, or is not
  read at all.
Main exports: Payload.EndsLikeOffset, Payload.Ambiguous, Payload.readPayload_inner_iff,
  payload_survives_exactly
-/
import DagSelect.Proofs.Payload

namespace DagSelect

namespace Payload

variable {opcode : Opcode} {results : List ValueType} {payload : Payload} {symbol : String}

/-- The text ends like an offset: with a sign that has something before it and only digits, or
nothing, behind it. -/
def EndsLikeOffset (text : List Char) : Prop :=
  ∃ stem sign digits, text = stem ++ sign :: digits ∧ stem ≠ [] ∧ isSign sign = true ∧
    ∀ c ∈ digits, c.isDigit = true

/-- The offset is zero, so it is not written, and the end of the symbol can be taken for one. -/
def Ambiguous (payload : Payload) : Prop :=
  ∃ symbol, payload = .global symbol 0 ∧ EndsLikeOffset symbol.toList

theorem splitOffset?_of_append {stem digits : List Char} {sign : Char} (named : stem ≠ [])
    (divides : isSign sign = true) (allDigits : ∀ c ∈ digits, c.isDigit = true) :
    splitOffset? (stem ++ sign :: digits) = some (stem, sign :: digits) :=
  splitOffset?_eq_some_iff.mpr ⟨rfl, named, sign, digits, rfl, divides, allDigits⟩

theorem splitOffset?_eq_none_iff {text : List Char} :
    splitOffset? text = .none ↔ ¬ EndsLikeOffset text := by
  constructor
  · rintro whole ⟨stem, sign, digits, rfl, named, divides, allDigits⟩
    rw [splitOffset?_of_append named divides allDigits] at whole
    cases whole
  · intro other
    cases split : splitOffset? text with
    | none => rfl
    | some parts =>
        obtain ⟨same, named, sign, digits, tail, divides, allDigits⟩ :=
          splitOffset?_eq_some_iff.mp split
        rw [tail] at same
        exact absurd ⟨parts.1, sign, digits, same, named, divides, allDigits⟩ other

/-- A symbol is read as itself only if no offset can be divided from it. -/
theorem readGlobal_eq_self_iff :
    readGlobal symbol.toList = .ok (.global symbol 0) ↔ ¬ EndsLikeOffset symbol.toList := by
  rw [← splitOffset?_eq_none_iff, readGlobal_eq_ok_iff]
  constructor
  · rintro (⟨whole, _⟩ | ⟨stem, tail, offset, split, _, same⟩)
    · exact whole
    · -- What is divided from an offset is shorter than the text.
      obtain ⟨parts, _, sign, digits, rfl, _⟩ := splitOffset?_eq_some_iff.mp split
      injection same with sameSymbol
      rw [sameSymbol, String.toList_ofList] at parts
      have lengths := congrArg List.length parts
      simp at lengths
  · intro whole
    exact Or.inl ⟨whole, by rw [String.ofList_toList]⟩

theorem readPayload_global (kind : writtenPayloadKind opcode = .global) (text : List Char) :
    readPayload opcode results (some ('@' :: text)) = readGlobal text := by
  rw [readPayload, kind, readPayloadText, Text.stripLeading?_eq_some_iff.mpr rfl]

theorem inner?_global_zero (symbol : String) :
    (Payload.global symbol 0).inner? = some ('@' :: symbol.toList) := by
  rw [inner?, toList_renderOffset, if_pos rfl, List.append_nil]

/-- A payload as it is read survives exactly if it is not ambiguous. -/
theorem readPayload_inner_iff (legible : payload.Legible results (writtenPayloadKind opcode)) :
    readPayload opcode results payload.inner? = .ok payload ↔ ¬ payload.Ambiguous := by
  constructor
  · rintro read ⟨symbol, rfl, ends⟩
    generalize kind : writtenPayloadKind opcode = expected at legible
    cases legible
    rw [inner?_global_zero, readPayload_global kind] at read
    exact readGlobal_eq_self_iff.mp read ends
  · intro clear
    apply legible.readPayload_inner _ ⟨rfl, rfl, rfl⟩
    intro symbol same
    exact splitOffset?_eq_none_iff.mpr fun ends => clear ⟨symbol, same, ends⟩

/-- What is read from the written form of an ambiguous payload: the symbol up to the sign, and the
rest as the offset, if it is a number in range. -/
theorem readPayload_inner_of_ends {stem digits : List Char} {sign : Char}
    (kind : writtenPayloadKind opcode = .global) (named : stem ≠ []) (divides : isSign sign = true)
    (allDigits : ∀ c ∈ digits, c.isDigit = true) :
    readPayload opcode results
        (Payload.global (String.ofList (stem ++ sign :: digits)) 0).inner? = do
      return .global (String.ofList stem) (← readSigned 64 (sign :: digits)) := by
  rw [inner?_global_zero, readPayload_global kind, String.toList_ofList, readGlobal,
    splitOffset?_of_append named divides allDigits]

/-- An ambiguous payload comes from a text that writes out an offset of zero. -/
theorem Ambiguous.exists_zero {text : Option (List Char)} (ambiguous : payload.Ambiguous)
    (read : readPayload opcode results text = .ok payload) :
    ∃ symbol zero, payload = .global symbol 0 ∧ text = some ('@' :: (symbol.toList ++ zero)) ∧
      readSigned 64 zero = .ok 0 := by
  obtain ⟨symbol, rfl, ends⟩ := ambiguous
  have legible := legible_of_readPayload read
  generalize kind : writtenPayloadKind opcode = expected at legible
  cases legible
  cases text with
  | none => simp [readPayload, kind] at read
  | some text =>
      rw [readPayload, kind, readPayloadText] at read
      split at read
      · rename_i inner stripped
        obtain rfl := Text.stripLeading?_eq_some_iff.mp stripped
        rcases readGlobal_eq_ok_iff.mp read with ⟨whole, same⟩ | ⟨stem, tail, offset, split, number, same⟩
        · injection same with sameSymbol
          rw [sameSymbol, String.toList_ofList] at ends
          exact absurd ends (splitOffset?_eq_none_iff.mp whole)
        · injection same with sameSymbol sameOffset
          subst sameOffset
          refine ⟨symbol, tail, rfl, ?_, number⟩
          rw [sameSymbol, String.toList_ofList, (splitOffset?_eq_some_iff.mp split).1]
      · cases read

end Payload

/-- Which payloads survive. The written form of a payload that was read stands in brackets, and what
stands between them is read as the same payload exactly if the payload is not ambiguous. An
ambiguous one is read as the shorter symbol with what follows it as the offset, and comes only from a
text in which a zero offset is written out. -/
theorem payload_survives_exactly {op : GenericOp} {results : List ValueType}
    {text : Option (List Char)} {payload : Payload}
    (read : readPayload (.generic op) results text = .ok payload) :
    (payload.render.toList =
      match payload.inner? with
      | none => []
      | some inner => '<' :: (inner ++ ['>'])) ∧
    (readPayload (.generic op) results payload.inner? = .ok payload ↔ ¬ payload.Ambiguous) ∧
    (∀ (stem : List Char) (sign : Char) (digits : List Char), stem ≠ [] → isSign sign = true →
      (∀ c ∈ digits, c.isDigit = true) →
      payload = .global (String.ofList (stem ++ sign :: digits)) 0 →
      readPayload (.generic op) results payload.inner? = do
        return .global (String.ofList stem) (← readSigned 64 (sign :: digits))) ∧
    (payload.Ambiguous → ∃ symbol zero, payload = .global symbol 0 ∧
      text = some ('@' :: (symbol.toList ++ zero)) ∧ readSigned 64 zero = .ok 0) := by
  have legible := Payload.legible_of_readPayload read
  refine ⟨payload.toList_render, Payload.readPayload_inner_iff legible, ?_, ?_⟩
  · rintro stem sign digits named divides allDigits rfl
    generalize kind : writtenPayloadKind (.generic op) = expected at legible
    cases legible
    exact Payload.readPayload_inner_of_ends kind named divides allDigits
  · exact fun ambiguous => ambiguous.exists_zero read

/-- A symbol with a sign in it survives with an offset behind it, however the offset was written. -/
theorem survives_signedSymbol :
    readPayload (.generic .globalAddress) [.simple .i16] (some "@a+b-07".toList) =
      .ok (.global "a+b" (-7)) ∧
    readPayload (.generic .globalAddress) [.simple .i16] (Payload.global "a+b" (-7)).inner? =
      .ok (.global "a+b" (-7)) := by
  have read : readPayload (.generic .globalAddress) [.simple .i16] (some "@a+b-07".toList) =
      .ok (.global "a+b" (-7)) := rfl
  have clear : ¬ (Payload.global "a+b" (-7)).Ambiguous := by
    rintro ⟨symbol, same, _⟩
    injection same with _ zero
    cases zero
  exact ⟨read, (payload_survives_exactly read).2.1.mpr clear⟩

/-- Two payloads that are read and do not survive: the written form of the first is refused, and that
of the second is read as a reference to another symbol. -/
theorem misread_signedSymbols :
    (readPayload (.generic .globalAddress) [.simple .i16] (some "@a-+0".toList) =
        .ok (.global "a-" 0) ∧
      readPayload (.generic .globalAddress) [.simple .i16] (Payload.global "a-" 0).inner? =
        .error (.badNumber "-")) ∧
    (readPayload (.generic .globalAddress) [.simple .i16] (some "@a-5+0".toList) =
        .ok (.global "a-5" 0) ∧
      readPayload (.generic .globalAddress) [.simple .i16] (Payload.global "a-5" 0).inner? =
        .ok (.global "a" (-5))) :=
  ⟨⟨rfl, rfl⟩, ⟨rfl, rfl⟩⟩

end DagSelect
