/-
Module: DagSelect.Proofs.Payload
Purpose: Payloads and their written form. Every payload that is read is one that a line can carry: its
  numbers are in range, a constant fits the type of its node, and a symbol can stand between brackets.
  Such a payload is written between brackets and read back, unless the end of a symbol could be
  mistaken for an offset.
Main exports: Payload.Written, Payload.Legible, Payload.legible_of_readPayload,
  Payload.written_of_readPayload, Payload.inner?, Payload.Unsigned, Payload.Legible.readPayload_inner
-/
import DagSelect.Proofs.Reading

namespace DagSelect

/-! ### Numbers -/

theorem signExtend_signExtend (number : Int) (bits : Nat) :
    signExtend (signExtend number bits) bits = signExtend number bits := by
  unfold signExtend
  split
  · rfl
  · exact Int.bmod_bmod

/-- Sign extension stays in the range of 64 bits. -/
theorem inSignedRange_signExtend {number : Int} (inside : Text.InSignedRange 64 number)
    (bits : Nat) : Text.InSignedRange 64 (signExtend number bits) := by
  unfold signExtend
  split
  · exact inside
  · rename_i narrow
    have positive : 0 < twoPow bits := Nat.two_pow_pos bits
    have small : twoPow bits ≤ twoPow 63 := Nat.pow_le_pow_right (by decide) (by omega)
    have lower := Int.le_bmod (x := number) positive
    have upper := Int.bmod_lt (x := number) positive
    unfold Text.InSignedRange
    simp only [Int.ofNat_eq_natCast, Nat.add_one_sub_one]
    omega

theorem inSignedRange_of_readInt? {bits : Nat} {text : List Char} {number : Int}
    (read : Text.readInt? bits text = some number) : Text.InSignedRange bits number := by
  unfold Text.readInt? at read
  rw [Option.filter_eq_some_iff] at read
  unfold Text.InSignedRange
  simpa using read.2

theorem inSignedRange_of_readSigned {bits : Nat} {text : List Char} {number : Int}
    (read : readSigned bits text = .ok number) : Text.InSignedRange bits number := by
  unfold readSigned at read
  split at read
  · rename_i found
    cases read
    exact inSignedRange_of_readInt? found
  · cases read

theorem lt_of_readUnsigned {bits number : Nat} {text : List Char}
    (read : readUnsigned bits text = .ok number) : number < twoPow bits := by
  unfold readUnsigned at read
  split at read
  · rename_i found
    cases read
    simp only [Text.readNat?, Option.filter_eq_some_iff] at found
    simpa using found.2
  · cases read

theorem dropPlus_of_ne {text : List Char} (other : ∀ c ∈ text.head?, c ≠ '+') :
    dropPlus text = text := by
  unfold dropPlus
  split
  · exact absurd rfl (other '+' rfl)
  · rfl

theorem readSigned_plus {bits : Nat} {number : Int} (inside : Text.InSignedRange bits number) :
    readSigned bits ('+' :: (toString number).toList) = .ok number := by
  have dropped : dropPlus ('+' :: (toString number).toList) = (toString number).toList := rfl
  unfold readSigned
  rw [dropped, Text.readInt?_toString inside]

theorem readSigned_toString {bits : Nat} {number : Int} (inside : Text.InSignedRange bits number) :
    readSigned bits (toString number).toList = .ok number := by
  have noPlus : ∀ c ∈ (toString number).toList.head?, c ≠ '+' := by
    obtain ⟨digit, rest, digits, isDigit⟩ := Text.exists_digit_cons number.natAbs
    rw [Text.toList_toString_int]
    split
    · rintro _ ⟨⟩
      decide
    · rw [digits]
      rintro _ ⟨⟩ rfl
      cases isDigit
  unfold readSigned
  rw [dropPlus_of_ne noPlus, Text.readInt?_toString inside]

theorem readUnsigned_toString {bits number : Nat} (inside : number < twoPow bits) :
    readUnsigned bits (toString number).toList = .ok number := by
  have noPlus : ∀ c ∈ (toString number).toList.head?, c ≠ '+' := by
    obtain ⟨digit, rest, digits, isDigit⟩ := Text.exists_digit_cons number
    rw [Text.toList_toString_nat, digits]
    rintro _ ⟨⟩ rfl
    cases isDigit
  unfold readUnsigned
  rw [dropPlus_of_ne noPlus, Text.readNat?_toString inside]

/-! ### What is read can be written -/

namespace Payload

/-- A payload that a line can carry, with the result types of its node. -/
inductive Written (results : List ValueType) : PayloadKind → Payload → Prop
  | none : Written results .none .none
  | constant {value : Int} (integer : (results.headD .chain).isScalarInteger = true)
      (inside : Text.InSignedRange 64 value)
      (extended : signExtend value ((results.headD .chain).bits?.getD 0) = value) :
      Written results .constant (.constant value)
  | global {symbol : String} {offset : Int} (enclosed : Enclosed symbol.toList)
      (inside : Text.InSignedRange 64 offset) (named : offset ≠ 0 → symbol.toList ≠ []) :
      Written results .global (.global symbol offset)
  | external {symbol : String} (enclosed : Enclosed symbol.toList) :
      Written results .external (.external symbol)
  | frameIndex {index : Int} (inside : Text.InSignedRange 32 index) :
      Written results .frameIndex (.frameIndex index)
  | register {number : Nat} (inside : number < twoPow 32) :
      Written results .register (.register number)

variable {results : List ValueType} {payload : Payload}

theorem Written.kind_eq {kind : PayloadKind} (written : payload.Written results kind) :
    payload.kind = kind := by
  cases written <;> rfl

/-- A payload that a line can carry fits the opcode. -/
theorem Written.checkPayload {opcode : Opcode}
    (written : payload.Written results (writtenPayloadKind opcode)) :
    Dag.checkPayload opcode payload = .ok () := by
  cases opcode with
  | machine op => rfl
  | generic op => exact if_pos written.kind_eq.symm

/-- Only a constant depends on the types. -/
theorem Written.of_ne_constant {kind : PayloadKind} (written : payload.Written results kind)
    (noConstant : kind ≠ .constant) (other : List ValueType) : payload.Written other kind := by
  cases written with
  | none => exact .none
  | constant => exact absurd rfl noConstant
  | global enclosed inside named => exact .global enclosed inside named
  | external enclosed => exact .external enclosed
  | frameIndex inside => exact .frameIndex inside
  | register inside => exact .register inside

theorem Written.inSignedRange {kind : PayloadKind} {number : Int}
    (written : (Payload.constant number).Written results kind) : Text.InSignedRange 64 number := by
  cases written with
  | constant _ inside _ => exact inside

theorem isSign_of_isDigit {c : Char} (digit : c.isDigit = true) : isSign c = false := by
  have other : c ≠ '+' ∧ c ≠ '-' := by
    constructor <;>
      · rintro rfl
        cases digit
  simp [isSign, other]

/-- An offset is a sign and digits behind a symbol. Digits are no signs, so its sign is the last. -/
theorem splitOffset?_eq_some_iff {text symbol offset : List Char} :
    splitOffset? text = some (symbol, offset) ↔
      text = symbol ++ offset ∧ symbol ≠ [] ∧
        ∃ sign digits, offset = sign :: digits ∧ isSign sign = true ∧
          ∀ c ∈ digits, c.isDigit = true := by
  constructor
  · intro split
    unfold splitOffset? at split
    dsimp only at split
    split at split
    · rename_i sign rest dropped
      split at split
      · rename_i divides
        cases split
        simp only [Bool.and_eq_true, Bool.not_eq_true', List.isEmpty_eq_false_iff,
          List.all_eq_true] at divides
        have whole := List.takeWhile_append_dropWhile (p := fun c => !isSign c) (l := text.reverse)
        have isLast := List.head?_dropWhile_not (fun c => !isSign c) text.reverse
        rw [dropped] at whole isLast
        refine ⟨?_, by simpa using divides.1, sign, _, rfl, by simpa using isLast, divides.2⟩
        have forwards := congrArg List.reverse whole
        simpa using forwards.symm
      · cases split
    · cases split
  · rintro ⟨rfl, named, sign, digits, rfl, divides, allDigits⟩
    have others : ∀ c ∈ digits.reverse, (!isSign c) = true := by
      intro c member
      rw [isSign_of_isDigit (allDigits c (List.mem_reverse.mp member))]
      rfl
    have stop : ∀ c ∈ (sign :: symbol.reverse).head?, (!isSign c) = false := by
      rintro _ ⟨⟩
      rw [divides]
      rfl
    have reversed : (symbol ++ sign :: digits).reverse =
        digits.reverse ++ sign :: symbol.reverse := by simp
    unfold splitOffset?
    rw [reversed, Text.takeWhile_append_stop others stop, Text.dropWhile_append_stop others stop]
    simpa [named] using allDigits

/-- A symbol is read with its offset, or as a whole if no offset can be divided from it. -/
theorem readGlobal_eq_ok_iff {text : List Char} :
    readGlobal text = .ok payload ↔
      (splitOffset? text = .none ∧ payload = .global (String.ofList text) 0) ∨
      ∃ symbol tail offset, splitOffset? text = some (symbol, tail) ∧
        readSigned 64 tail = .ok offset ∧ payload = .global (String.ofList symbol) offset := by
  unfold readGlobal
  cases split : splitOffset? text with
  | none => simp [eq_comm]
  | some parts =>
      obtain ⟨symbol, tail⟩ := parts
      cases number : readSigned 64 tail with
      | error problem => simp [bind, Except.bind, number]
      | ok offset => simp [bind, Except.bind, pure, Except.pure, number, eq_comm]

/-- A payload as it is read, whatever its text: the numbers are in range, a constant fits the type of
its node, and an offset has a symbol before it. -/
inductive Legible (results : List ValueType) : PayloadKind → Payload → Prop
  | none : Legible results .none .none
  | constant {value : Int} (integer : (results.headD .chain).isScalarInteger = true)
      (inside : Text.InSignedRange 64 value)
      (extended : signExtend value ((results.headD .chain).bits?.getD 0) = value) :
      Legible results .constant (.constant value)
  | global {symbol : String} {offset : Int} (inside : Text.InSignedRange 64 offset)
      (named : offset ≠ 0 → symbol.toList ≠ []) : Legible results .global (.global symbol offset)
  | external (symbol : String) : Legible results .external (.external symbol)
  | frameIndex {index : Int} (inside : Text.InSignedRange 32 index) :
      Legible results .frameIndex (.frameIndex index)
  | register {number : Nat} (inside : number < twoPow 32) :
      Legible results .register (.register number)

theorem Written.legible {kind : PayloadKind} (written : payload.Written results kind) :
    payload.Legible results kind := by
  cases written with
  | none => exact .none
  | constant integer inside extended => exact .constant integer inside extended
  | global _ inside named => exact .global inside named
  | external _ => exact .external _
  | frameIndex inside => exact .frameIndex inside
  | register inside => exact .register inside

theorem legible_of_readGlobal {text : List Char} (read : readGlobal text = .ok payload) :
    payload.Legible results .global := by
  rcases readGlobal_eq_ok_iff.mp read with ⟨_, rfl⟩ | ⟨symbol, tail, offset, split, number, rfl⟩
  · exact .global (by decide) fun impossible => absurd rfl impossible
  · apply Legible.global (inSignedRange_of_readSigned number)
    intro _
    rw [String.toList_ofList]
    exact (splitOffset?_eq_some_iff.mp split).2.1

theorem legible_of_readPayload {opcode : Opcode} {text : Option (List Char)}
    (read : readPayload opcode results text = .ok payload) :
    payload.Legible results (writtenPayloadKind opcode) := by
  cases text with
  | none =>
      rw [readPayload] at read
      split at read
      · rename_i kind
        cases read
        rw [kind]
        exact .none
      · cases read
  | some text =>
      rw [readPayload] at read
      cases kind : writtenPayloadKind opcode with
      | none =>
          rw [kind] at read
          cases read
      | constant =>
          rw [kind] at read
          obtain ⟨value, valueRead, read⟩ := except_bind_eq_ok.mp read
          dsimp only at read
          split at read
          · rename_i integer
            cases read
            exact .constant integer
              (inSignedRange_signExtend (inSignedRange_of_readSigned valueRead) _)
              (signExtend_signExtend _ _)
          · cases read
      | global =>
          rw [kind, readPayloadText] at read
          split at read
          · exact legible_of_readGlobal read
          · cases read
      | external =>
          rw [kind, readPayloadText] at read
          split at read
          · cases read
            exact .external _
          · cases read
      | frameIndex =>
          rw [kind] at read
          obtain ⟨index, indexRead, read⟩ := except_bind_eq_ok.mp read
          cases read
          exact .frameIndex (inSignedRange_of_readSigned indexRead)
      | register =>
          rw [kind] at read
          obtain ⟨number, numberRead, read⟩ := except_bind_eq_ok.mp read
          cases read
          exact .register (lt_of_readUnsigned numberRead)

/-- The symbol of a payload, if it has one. -/
def symbol? : Payload → Option String
  | .global symbol _ => some symbol
  | .external symbol => some symbol
  | _ => .none

/-- A symbol is a part of the text that it is read from. -/
theorem symbol_subset {opcode : Opcode} {text : List Char} {symbol : String}
    (read : readPayload opcode results (some text) = .ok payload)
    (named : payload.symbol? = some symbol) : symbol.toList ⊆ text := by
  have legible := legible_of_readPayload read
  rw [readPayload] at read
  cases kind : writtenPayloadKind opcode with
  | global =>
      rw [kind, readPayloadText] at read
      split at read
      · rename_i inner stripped
        obtain rfl := Text.stripLeading?_eq_some_iff.mp stripped
        rcases readGlobal_eq_ok_iff.mp read with ⟨_, rfl⟩ | ⟨front, tail, offset, split, _, rfl⟩
        · cases named
          rw [String.toList_ofList]
          exact List.subset_cons_self _ _
        · cases named
          rw [String.toList_ofList, (splitOffset?_eq_some_iff.mp split).1]
          exact fun c member => List.mem_cons_of_mem _ (List.mem_append_left _ member)
      · cases read
  | external =>
      rw [kind, readPayloadText] at read
      split at read
      · rename_i inner stripped
        cases read
        cases named
        obtain ⟨opened, leading, trailing⟩ := Option.bind_eq_some_iff.mp stripped
        obtain rfl := Text.stripLeading?_eq_some_iff.mp leading
        obtain rfl := Text.stripTrailing?_eq_some_iff.mp trailing
        rw [String.toList_ofList]
        exact fun c member => List.mem_cons_of_mem _ (List.mem_append_left _ member)
      · cases read
  | none | constant | frameIndex | register =>
      rw [kind] at legible
      cases legible
      cases named

/-- Every payload that is read can be carried by a line. -/
theorem written_of_readPayload {opcode : Opcode} {text : Option (List Char)}
    (enclosed : ∀ inner, text = some inner → Enclosed inner)
    (read : readPayload opcode results text = .ok payload) :
    payload.Written results (writtenPayloadKind opcode) := by
  have legible := legible_of_readPayload read
  have symbolEnclosed : ∀ symbol, payload.symbol? = some symbol → Enclosed symbol.toList := by
    intro symbol named c member
    cases text with
    | none =>
        rw [readPayload] at read
        split at read
        · cases read
          cases named
        · cases read
    | some inner => exact enclosed inner rfl c (symbol_subset read named member)
  generalize writtenPayloadKind opcode = kind at legible
  cases legible with
  | none => exact .none
  | constant integer inside extended => exact .constant integer inside extended
  | global inside named => exact .global (symbolEnclosed _ rfl) inside named
  | external symbol => exact .external (symbolEnclosed _ rfl)
  | frameIndex inside => exact .frameIndex inside
  | register inside => exact .register inside

/-! ### What is written is read back -/

/-- What stands between the brackets of a payload, if it has any. -/
def inner? : Payload → Option (List Char)
  | .none => .none
  | .constant value => some (toString value).toList
  | .global symbol offset => some ('@' :: (symbol.toList ++ (renderOffset offset).toList))
  | .external symbol => some ('\'' :: (symbol.toList ++ ['\'']))
  | .frameIndex index => some (toString index).toList
  | .register number => some (toString number).toList

theorem toList_brackets (inner : String) :
    ("<" ++ inner ++ ">").toList = '<' :: (inner.toList ++ ['>']) := by
  simp only [String.toList_append]
  rfl

theorem toList_render (payload : Payload) :
    payload.render.toList =
      match payload.inner? with
      | .none => []
      | some inner => '<' :: (inner ++ ['>']) := by
  cases payload with
  | none => rfl
  | constant value => exact toList_brackets (toString value)
  | global symbol offset =>
      have written : render (.global symbol offset) =
          "<" ++ ("@" ++ symbol ++ renderOffset offset) ++ ">" := by
        apply String.toList_injective
        simp only [render, String.toList_append, toString, List.append_assoc]
        rfl
      rw [written, toList_brackets, String.toList_append, String.toList_append]
      rfl
  | external symbol =>
      have written : render (.external symbol) = "<" ++ ("'" ++ symbol ++ "'") ++ ">" := by
        apply String.toList_injective
        simp only [render, String.toList_append, toString, List.append_assoc]
        rfl
      rw [written, toList_brackets, String.toList_append, String.toList_append]
      rfl
  | frameIndex index => exact toList_brackets (toString index)
  | register number => exact toList_brackets (toString number)

theorem toList_renderOffset (offset : Int) :
    (renderOffset offset).toList =
      if offset = 0 then []
      else (if offset < 0 then '-' else '+') :: Nat.toDigits 10 offset.natAbs := by
  unfold renderOffset
  split
  · rfl
  · split
    · rename_i negative
      rw [Text.toList_toString_int, if_pos negative]
    · rename_i negative
      have written : s!"+{offset}" = "+" ++ toString offset := rfl
      rw [written, String.toList_append, Text.toList_toString_int, if_neg negative]
      rfl

end Payload

theorem enclosed_of_word {text : List Char} (word : Text.Word text) : Enclosed text := by
  intro c member
  refine ⟨?_, ?_, ?_⟩ <;>
    · rintro rfl
      exact absurd (word _ member) (by decide)

theorem enclosed_cons {c : Char} {text : List Char} (other : c ≠ '>' ∧ c ≠ ';' ∧ c ≠ '\n')
    (enclosed : Enclosed text) : Enclosed (c :: text) :=
  List.forall_mem_cons.mpr ⟨other, enclosed⟩

theorem Enclosed.append {text other : List Char} (enclosed : Enclosed text)
    (otherEnclosed : Enclosed other) : Enclosed (text ++ other) :=
  List.forall_mem_append.mpr ⟨enclosed, otherEnclosed⟩

theorem enclosed_toString (number : Int) : Enclosed (toString number).toList := by
  have digits := enclosed_of_word (Text.word_toDigits number.natAbs)
  rw [Text.toList_toString_int]
  split
  · exact enclosed_cons (by decide) digits
  · exact digits

namespace Payload

variable {results other : List ValueType} {payload : Payload}

theorem enclosed_renderOffset (offset : Int) : Enclosed (renderOffset offset).toList := by
  have digits := enclosed_of_word (Text.word_toDigits offset.natAbs)
  rw [toList_renderOffset]
  split
  · exact fun c member => absurd member List.not_mem_nil
  · split
    · exact enclosed_cons (by decide) digits
    · exact enclosed_cons (by decide) digits

/-- What is written between brackets can stand there. -/
theorem Written.enclosed_inner {kind : PayloadKind} (written : payload.Written results kind)
    {inner : List Char} (isInner : payload.inner? = some inner) : Enclosed inner := by
  cases written with
  | none => cases isInner
  | constant =>
      cases isInner
      exact enclosed_toString _
  | global enclosed =>
      cases isInner
      exact enclosed_cons (by decide) (enclosed.append (enclosed_renderOffset _))
  | external enclosed =>
      cases isInner
      refine enclosed_cons (by decide) (enclosed.append (enclosed_cons (by decide) ?_))
      exact fun c member => absurd member List.not_mem_nil
  | frameIndex =>
      cases isInner
      exact enclosed_toString _
  | @register number =>
      cases isInner
      rw [Text.toList_toString_nat]
      exact enclosed_of_word (Text.word_toDigits number)

/-- No sign in a symbol can be mistaken for that of an offset. -/
def Unsigned (symbol : String) : Prop :=
  '+' ∉ symbol.toList ∧ '-' ∉ symbol.toList

theorem splitOffset?_eq_none {text : List Char} (plus : '+' ∉ text) (minus : '-' ∉ text) :
    splitOffset? text = .none := by
  cases split : splitOffset? text with
  | none => rfl
  | some parts =>
      obtain ⟨rfl, _, sign, digits, same, divides, _⟩ := splitOffset?_eq_some_iff.mp split
      rw [same] at plus minus
      simp only [isSign, Bool.or_eq_true, beq_iff_eq] at divides
      rcases divides with rfl | rfl
      · simp at plus
      · simp at minus

theorem readGlobal_append {symbol : String} {sign : Char} {offset : Int}
    (divides : isSign sign = true) (named : symbol.toList ≠ [])
    (read : readSigned 64 (sign :: Nat.toDigits 10 offset.natAbs) = .ok offset) :
    readGlobal (symbol.toList ++ sign :: Nat.toDigits 10 offset.natAbs) =
      .ok (.global symbol offset) := by
  apply readGlobal_eq_ok_iff.mpr
  refine Or.inr ⟨symbol.toList, _, offset, ?_, read, by rw [String.ofList_toList]⟩
  exact splitOffset?_eq_some_iff.mpr
    ⟨rfl, named, sign, _, rfl, divides, fun _ => Text.isDigit_of_mem_toDigits⟩

/-- An offset other than zero is read back behind any symbol. -/
theorem readGlobal_render_of_ne {symbol : String} {offset : Int}
    (inside : Text.InSignedRange 64 offset) (named : symbol.toList ≠ []) (nonzero : offset ≠ 0) :
    readGlobal (symbol.toList ++ (renderOffset offset).toList) = .ok (.global symbol offset) := by
  rw [toList_renderOffset, if_neg nonzero]
  by_cases negative : offset < 0
  · have read := readSigned_toString inside
    rw [Text.toList_toString_int, if_pos negative] at read
    rw [if_pos negative]
    exact readGlobal_append (by decide) named read
  · have read := readSigned_plus inside
    rw [Text.toList_toString_int, if_neg negative] at read
    rw [if_neg negative]
    exact readGlobal_append (by decide) named read

/-- A payload is read back from its written form, with types that are alike, if its symbol is. -/
theorem Legible.readPayload_inner {opcode : Opcode}
    (legible : payload.Legible results (writtenPayloadKind opcode))
    (unsplit : ∀ symbol, payload = .global symbol 0 → splitOffset? symbol.toList = .none)
    (alike : (other.headD .chain).Alike (results.headD .chain)) :
    readPayload opcode other payload.inner? = .ok payload := by
  cases kind : writtenPayloadKind opcode with
  | none =>
      rw [kind] at legible
      cases legible
      rw [inner?, readPayload, if_pos kind]
  | constant =>
      rw [kind] at legible
      cases legible with
      | @constant value integer inside extended =>
          rw [inner?, readPayload, kind]
          refine except_bind_eq_ok.mpr ⟨value, readSigned_toString inside, ?_⟩
          dsimp only
          rw [if_pos (alike.isScalarInteger.trans integer), alike.bits, extended]
          rfl
  | global =>
      rw [kind] at legible
      cases legible with
      | @global symbol offset inside named =>
          rw [inner?, readPayload, kind, readPayloadText,
            Text.stripLeading?_eq_some_iff.mpr rfl]
          by_cases zero : offset = 0
          · subst zero
            apply readGlobal_eq_ok_iff.mpr
            rw [toList_renderOffset, if_pos rfl, List.append_nil, String.ofList_toList]
            exact Or.inl ⟨unsplit symbol rfl, rfl⟩
          · exact readGlobal_render_of_ne inside (named zero) zero
  | external =>
      rw [kind] at legible
      cases legible with
      | external symbol =>
          have stripped : (Text.stripLeading? '\'' ('\'' :: (symbol.toList ++ ['\'']))).bind
              (Text.stripTrailing? '\'') = some symbol.toList :=
            Option.bind_eq_some_iff.mpr ⟨_, Text.stripLeading?_eq_some_iff.mpr rfl,
              Text.stripTrailing?_eq_some_iff.mpr rfl⟩
          rw [inner?, readPayload, kind, readPayloadText, stripped]
          simp only [String.ofList_toList]
  | frameIndex =>
      rw [kind] at legible
      cases legible with
      | @frameIndex index inside =>
          rw [inner?, readPayload, kind]
          exact except_bind_eq_ok.mpr ⟨index, readSigned_toString inside, rfl⟩
  | register =>
      rw [kind] at legible
      cases legible with
      | @register number inside =>
          rw [inner?, readPayload, kind]
          exact except_bind_eq_ok.mpr ⟨number, readUnsigned_toString inside, rfl⟩

theorem Written.readPayload_inner {opcode : Opcode}
    (written : payload.Written results (writtenPayloadKind opcode))
    (unsigned : ∀ symbol offset, payload = .global symbol offset → Unsigned symbol)
    (alike : (other.headD .chain).Alike (results.headD .chain)) :
    readPayload opcode other payload.inner? = .ok payload := by
  apply written.legible.readPayload_inner _ alike
  intro symbol isGlobal
  obtain ⟨plus, minus⟩ := unsigned symbol 0 isGlobal
  exact splitOffset?_eq_none plus minus

end Payload

theorem Node.AsRead.written {machine : String → Option MachineOp} {id : NodeId} {node : Node}
    (asRead : node.AsRead machine id) :
    node.payload.Written node.results (writtenPayloadKind node.opcode) := by
  obtain ⟨text, enclosed, read⟩ := asRead.payload
  exact Payload.written_of_readPayload enclosed read

end DagSelect
