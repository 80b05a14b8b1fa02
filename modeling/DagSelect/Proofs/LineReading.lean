/-
Module: DagSelect.Proofs.LineReading
Purpose: What the line of a node says. A line is first cut into its pieces, and the pieces say what
  the node is: its result types, its opcode, its payload and its operands. Reading a line finds just
  this or refuses the line. It could break off only where the node is defined, since every name is a
  type or is refused.
Main exports: NodeLine, NodeLine.ofLine?, NodeLine.Describes, ValueType.ofChars_answers,
  readType_eq_ok, readNode_ends, Draft.Takes, readLine_ends
-/
import DagSelect.Dag.Read
import DagSelect.Proofs.Interning
import Mathlib.Data.List.Forall2

namespace DagSelect

/-! ### Names of types -/

namespace ValueType

theorem integer_answers {bits : Nat} (positive : 1 ≤ bits) (bounded : bits ≤ maxIntegerBits)
    (context : TypeContext) :
    Ends (fun _ _ => True) (fun _ _ => False) ((integer bits).run context) := by
  unfold integer
  split
  · trivial
  · have valid : (Request.integer bits).Valid := ⟨positive, bounded⟩
    exact .bind (valid.answers context) fun _ _ _ => trivial

/-- A scalar that has a width with the count can be the element of a vector. -/
theorem valid_of_fitsVector {element : ValueType} {count : Nat} (inhabited : count ≠ 0)
    (scalar : element.isVector = false) (fits : TypeContext.fitsVector element count = true) :
    (Request.vector element count).Valid := by
  have positive := Nat.one_le_iff_ne_zero.mpr inhabited
  match element with
  | .simple type =>
      have sized : type.isSized = true := by
        cases width : type.bits? with
        | some bits => simp [SimpleType.isSized, width]
        | none => simp [TypeContext.fitsVector, bits?, width] at fits
      rw [TypeContext.fitsVector_simple sized scalar, decide_eq_true_eq] at fits
      exact ⟨positive, sized, scalar, fits⟩
  | .extended ⟨_, _, .integer _⟩ => exact ⟨positive, decide_eq_true_eq.mp fits⟩
  | .extended ⟨_, _, .vector _ _⟩ => cases scalar

theorem vector_answers {element : ValueType} {count : Nat}
    (valid : (Request.vector element count).Valid) (context : TypeContext) :
    Ends (fun _ _ => True) (fun _ _ => False) ((vector element count).run context) := by
  unfold vector
  split
  · trivial
  · exact .bind (valid.answers context) fun _ _ _ => trivial

/-- Every text is the name of a type or is found to be none. -/
theorem ofChars_answers (text : List Char) (context : TypeContext) :
    Ends (fun _ _ => True) (fun _ _ => False) ((ofChars text).run context) := by
  -- The name of an element is shorter than that of the vector.
  induction size : text.length using Nat.strongRecOn generalizing text context with
  | _ size inductionHypothesis =>
      unfold ofChars
      split
      · trivial
      · split
        · split
          · split
            · rename_i allowed
              exact .bind (integer_answers allowed.1 allowed.2 context) fun _ _ _ => trivial
            · trivial
          · trivial
        · split
          · trivial
          · refine .bind (inductionHypothesis _ ?_ _ context rfl) fun element middle _ => ?_
            · rw [← size, List.length_cons]
              exact Nat.lt_succ_of_le (List.dropWhile_sublist _).length_le
            · split
              · trivial
              · split
                · trivial
                · rename_i judged
                  simp only [Bool.or_eq_true, decide_eq_true_eq, Bool.not_eq_true', not_or,
                    Bool.not_eq_true, Bool.not_eq_false] at judged
                  obtain ⟨⟨inhabited, scalar⟩, fits⟩ := judged
                  have valid := valid_of_fitsVector inhabited scalar fits
                  exact .bind (vector_answers valid middle) fun _ _ _ => trivial
        · trivial

end ValueType

/-! ### The pieces of a line -/

/-- The pieces of the line of a node. -/
structure NodeLine where
  label : List Char
  types : List (List Char)
  opcode : List Char
  payload : Option (List Char)
  operands : List (List Char)
  deriving DecidableEq, Repr

/-- Cuts the line of a node into its pieces. -/
def NodeLine.ofLine? (line : List Char) : Option NodeLine := do
  let (label, rest) ← Text.cut? ':' line
  let (types, expression) ← Text.cut? '=' rest
  let body := Text.trim expression
  let (payload, operands) ← (splitPayload (body.dropWhile fun c => !endsOpcode c)).toOption
  return {
    label := Text.trim label
    types := (Text.fields ',' types).map Text.trim
    opcode := body.takeWhile fun c => !endsOpcode c
    payload
    operands := ((Text.fields ',' operands).map Text.trim).filter fun operand => !operand.isEmpty }

/-- What the pieces say about a node. The names of the types are read in a context that has all the
types already, and the operands name nodes of a graph. -/
structure NodeLine.Describes (pieces : NodeLine) (machine : String → Option MachineOp)
    (graph : LabelledDag) (context : TypeContext) (node : Node) : Prop where
  results : List.Forall₂
    (fun name type => (ValueType.ofChars name).run context = .ok (some type) context)
    pieces.types node.results
  opcode : readOpcode machine pieces.opcode = .ok node.opcode
  payload : readPayload node.opcode node.results pieces.payload = .ok node.payload
  operands : List.Forall₂ (fun name value => readValue graph name = .ok value)
    pieces.operands node.operands

/-! ### Reading a line -/

/-- The text is at fault. -/
def LineFailure.IsProblem (failure : LineFailure) : Prop :=
  ∃ problem, failure = .problem problem

/-- A pure part of the reader finds a problem, or reading goes on with what it finds. -/
theorem LineReading.ofExcept_bind {α β : Type} {answer : Except ReadProblem α}
    {next : α → LineReading β} {returned : β → TypeContext → Prop}
    {failed : LineFailure → TypeContext → Prop} {context : TypeContext}
    (problems : ∀ failure, failure.IsProblem → failed failure context)
    (continues : ∀ a, answer = .ok a → Ends returned failed ((next a).run context)) :
    Ends returned failed ((ofExcept answer >>= next).run context) := by
  cases answer with
  | ok a => exact continues a rfl
  | error problem => exact problems _ ⟨problem, rfl⟩

theorem readType_eq_ok {text : List Char} {context later : TypeContext} {type : ValueType} :
    (readType text).run context = .ok type later ↔
      (ValueType.ofChars text).run context = .ok (some type) later := by
  unfold readType
  simp only [run_bind_eq_ok, run_adaptExcept_eq_ok]
  constructor
  · rintro ⟨found, middle, named, read⟩
    cases found with
    | none => cases read
    | some type =>
        cases read
        exact named
  · intro named
    exact ⟨some type, later, named, rfl⟩

theorem readType_ends (text : List Char) (context : TypeContext) :
    Ends (fun _ _ => True) (fun failure _ => failure.IsProblem) ((readType text).run context) := by
  refine .bind (.adaptExcept ((ValueType.ofChars_answers text context).mono (fun _ _ _ => trivial)
    fun _ _ impossible => impossible.elim)) fun found later _ => ?_
  cases found with
  | none => exact ⟨_, rfl⟩
  | some type => trivial

theorem readType_repeatable (text : List Char) : Repeatable (readType text) := by
  refine .bind (.adaptExcept _ (ValueType.ofChars_repeatable text)) fun found => ?_
  cases found with
  | none => exact .throw _
  | some type => exact .pure _

/-- A label is new. -/
theorem readLabel_eq_ok {graph : LabelledDag} {text : List Char} {label : String}
    (read : readLabel graph text = .ok label) :
    label = String.ofList text ∧ graph.find? label = none := by
  unfold readLabel at read
  dsimp only at read
  split at read
  · cases read
  · split at read
    · cases read
    · rename_i isNew
      cases read
      exact ⟨rfl, Option.not_isSome_iff_eq_none.mp isNew⟩

/-- The pieces of the line of a node, with a new label, and the node that they say. -/
structure NodeLine.Reads (machine : String → Option MachineOp) (graph : LabelledDag)
    (context : TypeContext) (line : List Char) (pieces : NodeLine) (node : Node) : Prop where
  cut : ofLine? line = some pieces
  isNew : graph.find? (String.ofList pieces.label) = none
  describes : pieces.Describes machine graph context node

/-- A line that is read says a node, which is defined. Reading breaks off only if that does. -/
theorem readNode_ends (machine : String → Option MachineOp) (graph : LabelledDag)
    (line : List Char) (context : TypeContext) :
    Ends
      (fun graph' later => context.Grows later ∧ ∃ pieces node,
        NodeLine.Reads machine graph later line pieces node ∧
        graph.define (String.ofList pieces.label) node.opcode node.results node.operands
          node.payload = .ok graph')
      (fun failure later => failure.IsProblem ∨ ∃ pieces node cause,
        NodeLine.Reads machine graph later line pieces node ∧
        graph.define (String.ofList pieces.label) node.opcode node.results node.operands
          node.payload = .error cause)
      ((readNode machine graph line).run context) := by
  unfold readNode
  cases colon : Text.cut? ':' line with
  | none => exact Or.inl ⟨_, rfl⟩
  | some atColon =>
      obtain ⟨labelText, rest⟩ := atColon
      refine LineReading.ofExcept_bind (fun _ => Or.inl) fun label labelRead => ?_
      obtain ⟨rfl, isNew⟩ := readLabel_eq_ok labelRead
      cases equals : Text.cut? '=' rest with
      | none => exact Or.inl ⟨_, rfl⟩
      | some atEquals =>
          obtain ⟨typeText, expression⟩ := atEquals
          have typesEnd := (Ends.mapM (fun type => readType_ends (Text.trim type))
            (Text.fields ',' typeText) context).with_run
          refine .bind (typesEnd.mono (fun _ _ read => read.1) fun _ _ => Or.inl) ?_
          intro results later typesRead
          obtain ⟨grows, readAgain⟩ := Repeatable.mapM_eq_ok
            (fun type => readType_repeatable (Text.trim type)) typesRead
          refine LineReading.ofExcept_bind (fun _ => Or.inl) fun opcode opcodeRead => ?_
          refine LineReading.ofExcept_bind (fun _ => Or.inl) ?_
          rintro ⟨payloadText, operandText⟩ split
          refine LineReading.ofExcept_bind (fun _ => Or.inl) fun payload payloadRead => ?_
          refine LineReading.ofExcept_bind (fun _ => Or.inl) fun operands operandsRead => ?_
          have cut : NodeLine.ofLine? line = some {
              label := Text.trim labelText
              types := (Text.fields ',' typeText).map Text.trim
              opcode := (Text.trim expression).takeWhile fun c => !endsOpcode c
              payload := payloadText
              operands := ((Text.fields ',' operandText).map Text.trim).filter
                fun operand => !operand.isEmpty } := by
            rw [NodeLine.ofLine?, colon]
            simp only [Option.bind_eq_bind, Option.bind_some, equals, split, Except.toOption]
            rfl
          have typeNames := (readAgain later (.refl later)).imp fun _ _ => readType_eq_ok.mp
          have reads : NodeLine.Reads machine graph later line _
              ⟨opcode, results, operands, payload, .unvisited, 0⟩ :=
            ⟨cut, isNew, List.forall₂_map_left_iff.mpr typeNames, opcodeRead, payloadRead,
              forall₂_of_mapM_eq_ok operandsRead⟩
          cases defined : graph.define (String.ofList (Text.trim labelText)) opcode results operands
              payload with
          | ok graph' => exact ⟨grows, _, _, reads, defined⟩
          | error cause => exact Or.inr ⟨_, _, cause, reads, defined⟩

/-- What follows the word that gives the root, if a line begins with it. -/
def rootText? : List Char → Option (List Char)
  | 'r' :: 'o' :: 'o' :: 't' :: ' ' :: value => some value
  | _ => none

/-- What a line without its comment and the blanks around it adds to a draft: nothing if it is
empty, else the root, or a node. Nothing is added to a draft with a root. -/
inductive Draft.Takes (machine : String → Option MachineOp) (draft : Draft) (text : List Char)
    (context : TypeContext) : Draft → TypeContext → Prop
  | blank (empty : text = []) : Takes machine draft text context draft context
  | root {value : List Char} {root : Value} (rootless : draft.root = none)
      (isRoot : rootText? text = some value)
      (read : readValue draft.graph (Text.trim value) = .ok root) :
      Takes machine draft text context { draft with root := some root } context
  | node {graph : LabelledDag} {later : TypeContext} (rootless : draft.root = none)
      (nonempty : text ≠ []) (notRoot : rootText? text = none)
      (read : (readNode machine draft.graph text).run context = .ok graph later) :
      Takes machine draft text context { draft with graph } later

/-- A line is taken, or its text is at fault, unless the line of a node breaks off. -/
theorem readLine_ends (machine : String → Option MachineOp) (draft : Draft) (line : List Char)
    (context : TypeContext) :
    Ends (fun draft' later => draft.Takes machine (lineText line) context draft' later)
      (fun failure later => failure.IsProblem ∨
        (readNode machine draft.graph (lineText line)).run context = .error failure later)
      ((readLine machine draft line).run context) := by
  unfold readLine
  split
  · rename_i empty
    exact .blank empty
  · rename_i nonempty
    refine .refuse (fun _ => Or.inl ⟨_, rfl⟩) fun noRoot => ?_
    have rootless : draft.root = none := Option.not_isSome_iff_eq_none.mp noRoot
    split
    · rename_i value isRoot
      refine LineReading.ofExcept_bind (fun _ => Or.inl) fun root read => ?_
      exact .root rootless (by rw [isRoot]; rfl) read
    · rename_i notRoot
      have isNode : rootText? (lineText line) = none := by
        unfold rootText?
        split
        · rename_i value isRoot
          exact absurd isRoot (notRoot value)
        · rfl
      cases read : (readNode machine draft.graph (lineText line)).run context with
      | ok graph later =>
          rw [EStateM.run_bind, read]
          exact .node rootless nonempty isNode read
      | error failure later =>
          rw [EStateM.run_bind, read]
          exact Or.inr rfl

end DagSelect
