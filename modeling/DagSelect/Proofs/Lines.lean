/-
Module: DagSelect.Proofs.Lines
Purpose: A line that describes a node is read back. A graph whose labels are the positions knows the
  labels of all its nodes, so values and operands come back as they were written; with them the
  opcode, the payload and types that are alike. The line then adds a node with these parts.
Main exports: LabelledDag.Numbered, readValue_render, readOperands_render, exists_readTypes, Inline,
  Node.toList_describe, Node.redefined, exists_readNode_describe, exists_readLine_describe,
  readLine_root
-/
import DagSelect.Proofs.Writable
import Mathlib.Data.List.Forall2

namespace DagSelect

variable {machine : String → Option MachineOp} {graph graph' : LabelledDag}

/-! ### Labels -/

namespace NodeId

theorem toList_label (id : NodeId) : (label id).toList = 't' :: Nat.toDigits 10 id := by
  change ("t" ++ toString id).toList = _
  rw [String.toList_append, Text.toList_toString_nat]
  rfl

theorem word_label (id : NodeId) : Text.Word (label id).toList := by
  rw [toList_label]
  exact Text.word_cons (by decide) (Text.word_toDigits id)

theorem label_inj {id other : NodeId} : label id = label other ↔ id = other := by
  refine ⟨fun same => ?_, congrArg label⟩
  have digits := congrArg String.toList same
  rw [toList_label, toList_label] at digits
  have read := Text.readDigits?_toDigits id
  rw [(List.cons.inj digits).2, Text.readDigits?_toDigits] at read
  exact (Option.some.inj read).symm

theorem lookup_label (ids : List NodeId) (id : NodeId) :
    (ids.map fun id => (label id, id)).lookup (label id) = if id ∈ ids then some id else none := by
  induction ids with
  | nil => rfl
  | cons first rest inductionHypothesis =>
      rw [List.map_cons, List.lookup_cons]
      by_cases same : id = first
      · simp [same]
      · have different : (label id == label first) = false := by
          simpa [label_inj] using same
        rw [different, inductionHypothesis]
        simp [same]

end NodeId

/-- The labels of the nodes are their positions. -/
def LabelledDag.Numbered (graph : LabelledDag) : Prop :=
  graph.labels = graph.dag.ids.map fun id => (NodeId.label id, id)

theorem LabelledDag.Numbered.find? (numbered : graph.Numbered) (id : NodeId) :
    graph.find? (NodeId.label id) = if id < graph.dag.size then some id else none := by
  rw [LabelledDag.find?, numbered, NodeId.lookup_label]
  simp [Dag.ids]

/-! ### Values -/

namespace Value

theorem toList_render (value : Value) :
    value.render.toList =
      (NodeId.label value.node).toList ++
        if value.result = 0 then [] else ':' :: Nat.toDigits 10 value.result := by
  unfold render renderWith
  split
  · rw [List.append_nil]
  · change (NodeId.label value.node ++ ":" ++ toString value.result).toList = _
    rw [String.toList_append, String.toList_append, Text.toList_toString_nat, List.append_assoc]
    rfl

/-- Besides letters and digits, a written value holds only colons. -/
theorem mem_render {value : Value} {c : Char} (member : c ∈ value.render.toList) :
    c.isAlphanum = true ∨ c = ':' := by
  rw [toList_render, List.mem_append] at member
  rcases member with inLabel | later
  · exact Or.inl (NodeId.word_label _ c inLabel)
  · split at later
    · cases later
    · rcases List.mem_cons.mp later with rfl | digit
      · exact Or.inr rfl
      · exact Or.inl (Text.word_toDigits _ c digit)

theorem tight_render (value : Value) : Text.Tight value.render.toList := by
  refine Text.tight_of_forall fun c member => ?_
  rcases mem_render member with plain | rfl
  · exact Text.isBlank_of_isAlphanum plain
  · decide

theorem render_ne_nil (value : Value) : value.render.toList ≠ [] := by
  rw [toList_render, NodeId.toList_label]
  exact List.cons_ne_nil _ _

theorem not_mem_render {value : Value} {c : Char} (plain : c.isAlphanum = false) (noColon : c ≠ ':') :
    c ∉ value.render.toList := by
  intro member
  rcases mem_render member with other | same
  · rw [plain] at other
    cases other
  · exact noColon same

end Value

theorem LabelledDag.Numbered.value (numbered : graph.Numbered) {value : Value}
    (resolves : graph.dag.Resolves value) :
    graph.value (NodeId.label value.node).toList value.result = .ok value := by
  obtain ⟨node, found, inside⟩ := resolves
  rw [LabelledDag.value, String.ofList_toList, numbered.find?, if_pos (Dag.lt_size_of_node? found)]
  simp [found, inside]

/-- A value is read back. -/
theorem readValue_render (numbered : graph.Numbered) {value : Value}
    (resolves : graph.dag.Resolves value) (inRange : value.result < twoPow 32) :
    readValue graph value.render.toList = .ok value := by
  have known := numbered.value resolves
  have noColon : ':' ∉ (NodeId.label value.node).toList :=
    (NodeId.word_label value.node).not_mem (by decide)
  rw [readValue_eq, Value.toList_render]
  by_cases first : value.result = 0
  · rw [if_pos first, List.append_nil, Text.cut?_eq_none noColon]
    rw [first] at known
    exact known
  · rw [if_neg first, Text.cut?_eq_some_iff.mpr ⟨rfl, noColon⟩]
    have digits := Text.readNat?_toString inRange
    rw [Text.toList_toString_nat] at digits
    simp only [digits]
    exact known

theorem toList_renderOperands (operands : List Value) :
    (Node.renderOperands NodeId.label operands).toList =
      if operands = [] then []
      else ' ' :: [',', ' '].intercalate (operands.map fun value => value.render.toList) := by
  unfold Node.renderOperands
  cases operands with
  | nil => rfl
  | cons value rest =>
      simp only [List.isEmpty_cons, Bool.false_eq_true, if_false]
      rw [String.toList_append, String.toList_intercalate, List.map_map,
        if_neg (List.cons_ne_nil _ _)]
      rfl

theorem mapM_readValue (numbered : graph.Numbered) {operands : List Value}
    (resolve : ∀ value ∈ operands, graph.dag.Resolves value)
    (inRange : ∀ value ∈ operands, value.result < twoPow 32) :
    (operands.map fun value => value.render.toList).mapM (readValue graph) = .ok operands := by
  induction operands with
  | nil => rfl
  | cons value rest inductionHypothesis =>
      rw [List.forall_mem_cons] at resolve inRange
      rw [List.map_cons, List.mapM_cons, readValue_render numbered resolve.1 inRange.1]
      exact except_bind_eq_ok.mpr ⟨_, rfl, except_bind_eq_ok.mpr
        ⟨_, inductionHypothesis resolve.2 inRange.2, rfl⟩⟩

/-- Operands are read back. -/
theorem readOperands_render (numbered : graph.Numbered) {operands : List Value}
    (resolve : ∀ value ∈ operands, graph.dag.Resolves value)
    (inRange : ∀ value ∈ operands, value.result < twoPow 32) :
    readOperands graph (Node.renderOperands NodeId.label operands).toList = .ok operands := by
  rw [readOperands, toList_renderOperands]
  by_cases none : operands = []
  · rw [if_pos none, none]
    rfl
  · rw [if_neg none, Text.map_trim_fields_cons (by decide) (by decide), Text.map_trim_fields]
    · rw [List.filter_eq_self.mpr, mapM_readValue numbered resolve inRange]
      rw [List.forall_mem_map]
      intro value _
      simpa using value.render_ne_nil
    · exact List.forall_mem_singleton.mpr (by decide)
    · simpa using none
    · exact List.forall_mem_map.mpr fun _ _ => Value.not_mem_render (by decide) (by decide)
    · decide
    · exact List.forall_mem_map.mpr fun value _ => value.tight_render

/-! ### Types -/

/-- Types are read back from their names, as types that are alike. -/
theorem exists_readTypes {types : List ValueType} (canonical : ∀ type ∈ types, type.Canonical)
    {texts : List (List Char)}
    (named : texts.map Text.trim = types.map fun type => type.name.toList)
    (context : TypeContext) :
    ∃ others context', (texts.mapM fun text => readType (Text.trim text)).run context =
      .ok others context' ∧ List.Forall₂ ValueType.Alike others types := by
  induction types generalizing texts context with
  | nil =>
      rw [List.map_eq_nil_iff.mp named]
      exact ⟨[], context, rfl, .nil⟩
  | cons type rest inductionHypothesis =>
      rw [List.forall_mem_cons] at canonical
      obtain ⟨text, texts, rfl, trimmed, restNamed⟩ := List.map_eq_cons_iff.mp named
      obtain ⟨other, middle, read, alike⟩ := canonical.1.exists_ofChars context
      obtain ⟨others, context', restRead, restAlike⟩ :=
        inductionHypothesis canonical.2 restNamed middle
      have typeRead : (readType (Text.trim text)).run context = .ok other middle := by
        rw [trimmed]
        exact run_bind_eq_ok.mpr ⟨_, _, run_adaptExcept_eq_ok.mpr read, rfl⟩
      refine ⟨other :: others, context', ?_, .cons alike restAlike⟩
      rw [List.mapM_cons]
      exact run_bind_eq_ok.mpr ⟨_, _, typeRead, run_bind_eq_ok.mpr ⟨_, _, restRead, rfl⟩⟩

theorem alike_headD {types others : List ValueType}
    (alike : List.Forall₂ ValueType.Alike others types) (some : types ≠ []) :
    (others.headD .chain).Alike (types.headD .chain) := by
  cases alike with
  | nil => exact absurd rfl some
  | cons first _ => exact first

/-! ### The parts of a line -/

/-- A text that can stand in a line outside of comments. -/
def Inline (text : List Char) : Prop :=
  ∀ c ∈ text, c ≠ ';' ∧ c ≠ '\n'

instance decidableInline (text : List Char) : Decidable (Inline text) :=
  List.decidableBAll _ text

theorem Enclosed.inline {text : List Char} (enclosed : Enclosed text) : Inline text :=
  fun c member => (enclosed c member).2

theorem Inline.append {text other : List Char} (inline : Inline text) (otherInline : Inline other) :
    Inline (text ++ other) :=
  List.forall_mem_append.mpr ⟨inline, otherInline⟩

theorem inline_cons {c : Char} {text : List Char} (other : c ≠ ';' ∧ c ≠ '\n')
    (inline : Inline text) : Inline (c :: text) :=
  List.forall_mem_cons.mpr ⟨other, inline⟩

theorem inline_nil : Inline [] :=
  fun _ member => absurd member List.not_mem_nil

theorem Value.inline_render (value : Value) : Inline value.render.toList := by
  intro c member
  constructor <;>
    · rintro rfl
      exact Value.not_mem_render (by decide) (by decide) member

theorem lineText_of_inline {line : List Char} (inline : Inline line) (tight : Text.Tight line) :
    lineText line = line := by
  rw [lineText, List.takeWhile_eq_self_iff.mpr, Text.trim_of_tight tight]
  intro c member
  simpa using (inline c member).1

namespace Node

/-- The names of the result types, with commas between them. -/
def typeText (node : Node) : List Char :=
  [','].intercalate (node.results.map fun type => type.name.toList)

/-- The operands with what divides them from each other and from the opcode. -/
def operandText (node : Node) : List Char :=
  (renderOperands NodeId.label node.operands).toList

/-- What follows the types in the line of a node. -/
def body (node : Node) : List Char :=
  node.opcode.name.toList ++ (node.payload.render.toList ++ node.operandText)

theorem toList_describe (id : NodeId) (node : Node) :
    (node.describe id).toList =
      (NodeId.label id).toList ++
        ':' :: ((' ' :: (node.typeText ++ [' '])) ++ '=' :: (' ' :: node.body)) := by
  unfold describe render body typeText operandText
  simp only [String.toList_append, String.toList_intercalate, List.map_map, List.append_assoc,
    List.cons_append, List.nil_append]
  rfl

theorem cut?_describe (id : NodeId) (node : Node) :
    Text.cut? ':' (node.describe id).toList =
      some ((NodeId.label id).toList,
        (' ' :: (node.typeText ++ [' '])) ++ '=' :: (' ' :: node.body)) :=
  Text.cut?_eq_some_iff.mpr ⟨node.toList_describe id, (NodeId.word_label id).not_mem (by decide)⟩

theorem mem_typeText {node : Node} {c : Char} (member : c ∈ node.typeText) :
    c = ',' ∨ c.isAlphanum = true := by
  rcases Text.mem_intercalate member with inPad | ⟨text, listed, inText⟩
  · exact Or.inl (List.mem_singleton.mp inPad)
  · obtain ⟨type, _, rfl⟩ := List.mem_map.mp listed
    exact Or.inr (type.word_name c inText)

theorem cut?_types (node : Node) :
    Text.cut? '=' ((' ' :: (node.typeText ++ [' '])) ++ '=' :: (' ' :: node.body)) =
      some (' ' :: (node.typeText ++ [' ']), ' ' :: node.body) := by
  refine Text.cut?_eq_some_iff.mpr ⟨rfl, fun member => ?_⟩
  rw [List.mem_cons, List.mem_append, List.mem_singleton] at member
  rcases member with impossible | inTypes | impossible
  · cases impossible
  · rcases mem_typeText inTypes with impossible | impossible <;> cases impossible
  · cases impossible

theorem inline_operandText (node : Node) : Inline node.operandText := by
  rw [operandText, toList_renderOperands]
  split
  · exact inline_nil
  · refine inline_cons (by decide) fun c member => ?_
    rcases Text.mem_intercalate member with inPad | ⟨text, listed, inText⟩
    · rcases List.mem_pair.mp inPad with rfl | rfl <;> decide
    · obtain ⟨value, _, rfl⟩ := List.mem_map.mp listed
      exact value.inline_render c inText

theorem inline_typeText (node : Node) : Inline node.typeText := by
  intro c member
  rcases mem_typeText member with rfl | plain
  · decide
  · constructor <;>
      · rintro rfl
        cases plain

theorem inline_render_payload {results : List ValueType} {kind : PayloadKind} {payload : Payload}
    (written : payload.Written results kind) : Inline payload.render.toList := by
  rw [Payload.toList_render]
  cases isInner : payload.inner? with
  | none => exact inline_nil
  | some inner =>
      refine inline_cons (by decide) ((written.enclosed_inner isInner).inline.append ?_)
      exact inline_cons (by decide) inline_nil

theorem operandText_cases (node : Node) :
    node.operandText = [] ∨ ∃ rest, node.operandText = ' ' :: rest := by
  rw [operandText, toList_renderOperands]
  split
  · exact Or.inl rfl
  · exact Or.inr ⟨_, rfl⟩

/-- After the opcode stands a bracket, a blank or nothing. -/
theorem endsOpcode_after (node : Node) :
    ∀ c ∈ (node.payload.render.toList ++ node.operandText).head?, (!endsOpcode c) = false := by
  rw [Payload.toList_render]
  cases node.payload.inner? with
  | some inner =>
      rintro _ ⟨⟩
      decide
  | none =>
      rcases node.operandText_cases with text | ⟨rest, text⟩
      · rw [text]
        intro c member
        cases member
      · rw [text]
        rintro _ ⟨⟩
        decide

theorem splitPayload_body {results : List ValueType} {kind : PayloadKind} {node : Node}
    (written : node.payload.Written results kind) :
    splitPayload (node.payload.render.toList ++ node.operandText) =
      .ok (node.payload.inner?, node.operandText) := by
  rw [Payload.toList_render]
  cases isInner : node.payload.inner? with
  | none =>
      rcases node.operandText_cases with text | ⟨rest, text⟩ <;>
        · rw [text]
          rfl
  | some inner =>
      have absent : '>' ∉ inner := fun member =>
        (written.enclosed_inner isInner '>' member).1 rfl
      have cut : Text.cut? '>' (inner ++ '>' :: node.operandText) =
          some (inner, node.operandText) := Text.cut?_eq_some_iff.mpr ⟨rfl, absent⟩
      rw [List.cons_append, List.append_assoc, List.singleton_append]
      simp only [splitPayload, cut]

namespace Writable

variable {names : String → Prop} {node : Node}

theorem inline_body (writable : node.Writable machine names) : Inline node.body :=
  (enclosed_of_word writable.opcode.word).inline.append
    ((inline_render_payload writable.payload).append node.inline_operandText)

theorem inline_describe (writable : node.Writable machine names) (id : NodeId) :
    Inline (node.describe id).toList := by
  have types : Inline (' ' :: (node.typeText ++ [' '])) :=
    inline_cons (by decide) (node.inline_typeText.append (inline_cons (by decide) inline_nil))
  have body : Inline ('=' :: (' ' :: node.body)) :=
    inline_cons (by decide) (inline_cons (by decide) writable.inline_body)
  rw [toList_describe]
  exact (enclosed_of_word (NodeId.word_label id)).inline.append
    (inline_cons (by decide) (types.append body))

/-- No blank ends the line: the last thing in it is an operand, a bracket or the opcode. -/
theorem endsSolid_body (writable : node.Writable machine names) : Text.EndsSolid node.body := by
  unfold body operandText
  rw [toList_renderOperands]
  by_cases none : node.operands = []
  · rw [if_pos none, List.append_nil, Payload.toList_render]
    cases node.payload.inner? with
    | none =>
        rw [List.append_nil]
        exact writable.opcode.word.tight.endsSolid writable.opcode.nonempty
    | some inner =>
        have bracket : Text.EndsSolid ['>'] := ⟨[], '>', rfl, by decide⟩
        exact ((bracket.append_left inner).cons '<').append_left _
  · rw [if_neg none]
    refine (((Text.endsSolid_intercalate ?_ ?_).cons ' ').append_left _).append_left _
    · simpa using none
    · exact List.forall_mem_map.mpr fun value _ =>
        value.tight_render.endsSolid value.render_ne_nil

theorem tight_body (writable : node.Writable machine names) : Text.Tight node.body := by
  have solid := writable.endsSolid_body
  obtain ⟨c, rest, opcode⟩ := List.exists_cons_of_ne_nil writable.opcode.nonempty
  have word := writable.opcode.word
  unfold body at solid ⊢
  rw [opcode] at solid word ⊢
  exact solid.tight (Text.isBlank_of_isAlphanum (word c List.mem_cons_self))

theorem tight_describe (writable : node.Writable machine names) (id : NodeId) :
    Text.Tight (node.describe id).toList := by
  have solid : Text.EndsSolid (node.describe id).toList := by
    rw [toList_describe]
    exact ((((writable.endsSolid_body.cons ' ').cons '=').append_left _).cons ':').append_left _
  rw [toList_describe, NodeId.toList_label] at solid ⊢
  exact solid.tight (by decide)

theorem takeWhile_body (writable : node.Writable machine names) :
    (node.body.takeWhile fun c => !endsOpcode c) = node.opcode.name.toList :=
  Text.takeWhile_append_stop writable.opcode.not_endsOpcode node.endsOpcode_after

theorem dropWhile_body (writable : node.Writable machine names) :
    (node.body.dropWhile fun c => !endsOpcode c) =
      node.payload.render.toList ++ node.operandText :=
  Text.dropWhile_append_stop writable.opcode.not_endsOpcode node.endsOpcode_after

theorem map_trim_typeText (writable : node.Writable machine names) :
    (Text.fields ',' (' ' :: (node.typeText ++ [' ']))).map Text.trim =
      node.results.map fun type => type.name.toList := by
  rw [Text.map_trim_fields_cons (by decide) (by decide),
    Text.map_trim_fields_append (by decide) (by decide)]
  refine Text.map_trim_fields (List.forall_mem_nil _) ?_ ?_ List.not_mem_nil ?_
  · simpa using writable.someResult
  · exact List.forall_mem_map.mpr fun type _ => type.word_name.not_mem (by decide)
  · exact List.forall_mem_map.mpr fun type _ => type.word_name.tight

theorem checkPayload (writable : node.Writable machine names) :
    Dag.checkPayload node.opcode node.payload = .ok () :=
  writable.payload.checkPayload

end Writable

/-- The node that the line of a node defines, with the types that the reader makes. -/
def redefined (node : Node) (results : List ValueType) : Node :=
  ⟨node.opcode, results, node.operands, node.payload, .unvisited, 0⟩

end Node

/-! ### Lines -/

variable {node : Node}

theorem LabelledDag.Numbered.readLabel (numbered : graph.Numbered) :
    readLabel graph (NodeId.label graph.dag.size).toList = .ok (NodeId.label graph.dag.size) := by
  have solid : (NodeId.label graph.dag.size).toList.any Text.isBlank = false := by
    rw [List.any_eq_false]
    intro c member
    simp [Text.isBlank_of_isAlphanum (NodeId.word_label _ c member)]
  have nonempty : (NodeId.label graph.dag.size).toList.isEmpty = false := by
    rw [NodeId.toList_label]
    rfl
  rw [DagSelect.readLabel, solid, nonempty, String.ofList_toList, numbered.find?,
    if_neg (Nat.lt_irrefl _)]
  rfl

/-- A node whose operands are there is added under the next label. -/
theorem LabelledDag.Numbered.exists_define (numbered : graph.Numbered) (counted : graph.dag.Counted)
    {opcode : Opcode} {results : List ValueType} {operands : List Value} {payload : Payload}
    (someResult : results ≠ []) (checked : Dag.checkPayload opcode payload = .ok ())
    (resolve : ∀ value ∈ operands, graph.dag.Resolves value) :
    ∃ graph', graph.define (NodeId.label graph.dag.size) opcode results operands payload =
        .ok graph' ∧ graph'.Numbered ∧ graph'.dag.Counted ∧
      graph'.dag.shape =
        graph.dag.shape.extend [⟨opcode, results, operands, payload, .unvisited, 0⟩] := by
  obtain ⟨graph', defined⟩ := LabelledDag.exists_define counted (NodeId.label graph.dag.size)
    someResult checked resolve
  obtain ⟨counted', _, labels, shape, _⟩ := LabelledDag.define_eq_ok counted defined
  refine ⟨graph', defined, ?_, counted', shape⟩
  have size : graph'.dag.size = graph.dag.size + 1 := Dag.size_of_shape_extend shape
  rw [LabelledDag.Numbered, labels, numbered, Dag.ids, Dag.ids, size, List.range_succ,
    List.map_append]
  rfl

/-- The line of a node is read: it adds a node with the same opcode, payload and operands, and with
result types that are alike. -/
theorem exists_readNode_describe (numbered : graph.Numbered) (counted : graph.dag.Counted)
    (writable : node.Writable machine Payload.Unsigned)
    (resolve : ∀ value ∈ node.operands, graph.dag.Resolves value) (context : TypeContext) :
    ∃ graph' results context',
      (readNode machine graph (node.describe graph.dag.size).toList).run context =
        .ok graph' context' ∧
      graph'.Numbered ∧ graph'.dag.Counted ∧ List.Forall₂ ValueType.Alike results node.results ∧
      graph'.dag.shape = graph.dag.shape.extend [node.redefined results] := by
  obtain ⟨results, context', typesRead, alike⟩ :=
    exists_readTypes writable.types writable.map_trim_typeText context
  have someResult : results ≠ [] := by
    rintro rfl
    exact writable.someResult (List.forall₂_nil_left_iff.mp alike)
  obtain ⟨graph', defined, numbered', counted', shape⟩ :=
    numbered.exists_define counted someResult writable.checkPayload resolve
  refine ⟨graph', results, context', ?_, numbered', counted', alike, shape⟩
  have body : Text.trim (' ' :: node.body) = node.body := by
    rw [Text.trim_blank_cons (by decide), Text.trim_of_tight writable.tight_body]
  unfold readNode
  rw [node.cut?_describe]
  refine run_bind_eq_ok.mpr ⟨NodeId.label graph.dag.size, context, ?_, ?_⟩
  · rw [Text.trim_of_tight (NodeId.word_label _).tight]
    exact LineReading.run_ofExcept_eq_ok.mpr ⟨numbered.readLabel, rfl⟩
  rw [node.cut?_types]
  refine run_bind_eq_ok.mpr ⟨results, context', typesRead, ?_⟩
  dsimp only
  rw [body, writable.takeWhile_body, writable.dropWhile_body]
  refine run_bind_eq_ok.mpr ⟨node.opcode, context', ?_, ?_⟩
  · exact LineReading.run_ofExcept_eq_ok.mpr ⟨writable.opcode.read, rfl⟩
  refine run_bind_eq_ok.mpr ⟨(node.payload.inner?, node.operandText), context', ?_, ?_⟩
  · exact LineReading.run_ofExcept_eq_ok.mpr ⟨Node.splitPayload_body writable.payload, rfl⟩
  refine run_bind_eq_ok.mpr ⟨node.payload, context', ?_, ?_⟩
  · exact LineReading.run_ofExcept_eq_ok.mpr
      ⟨writable.payload.readPayload_inner writable.symbol (alike_headD alike writable.someResult),
        rfl⟩
  refine run_bind_eq_ok.mpr ⟨node.operands, context', ?_, ?_⟩
  · exact LineReading.run_ofExcept_eq_ok.mpr
      ⟨readOperands_render numbered resolve writable.numbered, rfl⟩
  exact LineReading.run_ofFaulting_eq_ok.mpr ⟨defined, rfl⟩

variable {draft : Draft}

/-- A line that begins with the label of a node is the line of a node. -/
theorem exists_readLine_describe (rootless : draft.root = none) (numbered : draft.graph.Numbered)
    (counted : draft.graph.dag.Counted) (writable : node.Writable machine Payload.Unsigned)
    (resolve : ∀ value ∈ node.operands, draft.graph.dag.Resolves value) (context : TypeContext) :
    ∃ graph results context',
      (readLine machine draft (node.describe draft.graph.dag.size).toList).run context =
        .ok { draft with graph } context' ∧
      graph.Numbered ∧ graph.dag.Counted ∧ List.Forall₂ ValueType.Alike results node.results ∧
      graph.dag.shape = draft.graph.dag.shape.extend [node.redefined results] := by
  obtain ⟨graph, results, context', read, rest⟩ :=
    exists_readNode_describe numbered counted writable resolve context
  refine ⟨graph, results, context', ?_, rest⟩
  unfold readLine
  rw [lineText_of_inline (writable.inline_describe _) (writable.tight_describe _)]
  rw [Node.toList_describe, NodeId.toList_label, List.cons_append] at read ⊢
  dsimp only
  rw [rootless]
  exact run_bind_eq_ok.mpr ⟨graph, context', read, rfl⟩

theorem Value.inline_rootLine (root : Value) : Inline ("root " ++ root.render).toList := by
  have word : Inline "root ".toList := by decide
  rw [String.toList_append]
  exact word.append root.inline_render

/-- The line of the root is read. -/
theorem readLine_root (rootless : draft.root = none) (numbered : draft.graph.Numbered) {root : Value}
    (resolves : draft.graph.dag.Resolves root) (inRange : root.result < twoPow 32)
    (context : TypeContext) :
    (readLine machine draft ("root " ++ root.render).toList).run context =
      .ok { draft with root := some root } context := by
  have line : ("root " ++ root.render).toList =
      'r' :: 'o' :: 'o' :: 't' :: ' ' :: root.render.toList := by
    rw [String.toList_append]
    rfl
  have tight : Text.Tight ("root " ++ root.render).toList := by
    have solid := (root.tight_render.endsSolid root.render_ne_nil).append_left "root ".toList
    rw [← String.toList_append] at solid
    rw [line] at solid ⊢
    exact solid.tight (by decide)
  have read : readValue draft.graph (Text.trim root.render.toList) = .ok root := by
    rw [Text.trim_of_tight root.tight_render, readValue_render numbered resolves inRange]
  unfold readLine
  rw [lineText_of_inline root.inline_rootLine tight, line]
  dsimp only
  rw [rootless]
  exact run_bind_eq_ok.mpr ⟨root, context, LineReading.run_ofExcept_eq_ok.mpr ⟨read, rfl⟩, rfl⟩

end DagSelect
