/-
Module: DagSelect.Proofs.Reading
Purpose: What is known of a graph because it was read from a text. Every line adds a node that
  selection has not touched, whose parts are those that the line spells, and whose operands are
  nodes of earlier lines; so the order of the lines lists all nodes, every operand before its users.
  The last line that counts gives the root.
Main exports: Enclosed, Node.AsRead, LabelledDag.Drafted, LabelledDag.exists_define,
  LabelledDag.Drafted.define, Draft.exists_finish, readDag_drafted
-/
import DagSelect.Proofs.LineReading
import DagSelect.Proofs.Meaning
import DagSelect.Proofs.UseCounts
import DagSelect.Z80.Instruction
import Mathlib.Data.List.TakeWhile

namespace DagSelect

variable {α : Type} {machine : String → Option MachineOp} {graph graph' : LabelledDag}
  {draft draft' : Draft}

/-- Constants have the first result type of a list, which must be an integer of at least one bit. -/
def HoldsConstant (results : List ValueType) : Prop :=
  ∃ type rest bits, results = type :: rest ∧ type.width? = some bits ∧ 1 ≤ bits

/-- A text that can stand between the brackets of a payload, which end at the first closing one. No
line holds a line feed, and a semicolon starts a comment. -/
def Enclosed (text : List Char) : Prop :=
  ∀ c ∈ text, c ≠ '>' ∧ c ≠ ';' ∧ c ≠ '\n'

instance decidableEnclosed (text : List Char) : Decidable (Enclosed text) :=
  List.decidableBAll _ text

/-- A node as a line defines it: untouched by selection, with operands from earlier lines and with
parts that were read from text. -/
structure Node.AsRead (machine : String → Option MachineOp) (id : NodeId) (node : Node) : Prop where
  unvisited : node.state = .unvisited
  earlier : ∀ value ∈ node.operands, value.node < id
  numbered : ∀ value ∈ node.operands, value.result < twoPow 32
  someResult : node.results ≠ []
  opcode : ∃ text, readOpcode machine text = .ok node.opcode
  types : ∀ type ∈ node.results, ∃ text context context',
    (readType text).run context = .ok type context'
  payload : ∃ text, (∀ inner, text = some inner → Enclosed inner) ∧
    readPayload node.opcode node.results text = .ok node.payload

/-- A graph on its way from text: exact counts, and nodes as read in the order of their lines. -/
structure LabelledDag.Drafted (graph : LabelledDag) (machine : String → Option MachineOp) :
    Prop where
  counted : graph.dag.Counted
  order : graph.order = graph.dag.ids
  nodes : ∀ id node, graph.dag.node? id = some node → node.AsRead machine id
  numbered : ∀ root, graph.dag.root = some root → root.result < twoPow 32

/-- A draft on its way from text. -/
structure Draft.AsRead (draft : Draft) (machine : String → Option MachineOp) : Prop where
  graph : draft.graph.Drafted machine
  numbered : ∀ root, draft.root = some root → root.result < twoPow 32

/-! ### Types -/

theorem ValueType.exists_width_of_isScalarInteger {type : ValueType}
    (integer : type.isScalarInteger = true) : ∃ bits, type.width? = some bits := by
  rw [width?, if_pos integer]
  cases type with
  | extended type => exact ⟨_, rfl⟩
  | simple type =>
      have entries : type.isScalarInteger = true → type.bits?.isSome = true := by
        cases type <;> decide
      exact Option.isSome_iff_exists.mp (entries integer)

/-! ### Lines -/

namespace LineReading

variable {context context' : TypeContext} {a : α}

theorem run_ofExcept_eq_ok {answer : Except ReadProblem α} :
    (ofExcept answer).run context = .ok a context' ↔ answer = .ok a ∧ context' = context := by
  cases answer with
  | ok b =>
      simp only [ofExcept, EStateM.run_pure, EStateM.Result.ok.injEq, Except.ok.injEq]
      exact and_congr_right' eq_comm
  | error problem =>
      constructor
      · intro run
        cases run
      · rintro ⟨impossible, _⟩
        cases impossible

theorem run_ofFaulting_eq_ok {answer : Except Fault α} :
    (ofFaulting answer).run context = .ok a context' ↔ answer = .ok a ∧ context' = context := by
  cases answer with
  | ok b =>
      simp only [ofFaulting, EStateM.run_pure, EStateM.Result.ok.injEq, Except.ok.injEq]
      exact and_congr_right' eq_comm
  | error cause =>
      constructor
      · intro run
        cases run
      · rintro ⟨impossible, _⟩
        cases impossible

end LineReading

theorem canonical_of_readType {text : List Char} {context context' : TypeContext} {type : ValueType}
    (read : (readType text).run context = .ok type context') : type.Canonical :=
  ValueType.canonical_of_ofChars (readType_eq_ok.mp read)

/-- A constant is only read with an integer type. -/
theorem holdsConstant_of_readPayload {results : List ValueType} {text : Option (List Char)}
    {payload : Payload} (canonical : ∀ type ∈ results, type.Canonical)
    (read : readPayload (.generic .constant) results text = .ok payload) :
    HoldsConstant results := by
  cases text with
  | none => cases read
  | some text =>
      simp only [readPayload, writtenPayloadKind, GenericOp.payloadKind, readPayloadText] at read
      obtain ⟨value, _, read⟩ := except_bind_eq_ok.mp read
      have integer : (results.headD .chain).isScalarInteger = true := by
        by_contra other
        rw [if_neg other] at read
        cases read
      cases results with
      | nil => cases integer
      | cons type rest =>
          obtain ⟨bits, sized⟩ := ValueType.exists_width_of_isScalarInteger integer
          exact ⟨type, rest, bits, rfl, sized, (canonical type List.mem_cons_self).positive sized⟩

/-- A constant among the nodes that were read has an integer type. -/
theorem Node.AsRead.constant {id : NodeId} {node : Node} (asRead : node.AsRead machine id)
    (isConstant : node.opcode = .generic .constant) : HoldsConstant node.results := by
  obtain ⟨text, _, read⟩ := asRead.payload
  rw [isConstant] at read
  refine holdsConstant_of_readPayload (fun type member => ?_) read
  obtain ⟨_, _, _, typeRead⟩ := asRead.types type member
  exact canonical_of_readType typeRead

/-- The payload stands between the first brackets. -/
theorem splitPayload_eq_ok {text operandText : List Char} {payloadText : Option (List Char)}
    (split : splitPayload text = .ok (payloadText, operandText)) :
    ∀ inner, payloadText = some inner → '>' ∉ inner ∧ inner ⊆ text := by
  unfold splitPayload at split
  split at split
  · rename_i bracketed
    split at split
    · rename_i payload rest cut
      cases split
      obtain ⟨rfl, absent⟩ := Text.cut?_eq_some_iff.mp cut
      rintro inner ⟨⟩
      refine ⟨absent, ?_⟩
      intro c member
      simp [member]
    · cases split
  · cases split
    intro inner impossible
    cases impossible

/-- The value with a label and a result number, if there is one. -/
def LabelledDag.value (graph : LabelledDag) (label : List Char) (result : Nat) :
    Except ReadProblem Value :=
  match graph.find? (String.ofList label) with
  | none => .error (.undefinedValue (String.ofList label))
  | some node =>
    let results := ((graph.dag.node? node).map (·.results.length)).getD 0
    if result < results then .ok { node, result }
    else .error (.noSuchResult (String.ofList label) results)

/-- A value is written as a label alone or with a result number. -/
theorem readValue_eq (graph : LabelledDag) (text : List Char) :
    readValue graph text =
      match Text.cut? ':' text with
      | none => graph.value text 0
      | some (label, digits) =>
        match Text.readNat? (twoPow 32) digits with
        | some result => graph.value label result
        | none => .error (.badResultNumber (String.ofList text)) := by
  unfold readValue
  cases cut : Text.cut? ':' text with
  | none => rfl
  | some parts =>
      obtain ⟨label, digits⟩ := parts
      dsimp only
      cases number : Text.readNat? (twoPow 32) digits with
      | none => rfl
      | some result => rfl

/-- A value is the result of a node with the label that is there. -/
theorem LabelledDag.value_eq_ok_iff {label : List Char} {result : Nat} {value : Value} :
    graph.value label result = .ok value ↔
      graph.find? (String.ofList label) = some value.node ∧ value.result = result ∧
        graph.dag.Resolves value := by
  constructor
  · intro read
    unfold LabelledDag.value at read
    split at read
    · cases read
    · rename_i id named
      dsimp only at read
      split at read
      · rename_i inside
        cases read
        refine ⟨named, rfl, ?_⟩
        cases found : graph.dag.node? id with
        | none => simp [found] at inside
        | some node => exact ⟨node, found, by simpa [found] using inside⟩
      · cases read
  · rintro ⟨named, rfl, node, found, inside⟩
    simp [LabelledDag.value, named, found, inside]

/-- The label and the result number that a text gives. A label alone stands for the first result. -/
def valueParts? (text : List Char) : Option (List Char × Nat) :=
  match Text.cut? ':' text with
  | none => some (text, 0)
  | some (label, digits) => (Text.readNat? (twoPow 32) digits).map fun result => (label, result)

theorem valueParts?_lt {text label : List Char} {result : Nat}
    (parts : valueParts? text = some (label, result)) : result < twoPow 32 := by
  unfold valueParts? at parts
  split at parts
  · cases parts
    exact Nat.two_pow_pos 32
  · obtain ⟨_, number, same⟩ := Option.map_eq_some_iff.mp parts
    cases same
    simp only [Text.readNat?, Option.filter_eq_some_iff] at number
    simpa using number.2

/-- What is read is a result that is there, of the node with the label. -/
theorem readValue_eq_ok_iff {text : List Char} {value : Value} :
    readValue graph text = .ok value ↔ ∃ label, valueParts? text = some (label, value.result) ∧
      graph.find? (String.ofList label) = some value.node ∧ graph.dag.Resolves value := by
  have parts : readValue graph text = .ok value ↔ ∃ label result,
      valueParts? text = some (label, result) ∧ graph.value label result = .ok value := by
    rw [readValue_eq]
    unfold valueParts?
    cases Text.cut? ':' text with
    | none => simp
    | some halves =>
        obtain ⟨label, digits⟩ := halves
        cases number : Text.readNat? (twoPow 32) digits with
        | none => simp [number]
        | some result => simp [number]
  rw [parts]
  constructor
  · rintro ⟨label, result, isText, read⟩
    obtain ⟨named, rfl, resolves⟩ := LabelledDag.value_eq_ok_iff.mp read
    exact ⟨label, isText, named, resolves⟩
  · rintro ⟨label, isText, named, resolves⟩
    exact ⟨label, value.result, isText, LabelledDag.value_eq_ok_iff.mpr ⟨named, rfl, resolves⟩⟩

theorem numbered_of_readValue {text : List Char} {value : Value}
    (read : readValue graph text = .ok value) : value.result < twoPow 32 := by
  obtain ⟨_, parts, _⟩ := readValue_eq_ok_iff.mp read
  exact valueParts?_lt parts

theorem mem_lineText {line : List Char} {c : Char} (member : c ∈ lineText line) :
    c ∈ line ∧ c ≠ ';' := by
  have kept := Text.trim_subset _ member
  refine ⟨(List.takeWhile_sublist _).subset kept, ?_⟩
  simpa using List.mem_takeWhile_imp kept

namespace NodeLine

variable {pieces : NodeLine} {line : List Char} {context : TypeContext} {node : Node}

/-- The payload of a line stands between the first brackets. -/
theorem payload_of_ofLine? (cut : ofLine? line = some pieces) :
    ∀ inner, pieces.payload = some inner → '>' ∉ inner ∧ inner ⊆ line := by
  unfold ofLine? at cut
  simp only [Option.bind_eq_bind, Option.bind_eq_some_iff, Prod.exists] at cut
  obtain ⟨_, _, colon, _, expression, equals, payloadText, operandText, divided, same⟩ := cut
  cases same
  obtain ⟨rfl, _⟩ := Text.cut?_eq_some_iff.mp colon
  obtain ⟨rfl, _⟩ := Text.cut?_eq_some_iff.mp equals
  have split : splitPayload ((Text.trim expression).dropWhile fun c => !endsOpcode c) =
      .ok (payloadText, operandText) := by
    cases split : splitPayload ((Text.trim expression).dropWhile fun c => !endsOpcode c) with
    | ok parts =>
        rw [split] at divided
        cases divided
        rfl
    | error problem =>
        rw [split] at divided
        cases divided
  intro inner isPayload
  obtain ⟨absent, inside⟩ := splitPayload_eq_ok split inner isPayload
  refine ⟨absent, fun c member => ?_⟩
  have inBody := (List.dropWhile_sublist _).subset (inside member)
  have inExpression := Text.trim_subset _ inBody
  simp [inExpression]

/-- No comment and no line feed is in a payload. -/
theorem enclosed_of_ofLine? (cut : ofLine? (lineText line) = some pieces) (oneLine : '\n' ∉ line) :
    ∀ inner, pieces.payload = some inner → Enclosed inner := by
  intro inner isPayload c member
  obtain ⟨absent, fromLine⟩ := payload_of_ofLine? cut inner isPayload
  obtain ⟨inLine, noComment⟩ := mem_lineText (fromLine member)
  exact ⟨fun same => absent (same ▸ member), noComment, fun same => oneLine (same ▸ inLine)⟩

theorem Describes.numbered (describes : pieces.Describes machine graph context node) :
    ∀ value ∈ node.operands, value.result < twoPow 32 := by
  intro value member
  obtain ⟨_, _, read⟩ := exists_mem_of_forall₂ describes.operands member
  exact numbered_of_readValue read

theorem Describes.types (describes : pieces.Describes machine graph context node) :
    ∀ type ∈ node.results, ∃ text context context',
      (readType text).run context = .ok type context' := by
  intro type member
  obtain ⟨name, _, read⟩ := exists_mem_of_forall₂ describes.results member
  exact ⟨name, context, context, readType_eq_ok.mpr read⟩

end NodeLine

/-! ### What every line keeps -/

namespace LabelledDag

/-- What is in the graph after a definition: what was there, and one node behind it. -/
theorem define_eq_ok {label : String} {opcode : Opcode} {results : List ValueType}
    {operands : List Value} {payload : Payload} (counted : graph.dag.Counted)
    (defined : graph.define label opcode results operands payload = .ok graph') :
    graph'.dag.Counted ∧ graph'.order = graph.order ++ [graph.dag.size] ∧
      graph'.labels = graph.labels ++ [(label, graph.dag.size)] ∧
      graph'.dag.shape =
        graph.dag.shape.extend [⟨opcode, results, operands, payload, .unvisited, 0⟩] ∧
      results ≠ [] ∧ ∀ value ∈ operands, graph.dag.Resolves value := by
  unfold LabelledDag.define at defined
  split at defined
  · rename_i id dag added
    cases defined
    obtain ⟨counted', rfl, shape, someResult, _, resolve⟩ :=
      (Dag.addNode_ends counted).of_ok added
    exact ⟨counted', rfl, rfl, shape, someResult, resolve⟩
  · cases defined

/-- A node with results and a payload that fits is defined, if its operands are there. -/
theorem exists_define (counted : graph.dag.Counted) (label : String) {opcode : Opcode}
    {results : List ValueType} {operands : List Value} {payload : Payload}
    (someResult : results ≠ []) (checked : Dag.checkPayload opcode payload = .ok ())
    (resolve : ∀ value ∈ operands, graph.dag.Resolves value) :
    ∃ graph', graph.define label opcode results operands payload = .ok graph' := by
  have adds : Ends (fun _ _ => True) (fun _ _ => False)
      ((Dag.addNode opcode results operands payload).run graph.dag) := by
    refine (Dag.addNode_ends counted).mono (fun _ _ _ => trivial) ?_
    rintro _ _ ⟨_, _, empty | refused | ⟨value, listed, unresolved⟩⟩
    · exact someResult empty
    · exact refused checked
    · exact unresolved (resolve value listed)
  obtain ⟨_, dag, added, _⟩ := adds.exists_ok
  exact ⟨_, by rw [LabelledDag.define, added]⟩

end LabelledDag

namespace LabelledDag.Drafted

theorem empty : LabelledDag.Drafted {} machine where
  counted := Dag.counted_empty
  order := rfl
  nodes id node found := by simp [Dag.node?] at found
  numbered root impossible := by cases impossible

theorem unvisited (drafted : graph.Drafted machine) :
    ∀ id node, graph.dag.node? id = some node → node.state = .unvisited :=
  fun id node found => (drafted.nodes id node found).unvisited

theorem earlier (drafted : graph.Drafted machine) :
    ∀ user, ∀ value ∈ graph.dag.operandsOf user, value.node < user := by
  intro user value member
  obtain ⟨node, found, listed⟩ := Dag.mem_operandsOf.mp member
  exact (drafted.nodes user node found).earlier value listed

/-- Use counts do not matter to a node as read. -/
theorem node_of_shape (drafted : graph.Drafted machine) {id : NodeId} {node : Node}
    (found : graph.dag.shape.node? id = some node.shape) : node.AsRead machine id := by
  obtain ⟨uses, found⟩ := Dag.exists_uses_of_shape found
  exact { drafted.nodes id _ found with }

/-- A new node stands behind all others, so its operands are earlier nodes. -/
theorem define {label : String} {opcode : Opcode} {results : List ValueType}
    {operands : List Value} {payload : Payload} (drafted : graph.Drafted machine)
    (opcodeRead : ∃ text, readOpcode machine text = .ok opcode)
    (typesRead : ∀ type ∈ results, ∃ text context context',
      (readType text).run context = .ok type context')
    (payloadRead : ∃ text, (∀ inner, text = some inner → Enclosed inner) ∧
      readPayload opcode results text = .ok payload)
    (numbered : ∀ value ∈ operands, value.result < twoPow 32)
    (defined : graph.define label opcode results operands payload = .ok graph') :
    graph'.Drafted machine := by
  obtain ⟨counted, order, _, shape, someResult, resolve⟩ :=
    LabelledDag.define_eq_ok drafted.counted defined
  refine ⟨counted, ?_, ?_, ?_⟩
  · have size : graph'.dag.size = graph.dag.size + 1 := Dag.size_of_shape_extend shape
    rw [order, drafted.order, Dag.ids, Dag.ids, size, List.range_succ]
  · intro id node found
    have shapeFound := Dag.shape_found found
    rw [shape] at shapeFound
    rcases Dag.node?_extend_cases shapeFound with old | ⟨behind, new⟩
    · exact drafted.node_of_shape old
    · obtain ⟨first, fields⟩ := List.getElem?_eq_some_iff.mp new
      have place : id = graph.dag.size := by
        rw [Dag.size_shape] at behind first
        exact Nat.le_antisymm (Nat.sub_eq_zero_iff_le.mp (Nat.lt_one_iff.mp first)) behind
      have shapeIs : node.shape = ⟨opcode, results, operands, payload, .unvisited, 0⟩ := by
        simpa using fields.symm
      obtain ⟨nodeOpcode, nodeResults, nodeOperands, nodePayload, nodeState, uses⟩ := node
      cases shapeIs
      exact {
        unvisited := rfl
        earlier := fun value listed => place ▸ (resolve value listed).lt_size
        numbered := numbered
        someResult := someResult
        opcode := opcodeRead
        types := typesRead
        payload := payloadRead }
  · intro root rooted
    rw [← Dag.root_shape, shape, Dag.root_extend, Dag.root_shape] at rooted
    exact drafted.numbered root rooted

end LabelledDag.Drafted

theorem readLine_asRead {line : List Char} {context context' : TypeContext} (oneLine : '\n' ∉ line)
    (asRead : draft.AsRead machine)
    (result : (readLine machine draft line).run context = .ok draft' context') :
    draft'.AsRead machine := by
  cases (readLine_ends machine draft line context).of_ok result with
  | blank _ => exact asRead
  | root _ _ rootRead =>
      refine ⟨asRead.graph, ?_⟩
      rintro _ ⟨⟩
      exact numbered_of_readValue rootRead
  | node _ _ _ nodeRead =>
      obtain ⟨_, pieces, node, ⟨cut, _, describes⟩, defined⟩ :=
        (readNode_ends machine draft.graph (lineText line) context).of_ok nodeRead
      have enclosed := NodeLine.enclosed_of_ofLine? cut oneLine
      exact ⟨asRead.graph.define ⟨_, describes.opcode⟩ describes.types
        ⟨pieces.payload, enclosed, describes.payload⟩ describes.numbered defined, asRead.numbered⟩

theorem readLines_asRead {lines : List (List Char)} {number : Nat}
    {context context' : TypeContext} (oneLine : ∀ line ∈ lines, '\n' ∉ line)
    (asRead : draft.AsRead machine)
    (result : (readLines machine number lines draft).run context = .ok draft' context') :
    draft'.AsRead machine := by
  induction lines generalizing number draft context with
  | nil =>
      cases result
      exact asRead
  | cons line rest inductionHypothesis =>
      obtain ⟨middle, context'', first, later⟩ := run_bind_eq_ok.mp result
      refine inductionHypothesis (fun other member => oneLine other (by simp [member])) ?_ later
      have firstRead := run_adaptExcept_eq_ok.mp first
      exact readLine_asRead (oneLine line List.mem_cons_self) asRead firstRead

/-- A draft is closed with a root that it has. -/
theorem Draft.exists_finish {root : Value} (rooted : draft.root = some root)
    (counted : draft.graph.dag.Counted) (resolves : draft.graph.dag.Resolves root)
    (lineCount : Nat) :
    ∃ dag, draft.finish lineCount = .ok { draft.graph with dag } ∧ dag.Counted ∧
      dag.shape = { draft.graph.dag.shape with root := some root } := by
  have sets : Ends
      (fun _ dag => dag.Counted ∧ dag.shape = { draft.graph.dag.shape with root := some root })
      (fun _ _ => False) ((Dag.setRoot root).run draft.graph.dag) := by
    refine (Dag.setRoot_ends counted).mono ?_ ?_
    · rintro _ dag ⟨counted', shape, _⟩
      exact ⟨counted', shape⟩
    · rintro _ _ ⟨_, _, unresolved⟩
      exact unresolved resolves
  obtain ⟨_, dag, set, counted', shape⟩ := sets.exists_ok
  refine ⟨dag, ?_, counted', shape⟩
  simp only [Draft.finish, rooted, set]

/-- The root is the one thing that closing a draft adds. -/
theorem Draft.finish_drafted {lineCount : Nat} (asRead : draft.AsRead machine)
    (finished : draft.finish lineCount = .ok graph) :
    graph.Drafted machine ∧ ∃ root, graph.dag.root = some root := by
  have drafted := asRead.graph
  unfold Draft.finish at finished
  split at finished
  · cases finished
  · rename_i root isRoot
    split at finished
    · rename_i dag rooted
      cases finished
      obtain ⟨counted, shape, _⟩ := (Dag.setRoot_ends drafted.counted).of_ok rooted
      have size : dag.size = draft.graph.dag.size := by
        rw [← Dag.size_shape, shape, ← Dag.size_shape draft.graph.dag]
        rfl
      have newRoot : dag.root = some root := by
        rw [← Dag.root_shape, shape]
      refine ⟨⟨counted, ?_, ?_, ?_⟩, root, newRoot⟩
      · rw [drafted.order, Dag.ids, Dag.ids, size]
      · intro id node found
        have shapeFound := Dag.shape_found found
        rw [shape] at shapeFound
        exact drafted.node_of_shape shapeFound
      · intro other otherRoot
        cases newRoot.symm.trans otherRoot
        exact asRead.numbered root isRoot
    · cases finished

/-- A graph that was read. -/
theorem readDag_drafted {text : String} {context context' : TypeContext}
    (result : (readDag machine text).run context = .ok graph context') :
    graph.Drafted machine ∧ ∃ root, graph.dag.root = some root := by
  obtain ⟨draft, context'', linesRead, finished⟩ := run_bind_eq_ok.mp result
  have start : Draft.AsRead {} machine := by
    refine ⟨LabelledDag.Drafted.empty, ?_⟩
    intro root impossible
    cases impossible
  have asRead := readLines_asRead (fun _ => Text.not_mem_of_mem_lines) start linesRead
  exact Draft.finish_drafted asRead (Ends.liftM.of_ok finished).1

/-! ### A text -/

/-- A byte in memory counts up by one, and its new value is returned. -/
def incrementText : String :=
  "t0: ch = EntryToken\nt1: i16 = GlobalAddress<@buf+2>\nt2: i16 = Constant<-3>\n" ++
  "t3: i16 = add t1, t2\nt4: i8,ch = load t0, t3\nt5: i8 = Constant<1>\n" ++
  "t6: i8 = add t4, t5\nt7: ch = store t4:1, t6, t3\nt8: ch = ret t7, t6\nroot t8"

/-- The graph of the text. -/
def incrementGraph : LabelledDag where
  dag := {
    nodes := [
      ⟨.generic .entryToken, [.chain], [], .none, .unvisited, 1⟩,
      ⟨.generic .globalAddress, [.simple .i16], [], .global "buf" 2, .unvisited, 1⟩,
      ⟨.generic .constant, [.simple .i16], [], .constant (-3), .unvisited, 1⟩,
      ⟨.generic .add, [.simple .i16], [⟨1, 0⟩, ⟨2, 0⟩], .none, .unvisited, 2⟩,
      ⟨.generic .load, [.simple .i8, .chain], [⟨0, 0⟩, ⟨3, 0⟩], .none, .unvisited, 2⟩,
      ⟨.generic .constant, [.simple .i8], [], .constant 1, .unvisited, 1⟩,
      ⟨.generic .add, [.simple .i8], [⟨4, 0⟩, ⟨5, 0⟩], .none, .unvisited, 2⟩,
      ⟨.generic .store, [.chain], [⟨4, 1⟩, ⟨6, 0⟩, ⟨3, 0⟩], .none, .unvisited, 1⟩,
      ⟨.generic .ret, [.chain], [⟨7, 0⟩, ⟨6, 0⟩], .none, .unvisited, 1⟩]
    root := some ⟨8, 0⟩ }
  order := [0, 1, 2, 3, 4, 5, 6, 7, 8]
  labels := [("t0", 0), ("t1", 1), ("t2", 2), ("t3", 3), ("t4", 4), ("t5", 5), ("t6", 6), ("t7", 7),
    ("t8", 8)]

theorem ends_incrementText :
    Ends (fun graph context => graph = incrementGraph ∧ context = {}) (fun _ _ => False)
      ((readDag Z80.machineOp? incrementText).run {}) := by
  decide +kernel

theorem readDag_incrementText :
    (readDag Z80.machineOp? incrementText).run {} = .ok incrementGraph {} := by
  obtain ⟨graph, context, read, rfl, rfl⟩ := ends_incrementText.exists_ok
  exact read

end DagSelect
