/-
Module: DagSelect.Proofs.FromText
Purpose: What reading gives, for every text. A text is refused with the number of a line, or it is
  the text of the graph that is read: all lines that say something are lines of nodes but the last,
  which gives the root, and every node is what its line says. The labels of the whole graph are
  those that the operands were read with, and the types can be named in the context that is left
  behind.
Main exports: contentLines, nodeLines, LabelledDag.Labelled, LabelledDag.Extends, Draft.Follows,
  readLine_follows, readLines_follows, LabelledDag.FromText, readDag_follows,
  LabelledDag.fromText_of_readDag, readDag_fromText
-/
import DagSelect.Proofs.Payload
import DagSelect.Proofs.Reading

namespace DagSelect

variable {machine : String → Option MachineOp} {graph graph' : LabelledDag} {draft draft' : Draft}
  {context later : TypeContext}

/-! ### Labels -/

/-- Every node has one label, and every label one node. -/
structure LabelledDag.Labelled (graph : LabelledDag) : Prop where
  distinct : (graph.labels.map Prod.fst).Nodup
  numbered : graph.labels.map Prod.snd = graph.dag.ids

namespace LabelledDag.Labelled

variable {label other : String} {id : NodeId}

theorem empty : LabelledDag.Labelled {} where
  distinct := List.nodup_nil
  numbered := rfl

theorem find?_eq_some_iff (labelled : graph.Labelled) :
    graph.find? label = some id ↔ (label, id) ∈ graph.labels := by
  constructor
  · intro found
    obtain ⟨before, after, split, _⟩ := List.lookup_eq_some_iff.mp found
    rw [split]
    simp
  · intro member
    obtain ⟨before, after, split⟩ := List.append_of_mem member
    refine List.lookup_eq_some_iff.mpr ⟨before, after, split, fun entry earlier => ?_⟩
    have distinct := labelled.distinct
    rw [split, List.map_append, List.map_cons, List.nodup_append] at distinct
    have apart := distinct.2.2 entry.1 (List.mem_map_of_mem earlier) label List.mem_cons_self
    simpa using Ne.symm apart

theorem lt_size (labelled : graph.Labelled) (found : graph.find? label = some id) :
    id < graph.dag.size := by
  have member := List.mem_map_of_mem (labelled.find?_eq_some_iff.mp found) (f := Prod.snd)
  rw [labelled.numbered] at member
  exact List.mem_range.mp member

theorem exists_label (labelled : graph.Labelled) (inside : id < graph.dag.size) :
    ∃ label, graph.find? label = some id := by
  have member : id ∈ graph.labels.map Prod.snd := by
    rw [labelled.numbered]
    exact List.mem_range.mpr inside
  obtain ⟨⟨label, _⟩, listed, rfl⟩ := List.mem_map.mp member
  exact ⟨label, labelled.find?_eq_some_iff.mpr listed⟩

theorem label_unique (labelled : graph.Labelled) (found : graph.find? label = some id)
    (otherFound : graph.find? other = some id) : label = other := by
  have distinct : (graph.labels.map Prod.snd).Nodup := by
    rw [labelled.numbered]
    exact List.nodup_range
  have same := List.inj_on_of_nodup_map distinct (labelled.find?_eq_some_iff.mp found)
    (labelled.find?_eq_some_iff.mp otherFound) rfl
  exact congrArg Prod.fst same

end LabelledDag.Labelled

/-! ### Graphs that get more nodes -/

/-- Labels stay with their nodes, and nodes stay as they are but for their uses. -/
structure LabelledDag.Extends (graph graph' : LabelledDag) : Prop where
  labels : ∀ label id, graph.find? label = some id → graph'.find? label = some id
  nodes : ∀ id node, graph.dag.shape.node? id = some node →
    graph'.dag.shape.node? id = some node

namespace LabelledDag

theorem resolves_of_readValue {text : List Char} {value : Value}
    (read : readValue graph text = .ok value) : graph.dag.Resolves value := by
  obtain ⟨_, _, _, resolves⟩ := readValue_eq_ok_iff.mp read
  exact resolves

namespace Extends

theorem resolves (extension : graph.Extends graph') {value : Value}
    (resolves : graph.dag.Resolves value) : graph'.dag.Resolves value := by
  obtain ⟨node, found, inside⟩ := Dag.resolves_shape.mpr resolves
  exact Dag.resolves_shape.mp ⟨node, extension.nodes _ _ found, inside⟩

theorem readValue (extension : graph.Extends graph') {text : List Char} {value : Value}
    (read : readValue graph text = .ok value) : readValue graph' text = .ok value := by
  obtain ⟨label, parts, named, resolves⟩ := readValue_eq_ok_iff.mp read
  exact readValue_eq_ok_iff.mpr
    ⟨label, parts, extension.labels _ _ named, extension.resolves resolves⟩

/-- What a line says of a node, it says as well when there are more nodes and more types. -/
theorem describes (extension : graph.Extends graph') (grows : context.Grows later)
    {pieces : NodeLine} {node : Node} (describes : pieces.Describes machine graph context node) :
    pieces.Describes machine graph' later node where
  results := describes.results.imp fun name _ read =>
    (ValueType.ofChars_repeatable name _ _ _ read).2 later grows
  opcode := describes.opcode
  payload := describes.payload
  operands := describes.operands.imp fun _ _ => extension.readValue

end Extends

/-- A node under a new label. -/
theorem extends_of_define {label : String} {opcode : Opcode} {results : List ValueType}
    {operands : List Value} {payload : Payload} (counted : graph.dag.Counted)
    (defined : graph.define label opcode results operands payload = .ok graph') :
    graph.Extends graph' := by
  obtain ⟨_, _, labels, shape, _⟩ := define_eq_ok counted defined
  constructor
  · intro other id found
    rw [find?, labels, List.lookup_append]
    rw [find?] at found
    rw [found]
    rfl
  · intro id node found
    rw [shape]
    exact Dag.node?_extend _ found

theorem Labelled.define {label : String} {opcode : Opcode} {results : List ValueType}
    {operands : List Value} {payload : Payload} (labelled : graph.Labelled)
    (counted : graph.dag.Counted) (isNew : graph.find? label = none)
    (defined : graph.define label opcode results operands payload = .ok graph') :
    graph'.Labelled ∧ graph'.find? label = some graph.dag.size := by
  obtain ⟨_, _, labels, shape, _⟩ := define_eq_ok counted defined
  have size : graph'.dag.size = graph.dag.size + 1 := Dag.size_of_shape_extend shape
  refine ⟨⟨?_, ?_⟩, ?_⟩
  · rw [labels, List.map_append, List.map_singleton, ← List.concat_eq_append, List.nodup_concat]
    refine ⟨?_, labelled.distinct⟩
    intro member
    obtain ⟨⟨_, id⟩, listed, rfl⟩ := List.mem_map.mp member
    cases isNew.symm.trans (labelled.find?_eq_some_iff.mpr listed)
  · rw [labels, List.map_append, labelled.numbered, Dag.ids, Dag.ids, size, List.range_succ]
    rfl
  · rw [find?] at isNew ⊢
    rw [labels, List.lookup_append, isNew]
    simp

end LabelledDag

/-! ### Lines -/

/-- The lines that say something, without their comments and the blanks around them. -/
def contentLines (lines : List (List Char)) : List (List Char) :=
  (lines.map lineText).filter fun line => !line.isEmpty

/-- The lines of nodes. -/
def nodeLines (lines : List (List Char)) : List (List Char) :=
  (contentLines lines).filter fun line => (rootText? line).isNone

theorem contentLines_append (first second : List (List Char)) :
    contentLines (first ++ second) = contentLines first ++ contentLines second := by
  simp [contentLines]

theorem nodeLines_append (first second : List (List Char)) :
    nodeLines (first ++ second) = nodeLines first ++ nodeLines second := by
  simp [nodeLines, contentLines_append]

/-- The node at a position is what a line says. -/
def LabelledDag.DefinedBy (graph : LabelledDag) (machine : String → Option MachineOp)
    (context : TypeContext) (id : NodeId) (line : List Char) : Prop :=
  ∃ pieces node, NodeLine.ofLine? line = some pieces ∧
    graph.find? (String.ofList pieces.label) = some id ∧ graph.dag.node? id = some node ∧
    pieces.Describes machine graph context node

theorem LabelledDag.DefinedBy.extend {id : NodeId} {line : List Char}
    (defined : graph.DefinedBy machine context id line) (extension : graph.Extends graph')
    (grows : context.Grows later) : graph'.DefinedBy machine later id line := by
  obtain ⟨pieces, node, cut, named, found, describes⟩ := defined
  obtain ⟨uses, there⟩ :=
    Dag.exists_uses_of_shape (extension.nodes id node.shape (Dag.shape_found found))
  exact ⟨pieces, _, cut, extension.labels _ _ named, there,
    { extension.describes grows describes with }⟩

/-- A draft says what the lines so far say. -/
structure Draft.Follows (draft : Draft) (machine : String → Option MachineOp)
    (context : TypeContext) (lines : List (List Char)) : Prop where
  asRead : draft.AsRead machine
  labelled : draft.graph.Labelled
  size : draft.graph.dag.size = (nodeLines lines).length
  nodes : ∀ (id : Nat) (line : List Char), (nodeLines lines)[id]? = some line →
    draft.graph.DefinedBy machine context id line
  rootless : draft.root = none → contentLines lines = nodeLines lines
  rooted : ∀ root, draft.root = some root → ∃ line value,
    contentLines lines = nodeLines lines ++ [line] ∧ rootText? line = some value ∧
    readValue draft.graph (Text.trim value) = .ok root

namespace Draft.Follows

variable {lines : List (List Char)} {line : List Char}

theorem empty : Draft.Follows {} machine context [] where
  asRead := ⟨LabelledDag.Drafted.empty, fun _ impossible => by cases impossible⟩
  labelled := .empty
  size := rfl
  nodes id line impossible := by cases impossible
  rootless _ := rfl
  rooted root impossible := by cases impossible

/-- A line that says a node. -/
theorem node (follows : draft.Follows machine context lines) (rootless : draft.root = none)
    (nonempty : lineText line ≠ []) (notRoot : rootText? (lineText line) = none)
    (asRead : Draft.AsRead { draft with graph := graph' } machine) (grows : context.Grows later)
    {pieces : NodeLine} {node : Node}
    (reads : NodeLine.Reads machine draft.graph later (lineText line) pieces node)
    (defined : draft.graph.define (String.ofList pieces.label) node.opcode node.results
      node.operands node.payload = .ok graph') :
    Draft.Follows { draft with graph := graph' } machine later (lines ++ [line]) := by
  have counted := follows.asRead.graph.counted
  obtain ⟨_, _, _, shape, _⟩ := LabelledDag.define_eq_ok counted defined
  have extension := LabelledDag.extends_of_define counted defined
  obtain ⟨labelled, named⟩ := follows.labelled.define counted reads.isNew defined
  have content : contentLines [line] = [lineText line] := by
    simp [contentLines, nonempty]
  have isNode : nodeLines [line] = [lineText line] := by
    simp [nodeLines, content, notRoot]
  refine ⟨asRead, labelled, ?_, ?_, ?_, ?_⟩
  · rw [Dag.size_of_shape_extend shape, nodeLines_append, isNode, List.length_append, follows.size]
    rfl
  · intro id other atId
    rw [nodeLines_append, isNode] at atId
    rcases getElem?_concat_cases atId with old | ⟨rfl, rfl⟩
    · exact (follows.nodes id other old).extend extension grows
    · rw [← follows.size]
      have there : graph'.dag.shape.node? draft.graph.dag.size =
          some ⟨node.opcode, node.results, node.operands, node.payload, .unvisited, 0⟩ := by
        rw [shape, Dag.node?_extend_of_le _ _ (Nat.le_of_eq (Dag.size_shape _)), Dag.size_shape,
          Nat.sub_self]
        rfl
      obtain ⟨uses, found⟩ := Dag.exists_uses_of_shape there
      exact ⟨pieces, _, reads.cut, named, found,
        { extension.describes (.refl later) reads.describes with }⟩
  · intro _
    rw [contentLines_append, nodeLines_append, content, isNode, follows.rootless rootless]
  · intro root isRoot
    cases rootless.symm.trans isRoot

/-- A line that gives the root. -/
theorem root (follows : draft.Follows machine context lines) {value : List Char} {root : Value}
    (rootless : draft.root = none) (isRoot : rootText? (lineText line) = some value)
    (asRead : Draft.AsRead { draft with root := some root } machine)
    (read : readValue draft.graph (Text.trim value) = .ok root) :
    Draft.Follows { draft with root := some root } machine context (lines ++ [line]) := by
  have nonempty : lineText line ≠ [] := by
    intro empty
    rw [empty] at isRoot
    cases isRoot
  have content : contentLines [line] = [lineText line] := by
    simp [contentLines, nonempty]
  have noNode : nodeLines (lines ++ [line]) = nodeLines lines := by
    rw [nodeLines_append]
    simp [nodeLines, content, isRoot]
  refine ⟨asRead, follows.labelled, ?_, ?_, ?_, ?_⟩
  · rw [noNode]
    exact follows.size
  · rw [noNode]
    exact follows.nodes
  · intro impossible
    cases impossible
  · intro other same
    cases same
    rw [noNode, contentLines_append, content, follows.rootless rootless]
    exact ⟨lineText line, value, rfl, isRoot, read⟩

/-- A line that says nothing. -/
theorem blank (follows : draft.Follows machine context lines) (empty : lineText line = []) :
    draft.Follows machine context (lines ++ [line]) := by
  have content : contentLines (lines ++ [line]) = contentLines lines := by
    rw [contentLines_append]
    simp [contentLines, empty]
  have noNode : nodeLines (lines ++ [line]) = nodeLines lines := by
    rw [nodeLines, content, nodeLines]
  exact { follows with
    size := by rw [noNode]; exact follows.size
    nodes := by rw [noNode]; exact follows.nodes
    rootless := by rw [content, noNode]; exact follows.rootless
    rooted := by rw [content, noNode]; exact follows.rooted }

end Draft.Follows

theorem NodeLine.types_ne_nil {line : List Char} {pieces : NodeLine}
    (cut : ofLine? line = some pieces) : pieces.types ≠ [] := by
  unfold ofLine? at cut
  simp only [Option.bind_eq_bind, Option.bind_eq_some_iff, Prod.exists] at cut
  obtain ⟨_, _, _, typeText, _, _, _, _, _, same⟩ := cut
  cases same
  simpa using Text.fields_ne_nil ',' typeText

/-- The node that a line says can be defined. -/
theorem NodeLine.Reads.exists_define {line : List Char} {pieces : NodeLine} {node : Node}
    (reads : NodeLine.Reads machine graph context (lineText line) pieces node)
    (oneLine : '\n' ∉ line) (counted : graph.dag.Counted) :
    ∃ graph', graph.define (String.ofList pieces.label) node.opcode node.results node.operands
      node.payload = .ok graph' := by
  obtain ⟨cut, _, describes⟩ := reads
  apply LabelledDag.exists_define counted
  · intro empty
    have none := describes.results
    rw [empty, List.forall₂_nil_right_iff] at none
    exact NodeLine.types_ne_nil cut none
  · exact (Payload.written_of_readPayload (NodeLine.enclosed_of_ofLine? cut oneLine)
      describes.payload).checkPayload
  · intro value member
    obtain ⟨_, _, read⟩ := exists_mem_of_forall₂ describes.operands member
    exact LabelledDag.resolves_of_readValue read

/-- A line adds what it says, or its text is at fault. -/
theorem readLine_follows {lines : List (List Char)} {line : List Char}
    (follows : draft.Follows machine context lines) (oneLine : '\n' ∉ line) :
    Ends (fun draft' later => draft'.Follows machine later (lines ++ [line]))
      (fun failure _ => failure.IsProblem) ((readLine machine draft line).run context) := by
  have nodeEnds := readNode_ends machine draft.graph (lineText line) context
  refine (readLine_ends machine draft line context).with_run.mono ?_ ?_
  · rintro draft' later ⟨result, takes⟩
    have asRead := readLine_asRead oneLine follows.asRead result
    cases takes with
    | blank empty => exact follows.blank empty
    | root rootless isRoot read => exact follows.root rootless isRoot asRead read
    | node rootless nonempty notRoot read =>
        obtain ⟨grows, pieces, node, reads, defined⟩ := nodeEnds.of_ok read
        exact follows.node rootless nonempty notRoot asRead grows reads defined
  · rintro failure later (problem | broken)
    · exact problem
    · rcases nodeEnds.of_error broken with problem | ⟨pieces, node, cause, reads, refused⟩
      · exact problem
      · obtain ⟨graph', defined⟩ := reads.exists_define oneLine follows.asRead.graph.counted
        cases refused.symm.trans defined

/-- A run over lines fails at one of them, and for its text. -/
theorem readLines_follows {before lines : List (List Char)} (number : Nat)
    (follows : draft.Follows machine context before) (oneLine : ∀ line ∈ lines, '\n' ∉ line) :
    Ends (fun draft' later => draft'.Follows machine later (before ++ lines))
      (fun failure _ => ∃ line problem, failure = .malformed line problem ∧ number ≤ line ∧
        line < number + lines.length)
      ((readLines machine number lines draft).run context) := by
  induction lines generalizing before number draft context with
  | nil =>
      rw [List.append_nil]
      exact follows
  | cons line rest inductionHypothesis =>
      rw [List.forall_mem_cons] at oneLine
      refine .bind (.adaptExcept ((readLine_follows follows oneLine.1).mono
        (fun _ _ followed => followed) ?_)) ?_
      · rintro _ _ ⟨problem, rfl⟩
        exact ⟨number, problem, rfl, Nat.le_refl _, by simp⟩
      · intro middle later followed
        have ends := inductionHypothesis (number + 1) followed oneLine.2
        rw [List.append_assoc] at ends
        refine ends.mono (fun _ _ followed => followed) ?_
        rintro _ _ ⟨place, problem, rfl, lower, upper⟩
        refine ⟨place, problem, rfl, Nat.le_of_succ_le lower, ?_⟩
        rw [List.length_cons]
        omega

/-! ### Texts -/

/-- The graph of a text. The node at a position is what the line of a node at that position says,
its operands are results of earlier nodes, and its payload is of the kind that the opcode asks for,
which is none for an instruction. Nothing is selected, the uses are exact, the order is that of the
lines, and every node has one label. The last line that says something gives the root. -/
structure LabelledDag.FromText (graph : LabelledDag) (machine : String → Option MachineOp)
    (text : String) (context : TypeContext) : Prop where
  size : graph.dag.size = (nodeLines (Text.lines text.toList)).length
  nodes : ∀ (id : Nat) (line : List Char), (nodeLines (Text.lines text.toList))[id]? = some line →
    graph.DefinedBy machine context id line
  root : ∃ line value root,
    contentLines (Text.lines text.toList) = nodeLines (Text.lines text.toList) ++ [line] ∧
    rootText? line = some value ∧ readValue graph (Text.trim value) = .ok root ∧
    graph.dag.root = some root
  operands : ∀ id node, graph.dag.node? id = some node → ∀ value ∈ node.operands,
    value.node < id ∧ graph.dag.Resolves value
  generic : ∀ id node op, graph.dag.node? id = some node → node.opcode = .generic op →
    node.payload.kind = op.payloadKind
  machine : ∀ id node op, graph.dag.node? id = some node → node.opcode = .machine op →
    node.payload = .none
  unvisited : ∀ id node, graph.dag.node? id = some node → node.state = .unvisited
  uses : ∀ id node, graph.dag.node? id = some node → node.uses = graph.dag.useCount id
  order : graph.order = List.range graph.dag.size
  labelled : ∀ id < graph.dag.size, ∃! label, graph.find? label = some id
  labels : ∀ label id, graph.find? label = some id → id < graph.dag.size

theorem Payload.eq_none_of_kind {payload : Payload} (kind : payload.kind = .none) :
    payload = .none := by
  cases payload with
  | none => rfl
  | _ => cases kind

/-- Only the root and its use are new in a graph that is closed. -/
theorem LabelledDag.extends_of_root {dag : Dag} {root : Value}
    (shape : dag.shape = { graph.dag.shape with root := some root }) :
    graph.Extends { graph with dag } where
  labels _ _ found := found
  nodes id node found := by
    rw [shape]
    exact found

theorem Draft.Follows.fromText {text : String} {root : Value} {dag : Dag}
    (follows : draft.Follows machine context (Text.lines text.toList))
    (isRoot : draft.root = some root)
    (drafted : LabelledDag.Drafted { draft.graph with dag } machine)
    (shape : dag.shape = { draft.graph.dag.shape with root := some root }) :
    LabelledDag.FromText { draft.graph with dag } machine text context := by
  have extension := LabelledDag.extends_of_root shape
  have size : dag.size = draft.graph.dag.size := by
    rw [← Dag.size_shape, shape, ← Dag.size_shape draft.graph.dag]
    rfl
  have kind : ∀ id node, dag.node? id = some node →
      node.payload.kind = writtenPayloadKind node.opcode :=
    fun id node found => (drafted.nodes id node found).written.kind_eq
  have labelled : LabelledDag.Labelled { draft.graph with dag } := by
    refine ⟨follows.labelled.distinct, ?_⟩
    rw [follows.labelled.numbered, Dag.ids, Dag.ids, size]
  constructor
  · exact size.trans follows.size
  · exact fun id line atId => (follows.nodes id line atId).extend extension (.refl context)
  · obtain ⟨line, value, content, isLine, read⟩ := follows.rooted root isRoot
    refine ⟨line, value, root, content, isLine, extension.readValue read, ?_⟩
    rw [← Dag.root_shape, shape]
  · intro id node found value member
    have listed := Dag.mem_operandsOf.mpr ⟨node, found, member⟩
    exact ⟨drafted.earlier id value listed, drafted.counted.operands id value listed⟩
  · intro id node op found generic
    have kind := kind id node found
    rw [generic] at kind
    exact kind
  · intro id node op found isMachine
    have kind := kind id node found
    rw [isMachine] at kind
    exact Payload.eq_none_of_kind kind
  · exact drafted.unvisited
  · exact drafted.counted.uses
  · exact drafted.order
  · intro id inside
    obtain ⟨label, found⟩ := labelled.exists_label inside
    exact ⟨label, found, fun other otherFound => labelled.label_unique otherFound found⟩
  · exact fun label id => labelled.lt_size

/-- A text is refused with the number of one of its lines or the next, or the graph is that of a
draft that follows all lines, closed by its root. -/
theorem readDag_follows (machine : String → Option MachineOp) (text : String)
    (context : TypeContext) :
    Ends
      (fun graph later => ∃ (draft : Draft) (root : Value) (dag : Dag),
        graph = { draft.graph with dag } ∧ draft.root = some root ∧
        draft.Follows machine later (Text.lines text.toList) ∧ graph.Drafted machine ∧
        dag.shape = { draft.graph.dag.shape with root := some root })
      (fun failure _ => ∃ line problem, failure = .malformed line problem ∧ 1 ≤ line ∧
        line ≤ (Text.lines text.toList).length + 1)
      ((readDag machine text).run context) := by
  have oneLine : ∀ line ∈ Text.lines text.toList, '\n' ∉ line :=
    fun _ => Text.not_mem_of_mem_lines
  have start : Draft.Follows {} machine context [] := .empty
  have linesEnd := readLines_follows 1 start oneLine
  refine .bind (linesEnd.mono (fun _ _ follows => follows) ?_) ?_
  · rintro _ _ ⟨line, problem, rfl, lower, upper⟩
    exact ⟨line, problem, rfl, lower, by omega⟩
  · intro draft later follows
    rw [List.nil_append] at follows
    cases isRoot : draft.root with
    | none =>
        have refused : draft.finish (Text.lines text.toList).length =
            .error (.malformed ((Text.lines text.toList).length + 1) .missingRoot) := by
          simp only [Draft.finish, isRoot]
        rw [refused]
        exact ⟨_, _, rfl, Nat.le_add_left _ _, Nat.le_refl _⟩
    | some root =>
        obtain ⟨_, _, _, _, read⟩ := follows.rooted root isRoot
        obtain ⟨dag, finished, _, shape⟩ := Draft.exists_finish isRoot
          follows.asRead.graph.counted (LabelledDag.resolves_of_readValue read)
          (Text.lines text.toList).length
        obtain ⟨drafted, _⟩ := Draft.finish_drafted follows.asRead finished
        rw [finished]
        exact ⟨draft, root, dag, rfl, isRoot, follows, drafted, shape⟩

/-- The graph that is read is that of its text. -/
theorem LabelledDag.fromText_of_readDag {text : String} {later : TypeContext}
    (read : (readDag machine text).run context = .ok graph later) :
    graph.FromText machine text later := by
  obtain ⟨draft, root, dag, rfl, isRoot, follows, drafted, shape⟩ :=
    (readDag_follows machine text context).of_ok read
  exact follows.fromText isRoot drafted shape

/-- Every text is refused with the number of one of its lines or the next, or it is the text of the
graph that is read. -/
theorem readDag_fromText (machine : String → Option MachineOp) (text : String)
    (context : TypeContext) :
    Ends (fun graph later => graph.FromText machine text later)
      (fun failure _ => ∃ line problem, failure = .malformed line problem ∧ 1 ≤ line ∧
        line ≤ (Text.lines text.toList).length + 1)
      ((readDag machine text).run context) :=
  (readDag_follows machine text context).with_run.mono
    (fun _ _ read => LabelledDag.fromText_of_readDag read.1) fun _ _ failed => failed

/-- A byte that is added to itself, with a line between that says nothing. -/
def doubledByteText : String :=
  "x: i8 = Constant<261>\n\n y : i8 = add x, x:0\nroot y\n"

theorem reads_doubledByteText :
    Ends (fun graph _ => graph.dag.size = 2 ∧ graph.find? "y" = some 1) (fun _ _ => False)
      ((readDag (fun _ => none) doubledByteText).run {}) := by
  decide +kernel

theorem refuses_rootlessText :
    Ends (fun _ _ => False) (fun _ _ => True)
      ((readDag (fun _ => none) "x: i8 = Constant<261>\n").run {}) := by
  decide +kernel

/-- The text is that of the graph that is read. A text without a root is refused, at its only line
or the next. -/
theorem fromText_doubledByteText :
    (∃ graph later, (readDag (fun _ => none) doubledByteText).run {} = .ok graph later ∧
      graph.FromText (fun _ => none) doubledByteText later ∧ graph.dag.size = 2 ∧
      graph.find? "y" = some 1) ∧
    ∃ line problem later, (readDag (fun _ => none) "x: i8 = Constant<261>\n").run {} =
      .error (.malformed line problem) later ∧ 1 ≤ line ∧ line ≤ 2 := by
  constructor
  · obtain ⟨graph, later, read, size, label⟩ := reads_doubledByteText.exists_ok
    exact ⟨graph, later, read, (readDag_fromText _ _ _).of_ok read, size, label⟩
  · obtain ⟨failure, later, refused, _⟩ := refuses_rootlessText.exists_error
    obtain ⟨line, problem, rfl, lower, upper⟩ := (readDag_fromText _ _ _).of_error refused
    exact ⟨line, problem, later, refused, lower, upper⟩

end DagSelect
