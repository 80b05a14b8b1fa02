/-
Module: DagSelect.Proofs.Printing
Purpose: What is printed is read back. The lines of a printed graph describe its nodes one after
  another, under the places that they have in the printed order; every line is read while the copies
  of the nodes before it are there. So the text of a graph gives a copy of what is not dead in it,
  with new positions and nothing selected, and the copy has the same text.
Main exports: Value.renumber, Node.Copies, Dag.Renumbered, exists_readLines_describe, Dag.Printed,
  Dag.Printable, Dag.Printable.exists_readDag, Dag.Renumbered.print_eq,
  LabelledDag.Drafted.printable
-/
import DagSelect.Dag.Print
import DagSelect.Proofs.Lines
import DagSelect.Proofs.Liveness
import DagSelect.Proofs.Order

namespace DagSelect

variable {machine : String → Option MachineOp}

/-! ### Lists in step -/

/-- Lists that are each in step with a third are in step with one another. -/
theorem forall₂_exists {α β γ : Type} {first : α → β → Prop} {second : γ → β → Prop} {xs : List α}
    {middle : List β} {ys : List γ} (firsts : List.Forall₂ first xs middle)
    (seconds : List.Forall₂ second ys middle) :
    List.Forall₂ (fun x y => ∃ z, first x z ∧ second y z) xs ys := by
  induction firsts generalizing ys with
  | nil =>
      cases seconds
      exact .nil
  | cons pair _ inductionHypothesis =>
      cases seconds with
      | cons other rest => exact .cons ⟨_, pair, other⟩ (inductionHypothesis rest)

/-! ### Copies -/

/-- The value whose node is known by its place in a list. -/
def Value.renumber (order : List NodeId) (value : Value) : Value :=
  { value with node := order.idxOf value.node }

namespace Node

/-- The node with operands that are known by their places in a list. -/
def renumber (order : List NodeId) (node : Node) : Node :=
  { node with operands := node.operands.map (Value.renumber order) }

/-- A copy says what the line of a node says, and selection has not touched it. -/
structure Copies (copy node : Node) : Prop where
  opcode : copy.opcode = node.opcode
  results : copy.results.map ValueType.name = node.results.map ValueType.name
  operands : copy.operands = node.operands
  payload : copy.payload = node.payload
  unvisited : copy.state = .unvisited

theorem Copies.describe {copy node : Node} (copies : copy.Copies node) (id : NodeId) :
    copy.describe id = node.describe id := by
  simp only [Node.describe, render, copies.opcode, copies.results, copies.operands, copies.payload]

theorem Copies.length_results {copy node : Node} (copies : copy.Copies node) :
    copy.results.length = node.results.length := by
  have lengths := congrArg List.length copies.results
  rwa [List.length_map, List.length_map] at lengths

/-- Use counts are not copied. -/
theorem copies_shape {copy node : Node} : copy.shape.Copies node ↔ copy.Copies node := by
  constructor <;>
    · rintro ⟨opcode, results, operands, payload, unvisited⟩
      exact ⟨opcode, results, operands, payload, unvisited⟩

theorem copies_redefined {node : Node} {results : List ValueType}
    (alike : List.Forall₂ ValueType.Alike results node.results) :
    (node.redefined results).Copies node where
  opcode := rfl
  results := by
    have names : List.Forall₂ (· = ·) (results.map ValueType.name)
        (node.results.map ValueType.name) := by
      rw [List.forall₂_map_left_iff, List.forall₂_map_right_iff]
      exact alike.imp fun _ _ same => same.name
    rwa [List.forall₂_eq_eq_eq] at names
  operands := rfl
  payload := rfl
  unvisited := rfl

/-- The lines of nodes whose positions follow one another. -/
def describeFrom : NodeId → List Node → List String
  | _, [] => []
  | id, node :: rest => node.describe id :: describeFrom (id + 1) rest

theorem describeFrom_congr {copies nodes : List Node} (copied : List.Forall₂ Copies copies nodes)
    (start : NodeId) : describeFrom start copies = describeFrom start nodes := by
  induction copied generalizing start with
  | nil => rfl
  | cons first _ inductionHypothesis =>
      rw [describeFrom, describeFrom, first.describe, inductionHypothesis]

end Node

/-- The nodes that stand at the positions of a list. -/
abbrev Dag.Lists (dag : Dag) : List NodeId → List Node → Prop :=
  List.Forall₂ fun id node => dag.node? id = some node

/-- The copy of a graph in which the nodes of a list have their places in the list as positions.
Nothing in it is selected, and the uses are counted anew. -/
structure Dag.Renumbered (dag : Dag) (order : List NodeId) (copy : Dag) : Prop where
  nodes : List.Forall₂
    (fun id copied => ∃ node, dag.node? id = some node ∧ copied.Copies (node.renumber order))
    order copy.nodes
  root : copy.root = dag.root.map (Value.renumber order)
  counted : copy.Counted

/-! ### Reading the lines -/

section Reading

variable {draft : Draft} {done rest : List Node}

/-- What the nodes offer to later lines, their copies offer too. -/
theorem resolves_of_copies {dag : Dag} (copied : List.Forall₂ Node.Copies dag.nodes done)
    {value : Value} (resolves : Dag.Resolves { nodes := done } value) : dag.Resolves value := by
  obtain ⟨node, found, inside⟩ := resolves
  obtain ⟨inDone, isNode⟩ := List.getElem?_eq_some_iff.mp found
  have inCopies : value.node < dag.nodes.length := by
    rw [copied.length_eq]
    exact inDone
  have copies : Node.Copies dag.nodes[value.node] done[value.node] := copied.get inCopies inDone
  refine ⟨dag.nodes[value.node], List.getElem?_eq_getElem inCopies, ?_⟩
  rw [← isNode] at inside
  rw [copies.length_results]
  exact inside

/-- Lines that describe nodes one after another are read as copies of the nodes, if the operands of
every node are results of nodes before it. -/
theorem exists_readLines_describe (rootless : draft.root = none) (numbered : draft.graph.Numbered)
    (counted : draft.graph.dag.Counted)
    (copied : List.Forall₂ Node.Copies draft.graph.dag.shape.nodes done)
    (writable : ∀ node ∈ rest, node.Writable machine Payload.Unsigned)
    (earlier : ∀ front node back, rest = front ++ node :: back → ∀ value ∈ node.operands,
      Dag.Resolves { nodes := done ++ front } value)
    (number : Nat) (context : TypeContext) :
    ∃ graph context',
      (readLines machine number ((Node.describeFrom draft.graph.dag.size rest).map String.toList)
        draft).run context = .ok { draft with graph } context' ∧
      graph.Numbered ∧ graph.dag.Counted ∧
      List.Forall₂ Node.Copies graph.dag.shape.nodes (done ++ rest) := by
  -- By induction on the nodes that are left; the graph holds copies of those that are done.
  induction rest generalizing draft done number context with
  | nil =>
      refine ⟨draft.graph, context, rfl, numbered, counted, ?_⟩
      rwa [List.append_nil]
  | cons node rest inductionHypothesis =>
      rw [List.forall_mem_cons] at writable
      have resolve : ∀ value ∈ node.operands, draft.graph.dag.Resolves value := by
        intro value member
        have early := earlier [] node rest rfl value member
        rw [List.append_nil] at early
        exact Dag.resolves_shape.mp (resolves_of_copies copied early)
      obtain ⟨graph, results, context', read, numbered', counted', alike, shape⟩ :=
        exists_readLine_describe rootless numbered counted writable.1 resolve context
      have size : graph.dag.size = draft.graph.dag.size + 1 := Dag.size_of_shape_extend shape
      have copied' : List.Forall₂ Node.Copies graph.dag.shape.nodes (done ++ [node]) := by
        rw [shape]
        exact List.rel_append copied (.cons (Node.copies_redefined alike) .nil)
      have later : ∀ front other back, rest = front ++ other :: back →
          ∀ value ∈ other.operands, Dag.Resolves { nodes := done ++ [node] ++ front } value := by
        intro front other back split
        rw [List.append_assoc]
        exact earlier (node :: front) other back (congrArg (node :: ·) split)
      obtain ⟨last, context'', restRead, kept⟩ :=
        @inductionHypothesis { draft with graph } (done ++ [node]) rootless numbered' counted' copied'
          writable.2 later (number + 1) context'
      refine ⟨last, context'', ?_, ?_⟩
      · rw [size] at restRead
        exact run_bind_eq_ok.mpr ⟨_, _, run_adaptExcept_eq_ok.mpr read, restRead⟩
      · rwa [List.append_assoc] at kept

/-- Lines are read one after another. -/
theorem run_readLines_append {first second : List (List Char)} {number : Nat} {middle last : Draft}
    {context context' context'' : TypeContext}
    (firstRead : (readLines machine number first draft).run context = .ok middle context')
    (secondRead : (readLines machine (number + first.length) second middle).run context' =
      .ok last context'') :
    (readLines machine number (first ++ second) draft).run context = .ok last context'' := by
  induction first generalizing number draft context with
  | nil =>
      cases firstRead
      exact secondRead
  | cons line rest inductionHypothesis =>
      obtain ⟨next, between, lineRead, restRead⟩ := run_bind_eq_ok.mp firstRead
      refine run_bind_eq_ok.mpr ⟨next, between, lineRead, inductionHypothesis restRead ?_⟩
      rw [List.length_cons] at secondRead
      rwa [Nat.add_right_comm]

end Reading

/-! ### Printing the lines -/

section Printing

variable {dag : Dag} {order : List NodeId} {id : NodeId} {node : Node} {nodes : List Node}

theorem Dag.printedLabel_of_mem (member : id ∈ order) :
    printedLabel order id = NodeId.label (order.idxOf id) := by
  obtain ⟨place, found⟩ := Option.isSome_iff_exists.mp (List.isSome_idxOf?.mpr member)
  rw [printedLabel, List.idxOf_eq_getD_idxOf?, found]
  rfl

theorem Value.renderWith_printedLabel {value : Value} (member : value.node ∈ order) :
    value.renderWith (Dag.printedLabel order) = (value.renumber order).render := by
  rw [renderWith, Dag.printedLabel_of_mem member]
  rfl

theorem Node.render_printedLabel (member : id ∈ order)
    (inside : ∀ value ∈ node.operands, value.node ∈ order) :
    node.render (Dag.printedLabel order) id = (node.renumber order).describe (order.idxOf id) := by
  have operands : node.operands.map (Value.renderWith (Dag.printedLabel order)) =
      (node.operands.map (Value.renumber order)).map (Value.renderWith NodeId.label) := by
    rw [List.map_map]
    exact List.map_congr_left fun value listed => Value.renderWith_printedLabel (inside value listed)
  simp only [describe, render, renderOperands, renumber, Dag.printedLabel_of_mem member, operands,
    List.isEmpty_map]

/-- The nodes of a list, one after another, give the lines of the nodes under their places. -/
theorem Dag.map_printNode (front : List NodeId) {rest : List NodeId} (distinct : order.Nodup)
    (split : order = front ++ rest) (found : dag.Lists rest nodes)
    (inside : ∀ node ∈ nodes, ∀ value ∈ node.operands, value.node ∈ order) :
    rest.map (dag.printNode order) =
      (Node.describeFrom front.length (nodes.map (Node.renumber order))).map (· ++ "\n") := by
  induction found generalizing front with
  | nil => rfl
  | @cons id node rest nodes first _ inductionHypothesis =>
      rw [List.forall_mem_cons] at inside
      have member : id ∈ order := by simp [split]
      have place : order.idxOf id = front.length := by
        rw [split, List.nodup_append] at distinct
        rw [split, List.idxOf_append_of_notMem, List.idxOf_cons_self, Nat.add_zero]
        exact fun twice => distinct.2.2 id twice id List.mem_cons_self rfl
      have later := inductionHypothesis (front ++ [id]) (by simp [split]) inside.2
      rw [List.length_append] at later
      rw [List.map_cons, later, printNode, first]
      dsimp only
      rw [Node.render_printedLabel member inside.1, place]
      rfl

/-- What the text of a graph lists: nodes in the printed order, whose operands are listed too, and
the root. -/
structure Dag.Printed (dag : Dag) (order : List NodeId) (nodes : List Node) (root : Value) :
    Prop where
  isOrder : dag.topologicalOrder = order
  distinct : order.Nodup
  found : dag.Lists order nodes
  operands : ∀ node ∈ nodes, ∀ value ∈ node.operands, value.node ∈ order
  isRoot : dag.root = some root
  rooted : root.node ∈ order

theorem Dag.Printed.print_eq {root : Value} (printed : dag.Printed order nodes root) :
    dag.print =
      String.join ((Node.describeFrom 0 (nodes.map (Node.renumber order))).map (· ++ "\n")) ++
        ("root " ++ (root.renumber order).render ++ "\n") := by
  have lines := map_printNode [] printed.distinct rfl printed.found printed.operands
  rw [print, printed.isOrder, lines, printRoot, printed.isRoot]
  dsimp only
  rw [Value.renderWith_printedLabel printed.rooted]
  rfl

end Printing

/-- The lines of a text in which every piece ends with a line feed. -/
theorem lines_join {texts : List String} (inline : ∀ text ∈ texts, Inline text.toList)
    (rest : List Char) :
    Text.lines ((String.join (texts.map (· ++ "\n"))).toList ++ rest) =
      texts.map String.toList ++ Text.lines rest := by
  rw [String.toList_join]
  induction texts with
  | nil => rfl
  | cons text more inductionHypothesis =>
      rw [List.forall_mem_cons] at inline
      have noFeed : '\n' ∉ text.toList := fun member => (inline.1 _ member).2 rfl
      rw [List.map_cons, List.flatMap_cons, String.toList_append, List.append_assoc,
        List.append_assoc, List.map_cons, List.cons_append, ← inductionHypothesis inline.2]
      exact Text.lines_append noFeed

theorem inline_describeFrom {names : String → Prop} {nodes : List Node}
    (writable : ∀ node ∈ nodes, node.Writable machine names) (start : NodeId) :
    ∀ text ∈ Node.describeFrom start nodes, Inline text.toList := by
  induction nodes generalizing start with
  | nil => exact fun _ member => absurd member List.not_mem_nil
  | cons node rest inductionHypothesis =>
      rw [List.forall_mem_cons] at writable
      rw [Node.describeFrom, List.forall_mem_cons]
      exact ⟨writable.1.inline_describe start, inductionHypothesis writable.2 (start + 1)⟩

/-! ### Graphs that can be printed -/

/-- A graph that its text says in full, as far as it is not dead. -/
structure Dag.Printable (machine : String → Option MachineOp) (dag : Dag) : Prop where
  counted : dag.Counted
  listable : ∃ rank, dag.Listable rank
  rooted : ∃ root, dag.root = some root ∧ dag.Alive root.node ∧ root.result < twoPow 32
  writable : ∀ id node, dag.node? id = some node → node.state ≠ .dead →
    node.Writable machine Payload.Unsigned

theorem Node.Writable.renumber {names : String → Prop} {node : Node}
    (writable : node.Writable machine names) (order : List NodeId) :
    (node.renumber order).Writable machine names where
  someResult := writable.someResult
  types := writable.types
  opcode := writable.opcode
  payload := writable.payload
  symbol := writable.symbol
  numbered := List.forall_mem_map.mpr writable.numbered

namespace Dag

variable {dag : Dag} {order : List NodeId} {nodes : List Node}

theorem exists_nodes (found : ∀ id ∈ order, ∃ node, dag.node? id = some node) :
    ∃ nodes, dag.Lists order nodes := by
  induction order with
  | nil => exact ⟨[], .nil⟩
  | cons id rest inductionHypothesis =>
      rw [List.forall_mem_cons] at found
      obtain ⟨node, first⟩ := found.1
      obtain ⟨nodes, later⟩ := inductionHypothesis found.2
      exact ⟨node :: nodes, .cons first later⟩

/-- A value of a listed node is a result of the copy in the place of that node. -/
theorem resolves_renumber (found : dag.Lists order nodes) (names : List NodeId) {value : Value}
    (member : value.node ∈ order) (resolves : dag.Resolves value) :
    Resolves { nodes := nodes.map (Node.renumber names) } (value.renumber order) := by
  obtain ⟨node, there, inside⟩ := resolves
  have inOrder := List.idxOf_lt_length_of_mem member
  have inNodes : order.idxOf value.node < nodes.length := Nat.lt_of_lt_of_eq inOrder found.length_eq
  have same : nodes[order.idxOf value.node] = node := by
    have listed := found.get inOrder inNodes
    rw [List.get_eq_getElem, List.getElem_idxOf, there] at listed
    exact (Option.some.inj listed).symm
  refine ⟨node.renumber names, ?_, inside⟩
  change (nodes.map (Node.renumber names))[order.idxOf value.node]? = _
  rw [List.getElem?_map, List.getElem?_eq_getElem inNodes, same]
  rfl

/-- In a list that puts operands before their users, the renumbered operands of a node are results of
renumbered nodes before it. -/
theorem ClosedList.resolves_renumber (counted : dag.Counted) (closed : dag.ClosedList order)
    (found : dag.Lists order nodes) {front back : List Node} {node : Node}
    (split : nodes.map (Node.renumber order) = front ++ node :: back) {value : Value}
    (member : value ∈ node.operands) : Resolves { nodes := front } value := by
  obtain ⟨before, rest, rfl, rfl, restSplit⟩ := List.map_eq_append_iff.mp split
  obtain ⟨own, after, rfl, rfl, _⟩ := List.map_eq_cons_iff.mp restSplit
  obtain ⟨old, oldMember, rfl⟩ := List.mem_map.mp member
  have taken := List.forall₂_take_append _ _ _ found
  obtain ⟨id, later, ownFound, _, dropped⟩ :=
    List.forall₂_cons_right_iff.mp (List.forall₂_drop_append _ _ _ found)
  have orderSplit : order = order.take before.length ++ id :: later := by
    rw [← dropped, List.take_append_drop]
  have inFront : old.node ∈ order.take before.length :=
    closed _ id later orderSplit old.node (depends_of_mem ownFound oldMember)
  have place : order.idxOf old.node = (order.take before.length).idxOf old.node := by
    conv_lhs => rw [orderSplit, List.idxOf_append_of_mem inFront]
  have resolves := counted.operands id old (mem_operandsOf.mpr ⟨own, ownFound, oldMember⟩)
  rw [Value.renumber, place]
  exact Dag.resolves_renumber taken order inFront resolves

namespace Printable

/-- What is printed are the nodes that are not dead, each once and after its operands. -/
theorem exists_printed (printable : dag.Printable machine) :
    ∃ nodes root, dag.Printed dag.topologicalOrder nodes root ∧
      (∀ node ∈ nodes, node.Writable machine Payload.Unsigned) ∧ root.result < twoPow 32 := by
  obtain ⟨rank, listable⟩ := printable.listable
  obtain ⟨distinct, listed, _⟩ := topologicalOrder_good listable
  obtain ⟨root, isRoot, rootAlive, inRange⟩ := printable.rooted
  obtain ⟨nodes, found⟩ := exists_nodes fun id member =>
    ((listed id).mp member).imp fun _ there => there.1
  have alive : ∀ node ∈ nodes, ∃ id, dag.node? id = some node ∧ node.state ≠ .dead := by
    intro node member
    obtain ⟨id, inOrder, there⟩ := exists_mem_of_forall₂ found member
    obtain ⟨other, otherThere, notDead⟩ := (listed id).mp inOrder
    cases there.symm.trans otherThere
    exact ⟨id, there, notDead⟩
  refine ⟨nodes, root, ⟨rfl, distinct, found, ?_, isRoot, (listed _).mpr rootAlive⟩, ?_, inRange⟩
  · intro node member value operand
    obtain ⟨id, there, notDead⟩ := alive node member
    refine (listed _).mpr (listable.live id _ ⟨node, there, notDead⟩ ?_)
    exact depends_of_mem there operand
  · intro node member
    obtain ⟨id, there, notDead⟩ := alive node member
    exact printable.writable id node there notDead

end Printable

namespace Printed

variable {root : Value}

theorem lines_print (printed : dag.Printed order nodes root)
    (writable : ∀ node ∈ nodes.map (Node.renumber order), node.Writable machine Payload.Unsigned) :
    Text.lines dag.print.toList =
      (Node.describeFrom 0 (nodes.map (Node.renumber order))).map String.toList ++
        [("root " ++ (root.renumber order).render).toList] := by
  have oneLine : '\n' ∉ ("root " ++ (root.renumber order).render).toList :=
    fun member => (Value.inline_rootLine _ _ member).2 rfl
  rw [printed.print_eq, String.toList_append, lines_join (inline_describeFrom writable 0),
    String.toList_append]
  exact congrArg _ (Text.lines_append oneLine)

/-- Copies of the renumbered nodes make a renumbered graph. -/
theorem renumbered (printed : dag.Printed order nodes root) {copy : Dag}
    (copied : List.Forall₂ Node.Copies copy.shape.nodes (nodes.map (Node.renumber order)))
    (isRoot : copy.root = some (root.renumber order)) (counted : copy.Counted) :
    dag.Renumbered order copy := by
  refine ⟨?_, ?_, counted⟩
  · have pairs : List.Forall₂ (fun copied node => copied.Copies (node.renumber order))
        copy.nodes nodes := by
      have shaped : List.Forall₂ Node.Copies (copy.nodes.map Node.shape)
          (nodes.map (Node.renumber order)) := copied
      rw [List.forall₂_map_left_iff, List.forall₂_map_right_iff] at shaped
      exact shaped.imp fun _ _ => Node.copies_shape.mp
    exact forall₂_exists printed.found pairs
  · rw [isRoot, printed.isRoot]
    rfl

end Printed

/-- The text of a graph is read, and gives a renumbered copy of what is not dead. -/
theorem Printable.exists_readDag (printable : dag.Printable machine) (context : TypeContext) :
    ∃ copy context', (readDag machine dag.print).run context = .ok copy context' ∧
      dag.Renumbered dag.topologicalOrder copy.dag := by
  obtain ⟨nodes, root, printed, writable, inRange⟩ := printable.exists_printed
  obtain ⟨rank, listable⟩ := printable.listable
  obtain ⟨_, _, closed⟩ := topologicalOrder_good listable
  have copyWritable : ∀ node ∈ nodes.map (Node.renumber dag.topologicalOrder),
      node.Writable machine Payload.Unsigned :=
    List.forall_mem_map.mpr fun node listed => (writable node listed).renumber _
  -- The lines of the nodes, then the line of the root, then the end of the text.
  obtain ⟨graph, context', nodesRead, numbered, counted, copied⟩ :=
    @exists_readLines_describe machine {} [] (nodes.map (Node.renumber dag.topologicalOrder)) rfl rfl
      counted_empty .nil copyWritable
      (fun _ _ _ split _ => closed.resolves_renumber printable.counted printed.found split)
      1 context
  have resolves : graph.dag.Resolves (root.renumber dag.topologicalOrder) :=
    resolves_shape.mp (resolves_of_copies copied (resolves_renumber printed.found _ printed.rooted
      (printable.counted.root root printed.isRoot)))
  have rootRead := @readLine_root machine { graph } rfl numbered _ resolves inRange context'
  obtain ⟨copy, finished, copyCounted, shape⟩ :=
    @Draft.exists_finish { graph, root := some (root.renumber dag.topologicalOrder) } _ rfl counted
      resolves (Text.lines dag.print.toList).length
  refine ⟨{ graph with dag := copy }, context', ?_, ?_⟩
  · refine run_bind_eq_ok.mpr
      ⟨{ graph, root := some (root.renumber dag.topologicalOrder) }, context', ?_, ?_⟩
    · rw [printed.lines_print copyWritable]
      refine run_readLines_append nodesRead ?_
      exact run_bind_eq_ok.mpr ⟨_, _, run_adaptExcept_eq_ok.mpr rootRead, rfl⟩
    · rw [finished]
      rfl
  · refine printed.renumbered ?_ ?_ copyCounted
    · rw [shape]
      exact copied
    · rw [← root_shape, shape]

/-! ### The text of the copy -/

theorem Resolves.renumber_ids {value : Value} (resolves : dag.Resolves value) :
    value.renumber dag.ids = value := by
  rw [Value.renumber, ids, idxOf_range resolves.lt_size]

theorem Counted.renumber_ids (counted : dag.Counted) :
    dag.nodes.map (Node.renumber dag.ids) = dag.nodes := by
  refine (List.map_congr_left fun node member => ?_).trans (List.map_id _)
  obtain ⟨id, there⟩ := mem_nodes_iff.mp member
  have operands : node.operands.map (Value.renumber dag.ids) = node.operands := by
    refine (List.map_congr_left fun value operand => ?_).trans (List.map_id _)
    have resolves := counted.operands id value (mem_operandsOf.mpr ⟨node, there, operand⟩)
    exact resolves.renumber_ids
  rw [Node.renumber, operands]
  rfl

/-- What is listed if the printed order is that of the positions. -/
theorem Counted.printed (counted : dag.Counted) (isOrder : dag.topologicalOrder = dag.ids)
    {root : Value} (isRoot : dag.root = some root) : dag.Printed dag.ids dag.nodes root := by
  have listed : ∀ value, dag.Resolves value → value.node ∈ dag.ids := fun value resolves =>
    List.mem_range.mpr resolves.lt_size
  refine ⟨isOrder, List.nodup_range, ?_, ?_, isRoot, listed _ (counted.root _ isRoot)⟩
  · refine List.forall₂_iff_get.mpr ⟨List.length_range, fun place inIds inNodes => ?_⟩
    simp only [List.get_eq_getElem, ids, List.getElem_range]
    exact List.getElem?_eq_getElem inNodes
  · intro node member value operand
    obtain ⟨id, there⟩ := mem_nodes_iff.mp member
    exact listed _ (counted.operands id value (mem_operandsOf.mpr ⟨node, there, operand⟩))

/-- The text of such a graph describes its nodes as they are. -/
theorem Counted.print_eq (counted : dag.Counted) (isOrder : dag.topologicalOrder = dag.ids)
    {root : Value} (isRoot : dag.root = some root) :
    dag.print = String.join ((Node.describeFrom 0 dag.nodes).map (· ++ "\n")) ++
      ("root " ++ root.render ++ "\n") := by
  rw [(counted.printed isOrder isRoot).print_eq, counted.renumber_ids,
    (counted.root root isRoot).renumber_ids]

namespace Renumbered

variable {copy : Dag}

theorem copies_of_found {ids : List NodeId} {copies : List Node}
    (pairs : List.Forall₂
      (fun id copied => ∃ node, dag.node? id = some node ∧ copied.Copies (node.renumber order))
      ids copies)
    (found : dag.Lists ids nodes) :
    List.Forall₂ (fun copied node => copied.Copies (node.renumber order)) copies nodes := by
  induction pairs generalizing nodes with
  | nil =>
      cases found
      exact .nil
  | cons pair _ inductionHypothesis =>
      obtain ⟨node, there, copies⟩ := pair
      cases found with
      | cons also rest =>
          cases there.symm.trans also
          exact .cons copies (inductionHypothesis rest)

theorem copied (renumbered : dag.Renumbered order copy) (found : dag.Lists order nodes) :
    List.Forall₂ Node.Copies copy.nodes (nodes.map (Node.renumber order)) :=
  List.forall₂_map_right_iff.mpr (copies_of_found renumbered.nodes found)

/-- In the copy every operand stands before its users. -/
theorem earlier (renumbered : dag.Renumbered order copy) (counted : dag.Counted)
    (closed : dag.ClosedList order) (found : dag.Lists order nodes)
    (user operand : NodeId) (edge : copy.Depends user operand) : operand < user := by
  have copied := renumbered.copied found
  obtain ⟨value, member, rfl⟩ := edge
  obtain ⟨node, there, listed⟩ := mem_operandsOf.mp member
  obtain ⟨inCopy, rfl⟩ := List.getElem?_eq_some_iff.mp there
  have inNodes : user < (nodes.map (Node.renumber order)).length := by
    rw [← copied.length_eq]
    exact inCopy
  have copies : copy.nodes[user].Copies (nodes.map (Node.renumber order))[user] :=
    copied.get inCopy inNodes
  rw [copies.operands] at listed
  have split := (List.take_append_drop user (nodes.map (Node.renumber order))).symm
  rw [List.drop_eq_getElem_cons inNodes] at split
  have before := (closed.resolves_renumber counted found split listed).lt_size
  exact Nat.lt_of_lt_of_le before (List.length_take_le _ _)

theorem alive (renumbered : dag.Renumbered order copy) {id : NodeId} (inside : id < copy.size) :
    copy.Alive id := by
  obtain ⟨node, there⟩ := exists_node?_of_lt inside
  obtain ⟨_, _, _, _, copies⟩ :=
    exists_mem_of_forall₂ renumbered.nodes (mem_nodes_iff.mpr ⟨id, there⟩)
  exact alive_of_unvisited there copies.unvisited

/-- The copy has the same text. -/
theorem print_eq (renumbered : dag.Renumbered dag.topologicalOrder copy)
    (printable : dag.Printable machine) : copy.print = dag.print := by
  obtain ⟨nodes, root, printed, _, _⟩ := printable.exists_printed
  obtain ⟨rank, listable⟩ := printable.listable
  obtain ⟨_, _, closed⟩ := topologicalOrder_good listable
  have isOrder : copy.topologicalOrder = copy.ids :=
    topologicalOrder_eq_ids (renumbered.earlier printable.counted closed printed.found)
      fun _ => renumbered.alive
  have isRoot : copy.root = some (root.renumber dag.topologicalOrder) := by
    rw [renumbered.root, printed.isRoot]
    rfl
  rw [renumbered.counted.print_eq isOrder isRoot, printed.print_eq,
    Node.describeFrom_congr (renumbered.copied printed.found)]

end Renumbered

/-- Nothing that is not dead refers to something dead. -/
theorem Settled.listable {rank : NodeId → Nat} (settled : dag.Settled) (counted : dag.Counted)
    (ranked : dag.Ranked rank) : dag.Listable rank := by
  refine ⟨ranked, ?_⟩
  rintro user operand _ ⟨value, member, rfl⟩
  exact settled.exists_of_pointed (counted.operands user value member)
    (Or.inl ⟨user, value, member, rfl⟩)

end Dag

/-- What turns make of a graph that was read can be printed, if no symbol in it has a sign. -/
theorem LabelledDag.Drafted.printable {Features : Type} {target : Target Features}
    {graph : LabelledDag} {ids : List NodeId} {first last : Run} (drafted : graph.Drafted machine)
    (rooted : ∃ root, graph.dag.root = some root)
    (spelled : ∀ name op, machine name = some op → (Opcode.machine op).Spelled machine)
    (folds : target.Folds) (spells : target.Spells machine)
    (visits : target.Visits ids first last) (firstDag : first.dag = graph.dag)
    (inside : ∀ id ∈ ids, id < graph.dag.size)
    (unsigned : ∀ id node, last.dag.node? id = some node → node.state ≠ .dead →
      ∀ symbol offset, node.payload = .global symbol offset → Payload.Unsigned symbol) :
    last.dag.Printable machine := by
  obtain ⟨root, isRoot⟩ := rooted
  have counted := firstDag ▸ drafted.counted
  have settled := visits.settled counted (firstDag ▸ drafted.unvisited)
  have lastCounted := visits.counted counted
  have lastRoot : last.dag.root = some root := by
    rw [visits.root counted, firstDag, isRoot]
  have ranked : last.dag.Ranked (rankBy graph.dag.size graph.order.idxOf) := by
    apply visits.ranked folds inside
    · rw [firstDag]
    · rw [firstDag]
      exact drafted.counted.ranked drafted.isDependencyOrder.sorted
  have writable : last.dag.Writable machine fun _ => True :=
    visits.writable spells (firstDag ▸ drafted.writable spelled fun _ _ _ _ _ _ => trivial)
  refine ⟨lastCounted, ⟨_, settled.listable lastCounted ranked⟩, ⟨root, lastRoot, ?_, ?_⟩, ?_⟩
  · exact settled.exists_of_pointed (lastCounted.root root lastRoot)
      (Or.inr (Dag.isRoot_eq_true_iff.mpr ⟨root, lastRoot, rfl⟩))
  · exact drafted.numbered root isRoot
  · intro id node found notDead
    exact { writable id node found with symbol := unsigned id node found notDead }

end DagSelect
