/-
Module: DagSelect.Proofs.Z80.RoundTrip
Purpose: The text of a graph says it in full, before selection and after it. The names of the
  instructions are words that no generic opcode has, so a graph that was read, and whatever selection
  makes of it, is read back from its text as a renumbered copy of what is not dead.
Main exports: Z80.spelled_instruction, Z80.target_spells, Z80.Outcome, Z80.renumbered_of_print
-/
import DagSelect.Proofs.Printing
import DagSelect.Proofs.Z80.Table

namespace DagSelect.Z80

/-- The name of an instruction is read as the instruction. -/
theorem spelled_instruction (instruction : Instruction) :
    (Opcode.machine instruction.toMachineOp).Spelled machineOp? := by
  have entries : ∀ instruction ∈ Instruction.all, GenericOp.ofName? instruction.name = none ∧
      machineOp? instruction.name = some instruction.toMachineOp ∧
      Text.Word instruction.name.toList ∧ instruction.name.toList ≠ [] := by decide +kernel
  have listed : instruction ∈ Instruction.all := by cases instruction <;> decide
  obtain ⟨notGeneric, named, word, nonempty⟩ := entries instruction listed
  refine ⟨?_, word, nonempty⟩
  simp only [readOpcode, Opcode.name, Instruction.toMachineOp, String.ofList_toList, notGeneric]
  rw [named]
  rfl

theorem spelled_of_machineOp? {name : String} {op : MachineOp} (named : machineOp? name = some op) :
    (Opcode.machine op).Spelled machineOp? := by
  obtain ⟨instruction, _, rfl⟩ := Option.map_eq_some_iff.mp named
  exact spelled_instruction instruction

theorem target_spells (processor : Processor) : processor.target.Spells machineOp? := by
  have emits : ∀ pattern ∈ patterns, ∃ instruction ∈ Instruction.all,
      pattern.emit = instruction.toMachineOp := by decide +kernel
  intro pattern listed
  obtain ⟨instruction, _, emit⟩ := emits pattern listed
  rw [emit]
  exact spelled_instruction instruction

/-- What a graph can be after one selection or none: selection may succeed or decline. -/
inductive Outcome (input : Dag) : Dag → Prop
  | untouched : Outcome input input
  | selected {processor : Processor} {name : String} {order : List NodeId} {session : Session}
      {log : List LogRecord} {after : Run}
      (ended : (processor.target.selectFunction name order).run ⟨input, session, log⟩ =
          .ok () after ∨
        ∃ error, (processor.target.selectFunction name order).run ⟨input, session, log⟩ =
          .error (.declined error) after) : Outcome input after.dag

/-- An outcome comes from turns of nodes of the input. -/
theorem Outcome.exists_visits {input dag : Dag} (counted : input.Counted)
    (outcome : Outcome input dag) :
    ∃ (processor : Processor) (ids : List NodeId) (first last : Run), first.dag = input ∧
      last.dag = dag ∧ (∀ id ∈ ids, id < first.dag.size) ∧
      processor.target.Visits ids first last := by
  cases outcome with
  | untouched => exact ⟨.plain, [], { dag := input }, { dag := input }, rfl, rfl, by simp, .nil⟩
  | @selected processor _ _ _ _ _ ended =>
      obtain ⟨first, last, ids, firstDag, lastDag, inside, visits⟩ :=
        Target.exists_visits_of_selectFunction counted ended
      exact ⟨processor, ids, first, last, firstDag, lastDag.symm, inside, visits⟩

/-- The global symbol that a payload holds. -/
def globalSymbol? : Payload → Option String
  | .global symbol _ => some symbol
  | _ => none

/-- No global symbol of a node that is not dead has a sign in it. -/
def SignFree (dag : Dag) : Prop :=
  ∀ node ∈ dag.nodes, node.state ≠ .dead → ∀ symbol ∈ globalSymbol? node.payload,
    '+' ∉ symbol.toList ∧ '-' ∉ symbol.toList

instance decidableSignFree (dag : Dag) : Decidable (SignFree dag) :=
  inferInstanceAs (Decidable (∀ node ∈ dag.nodes, _))

theorem Outcome.printable {graph : LabelledDag} {dag : Dag} (drafted : graph.Drafted machineOp?)
    (rooted : ∃ root, graph.dag.root = some root) (outcome : Outcome graph.dag dag)
    (signFree : SignFree dag) : dag.Printable machineOp? := by
  obtain ⟨processor, ids, first, last, firstDag, rfl, inside, visits⟩ :=
    outcome.exists_visits drafted.counted
  refine drafted.printable rooted (fun _ _ => spelled_of_machineOp?) (target_folds processor)
    (target_spells processor) visits firstDag (firstDag ▸ inside) ?_
  intro id node found notDead symbol offset carries
  refine signFree node (Dag.mem_nodes_iff.mpr ⟨id, found⟩) notDead symbol ?_
  rw [carries]
  rfl

/-- The text of a graph says it in full. Take a graph that was read, or what one selection made of it
for any processor and any order, whether it succeeded or declined. If no symbol has a sign in it, the
text is read again, and gives the part that is not dead: the nodes stand in the printed order, which
lists each of them once and after its operands, the operands and the root name them by their places,
opcodes, payloads and the names of the types are the same, nothing is selected, and the uses are
exact. The text of the copy is the same text. -/
theorem renumbered_of_print {text : String} {context context' : TypeContext} {graph : LabelledDag}
    (read : (readDag machineOp? text).run context = .ok graph context') {dag : Dag}
    (outcome : Outcome graph.dag dag) (signFree : SignFree dag) (fresh : TypeContext) :
    (dag.topologicalOrder.Nodup ∧ (∀ id, id ∈ dag.topologicalOrder ↔ dag.Alive id) ∧
      dag.ClosedList dag.topologicalOrder) ∧
    ∃ copy fresh', (readDag machineOp? dag.print).run fresh = .ok copy fresh' ∧
      copy.order = copy.dag.ids ∧ dag.Renumbered dag.topologicalOrder copy.dag ∧
      copy.dag.print = dag.print := by
  obtain ⟨drafted, rooted⟩ := readDag_drafted read
  have printable := outcome.printable drafted rooted signFree
  obtain ⟨_, listable⟩ := printable.listable
  obtain ⟨copy, fresh', copyRead, renumbered⟩ := printable.exists_readDag fresh
  refine ⟨Dag.topologicalOrder_good listable, copy, fresh', copyRead, ?_, renumbered,
    renumbered.print_eq printable⟩
  exact (readDag_drafted copyRead).1.order

/-- The text of the graph after selection for the plainest processor. -/
def selectedIncrementText : String :=
  "t0: ch = EntryToken\nt1: i16 = TargetGlobalAddress<@buf+2>\nt2: i16 = LD16ri t1\n" ++
  "t3: i16 = TargetConstant<-3>\nt4: i8,ch = LD8go t0, t2, t3\nt5: i8 = INC8r t4\n" ++
  "t6: i16 = TargetConstant<-3>\nt7: ch = LD8og t4:1, t5, t2, t6\nt8: ch = RET t7, t5\nroot t8\n"

theorem print_selected_incrementGraph :
    Ends (fun _ run => run.dag.print = selectedIncrementText ∧ SignFree run.dag) (fun _ _ => False)
      ((Processor.plain.target.selectFunction "increment" incrementGraph.order).run
        { dag := incrementGraph.dag }) := by
  decide +kernel

/-- The selected graph is read back from its text. -/
theorem renumbered_incrementGraph :
    ∃ after copy context,
      (Processor.plain.target.selectFunction "increment" incrementGraph.order).run
        { dag := incrementGraph.dag } = .ok () after ∧
      after.dag.print = selectedIncrementText ∧
      (readDag machineOp? selectedIncrementText).run {} = .ok copy context ∧
      after.dag.Renumbered after.dag.topologicalOrder copy.dag ∧
      copy.dag.print = selectedIncrementText := by
  obtain ⟨_, after, selects, text, signFree⟩ := print_selected_incrementGraph.exists_ok
  obtain ⟨_, copy, context, read, _, renumbered, copyText⟩ :=
    renumbered_of_print readDag_incrementText (.selected (Or.inl selects)) signFree {}
  rw [text] at read copyText
  exact ⟨after, copy, context, selects, text, read, renumbered, copyText⟩

end DagSelect.Z80
