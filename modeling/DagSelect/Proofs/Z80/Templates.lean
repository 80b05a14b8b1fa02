/-
Module: DagSelect.Proofs.Z80.Templates
Purpose: The instructions that selection introduces fit their assembly templates. The number of
  operands of such an instruction is that of the pattern, whatever the pattern covers, so templates
  can be compared with the table of patterns once and for all.
Main exports: Z80.NamesOperand, Z80.namedOperands, Z80.mem_namedOperands_iff, Target.Uses,
  Target.Uses.length_operands, Z80.template_of_listed, Z80.rewritten_fits_template
-/
import DagSelect.Proofs.Reading
import DagSelect.Proofs.Step
import DagSelect.Proofs.Z80.Table

namespace DagSelect

namespace Z80

/-! ### Templates -/

/-- A template names an operand: a dollar sign is followed by its number, and the number by something
that is no digit. -/
def NamesOperand (template : List Char) (number : Nat) : Prop :=
  ∃ front digits back, template = front ++ '$' :: (digits ++ back) ∧
    Text.readDigits? digits = some number ∧ ∀ c, back.head? = some c → c.isDigit = false

/-- The numbers of the operands that a template names. -/
def namedOperands : List Char → List Nat
  | [] => []
  | c :: rest =>
    if c = '$' then
      (Text.readDigits? (rest.takeWhile Char.isDigit)).toList ++ namedOperands rest
    else namedOperands rest

theorem namesOperand_cons_iff {c : Char} {rest : List Char} {number : Nat} :
    NamesOperand (c :: rest) number ↔
      (c = '$' ∧ Text.readDigits? (rest.takeWhile Char.isDigit) = some number) ∨
        NamesOperand rest number := by
  constructor
  · rintro ⟨front, digits, back, split, reads, ends⟩
    cases front with
    | nil =>
        obtain ⟨rfl, rfl⟩ := List.cons.inj split
        rw [Text.takeWhile_append_stop (Text.isDigit_of_readDigits? reads) ends]
        exact Or.inl ⟨rfl, reads⟩
    | cons _ front =>
        obtain ⟨rfl, rfl⟩ := List.cons.inj split
        exact Or.inr ⟨front, digits, back, rfl, reads, ends⟩
  · rintro (⟨rfl, reads⟩ | ⟨front, digits, back, rfl, reads, ends⟩)
    · refine ⟨[], _, rest.dropWhile Char.isDigit, ?_, reads, ?_⟩
      · rw [List.takeWhile_append_dropWhile]
        rfl
      · intro c first
        have stops := List.head?_dropWhile_not Char.isDigit rest
        rw [first] at stops
        exact stops
    · exact ⟨c :: front, digits, back, rfl, reads, ends⟩

/-- The operands that a template names can be listed. -/
theorem mem_namedOperands_iff {template : List Char} {number : Nat} :
    number ∈ namedOperands template ↔ NamesOperand template number := by
  induction template with
  | nil => simp [namedOperands, NamesOperand]
  | cons c rest inductionHypothesis =>
      rw [namesOperand_cons_iff, ← inductionHypothesis, namedOperands]
      split
      · rename_i isDollar
        simp [isDollar]
      · rename_i other
        simp [other]

/-- The instruction of every pattern has a template, which names only operands that the pattern
accounts for. -/
theorem template_of_listed {pattern : Pattern Processor} (listed : pattern ∈ patterns) :
    ∃ template, asmTemplate? pattern.emit = some template ∧
      ∀ number, NamesOperand template.toList number → number < pattern.arity := by
  have fits : ∀ pattern ∈ patterns, ((asmTemplate? pattern.emit).any fun template =>
      (namedOperands template.toList).all fun number => decide (number < pattern.arity)) = true := by
    decide +kernel
  obtain ⟨template, known, below⟩ := Option.any_eq_true _ _ |>.mp (fits pattern listed)
  refine ⟨template, known, fun number named => ?_⟩
  exact of_decide_eq_true (List.all_eq_true.mp below number (mem_namedOperands_iff.mpr named))

end Z80

/-! ### Operands of a rewritten node -/

namespace Target

variable {Features : Type} {target : Target Features} {before after : Dag} {id : NodeId}
  {pattern : Pattern Features} {changed : Node}

/-- Turns that lead from one graph to another turn a node into an instruction by a pattern. -/
def Uses (target : Target Features) (before after : Dag) (id : NodeId)
    (pattern : Pattern Features) : Prop :=
  ∃ first last node turn own rest, first.dag = before ∧ last.dag = after ∧
    target.Rewrites first last id node pattern turn own rest

/-- The pattern is one of the table. -/
theorem Uses.listed (uses : target.Uses before after id pattern) :
    pattern ∈ target.table.patterns := by
  obtain ⟨_, _, _, _, _, _, _, _, rewrites⟩ := uses
  exact rewrites.listed.1

/-- The node is the instruction of the pattern, with as many operands as the pattern says. -/
theorem Uses.length_operands (uses : target.Uses before after id pattern)
    (found : after.node? id = some changed) :
    changed.opcode = .machine pattern.emit ∧ changed.operands.length = pattern.arity := by
  obtain ⟨_, _, node, turn, own, rest, _, rfl, rewrites⟩ := uses
  have same := (Dag.shape_found found).symm.trans rewrites.final
  have shape : changed.shape =
      node.shape.morphed pattern.emit (Capture.place turn.dag.size (own ++ rest)) :=
    Option.some.inj same
  constructor
  · exact congrArg Node.opcode shape
  · calc changed.operands.length
        = (Capture.place turn.dag.size (own ++ rest)).length :=
          congrArg (fun node => node.operands.length) shape
      _ = (own ++ rest).length := Capture.length_place _ _
      _ = pattern.arity := rewrites.covers.length_captures

end Target

namespace Z80

/-- A node that selection turned into an instruction was turned by a pattern, which says alone how many
operands the node has. The instruction has a template, and the template names only operands that the
node has. This holds for every graph, every order and every outcome. -/
theorem rewritten_fits_template (processor : Processor) {name : String} {order : List NodeId}
    {run after : Run}
    (ended : (processor.target.selectFunction name order).run run = .ok () after ∨
      ∃ error, (processor.target.selectFunction name order).run run =
        .error (.declined error) after)
    {id : NodeId} {changed : Node} {op : MachineOp} (found : after.dag.node? id = some changed)
    (machine : changed.opcode = .machine op)
    (rewritten : ∀ node, run.dag.node? id = some node → node.opcode ≠ .machine op) :
    (∃ pattern, processor.target.Uses run.dag after.dag id pattern) ∧
    (∀ pattern, processor.target.Uses run.dag after.dag id pattern →
      pattern ∈ patterns ∧ pattern.emit = op ∧ changed.operands.length = pattern.arity) ∧
    ∃ template, asmTemplate? op = some template ∧
      ∀ number, NamesOperand template.toList number → number < changed.operands.length := by
  have used : ∃ pattern, processor.target.Uses run.dag after.dag id pattern := by
    obtain ⟨ids, first, last, firstDag, lastDag, steps⟩ :=
      Target.exists_steps_of_selectFunction ended
    rw [lastDag] at found
    rcases steps.exists_rewrites (Dag.shape_found found) machine with
      ⟨node, there, already⟩ | ⟨node, pattern, before, own, rest, rewrites, rfl⟩
    · obtain ⟨uses, there⟩ := Dag.exists_uses_of_shape there
      rw [firstDag] at there
      exact (rewritten _ there already).elim
    · exact ⟨pattern, first, last, node, before, own, rest, firstDag, lastDag.symm, rewrites⟩
  have fits : ∀ pattern, processor.target.Uses run.dag after.dag id pattern →
      pattern ∈ patterns ∧ pattern.emit = op ∧ changed.operands.length = pattern.arity := by
    intro pattern uses
    obtain ⟨emits, length⟩ := uses.length_operands found
    exact ⟨uses.listed, Opcode.machine.inj (emits.symm.trans machine), length⟩
  refine ⟨used, fits, ?_⟩
  obtain ⟨pattern, uses⟩ := used
  obtain ⟨listed, rfl, length⟩ := fits pattern uses
  rw [length]
  exact template_of_listed listed

/-- The store is selected on its own, and the run declines because of the other nodes. -/
theorem declines_incrementGraph_after_store :
    Ends (fun _ _ => False)
      (fun failure after => failure = .declined (.unvisited 0) ∧
        (after.dag.node? 7).map Node.opcode = some (.machine Instruction.LD8og.toMachineOp))
      ((Processor.plain.target.selectFunction "increment" [7]).run
        { dag := incrementGraph.dag }) := by
  decide +kernel

/-- The template of the store names the base and the displacement of its address, which take the last
two of its four operands. -/
theorem template_fits_incrementGraph :
    ∃ (after : Run) (changed : Node) (template : String),
      (Processor.plain.target.selectFunction "increment" [7]).run { dag := incrementGraph.dag } =
        .error (.declined (.unvisited 0)) after ∧
      after.dag.node? 7 = some changed ∧
      (∃ pattern ∈ patterns, pattern.emit = Instruction.LD8og.toMachineOp ∧
        changed.operands.length = pattern.arity) ∧
      asmTemplate? Instruction.LD8og.toMachineOp = some template ∧
      NamesOperand template.toList 3 ∧ 3 < changed.operands.length := by
  obtain ⟨_, after, declines, rfl, introduced⟩ := declines_incrementGraph_after_store.exists_error
  obtain ⟨changed, found, machine⟩ := Option.map_eq_some_iff.mp introduced
  have rewritten : ∀ node, incrementGraph.dag.node? 7 = some node →
      node.opcode ≠ .machine Instruction.LD8og.toMachineOp := by
    rintro _ ⟨⟩
    decide
  obtain ⟨⟨pattern, uses⟩, fits, template, known, below⟩ :=
    rewritten_fits_template .plain (Or.inr ⟨_, declines⟩) found machine rewritten
  have named : NamesOperand template.toList 3 := by
    cases Option.some.inj (known.symm.trans (show _ = some "ld ($2 + $3), $1" by decide +kernel))
    exact mem_namedOperands_iff.mp (by decide +kernel)
  exact ⟨after, changed, template, declines, found, ⟨pattern, fits pattern uses⟩, known, named,
    below 3 named⟩

end Z80

end DagSelect
