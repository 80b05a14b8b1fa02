/-
Module: DagSelect.Proofs.Z80.Availability
Purpose: Selection introduces no instruction that the processor lacks, and no instruction on values
  that no register holds. What an instruction needs is said once; the guards of the table are seven,
  known by their names, so that each pattern can be compared with what its instruction needs.
Main exports: Z80.guards, Z80.Processor.Offers, Z80.offers_of_guard, Z80.Processor.Holds,
  Z80.holds_of_covers, Z80.introduced_available
-/
import DagSelect.Proofs.Step
import DagSelect.Proofs.Z80.Progress
import Mathlib.Data.List.Nodup

namespace DagSelect.Z80

/-! ### Guards -/

/-- The guards of the table. -/
def guards : List (Guard Processor) :=
  [.always, is16Bit, is24Bit, hasUndocOps, hasMultiply, has16BitEz80Ops, has24BitEz80Ops]

theorem guard_mem_guards : ∀ pattern ∈ patterns, pattern.guard ∈ guards := by
  simp [patterns, leafPatterns, widths, WidthForms.memoryPatterns, bytePatterns,
    accumulatorPatterns, widePatterns, shiftPatterns, returnPatterns, leafRule, rule, guards]

/-- The guard of a pattern is known by its name. -/
theorem guard_eq_of_name {pattern : Pattern Processor} {guard : Guard Processor}
    (listed : pattern ∈ patterns) (member : guard ∈ guards)
    (named : pattern.guard.name = guard.name) : pattern.guard = guard := by
  have distinct : (guards.map Guard.name).Nodup := by decide
  exact List.inj_on_of_nodup_map distinct (guard_mem_guards pattern listed) member named

/-! ### What an instruction needs -/

/-- The processor has what an instruction needs. -/
structure Processor.Offers (processor : Processor) (op : MachineOp) : Prop where
  undocumented : op = Instruction.SLL8r.toMachineOp → processor.undocOps = true
  multiply : op = Instruction.MLT8rr.toMachineOp →
    processor.z180Ops = true ∨ processor.ez80Ops = true
  slot16 : op = Instruction.LEA16ro.toMachineOp →
    processor.is16Bit = true ∧ processor.ez80Ops = true
  slot24 : op = Instruction.LEA24ro.toMachineOp →
    processor.is24Bit = true ∧ processor.ez80Ops = true
  slotSum : op = Instruction.ADD16fi.toMachineOp → processor.is16Bit = true
  /-- The name of an instruction on 24 bits says so. -/
  wide : ['2', '4'] <:+: op.name.toList → processor.is24Bit = true

/-- The patterns of the instructions with needs have guards for them. -/
theorem guard_of_emit : ∀ pattern ∈ patterns,
    (pattern.emit = Instruction.SLL8r.toMachineOp → pattern.guard.name = hasUndocOps.name) ∧
    (pattern.emit = Instruction.MLT8rr.toMachineOp → pattern.guard.name = hasMultiply.name) ∧
    (pattern.emit = Instruction.LEA16ro.toMachineOp →
      pattern.guard.name = has16BitEz80Ops.name) ∧
    (pattern.emit = Instruction.LEA24ro.toMachineOp →
      pattern.guard.name = has24BitEz80Ops.name) ∧
    (pattern.emit = Instruction.ADD16fi.toMachineOp → pattern.guard.name = is16Bit.name) ∧
    (['2', '4'] <:+: pattern.emit.name.toList →
      pattern.guard.name = is24Bit.name ∨ pattern.guard.name = has24BitEz80Ops.name) := by
  decide +kernel

section

variable {processor : Processor} {pattern : Pattern Processor}

theorem is24Bit_of_guard (listed : pattern ∈ patterns)
    (guarded : pattern.guard.holds processor = true)
    (named : pattern.guard.name = is24Bit.name ∨ pattern.guard.name = has24BitEz80Ops.name) :
    processor.is24Bit = true := by
  rcases named with plain | withOps
  · rw [guard_eq_of_name listed (by simp [guards]) plain] at guarded
    exact guarded
  · rw [guard_eq_of_name listed (by simp [guards]) withOps] at guarded
    exact (Bool.and_eq_true_iff.mp guarded).1

/-- A pattern that the processor has emits an instruction that the processor has. -/
theorem offers_of_guard (listed : pattern ∈ patterns)
    (guarded : pattern.guard.holds processor = true) : processor.Offers pattern.emit := by
  obtain ⟨undocumented, multiply, slot16, slot24, slotSum, wide⟩ := guard_of_emit pattern listed
  constructor
  · intro emits
    rw [guard_eq_of_name listed (by simp [guards]) (undocumented emits)] at guarded
    exact guarded
  · intro emits
    rw [guard_eq_of_name listed (by simp [guards]) (multiply emits)] at guarded
    exact Bool.or_eq_true_iff.mp guarded
  · intro emits
    rw [guard_eq_of_name listed (by simp [guards]) (slot16 emits)] at guarded
    exact Bool.and_eq_true_iff.mp guarded
  · intro emits
    rw [guard_eq_of_name listed (by simp [guards]) (slot24 emits)] at guarded
    exact Bool.and_eq_true_iff.mp guarded
  · intro emits
    rw [guard_eq_of_name listed (by simp [guards]) (slotSum emits)] at guarded
    exact guarded
  · intro named
    exact is24Bit_of_guard listed guarded (wide named)

end

/-! ### What registers hold -/

/-- A register holds what an instruction for a node works on: the value that a store writes, nothing
for a return, and the first result of any other node. -/
structure Processor.Holds (processor : Processor) (dag : Dag) (op : GenericOp) (node : Node) :
    Prop where
  stored : op = .store → ∃ value type, node.operands[1]? = some value ∧
    dag.valueType value = .ok type ∧ processor.isLegal type = true
  result : op ≠ .store → op ≠ .ret → ∃ type, node.results.head? = some type ∧
    processor.isLegal type = true

/-- A register holds values of every width that the processor moves. -/
theorem isLegal_of_width {processor : Processor} {width : WidthForms} (listed : width ∈ widths)
    (guarded : width.guard.holds processor = true) :
    processor.isLegal (.simple width.type) = true := by
  have held : width.type ∈ processor.legalTypes.map Prod.fst := by
    rw [Processor.legalTypes_eq]
    exact List.mem_map_of_mem (List.mem_filter.mpr ⟨listed, guarded⟩)
  obtain ⟨entry, member, named⟩ := List.mem_map.mp held
  unfold Processor.isLegal Processor.registerClassFor?
  rw [Option.isSome_iff_ne_none, Ne, List.lookup_eq_none_iff]
  intro absent
  simpa [named] using absent entry member

/-- Every pattern but the returns asks for the type of what it works on. -/
theorem typeTest_cases : ∀ pattern ∈ patterns,
    (pattern.op = .ret ∧ pattern.typeTest = .any) ∨
    ∃ width ∈ widths,
      (width.guard.name = is24Bit.name →
        pattern.guard.name = is24Bit.name ∨ pattern.guard.name = has24BitEz80Ops.name) ∧
      (pattern.op = .store ∧ pattern.typeTest = .operand 1 width.type ∨
        pattern.op ≠ .store ∧ pattern.op ≠ .ret ∧ pattern.typeTest = .result width.type) := by
  decide +kernel

theorem width_guard_cases : ∀ width ∈ widths, width.guard = .always ∨ width.guard = is24Bit := by
  simp [widths]

/-- A pattern that the processor has covers only nodes that work on what a register holds. -/
theorem holds_of_covers {processor : Processor} {pattern : Pattern Processor} {dag : Dag}
    {types : AddressTypes} {id : NodeId} {node : Node} {own rest : List Capture}
    (listed : pattern ∈ patterns) (guarded : pattern.guard.holds processor = true)
    (covers : pattern.Covers dag types id node own rest) :
    processor.Holds dag pattern.op node := by
  have typed := covers.typed
  rcases typeTest_cases pattern listed with ⟨isRet, _⟩ | ⟨width, widthListed, guards, cases⟩
  · rw [isRet]
    exact ⟨by simp, by simp⟩
  · have legal : processor.isLegal (.simple width.type) = true := by
      apply isLegal_of_width widthListed
      rcases width_guard_cases width widthListed with always | wide
      · rw [always]
        rfl
      · rw [wide] at guards ⊢
        exact is24Bit_of_guard listed guarded (guards rfl)
    rcases cases with ⟨isStore, test⟩ | ⟨notStore, notRet, test⟩
    · rw [test, TypeTest.holds] at typed
      refine ⟨fun _ => ?_, fun notStore => absurd isStore notStore⟩
      split at typed
      · rename_i value found
        obtain ⟨type, valueTyped, same⟩ := except_bind_eq_ok.mp typed
        cases beq_iff_eq.mp (Except.ok.inj same)
        exact ⟨value, _, found, valueTyped, legal⟩
      · cases typed
    · rw [test] at typed
      refine ⟨fun isStore => absurd isStore notStore, fun _ _ => ?_⟩
      exact ⟨_, TypeTest.holds_result_iff.mp typed, legal⟩

/-! ### What selection introduces -/

/-- Selection introduces only instructions that the processor has, on values that its registers
hold: for every graph, every order and every outcome. An instruction of the graph that is left
either was there, or stands at a node that was generic, is one that the processor offers, and works
on what a register holds. The types of values do not change, so they may be read off the graph that
is left. -/
theorem introduced_available (processor : Processor) {name : String} {order : List NodeId}
    {run after : Run}
    (ended : (processor.target.selectFunction name order).run run = .ok () after ∨
      ∃ error, (processor.target.selectFunction name order).run run =
        .error (.declined error) after)
    {id : NodeId} {changed : Node} {op : MachineOp} (found : after.dag.node? id = some changed)
    (machine : changed.opcode = .machine op) :
    ∃ node, run.dag.node? id = some node ∧
      (node.opcode = .machine op ∨
        ∃ generic, node.opcode = .generic generic ∧ processor.Offers op ∧
          processor.Holds after.dag generic node) := by
  obtain ⟨ids, first, last, firstDag, lastDag, steps⟩ :=
    Target.exists_steps_of_selectFunction ended
  rw [lastDag] at found ⊢
  rw [← firstDag]
  rcases steps.exists_rewrites (Dag.shape_found found) machine with
    ⟨node, there, already⟩ | ⟨node, pattern, before, own, rest, rewrites, rfl⟩
  · obtain ⟨uses, there⟩ := Dag.exists_uses_of_shape there
    exact ⟨_, there, Or.inl already⟩
  · obtain ⟨listed, guarded⟩ := rewrites.listed
    obtain ⟨uses, there⟩ := Dag.exists_uses_of_shape rewrites.start
    have holds := holds_of_covers listed guarded rewrites.covers
    obtain ⟨_, later⟩ := rewrites.later
    refine ⟨_, there, Or.inr ⟨pattern.op, rewrites.covers.opcode, offers_of_guard listed guarded,
      ?_, holds.result⟩⟩
    intro isStore
    obtain ⟨value, type, position, typed, legal⟩ := holds.stored isStore
    exact ⟨value, type, position, later.valueType typed, legal⟩

/-! ### A text with an undocumented instruction -/

/-- A plain processor on which the undocumented instructions work. -/
def Processor.undocumented : Processor := { Processor.plain with undocOps := true }

/-- A byte of memory is shifted left, a one comes in from the right, and the result is returned. -/
def shiftInOneText : String :=
  "t0: ch = EntryToken\nt1: i16 = GlobalAddress<@buf>\nt2: i8,ch = load t0, t1\n" ++
  "t3: i8 = Constant<1>\nt4: i8 = shl t2, t3\nt5: i8 = or t4, t3\n" ++
  "t6: ch = ret t2:1, t5\nroot t6"

/-- The graph of the text. -/
def shiftInOneGraph : LabelledDag where
  dag := {
    nodes := [
      ⟨.generic .entryToken, [.chain], [], .none, .unvisited, 1⟩,
      ⟨.generic .globalAddress, [.simple .i16], [], .global "buf" 0, .unvisited, 1⟩,
      ⟨.generic .load, [.simple .i8, .chain], [⟨0, 0⟩, ⟨1, 0⟩], .none, .unvisited, 2⟩,
      ⟨.generic .constant, [.simple .i8], [], .constant 1, .unvisited, 2⟩,
      ⟨.generic .shl, [.simple .i8], [⟨2, 0⟩, ⟨3, 0⟩], .none, .unvisited, 1⟩,
      ⟨.generic .or, [.simple .i8], [⟨4, 0⟩, ⟨3, 0⟩], .none, .unvisited, 1⟩,
      ⟨.generic .ret, [.chain], [⟨2, 1⟩, ⟨5, 0⟩], .none, .unvisited, 1⟩]
    root := some ⟨6, 0⟩ }
  order := [0, 1, 2, 3, 4, 5, 6]
  labels := [("t0", 0), ("t1", 1), ("t2", 2), ("t3", 3), ("t4", 4), ("t5", 5), ("t6", 6)]

theorem ends_shiftInOneText :
    Ends (fun graph context => graph = shiftInOneGraph ∧ context = {}) (fun _ _ => False)
      ((readDag machineOp? shiftInOneText).run {}) := by
  decide +kernel

theorem readDag_shiftInOneText :
    (readDag machineOp? shiftInOneText).run {} = .ok shiftInOneGraph {} := by
  obtain ⟨_, _, read, rfl, rfl⟩ := ends_shiftInOneText.exists_ok
  exact read

/-- One instruction takes the shift in, and the shift dies. -/
theorem selects_shiftInOneGraph :
    Ends
      (fun _ run =>
        (run.dag.node? 5).map Node.opcode = some (.machine Instruction.SLL8r.toMachineOp) ∧
        (run.dag.node? 4).map Node.state = some .dead)
      (fun _ _ => False)
      ((Processor.undocumented.target.selectFunction "shift" shiftInOneGraph.order).run
        { dag := shiftInOneGraph.dag }) := by
  decide +kernel

/-- The processor has the instruction that is introduced, and a register holds its result. -/
theorem available_shiftInOneGraph :
    ∃ (after : Run) (node : Node) (generic : GenericOp),
      (Processor.undocumented.target.selectFunction "shift" shiftInOneGraph.order).run
        { dag := shiftInOneGraph.dag } = .ok () after ∧
      shiftInOneGraph.dag.node? 5 = some node ∧ node.opcode = .generic generic ∧
      Processor.undocumented.Offers Instruction.SLL8r.toMachineOp ∧
      Processor.undocumented.Holds after.dag generic node := by
  obtain ⟨_, after, selects, introduced, _⟩ := selects_shiftInOneGraph.exists_ok
  obtain ⟨changed, found, machine⟩ := Option.map_eq_some_iff.mp introduced
  obtain ⟨node, there, already | ⟨generic, isGeneric, offers, holds⟩⟩ :=
    introduced_available Processor.undocumented (Or.inl selects) found machine
  · cases there
    cases already
  · exact ⟨after, node, generic, selects, there, isGeneric, offers, holds⟩

end DagSelect.Z80
