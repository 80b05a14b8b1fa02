/-
Module: DagSelect.Proofs.Z80.Features
Purpose: More instruction sets never break selection. What an instruction set adds to the table is
  either for nodes that could not be covered without it, or takes the operands of a pattern that was
  there before, or is the one instruction that takes a left shift in. Without the last, two
  processors select in step, up to the instructions that they choose. With it, the second processor
  leaves out a user of a shift and of nothing else, so what dies on the first one dies on the
  second.
Main exports: Z80.Processor.Extends, Z80.Processor.Extends.captures_cases, Z80.InStep,
  Z80.Overtakes, Z80.selects_of_extends
-/
import DagSelect.Proofs.Outline
import DagSelect.Proofs.Stage
import DagSelect.Proofs.Z80.Availability

namespace DagSelect

namespace Pattern

variable {Features : Type} {pattern other : Pattern Features} {dag : Dag} {types : AddressTypes}
  {id : NodeId} {captures captures' : List Capture}

/-- What a pattern captures is decided by its matchers. -/
theorem captures_eq (root : pattern.root = other.root)
    (operands : pattern.operands = other.operands)
    (finds : (pattern.matchNode dag types id).Finds captures)
    (finds' : (other.matchNode dag types id).Finds captures') : captures = captures' := by
  simp only [matchNode, Attempt.finds_bind, Attempt.finds_ask] at finds finds'
  obtain ⟨node, fetched, _, _, _, _, _, _, finds⟩ := finds
  obtain ⟨node', fetched', _, _, _, _, _, _, finds'⟩ := finds'
  cases fetched.symm.trans fetched'
  rw [root, operands] at finds
  exact Option.some.inj (Except.ok.inj (finds.symm.trans finds'))

/-- A pattern that takes its first operand as it is captures that operand. -/
theorem Covers.exists_value {node : Node} {own rest : List Capture} {matchers : List Matcher}
    (covers : pattern.Covers dag types id node own rest)
    (operands : pattern.operands = .reg :: matchers) :
    ∃ value values, node.operands = value :: values ∧ Capture.value value ∈ own ++ rest := by
  have matched := covers.operands
  have length := covers.length
  rw [operands] at matched length
  cases listed : node.operands with
  | nil => simp [listed] at length
  | cons value values =>
      rw [listed] at matched
      cases matched with
      | cons head _ =>
          cases head with
          | reg _ _ => exact ⟨value, values, rfl, by simp⟩

end Pattern

/-! ### Shifts -/

/-- The node is a left shift of a value of another node. -/
def Dag.Shifts (dag : Dag) (shift id : NodeId) : Prop :=
  ∃ node value values, dag.node? shift = some node ∧ node.opcode = .generic .shl ∧
    node.operands = value :: values ∧ value.node = id

namespace Stage

variable {input dag : Dag} {position : NodeId → Nat} {waiting : List NodeId} {id other : NodeId}

/-- A shift that waits is one of the input. -/
theorem shifts_iff (stage : Stage input position waiting dag) (member : id ∈ waiting) :
    dag.Shifts id other ↔ input.Shifts id other := by
  obtain ⟨node, found, uses, inputFound⟩ := stage.exists_found member
  simp [Dag.Shifts, found, inputFound]

/-- A shift of the node whose turn it is has had its turn. -/
theorem not_mem_of_shifts (stage : Stage input position (id :: waiting) dag)
    (shifts : input.Shifts other id) : other ∉ id :: waiting := by
  intro member
  obtain ⟨node, value, values, found, _, operands, named⟩ := (stage.shifts_iff member).mpr shifts
  have edge : dag.Depends other id :=
    ⟨value, Dag.mem_operandsOf.mpr ⟨node, found, by simp [operands]⟩, named⟩
  exact stage.not_mem_of_depends edge member

end Stage

namespace Z80

/-! ### Larger instruction sets -/

/-- The second processor has pointers of the same width and every instruction set of the first. -/
structure Processor.Extends (first second : Processor) : Prop where
  mode : first.mode = second.mode
  undocOps : first.undocOps = true → second.undocOps = true
  z180Ops : first.z180Ops = true → second.z180Ops = true
  ez80Ops : first.ez80Ops = true → second.ez80Ops = true

theorem isFlat_of_mem : ∀ pattern ∈ patterns, pattern.isFlat = true := by
  decide +kernel

/-- The one node that is taken in is a shift, by a disjunction that is an undocumented instruction.
-/
theorem of_takesIn : ∀ pattern ∈ patterns, ∀ op operands,
    Matcher.node op operands ∈ pattern.operands →
    op = .shl ∧ pattern.op = .or ∧ pattern.guard.name = hasUndocOps.name := by
  simp [patterns, leafPatterns, widths, WidthForms.memoryPatterns, bytePatterns,
    accumulatorPatterns, widePatterns, shiftPatterns, returnPatterns, leafRule, rule]

/-- Multiplication has no pattern without a multiply instruction, and it is all that there is such a
guard for; the same for addresses of stack slots, which all patterns fold. -/
theorem op_of_guard : ∀ pattern ∈ patterns,
    (pattern.guard.name = hasMultiply.name ↔ pattern.op = .mul) ∧
    (pattern.guard.name = has16BitEz80Ops.name → pattern.op = .frameIndex) ∧
    (pattern.guard.name = hasUndocOps.name → pattern.op = .or) := by
  decide +kernel

theorem matchers_of_frameIndex : ∀ pattern ∈ patterns, pattern.op = .frameIndex →
    pattern.root = some .off ∧ pattern.operands = [] := by
  simp [patterns, leafPatterns, widths, WidthForms.memoryPatterns, bytePatterns,
    accumulatorPatterns, widePatterns, shiftPatterns, returnPatterns, leafRule, rule]

/-- The pattern for an undocumented instruction takes in a shift by one. -/
theorem matchers_of_undocumented : ∀ pattern ∈ patterns,
    pattern.guard.name = hasUndocOps.name →
    pattern.root = none ∧
      pattern.operands = [.node .shl [.reg, .exactly 1], .exactly 1] := by
  simp [patterns, leafPatterns, widths, WidthForms.memoryPatterns, bytePatterns,
    accumulatorPatterns, widePatterns, shiftPatterns, returnPatterns, leafRule, rule, is16Bit,
    is24Bit, hasUndocOps, hasMultiply, has16BitEz80Ops, has24BitEz80Ops, Guard.always]

/-- The other patterns for what can be taken in, and for what can take it in, keep the first operand
as it is. -/
theorem matchers_of_shift : ∀ pattern ∈ patterns, pattern.op = .or ∨ pattern.op = .shl →
    pattern.guard.name ≠ hasUndocOps.name →
    ∃ matchers, pattern.operands = .reg :: matchers := by
  simp [patterns, leafPatterns, widths, WidthForms.memoryPatterns, bytePatterns,
    accumulatorPatterns, widePatterns, shiftPatterns, returnPatterns, leafRule, rule, is16Bit,
    is24Bit, hasUndocOps, hasMultiply, has16BitEz80Ops, has24BitEz80Ops, Guard.always]

section Guards

variable {first second : Processor} {guard : Guard Processor}

/-- A guard that the first processor passes, the second one passes. -/
theorem guard_of_extends (larger : first.Extends second) (member : guard ∈ guards)
    (holds : guard.holds first = true) : guard.holds second = true := by
  simp only [guards, List.mem_cons, List.not_mem_nil, or_false] at member
  rcases member with rfl | rfl | rfl | rfl | rfl | rfl | rfl
  · rfl
  · simpa [is16Bit, Processor.is16Bit, larger.mode] using holds
  · simpa [is24Bit, Processor.is24Bit, larger.mode] using holds
  · exact larger.undocOps holds
  · simp only [hasMultiply, Bool.or_eq_true] at holds ⊢
    exact holds.imp larger.z180Ops larger.ez80Ops
  · simp only [has16BitEz80Ops, Processor.has16BitEz80Ops, Processor.is16Bit, larger.mode,
      Bool.and_eq_true] at holds ⊢
    exact holds.imp_right larger.ez80Ops
  · simp only [has24BitEz80Ops, Processor.has24BitEz80Ops, Processor.is24Bit, larger.mode,
      Bool.and_eq_true] at holds ⊢
    exact holds.imp_right larger.ez80Ops

/-- The guards that only the second processor can pass. Pointers of 24 bits come with the eZ80
instructions, so both processors have those then. -/
theorem guard_cases_of_extends (larger : first.Extends second) (member : guard ∈ guards)
    (holds : guard.holds second = true) (fails : guard.holds first = false) :
    guard = hasUndocOps ∨ guard = hasMultiply ∨ guard = has16BitEz80Ops := by
  simp only [guards, List.mem_cons, List.not_mem_nil, or_false] at member
  rcases member with rfl | rfl | rfl | rfl | rfl | rfl | rfl
  · cases fails
  · simp [is16Bit, Processor.is16Bit, larger.mode] at holds fails
    exact absurd holds fails
  · simp [is24Bit, Processor.is24Bit, larger.mode] at holds fails
    exact absurd holds fails
  · exact Or.inl rfl
  · exact Or.inr (Or.inl rfl)
  · exact Or.inr (Or.inr rfl)
  · simp only [has24BitEz80Ops, Processor.has24BitEz80Ops, Processor.is24Bit, Bool.and_eq_true,
      beq_iff_eq] at holds
    have wide : first.mode = .bits24 := larger.mode.trans holds.1
    simp [has24BitEz80Ops, Processor.has24BitEz80Ops, Processor.is24Bit, wide,
      first.ez80_of_bits24 wide] at fails

theorem Processor.Extends.addressTypes (larger : first.Extends second) :
    first.target.addressTypes = second.target.addressTypes := by
  have pointer : first.pointerType = second.pointerType := by
    rw [Processor.pointerType, larger.mode, Processor.pointerType]
  change first.addressTypes = second.addressTypes
  rw [Processor.addressTypes, pointer, Processor.addressTypes]

end Guards

/-! ### What the second processor finds -/

namespace Processor.Extends

variable {first second : Processor} {before after : Dag} {id : NodeId} {op : GenericOp}
  {pattern found : Pattern Processor} {captures captures' : List Capture}

/-- Where the first processor covers a node, the second one does. -/
theorem exists_cover (larger : first.Extends second) (counted : after.Counted) (full : after.Full)
    {node : Node} (there : after.node? id = some node)
    (same : ∀ pattern ∈ patterns, pattern.guard.holds first = true →
      pattern.matchNode before first.target.addressTypes id =
        pattern.matchNode after second.target.addressTypes id)
    (finds : (first.target.cover before id op).Finds (pattern, captures)) :
    ∃ found captures', (second.target.cover after id op).Finds (found, captures') := by
  obtain ⟨listed, rfl, guarded, matched⟩ := Target.cover_finds finds
  rw [same pattern listed guarded] at matched
  apply Target.exists_finds (second.answers counted full) (full.resolves there) listed _ matched
  exact guard_of_extends larger (guard_mem_guards pattern listed) guarded

/-- The second processor takes the same operands, unless it has an undocumented instruction that the
first one lacks. -/
theorem captures_cases (larger : first.Extends second)
    (same : ∀ pattern ∈ patterns, pattern.guard.holds first = true →
      pattern.matchNode before first.target.addressTypes id =
        pattern.matchNode after second.target.addressTypes id)
    (finds : (first.target.cover before id op).Finds (pattern, captures))
    (finds' : (second.target.cover after id op).Finds (found, captures')) :
    captures' = captures ∨ (found.guard = hasUndocOps ∧ first.undocOps = false) := by
  obtain ⟨listed, rfl, guarded, matched⟩ := Target.cover_finds finds
  obtain ⟨listed', sameOp, guarded', matched'⟩ := Target.cover_finds finds'
  have candidate : ∀ other ∈ patternTable.candidates pattern.op, other ∈ patterns :=
    fun other member => (PatternTable.mem_candidates_iff.mp member).1
  have extra : found.guard.holds first.target.features = false ∨
      (first.target.firstMatch before id (patternTable.candidates pattern.op)).Finds
        (found, captures') := by
    apply Target.finds_or_extra _ _ finds'
    · intro other member
      exact guard_of_extends larger (guard_mem_guards other (candidate other member))
    · intro other member
      exact same other (candidate other member)
  rcases extra with fails | again
  · rcases guard_cases_of_extends larger (guard_mem_guards found listed') guarded' fails with
      undocumented | multiply | slot
    · rw [undocumented] at fails
      exact Or.inr ⟨undocumented, fails⟩
    · -- A product that the first processor covers needs a multiply instruction there.
      have isProduct := ((op_of_guard found listed').1.mp (by rw [multiply])).symm.trans sameOp
      have named := (op_of_guard pattern listed).1.mpr isProduct.symm
      rw [guard_eq_of_name listed (by simp [guards]) named, ← multiply] at guarded
      cases guarded.symm.trans fails
    · -- The address of a stack slot is folded the same way by every instruction.
      have isSlot := (op_of_guard found listed').2.1 (by rw [slot])
      obtain ⟨root, operands⟩ := matchers_of_frameIndex pattern listed (sameOp.symm.trans isSlot)
      obtain ⟨root', operands'⟩ := matchers_of_frameIndex found listed' isSlot
      rw [same pattern listed guarded] at matched
      exact Or.inl (Pattern.captures_eq (root'.trans root.symm) (operands'.trans operands.symm)
        matched' matched)
  · cases again.symm.trans finds
    exact Or.inl rfl

/-- The second processor is not stuck at a node that the first one gets past, if something points at
it for the first one too, the patterns of the first match the same way, and what the second one
finds can be made. -/
theorem unstuck {before after : Run} {dag' : Dag} {node node' : Node}
    (larger : first.Extends second) (visit : first.target.Visit id before after)
    (there : before.dag.node? id = some node) (unvisited : node.state = .unvisited)
    (counted' : dag'.Counted) (full' : dag'.Full) (there' : dag'.node? id = some node')
    (generic : ∀ op, node'.opcode = .generic op → node.opcode = .generic op)
    (pointed : dag'.Pointed id → before.dag.Pointed id)
    (same : ∀ pattern ∈ patterns, pattern.guard.holds first = true →
      pattern.matchNode before.dag first.target.addressTypes id =
        pattern.matchNode dag' second.target.addressTypes id)
    (makes : ∀ op pattern captures found captures',
      (first.target.cover before.dag id op).Finds (pattern, captures) →
      (second.target.cover dag' id op).Finds (found, captures') →
      (∀ capture ∈ captures, capture.Makes) → ∀ capture ∈ captures', capture.Makes) :
    (∀ node op, ¬ second.target.Refuses id dag' node op) ∧
      ∀ cause, ¬ second.target.Breaks id dag' cause := by
  apply Target.not_stuck_of_covered (second.answers counted' full') (full'.resolves there')
    (Dag.lt_size_of_node? there')
  intro _ op found' generic' needs pointed'
  cases found'.symm.trans there'
  rcases visit.of_generic there unvisited (generic op generic') with
    ⟨unused, _⟩ | ⟨_, needsNone, _⟩ | ⟨_, _, pattern, own, rest, finds, _, made, _⟩
  · exact absurd (pointed pointed') unused
  · cases needs.symm.trans needsNone
  · obtain ⟨found, captures', finds'⟩ := larger.exists_cover counted' full' there' same finds
    exact ⟨found, captures', finds', makes op _ _ _ _ finds finds' made⟩

end Processor.Extends

/-! ### Selecting in step -/

/-- Two graphs on the way from one input that differ in their instructions only. -/
structure InStep (input : Dag) (position : NodeId → Nat) (waiting : List NodeId)
    (dag dag' : Dag) : Prop where
  stage : Stage input position waiting dag
  stage' : Stage input position waiting dag'
  outline : dag.outline = dag'.outline

namespace InStep

variable {input dag dag' : Dag} {position : NodeId → Nat} {waiting : List NodeId} {id : NodeId}
  {first second : Processor} {op : GenericOp} {pattern found : Pattern Processor}
  {captures captures' : List Capture}

/-- The same users are counted in both graphs, so every pattern matches the same way. -/
theorem matchNode_eq (inStep : InStep input position (id :: waiting) dag dag')
    (inputCounted : input.Counted) {types : AddressTypes} (listed : pattern ∈ patterns) :
    pattern.matchNode dag types id = pattern.matchNode dag' types id := by
  apply Pattern.matchNode_eq (inStep.stage.alike_both inStep.stage' inputCounted)
    List.mem_cons_self (isFlat_of_mem pattern listed)
  intro op operands _ value _ node node' nodeFound nodeFound' _
  rw [inStep.stage.counted.uses _ _ nodeFound, inStep.stage'.counted.uses _ _ nodeFound',
    Dag.useCount_of_outline inStep.outline]

/-- Processors with the same undocumented instructions take the same operands. -/
theorem captures_eq (larger : first.Extends second) (undocOps : first.undocOps = second.undocOps)
    (inStep : InStep input position (id :: waiting) dag dag') (inputCounted : input.Counted)
    (finds : (first.target.cover dag id op).Finds (pattern, captures))
    (finds' : (second.target.cover dag' id op).Finds (found, captures')) :
    captures' = captures := by
  have cases := larger.captures_cases
    (fun pattern listed _ => larger.addressTypes ▸ inStep.matchNode_eq inputCounted listed)
    finds finds'
  rcases cases with same | ⟨undocumented, lacking⟩
  · exact same
  · obtain ⟨_, _, guarded, _⟩ := Target.cover_finds finds'
    rw [undocumented] at guarded
    cases (undocOps.symm.trans lacking).symm.trans guarded

variable {before after before' after' : Run}

/-- The second processor is not stuck at a node that the first one gets past. -/
theorem unstuck (larger : first.Extends second) (undocOps : first.undocOps = second.undocOps)
    (inputCounted : input.Counted)
    (untouched : ∀ id node, input.node? id = some node → node.state = .unvisited)
    (inStep : InStep input position (id :: waiting) before.dag dag')
    (visit : first.target.Visit id before after) :
    (∀ node op, ¬ second.target.Refuses id dag' node op) ∧
      ∀ cause, ¬ second.target.Breaks id dag' cause := by
  obtain ⟨node, there, _⟩ := inStep.stage.exists_found List.mem_cons_self
  obtain ⟨node', there', outlined⟩ := Dag.exists_of_outline inStep.outline there
  apply larger.unstuck visit there
    (inStep.stage.unvisited untouched List.mem_cons_self there) inStep.stage'.counted
    inStep.stage'.advances.full there'
  · exact fun op => Node.generic_of_outline outlined.symm
  · exact (Dag.pointed_of_outline inStep.outline).mpr
  · exact fun pattern listed _ => larger.addressTypes ▸ inStep.matchNode_eq inputCounted listed
  · intro op pattern captures found captures' finds finds' made
    rw [inStep.captures_eq larger undocOps inputCounted finds finds']
    exact made

/-- A turn of the same node on both processors changes the two graphs alike. -/
theorem outline_visit (larger : first.Extends second) (undocOps : first.undocOps = second.undocOps)
    (inputCounted : input.Counted)
    (untouched : ∀ id node, input.node? id = some node → node.state = .unvisited)
    (inStep : InStep input position (id :: waiting) before.dag before'.dag)
    (visit : first.target.Visit id before after) (visit' : second.target.Visit id before' after') :
    after.dag.outline = after'.dag.outline := by
  obtain ⟨node, there, _⟩ := inStep.stage.exists_found List.mem_cons_self
  obtain ⟨node', there', outlined⟩ := Dag.exists_of_outline inStep.outline there
  have unvisited := inStep.stage.unvisited untouched List.mem_cons_self there
  have unvisited' := inStep.stage'.unvisited untouched List.mem_cons_self there'
  have pointed : before.dag.Pointed id ↔ before'.dag.Pointed id :=
    Dag.pointed_of_outline inStep.outline
  cases opcode : node.opcode with
  | machine op =>
      cases opcode' : node'.opcode with
      | generic op' => cases opcode.symm.trans (Node.generic_of_outline outlined.symm opcode')
      | machine op' =>
          rw [Dag.outline_of_finished (visit.of_machine there unvisited opcode).1,
            Dag.outline_of_finished (visit'.of_machine there' unvisited' opcode').1,
            inStep.outline]
  | generic op =>
      have alternatives := visit.of_generic there unvisited opcode
      have alternatives' := visit'.of_generic there' unvisited'
        (Node.generic_of_outline outlined opcode)
      rw [pointed] at alternatives
      by_cases used' : before'.dag.Pointed id
      · simp only [used', not_true_eq_false, false_and, true_and, false_or]
          at alternatives alternatives'
        rcases alternatives with
          ⟨needsNone, shape, _⟩ | ⟨needs, pattern, own, rest, finds, _, _, shape, _⟩
        · rcases alternatives' with ⟨_, shape', _⟩ | ⟨needs, _⟩
          · rw [Dag.outline_of_finished shape, Dag.outline_of_finished shape', inStep.outline]
          · cases needs.symm.trans needsNone
        · rcases alternatives' with
            ⟨needsNone, _⟩ | ⟨_, pattern', own', rest', finds', _, _, shape', _⟩
          · cases needs.symm.trans needsNone
          · rw [Dag.outline_of_morphed shape, Dag.outline_of_morphed shape', inStep.outline,
              inStep.captures_eq larger undocOps inputCounted finds finds',
              Dag.size_of_outline inStep.outline]
      · simp only [used', not_false_eq_true, false_and, true_and, or_false]
          at alternatives alternatives'
        rw [Dag.outline_of_discarded alternatives.1, Dag.outline_of_discarded alternatives'.1,
          inStep.outline]

/-- Both processors stay in step. -/
theorem visit (larger : first.Extends second) (undocOps : first.undocOps = second.undocOps)
    (inputCounted : input.Counted)
    (untouched : ∀ id node, input.node? id = some node → node.state = .unvisited)
    (inStep : InStep input position (id :: waiting) before.dag before'.dag)
    (visit : first.target.Visit id before after) (counted : after.dag.Counted)
    (visit' : second.target.Visit id before' after') (counted' : after'.dag.Counted) :
    InStep input position waiting after.dag after'.dag where
  stage := inStep.stage.visit (target_folds first) untouched visit counted
  stage' := inStep.stage'.visit (target_folds second) untouched visit' counted'
  outline := inStep.outline_visit larger undocOps inputCounted untouched visit visit'

end InStep

/-! ### Taking shifts in -/

/-- The undocumented instruction takes its operand from the shift that it takes in. -/
theorem exists_shift {pattern : Pattern Processor} {dag : Dag} {types : AddressTypes} {id : NodeId}
    {node : Node} {own rest : List Capture} (listed : pattern ∈ patterns)
    (undocumented : pattern.guard = hasUndocOps)
    (covers : pattern.Covers dag types id node own rest) :
    ∃ operand operands value, node.operands = operand :: operands ∧
      dag.Shifts operand.node value.node ∧ own ++ rest = [.value value] := by
  obtain ⟨root, matchers⟩ := matchers_of_undocumented pattern listed (by rw [undocumented])
  have noOwn : own = [] := by simpa [root] using covers.root
  have length := covers.length
  have matched := covers.operands
  rw [matchers] at length matched
  obtain ⟨operand, last, operands⟩ := List.length_eq_two.mp length
  rw [operands, matchesAll_pair_iff] at matched
  obtain ⟨taken, nothing, operandMatches, lastMatches, rfl⟩ := matched
  cases lastMatches
  cases operandMatches with
  | @node _ shift _ _ _ shiftFound absorbed shiftMatches =>
      simp only [Matcher.absorbs, Bool.and_eq_true, beq_iff_eq] at absorbed
      obtain ⟨⟨⟨⟨_, opcode⟩, _⟩, _⟩, shiftLength⟩ := absorbed
      obtain ⟨value, count, shiftOperands⟩ := List.length_eq_two.mp shiftLength
      rw [shiftOperands, matchesAll_pair_iff] at shiftMatches
      obtain ⟨kept, nothing', valueMatches, countMatches, rfl⟩ := shiftMatches
      cases countMatches
      cases valueMatches
      exact ⟨operand, [last], value, operands,
        ⟨shift, value, [count], shiftFound, opcode, shiftOperands, rfl⟩, by rw [noOwn]; rfl⟩

/-- Two graphs on the way from one input, the second on a processor with the undocumented
instructions. What is dead in the first graph is dead in the second, and a user in the second graph
uses the same in the first, or a shift of it there. A shift that is not dead in the first graph is
still one there. -/
structure Overtakes (input : Dag) (position : NodeId → Nat) (waiting : List NodeId)
    (dag dag' : Dag) : Prop where
  stage : Stage input position waiting dag
  stage' : Stage input position waiting dag'
  dead : ∀ id < input.size, id ∉ waiting → dag.Dead id → dag'.Dead id
  users : ∀ user id, user ∉ waiting → id < input.size → dag'.Depends user id →
    dag.Depends user id ∨ ∃ shift, dag.Depends user shift ∧ input.Shifts shift id
  shifts : ∀ shift id, shift ∉ waiting → input.Shifts shift id →
    dag.Dead shift ∨ dag.Depends shift id

namespace Overtakes

variable {input dag dag' : Dag} {position : NodeId → Nat} {waiting : List NodeId} {id : NodeId}

/-- Before the first turn there is one graph only. -/
theorem start {order : List NodeId} (isOrder : input.IsDependencyOrder order)
    (stage : Stage input position order.reverse input) :
    Overtakes input position order.reverse input input where
  stage := stage
  stage' := stage
  dead _ _ _ isDead := isDead
  users _ _ _ _ edge := Or.inl edge
  shifts shift _ visited shifts := by
    obtain ⟨_, _, _, found, _⟩ := shifts
    exact absurd (List.mem_reverse.mpr (isOrder.mem (Dag.lt_size_of_node? found))) visited

/-- If something points at the node whose turn it is in the second graph, something does in the
first. -/
theorem pointed (overtakes : Overtakes input position (id :: waiting) dag dag')
    (pointed' : dag'.Pointed id) : dag.Pointed id := by
  rcases pointed' with ⟨user, edge'⟩ | isRoot
  · have inside := overtakes.stage.inside id List.mem_cons_self
    rcases overtakes.users user id (overtakes.stage'.not_mem_of_depends edge') inside edge' with
      edge | ⟨shift, edge, shifts⟩
    · exact Or.inl ⟨user, edge⟩
    · have visited := overtakes.stage.not_mem_of_shifts shifts
      rcases overtakes.shifts shift id visited shifts with ⟨node, found, isDead⟩ | shiftEdge
      · -- A dead shift has no user.
        have unused :=
          (overtakes.stage.advances.settled.dead shift _ (Dag.shape_found found) isDead).2
        exact absurd (Or.inl ⟨user, edge⟩) unused
      · exact Or.inl ⟨shift, shiftEdge⟩
  · apply Or.inr
    rw [Dag.isRoot, overtakes.stage'.root, ← overtakes.stage.root] at isRoot
    exact isRoot

/-- One turn of the same node in both graphs. -/
theorem turn {after after' : Dag} {node node' changed changed' : Node} {leaves leaves' : List Node}
    (overtakes : Overtakes input position (id :: waiting) dag dag')
    (turn : Turn dag after id node changed leaves)
    (turn' : Turn dag' after' id node' changed' leaves')
    (stage : Stage input position waiting after) (stage' : Stage input position waiting after')
    (dead : changed.state = .dead → changed'.state = .dead)
    (users : ∀ value ∈ changed'.operands, value.node < input.size →
      (∃ other ∈ changed.operands, other.node = value.node) ∨
        ∃ other ∈ changed.operands, input.Shifts other.node value.node)
    (shifts : ∀ other, input.Shifts id other →
      changed.state = .dead ∨ ∃ value ∈ changed.operands, value.node = other) :
    Overtakes input position waiting after after' where
  stage := stage
  stage' := stage'
  dead other inside visited isDead := by
    by_cases same : other = id
    · subst same
      exact turn'.dead_self_iff.mpr (dead (turn.dead_self_iff.mp isDead))
    · rw [turn.dead_other_iff same (overtakes.stage.advances.lt_size inside)] at isDead
      rw [turn'.dead_other_iff same (overtakes.stage'.advances.lt_size inside)]
      exact overtakes.dead other inside (by simp [same, visited]) isDead
  users user other visited inside edge' := by
    rcases turn'.depends_cases edge' with ⟨rfl, value, member, rfl⟩ | ⟨different, edge'⟩
    · rcases users value member inside with ⟨operand, listed, named⟩ | ⟨operand, listed, shifts⟩
      · exact Or.inl (named ▸ turn.depends_self listed)
      · exact Or.inr ⟨operand.node, turn.depends_self listed, shifts⟩
    · have visited' : user ∉ id :: waiting := by simp [different, visited]
      rcases overtakes.users user other visited' inside edge' with edge | ⟨shift, edge, shifts⟩
      · exact Or.inl (turn.depends_other different edge)
      · exact Or.inr ⟨shift, turn.depends_other different edge, shifts⟩
  shifts shift other visited isShift := by
    by_cases same : shift = id
    · subst same
      rcases shifts other isShift with isDead | ⟨value, member, rfl⟩
      · exact Or.inl (turn.dead_self_iff.mpr isDead)
      · exact Or.inr (turn.depends_self member)
    · have inside : shift < dag.size := by
        obtain ⟨_, _, _, found, _⟩ := isShift
        exact overtakes.stage.advances.lt_size (Dag.lt_size_of_node? found)
      rcases overtakes.shifts shift other (by simp [same, visited]) isShift with isDead | edge
      · exact Or.inl ((turn.dead_other_iff same inside).mpr isDead)
      · exact Or.inr (turn.depends_other same edge)

section

variable {first second : Processor} {op : GenericOp} {pattern found : Pattern Processor}
  {captures captures' : List Capture}

/-- A processor without the undocumented instructions never looks at use counts. -/
theorem matchNode_eq (lacking : first.undocOps = false)
    (overtakes : Overtakes input position (id :: waiting) dag dag') (inputCounted : input.Counted)
    {types : AddressTypes} (listed : pattern ∈ patterns)
    (guarded : pattern.guard.holds first = true) :
    pattern.matchNode dag types id = pattern.matchNode dag' types id := by
  apply Pattern.matchNode_eq (overtakes.stage.alike_both overtakes.stage' inputCounted)
    List.mem_cons_self (isFlat_of_mem pattern listed)
  intro op operands takesIn
  obtain ⟨_, _, named⟩ := of_takesIn pattern listed op operands takesIn
  rw [guard_eq_of_name listed (by simp [guards]) named] at guarded
  cases lacking.symm.trans guarded

/-- The first processor keeps the first operand of a shift, and of what can take a shift in. -/
theorem exists_value {types : AddressTypes} {node : Node} {own rest : List Capture}
    (lacking : first.undocOps = false) (listed : pattern ∈ patterns)
    (guarded : pattern.guard.holds first = true) (isShift : pattern.op = .or ∨ pattern.op = .shl)
    (covers : pattern.Covers dag types id node own rest) :
    ∃ value values, node.operands = value :: values ∧ Capture.value value ∈ own ++ rest := by
  have documented : pattern.guard.name ≠ hasUndocOps.name := by
    intro named
    rw [guard_eq_of_name listed (by simp [guards]) named] at guarded
    cases lacking.symm.trans guarded
  obtain ⟨matchers, operands⟩ := matchers_of_shift pattern listed isShift documented
  exact covers.exists_value operands

/-- The second processor takes the operands of the first, or a value whose shift the first one
takes. -/
theorem captures_cases (larger : first.Extends second) (lacking : first.undocOps = false)
    (overtakes : Overtakes input position (id :: waiting) dag dag') (inputCounted : input.Counted)
    (finds : (first.target.cover dag id op).Finds (pattern, captures))
    (finds' : (second.target.cover dag' id op).Finds (found, captures')) :
    captures' = captures ∨ ∃ operand value, captures' = [.value value] ∧
      Capture.value operand ∈ captures ∧ input.Shifts operand.node value.node := by
  have cases := larger.captures_cases
    (fun pattern listed guarded =>
      larger.addressTypes ▸ overtakes.matchNode_eq lacking inputCounted listed guarded)
    finds finds'
  rcases cases with same | ⟨undocumented, _⟩
  · exact Or.inl same
  obtain ⟨listed, sameOp, guarded, matched⟩ := Target.cover_finds finds
  obtain ⟨listed', sameOp', _, matched'⟩ := Target.cover_finds finds'
  obtain ⟨node, own, rest, covers, rfl⟩ := Pattern.covers_of_finds matched
  obtain ⟨node', own', rest', covers', rfl⟩ := Pattern.covers_of_finds matched'
  obtain ⟨operand', operands', value, listing', shifts, taken⟩ :=
    exists_shift listed' undocumented covers'
  have isOr : pattern.op = .or :=
    (sameOp.trans sameOp'.symm).trans ((op_of_guard found listed').2.2 (by rw [undocumented]))
  obtain ⟨operand, operands, listing, captured⟩ :=
    exists_value lacking listed guarded (Or.inl isOr) covers
  -- The node is the same in both graphs, and so is its first operand, which waits.
  have inBoth : dag.operandsOf id = dag'.operandsOf id := by
    rw [overtakes.stage.operandsOf_eq List.mem_cons_self,
      overtakes.stage'.operandsOf_eq List.mem_cons_self]
  have same : operand = operand' := by
    simp only [Dag.operandsOf, covers.found, covers'.found, listing, listing'] at inBoth
    exact (List.cons.inj inBoth).1
  subst same
  have edge : dag'.Depends id operand.node :=
    Dag.depends_of_mem covers'.found (by simp [listing'])
  have waits : operand.node ∈ id :: waiting := by
    apply overtakes.stage'.mem_of_depends List.mem_cons_self edge
    apply (inputCounted.operands id operand _).lt_size
    rw [← overtakes.stage'.operandsOf_eq List.mem_cons_self]
    exact Dag.mem_operandsOf.mpr ⟨node', covers'.found, by simp [listing']⟩
  exact Or.inr ⟨operand, value, taken, captured, (overtakes.stage'.shifts_iff waits).mp shifts⟩

end

variable {first second : Processor} {before after before' after' : Run}

/-- The second processor is not stuck at a node that the first one gets past. -/
theorem unstuck (larger : first.Extends second) (lacking : first.undocOps = false)
    (inputCounted : input.Counted)
    (untouched : ∀ id node, input.node? id = some node → node.state = .unvisited)
    (overtakes : Overtakes input position (id :: waiting) before.dag dag')
    (visit : first.target.Visit id before after) :
    (∀ node op, ¬ second.target.Refuses id dag' node op) ∧
      ∀ cause, ¬ second.target.Breaks id dag' cause := by
  obtain ⟨node, uses, fetched, fetched'⟩ :=
    (overtakes.stage.alike_both overtakes.stage' inputCounted).exists_fetch List.mem_cons_self
  have there := Dag.fetch_eq_ok_iff.mp fetched
  apply larger.unstuck visit there
    (overtakes.stage.unvisited untouched List.mem_cons_self there) overtakes.stage'.counted
    overtakes.stage'.advances.full (Dag.fetch_eq_ok_iff.mp fetched')
  · exact fun _ generic => generic
  · exact overtakes.pointed
  · exact fun pattern listed guarded =>
      larger.addressTypes ▸ overtakes.matchNode_eq lacking inputCounted listed guarded
  · intro op pattern captures found captures' finds finds' made
    rcases overtakes.captures_cases larger lacking inputCounted finds finds' with
      same | ⟨_, value, taken, _⟩
    · rw [same]
      exact made
    · intro capture captured type constant
      rw [taken, List.mem_singleton] at captured
      rw [captured] at constant
      cases constant

/-- A shift of the input, read off the node in the first graph. -/
theorem shift_of_shifts {node : Node} {other : NodeId}
    (overtakes : Overtakes input position (id :: waiting) dag dag')
    (there : dag.node? id = some node) (shifts : input.Shifts id other) :
    node.opcode = .generic .shl ∧
      ∃ value values, node.operands = value :: values ∧ value.node = other := by
  obtain ⟨_, value, values, found, opcode, operands, named⟩ :=
    (overtakes.stage.shifts_iff List.mem_cons_self).mpr shifts
  cases found.symm.trans there
  exact ⟨opcode, value, values, operands, named⟩

section Turns

variable {node : Node} {uses : Nat}
  (overtakes : Overtakes input position (id :: waiting) before.dag before'.dag)
  (unvisited : node.state = .unvisited) (stage : Stage input position waiting after.dag)
  (stage' : Stage input position waiting after'.dag)
include overtakes unvisited stage stage'

/-- The node is final as it is, on both processors. -/
theorem finished (there : before.dag.node? id = some node)
    (there' : before'.dag.node? id = some { node with uses := uses })
    (final : node.opcode.isFinal = true)
    (used : before.dag.Pointed id ∨ node.opcode.isMachine = true)
    (used' : before'.dag.Pointed id ∨ node.opcode.isMachine = true)
    (shape : after.dag.shape = before.dag.shape.update id Node.finished)
    (shape' : after'.dag.shape = before'.dag.shape.update id Node.finished) :
    Overtakes input position waiting after.dag after'.dag := by
  apply overtakes.turn (.finished there unvisited final used shape)
    (.finished there' unvisited final used' shape') stage stage'
  · exact fun isDead => isDead
  · exact fun value member _ => Or.inl ⟨value, member, rfl⟩
  · intro other shifts
    rw [(overtakes.shift_of_shifts there shifts).1] at final
    cases final

/-- The node dies on the second processor. -/
theorem discarded {changed : Node} {leaves : List Node}
    (there' : before'.dag.node? id = some { node with uses := uses })
    (turn : Turn before.dag after.dag id node changed leaves)
    (keepsShift : ∀ other, input.Shifts id other →
      changed.state = .dead ∨ ∃ value ∈ changed.operands, value.node = other)
    (unused' : ¬ before'.dag.Pointed id)
    (shape' : after'.dag.shape = before'.dag.shape.update id Node.discarded) :
    Overtakes input position waiting after.dag after'.dag := by
  apply overtakes.turn turn (.discarded there' unvisited unused' shape') stage stage'
  · exact fun _ => rfl
  · intro value member
    cases member
  · exact keepsShift

/-- The node becomes an instruction on both processors. -/
theorem covered {changed : Node} {leaves : List Node} {pattern pattern' : Pattern Processor}
    {op : GenericOp} {captures own' rest' : List Capture} (larger : first.Extends second)
    (lacking : first.undocOps = false) (inputCounted : input.Counted)
    (turn : Turn before.dag after.dag id node changed leaves)
    (operands : changed.operands = Capture.place before.dag.size captures)
    (selected : changed.state ≠ .dead)
    (keepsShift : ∀ other, input.Shifts id other →
      changed.state = .dead ∨ ∃ value ∈ changed.operands, value.node = other)
    (used' : before'.dag.Pointed id)
    (finds : (first.target.cover before.dag id op).Finds (pattern, captures))
    (finds' : (second.target.cover before'.dag id op).Finds (pattern', own' ++ rest'))
    (covers' : pattern'.Covers before'.dag second.target.addressTypes id
      { node with uses := uses } own' rest')
    (shape' : after'.dag.shape =
      (before'.dag.shape.extend (Capture.leaves (own' ++ rest'))).update id
        (Node.morphed pattern'.emit (Capture.place before'.dag.size (own' ++ rest')))) :
    Overtakes input position waiting after.dag after'.dag := by
  apply overtakes.turn turn (.covered covers' unvisited used' shape') stage stage'
  · exact fun isDead => absurd isDead selected
  · intro value member inside
    rw [operands]
    have grown := overtakes.stage'.tended.grown
    rcases Capture.mem_place_cases member with captured | ⟨behind, _⟩
    · rcases overtakes.captures_cases larger lacking inputCounted finds finds' with
        same | ⟨operand, source, taken, kept, shifts⟩
      · rw [same] at captured
        exact Or.inl ⟨value, Capture.mem_place_of_value captured, rfl⟩
      · rw [taken, List.mem_singleton] at captured
        cases captured
        exact Or.inr ⟨operand, Capture.mem_place_of_value kept, shifts⟩
    · exact absurd (Nat.le_trans grown behind) (Nat.not_le.mpr inside)
  · exact keepsShift

end Turns

/-- The second processor stays ahead. -/
theorem visit (larger : first.Extends second) (lacking : first.undocOps = false)
    (inputCounted : input.Counted)
    (untouched : ∀ id node, input.node? id = some node → node.state = .unvisited)
    (overtakes : Overtakes input position (id :: waiting) before.dag before'.dag)
    (visit : first.target.Visit id before after) (counted : after.dag.Counted)
    (visit' : second.target.Visit id before' after') (counted' : after'.dag.Counted) :
    Overtakes input position waiting after.dag after'.dag := by
  have stage := overtakes.stage.visit (target_folds first) untouched visit counted
  have stage' := overtakes.stage'.visit (target_folds second) untouched visit' counted'
  obtain ⟨node, uses, fetched, fetched'⟩ :=
    (overtakes.stage.alike_both overtakes.stage' inputCounted).exists_fetch List.mem_cons_self
  have there := Dag.fetch_eq_ok_iff.mp fetched
  have there' := Dag.fetch_eq_ok_iff.mp fetched'
  have unvisited := overtakes.stage.unvisited untouched List.mem_cons_self there
  cases opcode : node.opcode with
  | machine op =>
      have machine : node.opcode.isMachine = true := by rw [opcode]; rfl
      exact overtakes.finished unvisited stage stage' there there' (by rw [opcode]; rfl)
        (Or.inr machine) (Or.inr machine) (visit.of_machine there unvisited opcode).1
        (visit'.of_machine there' unvisited opcode).1
  | generic op =>
      have alternatives' := visit'.of_generic there' unvisited opcode
      rcases visit.of_generic there unvisited opcode with
        ⟨unused, shape, _⟩ | ⟨used, needsNone, shape, _⟩ |
          ⟨used, needs, pattern, own, rest, finds, covers, _, shape, _⟩
      · -- What nothing points at in the first graph, nothing points at in the second.
        have unused' : ¬ before'.dag.Pointed id := fun used' => unused (overtakes.pointed used')
        rcases alternatives' with ⟨_, shape', _⟩ | ⟨used', _⟩ | ⟨used', _⟩
        · exact overtakes.discarded unvisited stage stage' there'
            (.discarded there unvisited unused shape) (fun _ _ => Or.inl rfl) unused' shape'
        · exact absurd used' unused'
        · exact absurd used' unused'
      · have final : node.opcode.isFinal = true := by rw [opcode]; exact needsNone
        rcases alternatives' with ⟨unused', shape', _⟩ | ⟨used', _, shape', _⟩ | ⟨_, needs, _⟩
        · apply overtakes.discarded unvisited stage stage' there'
            (.finished there unvisited final (Or.inl used) shape) _ unused' shape'
          intro other shifts
          rw [(overtakes.shift_of_shifts there shifts).1] at final
          cases final
        · exact overtakes.finished unvisited stage stage' there there' final (Or.inl used)
            (Or.inl used') shape shape'
        · cases needs.symm.trans needsNone
      · have turn := Turn.covered covers unvisited used shape
        have keepsShift : ∀ other, input.Shifts id other →
            ∃ value ∈ Capture.place before.dag.size (own ++ rest), value.node = other := by
          intro other shifts
          obtain ⟨isShl, value, values, operands, named⟩ :=
            overtakes.shift_of_shifts there shifts
          cases isShl.symm.trans opcode
          obtain ⟨listed, sameOp, guarded, _⟩ := Target.cover_finds finds
          obtain ⟨operand, others, operands', captured⟩ :=
            exists_value lacking listed guarded (Or.inr sameOp) covers
          cases operands.symm.trans operands'
          exact ⟨value, Capture.mem_place_of_value captured, named⟩
        rcases alternatives' with ⟨unused', shape', _⟩ | ⟨_, needsNone, _⟩ |
          ⟨used', _, pattern', own', rest', finds', covers', _, shape', _⟩
        · exact overtakes.discarded unvisited stage stage' there' turn
            (fun other shifts => Or.inr (keepsShift other shifts)) unused' shape'
        · cases needs.symm.trans needsNone
        · exact overtakes.covered unvisited stage stage' larger lacking inputCounted turn rfl
            (by simp [Node.morphed]) (fun other shifts => Or.inr (keepsShift other shifts)) used'
            finds finds' covers' shape'

end Overtakes

/-! ### Both cases together -/

/-- More instruction sets never break selection. If a processor selects a graph that was read, in
the order of its lines, then every processor with pointers of the same width and at least its
instruction sets selects the graph as well, and every node of the graph that dies on the first one
dies on the second. -/
theorem selects_of_extends {first second : Processor} (larger : first.Extends second)
    {text : String} {context context' : TypeContext} {graph : LabelledDag}
    (read : (readDag machineOp? text).run context = .ok graph context')
    {name : String} {session : Session} {log : List LogRecord} {after : Run}
    (selects : (first.target.selectFunction name graph.order).run ⟨graph.dag, session, log⟩ =
      .ok () after)
    (name' : String) (session' : Session) (log' : List LogRecord) :
    ∃ after', (second.target.selectFunction name' graph.order).run ⟨graph.dag, session', log'⟩ =
        .ok () after' ∧
      ∀ id < graph.dag.size, after.dag.Dead id → after'.dag.Dead id := by
  obtain ⟨drafted, _⟩ := readDag_drafted read
  have isOrder := drafted.isDependencyOrder
  have start := Stage.start drafted.counted drafted.full drafted.unvisited isOrder
  have lists : ∀ id, id ∈ graph.order ↔ id < graph.dag.size := fun id =>
    ⟨isOrder.lt_size, isOrder.mem⟩
  by_cases undocOps : first.undocOps = second.undocOps
  · obtain ⟨after', selects', inStep⟩ := Target.exists_ok_of_simulation
      (InStep graph.dag graph.order.idxOf) selects ⟨graph.dag, session', log'⟩ name'
      drafted.counted rfl lists ⟨start, start, rfl⟩
      (fun inStep => inStep.visit larger undocOps drafted.counted drafted.unvisited)
      (fun inStep => inStep.unstuck larger undocOps drafted.counted drafted.unvisited)
    refine ⟨after', selects', fun id _ isDead => ?_⟩
    obtain ⟨node, found, state⟩ := isDead
    obtain ⟨other, otherFound, outlined⟩ := Dag.exists_of_outline inStep.outline found
    have sameState : other.outline.state = node.outline.state := congrArg Node.state outlined
    exact ⟨other, otherFound, sameState.trans state⟩
  · have lacking : first.undocOps = false := by
      rw [← Bool.not_eq_true]
      exact fun has => undocOps (has.trans (larger.undocOps has).symm)
    obtain ⟨after', selects', overtakes⟩ := Target.exists_ok_of_simulation
      (Overtakes graph.dag graph.order.idxOf) selects ⟨graph.dag, session', log'⟩ name'
      drafted.counted rfl lists (.start isOrder start)
      (fun overtakes => overtakes.visit larger lacking drafted.counted drafted.unvisited)
      (fun overtakes => overtakes.unstuck larger lacking drafted.counted drafted.unvisited)
    exact ⟨after', selects', fun id inside => overtakes.dead id inside List.not_mem_nil⟩

/-- The plain processor keeps the shift, and drops the constant that both instructions imply. -/
theorem selects_shiftInOneGraph_plain :
    Ends
      (fun _ run => (run.dag.node? 3).map Node.state = some .dead ∧
        (run.dag.node? 4).map Node.state = some .selected)
      (fun _ _ => False)
      ((Processor.plain.target.selectFunction "shift" shiftInOneGraph.order).run
        { dag := shiftInOneGraph.dag }) := by
  decide +kernel

/-- The plain processor selects the graph, so the one with the undocumented instructions does. The
constant dies on both, and the shift on the second one only. -/
theorem selects_shiftInOneGraph_extended :
    Processor.plain.Extends Processor.undocumented ∧
    ∃ after after',
      (Processor.plain.target.selectFunction "shift" shiftInOneGraph.order).run
        { dag := shiftInOneGraph.dag } = .ok () after ∧
      (Processor.undocumented.target.selectFunction "shift" shiftInOneGraph.order).run
        { dag := shiftInOneGraph.dag } = .ok () after' ∧
      after.dag.Dead 3 ∧ after'.dag.Dead 3 ∧ ¬ after.dag.Dead 4 ∧ after'.dag.Dead 4 := by
  have larger : Processor.plain.Extends Processor.undocumented := by
    constructor <;> decide
  obtain ⟨_, after, selects, constantDies, shiftStays⟩ := selects_shiftInOneGraph_plain.exists_ok
  obtain ⟨_, final, selectsFinal, _, shiftDies⟩ := selects_shiftInOneGraph.exists_ok
  have isDead : after.dag.Dead 3 := Option.map_eq_some_iff.mp constantDies
  obtain ⟨after', selects', dead⟩ :=
    selects_of_extends larger readDag_shiftInOneText selects "shift" {} []
  cases selectsFinal.symm.trans selects'
  refine ⟨larger, after, final, selects, selects', isDead, dead 3 (by decide) isDead, ?_,
    Option.map_eq_some_iff.mp shiftDies⟩
  rintro ⟨node, found, state⟩
  rw [found, Option.map_some, state] at shiftStays
  cases shiftStays

end Z80

end DagSelect
