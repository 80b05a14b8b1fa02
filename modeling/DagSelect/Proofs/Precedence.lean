/-
Module: DagSelect.Proofs.Precedence
Purpose: The pattern that covers a node is the best one that can. A table tries the patterns for an
  opcode in order of precedence, so the first that the processor has and that matches goes before all
  others of the table that the processor has and that match. A node that has become an instruction
  at its turn was covered by that pattern.
Main exports: Target.Best, Target.best_of_cover, Target.best_of_selectNode, committed_pattern_best
-/
import DagSelect.Proofs.Reached
import DagSelect.Proofs.Step

namespace DagSelect

variable {Features : Type}

/-- The pattern at a place of the table is the best one for a node: the processor has it, it matches,
and it goes before every other one that the processor has and that matches. -/
structure Target.Best (target : Target Features) (dag : Dag) (id : NodeId) (position : Nat)
    (pattern : Pattern Features) (captures : List Capture) : Prop where
  listed : target.table.patterns[position]? = some pattern
  guarded : pattern.guard.holds target.features = true
  matched : (pattern.matchNode dag target.addressTypes id).Finds captures
  precedes : ∀ place other found, target.table.patterns[place]? = some other →
    other.guard.holds target.features = true →
    (other.matchNode dag target.addressTypes id).Finds found → place ≠ position →
    PatternTable.Precedes (pattern, position) (other, place)

namespace Target

variable {target : Target Features} {dag : Dag} {id : NodeId} {pattern other : Pattern Features}
  {captures : List Capture}

/-- Patterns that match the same node are for the same opcode. -/
theorem op_eq_of_finds {types : AddressTypes} {found : List Capture}
    (matched : (pattern.matchNode dag types id).Finds captures)
    (otherMatched : (other.matchNode dag types id).Finds found) : other.op = pattern.op := by
  obtain ⟨node, _, _, covers, _⟩ := Pattern.covers_of_finds matched
  obtain ⟨otherNode, _, _, otherCovers, _⟩ := Pattern.covers_of_finds otherMatched
  cases covers.found.symm.trans otherCovers.found
  exact Opcode.generic.inj (otherCovers.opcode.symm.trans covers.opcode)

/-- The search of the table finds the best pattern. -/
theorem best_of_cover {op : GenericOp} (finds : (target.cover dag id op).Finds (pattern, captures)) :
    ∃ position, target.Best dag id position pattern captures := by
  obtain ⟨guarded, matched, front, back, split, failed⟩ := firstMatch_finds finds
  obtain ⟨_, rfl, _⟩ := cover_finds finds
  obtain ⟨tried, rest, ranked, rfl, restSplit⟩ := List.map_eq_append_iff.mp split
  obtain ⟨⟨pattern, position⟩, untried, rfl, rfl, rfl⟩ := List.map_eq_cons_iff.mp restSplit
  have own : (pattern, position) ∈ target.table.ranked pattern.op := by
    rw [ranked]
    exact List.mem_append_right _ List.mem_cons_self
  have sorted := target.table.ranked_pairwise pattern.op
  rw [ranked] at sorted
  obtain ⟨_, sorted, _⟩ := List.pairwise_append.mp sorted
  refine ⟨position, (PatternTable.mem_ranked_iff.mp own).1, guarded, matched, ?_⟩
  intro place other found listed otherGuarded otherMatched elsewhere
  have entry : (other, place) ∈ target.table.ranked pattern.op :=
    PatternTable.mem_ranked_iff.mpr ⟨listed, op_eq_of_finds matched otherMatched⟩
  rw [ranked] at entry
  rcases List.mem_append.mp entry with before | after
  · have earlier := List.mem_map_of_mem (f := Prod.fst) before
    exact absurd otherMatched (failed other earlier otherGuarded found)
  · rcases List.mem_cons.mp after with same | later
    · exact absurd (congrArg Prod.snd same) elsewhere
    · exact (List.pairwise_cons.mp sorted).1 (other, place) later

/-- A node that was generic before its turn and is an instruction after it was covered by the best
pattern, whose use is recorded. -/
theorem best_of_selectNode {run after : Run} {node changed : Node} {op : GenericOp}
    {instruction : MachineOp} (selects : (target.selectNode id).run run = .ok () after)
    (found : run.dag.node? id = some node) (generic : node.opcode = .generic op)
    (there : after.dag.node? id = some changed) (machine : changed.opcode = .machine instruction) :
    ∃ position pattern captures, target.Best run.dag id position pattern captures ∧
      pattern.emit = instruction ∧ changed.operands = Capture.place run.dag.size captures ∧
      after.session = run.session.recordPattern pattern.name := by
  cases (target.selectNode_steps id run).of_ok selects with
  | kept _ _ same _ =>
      rw [same, found] at there
      cases there
      cases generic.symm.trans machine
  | turned foundHere _ becomes shape session =>
      cases found.symm.trans foundHere
      have final := node?_of_turned found shape
      rw [Dag.shape_found there] at final
      have opcode := congrArg Node.opcode (Option.some.inj final)
      have operands := congrArg Node.operands (Option.some.inj final)
      rw [Node.shape_opcode, machine] at opcode
      cases becomes with
      | accepted already => cases generic.symm.trans already
      | discarded => cases opcode.trans generic
      | passed => cases opcode.trans generic
      | covered _ _ _ finds _ _ =>
          obtain ⟨position, best⟩ := best_of_cover finds
          exact ⟨position, _, _, best, (Opcode.machine.inj opcode).symm, operands, session⟩

end Target

/-- The committed pattern is the best applicable one. A list of patterns that can be ranked makes a
table. Its candidates for an opcode are exactly the patterns for that opcode, each once, those that
ask for more first and in the order of the list among equals. So if a generic node becomes an
instruction at its turn, it is by a pattern that the processor has and that matches, and every other
pattern of the list that the processor has and that matches asks for less, or for as much and stands
later. -/
theorem committed_pattern_best {patterns : List (Pattern Features)}
    (rankable : ∀ pattern ∈ patterns, pattern.Rankable) :
    ∃ table, PatternTable.build patterns = .ok table ∧ table.patterns = patterns ∧
      (∀ op,
        table.candidates op = (table.ranked op).map Prod.fst ∧
        (∀ pattern position, (pattern, position) ∈ table.ranked op ↔
          patterns[position]? = some pattern ∧ pattern.op = op) ∧
        (table.ranked op).Nodup ∧
        (table.ranked op).Pairwise PatternTable.Precedes) ∧
      ∀ (target : Target Features) (id : NodeId) (run after : Run) (node changed : Node)
        (op : GenericOp) (instruction : MachineOp), target.table = table →
        (target.selectNode id).run run = .ok () after →
        run.dag.node? id = some node → node.opcode = .generic op →
        after.dag.node? id = some changed → changed.opcode = .machine instruction →
        ∃ position pattern captures, target.Best run.dag id position pattern captures ∧
          pattern.emit = instruction ∧ changed.operands = Capture.place run.dag.size captures ∧
          after.session = run.session.recordPattern pattern.name := by
  refine ⟨⟨patterns, rankable⟩, dif_pos rankable, rfl, ?_, ?_⟩
  · intro op
    have sorted := PatternTable.ranked_pairwise ⟨patterns, rankable⟩ op
    exact ⟨rfl, fun _ _ => PatternTable.mem_ranked_iff, sorted.imp PatternTable.Precedes.ne, sorted⟩
  · intro target id run after node changed op instruction _ selects found generic there machine
    exact Target.best_of_selectNode selects found generic there machine

/-! ### A table with ties -/

/-- Instructions for sums. Two take a constant and ask for as much; one asks for more than those, but
needs a feature. -/
def sumPatterns : List (Pattern Bool) :=
  [{ name := "ADDrr", op := .add, emit := ⟨1, "ADDrr"⟩, operands := [.reg, .reg] },
   { name := "ADDri", op := .add, emit := ⟨2, "ADDri"⟩, operands := [.reg, .imm] },
   { name := "ADDfast", op := .add, emit := ⟨3, "ADDfast"⟩, guard := ⟨"fast", id⟩,
     operands := [.reg, .reg], addedComplexity := 5 },
   { name := "ADDrc", op := .add, emit := ⟨4, "ADDrc"⟩, operands := [.reg, .imm] }]

theorem rankable_sumPatterns : ∀ pattern ∈ sumPatterns, pattern.Rankable := by
  decide

/-- A processor without the feature. -/
def sumTarget : Target Bool where
  features := false
  table := ⟨sumPatterns, rankable_sumPatterns⟩
  addressTypes := ⟨.i16, .i16, .i8⟩
  isLegal _ := true
  asmOperand _ _ := (.ok [], [])

theorem selects_sum_doubledConstant :
    Ends (fun _ run => (run.dag.node? 2).map Node.opcode = some (.machine ⟨2, "ADDri"⟩))
      (fun _ _ => False) ((sumTarget.selectNode 2).run { dag := doubledConstant }) := by
  decide +kernel

/-- The candidates are tried from the one that needs the feature to the one that asks for least. The
sum becomes the first of the two instructions that ask for as much. -/
theorem best_doubledConstant :
    (sumTarget.table.candidates .add).map Pattern.name = ["ADDfast", "ADDri", "ADDrc", "ADDrr"] ∧
    ∃ after position pattern captures,
      (sumTarget.selectNode 2).run { dag := doubledConstant } = .ok () after ∧
      sumTarget.Best doubledConstant 2 position pattern captures ∧
      pattern.emit = ⟨2, "ADDri"⟩ ∧ after.session.stats.hits = [(pattern.name, 1)] := by
  obtain ⟨table, built, _, _, commits⟩ := committed_pattern_best rankable_sumPatterns
  have same : sumTarget.table = table :=
    Except.ok.inj ((dif_pos rankable_sumPatterns).symm.trans built)
  obtain ⟨_, after, selects, final⟩ := selects_sum_doubledConstant.exists_ok
  obtain ⟨changed, there, machine⟩ := Option.map_eq_some_iff.mp final
  obtain ⟨position, pattern, captures, best, emits, _, session⟩ :=
    commits sumTarget 2 _ after _ changed .add _ same selects rfl rfl there machine
  refine ⟨by decide +kernel, after, position, pattern, captures, selects, best, emits, ?_⟩
  rw [session]
  rfl

end DagSelect
