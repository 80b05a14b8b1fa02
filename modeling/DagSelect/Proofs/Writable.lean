/-
Module: DagSelect.Proofs.Writable
Purpose: Nodes that a line can say in full. The name of the opcode names it, the types have names that
  are read back, the payload can stand between brackets, and the result numbers of the operands are
  in range. Reading makes only such nodes, and selection keeps them so: the instruction of a pattern
  has a name, and a new leaf carries a constant or what a node of the graph carries.
Main exports: Opcode.Spelled, Node.Writable, Dag.Writable, LabelledDag.Drafted.writable,
  Target.Spells, Target.Visits.writable
-/
import DagSelect.Proofs.Payload
import DagSelect.Proofs.Visit

namespace DagSelect

variable {machine : String → Option MachineOp} {names : String → Prop}

/-- The name of the opcode is a word, and it is read as the opcode. -/
structure Opcode.Spelled (machine : String → Option MachineOp) (opcode : Opcode) : Prop where
  read : readOpcode machine opcode.name.toList = .ok opcode
  word : Text.Word opcode.name.toList
  nonempty : opcode.name.toList ≠ []

/-- A node that a line can say in full. The global symbol that it may carry has some property. -/
structure Node.Writable (machine : String → Option MachineOp) (names : String → Prop) (node : Node) :
    Prop where
  someResult : node.results ≠ []
  types : ∀ type ∈ node.results, type.Canonical
  opcode : node.opcode.Spelled machine
  payload : node.payload.Written node.results (writtenPayloadKind node.opcode)
  symbol : ∀ symbol offset, node.payload = .global symbol offset → names symbol
  numbered : ∀ value ∈ node.operands, value.result < twoPow 32

/-- A graph of such nodes. -/
def Dag.Writable (machine : String → Option MachineOp) (names : String → Prop) (dag : Dag) : Prop :=
  ∀ id node, dag.node? id = some node → node.Writable machine names

/-- The names of generic opcodes go before those of instructions. -/
theorem Opcode.spelled_generic (op : GenericOp) : (Opcode.generic op).Spelled machine := by
  have entries : ∀ op ∈ GenericOp.all, GenericOp.ofName? op.name = some op ∧
      Text.Word op.name.toList ∧ op.name.toList ≠ [] := by decide +kernel
  have listed : op ∈ GenericOp.all := by cases op <;> decide
  obtain ⟨named, word, nonempty⟩ := entries op listed
  refine ⟨?_, word, nonempty⟩
  simp only [readOpcode, Opcode.name, String.ofList_toList, named]

theorem GenericOp.word_name (op : GenericOp) : Text.Word op.name.toList := by
  have spelled : (Opcode.generic op).Spelled fun _ => none := Opcode.spelled_generic op
  exact spelled.word

theorem Opcode.Spelled.not_endsOpcode {opcode : Opcode} (spelled : opcode.Spelled machine) :
    ∀ c ∈ opcode.name.toList, (!endsOpcode c) = true := by
  intro c member
  have plain := spelled.word c member
  have noBracket : c ≠ '<' := by
    rintro rfl
    cases plain
  simp [endsOpcode, noBracket, Text.isBlank_of_isAlphanum plain]

/-- If the instructions that can be read have names, so do all opcodes that can be read. -/
theorem Opcode.spelled_of_readOpcode {text : List Char} {opcode : Opcode}
    (spelled : ∀ name op, machine name = some op → (Opcode.machine op).Spelled machine)
    (read : readOpcode machine text = .ok opcode) : opcode.Spelled machine := by
  unfold readOpcode at read
  dsimp only at read
  split at read
  · cases read
    exact spelled_generic _
  · split at read
    · rename_i named
      cases read
      exact spelled _ _ named
    · cases read

/-- What was read can be written. -/
theorem LabelledDag.Drafted.writable {graph : LabelledDag} (drafted : graph.Drafted machine)
    (spelled : ∀ name op, machine name = some op → (Opcode.machine op).Spelled machine)
    (symbols : ∀ id node, graph.dag.node? id = some node →
      ∀ symbol offset, node.payload = .global symbol offset → names symbol) :
    graph.dag.Writable machine names := by
  intro id node found
  have asRead := drafted.nodes id node found
  obtain ⟨text, read⟩ := asRead.opcode
  refine ⟨asRead.someResult, ?_, Opcode.spelled_of_readOpcode spelled read, asRead.written,
    symbols id node found, asRead.numbered⟩
  intro type member
  obtain ⟨_, _, _, typeRead⟩ := asRead.types type member
  exact canonical_of_readType typeRead

/-! ### Leaves -/

namespace Dag.Writable

variable {dag : Dag} {types : AddressTypes}

theorem canonical (writable : dag.Writable machine names) {value : Value} {type : ValueType}
    (typed : dag.valueType value = .ok type) : type.Canonical := by
  obtain ⟨node, found, result⟩ := Dag.valueType_eq_ok_iff.mp typed
  exact (writable _ _ found).types type (List.mem_of_getElem? result)

end Dag.Writable

/-- A leaf without a symbol. -/
theorem Node.Writable.leaf {op : GenericOp} {type : ValueType} {payload : Payload}
    (canonical : type.Canonical) (written : payload.Written [type] op.payloadKind)
    (symbol : ∀ symbol offset, payload = .global symbol offset → names symbol) :
    (Node.leaf op type payload).Writable machine names where
  someResult := List.cons_ne_nil _ _
  types := List.forall_mem_singleton.mpr canonical
  opcode := Opcode.spelled_generic op
  payload := written
  symbol := symbol
  numbered := fun _ member => absurd member List.not_mem_nil

/-- The leaf of a constant. -/
theorem Node.Writable.constant {number : Int} {type : ValueType} (canonical : type.Canonical)
    (integer : type.isScalarInteger = true) (inside : Text.InSignedRange 64 number) :
    (Node.leaf .targetConstant type (.constant (signExtend number (type.bits?.getD 0)))).Writable
      machine names :=
  .leaf canonical
    (.constant integer (inSignedRange_signExtend inside _) (signExtend_signExtend _ _))
    (fun _ _ impossible => by cases impossible)

section Leaves

variable {dag : Dag} {types : AddressTypes} {capture : Capture} {leaf : Node}

theorem GenericOp.payloadKind_of_targetLeaf? {op other : GenericOp}
    (target : op.targetLeaf? = some other) : other.payloadKind = op.payloadKind := by
  cases op with
  | constant =>
      cases target
      rfl
  | globalAddress =>
      cases target
      rfl
  | externalSymbol =>
      cases target
      rfl
  | frameIndex =>
      cases target
      rfl
  | _ => cases target

/-- The target form of a leaf can carry what the leaf carries. -/
theorem Dag.Writable.copied (writable : dag.Writable machine names) {id : NodeId} {node : Node}
    {op other : GenericOp} {payload : Payload} (found : dag.node? id = some node)
    (generic : node.opcode = .generic op) (carries : node.payload = payload)
    (target : op.targetLeaf? = some other) (noConstant : op.payloadKind ≠ .constant)
    (type : SimpleType) : (Node.leaf other (.simple type) payload).Writable machine names := by
  have own := writable _ _ found
  have written := own.payload
  rw [generic, carries] at written
  refine .leaf (.simple type) ?_ (carries ▸ own.symbol)
  rw [GenericOp.payloadKind_of_targetLeaf? target]
  exact written.of_ne_constant noConstant _

/-- The leaf of a folded constant. -/
theorem Dag.Writable.folded (writable : dag.Writable machine names) {id : NodeId} {node : Node}
    {number : Int} {type : ValueType} (found : dag.node? id = some node)
    (carries : node.payload = .constant number) (canonical : type.Canonical)
    (integer : type.isScalarInteger = true) (bits : Nat) :
    (Node.leaf .targetConstant type
      (.constant (signExtend (signExtend number bits) (type.bits?.getD 0)))).Writable
      machine names := by
  have written := (writable _ _ found).payload
  rw [carries] at written
  exact .constant canonical integer (inSignedRange_signExtend written.inSignedRange bits)

theorem AbsoluteFold.writable {value : Value} {displacement : Displacement}
    (writable : dag.Writable machine names) (fold : AbsoluteFold dag types value displacement)
    (makes : (Capture.displacement displacement).Makes) :
    displacement.leaf.Writable machine names := by
  cases fold with
  | immediate found _ payload _ _ _ =>
      exact writable.folded found payload (.simple _) (makes _ rfl) _
  | global found opcode payload =>
      exact writable.copied found opcode payload rfl (by decide) _
  | external found opcode payload =>
      exact writable.copied found opcode payload rfl (by decide) _

theorem BaseFold.writable {value : Value} {base : AddressBase}
    (writable : dag.Writable machine names) (fold : BaseFold dag value base)
    (isLeaf : (base.capture types).leaf? = some leaf) : leaf.Writable machine names := by
  cases fold with
  | register => cases isLeaf
  | frame found opcode payload =>
      cases isLeaf
      exact writable.copied found opcode payload rfl (by decide) _

theorem BasedFold.writable {value : Value} {address : BasedAddress}
    (writable : dag.Writable machine names) (fold : BasedFold dag types value address)
    (captured : capture ∈ [address.base.capture types, .displacement address.displacement])
    (makes : capture.Makes) (isLeaf : capture.leaf? = some leaf) :
    leaf.Writable machine names := by
  rcases List.mem_pair.mp captured with rfl | rfl
  · cases fold with
    | slot found opcode payload => exact BaseFold.writable writable (.frame found opcode payload) isLeaf
    | right _ _ _ _ based => exact based.writable writable isLeaf
    | left _ _ _ _ based => exact based.writable writable isLeaf
  · cases isLeaf
    cases fold with
    | slot => exact .constant (.simple _) (makes _ rfl) (by decide)
    | right _ _ _ absolute _ => exact absolute.writable writable makes
    | left _ _ _ absolute _ => exact absolute.writable writable makes

mutual

/-- A leaf that a match asks for can be written. -/
theorem Matches.writable (writable : dag.Writable machine names) :
    ∀ {matcher : Matcher} {value : Value} {captures : List Capture},
      Matches dag types matcher value captures → capture ∈ captures → capture.Makes →
      capture.leaf? = some leaf → leaf.Writable machine names
  | _, _, _, .chain _, captured, _, isLeaf => by
      rw [List.mem_singleton.mp captured] at isLeaf
      cases isLeaf
  | _, _, _, .reg _ _, captured, _, isLeaf => by
      rw [List.mem_singleton.mp captured] at isLeaf
      cases isLeaf
  | _, _, _, .imm found _ payload typed, captured, makes, isLeaf => by
      rw [List.mem_singleton.mp captured] at isLeaf makes
      cases isLeaf
      have written := (writable _ _ found).payload
      rw [payload] at written
      exact .constant (writable.canonical typed) (makes _ rfl) written.inSignedRange
  | _, _, _, .exactly _ _ _, captured, _, _ => by cases captured
  | _, _, _, .mem absolute, captured, makes, isLeaf => by
      rw [List.mem_singleton.mp captured] at isLeaf makes
      cases isLeaf
      exact absolute.writable writable makes
  | _, _, _, .off based, captured, makes, isLeaf => based.writable writable captured makes isLeaf
  | _, _, _, .node _ _ operands, captured, makes, isLeaf =>
      MatchesAll.writable writable operands captured makes isLeaf

/-- The same for operands one after another. -/
theorem MatchesAll.writable (writable : dag.Writable machine names) :
    ∀ {matchers : List Matcher} {values : List Value} {captures : List Capture},
      MatchesAll dag types matchers values captures → capture ∈ captures → capture.Makes →
      capture.leaf? = some leaf → leaf.Writable machine names
  | _, _, _, .nil _, captured, _, _ => by cases captured
  | _, _, _, .short _ _, captured, _, _ => by cases captured
  | _, _, _, .cons head tail, captured, makes, isLeaf => by
      rcases List.mem_append.mp captured with inHead | inTail
      · exact Matches.writable writable head inHead makes isLeaf
      · exact MatchesAll.writable writable tail inTail makes isLeaf

end

/-- Every leaf of an instruction can be written. -/
theorem Pattern.Covers.writable {Features : Type} {pattern : Pattern Features} {id : NodeId}
    {node : Node} {own rest : List Capture} (writable : dag.Writable machine names)
    (covers : pattern.Covers dag types id node own rest)
    (makes : ∀ capture ∈ own ++ rest, capture.Makes) :
    ∀ leaf ∈ Capture.leaves (own ++ rest), leaf.Writable machine names := by
  intro leaf member
  obtain ⟨capture, captured, isLeaf⟩ := List.mem_filterMap.mp member
  rcases List.mem_append.mp captured with ownCaptured | restCaptured
  · obtain ⟨matcher, _, ownMatches⟩ := covers.exists_root ownCaptured
    exact ownMatches.writable writable ownCaptured (makes capture captured) isLeaf
  · exact covers.operands.writable writable restCaptured (makes capture captured) isLeaf

end Leaves

/-! ### Turns -/

/-- The instructions of the patterns have names. -/
def Target.Spells {Features : Type} (target : Target Features)
    (machine : String → Option MachineOp) : Prop :=
  ∀ pattern ∈ target.table.patterns, (Opcode.machine pattern.emit).Spelled machine

namespace Dag

variable {dag : Dag} {id : NodeId} {change : Node → Node}

/-- Use counts are not written. -/
theorem writable_shape : dag.shape.Writable machine names ↔ dag.Writable machine names := by
  constructor
  · intro writable id node found
    exact { writable id _ (shape_found found) with }
  · intro writable id node found
    obtain ⟨uses, found⟩ := exists_uses_of_shape found
    exact { writable id _ found with }

namespace Writable

theorem update (writable : dag.Writable machine names)
    (changed : ∀ node, dag.node? id = some node → (change node).Writable machine names) :
    (dag.update id change).Writable machine names := by
  intro other node found
  rcases node?_update_cases found with ⟨rfl, old, there, rfl⟩ | ⟨_, there⟩
  · exact changed old there
  · exact writable other node there

theorem extend {leaves : List Node} (writable : dag.Writable machine names)
    (areWritable : ∀ leaf ∈ leaves, leaf.Writable machine names) :
    (dag.extend leaves).Writable machine names := by
  intro id node found
  rcases node?_extend_cases found with there | ⟨_, leaf⟩
  · exact writable id node there
  · exact areWritable node (List.mem_of_getElem? leaf)

/-- The operands of an instruction have result numbers in range. -/
theorem numbered_place {Features : Type} {pattern : Pattern Features} {types : AddressTypes}
    {node : Node} {own rest : List Capture} (writable : dag.Writable machine names)
    (covers : pattern.Covers dag types id node own rest) (size : Nat) :
    ∀ value ∈ Capture.place size (own ++ rest), value.result < twoPow 32 := by
  intro value member
  rcases Capture.mem_place_cases member with captured | ⟨_, _, first⟩
  · cases covers.handedOn captured with
    | self => exact Nat.two_pow_pos 32
    | operand beneath =>
        obtain ⟨below, _, listed⟩ := beneath
        obtain ⟨belowNode, found, listed⟩ := mem_operandsOf.mp listed
        exact (writable below belowNode found).numbered value listed
  · rw [first]
    exact Nat.two_pow_pos 32

end Writable

end Dag

namespace Target

variable {Features : Type} {target : Target Features} {id : NodeId} {before after : Run}

/-- A turn keeps a graph writable. -/
theorem Visit.writable (spells : target.Spells machine)
    (writable : before.dag.Writable machine names) (visit : target.Visit id before after) :
    after.dag.Writable machine names := by
  have shaped := Dag.writable_shape.mpr writable
  rw [← Dag.writable_shape]
  cases visit with
  | kept _ _ dag _ =>
      rw [dag]
      exact shaped
  | accepted _ _ _ shape _ =>
      rw [shape]
      exact shaped.update fun node there => { shaped _ node there with }
  | discarded _ _ _ _ shape _ =>
      rw [shape]
      exact shaped.update fun node there =>
        { shaped _ node there with numbered := fun _ member => absurd member List.not_mem_nil }
  | passed _ _ _ _ _ shape _ =>
      rw [shape]
      exact shaped.update fun node there => { shaped _ node there with }
  | @covered node _ pattern own rest _ _ _ _ _ finds covers makes shape _ =>
      obtain ⟨listed, _⟩ := cover_finds finds
      rw [shape]
      refine (shaped.extend (covers.writable writable makes)).update fun node there => ?_
      have own := shaped.extend (covers.writable writable makes) _ node there
      exact {
        someResult := own.someResult
        types := own.types
        opcode := spells pattern listed
        payload := .none
        symbol := fun _ _ impossible => by cases impossible
        numbered := writable.numbered_place covers _ }

/-- So does a run. -/
theorem Visits.writable {ids : List NodeId} {first last : Run} (spells : target.Spells machine)
    (visits : target.Visits ids first last) (writable : first.dag.Writable machine names) :
    last.dag.Writable machine names := by
  induction visits with
  | nil => exact writable
  | cons visit _ _ inductionHypothesis => exact inductionHypothesis (visit.writable spells writable)

end Target

end DagSelect
