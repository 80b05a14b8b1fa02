/-
Module: DagSelect.Proofs.Visit
Purpose: What selection does to one node, and to one node after another. A visit either leaves the
  node alone, accepts it as it is, discards it, or turns it into the instruction of a pattern that
  covers it, with one new leaf for every part that the pattern folds. A run is a sequence of visits.
  Whatever selection keeps is proved by going through these cases. A turn that breaks off does so
  while it matches, or at a folded constant whose type is no integer.
Main exports: Node.leaf, Capture.leaf?, Capture.leaves, Capture.place, Target.Visit, Target.Visits,
  Target.Declines, Target.Breaks, Target.selectNode_ends, Target.selectFunction_ends_exactly,
  Target.selectFunction_ends, Target.exists_ordered_visits
-/
import DagSelect.Proofs.Matching
import DagSelect.Proofs.Ranking
import DagSelect.Proofs.UseCounts
import DagSelect.Selection.Run

namespace DagSelect

/-! ### Leaves of an instruction -/

/-- A finished leaf. -/
def Node.leaf (op : GenericOp) (type : ValueType) (payload : Payload) : Node where
  opcode := .generic op
  results := [type]
  operands := []
  payload := payload
  state := .selected
  uses := 0

namespace Displacement

/-- The leaf that carries the absolute part of an address. -/
def leaf : Displacement → Node
  | .immediate value type =>
    .leaf .targetConstant (.simple type) (.constant (signExtend value (type.bits?.getD 0)))
  | .global symbol offset type => .leaf .targetGlobalAddress (.simple type) (.global symbol offset)
  | .external symbol type => .leaf .targetExternalSymbol (.simple type) (.external symbol)

end Displacement

namespace Capture

/-- The leaf that a capture makes, if it is no value of the graph. -/
def leaf? : Capture → Option Node
  | .value _ => none
  | .constant number type =>
    some (.leaf .targetConstant type (.constant (signExtend number (type.bits?.getD 0))))
  | .displacement part => some part.leaf
  | .frame index type => some (.leaf .targetFrameIndex (.simple type) (.frameIndex index))

/-- The leaves that captures make. -/
def leaves (captures : List Capture) : List Node :=
  captures.filterMap leaf?

/-- The operands that captures become, if the first leaf goes to a given position. -/
def place : Nat → List Capture → List Value
  | _, [] => []
  | next, .value source :: rest => source :: place next rest
  | next, _ :: rest => { node := next } :: place (next + 1) rest

/-- The type of the constant that a capture makes, if it makes one. -/
def constantType? : Capture → Option ValueType
  | .constant _ type => some type
  | .displacement (.immediate _ type) => some (.simple type)
  | _ => none

/-- A constant has an integer type, so its leaf can be made. -/
def Makes (capture : Capture) : Prop :=
  ∀ type, capture.constantType? = some type → type.isScalarInteger = true

/-- The one way in which making an operand breaks off. -/
def Faults (capture : Capture) (cause : Fault) : Prop :=
  ∃ type, capture.constantType? = some type ∧ type.isScalarInteger = false ∧
    cause = .constantOfNonInteger type

theorem Faults.orderly {capture : Capture} {cause : Fault} (faults : capture.Faults cause) :
    cause.Orderly := by
  obtain ⟨type, _, _, rfl⟩ := faults
  simp [Fault.Orderly]

end Capture

namespace Dag

variable {dag : Dag}

theorem sizeInBits_getD {type : ValueType} {bits : Nat} (sized : type.sizeInBits = .ok bits) :
    type.bits?.getD 0 = bits := by
  cases type with
  | simple type =>
      simp only [ValueType.sizeInBits, SimpleType.sizeInBits] at sized
      simp only [ValueType.bits?]
      split at sized
      · rename_i found
        cases sized
        simp [found]
      · cases sized
  | extended type =>
      cases sized
      rfl

theorem exists_sizeInBits {type : ValueType} (integer : type.isScalarInteger = true) :
    ∃ bits, type.sizeInBits = .ok bits := by
  cases type with
  | extended type => exact ⟨type.bits, rfl⟩
  | simple type =>
      have entries : type.isScalarInteger = true → type.bits?.isSome = true := by
        cases type <;> decide
      obtain ⟨bits, sized⟩ := Option.isSome_iff_exists.mp (entries integer)
      exact ⟨bits, by simp [ValueType.sizeInBits, SimpleType.sizeInBits, sized]⟩

/-- Adding a leaf and declaring it final. Only the first of the two can break off. -/
theorem asOperand_ends {adding : Edit NodeId} {op : GenericOp} {type : ValueType}
    {payload : Payload} {failed : Fault → Prop}
    (adds : Ends
      (fun id dag' => dag'.Counted ∧ id = dag.size ∧
        dag'.shape = dag.shape.extend [⟨.generic op, [type], [], payload, .unvisited, 0⟩])
      (fun cause _ => failed cause) (adding.run dag)) :
    Ends
      (fun value dag' => dag'.Counted ∧ value = { node := dag.size } ∧
        dag'.shape = dag.shape.extend [.leaf op type payload])
      (fun cause _ => failed cause) ((asOperand adding).run dag) := by
  refine Ends.bind adds ?_
  rintro id dag' ⟨counted, rfl, shapeSame⟩
  have size : dag'.size = dag.size + 1 := by
    rw [← size_shape, shapeSame, size_extend, size_shape]
    rfl
  refine Ends.bind ((markSelected_ends counted).mono (fun _ _ marked => marked) ?_) ?_
  · rintro cause _ ⟨_, _, outside⟩
    rw [size] at outside
    exact absurd outside (Nat.not_succ_le_self dag.size)
  · rintro _ dag'' ⟨counted', shapeSame', _⟩
    refine ⟨counted', rfl, ?_⟩
    rw [shapeSame', shapeSame, ← size_shape, update_extend_singleton]
    rfl

/-- A leaf as an operand. -/
theorem leafOperand_ends {op : GenericOp} {type : ValueType} {payload : Payload}
    (counted : dag.Counted) (fits : op.payloadKind = payload.kind) :
    Ends
      (fun value dag' => dag'.Counted ∧ value = { node := dag.size } ∧
        dag'.shape = dag.shape.extend [.leaf op type payload])
      (fun _ _ => False) ((asOperand (addLeaf op type payload)).run dag) := by
  refine asOperand_ends ((addNode_ends counted).mono ?_ ?_)
  · rintro id dag' ⟨counted', isNext, shapeSame, _⟩
    exact ⟨counted', isNext, shapeSame⟩
  · rintro cause dag' ⟨_, _, refused⟩
    simp [checkPayload, fits] at refused

/-- A constant as an operand. -/
theorem constantOperand_ends {number : Int} {type : ValueType} (counted : dag.Counted) :
    Ends
      (fun value dag' => (dag'.Counted ∧ value = { node := dag.size } ∧
        dag'.shape = dag.shape.extend
          [.leaf .targetConstant type (.constant (signExtend number (type.bits?.getD 0)))]) ∧
        type.isScalarInteger = true)
      (fun cause _ => type.isScalarInteger = false ∧ cause = .constantOfNonInteger type)
      ((asOperand (addConstant .targetConstant number type)).run dag) := by
  cases integer : type.isScalarInteger with
  | false =>
      simp only [asOperand, addConstant, EStateM.run_bind, integer]
      exact ⟨trivial, rfl⟩
  | true =>
      refine (asOperand_ends ((addConstant_ends counted).mono ?_ ?_)).mono
        (fun _ _ made => ⟨made, rfl⟩) (fun _ _ failed => failed)
      · rintro id dag' ⟨counted', isNext, _, bits, sized, shapeSame⟩
        rw [sizeInBits_getD sized]
        exact ⟨counted', isNext, shapeSame⟩
      · rintro cause dag' ⟨_, _, ⟨other, _⟩ | unsized | otherKind⟩
        · rw [integer] at other
          cases other
        · obtain ⟨bits, sized⟩ := exists_sizeInBits integer
          exact absurd sized (unsized bits)
        · exact absurd rfl otherKind

end Dag

namespace Capture

variable {dag : Dag}

theorem leaves_cons (capture : Capture) (rest : List Capture) :
    leaves (capture :: rest) = leaves [capture] ++ leaves rest :=
  @List.filterMap_append _ _ [capture] rest leaf?

theorem place_cons (next : Nat) (capture : Capture) (rest : List Capture) :
    place next (capture :: rest) =
      place next [capture] ++ place (next + (leaves [capture]).length) rest := by
  cases capture <;> rfl

theorem length_place (next : Nat) (captures : List Capture) :
    (place next captures).length = captures.length := by
  induction captures generalizing next with
  | nil => rfl
  | cons capture rest inductionHypothesis =>
      cases capture <;> exact congrArg (· + 1) (inductionHypothesis _)

theorem place_of_leaf {capture : Capture} {leaf : Node} (next : Nat)
    (isLeaf : capture.leaf? = some leaf) : place next [capture] = [{ node := next }] := by
  cases capture with
  | value source => simp [leaf?] at isLeaf
  | constant number type => rfl
  | displacement part => rfl
  | frame index type => rfl

/-- What a capture makes is a finished target leaf. -/
theorem exists_leaf_of_mem_leaves {captures : List Capture} {node : Node}
    (member : node ∈ leaves captures) :
    ∃ op type payload, op.isTargetLeaf = true ∧ node = .leaf op type payload := by
  obtain ⟨capture, _, isLeaf⟩ := List.mem_filterMap.mp member
  cases capture with
  | value source => simp [leaf?] at isLeaf
  | constant number type =>
      cases isLeaf
      exact ⟨_, _, _, rfl, rfl⟩
  | displacement part =>
      cases isLeaf
      cases part with
      | immediate value type => exact ⟨_, _, _, rfl, rfl⟩
      | global symbol offset type => exact ⟨_, _, _, rfl, rfl⟩
      | external symbol type => exact ⟨_, _, _, rfl, rfl⟩
  | frame index type =>
      cases isLeaf
      exact ⟨_, _, _, rfl, rfl⟩

/-- New leaves have no uses to forget. -/
theorem map_shape_leaves (captures : List Capture) :
    (leaves captures).map Node.shape = leaves captures := by
  refine (List.map_congr_left ?_).trans (List.map_id _)
  intro node member
  obtain ⟨_, _, _, _, rfl⟩ := exists_leaf_of_mem_leaves member
  rfl

/-- An operand of the instruction is a captured value or a new leaf. -/
theorem mem_place_cases {captures : List Capture} {next : Nat} {value : Value}
    (member : value ∈ place next captures) :
    Capture.value value ∈ captures ∨
      (next ≤ value.node ∧ value.node < next + (leaves captures).length ∧ value.result = 0) := by
  induction captures generalizing next with
  | nil => simp [place] at member
  | cons capture rest inductionHypothesis =>
      rw [place_cons, List.mem_append] at member
      rw [leaves_cons, List.length_append]
      rcases member with first | later
      · cases isLeaf : capture.leaf? with
        | none =>
            cases capture with
            | value source =>
                simp only [place, List.mem_singleton] at first
                simp [first]
            | _ => simp [leaf?] at isLeaf
        | some leaf =>
            rw [place_of_leaf next isLeaf, List.mem_singleton] at first
            subst first
            refine Or.inr ⟨Nat.le_refl _, Nat.lt_add_of_pos_right ?_, rfl⟩
            simp only [leaves, List.filterMap_cons_some isLeaf, List.length_cons]
            omega
      · rcases inductionHypothesis later with captured | ⟨behind, inside, first⟩
        · exact Or.inl (by simp [captured])
        · rw [Nat.add_assoc] at inside
          exact Or.inr ⟨Nat.le_trans (Nat.le_add_right _ _) behind, inside, first⟩

/-- Every captured value is an operand of the instruction. -/
theorem mem_place_of_value {captures : List Capture} {next : Nat} {value : Value}
    (captured : Capture.value value ∈ captures) : value ∈ place next captures := by
  induction captures generalizing next with
  | nil => cases captured
  | cons capture rest inductionHypothesis =>
      rw [place_cons, List.mem_append]
      rcases List.mem_cons.mp captured with rfl | later
      · exact Or.inl (by simp [place])
      · exact Or.inr (inductionHypothesis later)

/-- Every new leaf is an operand of the instruction. -/
theorem exists_mem_place {captures : List Capture} {next id : Nat} (behind : next ≤ id)
    (inside : id < next + (leaves captures).length) :
    ∃ value ∈ place next captures, value.node = id := by
  induction captures generalizing next with
  | nil => exact absurd inside (Nat.not_lt.mpr behind)
  | cons capture rest inductionHypothesis =>
      rw [leaves_cons, List.length_append, ← Nat.add_assoc] at inside
      rw [place_cons]
      cases isLeaf : capture.leaf? with
      | none =>
          have noLeaf : leaves [capture] = [] := by simp [leaves, isLeaf]
          rw [noLeaf] at inside ⊢
          obtain ⟨value, member, named⟩ := inductionHypothesis behind inside
          exact ⟨value, List.mem_append_right _ member, named⟩
      | some leaf =>
          have oneLeaf : leaves [capture] = [leaf] := by simp [leaves, isLeaf]
          rw [oneLeaf] at inside ⊢
          rw [place_of_leaf next isLeaf]
          rcases Nat.eq_or_lt_of_le behind with same | past
          · exact ⟨{ node := next }, by simp, same⟩
          · obtain ⟨value, member, named⟩ := inductionHypothesis past inside
            exact ⟨value, List.mem_append_right _ member, named⟩

/-- Making one operand. -/
theorem emit_ends {capture : Capture} (counted : dag.Counted) :
    Ends
      (fun value dag' => (dag'.Counted ∧ [value] = place dag.size [capture] ∧
        dag'.shape = dag.shape.extend (leaves [capture])) ∧ capture.Makes)
      (fun cause _ => capture.Faults cause) (capture.emit.run dag) := by
  have asPlaced : ∀ {leaf : Node}, capture.leaf? = some leaf →
      ∀ (value : Value) (dag' : Dag), dag'.Counted ∧ value = { node := dag.size } ∧
        dag'.shape = dag.shape.extend [leaf] →
      dag'.Counted ∧ [value] = place dag.size [capture] ∧
        dag'.shape = dag.shape.extend (leaves [capture]) := by
    rintro leaf isLeaf value dag' ⟨counted', rfl, shapeSame⟩
    refine ⟨counted', (place_of_leaf dag.size isLeaf).symm, ?_⟩
    rw [shapeSame]
    simp [leaves, isLeaf]
  -- A constant is made exactly if its type is an integer, and any other leaf always.
  have ofConstant : ∀ {number : Int} {type : ValueType},
      capture.leaf? = some (.leaf .targetConstant type
        (.constant (signExtend number (type.bits?.getD 0)))) →
      capture.constantType? = some type →
      Ends
        (fun value dag' => (dag'.Counted ∧ [value] = place dag.size [capture] ∧
          dag'.shape = dag.shape.extend (leaves [capture])) ∧ capture.Makes)
        (fun cause _ => capture.Faults cause)
        ((Dag.asOperand (Dag.addConstant .targetConstant number type)).run dag) := by
    intro number type isLeaf isConstant
    refine (Dag.constantOperand_ends counted).mono ?_ ?_
    · rintro value dag' ⟨made, integer⟩
      refine ⟨asPlaced isLeaf value dag' made, ?_⟩
      intro other same
      cases isConstant.symm.trans same
      exact integer
    · rintro cause _ ⟨noInteger, rfl⟩
      exact ⟨type, isConstant, noInteger, rfl⟩
  have ofLeaf : ∀ {op : GenericOp} {type : ValueType} {payload : Payload},
      capture.leaf? = some (.leaf op type payload) → op.payloadKind = payload.kind →
      capture.constantType? = none →
      Ends
        (fun value dag' => (dag'.Counted ∧ [value] = place dag.size [capture] ∧
          dag'.shape = dag.shape.extend (leaves [capture])) ∧ capture.Makes)
        (fun cause _ => capture.Faults cause)
        ((Dag.asOperand (Dag.addLeaf op type payload)).run dag) := by
    intro op type payload isLeaf fits noConstant
    refine (Dag.leafOperand_ends counted fits).mono ?_ (fun _ _ impossible => impossible.elim)
    intro value dag' made
    exact ⟨asPlaced isLeaf value dag' made, by simp [Makes, noConstant]⟩
  cases capture with
  | value source =>
      exact ⟨⟨counted, rfl, (Dag.extend_nil dag.shape).symm⟩, by simp [Makes, constantType?]⟩
  | constant number type => exact ofConstant rfl rfl
  | displacement part =>
      cases part with
      | immediate number type => exact ofConstant rfl rfl
      | global symbol offset type => exact ofLeaf rfl rfl rfl
      | external symbol type => exact ofLeaf rfl rfl rfl
  | frame index type => exact ofLeaf rfl rfl rfl

/-- Making all operands: the leaves go behind the graph in order. -/
theorem emits_ends {captures : List Capture} (counted : dag.Counted) :
    Ends
      (fun values dag' => dag'.Counted ∧ values = place dag.size captures ∧
        dag'.shape = dag.shape.extend (leaves captures) ∧ ∀ capture ∈ captures, capture.Makes)
      (fun cause _ => ∃ capture ∈ captures, capture.Faults cause)
      ((captures.mapM emit).run dag) := by
  induction captures generalizing dag with
  | nil => exact ⟨counted, rfl, (Dag.extend_nil dag.shape).symm, by simp⟩
  | cons capture rest inductionHypothesis =>
      rw [List.mapM_cons]
      refine Ends.bind ((emit_ends counted).mono (fun _ _ made => made) ?_) ?_
      · intro cause _ faults
        exact ⟨capture, by simp, faults⟩
      rintro value dag' ⟨⟨counted', placed, shapeSame⟩, makes⟩
      refine Ends.bind ((inductionHypothesis counted').mono (fun _ _ made => made) ?_) ?_
      · rintro cause _ ⟨other, member, faults⟩
        exact ⟨other, by simp [member], faults⟩
      rintro values dag'' ⟨counted'', rfl, shapeSame', restMake⟩
      have size' : dag'.size = dag.size + (leaves [capture]).length := by
        rw [← Dag.size_shape, shapeSame, Dag.size_extend, Dag.size_shape]
      refine ⟨counted'', ?_, ?_, ?_⟩
      · rw [place_cons, ← placed, size']
        rfl
      · rw [shapeSame', shapeSame, Dag.extend_append, ← leaves_cons]
      · simpa using ⟨makes, restMake⟩

end Capture

/-- What a match hands on is a value of the graph. -/
theorem HandedOn.resolves {dag : Dag} {value source : Value} (counted : dag.Counted)
    (handed : HandedOn dag value source) : dag.Resolves source := by
  cases handed with
  | self typed => exact Dag.resolves_of_valueType typed
  | operand beneath =>
      obtain ⟨user, _, member⟩ := beneath
      exact counted.operands user source member

/-- The operands of the instruction are values of the graph with the new leaves. -/
theorem Pattern.Covers.place_resolves {Features : Type} {pattern : Pattern Features} {dag : Dag}
    {types : AddressTypes} {id : NodeId} {node : Node} {own rest : List Capture}
    (covers : pattern.Covers dag types id node own rest) (counted : dag.Counted) {value : Value}
    (member : value ∈ Capture.place dag.size (own ++ rest)) :
    (dag.extend (Capture.leaves (own ++ rest))).Resolves value := by
  rcases Capture.mem_place_cases member with captured | ⟨behind, inside, first⟩
  · exact ((covers.handedOn captured).resolves counted).extend _
  · rw [← Dag.size_extend] at inside
    obtain ⟨leaf, found⟩ := Dag.exists_node?_of_lt inside
    have there := found
    rw [Dag.node?_extend_of_le dag _ behind] at there
    obtain ⟨_, _, _, _, rfl⟩ := Capture.exists_leaf_of_mem_leaves (List.mem_of_getElem? there)
    exact ⟨_, found, by simp [Node.leaf, first]⟩

/-! ### Steps of selection -/

namespace Selecting

variable {α : Type} {run : Run}

@[simp] theorem run_report (records : List LogRecord) :
    (report records).run run = .ok () { run with log := run.log ++ records } := rfl

@[simp] theorem run_record (change : Session → Session) :
    (record change).run run = .ok () { run with session := change run.session } := rfl

@[simp] theorem run_ask_ok (a : α) : (ask (.ok a)).run run = .ok a run := rfl

@[simp] theorem run_ask_error (cause : Fault) :
    (ask (.error cause) : Selecting α).run run = .error (.fault cause) run := rfl

theorem run_edit (action : Edit α) :
    (edit action).run run = match action.run run.dag with
      | .ok a dag => .ok a { run with dag }
      | .error cause dag => .error (.fault cause) { run with dag } := rfl

theorem run_reportNode {id : NodeId} {node : Node} (lead : String)
    (found : run.dag.node? id = some node) :
    (reportNode lead id).run run =
      .ok () { run with log := run.log ++ [.trace (lead ++ node.describe id)] } := by
  simp only [reportNode, EStateM.run_bind, EStateM.run_get, Dag.fetch_eq_ok_iff.mpr found,
    run_ask_ok, run_report]

/-- An edit of the graph and what follows it. A fault of the edit is a fault of the run. -/
theorem edit_bind_ends {β : Type} {action : Edit α} {next : α → Selecting β}
    {edited : α → Dag → Prop} {failed : Fault → Dag → Prop} {returned : β → Run → Prop}
    {refused : Failure → Run → Prop} {breaks : Fault → Prop}
    (ends : Ends edited failed (action.run run.dag))
    (faults : ∀ cause dag, failed cause dag → breaks cause)
    (continues : ∀ a dag, edited a dag →
      Ends returned (fun failure after => refused failure after ∨
        ∃ cause, failure = .fault cause ∧ breaks cause) ((next a).run { run with dag })) :
    Ends returned (fun failure after => refused failure after ∨
      ∃ cause, failure = .fault cause ∧ breaks cause) ((edit action >>= next).run run) := by
  rw [EStateM.run_bind, run_edit]
  cases result : action.run run.dag with
  | ok a dag =>
      rw [result] at ends
      exact continues a dag ends
  | error cause dag =>
      rw [result] at ends
      exact Or.inr ⟨cause, rfl, faults cause dag ends⟩

end Selecting

namespace Target

variable {Features : Type} {target : Target Features} {id : NodeId}

/-- A match together with its pattern. -/
theorem finds_with_pattern (pattern other : Pattern Features) {attempt : Attempt (List Capture)}
    {captures : List Capture} :
    (do return (pattern, ← attempt) : Attempt (Pattern Features × List Capture)).Finds
      (other, captures) ↔ pattern = other ∧ attempt.Finds captures := by
  simp only [Attempt.finds_bind, Attempt.finds_pure, Prod.mk.injEq]
  constructor
  · rintro ⟨_, finds, same, rfl⟩
    exact ⟨same, finds⟩
  · rintro ⟨same, finds⟩
    exact ⟨captures, finds, same, rfl⟩

/-- The pattern that is found is one of the list, the processor has it, and it matches. Of those
before it, none that the processor has matches. -/
theorem firstMatch_finds {dag : Dag} {patterns : List (Pattern Features)}
    {pattern : Pattern Features} {captures : List Capture}
    (finds : (target.firstMatch dag id patterns).Finds (pattern, captures)) :
    pattern.guard.holds target.features = true ∧
      (pattern.matchNode dag target.addressTypes id).Finds captures ∧
      ∃ front back, patterns = front ++ pattern :: back ∧
        ∀ other ∈ front, other.guard.holds target.features = true →
          ∀ found, ¬ (other.matchNode dag target.addressTypes id).Finds found := by
  induction patterns with
  | nil => exact absurd finds Attempt.not_finds_failure
  | cons head rest inductionHypothesis =>
      unfold firstMatch at finds
      by_cases guarded : head.guard.holds target.features = true
      · rw [if_pos guarded, Attempt.finds_orElse] at finds
        rcases finds with found | ⟨nothing, later⟩
        · obtain ⟨rfl, headFinds⟩ := (finds_with_pattern head pattern).mp found
          exact ⟨guarded, headFinds, [], rest, rfl, by simp⟩
        · obtain ⟨holds, matched, front, back, rfl, earlier⟩ := inductionHypothesis later
          refine ⟨holds, matched, head :: front, back, rfl, ?_⟩
          rw [List.forall_mem_cons]
          refine ⟨fun _ found headFinds => ?_, earlier⟩
          cases nothing.symm.trans ((finds_with_pattern head head).mpr ⟨rfl, headFinds⟩)
      · rw [if_neg guarded] at finds
        obtain ⟨holds, matched, front, back, rfl, earlier⟩ := inductionHypothesis finds
        refine ⟨holds, matched, head :: front, back, rfl, ?_⟩
        rw [List.forall_mem_cons]
        exact ⟨fun headHolds => absurd headHolds guarded, earlier⟩

/-- The pattern that covers a node is one of the table for its opcode. -/
theorem cover_finds {dag : Dag} {op : GenericOp} {pattern : Pattern Features}
    {captures : List Capture} (finds : (target.cover dag id op).Finds (pattern, captures)) :
    pattern ∈ target.table.patterns ∧ pattern.op = op ∧
      pattern.guard.holds target.features = true ∧
      (pattern.matchNode dag target.addressTypes id).Finds captures := by
  obtain ⟨guarded, matched, front, back, split, _⟩ := firstMatch_finds finds
  have listed : pattern ∈ target.table.candidates op := by simp [split]
  obtain ⟨inTable, sameOp⟩ := PatternTable.mem_candidates_iff.mp listed
  exact ⟨inTable, sameOp, guarded, matched⟩

theorem confined_firstMatch {dag : Dag} {allowed : Fault → Prop} {known : Value → Prop}
    (answers : dag.Answers target.addressTypes allowed known) (isKnown : known { node := id })
    (patterns : List (Pattern Features)) :
    Confined allowed (target.firstMatch dag id patterns).result := by
  induction patterns with
  | nil => exact confined_ok none
  | cons head rest inductionHypothesis =>
      unfold firstMatch
      split
      · refine Attempt.confined_orElse ?_ inductionHypothesis
        exact Attempt.confined_bind (head.confined_matchNode answers isKnown) fun _ _ =>
          Attempt.confined_pure _
      · exact inductionHypothesis

/-- The ways in which selection can deal with a node whose turn it is. -/
inductive Visit (target : Target Features) (id : NodeId) (before after : Run) : Prop where
  /-- A node that is final or dead stays so. -/
  | kept {node : Node} (found : before.dag.node? id = some node)
      (visited : node.state ≠ .unvisited) (dag : after.dag = before.dag)
      (session : after.session = before.session)
  /-- An instruction is final. -/
  | accepted {node : Node} {op : MachineOp} (found : before.dag.node? id = some node)
      (unvisited : node.state = .unvisited) (machine : node.opcode = .machine op)
      (shape : after.dag.shape = before.dag.shape.update id Node.finished)
      (session : after.session = before.session.recordPreselected)
  /-- A generic node that nothing points at dies. -/
  | discarded {node : Node} {op : GenericOp} (found : before.dag.node? id = some node)
      (unvisited : node.state = .unvisited) (generic : node.opcode = .generic op)
      (unused : ¬ before.dag.Pointed id)
      (shape : after.dag.shape = before.dag.shape.update id Node.discarded)
      (session : after.session = before.session.recordDead)
  /-- A generic node that needs no selection is final. -/
  | passed {node : Node} {op : GenericOp} (found : before.dag.node? id = some node)
      (unvisited : node.state = .unvisited) (generic : node.opcode = .generic op)
      (used : before.dag.Pointed id) (needsNone : op.needsNoSelection = true)
      (shape : after.dag.shape = before.dag.shape.update id Node.finished)
      (session : after.session = before.session.recordPassthrough)
  /-- Any other node becomes the instruction of the pattern that covers it. -/
  | covered {node : Node} {op : GenericOp} {pattern : Pattern Features} {own rest : List Capture}
      (found : before.dag.node? id = some node) (unvisited : node.state = .unvisited)
      (generic : node.opcode = .generic op) (used : before.dag.Pointed id)
      (needs : op.needsNoSelection = false)
      (finds : (target.cover before.dag id op).Finds (pattern, own ++ rest))
      (covers : pattern.Covers before.dag target.addressTypes id node own rest)
      (makes : ∀ capture ∈ own ++ rest, capture.Makes)
      (shape : after.dag.shape = (before.dag.shape.extend (Capture.leaves (own ++ rest))).update id
        (Node.morphed pattern.emit (Capture.place before.dag.size (own ++ rest))))
      (session : after.session = before.session.recordPattern pattern.name)

/-- Selection declines a node that no pattern covers. -/
structure Refuses (target : Target Features) (id : NodeId) (dag : Dag) (node : Node)
    (op : GenericOp) : Prop where
  found : dag.node? id = some node
  unvisited : node.state = .unvisited
  generic : node.opcode = .generic op
  used : dag.Pointed id
  needs : op.needsNoSelection = false
  uncovered : (target.cover dag id op).result = .ok none

/-- The ways in which the turn of a node breaks off. -/
inductive Breaks (target : Target Features) (id : NodeId) (dag : Dag) (cause : Fault) : Prop where
  /-- There is no such node. -/
  | missing (failed : dag.fetch id = .error cause)
  /-- A pattern asks something that has no answer. -/
  | matching {node : Node} {op : GenericOp} (found : dag.node? id = some node)
      (generic : node.opcode = .generic op) (needs : op.needsNoSelection = false)
      (failed : (target.cover dag id op).result = .error cause)
  /-- A part that the pattern folds has no leaf. -/
  | emitting {node : Node} {op : GenericOp} {pattern : Pattern Features} {own rest : List Capture}
      {capture : Capture} (found : dag.node? id = some node)
      (unvisited : node.state = .unvisited) (generic : node.opcode = .generic op)
      (used : dag.Pointed id) (needs : op.needsNoSelection = false)
      (finds : (target.cover dag id op).Finds (pattern, own ++ rest))
      (covers : pattern.Covers dag target.addressTypes id node own rest)
      (captured : capture ∈ own ++ rest) (faults : capture.Faults cause)

theorem Breaks.orderly {dag : Dag} {cause : Fault} (breaks : target.Breaks id dag cause) :
    cause.Orderly := by
  cases breaks with
  | missing failed => exact orderly_fetch dag id cause failed
  | matching found generic needs failed =>
      exact confined_firstMatch (dag.answers_orderly _) trivial _ cause failed
  | emitting found unvisited generic used needs finds covers captured faults => exact faults.orderly

/-- A node that is covered becomes the instruction, or selection declines. -/
theorem coverNode_ends {run : Run} {node : Node} {op : GenericOp} (log : List LogRecord)
    (counted : run.dag.Counted)
    (found : run.dag.node? id = some node) (unvisited : node.state = .unvisited)
    (generic : node.opcode = .generic op) (used : run.dag.Pointed id)
    (needs : op.needsNoSelection = false) :
    Ends (fun _ after => after.dag.Counted ∧ target.Visit id run after)
      (fun failure after =>
        (target.Refuses id run.dag node op ∧ failure = .declined (target.refusal id node) ∧
          after.dag = run.dag ∧ after.session = run.session) ∨
        ∃ cause, failure = .fault cause ∧ target.Breaks id run.dag cause)
      ((target.coverNode id node op).run { run with log }) := by
  unfold coverNode
  simp only [EStateM.run_bind, EStateM.run_get, Selecting.run_report]
  cases result : (target.cover run.dag id op).result with
  | error cause =>
      rw [Selecting.run_ask_error]
      exact Or.inr ⟨cause, rfl, .matching found generic needs result⟩
  | ok answer =>
      rw [Selecting.run_ask_ok]
      cases answer with
      | none =>
          exact Or.inl ⟨⟨found, unvisited, generic, used, needs, result⟩, rfl, rfl, rfl⟩
      | some answer =>
          obtain ⟨pattern, captures⟩ := answer
          obtain ⟨_, _, _, matched⟩ := cover_finds result
          obtain ⟨node', own, rest, covers, rfl⟩ := Pattern.covers_of_finds matched
          have same : node' = node := Option.some.inj (covers.found.symm.trans found)
          subst same
          refine Selecting.edit_bind_ends (Capture.emits_ends counted) ?_ ?_
          · rintro cause _ ⟨capture, captured, faults⟩
            exact .emitting found unvisited generic used needs result covers captured faults
          rintro operands extended ⟨counted', rfl, extendedShape, makes⟩
          refine Selecting.edit_bind_ends (Dag.morph_ends counted') ?_ ?_
          · -- The instruction is there, and so are its operands.
            rintro cause _ ⟨_, outside | ⟨value, member, unresolved⟩, _⟩
            · have size := congrArg Dag.size extendedShape
              rw [Dag.size_shape, Dag.size_extend, Dag.size_shape] at size
              refine absurd (Dag.lt_size_of_node? found) (Nat.not_lt.mpr ?_)
              exact Nat.le_trans (Nat.le_add_right _ _) (size ▸ outside)
            · refine absurd ?_ unresolved
              rw [← Dag.resolves_shape, extendedShape]
              have resolves := covers.place_resolves counted member
              rw [← Dag.resolves_shape, Dag.shape_extend] at resolves
              rwa [Capture.map_shape_leaves] at resolves
          rintro _ final ⟨counted'', finalShape, inside, _⟩
          have finalInside : id < final.size := by
            rw [← Dag.size_shape, finalShape, Dag.size_update, Dag.size_shape]
            exact inside
          obtain ⟨finalNode, finalFound⟩ := Dag.exists_node?_of_lt finalInside
          simp only [EStateM.run_bind, Selecting.run_record]
          rw [Selecting.run_reportNode "=> " finalFound]
          refine ⟨counted'', .covered found unvisited generic used needs result covers makes ?_ rfl⟩
          rw [finalShape, extendedShape]

/-- A node whose turn it is. -/
theorem selectNode_ends {run : Run} (counted : run.dag.Counted) :
    Ends (fun _ after => after.dag.Counted ∧ target.Visit id run after)
      (fun failure after =>
        (∃ node op, target.Refuses id run.dag node op ∧
          failure = .declined (target.refusal id node) ∧
          after.dag = run.dag ∧ after.session = run.session) ∨
        ∃ cause, failure = .fault cause ∧ target.Breaks id run.dag cause)
      ((target.selectNode id).run run) := by
  unfold selectNode
  simp only [EStateM.run_bind, EStateM.run_get]
  cases fetched : run.dag.fetch id with
  | error cause =>
      rw [Selecting.run_ask_error]
      exact Or.inr ⟨cause, rfl, .missing fetched⟩
  | ok node =>
      have found := Dag.fetch_eq_ok_iff.mp fetched
      have inside := Dag.lt_size_of_node? found
      rw [Selecting.run_ask_ok]
      by_cases visited : node.state ≠ .unvisited
      · simp only [if_pos visited]
        exact ⟨counted, .kept found visited rfl rfl⟩
      have unvisited : node.state = .unvisited := not_not.mp visited
      simp only [if_neg visited, EStateM.run_bind, Selecting.run_report]
      cases opcode : node.opcode with
      | machine op =>
          simp only [EStateM.run_bind, Selecting.run_report]
          refine Selecting.edit_bind_ends (Dag.markSelected_ends counted)
            (fun _ _ fault => absurd inside (Nat.not_lt.mpr fault.2.2)) ?_
          rintro _ dag ⟨counted', shape, _⟩
          exact ⟨counted', .accepted found unvisited opcode shape rfl⟩
      | generic op =>
          by_cases unused : node.uses = 0 ∧ ¬ run.dag.isRoot id
          · have unnamed := (counted.uses_eq_zero_iff found).mp unused.1
            simp only [if_pos unused, EStateM.run_bind, Selecting.run_report]
            refine Selecting.edit_bind_ends (Dag.markDead_ends counted) ?_ ?_
            · rintro cause _ ⟨_, _, outside | named⟩
              · exact absurd inside (Nat.not_lt.mpr outside)
              · exact absurd named unnamed
            · rintro _ dag ⟨counted', shape, _⟩
              exact ⟨counted', .discarded found unvisited opcode unnamed shape rfl⟩
          have used : run.dag.Pointed id := by
            by_contra notPointed
            have noUses := (counted.uses_eq_zero_iff found).mpr notPointed
            exact unused ⟨noUses, fun isRoot => notPointed (Or.inr isRoot)⟩
          simp only [if_neg unused]
          cases needs : op.needsNoSelection with
          | true =>
              simp only [if_true]
              refine Selecting.edit_bind_ends (Dag.markSelected_ends counted)
                (fun _ _ fault => absurd inside (Nat.not_lt.mpr fault.2.2)) ?_
              rintro _ dag ⟨counted', shape, _⟩
              exact ⟨counted', .passed found unvisited opcode used needs shape rfl⟩
          | false =>
              simp only [Bool.false_eq_true, if_false]
              refine (target.coverNode_ends _ counted found unvisited opcode used needs).mono
                (fun _ _ visit => visit) ?_
              rintro failure after (⟨refuses, declined⟩ | fault)
              · exact Or.inl ⟨node, op, refuses, declined⟩
              · exact Or.inr fault

/-! ### Runs -/

/-- The turns of a list of nodes, one after another. The counts are exact in between. -/
inductive Visits (target : Target Features) : List NodeId → Run → Run → Prop
  | nil {run : Run} : Visits target [] run run
  | cons {id : NodeId} {rest : List NodeId} {before middle after : Run}
      (visit : target.Visit id before middle) (counted : middle.dag.Counted)
      (visits : Visits target rest middle after) : Visits target (id :: rest) before after

/-- The nodes of a list are visited, or selection declines one of them or breaks off at it after
visiting the nodes before it. -/
theorem forM_selectNode_ends {ids : List NodeId} {run : Run} (counted : run.dag.Counted) :
    Ends (fun _ after => after.dag.Counted ∧ target.Visits ids run after)
      (fun failure after => ∃ visited id rest last, ids = visited ++ id :: rest ∧
        target.Visits visited run last ∧ last.dag.Counted ∧
        ((∃ node op, target.Refuses id last.dag node op ∧
          failure = .declined (target.refusal id node) ∧
          after.dag = last.dag ∧ after.session = last.session) ∨
        ∃ cause, failure = .fault cause ∧ target.Breaks id last.dag cause))
      ((ids.forM target.selectNode).run run) := by
  induction ids generalizing run with
  | nil => exact ⟨counted, .nil⟩
  | cons id ids inductionHypothesis =>
      change Ends _ _ ((target.selectNode id >>= fun _ => ids.forM target.selectNode).run run)
      refine Ends.bind ((selectNode_ends counted).mono (fun _ _ visit => visit) ?_) ?_
      · intro failure after ended
        exact ⟨[], id, ids, run, rfl, .nil, counted, ended⟩
      · rintro _ middle ⟨counted', visit⟩
        refine (inductionHypothesis counted').mono ?_ ?_
        · rintro _ after ⟨counted'', visits⟩
          exact ⟨counted'', .cons visit counted' visits⟩
        · rintro failure after ⟨visited, stop, rest, last, rfl, visits, ended⟩
          exact ⟨id :: visited, stop, rest, last, rfl, .cons visit counted' visits, ended⟩

/-- What selection has done when it succeeds: every node of the order had its turn, and no node is
left. -/
structure Selects (target : Target Features) (order : List NodeId) (first last : Run) : Prop where
  inside : ∀ id ∈ order, id < first.dag.size
  visits : target.Visits order.reverse first last
  complete : ∀ id node, last.dag.node? id = some node → node.state ≠ .unvisited

/-- What selection has done when it declines. -/
inductive Declines (target : Target Features) (order : List NodeId) (first last : Run) :
    SelectError → Prop
  /-- The order names a node that is not there. -/
  | invalidOrder {id : NodeId} (outside : order.find? (fun id => !first.dag.contains id) = some id)
      (unchanged : last = first) : Declines target order first last (.invalidOrder id)
  /-- No pattern covers a node whose turn it is. -/
  | refused {visited rest : List NodeId} {id : NodeId} {node : Node} {op : GenericOp}
      (inside : ∀ id ∈ order, id < first.dag.size)
      (split : order.reverse = visited ++ id :: rest) (visits : target.Visits visited first last)
      (refuses : target.Refuses id last.dag node op) :
      Declines target order first last (target.refusal id node)
  /-- The order leaves a node out. -/
  | unvisited {id : NodeId} (inside : ∀ id ∈ order, id < first.dag.size)
      (visits : target.Visits order.reverse first last)
      (missed : firstUnvisited last.dag = some id) :
      Declines target order first last (.unvisited id)

/-- Up to where selection declines, nodes of the order have had their turns. -/
theorem Declines.exists_visits {order : List NodeId} {first last : Run} {error : SelectError}
    (declines : target.Declines order first last error) :
    ∃ visited, (∀ id ∈ visited, id ∈ order ∧ id < first.dag.size) ∧
      target.Visits visited first last := by
  cases declines with
  | invalidOrder outside unchanged => exact ⟨[], by simp, unchanged ▸ .nil⟩
  | @refused visited rest id node op inside split visits refuses =>
      refine ⟨visited, fun other member => ?_, visits⟩
      have listed : other ∈ order := by
        rw [← List.mem_reverse, split]
        exact List.mem_append_left _ member
      exact ⟨listed, inside other listed⟩
  | unvisited inside visits missed =>
      refine ⟨order.reverse, fun id member => ?_, visits⟩
      have listed := List.mem_reverse.mp member
      exact ⟨listed, inside id listed⟩

theorem state_ne_of_firstUnvisited {dag : Dag} (none : firstUnvisited dag = none) {id : NodeId}
    {node : Node} (found : dag.node? id = some node) : node.state ≠ .unvisited := by
  have member : id ∈ dag.ids := by
    simpa [Dag.ids] using Dag.lt_size_of_node? found
  have no := List.find?_eq_none.mp none id member
  simpa [found] using no

theorem exists_of_firstUnvisited {dag : Dag} {id : NodeId} (missed : firstUnvisited dag = some id) :
    ∃ node, dag.node? id = some node ∧ node.state = .unvisited := by
  unfold firstUnvisited at missed
  have here := List.find?_some missed
  simpa only [Option.any_eq_true, beq_iff_eq] using here

theorem lt_size_of_find?_eq_none {dag : Dag} {order : List NodeId}
    (none : order.find? (fun id => !dag.contains id) = none) : ∀ id ∈ order, id < dag.size := by
  intro id member
  simpa [Dag.contains] using List.find?_eq_none.mp none id member

/-- Where selection breaks off: at a node of the order, after the turns of those behind it. -/
def BreaksOff (target : Target Features) (order : List NodeId) (first : Run) (cause : Fault) :
    Prop :=
  ∃ visited id rest last, (∀ id ∈ order, id < first.dag.size) ∧
    order.reverse = visited ++ id :: rest ∧ target.Visits visited first last ∧
    last.dag.Counted ∧ target.Breaks id last.dag cause

/-- Selecting all nodes. The log grows around the turns, so the turns start and end at runs that
agree with the outer ones in everything else. -/
theorem selectNodes_ends (target : Target Features) (name : String) (order : List NodeId)
    (run : Run) (counted : run.dag.Counted) :
    Ends
      (fun _ after => ∃ first last, first.dag = run.dag ∧ first.session = run.session ∧
        last.dag.Counted ∧ target.Selects order first last ∧
        after.dag = last.dag ∧ after.session = last.session)
      (fun failure after =>
        (∃ first last error, first.dag = run.dag ∧ first.session = run.session ∧
          last.dag.Counted ∧ target.Declines order first last error ∧
          failure = .declined error ∧ after.dag = last.dag ∧ after.session = last.session) ∨
        ∃ first cause, first.dag = run.dag ∧ failure = .fault cause ∧
          target.BreaksOff order first cause)
      ((target.selectNodes name order).run run) := by
  unfold selectNodes
  simp only [EStateM.run_bind, EStateM.run_get, Selecting.run_report]
  generalize run.log ++ [beginRecord name run.dag] = log
  cases outside : order.find? fun id => !run.dag.contains id with
  | some id =>
      exact Or.inl ⟨run, run, .invalidOrder id, rfl, rfl, counted, .invalidOrder outside rfl, rfl,
        rfl, rfl⟩
  | none =>
      have inside := lt_size_of_find?_eq_none outside
      dsimp only
      refine Ends.bind (Ends.mono (forM_selectNode_ends counted) (fun _ _ visits => visits) ?_) ?_
      · rintro failure after ⟨visited, id, rest, last, split, visits, counted',
          ⟨node, op, refuses, rfl, sameDag, sameSession⟩ | ⟨cause, rfl, breaks⟩⟩
        · exact Or.inl ⟨{ run with log }, last, _, rfl, rfl, counted',
            .refused inside split visits refuses, rfl, sameDag, sameSession⟩
        · exact Or.inr ⟨{ run with log }, cause, rfl, rfl,
            visited, id, rest, last, inside, split, visits, counted', breaks⟩
      · rintro _ last ⟨counted', visits⟩
        simp only [EStateM.run_bind, EStateM.run_get]
        cases missed : firstUnvisited last.dag with
        | some id =>
            exact Or.inl ⟨{ run with log }, last, .unvisited id, rfl, rfl, counted',
              .unvisited inside visits missed, rfl, rfl, rfl⟩
        | none =>
            exact ⟨{ run with log }, last, rfl, rfl, counted',
              ⟨inside, visits, fun _ _ => state_ne_of_firstUnvisited missed⟩, rfl, rfl⟩

/-- Selecting a function. The function counts if selection succeeds and is given up if it
declines. -/
theorem selectFunction_ends_exactly (target : Target Features) (name : String)
    (order : List NodeId) (run : Run) (counted : run.dag.Counted) :
    Ends
      (fun _ after => ∃ first last, first.dag = run.dag ∧
        first.session = run.session.begin name ∧ last.dag.Counted ∧
        target.Selects order first last ∧
        after.dag = last.dag ∧ after.session = last.session.finish)
      (fun failure after =>
        (∃ first last error, first.dag = run.dag ∧ first.session = run.session.begin name ∧
          last.dag.Counted ∧ target.Declines order first last error ∧
          failure = .declined error ∧
          after.dag = last.dag ∧ after.session = last.session.abort) ∨
        ∃ first cause, first.dag = run.dag ∧ failure = .fault cause ∧
          target.BreaksOff order first cause)
      ((target.selectFunction name order).run run) := by
  change Ends _ _ (target.selectFunction name order run)
  unfold selectFunction
  have ends := target.selectNodes_ends name order
    { run with session := run.session.begin name } counted
  split
  · rename_i after result
    rw [result] at ends
    obtain ⟨first, last, sameDag, sameSession, counted', selects, dag, session⟩ := ends
    exact ⟨first, last, sameDag, sameSession, counted', selects, dag, by rw [session]⟩
  · rename_i error after result
    rw [result] at ends
    rcases ends with ⟨first, last, error', sameDag, sameSession, counted', declines, failure, dag,
      session⟩ | ⟨_, cause, _, failure, _⟩
    · cases failure
      exact Or.inl ⟨first, last, error, sameDag, sameSession, counted', declines, rfl, dag,
        by rw [session]⟩
    · cases failure
  · rename_i cause after result
    rw [result] at ends
    rcases ends with ⟨_, _, _, _, _, _, _, failure, _⟩ | breaksOff
    · cases failure
    · exact Or.inr breaksOff

/-- Selecting a function ends with no fault but an orderly one. -/
theorem selectFunction_ends (target : Target Features) (name : String) (order : List NodeId)
    (run : Run) (counted : run.dag.Counted) :
    Ends
      (fun _ after => ∃ first last, first.dag = run.dag ∧
        first.session = run.session.begin name ∧ last.dag.Counted ∧
        target.Selects order first last ∧
        after.dag = last.dag ∧ after.session = last.session.finish)
      (fun failure after =>
        (∃ first last error, first.dag = run.dag ∧ first.session = run.session.begin name ∧
          last.dag.Counted ∧ target.Declines order first last error ∧
          failure = .declined error ∧
          after.dag = last.dag ∧ after.session = last.session.abort) ∨
        ∃ cause, failure = .fault cause ∧ cause.Orderly)
      ((target.selectFunction name order).run run) := by
  refine (target.selectFunction_ends_exactly name order run counted).mono
    (fun _ _ selects => selects) ?_
  rintro failure after (declines | ⟨_, cause, _, rfl, _, _, _, _, _, _, _, _, breaks⟩)
  · exact Or.inl declines
  · exact Or.inr ⟨cause, rfl, breaks.orderly⟩

/-- Whether selection succeeds or declines, it has visited nodes of the order one after another. -/
theorem exists_ordered_visits {name : String} {order : List NodeId} {run after : Run}
    (counted : run.dag.Counted)
    (ended : (target.selectFunction name order).run run = .ok () after ∨
      ∃ error, (target.selectFunction name order).run run = .error (.declined error) after) :
    ∃ first last visited, first.dag = run.dag ∧ after.dag = last.dag ∧
      (∀ id ∈ visited, id ∈ order ∧ id < first.dag.size) ∧ target.Visits visited first last := by
  have ends := target.selectFunction_ends name order run counted
  rcases ended with selects | ⟨error, declines⟩
  · obtain ⟨first, last, firstDag, _, _, ⟨inside, visits, _⟩, lastDag, _⟩ := ends.of_ok selects
    refine ⟨first, last, _, firstDag, lastDag, fun id member => ?_, visits⟩
    have listed := List.mem_reverse.mp member
    exact ⟨listed, inside id listed⟩
  · rcases ends.of_error declines with
      ⟨first, last, _, firstDag, _, _, declined, _, lastDag, _⟩ | ⟨_, impossible, _⟩
    · obtain ⟨visited, listed, visits⟩ := declined.exists_visits
      exact ⟨first, last, visited, firstDag, lastDag, listed, visits⟩
    · cases impossible

/-- The nodes that were visited are nodes of the graph. -/
theorem exists_visits_of_selectFunction {name : String} {order : List NodeId} {run after : Run}
    (counted : run.dag.Counted)
    (ended : (target.selectFunction name order).run run = .ok () after ∨
      ∃ error, (target.selectFunction name order).run run = .error (.declined error) after) :
    ∃ first last visited, first.dag = run.dag ∧ after.dag = last.dag ∧
      (∀ id ∈ visited, id < first.dag.size) ∧ target.Visits visited first last := by
  obtain ⟨first, last, visited, firstDag, lastDag, listed, visits⟩ :=
    exists_ordered_visits counted ended
  exact ⟨first, last, visited, firstDag, lastDag, fun id member => (listed id member).2, visits⟩

end Target

end DagSelect
