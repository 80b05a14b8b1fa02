/-
Module: DagSelect.Proofs.FoldedNumbers
Purpose: The numbers that selection makes constants from. A pattern asks for constants at places of
  its operands; the leaf that it adds for such a place is made from the constant that stands there.
  The leaves of a run are put one behind the other, so that each is made from one number.
Main exports: Dag.constantAt, Matcher.numbers, Pattern.numbers, Capture.MadeOf, Target.MakesFrom,
  Target.Places.exists_madeOf, Target.MakesFrom.size_le, Target.MakesFrom.unique
-/
import DagSelect.Proofs.Lasting
import DagSelect.Proofs.Step

namespace DagSelect

theorem signExtend_zero (bits : Nat) : signExtend 0 bits = 0 := by
  unfold signExtend
  split
  · rfl
  · simp

/-! ### What selection folds -/

/-- The number of a constant. -/
def Dag.constantAt (dag : Dag) (value : Value) : Option Int :=
  (dag.node? value.node).bind fun node =>
    match node.opcode, node.payload with
    | .generic .constant, .constant number => some number
    | _, _ => none

/-- The number that the displacement of an address is made from: a stack slot itself is at offset
zero, and a sum has the constant that was folded. -/
def BasedAddress.number? (dag : Dag) : BasedAddress → Option Int
  | .slot _ _ => some 0
  | .sum _ folded _ => dag.constantAt folded

namespace Matcher

mutual

/-- The numbers that the operands of the instruction are made from, one for each capture: the
constant that stands where a number or an address is asked for. -/
def numbers (dag : Dag) (types : AddressTypes) : Matcher → Value → List (Option Int)
  | .chain, _ | .reg, _ => [none]
  | .imm, value | .mem, value => [dag.constantAt value]
  | .exactly _, _ => []
  | .off, value =>
    [none,
      match foldBased dag types value with
      | .ok (some address) => address.number? dag
      | _ => none]
  | .node _ operands, value => numbersAll dag types operands (dag.operandsOf value.node)

/-- The same for operands one after another. -/
def numbersAll (dag : Dag) (types : AddressTypes) : List Matcher → List Value → List (Option Int)
  | [], _ => []
  | _ :: _, [] => []
  | matcher :: matchers, value :: values =>
    numbers dag types matcher value ++ numbersAll dag types matchers values

end

end Matcher

/-- The numbers that the operands of the instruction of a pattern are made from. -/
def Pattern.numbers {Features : Type} (pattern : Pattern Features) (dag : Dag)
    (types : AddressTypes) (id : NodeId) : List (Option Int) :=
  (match pattern.root with
    | some matcher => matcher.numbers dag types { node := id }
    | none => []) ++
  Matcher.numbersAll dag types pattern.operands (dag.operandsOf id)

/-- A constant among the captures is made from a number, and has a type of the graph. An address is
cut to its width. A value of the graph is made from nothing. -/
def Capture.MadeOf (dag : Dag) (number? : Option Int) : Capture → Prop
  | .value _ => number? = none
  | .constant number type => number? = some number ∧ ∃ value, dag.valueType value = .ok type
  | .displacement (.immediate part type) => ∃ number, number? = some number ∧
      ∀ bits, type.sizeInBits = .ok bits → part = signExtend number bits
  | .displacement _ | .frame _ _ => True

section Matching

variable {dag : Dag} {types : AddressTypes} {value : Value}

theorem Dag.constantAt_eq {node : Node} {number : Int} (found : dag.node? value.node = some node)
    (opcode : node.opcode = .generic .constant) (payload : node.payload = .constant number) :
    dag.constantAt value = some number := by
  simp only [constantAt, found, Option.bind_some, opcode, payload]

theorem AbsoluteFold.madeOf {displacement : Displacement}
    (absolute : AbsoluteFold dag types value displacement) :
    (Capture.displacement displacement).MadeOf dag (dag.constantAt value) := by
  cases absolute with
  | @immediate node number _ bits found opcode payload _ _ sized =>
      refine ⟨number, Dag.constantAt_eq found opcode payload, ?_⟩
      intro other otherSized
      cases sized.symm.trans otherSized
      rfl
  | global => trivial
  | external => trivial

theorem BasedFold.madeOf {address : BasedAddress} (based : BasedFold dag types value address) :
    (Capture.displacement address.displacement).MadeOf dag (address.number? dag) := by
  cases based with
  | slot => exact ⟨0, rfl, fun bits _ => (signExtend_zero bits).symm⟩
  | right _ _ _ absolute _ => exact absolute.madeOf
  | left _ _ _ absolute _ => exact absolute.madeOf

mutual

/-- What a matcher captures is made from the numbers of the operand. -/
theorem Matcher.madeOf_of_finds :
    ∀ {matcher : Matcher} {value : Value} {captures : List Capture},
      (matcher.attempt dag types value).Finds captures →
      List.Forall₂ (fun capture number? => capture.MadeOf dag number?) captures
        (matcher.numbers dag types value)
  | .chain, value, captures, finds => by
      cases matches_of_finds finds
      exact .cons rfl .nil
  | .reg, value, captures, finds => by
      cases matches_of_finds finds
      exact .cons rfl .nil
  | .imm, value, captures, finds => by
      cases matches_of_finds finds with
      | imm found opcode payload typed =>
          exact .cons ⟨Dag.constantAt_eq found opcode payload, value, typed⟩ .nil
  | .exactly _, value, captures, finds => by
      cases matches_of_finds finds
      exact .nil
  | .mem, value, captures, finds => by
      cases matches_of_finds finds with
      | mem absolute => exact .cons absolute.madeOf .nil
  | .off, value, captures, finds => by
      simp only [Matcher.attempt, Attempt.finds_bind, Attempt.finds_pure] at finds
      obtain ⟨address, folded, rfl⟩ := finds
      have foldedAs := Attempt.based_finds.mp folded
      have displacement := (basedFold_of_eq foldedAs).madeOf
      simp only [Matcher.numbers, foldedAs]
      refine .cons ?_ (.cons displacement .nil)
      cases address.base <;> trivial
  | .node op matchers, value, captures, finds => by
      simp only [Matcher.attempt, Attempt.finds_bind, Attempt.finds_ask,
        Attempt.finds_require] at finds
      obtain ⟨node, fetched, _, _, finds⟩ := finds
      have operands : dag.operandsOf value.node = node.operands := by
        rw [Dag.operandsOf, Dag.fetch_eq_ok_iff.mp fetched]
      rw [Matcher.numbers, operands]
      exact Matcher.madeOf_of_findsAll finds

theorem Matcher.madeOf_of_findsAll :
    ∀ {matchers : List Matcher} {values : List Value} {captures : List Capture},
      (Matcher.attemptAll dag types matchers values).Finds captures →
      List.Forall₂ (fun capture number? => capture.MadeOf dag number?) captures
        (Matcher.numbersAll dag types matchers values)
  | [], values, captures, finds => by
      simp only [Matcher.attemptAll, Attempt.finds_success] at finds
      subst finds
      exact .nil
  | matcher :: matchers, [], captures, finds => by
      simp only [Matcher.attemptAll, Attempt.finds_success] at finds
      subst finds
      exact .nil
  | matcher :: matchers, value :: values, captures, finds => by
      simp only [Matcher.attemptAll, Attempt.finds_bind, Attempt.finds_pure] at finds
      obtain ⟨first, head, rest, tail, rfl⟩ := finds
      exact List.rel_append (Matcher.madeOf_of_finds head)
        (Matcher.madeOf_of_findsAll tail)

end

/-- What a pattern captures is made from the numbers of the node and its operands. -/
theorem Pattern.madeOf_of_finds {Features : Type} {pattern : Pattern Features} {id : NodeId}
    {captures : List Capture} (finds : (pattern.matchNode dag types id).Finds captures) :
    List.Forall₂ (fun capture number? => capture.MadeOf dag number?) captures
      (pattern.numbers dag types id) := by
  simp only [Pattern.matchNode, Attempt.finds_bind, Attempt.finds_ask, Attempt.finds_require]
    at finds
  obtain ⟨node, fetched, _, _, _, _, _, _, finds⟩ := finds
  have operands : dag.operandsOf id = node.operands := by
    rw [Dag.operandsOf, Dag.fetch_eq_ok_iff.mp fetched]
  rw [Pattern.numbers, operands]
  cases root : pattern.root with
  | none =>
      simp only [root, Attempt.finds_bind, Attempt.finds_success, Attempt.finds_pure] at finds
      obtain ⟨_, rfl, rest, restFinds, rfl⟩ := finds
      exact Matcher.madeOf_of_findsAll restFinds
  | some matcher =>
      simp only [root, Attempt.finds_bind, Attempt.finds_pure] at finds
      obtain ⟨own, ownFinds, rest, restFinds, rfl⟩ := finds
      exact List.rel_append (Matcher.madeOf_of_finds ownFinds)
        (Matcher.madeOf_of_findsAll restFinds)

end Matching

/-! ### Operands that are placed -/

/-- An operand takes the place of one leaf, unless it is a value of the graph. -/
theorem Capture.length_leaves_take_lt {captures : List Capture} {position later : Nat}
    {capture : Capture} (captured : captures[position]? = some capture)
    (makesLeaf : capture.leaf? ≠ none) (earlier : position < later) :
    (leaves (captures.take position)).length < (leaves (captures.take later)).length := by
  obtain ⟨leaf, isLeaf⟩ := Option.ne_none_iff_exists'.mp makesLeaf
  have withOwn : leaves (captures.take (position + 1)) =
      leaves (captures.take position) ++ [leaf] := by
    rw [List.take_add_one, captured, leaves, List.filterMap_append]
    exact congrArg _ (by simp [isLeaf])
  have sublist := (List.take_prefix_take_left (l := captures) earlier).sublist.filterMap leaf?
  have longer := sublist.length_le
  rw [← leaves, withOwn, List.length_append] at longer
  exact longer

namespace Target

variable {Features : Type} {target : Target Features} {order : List NodeId} {first : Run}

/-- The number that selection makes a leaf from: the leaf is put at the end of the graph when its
operand is placed, and the number is that of the operand. -/
def MakesFrom (target : Target Features) (order : List NodeId) (first : Run) (id : NodeId)
    (number : Int) : Prop :=
  ∃ placement, target.Places order first placement ∧ id = placement.dag.size ∧
    (placement.pattern.numbers placement.turn target.addressTypes placement.id)[
      placement.position]? = some (some number)

namespace Places

variable {placement : Placement Features} {last : Run} {number : Int}

/-- An operand is made from the number that stands at its place. -/
theorem exists_madeOf (places : target.Places order first placement) :
    ∃ number?, (placement.pattern.numbers placement.turn target.addressTypes placement.id)[
      placement.position]? = some number? ∧ placement.capture.MadeOf placement.turn number? := by
  obtain ⟨_, _, _, finds⟩ := cover_finds places.finds
  have madeOf := Pattern.madeOf_of_finds finds
  obtain ⟨inside, isCapture⟩ := List.getElem?_eq_some_iff.mp places.captured
  have numberInside := madeOf.length_eq ▸ inside
  have made := madeOf.get inside numberInside
  rw [List.get_eq_getElem, List.get_eq_getElem, isCapture] at made
  exact ⟨_, List.getElem?_eq_getElem numberInside, made⟩

/-- An operand that is made from a number is a leaf. -/
theorem makesLeaf (places : target.Places order first placement)
    (made : (placement.pattern.numbers placement.turn target.addressTypes placement.id)[
      placement.position]? = some (some number)) : placement.capture.leaf? ≠ none := by
  obtain ⟨number?, sameNumber, madeOf⟩ := places.exists_madeOf
  cases made.symm.trans sameNumber
  cases isCapture : placement.capture with
  | value source =>
      rw [isCapture] at madeOf
      cases madeOf
  | constant number type => simp [Capture.leaf?]
  | displacement part => simp [Capture.leaf?]
  | frame index type => simp [Capture.leaf?]

/-- The operands before this one have added their leaves. -/
theorem size_eq (places : target.Places order first placement) :
    placement.dag.size = placement.turn.size +
      (Capture.leaves (placement.captures.take placement.position)).length := by
  obtain ⟨_, placed⟩ := places.placed
  exact Dag.size_of_shape_extend (Capture.shape_of_emits placed).2.1

/-- When the turn is over, the leaf is there. -/
theorem lt_size_of_selectNode (places : target.Places order first placement)
    (makesLeaf : placement.capture.leaf? ≠ none) {before after : Run}
    (sameDag : before.dag = placement.turn)
    (selects : (target.selectNode placement.id).run before = .ok () after) :
    placement.dag.size < after.dag.size := by
  obtain ⟨node, found, unvisited, generic, used, needs⟩ := places.due
  rw [← sameDag] at found used
  cases (target.selectNode_steps placement.id before).of_ok selects with
  | kept sameFound visited _ _ =>
      cases found.symm.trans sameFound
      exact absurd unvisited visited
  | turned sameFound _ becomes shape _ =>
      cases found.symm.trans sameFound
      cases becomes with
      | accepted machine => cases generic.symm.trans machine
      | discarded _ uncounted notRoot =>
          rcases used with counted | isRoot
          · exact absurd uncounted counted
          · cases isRoot.symm.trans notRoot
      | passed sameGeneric _ needsNone =>
          cases generic.symm.trans sameGeneric
          cases needs.symm.trans needsNone
      | @covered _ pattern own rest sameGeneric _ _ finds _ _ =>
          cases generic.symm.trans sameGeneric
          have sameFinds := places.finds
          rw [← sameDag] at sameFinds
          have same := Option.some.inj (Except.ok.inj (sameFinds.symm.trans finds))
          have captures : placement.captures = own ++ rest := congrArg Prod.snd same
          have size := congrArg Dag.size shape
          rw [Dag.size_shape, Dag.size_update, Dag.size_extend, Dag.size_shape, sameDag,
            ← captures] at size
          have inside := (List.getElem?_eq_some_iff.mp places.captured).1
          have more := Capture.length_leaves_take_lt places.captured makesLeaf inside
          rw [List.take_length] at more
          rw [places.size_eq, size]
          exact Nat.add_lt_add_left more _

/-- When a later turn comes, the leaf is there. -/
theorem lt_size_of_earlier (places : target.Places order first placement)
    (makesLeaf : placement.capture.leaf? ≠ none) {position later : Nat} {before after : Run}
    (listed : order.reverse[position]? = some placement.id)
    (walked : ((order.reverse.take position).forM target.selectNode).run first = .ok () before)
    (sameDag : before.dag = placement.turn) (earlier : position < later)
    (walkedOn : ((order.reverse.take later).forM target.selectNode).run first = .ok () after) :
    placement.dag.size < after.dag.size := by
  obtain ⟨rest, split⟩ := List.take_prefix_take_left (l := order.reverse) earlier
  rw [← split, List.take_add_one, listed, List.append_assoc, List.forM_eq_forM, List.forM_append,
    run_bind_eq_ok] at walkedOn
  obtain ⟨_, same, sameWalk, walkedOn⟩ := walkedOn
  cases walked.symm.trans sameWalk
  obtain ⟨_, next, selects, walkedOn⟩ := run_bind_eq_ok.mp walkedOn
  have steps := (target.forM_selectNode_steps rest next).of_ok walkedOn
  exact Nat.lt_of_lt_of_le (places.lt_size_of_selectNode makesLeaf sameDag selects) steps.size_le

/-- At the turn of a node one pattern covers it, with the same captures. -/
theorem same_captures (places : target.Places order first placement)
    {other : Placement Features} (placesOther : target.Places order first other)
    (sameTurn : placement.turn = other.turn) (sameId : placement.id = other.id) :
    placement.pattern = other.pattern ∧ placement.captures = other.captures := by
  obtain ⟨node, found, _, generic, _⟩ := places.due
  obtain ⟨otherNode, otherFound, _, otherGeneric, _⟩ := placesOther.due
  have finds := places.finds
  rw [sameTurn, sameId] at found finds
  cases found.symm.trans otherFound
  have sameOp := Opcode.generic.inj (generic.symm.trans otherGeneric)
  rw [sameOp] at finds
  have same := Option.some.inj (Except.ok.inj (finds.symm.trans placesOther.finds))
  exact ⟨congrArg Prod.fst same, congrArg Prod.snd same⟩

end Places

namespace MakesFrom

variable {id : NodeId} {number other : Int}

/-- What selection makes is behind what was there. -/
theorem size_le (makes : target.MakesFrom order first id number) : first.dag.size ≤ id := by
  obtain ⟨placement, places, rfl, _⟩ := makes
  obtain ⟨_, last, _, walked, sameDag⟩ := places.comes
  have steps := (target.forM_selectNode_steps _ first).of_ok walked
  rw [places.size_eq, ← sameDag]
  exact Nat.le_trans steps.size_le (Nat.le_add_right _ _)

/-- Selection makes a leaf from one number: the operands that are leaves are put at different ends
of the graph, within a turn and from turn to turn. -/
theorem unique (makes : target.MakesFrom order first id number)
    (makesOther : target.MakesFrom order first id other) : number = other := by
  obtain ⟨one, places, isSize, made⟩ := makes
  obtain ⟨two, placesOther, isSizeOther, madeOther⟩ := makesOther
  have sameSize : one.dag.size = two.dag.size := isSize.symm.trans isSizeOther
  have leaf := places.makesLeaf made
  have leafOther := placesOther.makesLeaf madeOther
  have size := places.size_eq
  have sizeOther := placesOther.size_eq
  obtain ⟨turn, last, listed, walked, lastDag⟩ := places.comes
  obtain ⟨turnOther, lastOther, listedOther, walkedOther, lastDagOther⟩ := placesOther.comes
  rcases Nat.lt_trichotomy turn turnOther with earlier | rfl | later
  · have behind := places.lt_size_of_earlier leaf listed walked lastDag earlier walkedOther
    rw [lastDagOther] at behind
    omega
  · cases walked.symm.trans walkedOther
    have sameTurn := lastDag.symm.trans lastDagOther
    have sameId := Option.some.inj (listed.symm.trans listedOther)
    obtain ⟨samePattern, sameCaptures⟩ := places.same_captures placesOther sameTurn sameId
    have captured := places.captured
    rw [samePattern, sameTurn, sameId] at made
    rw [sameCaptures] at captured size
    rw [sameTurn] at size
    rcases Nat.lt_trichotomy one.position two.position with earlier | same | later
    · have fewer := Capture.length_leaves_take_lt captured leaf earlier
      omega
    · rw [same] at made
      exact Option.some.inj (Option.some.inj (made.symm.trans madeOther))
    · have fewer := Capture.length_leaves_take_lt placesOther.captured leafOther later
      omega
  · have behind :=
      placesOther.lt_size_of_earlier leafOther listedOther walkedOther lastDagOther later walked
    rw [lastDag] at behind
    omega

end MakesFrom

end Target

end DagSelect
