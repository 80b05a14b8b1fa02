/-
Module: DagSelect.Proofs.Interning
Purpose: The types that contexts hand out. A context has every object once, under the number that
  its counter gave it, and a vector of extended integers refers to the integer of its own context,
  which it finds by the width. So two types are the same exactly if the same context was asked for
  the same thing, however the requests to any number of contexts are mixed.
Main exports: ExtendedForm.MadeAt, TypeContext.Sound, Request, Request.key?, Request.ask_ends,
  Requests, Consistent, identity_of_requests
-/
import DagSelect.Proofs.Repeatable
import Mathlib.Data.List.Nodup
import Mathlib.Logic.Function.Basic

namespace DagSelect

/-- What a list has with one more entry at its end. -/
theorem getElem?_concat_cases {α : Type} {entries : List α} {new entry : α} {position : Nat}
    (there : (entries ++ [new])[position]? = some entry) :
    entries[position]? = some entry ∨ position = entries.length ∧ entry = new := by
  rcases Nat.lt_or_ge position entries.length with old | behind
  · rw [List.getElem?_append_left old] at there
    exact Or.inl there
  · rw [List.getElem?_append_right behind, List.getElem?_singleton] at there
    split at there
    · rename_i first
      exact Or.inr ⟨Nat.le_antisymm (Nat.sub_eq_zero_iff_le.mp first) behind,
        (Option.some.inj there).symm⟩
    · cases there

/-! ### What a context has -/

/-- A form that a context can have at a position: an integer of a width that is allowed, or a vector
of at least one element whose width is in range. The element is a sized scalar entry of the
enumeration, or an integer that the context has at an earlier position. -/
inductive ExtendedForm.MadeAt (forms : List ExtendedForm) (id : Nat) : ExtendedForm → Prop
  | integer {bits : Nat} (positive : 1 ≤ bits) (bounded : bits ≤ maxIntegerBits) :
      MadeAt forms id (.integer bits)
  | simpleVector {type : SimpleType} {count : Nat} (sized : type.isSized = true)
      (scalar : type.isVector = false) (inhabited : 1 ≤ count)
      (fits : type.scalarBits * count < widthBound) :
      MadeAt forms id (.vector (.simple type) count)
  | integerVector {element bits count : Nat} (earlier : element < id)
      (there : forms[element]? = some (.integer bits)) (inhabited : 1 ≤ count)
      (fits : bits * count < widthBound) : MadeAt forms id (.vector (.integer element bits) count)

theorem ExtendedForm.MadeAt.grow {context later : TypeContext} {form : ExtendedForm} {id : Nat}
    (made : form.MadeAt context.forms id) (grows : context.Grows later) :
    form.MadeAt later.forms id := by
  cases made with
  | integer positive bounded => exact .integer positive bounded
  | simpleVector sized scalar inhabited fits => exact .simpleVector sized scalar inhabited fits
  | integerVector earlier there inhabited fits =>
      exact .integerVector earlier (grows.getElem? there) inhabited fits

/-- The width of what a context has is in range. -/
theorem ExtendedForm.MadeAt.bits_lt {forms : List ExtendedForm} {type : ExtendedType}
    (made : type.form.MadeAt forms type.id) : type.bits < widthBound := by
  obtain ⟨owner, id, form⟩ := type
  cases made with
  | integer _ bounded => exact Nat.lt_of_le_of_lt bounded (by decide)
  | simpleVector _ _ _ fits => exact fits
  | integerVector _ _ _ fits => exact fits

/-- Each form of a context was made from what was there before. -/
def TypeContext.Sound (context : TypeContext) : Prop :=
  ∀ (id : Nat) (form : ExtendedForm), context.forms[id]? = some form →
    form.MadeAt context.forms id

namespace TypeContext.Sound

variable {context : TypeContext}

theorem empty (owner : Nat) : TypeContext.Sound { owner := owner } := by
  intro id form there
  simp [forms] at there

/-- One more form keeps a context sound, if it can stand behind the others. What is new is the type
that is handed out. -/
theorem interns (sound : context.Sound) {form : ExtendedForm} {type : ExtendedType}
    {later : TypeContext} (interns : context.Interns form type later)
    (made : form.MadeAt context.forms context.size) :
    later.Sound ∧ ∀ (id : Nat) (other : ExtendedForm), later.forms[id]? = some other →
      context.forms[id]? = some other ∨ type = ⟨context.owner, id, other⟩ := by
  rcases interns.added with rfl | ⟨_, forms⟩
  · exact ⟨sound, fun _ _ there => Or.inl there⟩
  · have oldOrNew : ∀ id other, later.forms[id]? = some other →
        context.forms[id]? = some other ∨ id = context.size ∧ other = form := by
      intro id other otherThere
      rw [forms] at otherThere
      rw [← context.length_forms]
      exact getElem?_concat_cases otherThere
    constructor
    · intro id other otherThere
      rcases oldOrNew id other otherThere with old | ⟨rfl, rfl⟩
      · exact (sound id other old).grow interns.grows
      · exact made.grow interns.grows
    · intro id other otherThere
      refine (oldOrNew id other otherThere).imp_right ?_
      rintro ⟨_, rfl⟩
      rw [interns.object_eq, (eq_of_key_eq interns.there otherThere rfl).1]

end TypeContext.Sound

/-! ### One request -/

namespace TypeContext

theorem fitsVector_simple {type : SimpleType} {count : Nat} (sized : type.isSized = true)
    (scalar : type.isVector = false) :
    fitsVector (.simple type) count = decide (type.scalarBits * count < widthBound) := by
  simp only [fitsVector, ValueType.bits?, SimpleType.bits?_of_scalar sized scalar]

theorem fitsVector_integer (owner id bits count : Nat) :
    fitsVector (.extended ⟨owner, id, .integer bits⟩) count = decide (bits * count < widthBound) :=
  rfl

end TypeContext

/-- What a context can be asked for. -/
inductive Request where
  | integer (bits : Nat)
  | vector (element : ValueType) (count : Nat)
  deriving DecidableEq, Repr

namespace Request

def ask : Request → Interning ExtendedType
  | .integer bits => TypeContext.integerType bits
  | .vector element count => TypeContext.vectorType element count

/-- The key of what is asked for. A vector of vectors has none. -/
def key? : Request → Option TypeKey
  | .integer bits => some (.integer bits)
  | .vector (.simple type) count => some (.vector (.simple type) count)
  | .vector (.extended ⟨_, _, .integer bits⟩) count => some (.vector (.integer bits) count)
  | .vector (.extended ⟨_, _, .vector _ _⟩) _ => none

/-- What a context grants. -/
def Valid : Request → Prop
  | .integer bits => 1 ≤ bits ∧ bits ≤ maxIntegerBits
  | .vector (.simple type) count =>
    1 ≤ count ∧ type.isSized = true ∧ type.isVector = false ∧ type.scalarBits * count < widthBound
  | .vector (.extended ⟨_, _, .integer bits⟩) count => 1 ≤ count ∧ bits * count < widthBound
  | .vector (.extended ⟨_, _, .vector _ _⟩) _ => False

theorem Valid.inhabited {element : ValueType} {count : Nat}
    (valid : (Request.vector element count).Valid) : 1 ≤ count := by
  match element with
  | .simple _ => exact valid.1
  | .extended ⟨_, _, .integer _⟩ => exact valid.1
  | .extended ⟨_, _, .vector _ _⟩ => exact valid.elim

/-- How a context makes what it is asked for. The integer that is an element is looked up or made
first, by its width alone. -/
inductive Made (context : TypeContext) : Request → ExtendedType → TypeContext → Prop
  | integer {bits : Nat} {type : ExtendedType} {later : TypeContext}
      (interns : context.Interns (.integer bits) type later) :
      Made context (.integer bits) type later
  | simpleVector {element : SimpleType} {count : Nat} {type : ExtendedType} {later : TypeContext}
      (interns : context.Interns (.vector (.simple element) count) type later) :
      Made context (.vector (.simple element) count) type later
  | integerVector {owner id bits count : Nat} {integer type : ExtendedType}
      {middle later : TypeContext} (element : context.Interns (.integer bits) integer middle)
      (interns : middle.Interns (.vector (.integer integer.id bits) count) type later) :
      Made context (.vector (.extended ⟨owner, id, .integer bits⟩) count) type later

/-- A context grants a request, or leaves everything as it is. -/
theorem ask_ends (request : Request) (context : TypeContext) :
    Ends (fun type later => request.Valid ∧ request.Made context type later)
      (fun _ later => ¬ request.Valid ∧ later = context) (request.ask.run context) := by
  cases request with
  | integer bits =>
      refine .refuse (fun empty => ⟨?_, rfl⟩) fun positive =>
        .refuse (fun tooWide => ⟨?_, rfl⟩) fun bounded => ?_
      · rintro ⟨positive, _⟩
        exact Nat.ne_of_gt positive empty
      · rintro ⟨_, bounded⟩
        exact Nat.not_lt.mpr bounded tooWide
      · refine (TypeContext.internInteger_ends bits context).mono (fun type later interns => ?_)
          fun _ _ impossible => impossible.elim
        exact ⟨⟨Nat.pos_of_ne_zero positive, Nat.not_lt.mp bounded⟩, .integer interns⟩
  | vector element count =>
      refine .refuse (fun empty => ⟨?_, rfl⟩) fun inhabited => ?_
      · intro valid
        exact absurd empty (Nat.ne_of_gt valid.inhabited)
      · rw [← ne_eq, ← Nat.one_le_iff_ne_zero] at inhabited
        match element with
        | .simple type =>
            refine .refuse (fun badElement => ⟨?_, rfl⟩) fun element =>
              .refuse (fun tooWide => ⟨?_, rfl⟩) fun fits => ?_
            · rintro ⟨_, sized, scalar, _⟩
              simp [sized, scalar] at badElement
            · rintro ⟨_, sized, scalar, fits⟩
              simp [TypeContext.fitsVector_simple sized scalar, fits] at tooWide
            · simp only [Bool.or_eq_true, Bool.not_eq_true', not_or, Bool.not_eq_false,
                Bool.not_eq_true] at element
              obtain ⟨sized, scalar⟩ := element
              simp only [TypeContext.fitsVector_simple sized scalar, Bool.not_eq_true',
                Bool.not_eq_false, decide_eq_true_eq] at fits
              refine (TypeContext.internVector_simple_ends type count context).mono
                (fun _ _ interns => ?_) fun _ _ impossible => impossible.elim
              exact ⟨⟨inhabited, sized, scalar, fits⟩, .simpleVector interns⟩
        | .extended ⟨owner, id, .integer bits⟩ =>
            refine .refuse (fun tooWide => ⟨?_, rfl⟩) fun fits => ?_
            · rintro ⟨_, fits⟩
              simp [TypeContext.fitsVector_integer, fits] at tooWide
            · simp only [TypeContext.fitsVector_integer, Bool.not_eq_true', Bool.not_eq_false,
                decide_eq_true_eq] at fits
              refine (TypeContext.internVector_integer_ends bits count context).mono ?_
                fun _ _ impossible => impossible.elim
              rintro type later ⟨integer, middle, element, interns⟩
              exact ⟨⟨inhabited, fits⟩, .integerVector element interns⟩
        | .extended ⟨owner, id, .vector inner innerCount⟩ =>
            exact ⟨fun impossible => impossible, rfl⟩

/-- What is valid is granted. -/
theorem Valid.answers {request : Request} (valid : request.Valid) (context : TypeContext) :
    Ends (fun _ _ => True) (fun _ _ => False) (request.ask.run context) :=
  (request.ask_ends context).mono (fun _ _ _ => trivial) fun _ _ refused => refused.1 valid

end Request

/-- The object can be reached from a type: it is the type itself, or its element. -/
def ExtendedType.Shows (type object : ExtendedType) : Prop :=
  object = type ∨ (ValueType.extended type).element? = some (.extended object)

/-- What an answer says of a context before and after it. All that is new can be reached from the
type that is handed out. -/
structure Request.Answered (request : Request) (context later : TypeContext) (type : ExtendedType) :
    Prop where
  sound : later.Sound
  grows : context.Grows later
  owner : type.owner = context.owner
  there : later.forms[type.id]? = some type.form
  key : request.key? = some type.form.key
  shown : ∀ (id : Nat) (form : ExtendedForm), later.forms[id]? = some form →
    context.forms[id]? = some form ∨ type.Shows ⟨context.owner, id, form⟩

/-- What is asked for as one form. -/
theorem Request.Answered.of_interns {request : Request} {context later : TypeContext}
    {form : ExtendedForm} {type : ExtendedType} (interns : context.Interns form type later)
    (sound : later.Sound) (key : request.key? = some form.key)
    (shown : ∀ (id : Nat) (other : ExtendedForm), later.forms[id]? = some other →
      context.forms[id]? = some other ∨ type = ⟨context.owner, id, other⟩) :
    request.Answered context later type := by
  refine ⟨sound, interns.grows, interns.owner, ?_, ?_, fun id other there => ?_⟩
  · rw [interns.isForm]
    exact interns.there
  · rw [interns.isForm]
    exact key
  · exact (shown id other there).imp_right fun same => Or.inl same.symm

/-- A context with sound forms answers with a sound type, if an integer that is given as an element
has a width that is allowed. -/
theorem Request.Made.answered {request : Request} {context later : TypeContext}
    {type : ExtendedType} (made : request.Made context type later) (valid : request.Valid)
    (sound : context.Sound)
    (width : ∀ object bits count, request = .vector (.extended object) count →
      object.form = .integer bits → 1 ≤ bits ∧ bits ≤ maxIntegerBits) :
    request.Answered context later type := by
  cases made with
  | integer interns =>
      obtain ⟨laterSound, shown⟩ := sound.interns interns (.integer valid.1 valid.2)
      exact .of_interns interns laterSound rfl shown
  | simpleVector interns =>
      obtain ⟨inhabited, sized, scalar, fits⟩ := valid
      obtain ⟨laterSound, shown⟩ :=
        sound.interns interns (.simpleVector sized scalar inhabited fits)
      exact .of_interns interns laterSound rfl shown
  | @integerVector _ _ bits count integer type middle later element interns =>
      obtain ⟨inhabited, fits⟩ := valid
      obtain ⟨positive, bounded⟩ := width _ bits count rfl rfl
      obtain ⟨middleSound, integerShown⟩ := sound.interns element (.integer positive bounded)
      have earlier : integer.id < middle.size := by
        rw [← middle.length_forms]
        exact (List.getElem?_eq_some_iff.mp element.there).1
      obtain ⟨laterSound, shown⟩ := middleSound.interns interns
        (.integerVector earlier element.there inhabited fits)
      have owner := interns.owner.trans element.grows.owner
      refine ⟨laterSound, element.grows.trans interns.grows, owner, ?_, ?_, ?_⟩
      · rw [interns.isForm]
        exact interns.there
      · rw [interns.isForm]
        rfl
      · intro id form atId
        rw [element.grows.owner] at shown
        rcases shown id form atId with before | same
        · refine (integerShown id form before).imp_right fun same => Or.inr ?_
          -- The integer is the element of the vector that is handed out.
          have isForm := interns.isForm
          have isInteger := element.isForm
          obtain ⟨typeOwner, typeId, typeForm⟩ := type
          cases isForm
          cases same
          cases isInteger
          rw [← owner]
          rfl
        · exact Or.inr (Or.inl same.symm)

/-! ### Any number of contexts -/

/-- A type that a context was asked for and handed out. -/
structure Answer where
  asked : Nat
  request : Request
  type : ExtendedType

/-- The object was handed out, or is the element of a vector that was. -/
def Obtained (answers : List Answer) (object : ExtendedType) : Prop :=
  ∃ answer ∈ answers, answer.type.Shows object

/-- A vector can be asked for with an entry of the enumeration as its element, or with an object
that was obtained from any context. -/
def Request.Known (request : Request) (answers : List Answer) : Prop :=
  ∀ object count, request = .vector (.extended object) count → Obtained answers object

/-- Requests to any number of contexts, one after another, with the answers that came back. All
contexts begin empty. -/
inductive Requests : (Nat → TypeContext) → List Answer → Prop
  | start : Requests (fun owner => { owner := owner }) []
  | granted {contexts : Nat → TypeContext} {answers : List Answer} {asked : Nat}
      {request : Request} {type : ExtendedType} {later : TypeContext}
      (requests : Requests contexts answers) (known : request.Known answers)
      (granted : request.ask.run (contexts asked) = .ok type later) :
      Requests (Function.update contexts asked later) (⟨asked, request, type⟩ :: answers)
  | refused {contexts : Nat → TypeContext} {answers : List Answer} {asked : Nat}
      {request : Request} {cause : Fault} {later : TypeContext}
      (requests : Requests contexts answers) (known : request.Known answers)
      (refused : request.ask.run (contexts asked) = .error cause later) :
      Requests (Function.update contexts asked later) answers

/-- What is known of the contexts and the answers: all contexts are sound, an answer stands in the
context that gave it, under the key of its request, and whatever a context has can be reached from
an answer. -/
structure Consistent (contexts : Nat → TypeContext) (answers : List Answer) : Prop where
  owner : ∀ owner, (contexts owner).owner = owner
  sound : ∀ owner, (contexts owner).Sound
  origin : ∀ answer ∈ answers, answer.type.owner = answer.asked
  there : ∀ answer ∈ answers,
    (contexts answer.asked).forms[answer.type.id]? = some answer.type.form
  key : ∀ answer ∈ answers, answer.request.key? = some answer.type.form.key
  reached : ∀ (owner id : Nat) (form : ExtendedForm), (contexts owner).forms[id]? = some form →
    Obtained answers ⟨owner, id, form⟩

namespace Consistent

variable {contexts : Nat → TypeContext} {answers : List Answer}

theorem start : Consistent (fun owner => { owner := owner }) [] where
  owner _ := rfl
  sound owner := .empty owner
  origin _ member := by cases member
  there _ member := by cases member
  key _ member := by cases member
  reached _ _ _ atId := by simp [TypeContext.forms] at atId

/-- Every object stands in its context. -/
theorem of_obtained (consistent : Consistent contexts answers) {object : ExtendedType}
    (obtained : Obtained answers object) :
    (contexts object.owner).forms[object.id]? = some object.form := by
  obtain ⟨⟨asked, request, type⟩, member, shows⟩ := obtained
  have origin : type.owner = asked := consistent.origin _ member
  have there : (contexts asked).forms[type.id]? = some type.form := consistent.there _ member
  subst origin
  rcases shows with rfl | isElement
  · exact there
  · obtain ⟨owner, id, form⟩ := type
    cases consistent.sound owner id form there with
    | integer _ _ => cases isElement
    | simpleVector _ _ _ _ => cases isElement
    | integerVector _ elementThere _ _ =>
        cases isElement
        exact elementThere

theorem made_of_obtained (consistent : Consistent contexts answers) {object : ExtendedType}
    (obtained : Obtained answers object) :
    object.form.MadeAt (contexts object.owner).forms object.id :=
  consistent.sound object.owner _ _ (consistent.of_obtained obtained)

/-- An object is known by its context and its number. -/
theorem object_unique (consistent : Consistent contexts answers) {object other : ExtendedType}
    (obtained : Obtained answers object) (otherObtained : Obtained answers other)
    (sameOwner : object.owner = other.owner) (sameId : object.id = other.id) : object = other := by
  have there := consistent.of_obtained obtained
  have otherThere := consistent.of_obtained otherObtained
  rw [sameOwner, sameId, otherThere] at there
  obtain ⟨_, _, _⟩ := object
  cases sameOwner
  cases sameId
  cases there
  rfl

/-- Two answers hand out the same type exactly if the same context was asked for the same thing. -/
theorem type_eq_iff (consistent : Consistent contexts answers) {first second : Answer}
    (member : first ∈ answers) (otherMember : second ∈ answers) :
    first.type = second.type ↔
      first.asked = second.asked ∧ first.request.key? = second.request.key? := by
  rw [consistent.key first member, consistent.key second otherMember, Option.some.injEq,
    ← consistent.origin first member, ← consistent.origin second otherMember]
  constructor
  · intro same
    rw [same]
    exact ⟨rfl, rfl⟩
  · rintro ⟨sameOwner, sameKey⟩
    have obtained : Obtained answers first.type := ⟨first, member, Or.inl rfl⟩
    have otherObtained : Obtained answers second.type := ⟨second, otherMember, Or.inl rfl⟩
    have there := consistent.of_obtained obtained
    have otherThere := consistent.of_obtained otherObtained
    rw [sameOwner] at there
    have sameId := (TypeContext.eq_of_key_eq there otherThere sameKey).1
    exact consistent.object_unique obtained otherObtained sameOwner sameId

/-- The objects of a context are those that can be reached from the answers. -/
theorem mem_arena_iff (consistent : Consistent contexts answers) {owner : Nat}
    {object : ExtendedType} :
    object ∈ (contexts owner).arena ↔ Obtained answers object ∧ object.owner = owner := by
  rw [TypeContext.mem_arena_iff, consistent.owner]
  constructor
  · rintro ⟨rfl, there⟩
    exact ⟨consistent.reached _ _ _ there, rfl⟩
  · rintro ⟨obtained, rfl⟩
    exact ⟨rfl, consistent.of_obtained obtained⟩

/-- An answer of one context. -/
theorem granted (consistent : Consistent contexts answers) {asked : Nat} {request : Request}
    {type : ExtendedType} {later : TypeContext}
    (answered : request.Answered (contexts asked) later type) :
    Consistent (Function.update contexts asked later) (⟨asked, request, type⟩ :: answers) := by
  have grows : ∀ owner, (contexts owner).Grows (Function.update contexts asked later owner) := by
    intro owner
    by_cases same : owner = asked
    · subst same
      rw [Function.update_self]
      exact answered.grows
    · rw [Function.update_of_ne same]
      exact .refl _
  constructor
  · exact fun owner => (grows owner).owner.trans (consistent.owner owner)
  · intro owner
    by_cases same : owner = asked
    · subst same
      rw [Function.update_self]
      exact answered.sound
    · rw [Function.update_of_ne same]
      exact consistent.sound owner
  · rintro answer (_ | ⟨_, member⟩)
    · exact answered.owner.trans (consistent.owner asked)
    · exact consistent.origin answer member
  · rintro answer (_ | ⟨_, member⟩)
    · rw [Function.update_self]
      exact answered.there
    · exact (grows answer.asked).getElem? (consistent.there answer member)
  · rintro answer (_ | ⟨_, member⟩)
    · exact answered.key
    · exact consistent.key answer member
  · intro owner id form atId
    have before : (contexts owner).forms[id]? = some form →
        Obtained (⟨asked, request, type⟩ :: answers) ⟨owner, id, form⟩ := by
      intro old
      obtain ⟨answer, member, shows⟩ := consistent.reached owner id form old
      exact ⟨answer, List.mem_cons_of_mem _ member, shows⟩
    by_cases same : owner = asked
    · subst same
      rw [Function.update_self] at atId
      rcases answered.shown id form atId with old | shows
      · exact before old
      · rw [consistent.owner] at shows
        exact ⟨_, List.mem_cons_self, shows⟩
    · rw [Function.update_of_ne same] at atId
      exact before atId

end Consistent

/-- The widths of integers that are elements are known from the context that made them. -/
theorem Request.Known.width {contexts : Nat → TypeContext} {answers : List Answer}
    {request : Request} (known : request.Known answers) (consistent : Consistent contexts answers) :
    ∀ object bits count, request = .vector (.extended object) count →
      object.form = .integer bits → 1 ≤ bits ∧ bits ≤ maxIntegerBits := by
  intro object bits count isVector isInteger
  have made := consistent.made_of_obtained (known object count isVector)
  rw [isInteger] at made
  cases made with
  | integer positive bounded => exact ⟨positive, bounded⟩

theorem Requests.consistent {contexts : Nat → TypeContext} {answers : List Answer}
    (requests : Requests contexts answers) : Consistent contexts answers := by
  induction requests with
  | start => exact .start
  | @granted _ _ asked request _ _ _ known granted inductionHypothesis =>
      obtain ⟨valid, made⟩ := (request.ask_ends _).of_ok granted
      exact inductionHypothesis.granted (made.answered valid (inductionHypothesis.sound asked)
        (known.width inductionHypothesis))
  | @refused _ _ asked request _ _ _ _ refused inductionHypothesis =>
      obtain ⟨_, rfl⟩ := (request.ask_ends _).of_error refused
      rw [Function.update_eq_self]
      exact inductionHypothesis

/-- Types are the same exactly if the same context was asked for the same thing. Whatever requests
were made to whatever contexts, with elements from any of them: the numbers of the objects that a
context has stored are those below its counter, in order, and the objects are those that can be
reached from the answers; under a key the tables have the object with that key, if there is one; an
object is known by its context and its number; it is an integer of an allowed width, or a vector
whose width is in range and whose element is a sized scalar entry or an earlier integer of the same
context; a context grants what is valid, and a request that it refuses leaves its objects, its
tables and its counter as they are. -/
theorem identity_of_requests {contexts : Nat → TypeContext} {answers : List Answer}
    (requests : Requests contexts answers) :
    (∀ first ∈ answers, ∀ second ∈ answers, first.type = second.type ↔
      first.asked = second.asked ∧ first.request.key? = second.request.key?) ∧
    (∀ owner, (contexts owner).arena.map ExtendedType.id = List.range (contexts owner).size ∧
      (∀ object, object ∈ (contexts owner).arena ↔
        Obtained answers object ∧ object.owner = owner) ∧
      ∀ key object, (contexts owner).find? key = some object ↔
        (Obtained answers object ∧ object.owner = owner) ∧ object.form.key = key) ∧
    (∀ object other, Obtained answers object → Obtained answers other →
      object.owner = other.owner → object.id = other.id → object = other) ∧
    (∀ object, Obtained answers object →
      object.form.MadeAt (contexts object.owner).forms object.id ∧ object.bits < widthBound) ∧
    ∀ (asked : Nat) (request : Request),
      (request.Valid → ∃ type later, request.ask.run (contexts asked) = .ok type later) ∧
      ∀ cause later, request.ask.run (contexts asked) = .error cause later →
        ¬ request.Valid ∧ later = contexts asked := by
  have consistent := requests.consistent
  refine ⟨fun _ member _ => consistent.type_eq_iff member, fun owner => ?_,
    fun _ _ => consistent.object_unique, ?_, ?_⟩
  · have registered := (contexts owner).registered
    refine ⟨registered.numbered, fun _ => consistent.mem_arena_iff, fun key object => ?_⟩
    rw [registered.found, consistent.mem_arena_iff]
  · intro object obtained
    have made := consistent.made_of_obtained obtained
    exact ⟨made, made.bits_lt⟩
  · intro asked request
    refine ⟨fun valid => ?_, fun _ _ => (request.ask_ends _).of_error⟩
    obtain ⟨type, later, granted, _⟩ := (valid.answers (contexts asked)).exists_ok
    exact ⟨type, later, granted⟩

/-- One context makes an integer, another one a vector of it, and then the integer of the same
width. -/
def foreignElement : List Answer :=
  [⟨0, .integer 17, ⟨0, 0, .integer 17⟩⟩,
    ⟨0, .vector (.extended ⟨1, 0, .integer 17⟩) 3, ⟨0, 1, .vector (.integer 0 17) 3⟩⟩,
    ⟨1, .integer 17, ⟨1, 0, .integer 17⟩⟩]

/-- The element of the vector is the integer of its own context, and no vectors are made of it. -/
theorem identity_foreignElement :
    ∃ contexts, Requests contexts foreignElement ∧ (contexts 0).size = 2 ∧
      (contexts 0).find? (.vector (.integer 17) 3) = some ⟨0, 1, .vector (.integer 0 17) 3⟩ ∧
      (∀ object, Obtained foreignElement object → object.owner = 0 → object.id = 0 →
        object = ⟨0, 0, .integer 17⟩) ∧
      (⟨0, 0, .integer 17⟩ : ExtendedType) ≠ ⟨1, 0, .integer 17⟩ ∧
      ∃ cause, (Request.vector (.extended ⟨0, 1, .vector (.integer 0 17) 3⟩) 2).ask.run
        (contexts 0) = .error cause (contexts 0) := by
  have known : ∀ bits answers, (Request.integer bits).Known answers := by
    rintro bits answers _ _ ⟨⟩
  have integer : Requests _ [⟨1, .integer 17, ⟨1, 0, .integer 17⟩⟩] :=
    .granted .start (known 17 _) rfl
  have foreign : (Request.vector (.extended ⟨1, 0, .integer 17⟩) 3).Known
      [⟨1, .integer 17, ⟨1, 0, .integer 17⟩⟩] := by
    rintro _ _ ⟨⟩
    exact ⟨_, List.mem_cons_self, Or.inl rfl⟩
  have requests : Requests _ foreignElement :=
    .granted (.granted integer foreign rfl) (known 17 _) rfl
  obtain ⟨same, stored, objects, _, grants⟩ := identity_of_requests requests
  refine ⟨_, requests, rfl, ?_, ?_, ?_, ?_⟩
  · have listed : Obtained foreignElement ⟨0, 1, .vector (.integer 0 17) 3⟩ :=
      ⟨_, List.mem_cons_of_mem _ List.mem_cons_self, Or.inl rfl⟩
    exact ((stored 0).2.2 _ _).mpr ⟨⟨listed, rfl⟩, rfl⟩
  · intro object obtained owner id
    exact objects _ _ obtained ⟨_, List.mem_cons_self, Or.inl rfl⟩ owner id
  · intro equal
    have listed : (⟨1, .integer 17, ⟨1, 0, .integer 17⟩⟩ : Answer) ∈ foreignElement := by
      simp [foreignElement]
    obtain ⟨impossible, _⟩ := (same _ List.mem_cons_self _ listed).mp equal
    cases impossible
  · have refuses : ∀ context, ∃ cause later,
        (Request.vector (.extended ⟨0, 1, .vector (.integer 0 17) 3⟩) 2).ask.run context =
          .error cause later := fun _ => ⟨_, _, rfl⟩
    obtain ⟨cause, later, refused⟩ := refuses _
    obtain ⟨_, rfl⟩ := (grants 0 _).2 cause later refused
    exact ⟨cause, refused⟩

end DagSelect
