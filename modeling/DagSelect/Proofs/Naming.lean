/-
Module: DagSelect.Proofs.Naming
Purpose: Types and names correspond. Whatever a context was asked before, the types that come from
  names, widths and elements are known there by their names: reading the name of one gives the same
  type again and makes nothing new. So two of them are the same exactly if they are written alike,
  and none of the extended ones describes what an entry of the enumeration describes.
Main exports: ExtendedType.Stands, ExtendedForm.Describes, ValueType.Named, TypeCall, TypeCall.answer,
  Built, Built.named, names_identify_types
-/
import DagSelect.Proofs.LineReading

namespace DagSelect

/-! ### Handles -/

/-- The context still has the type, under the number that the type was given. -/
def ExtendedType.Stands (type : ExtendedType) (context : TypeContext) : Prop :=
  type.owner = context.owner ∧ context.forms[type.id]? = some type.form

theorem ExtendedType.Stands.grow {type : ExtendedType} {context later : TypeContext}
    (stands : type.Stands context) (grows : context.Grows later) : type.Stands later :=
  ⟨stands.1.trans grows.owner.symm, grows.getElem? stands.2⟩

theorem TypeContext.Interns.stands {form : ExtendedForm} {context later : TypeContext}
    {type : ExtendedType} (interns : context.Interns form type later) : type.Stands later := by
  constructor
  · exact interns.owner.trans interns.grows.owner.symm
  · rw [interns.isForm]
    exact interns.there

namespace Request.Made

variable {request : Request} {context later : TypeContext} {type : ExtendedType}

theorem stands (made : request.Made context type later) : type.Stands later := by
  cases made with
  | integer interns => exact interns.stands
  | simpleVector interns => exact interns.stands
  | integerVector _ interns => exact interns.stands

/-- A vector has the element that was asked for, if it is an integer perhaps under another number. -/
theorem exists_element {element : ValueType} {count : Nat}
    (made : (Request.vector element count).Made context type later) :
    ∃ inner : ElementType, type.form = .vector inner count ∧ inner.StandsFor element := by
  cases made with
  | simpleVector interns => exact ⟨_, interns.isForm, .simple _⟩
  | integerVector _ interns => exact ⟨_, interns.isForm, .integer _ _ _ _⟩

end Request.Made

theorem ElementType.StandsFor.name_eq {inner : ElementType} {element : ValueType}
    (stands : inner.StandsFor element) : inner.name = element.name := by
  cases stands with
  | simple type => rfl
  | integer id bits owner other => rfl

/-! ### What the enumeration describes -/

/-- The element of a vector is what an entry describes, whether it refers to the entry or not. -/
inductive ElementType.Describes : ElementType → SimpleType → Prop
  | simple (entry : SimpleType) : Describes (.simple entry) entry
  | integer {id bits : Nat} {entry : SimpleType} (form : entry.form = .integer bits) :
      Describes (.integer id bits) entry

/-- The form is the one that an entry has. -/
inductive ExtendedForm.Describes : ExtendedForm → SimpleType → Prop
  | integer {bits : Nat} {entry : SimpleType} (form : entry.form = .integer bits) :
      Describes (.integer bits) entry
  | vector {element : ElementType} {inner entry : SimpleType} {count : Nat}
      (describes : element.Describes inner) (form : entry.form = .vector inner count) :
      Describes (.vector element count) entry

theorem SimpleType.integer?_ne_none {entry : SimpleType} {bits : Nat}
    (form : entry.form = .integer bits) : integer? bits ≠ none := by
  have entries : ∀ entry ∈ all, entry.isScalarInteger = true → entry ∈ integers := by decide
  have listed : entry ∈ integers := by
    apply entries entry entry.mem_all
    rw [isScalarInteger, form]
  intro missing
  have other := List.find?_eq_none.mp missing entry listed
  simp [bits?, form] at other

theorem SimpleType.vector?_ne_none {entry inner : SimpleType} {count : Nat}
    (form : entry.form = .vector inner count) : vector? inner count ≠ none := by
  intro missing
  have other := List.find?_eq_none.mp missing entry entry.mem_all
  simp [form] at other

namespace ValueType

/-- An extended type that is canonical is not what an entry describes. -/
theorem Canonical.not_describes {type : ExtendedType} (canonical : (extended type).Canonical)
    (entry : SimpleType) : ¬ type.form.Describes entry := by
  intro describes
  cases canonical with
  | integer positive bounded isNew =>
      cases describes with
      | integer form => exact SimpleType.integer?_ne_none form isNew
  | vector element inhabited fits isNew =>
      cases describes with
      | vector elementDescribes form =>
          cases elementDescribes with
          | simple => exact SimpleType.vector?_ne_none form (isNew _ rfl)
          | integer elementForm =>
              cases element with
              | integer _ _ elementNew => exact SimpleType.integer?_ne_none elementForm elementNew

/-! ### Types that are known by their names -/

/-- The type is canonical, the context has it if it is extended, and reading its name gives the type
again. The last holds in whatever the context grows to, and nothing is made by it. -/
structure Named (context : TypeContext) (type : ValueType) : Prop where
  canonical : type.Canonical
  stands : ∀ object, type = .extended object → object.Stands context
  readsBack : ∀ later, context.Grows later →
    (ofChars type.name.toList).run later = .ok (some type) later

theorem Named.grow {context later : TypeContext} {type : ValueType} (named : Named context type)
    (grows : context.Grows later) : Named later type where
  canonical := named.canonical
  stands object isObject := (named.stands object isObject).grow grows
  readsBack final more := named.readsBack final (grows.trans more)

theorem named_simple (context : TypeContext) (entry : SimpleType) :
    Named context (.simple entry) where
  canonical := .simple entry
  stands object isObject := by cases isObject
  readsBack later _ := ofChars_simple entry later

theorem named_of_integer {bits : Nat} {context later : TypeContext} {type : ValueType}
    (made : (integer bits).run context = .ok type later) : Named later type := by
  have again := (integer_repeatable bits context type later made).2
  have canonical := canonical_of_integer made
  unfold integer at made
  split at made
  · cases made
    exact named_simple _ _
  · rename_i isNew
    obtain ⟨object, _, granted, result⟩ := run_bind_eq_ok.mp made
    cases result
    obtain ⟨valid, objectMade⟩ := ((Request.integer bits).ask_ends context).of_ok granted
    constructor
    · exact canonical
    · intro other same
      cases same
      exact objectMade.stands
    · intro final grows
      obtain ⟨owner, id, form⟩ := object
      obtain ⟨rfl, _⟩ := TypeContext.form_of_integerType granted
      rw [toList_name_integer, ofChars_integer valid.1 valid.2 isNew]
      exact run_bind_eq_ok.mpr ⟨_, final, again final grows, rfl⟩

/-- A vector of a type that is known by its name is known by its own name. -/
theorem named_of_vector {element : ValueType} {count : Nat} {context later : TypeContext}
    {type : ValueType} (named : Named context element)
    (made : (vector element count).run context = .ok type later) : Named later type := by
  obtain ⟨grows, again⟩ := vector_repeatable element count context type later made
  have canonical := canonical_of_vector named.canonical made
  unfold vector at made
  split at made
  · cases made
    exact named_simple _ _
  · obtain ⟨object, _, granted, result⟩ := run_bind_eq_ok.mp made
    cases result
    obtain ⟨_, objectMade⟩ := ((Request.vector element count).ask_ends context).of_ok granted
    constructor
    · exact canonical
    · intro other same
      cases same
      exact objectMade.stands
    · intro final more
      obtain ⟨inner, isVector, standsFor⟩ := objectMade.exists_element
      obtain ⟨owner, id, form⟩ := object
      cases isVector
      cases canonical with
      | vector innerCanonical inhabited fits isNew =>
          have elementRead := named.readsBack final (grows.trans more)
          rw [← standsFor.name_eq] at elementRead
          rw [toList_name_vector,
            run_ofChars_vector innerCanonical inhabited fits isNew standsFor elementRead]
          exact run_bind_eq_ok.mpr ⟨_, final, again final more, rfl⟩

/-- What was read is known by its name, however the text spelled it. -/
theorem named_of_ofChars {text : List Char} {context later : TypeContext} {type : ValueType}
    (read : (ofChars text).run context = .ok (some type) later) : Named later type := by
  apply ofChars_induction (motive := fun _ type later => Named later type) _ _ _ read
  · exact named_simple
  · exact fun _ _ _ _ made => named_of_integer made
  · exact fun _ _ _ _ _ _ named made => named_of_vector named made

end ValueType

/-! ### Any number of calls -/

/-- A call that can make types in a context. -/
inductive TypeCall where
  /-- Reading a name. -/
  | read (name : String)
  /-- The integer of a width. -/
  | integer (bits : Nat)
  /-- The vector of some elements. -/
  | vector (element : ValueType) (count : Nat)
  /-- The floating-point entry of a width. -/
  | float (bits : Nat)
  /-- A request to the context itself, which does not look at the enumeration. -/
  | ask (request : Request)

namespace TypeCall

/-- The type that a call gives, if it gives one. What a request gives is not handed on: it may be an
extended type that describes an entry. -/
def answer : TypeCall → Interning (Option ValueType)
  | .read name => ValueType.ofName name
  | .integer bits => do return some (← ValueType.integer bits)
  | .vector element count => do return some (← ValueType.vector element count)
  | .float bits => do return some (.simple (← SimpleType.floatingPoint bits))
  | .ask request => do
    let _ ← request.ask
    return none

/-- The elements of vectors were given by earlier calls. -/
def Known (call : TypeCall) (types : List ValueType) : Prop :=
  match call with
  | .vector element _ => element ∈ types
  | _ => True

theorem ask_repeatable (request : Request) : Repeatable request.ask := by
  cases request with
  | integer bits => exact TypeContext.integerType_repeatable bits
  | vector element count => exact TypeContext.vectorType_repeatable element count

/-- A call lets the context grow, and leaves it as it is if it is refused. -/
theorem answer_ends (call : TypeCall) (context : TypeContext) :
    Ends (fun _ later => context.Grows later) (fun _ later => later = context)
      (call.answer.run context) := by
  have asked : ∀ request : Request,
      Ends (fun _ later => context.Grows later) (fun _ later => later = context)
        (request.ask.run context) := by
    intro request
    apply (request.ask_ends context).with_run.mono
    · exact fun object later granted => (ask_repeatable request _ _ _ granted.1).1
    · exact fun _ _ refused => refused.2
  cases call with
  | read name =>
      apply (ValueType.ofChars_answers name.toList context).with_run.mono
      · exact fun type later read => (ValueType.ofChars_repeatable _ _ _ _ read.1).1
      · exact fun _ _ impossible => impossible.elim
  | integer bits =>
      have made : Ends (fun _ later => context.Grows later) (fun _ later => later = context)
          ((ValueType.integer bits).run context) := by
        unfold ValueType.integer
        split
        · exact .refl context
        · exact .bind (asked (.integer bits)) fun _ _ grows => grows
      exact .bind made fun _ _ grows => grows
  | vector element count =>
      have made : Ends (fun _ later => context.Grows later) (fun _ later => later = context)
          ((ValueType.vector element count).run context) := by
        unfold ValueType.vector
        split
        · exact .refl context
        · exact .bind (asked (.vector element count)) fun _ _ grows => grows
      exact .bind made fun _ _ grows => grows
  | float bits =>
      have answered : Ends (fun _ later => context.Grows later) (fun _ later => later = context)
          ((liftM (SimpleType.floatingPoint bits) : Interning SimpleType).run context) := by
        apply Ends.liftM.mono
        · exact fun _ _ answered => answered.2 ▸ .refl context
        · exact fun _ _ refused => refused.2
      exact .bind answered fun _ _ grows => grows
  | ask request => exact .bind (asked request) fun _ _ grows => grows

/-- What a call gives is known by its name, if the element of a vector is. -/
theorem named_of_answer {call : TypeCall} {types : List ValueType} {context later : TypeContext}
    {type : ValueType} (named : ∀ type ∈ types, ValueType.Named context type)
    (known : call.Known types) (answered : call.answer.run context = .ok (some type) later) :
    ValueType.Named later type := by
  cases call with
  | read name => exact ValueType.named_of_ofChars answered
  | integer bits =>
      obtain ⟨_, _, made, result⟩ := run_bind_eq_ok.mp answered
      cases result
      exact ValueType.named_of_integer made
  | vector element count =>
      obtain ⟨_, _, made, result⟩ := run_bind_eq_ok.mp answered
      cases result
      exact ValueType.named_of_vector (named element known) made
  | float bits =>
      obtain ⟨entry, _, _, result⟩ := run_bind_eq_ok.mp answered
      cases result
      exact ValueType.named_simple _ entry
  | ask request =>
      obtain ⟨_, _, _, result⟩ := run_bind_eq_ok.mp answered
      cases result

end TypeCall

/-- Calls on one context, one after another, with the types that they gave. The context may have
been used in any way before. -/
inductive Built (start : TypeContext) : TypeContext → List ValueType → Prop
  | start : Built start start []
  | answered {context later : TypeContext} {types : List ValueType} {answer : Option ValueType}
      (built : Built start context types) (call : TypeCall) (known : call.Known types)
      (answered : call.answer.run context = .ok answer later) :
      Built start later (answer.toList ++ types)
  | refused {context later : TypeContext} {types : List ValueType} {cause : Fault}
      (built : Built start context types) (call : TypeCall) (known : call.Known types)
      (refused : call.answer.run context = .error cause later) : Built start later types

theorem Built.named {start context : TypeContext} {types : List ValueType}
    (built : Built start context types) : ∀ type ∈ types, ValueType.Named context type := by
  induction built with
  | start =>
      intro type member
      cases member
  | @answered context later types answer built call known answered inductionHypothesis =>
      have grows := (call.answer_ends context).of_ok answered
      intro type member
      rcases List.mem_append.mp member with new | old
      · rw [Option.mem_toList] at new
        cases new
        exact TypeCall.named_of_answer inductionHypothesis known answered
      · exact (inductionHypothesis type old).grow grows
  | @refused context later types cause built call known refused inductionHypothesis =>
      rw [(call.answer_ends context).of_error refused]
      exact inductionHypothesis

/-- Types and names correspond. In a context of any history, every text is read as a type or found
to be none, and whatever the context had it still has. Each of the types that were given is still
there, is what reading its name gives, without anything new being made, and is the only one of them
with that name; and none that is extended has the form of an entry of the enumeration. -/
theorem names_identify_types {start context : TypeContext} {types : List ValueType}
    (built : Built start context types) :
    (∀ name : String, ∃ answer later, (ValueType.ofName name).run context = .ok answer later ∧
      ∀ object : ExtendedType, object.Stands context → object.Stands later) ∧
    (∀ type ∈ types, (ValueType.ofName type.name).run context = .ok (some type) context) ∧
    (∀ type ∈ types, ∀ other ∈ types, type.name = other.name ↔ type = other) ∧
    ∀ object : ExtendedType, .extended object ∈ types →
      object.Stands context ∧ ∀ entry : SimpleType, ¬ object.form.Describes entry := by
  have named := built.named
  have readsBack : ∀ type ∈ types,
      (ValueType.ofName type.name).run context = .ok (some type) context :=
    fun type member => (named type member).readsBack context (.refl context)
  refine ⟨?_, readsBack, ?_, ?_⟩
  · intro name
    obtain ⟨answer, later, read, _⟩ := (ValueType.ofChars_answers name.toList context).exists_ok
    have grows := (ValueType.ofChars_repeatable _ _ _ _ read).1
    exact ⟨answer, later, read, fun object stands => stands.grow grows⟩
  · intro type member other otherMember
    constructor
    · intro sameName
      have read := readsBack type member
      rw [sameName, readsBack other otherMember] at read
      cases read
      rfl
    · exact fun same => congrArg ValueType.name same
  · intro object member
    have objectNamed := named _ member
    exact ⟨objectNamed.stands object rfl, objectNamed.canonical.not_describes⟩

/-- The vector of three integers of 17 bits, in a context that was asked for an integer of 8 bits
before. -/
def threeIntegers : ValueType := .extended ⟨0, 2, .vector (.integer 1 17) 3⟩

/-- The context that was asked for the integer of 8 bits. -/
def byteContext : TypeContext :=
  (TypeContext.new 0).after (TypeContext.integerType 8)

/-- The context that has the vector. -/
def threeIntegersContext : TypeContext :=
  byteContext.after (TypeContext.vectorType (.extended ⟨0, 0, .integer 17⟩) 3)

theorem reads_threeIntegers :
    Ends (fun answer later => answer = some threeIntegers ∧ later = threeIntegersContext)
      (fun _ _ => False) ((TypeCall.read "v03i+17").answer.run byteContext) := by
  decide +kernel

/-- A vector that was read from another spelling is the one made of its element. The entry `i8` is
read as such, although the context has an extended integer of its width. -/
theorem names_threeIntegers :
    ∃ types, Built {} threeIntegersContext types ∧ threeIntegers ∈ types ∧
      (ValueType.ofName "v3i17").run threeIntegersContext =
        .ok (some threeIntegers) threeIntegersContext ∧
      (ValueType.ofName "i8").run threeIntegersContext =
        .ok (some (.simple .i8)) threeIntegersContext ∧
      ∀ type ∈ types, type.name = "v3i17" → type = threeIntegers := by
  have grants : (TypeCall.ask (.integer 8)).answer.run {} = .ok none byteContext := rfl
  obtain ⟨_, _, reads, rfl, rfl⟩ := reads_threeIntegers.exists_ok
  have asked : Built {} byteContext [] :=
    .answered .start (.ask (.integer 8)) trivial grants
  have read : Built {} threeIntegersContext [threeIntegers] :=
    .answered asked (.read "v03i+17") trivial reads
  have element : Built {} threeIntegersContext [.extended ⟨0, 1, .integer 17⟩, threeIntegers] :=
    .answered read (.integer 17) trivial rfl
  have vector : Built {} threeIntegersContext
      [threeIntegers, .extended ⟨0, 1, .integer 17⟩, threeIntegers] :=
    .answered element (.vector (.extended ⟨0, 1, .integer 17⟩) 3) List.mem_cons_self rfl
  have entry : Built {} threeIntegersContext
      [.simple .i8, threeIntegers, .extended ⟨0, 1, .integer 17⟩, threeIntegers] :=
    .answered vector (.integer 8) trivial rfl
  obtain ⟨_, readsBack, sameName, _⟩ := names_identify_types entry
  have member : threeIntegers ∈
      [.simple .i8, threeIntegers, .extended ⟨0, 1, .integer 17⟩, threeIntegers] := by simp
  refine ⟨_, entry, member, readsBack _ member, readsBack (.simple .i8) List.mem_cons_self, ?_⟩
  intro type listed name
  exact (sameName type listed _ member).mp name

end DagSelect
