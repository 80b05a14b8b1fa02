/-
Module: DagSelect.Proofs.Registry
Purpose: What a registry does, seen as a list of forms that only grows. A form has the number of its
  position, and asking for a form that is already there gives the number it has. The tables are a
  way to find the position: an integer by its width, a vector by the key of its element and its
  count.
Main exports: TypeContext.Grows, TypeContext.after, TypeContext.mem_arena_iff, TypeContext.Interns,
  TypeContext.internInteger_ends, TypeContext.internVector_simple_ends,
  TypeContext.internVector_integer_ends
-/
import DagSelect.Proofs.Computation
import DagSelect.ValueType.Context

namespace DagSelect

/-! ### Keys -/

namespace ExtendedForm

variable {form : ExtendedForm} {bits count : Nat}

theorem key_eq_integer_iff : form.key = .integer bits ↔ form = .integer bits := by
  cases form with
  | integer other => simp [key]
  | vector element count => simp [key]

theorem key_eq_simpleVector_iff {type : SimpleType} :
    form.key = .vector (.simple type) count ↔ form = .vector (.simple type) count := by
  cases form with
  | integer bits => simp [key]
  | vector element count => cases element <;> simp [key, ElementType.key]

/-- The key of a vector of extended integers leaves the number of the integer open. -/
theorem key_eq_integerVector_iff :
    form.key = .vector (.integer bits) count ↔ ∃ id, form = .vector (.integer id bits) count := by
  cases form with
  | integer bits => simp [key]
  | vector element count => cases element <;> simp [key, ElementType.key]

end ExtendedForm

/-! ### Contexts grow -/

/-- The later context may have more types. -/
structure TypeContext.Grows (context later : TypeContext) : Prop where
  owner : later.owner = context.owner
  forms : context.forms <+: later.forms

namespace TypeContext.Grows

variable {context middle later : TypeContext}

theorem refl (context : TypeContext) : context.Grows context :=
  ⟨rfl, List.prefix_rfl⟩

theorem trans (first : context.Grows middle) (second : middle.Grows later) : context.Grows later :=
  ⟨second.owner.trans first.owner, first.forms.trans second.forms⟩

/-- A type keeps its number. -/
theorem getElem? (grows : context.Grows later) {id : Nat} {form : ExtendedForm}
    (there : context.forms[id]? = some form) : later.forms[id]? = some form := by
  obtain ⟨rest, same⟩ := grows.forms
  rw [← same, List.getElem?_append_left (List.getElem?_eq_some_iff.mp there).1, there]

end TypeContext.Grows

/-- The context that a computation leaves behind. -/
def TypeContext.after {α : Type} (context : TypeContext) (action : Interning α) : TypeContext :=
  match action.run context with
  | .ok _ later => later
  | .error _ later => later

namespace TypeContext

variable {context later : TypeContext} {type : ExtendedType} {form : ExtendedForm} {id : Nat}

/-! ### Objects and forms -/

/-- The counter counts the forms. -/
theorem length_forms (context : TypeContext) : context.forms.length = context.size := by
  have lengths := congrArg List.length context.registered.numbered
  rw [List.length_map, List.length_range] at lengths
  rw [forms, List.length_map, lengths, size]

/-- The objects are in the order of their numbers. -/
theorem id_of_getElem?_arena (there : context.arena[id]? = some type) : type.id = id := by
  have numbered : (context.arena.map ExtendedType.id)[id]? = some type.id := by
    rw [List.getElem?_map, there]
    rfl
  rw [context.registered.numbered] at numbered
  obtain ⟨_, same⟩ := List.getElem?_eq_some_iff.mp numbered
  rw [List.getElem_range] at same
  exact same.symm

/-- An object of a context is what the context has under its number. -/
theorem mem_arena_iff :
    type ∈ context.arena ↔
      type.owner = context.owner ∧ context.forms[type.id]? = some type.form := by
  constructor
  · intro member
    obtain ⟨position, there⟩ := List.getElem?_of_mem member
    rw [forms, List.getElem?_map, id_of_getElem?_arena there, there]
    exact ⟨context.registered.owned type member, rfl⟩
  · rintro ⟨owner, there⟩
    rw [forms, List.getElem?_map, Option.map_eq_some_iff] at there
    obtain ⟨object, there, sameForm⟩ := there
    have member := List.mem_of_getElem? there
    have sameId := id_of_getElem?_arena there
    have sameOwner := (context.registered.owned object member).trans owner.symm
    obtain ⟨_, _, _⟩ := object
    cases sameForm
    cases sameId
    cases sameOwner
    exact member

/-- The tables find what a context has. -/
theorem find?_of_getElem? (there : context.forms[id]? = some form) :
    context.find? form.key = some ⟨context.owner, id, form⟩ := by
  have member : (⟨context.owner, id, form⟩ : ExtendedType) ∈ context.arena :=
    mem_arena_iff.mpr ⟨rfl, there⟩
  exact (context.registered.found _ _).mpr ⟨member, rfl⟩

/-- What the tables find is there, under its key. -/
theorem getElem?_of_find? {key : TypeKey} (known : context.find? key = some type) :
    context.forms[type.id]? = some type.form ∧ type.form.key = key := by
  obtain ⟨member, sameKey⟩ := (context.registered.found key type).mp known
  exact ⟨(mem_arena_iff.mp member).2, sameKey⟩

/-- A context has one object under a key. -/
theorem eq_of_key_eq {other : Nat} {otherForm : ExtendedForm}
    (there : context.forms[id]? = some form) (otherThere : context.forms[other]? = some otherForm)
    (same : form.key = otherForm.key) : id = other ∧ form = otherForm := by
  have found := find?_of_getElem? there
  rw [same, find?_of_getElem? otherThere] at found
  cases found
  exact ⟨rfl, rfl⟩

/-! ### Lookup -/

/-- An integer that a context has is given again, and nothing is made. -/
theorem internInteger_of_getElem? {bits : Nat} (there : context.forms[id]? = some (.integer bits)) :
    (internInteger bits).run context = .ok ⟨context.owner, id, .integer bits⟩ context := by
  have known : context.toRegistry.find? (.integer bits) = some ⟨context.owner, id, .integer bits⟩ :=
    find?_of_getElem? there
  change internInteger bits context = _
  simp only [internInteger, Registry.internInteger_of_find? known]

/-- A vector that a context has is given again, and nothing is made. -/
theorem internVector_of_getElem? {element : ElementType} {count : Nat}
    (there : context.forms[id]? = some (.vector element count)) :
    (internVector element.key count).run context =
      .ok ⟨context.owner, id, .vector element count⟩ context := by
  have known : context.toRegistry.find? (.vector element.key count) =
      some ⟨context.owner, id, .vector element count⟩ := find?_of_getElem? there
  change internVector element.key count context = _
  simp only [internVector, Registry.internVector_of_find? known]

/-! ### The list of forms -/

/-- What asking for a form does to the list of forms: the form has the number of its position, and
is added only if it was not there. -/
structure Interns (context : TypeContext) (form : ExtendedForm) (type : ExtendedType)
    (later : TypeContext) : Prop where
  grows : context.Grows later
  owner : type.owner = context.owner
  isForm : type.form = form
  there : later.forms[type.id]? = some form
  added : later = context ∨ form ∉ context.forms ∧ later.forms = context.forms ++ [form]

namespace Interns

theorem of_getElem? (there : context.forms[id]? = some form) :
    context.Interns form ⟨context.owner, id, form⟩ context :=
  ⟨.refl context, rfl, rfl, there, Or.inl rfl⟩

theorem object_eq (interns : context.Interns form type later) :
    type = ⟨context.owner, type.id, form⟩ := by
  rw [← interns.owner, ← interns.isForm]

theorem of_adds (adds : context.toRegistry.Adds form type later.toRegistry) :
    context.Interns form type later := by
  have forms : later.forms = context.forms ++ [form] := by
    rw [TypeContext.forms, adds.arena, List.map_append, adds.object]
    rfl
  have member : type ∈ later.arena := by
    rw [adds.arena]
    exact List.mem_append_right _ List.mem_cons_self
  have isForm : type.form = form := by rw [adds.object]
  refine ⟨⟨adds.owner, ?_⟩, by rw [adds.object], isForm, ?_, Or.inr ⟨?_, forms⟩⟩
  · rw [forms]
    exact List.prefix_append _ _
  · rw [← isForm]
    exact (mem_arena_iff.mp member).2
  · intro known
    obtain ⟨position, there⟩ := List.getElem?_of_mem known
    have isNew := adds.isNew
    rw [find?_of_getElem? there] at isNew
    cases isNew

end Interns

/-- The integer of a width is asked for as a form. -/
theorem internInteger_ends (bits : Nat) (context : TypeContext) :
    Ends (fun type later => context.Interns (.integer bits) type later) (fun _ _ => False)
      ((internInteger bits).run context) := by
  cases known : context.find? (.integer bits) with
  | some type =>
      obtain ⟨there, sameKey⟩ := getElem?_of_find? known
      rw [ExtendedForm.key_eq_integer_iff.mp sameKey] at there
      rw [internInteger_of_getElem? there]
      exact .of_getElem? there
  | none => exact Interns.of_adds (Registry.adds_internInteger known)

/-- A vector of entries of the enumeration is asked for as a form. -/
theorem internVector_simple_ends (element : SimpleType) (count : Nat) (context : TypeContext) :
    Ends (fun type later => context.Interns (.vector (.simple element) count) type later)
      (fun _ _ => False) ((internVector (.simple element) count).run context) := by
  cases known : context.find? (.vector (.simple element) count) with
  | some type =>
      obtain ⟨there, sameKey⟩ := getElem?_of_find? known
      rw [ExtendedForm.key_eq_simpleVector_iff.mp sameKey] at there
      have found := internVector_of_getElem? there
      rw [ElementType.key] at found
      rw [found]
      exact .of_getElem? there
  | none => exact Interns.of_adds (Registry.adds_internVector known)

/-- A vector of extended integers is asked for as two forms, that of its element first. -/
theorem internVector_integer_ends (bits count : Nat) (context : TypeContext) :
    Ends
      (fun type later => ∃ integer middle, context.Interns (.integer bits) integer middle ∧
        middle.Interns (.vector (.integer integer.id bits) count) type later)
      (fun _ _ => False) ((internVector (.integer bits) count).run context) := by
  cases known : context.find? (.vector (.integer bits) count) with
  | some type =>
      obtain ⟨there, sameKey⟩ := getElem?_of_find? known
      obtain ⟨id, isForm⟩ := ExtendedForm.key_eq_integerVector_iff.mp sameKey
      have member := ((context.registered.found _ _).mp known).1
      have elementMember := (context.registered.element type member id bits count isForm).2
      have elementThere := (mem_arena_iff.mp elementMember).2
      rw [isForm] at there
      have found := internVector_of_getElem? there
      rw [ElementType.key] at found
      rw [found]
      exact ⟨_, context, .of_getElem? elementThere, .of_getElem? there⟩
  | none =>
      have element := internInteger_ends bits context
      exact ⟨_, _, element, Interns.of_adds (Registry.adds_internVector known)⟩

end TypeContext

end DagSelect
