/-
Module: DagSelect.ValueType.Registry
Purpose: The store of extended types. Objects are kept in the order in which they were made, each
  with the number that a counter gave it, and two tables find them again: integers by their width,
  vectors by the key of their element and their count. A vector of extended integers refers to the
  integer of its own registry, which is found or made by the width. The tables and the counter fit
  the objects whenever an operation is over.
Main exports: ElementKey, TypeKey, ExtendedForm.key, Registry, Registry.alloc,
  Registry.internInteger, Registry.internVector, Registry.find?, Registry.Registered, Registry.Adds
-/
import DagSelect.ValueType.Basic

namespace DagSelect

/-- What tells the elements of vectors apart: the number of an extended integer does not count. -/
inductive ElementKey where
  | simple (type : SimpleType)
  | integer (bits : Nat)
  deriving DecidableEq, Repr

/-- What tells the types of a registry apart. -/
inductive TypeKey where
  | integer (bits : Nat)
  | vector (element : ElementKey) (count : Nat)
  deriving DecidableEq, Repr

def ElementType.key : ElementType → ElementKey
  | .simple type => .simple type
  | .integer _ bits => .integer bits

def ExtendedForm.key : ExtendedForm → TypeKey
  | .integer bits => .integer bits
  | .vector element count => .vector element.key count

/-- What a table has with one more entry at its front. -/
theorem lookup_cons_eq_ite {α β : Type} [BEq α] [LawfulBEq α] [DecidableEq α] (key other : α)
    (entry : β) (table : List (α × β)) :
    ((other, entry) :: table).lookup key =
      if key = other then some entry else table.lookup key := by
  rw [List.lookup_cons]
  by_cases same : key = other
  · simp [same]
  · simp [same, beq_eq_false_iff_ne.mpr same]

/-- The extended types made so far. The number `owner` tells the types of this registry from those
of another. -/
structure Registry where
  owner : Nat := 0
  /-- The objects, in the order in which they were made. -/
  arena : List ExtendedType := []
  /-- The integers by their widths. -/
  integers : List (Nat × ExtendedType) := []
  /-- The vectors by the keys of their elements and their counts. -/
  vectors : List ((ElementKey × Nat) × ExtendedType) := []
  /-- The number of the next object. -/
  nextId : Nat := 0
  deriving DecidableEq, Repr, Inhabited

namespace Registry

/-! ### Operations -/

/-- A new object. It is in no table yet. -/
def alloc (registry : Registry) (form : ExtendedForm) : ExtendedType × Registry :=
  let type : ExtendedType := ⟨registry.owner, registry.nextId, form⟩
  (type, { registry with arena := registry.arena ++ [type], nextId := registry.nextId + 1 })

/-- The integer of a width: the one in the table, or a new one. -/
def internInteger (registry : Registry) (bits : Nat) : ExtendedType × Registry :=
  match registry.integers.lookup bits with
  | some type => (type, registry)
  | none =>
    let (type, registry) := registry.alloc (.integer bits)
    (type, { registry with integers := (bits, type) :: registry.integers })

/-- The element that a key stands for. An extended integer is that of the registry itself. -/
def internElement (registry : Registry) : ElementKey → ElementType × Registry
  | .simple type => (.simple type, registry)
  | .integer bits =>
    let (integer, registry) := registry.internInteger bits
    (.integer integer.id bits, registry)

/-- The vector of `count` elements: the one in the table, or a new one. -/
def internVector (registry : Registry) (key : ElementKey) (count : Nat) : ExtendedType × Registry :=
  match registry.vectors.lookup (key, count) with
  | some type => (type, registry)
  | none =>
    let (element, registry) := registry.internElement key
    let (type, registry) := registry.alloc (.vector element count)
    (type, { registry with vectors := ((key, count), type) :: registry.vectors })

/-- What the tables have under a key. -/
def find? (registry : Registry) : TypeKey → Option ExtendedType
  | .integer bits => registry.integers.lookup bits
  | .vector element count => registry.vectors.lookup (element, count)

/-! ### Tables and counter -/

/-- The counter and the tables fit the objects. The numbers of the objects are those below the
counter, in order. The tables find what is there and nothing else. The element of a vector of
extended integers is an object that was made before it. -/
structure Registered (registry : Registry) : Prop where
  numbered : registry.arena.map ExtendedType.id = List.range registry.nextId
  owned : ∀ type ∈ registry.arena, type.owner = registry.owner
  found : ∀ key type, registry.find? key = some type ↔ type ∈ registry.arena ∧ type.form.key = key
  element : ∀ type ∈ registry.arena, ∀ id bits count, type.form = .vector (.integer id bits) count →
    id < type.id ∧ ⟨registry.owner, id, .integer bits⟩ ∈ registry.arena

/-- One more object, which the tables have under its key. -/
structure Adds (registry : Registry) (form : ExtendedForm) (type : ExtendedType)
    (later : Registry) : Prop where
  isNew : registry.find? form.key = none
  object : type = ⟨registry.owner, registry.nextId, form⟩
  owner : later.owner = registry.owner
  arena : later.arena = registry.arena ++ [type]
  nextId : later.nextId = registry.nextId + 1
  find : ∀ key, later.find? key = if key = form.key then some type else registry.find? key

/-! ### What the operations do -/

section

variable {registry : Registry} {bits count : Nat} {key : ElementKey} {type : ExtendedType}

/-- An integer that is in the table is found there. -/
theorem internInteger_of_find? (known : registry.find? (.integer bits) = some type) :
    registry.internInteger bits = (type, registry) := by
  simp only [find?] at known
  simp only [internInteger, known]

/-- An integer that is not in the table is made and put there. -/
theorem adds_internInteger (isNew : registry.find? (.integer bits) = none) :
    registry.Adds (.integer bits) (registry.internInteger bits).1
      (registry.internInteger bits).2 := by
  have missing : registry.integers.lookup bits = none := isNew
  simp only [internInteger, missing]
  refine ⟨isNew, rfl, rfl, rfl, rfl, fun key => ?_⟩
  cases key with
  | integer other => simp [find?, alloc, ExtendedForm.key, lookup_cons_eq_ite]
  | vector element count => simp [find?, alloc, ExtendedForm.key]

/-- An integer that was handed out is in the table. -/
theorem find?_internInteger (registry : Registry) (bits : Nat) :
    (registry.internInteger bits).2.find? (.integer bits) =
      some (registry.internInteger bits).1 := by
  cases known : registry.find? (.integer bits) with
  | some type =>
      rw [internInteger_of_find? known]
      exact known
  | none =>
      rw [(adds_internInteger known).find]
      exact if_pos rfl

theorem key_internElement (registry : Registry) (key : ElementKey) :
    (registry.internElement key).1.key = key := by
  cases key with
  | simple type => rfl
  | integer bits => rfl

/-- Making an element makes no vector. -/
theorem vectors_internElement (registry : Registry) (key : ElementKey) :
    (registry.internElement key).2.vectors = registry.vectors := by
  cases key with
  | simple type => rfl
  | integer bits =>
      change (registry.internInteger bits).2.vectors = _
      unfold internInteger
      split
      · rfl
      · rfl

/-- A vector that is in the table is found there. -/
theorem internVector_of_find? (known : registry.find? (.vector key count) = some type) :
    registry.internVector key count = (type, registry) := by
  simp only [find?] at known
  simp only [internVector, known]

/-- A vector that is not in the table is made behind its element and put there. -/
theorem adds_internVector (isNew : registry.find? (.vector key count) = none) :
    (registry.internElement key).2.Adds (.vector (registry.internElement key).1 count)
      (registry.internVector key count).1 (registry.internVector key count).2 := by
  have missing : registry.vectors.lookup (key, count) = none := isNew
  have vectors := vectors_internElement registry key
  have sameKey := key_internElement registry key
  simp only [internVector, missing]
  refine ⟨?_, rfl, rfl, rfl, rfl, fun other => ?_⟩
  · rw [ExtendedForm.key, sameKey, find?, vectors, missing]
  · rw [ExtendedForm.key, sameKey]
    cases other with
    | integer bits => simp [find?, alloc]
    | vector element other => simp [find?, alloc, lookup_cons_eq_ite]

end

/-! ### The tables and the counter keep fitting -/

theorem registered_empty (owner : Nat) : Registered { owner := owner } where
  numbered := rfl
  owned _ member := by cases member
  found key type := by
    cases key with
    | integer bits => simp [find?]
    | vector element count => simp [find?]
  element _ member := by cases member

namespace Registered

variable {registry later : Registry} {form : ExtendedForm} {type : ExtendedType}

theorem id_lt (registered : registry.Registered) (member : type ∈ registry.arena) :
    type.id < registry.nextId := by
  have listed : type.id ∈ registry.arena.map ExtendedType.id := List.mem_map_of_mem member
  rw [registered.numbered] at listed
  exact List.mem_range.mp listed

/-- One more object keeps everything fitting, if its element is there. -/
theorem add (registered : registry.Registered) (adds : registry.Adds form type later)
    (element : ∀ id bits count, form = .vector (.integer id bits) count →
      ⟨registry.owner, id, .integer bits⟩ ∈ registry.arena) : later.Registered := by
  obtain ⟨isNew, rfl, owner, arena, nextId, find⟩ := adds
  have oldOrNew : ∀ {other}, other ∈ later.arena →
      other ∈ registry.arena ∨ other = ⟨registry.owner, registry.nextId, form⟩ := by
    intro other member
    rw [arena, List.mem_append, List.mem_singleton] at member
    exact member
  have kept : ∀ {other}, other ∈ registry.arena → other ∈ later.arena := by
    intro other member
    rw [arena]
    exact List.mem_append_left _ member
  constructor
  · rw [arena, nextId, List.map_append, registered.numbered, List.range_succ]
    rfl
  · intro other member
    rw [owner]
    rcases oldOrNew member with old | rfl
    · exact registered.owned other old
    · rfl
  · intro key other
    rw [find]
    split
    · rename_i same
      subst same
      constructor
      · rintro ⟨⟩
        rw [arena]
        exact ⟨List.mem_append_right _ List.mem_cons_self, rfl⟩
      · rintro ⟨member, sameKey⟩
        rcases oldOrNew member with old | rfl
        · -- The tables would have had the old object already.
          rw [(registered.found _ other).mpr ⟨old, sameKey⟩] at isNew
          cases isNew
        · rfl
    · rename_i different
      rw [registered.found]
      constructor
      · exact fun known => ⟨kept known.1, known.2⟩
      · rintro ⟨member, sameKey⟩
        rcases oldOrNew member with old | rfl
        · exact ⟨old, sameKey⟩
        · exact absurd sameKey.symm different
  · intro other member id bits count isVector
    rw [owner]
    rcases oldOrNew member with old | rfl
    · obtain ⟨earlier, there⟩ := registered.element other old id bits count isVector
      exact ⟨earlier, kept there⟩
    · have there := element id bits count isVector
      exact ⟨registered.id_lt there, kept there⟩

/-- What the tables find under a width is the integer of that width. -/
theorem eq_of_find?_integer (registered : registry.Registered) {bits : Nat}
    (known : registry.find? (.integer bits) = some type) :
    type = ⟨registry.owner, type.id, .integer bits⟩ := by
  obtain ⟨there, sameKey⟩ := (registered.found _ _).mp known
  obtain ⟨owner, id, form⟩ := type
  cases registered.owned _ there
  cases form with
  | integer other =>
      cases sameKey
      rfl
  | vector element count => cases sameKey

theorem internInteger (registered : registry.Registered) (bits : Nat) :
    (registry.internInteger bits).2.Registered := by
  cases known : registry.find? (.integer bits) with
  | some type =>
      rw [internInteger_of_find? known]
      exact registered
  | none =>
      refine registered.add (adds_internInteger known) ?_
      rintro _ _ _ ⟨⟩

theorem internElement (registered : registry.Registered) (key : ElementKey) :
    (registry.internElement key).2.Registered := by
  cases key with
  | simple type => exact registered
  | integer bits => exact registered.internInteger bits

theorem internVector (registered : registry.Registered) (key : ElementKey) (count : Nat) :
    (registry.internVector key count).2.Registered := by
  cases known : registry.find? (.vector key count) with
  | some type =>
      rw [internVector_of_find? known]
      exact registered
  | none =>
      refine (registered.internElement key).add (adds_internVector known) ?_
      intro id bits other isVector
      cases key with
      | simple type => cases isVector
      | integer bits =>
          -- The element was found or made just before.
          cases isVector
          have elementKnown := registry.find?_internInteger bits
          have elementRegistered := registered.internInteger bits
          have there := ((elementRegistered.found _ _).mp elementKnown).1
          rw [elementRegistered.eq_of_find?_integer elementKnown] at there
          exact there

end Registered

end Registry

end DagSelect
