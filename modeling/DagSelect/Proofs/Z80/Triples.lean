/-
Module: DagSelect.Proofs.Z80.Triples
Purpose: Names of systems as text and as triples. A text is read exactly if a family stands before
  its first hyphen. What was read is written in a form that is read as the same triple, and that
  form is the text itself unless parts are missing or the text ends after its third hyphen.
Main exports: Triple.ReadFrom, Triple.read_eq_ok_iff, Triple.parts, Triple.toList_render,
  Triple.SingleParts, Triple.SingleParts.read_render, Triple.ReadFrom.render_eq_iff,
  triples_round_trip
-/
import DagSelect.Proofs.Text
import DagSelect.Z80.Triple

namespace DagSelect.Z80

namespace Arch

theorem ofName?_eq_some_iff {text : String} {arch : Arch} :
    ofName? text = some arch ↔ arch.name = text := by
  constructor
  · intro found
    unfold ofName? at found
    exact beq_iff_eq.mp (List.find?_some found :)
  · rintro rfl
    cases arch <;> decide

theorem name_injective {arch other : Arch} (same : arch.name = other.name) : arch = other := by
  have found := ofName?_eq_some_iff.mpr same
  rw [ofName?_eq_some_iff.mpr rfl] at found
  exact (Option.some.inj found).symm

end Arch

namespace Triple

variable {text : String} {triple other : Triple} {pieces : List (List Char)}

/-! ### Reading -/

/-- A triple holds what the pieces of a text say, and the defaults where pieces are missing. -/
structure ReadFrom (triple : Triple) (pieces : List (List Char)) : Prop where
  family : pieces.head? = some triple.arch.name.toList
  vendor : triple.vendor.toList = pieces[1]?.getD "unknown".toList
  os : triple.os.toList = pieces[2]?.getD "unknown".toList
  environment : triple.environment.toList = ['-'].intercalate (pieces.drop 3)

/-- The pieces of a text determine the triple. -/
theorem ReadFrom.unique (reading : triple.ReadFrom pieces) (otherReading : other.ReadFrom pieces) :
    triple = other := by
  have arch : triple.arch = other.arch := by
    have names : triple.arch.name.toList = other.arch.name.toList :=
      Option.some.inj (reading.family.symm.trans otherReading.family)
    exact Arch.name_injective (String.toList_inj.mp names)
  have vendor := String.toList_inj.mp (reading.vendor.trans otherReading.vendor.symm)
  have os := String.toList_inj.mp (reading.os.trans otherReading.os.symm)
  have environment :=
    String.toList_inj.mp (reading.environment.trans otherReading.environment.symm)
  cases triple
  cases other
  simp only [Triple.mk.injEq]
  exact ⟨arch, vendor, os, environment⟩

/-- The family is looked up by the first piece. -/
theorem ofName?_headD_eq_some_iff {arch : Arch} :
    Arch.ofName? (((Text.fields '-' text.toList).map String.ofList).headD "") = some arch ↔
      (text.toList.splitOn '-').head? = some arch.name.toList := by
  rw [Arch.ofName?_eq_some_iff, Text.fields_eq_splitOn, List.headD_eq_head?_getD, List.head?_map,
    Text.head?_splitOn, Option.map_some, Option.getD_some, Option.some.injEq, ← String.toList_inj,
    String.toList_ofList]
  exact eq_comm

theorem toList_getD_map (part : Option (List Char)) (default : String) :
    ((part.map String.ofList).getD default).toList = part.getD default.toList := by
  cases part with
  | none => rfl
  | some part => exact String.toList_ofList

/-- A text whose first piece is a family is read, from all its pieces. -/
theorem exists_read {arch : Arch}
    (family : (text.toList.splitOn '-').head? = some arch.name.toList) :
    ∃ triple, read text = .ok triple ∧ triple.ReadFrom (text.toList.splitOn '-') := by
  unfold read
  simp only [ofName?_headD_eq_some_iff.mpr family]
  rw [Text.fields_eq_splitOn]
  refine ⟨_, rfl, family, ?_, ?_, ?_⟩
  · simp only [List.getElem?_map, toList_getD_map]
  · simp only [List.getElem?_map, toList_getD_map]
  · simp [String.toList_intercalate, Function.comp_def]

/-- Reading gives the triple that holds what the pieces of the text say, if there is one. -/
theorem read_eq_ok_iff : read text = .ok triple ↔ triple.ReadFrom (text.toList.splitOn '-') := by
  constructor
  · intro reads
    cases found : Arch.ofName? (((Text.fields '-' text.toList).map String.ofList).headD "") with
    | none =>
        simp only [read, found] at reads
        cases reads
    | some arch =>
        obtain ⟨other, otherReads, reading⟩ := exists_read (ofName?_headD_eq_some_iff.mp found)
        rw [reads] at otherReads
        exact Except.ok.inj otherReads ▸ reading
  · intro reading
    obtain ⟨other, reads, otherReading⟩ := exists_read reading.family
    rw [reads, reading.unique otherReading]

theorem exists_read_iff :
    (∃ triple, read text = .ok triple) ↔
      ∃ arch : Arch, text.toList.takeWhile (· != '-') = arch.name.toList := by
  constructor
  · rintro ⟨triple, reads⟩
    have family := (read_eq_ok_iff.mp reads).family
    rw [Text.head?_splitOn] at family
    exact ⟨triple.arch, Option.some.inj family⟩
  · rintro ⟨arch, first⟩
    have family : (text.toList.splitOn '-').head? = some arch.name.toList := by
      rw [Text.head?_splitOn, first]
    obtain ⟨triple, reads, _⟩ := exists_read family
    exact ⟨triple, reads⟩

/-! ### Writing -/

/-- The parts of the written form of a triple. -/
def parts (triple : Triple) : List (List Char) :=
  triple.arch.name.toList :: triple.vendor.toList :: triple.os.toList ::
    if triple.environment.isEmpty then [] else triple.environment.toList.splitOn '-'

theorem toList_render (triple : Triple) :
    triple.render.toList = ['-'].intercalate triple.parts := by
  unfold render parts
  simp only
  by_cases none : triple.environment.isEmpty = true
  · rw [if_pos none, if_pos none]
    simp [List.intercalate_cons_cons]
  · rw [if_neg none, if_neg none, List.intercalate_cons_cons, List.intercalate_cons_cons,
      List.intercalate_cons_of_ne_nil (List.splitOn_ne_nil '-' _), List.intercalate_splitOn]
    simp

/-- A triple holds what its own parts say. -/
theorem readFrom_parts (triple : Triple) : triple.ReadFrom triple.parts where
  family := rfl
  vendor := rfl
  os := rfl
  environment := by
    simp only [parts, List.drop_succ_cons, List.drop_zero]
    split
    · rename_i none
      rw [String.isEmpty_iff.mp none]
      rfl
    · exact (List.intercalate_splitOn '-').symm

/-- The vendor and the operating system are one part each, as they are in a triple that was read. The
environment may be several. -/
structure SingleParts (triple : Triple) : Prop where
  vendor : '-' ∉ triple.vendor.toList
  os : '-' ∉ triple.os.toList

theorem SingleParts.not_mem_of_mem_parts (single : triple.SingleParts) {part : List Char}
    (member : part ∈ triple.parts) : '-' ∉ part := by
  unfold parts at member
  rcases List.mem_cons.mp member with rfl | member
  · cases triple.arch <;> decide
  rcases List.mem_cons.mp member with rfl | member
  · exact single.vendor
  rcases List.mem_cons.mp member with rfl | member
  · exact single.os
  split at member
  · cases member
  · exact Text.not_mem_of_mem_splitOn member

theorem SingleParts.splitOn_render (single : triple.SingleParts) :
    triple.render.toList.splitOn '-' = triple.parts := by
  rw [toList_render]
  exact List.splitOn_intercalate '-' (fun _ => single.not_mem_of_mem_parts) (List.cons_ne_nil _ _)

/-- A triple is read back from its written form. -/
theorem SingleParts.read_render (single : triple.SingleParts) :
    read triple.render = .ok triple := by
  rw [read_eq_ok_iff, single.splitOn_render]
  exact triple.readFrom_parts

/-! ### Writing what was read -/

theorem not_mem_getD (absent : ∀ part ∈ pieces, '-' ∉ part) (position : Nat) :
    '-' ∉ pieces[position]?.getD "unknown".toList := by
  cases found : pieces[position]? with
  | none => decide
  | some part => exact absent part (List.mem_of_getElem? found)

theorem ReadFrom.singleParts (reading : triple.ReadFrom pieces)
    (absent : ∀ part ∈ pieces, '-' ∉ part) : triple.SingleParts where
  vendor := reading.vendor ▸ not_mem_getD absent 1
  os := reading.os ▸ not_mem_getD absent 2

/-- The pieces after the third come back, unless there is one only and it is empty. -/
theorem ReadFrom.parts_eq {first second third : List Char} {more : List (List Char)}
    (reading : triple.ReadFrom (first :: second :: third :: more))
    (absent : ∀ part ∈ more, '-' ∉ part) :
    triple.parts = first :: second :: third :: if more = [[]] then [] else more := by
  have family : triple.arch.name.toList = first := (Option.some.inj reading.family).symm
  have vendor : triple.vendor.toList = second := reading.vendor
  have os : triple.os.toList = third := reading.os
  have environment : triple.environment.toList = ['-'].intercalate more := reading.environment
  have empty : triple.environment.isEmpty = true ↔ more = [] ∨ more = [[]] := by
    rw [String.isEmpty_iff, ← String.toList_inj, environment]
    exact Text.intercalate_eq_nil_iff
  rw [parts, family, vendor, os]
  -- No piece and one empty piece make the same environment, and it is not written.
  by_cases short : more = [] ∨ more = [[]]
  · rw [if_pos (empty.mpr short)]
    rcases short with rfl | rfl <;> rfl
  · obtain ⟨nonempty, notBlank⟩ := not_or.mp short
    rw [if_neg (mt empty.mp short), environment, List.splitOn_intercalate '-' absent nonempty,
      if_neg notBlank]

theorem ReadFrom.parts_eq_iff (reading : triple.ReadFrom pieces)
    (absent : ∀ part ∈ pieces, '-' ∉ part) :
    triple.parts = pieces ↔
      3 ≤ pieces.length ∧ ¬ (pieces.length = 4 ∧ pieces[3]? = some []) := by
  match pieces with
  | [] | [_] | [_, _] => simp [parts]
  | first :: second :: third :: more =>
      have rest : ∀ part ∈ more, '-' ∉ part := fun part member => absent part (by simp [member])
      rw [reading.parts_eq rest]
      match more with
      | [] => simp
      | [fourth] => by_cases blank : fourth = [] <;> simp [blank]
      | _ :: _ :: _ => simp

/-- The written form of what was read is the text exactly if the pieces of the text come back. -/
theorem ReadFrom.render_eq_iff (reading : triple.ReadFrom (text.toList.splitOn '-')) :
    triple.render = text ↔
      3 ≤ (text.toList.splitOn '-').length ∧
        ¬ ((text.toList.splitOn '-').length = 4 ∧ (text.toList.splitOn '-')[3]? = some []) := by
  have absent : ∀ part ∈ text.toList.splitOn '-', '-' ∉ part :=
    fun _ => Text.not_mem_of_mem_splitOn
  rw [← reading.parts_eq_iff absent, ← (reading.singleParts absent).splitOn_render,
    Text.splitOn_inj, String.toList_inj]

end Triple

/-- Names of systems go from text to triple and back. A text is read exactly if a family stands
before its first hyphen. The written form of the triple is read as the same triple, which has the
same written form. That form is the text itself exactly if the text has at least three parts, and
not four of which the last is empty. -/
theorem triples_round_trip (text : String) :
    ((∃ triple, Triple.read text = .ok triple) ↔
      text.toList.takeWhile (· != '-') ∈ ["z80".toList, "ez80".toList]) ∧
    ∀ triple, Triple.read text = .ok triple →
      (∃ again, Triple.read triple.render = .ok again ∧ again = triple ∧
        again.render = triple.render) ∧
      (triple.render = text ↔
        3 ≤ (text.toList.splitOn '-').length ∧
          ¬ ((text.toList.splitOn '-').length = 4 ∧
            (text.toList.splitOn '-')[3]? = some [])) := by
  constructor
  · rw [Triple.exists_read_iff]
    constructor
    · rintro ⟨arch, first⟩
      rw [first]
      cases arch <;> decide
    · intro first
      rcases List.mem_pair.mp first with plain | extended
      · exact ⟨.z80, plain⟩
      · exact ⟨.ez80, extended⟩
  · intro triple reads
    have reading := Triple.read_eq_ok_iff.mp reads
    have single := reading.singleParts fun _ => Text.not_mem_of_mem_splitOn
    exact ⟨⟨triple, single.read_render, rfl, rfl⟩, reading.render_eq_iff⟩

/-- Doubled hyphens are kept, also at the end, where they make an environment of a hyphen. -/
theorem round_trip_doubledHyphens :
    Triple.read "ez80--elf--" = .ok ⟨.ez80, "", "elf", "-"⟩ ∧
      Triple.read (Triple.render ⟨.ez80, "", "elf", "-"⟩) = .ok ⟨.ez80, "", "elf", "-"⟩ ∧
      Triple.render ⟨.ez80, "", "elf", "-"⟩ = "ez80--elf--" := by
  have reads : Triple.read "ez80--elf--" = .ok ⟨.ez80, "", "elf", "-"⟩ := by cbv
  obtain ⟨⟨_, again, rfl, _⟩, same⟩ := (triples_round_trip _).2 _ reads
  exact ⟨reads, again, same.mpr (by decide)⟩

end DagSelect.Z80
