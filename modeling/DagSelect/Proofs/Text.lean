/-
Module: DagSelect.Proofs.Text
Purpose: How the pieces of a text come back. Cutting, dividing into fields and dividing into lines
  each undo the joining of pieces that do not hold the separator; trimming undoes blanks around a
  text that begins and ends with something else; and a numeral is read back as its number.
Main exports: Text.cut?_eq_some_iff, Text.fields_eq_splitOn, Text.Tight, Text.map_trim_fields,
  Text.lines_append, Text.readNat?_toString, Text.readInt?_toString
-/
import DagSelect.Text.Basic
import DagSelect.Text.Numeral
import Mathlib.Data.List.Basic

namespace DagSelect.Text

variable {separator c : Char} {text piece rest : List Char}

/-! ### Dividing -/

/-- A cut is at the first separator. -/
theorem cut?_eq_some_iff {before after : List Char} :
    cut? separator text = some (before, after) ↔
      text = before ++ separator :: after ∧ separator ∉ before := by
  induction text generalizing before with
  | nil => simp [cut?]
  | cons head tail inductionHypothesis =>
      unfold cut?
      by_cases same : head = separator
      · rw [if_pos same]
        constructor
        · intro cut
          cases cut
          simp [same]
        · rintro ⟨split, absent⟩
          cases before with
          | nil =>
              obtain ⟨_, rfl⟩ := List.cons.inj split
              rfl
          | cons first before =>
              obtain ⟨rfl, _⟩ := List.cons.inj split
              simp [same] at absent
      · rw [if_neg same, Option.map_eq_some_iff]
        constructor
        · rintro ⟨⟨before', after'⟩, cut, parts⟩
          cases parts
          obtain ⟨split, absent⟩ := inductionHypothesis.mp cut
          exact ⟨by simp [split], by simp [absent, Ne.symm same]⟩
        · rintro ⟨split, absent⟩
          cases before with
          | nil => exact absurd (List.cons.inj split).1 same
          | cons first before =>
              obtain ⟨rfl, tailSplit⟩ := List.cons.inj split
              refine ⟨(before, after), inductionHypothesis.mpr ⟨tailSplit, ?_⟩, rfl⟩
              exact fun member => absent (List.mem_cons_of_mem _ member)

theorem cut?_eq_none (absent : separator ∉ text) : cut? separator text = none := by
  induction text with
  | nil => rfl
  | cons head tail inductionHypothesis =>
      obtain ⟨different, absent⟩ := not_or.mp (List.mem_cons.not.mp absent)
      rw [cut?, if_neg (Ne.symm different), inductionHypothesis absent]
      rfl

/-- The fields of a text are its pieces between the separators. -/
theorem fields_eq_splitOn (separator : Char) (text : List Char) :
    fields separator text = text.splitOn separator := by
  induction text with
  | nil => exact (List.splitOn_nil separator).symm
  | cons head tail inductionHypothesis =>
      rw [fields, List.splitOn_cons_eq_if_modifyHead, inductionHypothesis]
      by_cases same : head = separator
      · rw [if_pos same, if_pos (beq_iff_eq.mpr same)]
      · rw [if_neg same, if_neg (beq_iff_eq.not.mpr same)]
        cases divided : tail.splitOn separator with
        | nil => exact absurd divided (List.splitOn_ne_nil separator tail)
        | cons field more => rfl

theorem fields_ne_nil (separator : Char) (text : List Char) : fields separator text ≠ [] := by
  rw [fields_eq_splitOn]
  exact List.splitOn_ne_nil separator text

theorem fields_of_not_mem (absent : separator ∉ piece) : fields separator piece = [piece] := by
  rw [fields_eq_splitOn, List.splitOn_eq_singleton absent]

/-- The first field ends at the first separator. -/
theorem fields_append (absent : separator ∉ piece) :
    fields separator (piece ++ separator :: rest) = piece :: fields separator rest := by
  rw [fields_eq_splitOn, fields_eq_splitOn, List.splitOn_append_cons_self_of_not_mem absent]

theorem splitOn_inj {other : List Char} :
    text.splitOn separator = other.splitOn separator ↔ text = other := by
  constructor
  · intro same
    have joined := congrArg [separator].intercalate same
    rwa [List.intercalate_splitOn, List.intercalate_splitOn] at joined
  · exact congrArg _

theorem head?_splitOn (separator : Char) (text : List Char) :
    (text.splitOn separator).head? = some (text.takeWhile (· != separator)) := by
  induction text with
  | nil => rfl
  | cons head tail inductionHypothesis =>
      rw [List.splitOn_cons_eq_if_modifyHead, List.takeWhile_cons]
      by_cases same : head = separator
      · simp [same]
      · simp [same, List.head?_modifyHead, inductionHypothesis]

/-- No piece holds the separator. -/
theorem not_mem_of_mem_splitOn (member : piece ∈ text.splitOn separator) : separator ∉ piece := by
  induction text generalizing piece with
  | nil =>
      rw [List.splitOn_nil, List.mem_singleton] at member
      exact member ▸ List.not_mem_nil
  | cons head tail inductionHypothesis =>
      rw [List.splitOn_cons_eq_if_modifyHead] at member
      split at member
      · rcases List.mem_cons.mp member with rfl | later
        · exact List.not_mem_nil
        · exact inductionHypothesis later
      · rename_i different
        cases divided : tail.splitOn separator with
        | nil => exact absurd divided (List.splitOn_ne_nil separator tail)
        | cons first more =>
            rw [divided] at inductionHypothesis member
            rcases List.mem_cons.mp member with rfl | later
            · rw [List.mem_cons, not_or]
              refine ⟨?_, inductionHypothesis List.mem_cons_self⟩
              exact fun same => different (beq_iff_eq.mpr same.symm)
            · exact inductionHypothesis (List.mem_cons_of_mem first later)

theorem intercalate_eq_nil_iff {pieces : List (List Char)} :
    [separator].intercalate pieces = [] ↔ pieces = [] ∨ pieces = [[]] := by
  match pieces with
  | [] | [_] => simp
  | _ :: _ :: _ => simp [List.intercalate_cons_cons]

theorem stripLeading?_eq_some_iff : stripLeading? c text = some rest ↔ text = c :: rest := by
  cases text with
  | nil => simp [stripLeading?]
  | cons head tail =>
      rw [stripLeading?, Option.ite_none_right_eq_some, Option.some.injEq, List.cons.injEq]

theorem stripTrailing?_eq_some_iff : stripTrailing? c text = some piece ↔ text = piece ++ [c] := by
  rw [stripTrailing?, Option.map_eq_some_iff]
  constructor
  · rintro ⟨reversed, stripped, rfl⟩
    have whole := congrArg List.reverse (stripLeading?_eq_some_iff.mp stripped)
    simpa using whole
  · rintro rfl
    exact ⟨piece.reverse, by simp [stripLeading?], List.reverse_reverse piece⟩

/-- The first line ends at the first line feed. -/
theorem lines_append (absent : '\n' ∉ piece) :
    lines (piece ++ '\n' :: rest) = piece :: lines rest := by
  induction piece with
  | nil => simp [lines]
  | cons head tail inductionHypothesis =>
      rw [List.mem_cons, not_or] at absent
      obtain ⟨different, absent⟩ := absent
      rw [List.cons_append, lines, if_neg (Ne.symm different), inductionHypothesis absent]

/-- No line holds a line feed. -/
theorem not_mem_of_mem_lines {line : List Char} (member : line ∈ lines text) : '\n' ∉ line := by
  induction text generalizing line with
  | nil => simp [lines] at member
  | cons head tail inductionHypothesis =>
      unfold lines at member
      by_cases feed : head = '\n'
      · rw [if_pos feed] at member
        rcases List.mem_cons.mp member with rfl | later
        · simp
        · exact inductionHypothesis later
      · rw [if_neg feed] at member
        split at member
        · simp only [List.mem_singleton] at member
          simp [member, Ne.symm feed]
        · rename_i first more rest
          rcases List.mem_cons.mp member with rfl | later
          · have absent : '\n' ∉ first := inductionHypothesis (rest ▸ List.mem_cons_self)
            simp [absent, Ne.symm feed]
          · exact inductionHypothesis (rest ▸ List.mem_cons_of_mem _ later)

theorem takeWhile_append_stop {test : Char → Bool} (all : ∀ c ∈ piece, test c = true)
    (stop : ∀ c ∈ rest.head?, test c = false) : (piece ++ rest).takeWhile test = piece := by
  rw [List.takeWhile_append_of_pos all]
  cases rest with
  | nil => simp
  | cons c rest => simp [stop c rfl]

theorem dropWhile_append_stop {test : Char → Bool} (all : ∀ c ∈ piece, test c = true)
    (stop : ∀ c ∈ rest.head?, test c = false) : (piece ++ rest).dropWhile test = rest := by
  rw [List.dropWhile_append_of_pos all]
  cases rest with
  | nil => simp
  | cons c rest => simp [stop c rfl]

/-! ### Trimming -/

/-- The text neither begins nor ends with a blank. -/
def Tight (text : List Char) : Prop :=
  (∀ c ∈ text.head?, isBlank c = false) ∧ ∀ c ∈ text.getLast?, isBlank c = false

theorem tight_of_forall (solid : ∀ c ∈ text, isBlank c = false) : Tight text :=
  ⟨fun c first => solid c (List.mem_of_mem_head? first),
    fun c last => solid c (List.mem_of_mem_getLast? last)⟩

theorem dropWhile_isBlank (first : ∀ c ∈ text.head?, isBlank c = false) :
    text.dropWhile isBlank = text := by
  cases text with
  | nil => rfl
  | cons head tail => simp [first head rfl]

theorem trim_of_tight (tight : Tight text) : trim text = text := by
  rw [trim, dropWhile_isBlank tight.1, dropWhile_isBlank, List.reverse_reverse]
  rw [List.head?_reverse]
  exact tight.2

theorem trim_blank_cons (blank : isBlank c = true) : trim (c :: text) = trim text := by
  rw [trim, List.dropWhile_cons_of_pos blank, trim]

theorem trim_append_blank (blank : isBlank c = true) : trim (text ++ [c]) = trim text := by
  rw [trim, trim, List.dropWhile_append]
  by_cases empty : (text.dropWhile isBlank).isEmpty = true
  · rw [if_pos empty, List.isEmpty_iff.mp empty]
    simp [blank]
  · rw [if_neg empty, List.reverse_append, List.reverse_singleton, List.singleton_append,
      List.dropWhile_cons_of_pos blank]

theorem trim_subset (text : List Char) : trim text ⊆ text := by
  intro c member
  have inner := (List.dropWhile_sublist isBlank).subset (List.mem_reverse.mp member)
  exact (List.dropWhile_sublist isBlank).subset (List.mem_reverse.mp inner)

theorem map_trim_fields_cons (blank : isBlank c = true) (other : c ≠ separator) :
    (fields separator (c :: text)).map trim = (fields separator text).map trim := by
  rw [fields, if_neg other]
  cases divided : fields separator text with
  | nil => exact absurd divided (fields_ne_nil separator text)
  | cons first more =>
      dsimp only
      rw [List.map_cons, List.map_cons, trim_blank_cons blank]

/-- What is added at the end goes to the last field. -/
theorem exists_last_field (other : c ≠ separator) :
    ∃ front last, fields separator text = front ++ [last] ∧
      fields separator (text ++ [c]) = front ++ [last ++ [c]] := by
  induction text with
  | nil => exact ⟨[], [], rfl, by simp [fields, other]⟩
  | cons head tail inductionHypothesis =>
      obtain ⟨front, last, divided, extended⟩ := inductionHypothesis
      rw [List.cons_append, fields, fields, divided, extended]
      by_cases same : head = separator
      · rw [if_pos same, if_pos same]
        exact ⟨[] :: front, last, rfl, rfl⟩
      · rw [if_neg same, if_neg same]
        cases front with
        | nil => exact ⟨[], head :: last, rfl, rfl⟩
        | cons first more => exact ⟨(head :: first) :: more, last, rfl, rfl⟩

theorem map_trim_fields_append (blank : isBlank c = true) (other : c ≠ separator) :
    (fields separator (text ++ [c])).map trim = (fields separator text).map trim := by
  obtain ⟨front, last, divided, extended⟩ := exists_last_field other
  rw [extended, divided, List.map_append, List.map_append, List.map_singleton, List.map_singleton,
    trim_append_blank blank]

theorem map_trim_fields_pad {pad : List Char} (blank : ∀ c ∈ pad, isBlank c = true)
    (absent : separator ∉ pad) :
    (fields separator (pad ++ rest)).map trim = (fields separator rest).map trim := by
  induction pad with
  | nil => rfl
  | cons c pad inductionHypothesis =>
      rw [List.forall_mem_cons] at blank
      obtain ⟨other, absent⟩ := not_or.mp (List.mem_cons.not.mp absent)
      rw [List.cons_append, map_trim_fields_cons blank.1 (Ne.symm other)]
      exact inductionHypothesis blank.2 absent

/-- Pieces come back from the text in which a separator and blanks stand between them. -/
theorem map_trim_fields {pad : List Char} {pieces : List (List Char)}
    (blank : ∀ c ∈ pad, isBlank c = true) (some : pieces ≠ [])
    (absent : ∀ piece ∈ pieces, separator ∉ piece) (padded : separator ∉ pad)
    (tight : ∀ piece ∈ pieces, Tight piece) :
    (fields separator ((separator :: pad).intercalate pieces)).map trim = pieces := by
  induction pieces with
  | nil => exact absurd rfl some
  | cons piece more inductionHypothesis =>
      rw [List.forall_mem_cons] at absent tight
      cases more with
      | nil =>
          rw [List.intercalate_singleton, fields_of_not_mem absent.1, List.map_singleton,
            trim_of_tight tight.1]
      | cons next more =>
          rw [List.intercalate_cons_cons, List.append_assoc, List.cons_append,
            fields_append absent.1, List.map_cons, trim_of_tight tight.1,
            map_trim_fields_pad blank padded,
            inductionHypothesis (List.cons_ne_nil _ _) absent.2 tight.2]

theorem mem_intercalate {pad : List Char} {pieces : List (List Char)}
    (member : c ∈ pad.intercalate pieces) : c ∈ pad ∨ ∃ piece ∈ pieces, c ∈ piece := by
  induction pieces with
  | nil => cases member
  | cons piece more inductionHypothesis =>
      cases more with
      | nil =>
          rw [List.intercalate_singleton] at member
          exact Or.inr ⟨piece, List.mem_cons_self, member⟩
      | cons next more =>
          rw [List.intercalate_cons_cons, List.mem_append, List.mem_append] at member
          rcases member with (inPiece | inPad) | later
          · exact Or.inr ⟨piece, List.mem_cons_self, inPiece⟩
          · exact Or.inl inPad
          · rcases inductionHypothesis later with inPad | ⟨other, listed, inOther⟩
            · exact Or.inl inPad
            · exact Or.inr ⟨other, List.mem_cons_of_mem _ listed, inOther⟩

/-! ### The end of a text -/

/-- The last character is no blank. -/
def EndsSolid (text : List Char) : Prop :=
  ∃ front c, text = front ++ [c] ∧ isBlank c = false

theorem EndsSolid.append_left (solid : EndsSolid text) (front : List Char) :
    EndsSolid (front ++ text) := by
  obtain ⟨before, c, rfl, other⟩ := solid
  exact ⟨front ++ before, c, (List.append_assoc _ _ _).symm, other⟩

theorem EndsSolid.cons (solid : EndsSolid text) (c : Char) : EndsSolid (c :: text) :=
  solid.append_left [c]

theorem Tight.endsSolid (tight : Tight text) (nonempty : text ≠ []) : EndsSolid text := by
  refine ⟨text.dropLast, text.getLast nonempty, (List.dropLast_append_getLast nonempty).symm, ?_⟩
  exact tight.2 _ (List.getLast?_eq_some_getLast nonempty)

theorem EndsSolid.tight (solid : EndsSolid (c :: text)) (first : isBlank c = false) :
    Tight (c :: text) := by
  obtain ⟨before, last, whole, other⟩ := solid
  constructor
  · rintro _ ⟨⟩
    exact first
  · rw [whole, List.getLast?_concat]
    rintro _ ⟨⟩
    exact other

theorem endsSolid_intercalate {pad : List Char} {pieces : List (List Char)} (some : pieces ≠ [])
    (solid : ∀ piece ∈ pieces, EndsSolid piece) : EndsSolid (pad.intercalate pieces) := by
  induction pieces with
  | nil => exact absurd rfl some
  | cons piece more inductionHypothesis =>
      rw [List.forall_mem_cons] at solid
      cases more with
      | nil =>
          rw [List.intercalate_singleton]
          exact solid.1
      | cons next more =>
          rw [List.intercalate_cons_cons]
          exact (inductionHypothesis (List.cons_ne_nil _ _) solid.2).append_left _

/-! ### Words -/

/-- A text of letters and digits. It holds no blank and no separator. -/
def Word (text : List Char) : Prop :=
  ∀ c ∈ text, c.isAlphanum = true

instance decidableWord (text : List Char) : Decidable (Word text) :=
  List.decidableBAll _ text

theorem isBlank_of_isAlphanum (plain : c.isAlphanum = true) : isBlank c = false := by
  have small : 48 ≤ c.toNat ∧ c.toNat ≤ 122 := by
    delta Char.isAlphanum Char.isAlpha Char.isUpper Char.isLower Char.isDigit at plain
    simp only [Bool.or_eq_true, Bool.and_eq_true, decide_eq_true_eq, ge_iff_le,
      UInt32.le_iff_toNat_le] at plain
    change (65 ≤ c.toNat ∧ c.toNat ≤ 90 ∨ 97 ≤ c.toNat ∧ c.toNat ≤ 122) ∨
      48 ≤ c.toNat ∧ c.toNat ≤ 57 at plain
    omega
  simp only [isBlank, blankRanges, List.any_cons, List.any_nil, Bool.or_false, Bool.or_eq_false_iff,
    Bool.and_eq_false_iff, decide_eq_false_iff_not]
  omega

theorem word_cons (plain : c.isAlphanum = true) (word : Word text) : Word (c :: text) :=
  List.forall_mem_cons.mpr ⟨plain, word⟩

theorem Word.append (word : Word piece) (other : Word rest) : Word (piece ++ rest) :=
  List.forall_mem_append.mpr ⟨word, other⟩

theorem Word.tight (word : Word text) : Tight text :=
  tight_of_forall fun c member => isBlank_of_isAlphanum (word c member)

theorem Word.not_mem (word : Word text) (other : c.isAlphanum = false) : c ∉ text := by
  intro member
  rw [word c member] at other
  cases other

/-! ### Numerals -/

theorem isDigit_of_mem_toDigits {number : Nat} (member : c ∈ Nat.toDigits 10 number) :
    c.isDigit = true :=
  Nat.isDigit_of_mem_toDigits (by decide) (by decide) member

theorem word_toDigits (number : Nat) : Word (Nat.toDigits 10 number) := by
  intro c member
  rw [Char.isAlphanum, isDigit_of_mem_toDigits member, Bool.or_true]

/-- What is read as a number has digits only. -/
theorem isDigit_of_readDigits? {digits : List Char} {number : Nat}
    (reads : readDigits? digits = some number) : ∀ c ∈ digits, c.isDigit = true := by
  unfold readDigits? at reads
  split at reads
  · cases reads
  · rename_i accepted
    simp only [Bool.or_eq_true, Bool.not_eq_true', not_or, Bool.not_eq_false,
      List.all_eq_true] at accepted
    exact accepted.2

theorem readDigits?_toDigits (number : Nat) :
    readDigits? (Nat.toDigits 10 number) = some number := by
  have digits : (Nat.toDigits 10 number).all Char.isDigit = true :=
    List.all_eq_true.mpr fun _ => isDigit_of_mem_toDigits
  have value : digitsValue (Nat.toDigits 10 number) = number := by
    rw [digitsValue, ← Nat.ofDigitChars_eq_foldl]
    exact Nat.ofDigitChars_ten_toDigits
  simp [readDigits?, digits, value, Nat.toDigits_ne_nil]

theorem toList_toString_nat (number : Nat) :
    (toString number).toList = Nat.toDigits 10 number := by
  rw [Nat.toString_eq_ofList_toDigits, String.toList_ofList]

/-- A numeral begins with a digit. -/
theorem exists_digit_cons (number : Nat) :
    ∃ digit rest, Nat.toDigits 10 number = digit :: rest ∧ digit.isDigit = true := by
  cases digits : Nat.toDigits 10 number with
  | nil => exact absurd digits Nat.toDigits_ne_nil
  | cons digit rest => exact ⟨digit, rest, rfl, isDigit_of_mem_toDigits (digits ▸ List.mem_cons_self)⟩

/-- Digits are read back if their number is in range. -/
theorem readNat?_toDigits {number bound : Nat} (inside : number < bound) :
    readNat? bound (Nat.toDigits 10 number) = some number := by
  obtain ⟨digit, rest, digits, isDigit⟩ := exists_digit_cons number
  have read := readDigits?_toDigits number
  rw [digits] at read ⊢
  unfold readNat?
  split
  · rename_i plus
    cases plus
    cases isDigit
  · simp [read, inside]

/-- A written number is read back if it is in range. -/
theorem readNat?_toString {number bound : Nat} (inside : number < bound) :
    readNat? bound (toString number).toList = some number := by
  rw [toList_toString_nat, readNat?_toDigits inside]

/-- The written form of a number is that of its magnitude, after a sign if it is negative. -/
theorem toList_toString_int (number : Int) :
    (toString number).toList =
      if number < 0 then '-' :: Nat.toDigits 10 number.natAbs
      else Nat.toDigits 10 number.natAbs := by
  cases number with
  | ofNat magnitude =>
      have written : toString (Int.ofNat magnitude) = toString magnitude := rfl
      rw [written, toList_toString_nat, if_neg (by simp)]
      rfl
  | negSucc magnitude =>
      have written : toString (Int.negSucc magnitude) = "-" ++ toString (magnitude + 1) := rfl
      rw [written, String.toList_append, toList_toString_nat, if_pos (by simp)]
      rfl

/-- The numbers of `bits` bits, with sign. -/
def InSignedRange (bits : Nat) (number : Int) : Prop :=
  -Int.ofNat (twoPow (bits - 1)) ≤ number ∧ number < Int.ofNat (twoPow (bits - 1))

instance decidableInSignedRange (bits : Nat) (number : Int) :
    Decidable (InSignedRange bits number) :=
  inferInstanceAs (Decidable (_ ∧ _))

/-- A written number is read back if it is in range. -/
theorem readInt?_toString {bits : Nat} {number : Int} (inside : InSignedRange bits number) :
    readInt? bits (toString number).toList = some number := by
  obtain ⟨digit, rest, digits, isDigit⟩ := exists_digit_cons number.natAbs
  have read := readDigits?_toDigits number.natAbs
  unfold InSignedRange at inside
  rw [toList_toString_int]
  unfold readInt?
  by_cases negative : number < 0
  · have magnitude : -Int.ofNat number.natAbs = number := by
      rw [Int.ofNat_eq_natCast]
      omega
    simp only [if_pos negative, read, Option.map_some, magnitude]
    simpa using inside
  · have magnitude : Int.ofNat number.natAbs = number := by
      rw [Int.ofNat_eq_natCast]
      omega
    rw [if_neg negative]
    rw [digits] at read ⊢
    split
    · rename_i plus
      cases plus
      cases isDigit
    · rename_i minus
      cases minus
      cases isDigit
    · simp only [read, Option.map_some, magnitude]
      simpa using inside

end DagSelect.Text
