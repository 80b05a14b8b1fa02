/-
Module: DagSelect.Proofs.Report
Purpose: What the report of a session shows. After any records, whatever their order and whatever the
  order in which the hits are gone through, it is the same text: the counts of the records, and one
  row for each pattern that was recorded, the most used first and by name among those used as often.
Main exports: SessionCall.pattern?, SessionCall.applyAll, SessionCall.nodes_applyAll, Stats.Counted,
  SessionCall.counted_applyAll, Outranks, Breakdown, Breakdown.unique, Stats.Counted.breakdown,
  reportLines, Stats.render_eq_join, statsAfter, report_of_records
-/
import DagSelect.Proofs.Accounting
import DagSelect.Proofs.Fate
import DagSelect.Proofs.Ranking

namespace DagSelect

/-! ### Hits of recorded patterns -/

namespace Stats

variable {hits : List (String × Nat)} {names : List String} {name : String} {count : Nat}

/-- The hits are those of the recorded names. -/
structure Counted (hits : List (String × Nat)) (names : List String) : Prop where
  distinct : (hits.map Prod.fst).Nodup
  lookup : ∀ name, hits.lookup name = if name ∈ names then some (names.count name) else none

theorem counted_nil : Counted [] [] where
  distinct := .nil
  lookup _ := rfl

theorem Counted.countHit (counted : Counted hits names) (name : String) :
    Counted (countHit name hits) (names ++ [name]) where
  distinct := nodup_countHit counted.distinct
  lookup other := by
    rw [lookup_countHit, counted.lookup, counted.lookup]
    by_cases same : other = name
    · by_cases recorded : name ∈ names
      · simp [same, recorded]
      · simp [same, recorded, List.count_eq_zero_of_not_mem]
    · simp [same, Ne.symm same]

/-- Where no name is listed twice, an entry is in the list exactly if it is found. -/
theorem mem_iff_lookup_eq_some (distinct : (hits.map Prod.fst).Nodup) :
    (name, count) ∈ hits ↔ hits.lookup name = some count := by
  induction hits with
  | nil => simp
  | cons hit rest inductionHypothesis =>
      obtain ⟨listed, listedCount⟩ := hit
      obtain ⟨isNew, restDistinct⟩ := List.nodup_cons.mp distinct
      rw [List.mem_cons, List.lookup_cons, inductionHypothesis restDistinct, Prod.mk.injEq]
      by_cases same : name = listed
      · have absent : rest.lookup listed = none := by
          rw [List.lookup_eq_none_iff]
          intro entry member
          exact bne_iff_ne.mpr fun equal => isNew (List.mem_map.mpr ⟨entry, member, equal.symm⟩)
        simp [same, absent, eq_comm]
      · simp [same, beq_false_of_ne same]

theorem Counted.mem_iff (counted : Counted hits names) :
    (name, count) ∈ hits ↔ name ∈ names ∧ count = names.count name := by
  rw [mem_iff_lookup_eq_some counted.distinct, counted.lookup]
  by_cases recorded : name ∈ names
  · simp [recorded, eq_comm]
  · simp [recorded]

end Stats

/-! ### Records of a session -/

namespace SessionCall

variable {calls : List SessionCall} {session : Session}

/-- The pattern that a call records. -/
def pattern? : SessionCall → Option String
  | .recordPattern name => some name
  | _ => none

/-- The session after some calls, of which the first is made first. -/
def applyAll (calls : List SessionCall) (session : Session) : Session :=
  calls.foldl (fun session call => call.apply session) session

theorem applyAll_cons (call : SessionCall) (calls : List SessionCall) (session : Session) :
    applyAll (call :: calls) session = applyAll calls (call.apply session) := rfl

/-- Records count their ways. -/
theorem nodes_applyAll (records : ∀ call ∈ calls, call.way? ≠ none) (way : Way) :
    (applyAll calls session).stats.nodes way =
      session.stats.nodes way + (calls.filterMap way?).count way := by
  induction calls generalizing session with
  | nil => rfl
  | cons call calls inductionHypothesis =>
      rw [List.forall_mem_cons] at records
      obtain ⟨taken, isTaken⟩ := Option.ne_none_iff_exists.mp records.1
      rw [applyAll_cons, inductionHypothesis records.2, nodes_apply isTaken.symm,
        List.filterMap_cons, ← isTaken, List.count_cons]
      simp only [beq_iff_eq, eq_comm (a := taken)]
      omega

theorem functionsSelected_applyAll (records : ∀ call ∈ calls, call.way? ≠ none) :
    (applyAll calls session).stats.functionsSelected = session.stats.functionsSelected := by
  induction calls generalizing session with
  | nil => rfl
  | cons call calls inductionHypothesis =>
      rw [List.forall_mem_cons] at records
      obtain ⟨taken, isTaken⟩ := Option.ne_none_iff_exists.mp records.1
      rw [applyAll_cons, inductionHypothesis records.2, (function_apply isTaken.symm).2]

theorem hits_apply (call : SessionCall) (session : Session) :
    (call.apply session).stats.hits =
      call.pattern?.elim session.stats.hits fun name => Stats.countHit name session.stats.hits := by
  cases call with
  | finish =>
      change session.finish.stats.hits = session.stats.hits
      unfold Session.finish
      split <;> rfl
  | begin | abort | recordPattern | recordPreselected | recordPassthrough | recordDead => rfl

/-- Calls count the patterns that they record. -/
theorem counted_applyAll {names : List String} (counted : Stats.Counted session.stats.hits names)
    (calls : List SessionCall) :
    Stats.Counted (applyAll calls session).stats.hits (names ++ calls.filterMap pattern?) := by
  -- The names grow at their end as the session goes on, for it makes the first call first.
  induction calls generalizing session names with
  | nil =>
      rw [List.filterMap_nil, List.append_nil]
      exact counted
  | cons call calls inductionHypothesis =>
      rw [applyAll_cons]
      have hits := hits_apply call session
      cases recorded : call.pattern? with
      | none =>
          rw [List.filterMap_cons_none recorded]
          rw [recorded] at hits
          exact inductionHypothesis (hits ▸ counted)
      | some name =>
          rw [List.filterMap_cons_some recorded, ← List.singleton_append, ← List.append_assoc]
          rw [recorded] at hits
          exact inductionHypothesis (hits ▸ counted.countHit name)

end SessionCall

/-! ### Rows of the report -/

/-- One row goes before another: it has more hits, or as many and the lesser name. -/
def Outranks (first later : String × Nat) : Prop :=
  later.2 < first.2 ∨ first.2 = later.2 ∧ first.1 < later.1

theorem Outranks.asymm {first later : String × Nat} (outranks : Outranks first later) :
    ¬ Outranks later first := by
  rintro (fewer | ⟨same, less⟩)
  · rcases outranks with more | ⟨same, _⟩ <;> omega
  · rcases outranks with more | ⟨_, greater⟩
    · omega
    · exact String.lt_asymm less greater

/-- The rows list every name that was recorded once, with how often it was, in order of rank. -/
structure Breakdown (names : List String) (rows : List (String × Nat)) : Prop where
  once : (rows.map Prod.fst).Nodup
  listed : ∀ name count, (name, count) ∈ rows ↔ name ∈ names ∧ count = names.count name
  ranked : rows.Pairwise Outranks

/-- How often each name was recorded determines the rows. -/
theorem Breakdown.unique {names names' : List String} {rows rows' : List (String × Nat)}
    (breakdown : Breakdown names rows) (breakdown' : Breakdown names' rows')
    (perm : names.Perm names') : rows = rows' := by
  -- A row never outranks itself, so that lists in order of rank with the same members are the same.
  have distinct : ∀ {rows : List (String × Nat)}, rows.Pairwise Outranks → rows.Nodup := by
    intro rows ranked
    apply ranked.imp
    rintro first _ outranks rfl
    exact outranks.asymm outranks
  have sameRows : rows.Perm rows' := by
    rw [List.perm_ext_iff_of_nodup (distinct breakdown.ranked) (distinct breakdown'.ranked)]
    rintro ⟨name, count⟩
    rw [breakdown.listed, breakdown'.listed, perm.mem_iff, perm.count_eq]
  refine sameRows.eq_of_pairwise ?_ breakdown.ranked breakdown'.ranked
  exact fun _ _ _ _ outranks back => absurd back outranks.asymm

namespace Stats

variable {a b : String × Nat}

theorem hitBefore_iff : hitBefore a b = true ↔ b.2 < a.2 ∨ a.2 = b.2 ∧ a.1 ≤ b.1 := by
  simp [hitBefore]

instance total_hitBefore : Std.Total fun a b => hitBefore a b = true := by
  constructor
  intro a b
  rw [hitBefore_iff, hitBefore_iff]
  rcases Nat.lt_trichotomy a.2 b.2 with less | same | more
  · exact Or.inr (Or.inl less)
  · rcases String.le_total a.1 b.1 with first | second
    · exact Or.inl (Or.inr ⟨same, first⟩)
    · exact Or.inr (Or.inr ⟨same.symm, second⟩)
  · exact Or.inl (Or.inl more)

instance isTrans_hitBefore : IsTrans (String × Nat) fun a b => hitBefore a b = true := by
  constructor
  intro a b c first second
  rw [hitBefore_iff] at first second ⊢
  rcases first with more | ⟨same, first⟩
  · left
    omega
  · rcases second with more | ⟨same', second⟩
    · left
      omega
    · exact Or.inr ⟨same.trans same', String.le_trans first second⟩

/-- Sorting the hits in whatever order they come gives the breakdown. -/
theorem Counted.breakdown {hits order : List (String × Nat)} {names : List String}
    (counted : Counted hits names) (perm : order.Perm hits) :
    Breakdown names (sortBy hitBefore order) := by
  have sortedPerm : (sortBy hitBefore order).Perm hits := by
    rw [sortBy_eq_insertionSort]
    exact (List.perm_insertionSort _ order).trans perm
  have distinct : ((sortBy hitBefore order).map Prod.fst).Nodup :=
    (sortedPerm.map Prod.fst).nodup_iff.mpr counted.distinct
  refine ⟨distinct, fun name count => ?_, ?_⟩
  · rw [sortedPerm.mem_iff, counted.mem_iff]
  · have sorted := List.pairwise_insertionSort (fun a b => hitBefore a b = true) order
    rw [← sortBy_eq_insertionSort] at sorted
    refine (sorted.and (List.pairwise_map.mp distinct)).imp ?_
    rintro first later ⟨before, different⟩
    rcases hitBefore_iff.mp before with more | ⟨same, atMost⟩
    · exact Or.inl more
    · exact Or.inr ⟨same, Std.lt_of_le_of_ne atMost different⟩

end Stats

/-! ### Text of the report -/

/-- The lines of a report with the counts and the rows given. -/
def reportLines (functions : Nat) (nodes : Way → Nat) (rows : List (String × Nat)) : List String :=
  [ "Instruction Selection Statistics:",
    s!"  Functions selected: {functions}",
    s!"  Nodes selected: {nodes .selected}",
    s!"  Nodes pre-selected: {nodes .preselected}",
    s!"  Nodes passed through: {nodes .passed}",
    s!"  Dead nodes: {nodes .dead}" ] ++
  (if rows = [] then [] else ["  Pattern breakdown:"]) ++
  rows.map fun row => s!"    {row.1}: {row.2}"

theorem Stats.render_eq_join (stats : Stats) :
    stats.render =
      String.join ((reportLines stats.functionsSelected stats.nodes stats.sortedHits).map
        fun line => line ++ "\n") := by
  have empty : stats.hits.isEmpty = stats.sortedHits.isEmpty := by
    rw [sortedHits, sortBy_eq_insertionSort]
    exact (List.perm_insertionSort _ stats.hits).isEmpty_eq.symm
  have rows : stats.renderHits =
      (if stats.sortedHits = [] then [] else ["  Pattern breakdown:"]) ++
        stats.sortedHits.map fun row => s!"    {row.1}: {row.2}" := by
    unfold renderHits
    rw [empty]
    cases stats.sortedHits with
    | nil => rfl
    | cons row rows => rfl
  simp only [render, reportLines, rows, List.append_assoc, Stats.nodes]

/-! ### Reports of records -/

variable {calls calls' : List SessionCall} {order order' : List (String × Nat)}

/-- The statistics of a new session after some calls. -/
def statsAfter (calls : List SessionCall) : Stats :=
  (SessionCall.applyAll calls {}).stats

theorem reportLines_after (records : ∀ call ∈ calls, call.way? ≠ none)
    (rows : List (String × Nat)) :
    reportLines (statsAfter calls).functionsSelected (statsAfter calls).nodes rows =
      reportLines 0 (calls.filterMap SessionCall.way?).count rows := by
  have functions : (statsAfter calls).functionsSelected = 0 :=
    SessionCall.functionsSelected_applyAll records
  have nodes : (statsAfter calls).nodes = (calls.filterMap SessionCall.way?).count := by
    funext way
    rw [statsAfter, SessionCall.nodes_applyAll records]
    cases way <;> exact Nat.zero_add _
  rw [functions, nodes]

/-- The report after some records, with the hits arranged in any order, shows the counts of the
records and a row for each pattern. -/
theorem exists_breakdown_after (records : ∀ call ∈ calls, call.way? ≠ none)
    (arranged : order.Perm (statsAfter calls).hits) :
    ∃ rows, Breakdown (calls.filterMap SessionCall.pattern?) rows ∧
      Stats.render { statsAfter calls with hits := order } =
        String.join ((reportLines 0 (calls.filterMap SessionCall.way?).count rows).map
          fun line => line ++ "\n") := by
  have fresh : Stats.Counted ({} : Session).stats.hits [] := Stats.counted_nil
  have counted := SessionCall.counted_applyAll fresh calls
  refine ⟨sortBy Stats.hitBefore order, counted.breakdown arranged, ?_⟩
  rw [Stats.render_eq_join, ← reportLines_after records]
  rfl

/-- The report of a session shows what was recorded and not when. Let the same records be made in two
orders in new sessions, and let the hits of each session be gone through in any order. Then the two
reports are the same text. It consists of the counts of the records and, if patterns were recorded,
a row for each of them, with its number of hits, by falling number and by name where numbers are
equal. -/
theorem report_of_records (perm : calls.Perm calls')
    (records : ∀ call ∈ calls, call.way? ≠ none)
    (arranged : order.Perm (statsAfter calls).hits)
    (arranged' : order'.Perm (statsAfter calls').hits) :
    Stats.render { statsAfter calls with hits := order } =
      Stats.render { statsAfter calls' with hits := order' } ∧
    ∃ rows, Breakdown (calls.filterMap SessionCall.pattern?) rows ∧
      Stats.render { statsAfter calls with hits := order } =
        String.join ((reportLines 0 (calls.filterMap SessionCall.way?).count rows).map
          fun line => line ++ "\n") := by
  have records' : ∀ call ∈ calls', call.way? ≠ none :=
    fun call member => records call (perm.mem_iff.mpr member)
  obtain ⟨rows, breakdown, text⟩ := exists_breakdown_after records arranged
  obtain ⟨rows', breakdown', text'⟩ := exists_breakdown_after records' arranged'
  have sameRows : rows = rows' := breakdown.unique breakdown' (perm.filterMap _)
  have sameWays : (calls.filterMap SessionCall.way?).count =
      (calls'.filterMap SessionCall.way?).count := by
    funext way
    exact (perm.filterMap _).count_eq way
  refine ⟨?_, rows, breakdown, text⟩
  rw [text, text', sameRows, sameWays]

/-- Records of all kinds, with two patterns that are used as often as each other. -/
def mixedRecords : List SessionCall :=
  [.recordPattern "LD8ri", .recordPattern "INC8r", .recordDead, .recordPattern "ADD8ar",
    .recordPassthrough, .recordPreselected, .recordPattern "LD8ri"]

/-- Made in reverse, and with the hits gone through in reverse, the records give the same report. -/
theorem report_mixedRecords :
    (statsAfter mixedRecords.reverse).hits ≠ (statsAfter mixedRecords).hits ∧
      Stats.render { statsAfter mixedRecords with hits := (statsAfter mixedRecords).hits.reverse } =
        (statsAfter mixedRecords.reverse).render ∧
      (statsAfter mixedRecords.reverse).sortedHits = [("LD8ri", 2), ("ADD8ar", 1), ("INC8r", 1)] :=
  ⟨by decide,
    (report_of_records (List.reverse_perm mixedRecords).symm (by decide) (List.reverse_perm _)
      (.refl _)).1,
    by decide⟩

end DagSelect
