import ActionPlanning.Proofs.Document.Writing
import ActionPlanning.Settings.Document
import ActionPlanning.Settings.Text

/-!
# Saving and loading settings

Valid settings are written as a table of plain values with one more table behind them, and what is
read from that is the settings they were written for: the names of strategy, heuristic and scoring
are read as what they name, and counts and weights as they are. So every library that writes and
reads such tables saves and loads valid settings. The one thing that cannot be written is a count
beyond integers of 64 bits with a sign; valid settings may hold one, and then nothing is saved.

## Main definitions

* `Settings.Fits`: having no count beyond integers of 64 bits with a sign.

## Main results

* `Settings.flat_entries`: settings that fit are written as a flat table.
* `Settings.ofDocument?_document`: this table stands for the settings.
* `Settings.save_load`: what is saved is loaded again as it was, and it is saved exactly if it fits.
-/

namespace ActionPlanning.Settings

open Document Document.Toml

variable {s : Settings} {key : String} {weight : Amount} {n : Nat} {scoring : Scoring}
  {library : Library}

/-! ## The document of settings -/

/-- Whether a count is an integer of 64 bits with a sign. -/
def Countable (count : Option Nat) : Prop := ∀ n ∈ count, n < 2 ^ 63

/-- Whether the counts of settings are integers of 64 bits with a sign. -/
def Fits (s : Settings) : Prop := Countable s.timeLimit ∧ Countable s.budget

theorem countEntries_sublist (key : String) (count : Option Nat) :
    ((countEntries key count).map Prod.fst).Sublist [key] := by
  cases count with
  | none => exact List.nil_sublist _
  | some n => exact List.Sublist.refl _

/-- Settings are written as a record of their fields, of which some may be left out. -/
theorem names_sublist (s : Settings) :
    (s.entries.map Prod.fst ++ ["scoring"]).Sublist
      ["strategy", "heuristic", "parallel", "state_timeout_ms", "max_expansions", "scoring"] := by
  have limit := countEntries_sublist "state_timeout_ms" s.timeLimit
  have budget := countEntries_sublist "max_expansions" s.budget
  have always := List.Sublist.refl ["strategy", "heuristic", "parallel"]
  rw [entries, List.map_append, List.map_append]
  exact ((always.append limit).append budget).append (List.Sublist.refl ["scoring"])

theorem nodup_entries (scoring : Scoring) : (scoring.entries.map Prod.fst).Nodup := by
  cases scoring with
  | valueMinusCost => exact (by decide : ["kind"].Nodup)
  | weightedCost => exact (by decide : ["kind", "cost_weight"].Nodup)

/-! ## Values -/

theorem Strategy.plain_label (strategy : Strategy) : ∀ c ∈ strategy.label.toList, isPlain c :=
  List.all_eq_true.mp (by cases strategy <;> decide)

theorem Estimate.plain_label (heuristic : Estimate) : ∀ c ∈ heuristic.label.toList, isPlain c :=
  List.all_eq_true.mp (by cases heuristic <;> decide)

theorem Scoring.plain_label (scoring : Scoring) : ∀ c ∈ scoring.label.toList, isPlain c := by
  cases scoring with
  | valueMinusCost => exact List.all_eq_true.mp (by decide)
  | weightedCost =>
    exact List.all_eq_true.mp (by decide : "weighted_cost".toList.all isPlain = true)

theorem plainEntry_of_mem_countEntries (bare : Bare key.toList) {count : Option Nat}
    (fits : Countable count) {e : String × Document} (mem : e ∈ countEntries key count) :
    PlainEntry e := by
  obtain ⟨n, given, rfl⟩ := List.mem_map.mp mem
  have small : n < 2 ^ 63 := fits n (Option.mem_toList.mp given)
  exact ⟨bare, Int.natCast_nonneg n, by exact_mod_cast small⟩

/-- A count that is not an integer of 64 bits with a sign is an entry that is not written. -/
theorem exists_wide {count : Option Nat} (wide : ¬ Countable count) :
    ∃ n : Nat, (key, .integer n) ∈ countEntries key count ∧ isSigned n = false := by
  simp only [Countable, not_forall] at wide
  obtain ⟨n, given, wide⟩ := wide
  refine ⟨n, List.mem_map.mpr ⟨n, Option.mem_toList.mpr given, rfl⟩, ?_⟩
  exact Bool.eq_false_iff.mpr (mt (isSigned_iff n).mp wide)

/-- What costs are weighed by, in valid settings. -/
def Scoring.Accepted (scoring : Scoring) : Prop :=
  ∀ weight, scoring = .weightedCost weight → weight.isFinite = true ∧ ¬ weight < 0

theorem accepted_of_fault? (valid : s.fault? = none) : s.scoring.Accepted := by
  intro weight weighted
  rw [fault?, weighted] at valid
  dsimp only at valid
  split at valid
  case isTrue => exact nomatch valid
  case isFalse sound =>
    simpa only [Bool.or_eq_true, Bool.not_eq_true', decide_eq_true_eq, not_or,
      Bool.not_eq_false] using sound

theorem Scoring.Accepted.plainEntry (accepted : scoring.Accepted) :
    ∀ e ∈ scoring.entries, PlainEntry e := by
  have kind : PlainEntry ("kind", .text scoring.label) :=
    .of_all (by decide) (by decide) scoring.plain_label
  cases scoring with
  | valueMinusCost => exact List.forall_mem_singleton.mpr kind
  | weightedCost weight =>
    have weighted : PlainEntry ("cost_weight", .amount weight) :=
      .of_all (by decide) (by decide) (accepted weight rfl)
    exact List.forall_mem_cons.mpr ⟨kind, List.forall_mem_singleton.mpr weighted⟩

/-- Settings that fit are written as a flat table. -/
theorem flat_entries (fits : s.Fits) (accepted : s.scoring.Accepted) :
    Flat s.entries [("scoring", s.scoring.entries)] where
  outer := by
    have strategy : PlainEntry ("strategy", .text s.strategy.label) :=
      .of_all (by decide) (by decide) s.strategy.plain_label
    have heuristic : PlainEntry ("heuristic", .text s.heuristic.label) :=
      .of_all (by decide) (by decide) s.heuristic.plain_label
    have parallel : PlainEntry ("parallel", .flag s.parallel) :=
      .of_all (by decide) (by decide) trivial
    rw [entries, List.forall_mem_append, List.forall_mem_append]
    refine ⟨⟨by simp [strategy, heuristic, parallel], fun e => ?_⟩, fun e => ?_⟩
    · exact plainEntry_of_mem_countEntries (.of_all (by decide) (by decide)) fits.1
    · exact plainEntry_of_mem_countEntries (.of_all (by decide) (by decide)) fits.2
  headers := List.forall_mem_singleton.mpr
    (.of_all (by decide) (by decide) : Bare "scoring".toList)
  inner := List.forall_mem_singleton.mpr accepted.plainEntry
  distinct := (names_sublist s).nodup (by decide)
  distinctInner := List.forall_mem_singleton.mpr (nodup_entries s.scoring)

/-! ## Texts -/

/-- Settings that fit are written as a text that is read as their document. -/
theorem read?_text (lawful : library.Lawful) (fits : s.Fits) (accepted : s.scoring.Accepted) :
    ∃ text, s.text library = .ok text ∧ library.read? text = some s.document := by
  obtain ⟨written, writes, reads⟩ := lawful.reads_written (flat_entries fits accepted)
  have writes : library.write? s.document = some written := writes
  exact ⟨written, by rw [text, writes], reads⟩

/-- Settings that do not fit have no text. -/
theorem text_eq_error (lawful : library.Lawful) (wide : ¬ s.Fits) :
    s.text library = .error (.config .unwritable) := by
  have among : ∃ key, ∃ n : Nat, (key, .integer n) ∈ s.record ∧ isSigned n = false := by
    by_cases limit : Countable s.timeLimit
    · obtain ⟨n, mem, wide⟩ := exists_wide fun budget => wide ⟨limit, budget⟩
      exact ⟨_, n, List.mem_append_left _ (List.mem_append_right _ mem), wide⟩
    · obtain ⟨n, mem, wide⟩ := exists_wide limit
      exact ⟨_, n, List.mem_append_left _ (List.mem_append_left _ (List.mem_append_right _ mem)),
        wide⟩
  obtain ⟨key, n, mem, wide⟩ := among
  have refuses : library.write? s.document = none := lawful.refuses_wide mem wide
  rw [text, refuses]

theorem count?_natCast (fits : n < 2 ^ 63) : count? (.integer n) = some n := by
  have size : (UInt64.size : Int) = 2 ^ 64 := rfl
  rw [count?, if_pos (by omega), Int.toNat_natCast]

theorem orDefault?_count {record : List (String × Document)} {count : Option Nat}
    (entry : entry? key record = count.map fun n => .integer n) (fits : Countable count) :
    orDefault? record key none (optional? count?) = some count := by
  rw [orDefault?, entry]
  cases count with
  | none => rfl
  | some n =>
    change (count? (.integer n)).map some = _
    rw [count?_natCast (fits n rfl)]
    rfl

theorem record?_document (s : Settings) :
    s.document.record? .toml
      ["strategy", "heuristic", "parallel", "state_timeout_ms", "max_expansions", "scoring"]
      = some s.record := by
  have sublist := names_sublist s
  rw [document, record?, if_pos]
  rw [record, List.map_append]
  refine ⟨List.all_eq_true.mpr fun name mem => ?_, sublist.nodup (by decide)⟩
  exact List.contains_iff_mem.mpr (sublist.subset mem)

/-- The document of settings stands for them. -/
theorem ofDocument?_document (fits : s.Fits) : ofDocument? .toml s.document = some s := by
  have strategy : orDefault? s.record "strategy" .regression (Strategy.ofDocument? .toml)
      = some s.strategy := by
    change Strategy.ofDocument? .toml (.text s.strategy.label) = _
    cases s.strategy <;> rfl
  have heuristic : orDefault? s.record "heuristic" .zero (Estimate.ofDocument? .toml)
      = some s.heuristic := by
    change Estimate.ofDocument? .toml (.text s.heuristic.label) = _
    cases s.heuristic <;> rfl
  have parallel : orDefault? s.record "parallel" true flag? = some s.parallel := rfl
  -- Where a count and what comes behind it stand depends on which counts there are.
  have limit : entry? "state_timeout_ms" s.record = s.timeLimit.map fun n => .integer n := by
    unfold record entries
    cases s.timeLimit <;> cases s.budget <;> rfl
  have budget : entry? "max_expansions" s.record = s.budget.map fun n => .integer n := by
    unfold record entries
    cases s.timeLimit <;> cases s.budget <;> rfl
  have scoring : orDefault? s.record "scoring" .valueMinusCost Scoring.ofDocument?
      = some s.scoring := by
    have entry : entry? "scoring" s.record = some (.table s.scoring.entries) := by
      unfold record entries
      cases s.timeLimit <;> cases s.budget <;> rfl
    rw [orDefault?, entry]
    cases s.scoring <;> rfl
  rw [ofDocument?, record?_document]
  simp only [Option.bind_eq_bind, Option.bind_some, strategy, heuristic, parallel,
    orDefault?_count limit fits.1, orDefault?_count budget fits.2, scoring]
  rfl

/-! ## Files -/

theorem fromUTF8?_toUTF8 (text : String) : String.fromUTF8? text.toUTF8 = some text := by
  have valid : text.toUTF8.IsValidUTF8 := text.isValidUTF8
  rw [String.fromUTF8?, dif_pos valid]
  rfl

/-- Valid settings are equal to themselves, since their weight is a number. -/
theorem beq_self (accepted : s.scoring.Accepted) : (s == s) = true := by
  obtain ⟨strategy, heuristic, parallel, timeLimit, budget, scoring⟩ := s
  have scored : (scoring == scoring) = true := by
    cases scoring with
    | valueMinusCost => rfl
    | weightedCost weight =>
      obtain ⟨finite, notLess⟩ := accepted weight rfl
      obtain ⟨_, number, -⟩ := Amount.exists_hasNumber (Amount.nonneg_of_finite finite notLess)
      exact (number.beq_iff number).mpr rfl
  change (strategy == strategy && (heuristic == heuristic && (parallel == parallel
    && (timeLimit == timeLimit && (budget == budget && scoring == scoring))))) = true
  simp only [beq_self_eq_true, scored, Bool.and_self]

/-- With every lawful library, valid settings without a count beyond integers of 64 bits with a sign
are saved, and what is loaded then is what was saved. With such a count, nothing is saved. -/
theorem save_load (lawful : library.Lawful) (s : Settings) (file : File)
    (valid : s.fault? = none) :
    (s.Fits → ∃ saved, s.save file library = .ok saved ∧ load saved library = .ok s ∧
      (s == s) = true) ∧
      (¬ s.Fits → s.save file library = .error (.config .unwritable)) := by
  have accepted := accepted_of_fault? valid
  constructor
  · intro fits
    obtain ⟨text, written, parsed⟩ := read?_text lawful fits accepted
    have back : File.text { file with bytes := some text.toUTF8 } = .ok text := by
      simp only [File.text, fromUTF8?_toUTF8]
    have read : Settings.read text library = .ok s := by
      simp only [Settings.read, parsed, ofDocument, ofDocument?_document fits, checked, valid]
    refine ⟨{ file with bytes := some text.toUTF8 }, ?_, ?_, beq_self accepted⟩
    · rw [save, written]
      rfl
    · rw [load, back]
      exact read
  · intro wide
    rw [save, text_eq_error lawful wide]
    rfl

/-- Settings that weigh costs by a tenth and hold the greatest counts that can be saved. -/
def roomy : Settings where
  strategy := .forward
  timeLimit := some (2 ^ 63 - 1)
  budget := some (2 ^ 63 - 1)
  scoring := .weightedCost 0.1

theorem save_load_roomy :
    roomy.fault? = none ∧ roomy.Fits ∧
      ∃ saved, roomy.save ⟨"planner.toml", none⟩ = .ok saved ∧ load saved = .ok roomy ∧
        (roomy == roomy) = true := by
  have valid : roomy.fault? = none := by rfl
  have countable : Countable (some (2 ^ 63 - 1)) := fun n same => by
    rw [← Option.some.inj same]
    decide
  have fits : roomy.Fits := ⟨countable, countable⟩
  exact ⟨valid, fits, (save_load lawful_own roomy ⟨"planner.toml", none⟩ valid).1 fits⟩

/-- Settings with the longest time limit that a fetch can have. -/
def patient : Settings where
  timeLimit := some (2 ^ 64 - 1)

/-- Valid settings need not be saved. -/
theorem not_saved_patient :
    patient.fault? = none ∧ patient.save ⟨"planner.toml", none⟩ = .error (.config .unwritable) :=
  ⟨rfl, rfl⟩

end ActionPlanning.Settings
