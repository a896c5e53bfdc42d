import AssessmentPlans.Proofs.Config.Validity
import AssessmentPlans.Proofs.Distinct
import AssessmentPlans.Proofs.Text.Split
import AssessmentPlans.Proofs.Text.Trim

/-! The controls of a configuration replaced by a list with commas. Whatever the list, what stands
in the configuration afterwards is accepted, and any accepted controls without commas can be given
as such a list. -/
namespace AssessmentPlans

theorem mem_commaSeparated {text id : String} :
    id ∈ commaSeparated text ↔ ∃ piece ∈ Text.split ',' text, Text.trim piece = id ∧ id ≠ "" := by
  rw [commaSeparated, List.mem_filter, List.mem_map, decide_eq_true_iff]
  constructor
  · rintro ⟨⟨piece, part, rfl⟩, filled⟩
    exact ⟨piece, part, rfl, filled⟩
  · rintro ⟨piece, part, rfl, filled⟩
    exact ⟨⟨piece, part, rfl⟩, filled⟩

/-- A text of commas and white space lists nothing. -/
theorem commaSeparated_idle {text : String}
    (idle : ∀ c ∈ text.toList, c = ',' ∨ Text.isBlank c = true) : commaSeparated text = [] := by
  rw [List.eq_nil_iff_forall_not_mem]
  intro id member
  obtain ⟨piece, part, rfl, filled⟩ := mem_commaSeparated.mp member
  refine filled (Text.trim_eq_empty.mpr fun c inside => ?_)
  obtain ⟨cs, cut, rfl⟩ := List.mem_map.mp part
  obtain ⟨single, within⟩ := Text.splitOn_pieces cs cut
  rw [String.toList_ofList] at inside
  refine (idle c (within inside)).resolve_left ?_
  rintro rfl
  exact single inside

/-- The ids stand in the pieces in this order, each with white space around it, and the other
pieces are blank. -/
inductive Spells : List String → List String → Prop where
  | nil : Spells [] []
  | blank {piece : String} {pieces ids : List String} (empty : Text.Blank piece)
      (rest : Spells pieces ids) : Spells (piece :: pieces) ids
  | id {front id back : String} {pieces ids : List String} (before : Text.Blank front)
      (after : Text.Blank back) (rest : Spells pieces ids) :
      Spells ((front ++ id ++ back) :: pieces) (id :: ids)

theorem Spells.single {pieces ids : List String} (spells : Spells pieces ids)
    (plain : ∀ id ∈ ids, ',' ∉ id.toList) : ∀ piece ∈ pieces, ',' ∉ piece.toList := by
  have solid : Text.isBlank ',' = false := rfl
  have outside : ∀ s, Text.Blank s → ',' ∉ s.toList :=
    fun s blank member => Bool.noConfusion ((blank ',' member).symm.trans solid)
  induction spells with
  | nil => exact List.forall_mem_nil _
  | blank empty rest ih => exact List.forall_mem_cons.mpr ⟨outside _ empty, ih plain⟩
  | id before after rest ih =>
      obtain ⟨own, others⟩ := List.forall_mem_cons.mp plain
      refine List.forall_mem_cons.mpr ⟨?_, ih others⟩
      rw [String.toList_append, String.toList_append, List.mem_append, List.mem_append]
      rintro ((inFront | inside) | behind)
      · exact outside _ before inFront
      · exact own inside
      · exact outside _ after behind

theorem Spells.trimmed {pieces ids : List String} (spells : Spells pieces ids)
    (clean : ∀ id ∈ ids, ¬Text.Blank id ∧ Text.trim id = id) :
    (pieces.map Text.trim).filter (· ≠ "") = ids := by
  induction spells with
  | nil => rfl
  | blank empty rest ih =>
      rw [List.map_cons, Text.trim_eq_empty.mpr empty]
      exact ih clean
  | id before after rest ih =>
      obtain ⟨⟨filled, same⟩, others⟩ := List.forall_mem_cons.mp clean
      have read := (Text.trim_padded before after).trans same
      have some := mt Text.trim_eq_empty.mp filled
      rw [same] at some
      rw [List.map_cons, read, List.filter_cons_of_pos (by simpa using some), ih others]

/-- Ids without commas are read from any list that spells them. -/
theorem Spells.commaSeparated {pieces ids : List String} (spells : Spells pieces ids)
    (clean : ∀ id ∈ ids, ¬Text.Blank id ∧ Text.trim id = id)
    (plain : ∀ id ∈ ids, ',' ∉ id.toList) : commaSeparated (",".intercalate pieces) = ids := by
  cases pieces with
  | nil =>
      cases spells
      rfl
  | cons piece pieces =>
      have divides : Text.Divides ',' (piece :: pieces) (",".intercalate (piece :: pieces)) :=
        ⟨List.cons_ne_nil piece pieces, spells.single plain, rfl⟩
      rw [AssessmentPlans.commaSeparated, divides.split_eq, spells.trimmed clean]

/-- These are the ids that stand between the commas of a text, without the white space around
them, each once and where it stands first. -/
structure ListedIn (text : String) (ids : List String) : Prop where
  once : ids.Nodup
  filled : ∀ id ∈ ids, id ≠ ""
  trimmed : ∀ id ∈ ids, Text.trim id = id
  single : ∀ id ∈ ids, ',' ∉ id.toList
  order : ∃ pieces, Text.Divides ',' pieces text ∧
    FirstAppearances ids ((pieces.map Text.trim).filter (· ≠ ""))

theorem listedIn_commaSeparated (text : String) : ListedIn text (distinct (commaSeparated text)) := by
  constructor
  · exact distinct_nodup _
  · intro id member
    obtain ⟨piece, _, _, filled⟩ := mem_commaSeparated.mp (mem_distinct.mp member)
    exact filled
  · intro id member
    obtain ⟨piece, _, rfl, _⟩ := mem_commaSeparated.mp (mem_distinct.mp member)
    exact Text.trim_trim piece
  · intro id member
    obtain ⟨piece, part, rfl, _⟩ := mem_commaSeparated.mp (mem_distinct.mp member)
    exact mt Text.mem_of_mem_trim ((Text.split_divides ',' text).single piece part)
  · exact ⟨Text.split ',' text, Text.split_divides ',' text, distinct_firstAppearances _⟩

/-- Where only the controls are given, by any text at all, they are those that the text lists, and
a configuration with a framework is accepted then. Accepted controls without repetitions and commas
are given back exactly by every text that spells them. -/
theorem controls_given_as_text (lookup : String → Option String) (text : String)
    (given : lookup ScopeConfig.controlsVariable = some text) :
    (∀ (c : ScopeConfig) (expected : Option String),
      lookup ScopeConfig.frameworkVariable = none → ¬Text.Blank c.framework →
      (c.override lookup).framework = c.framework ∧ ListedIn text (c.override lookup).controls ∧
        (c.override lookup).validate expected = .ok ((c.override lookup).warnings expected)) ∧
    ∀ (c : ScopeConfig) (expected : Option String) (warnings : List String) (pieces : List String),
      c.validate expected = .ok warnings → c.controls.Nodup →
      (∀ id ∈ c.controls, ',' ∉ id.toList) → Spells pieces c.controls →
      ",".intercalate pieces = text →
      ∀ before : ScopeConfig, (before.override lookup).controls = c.controls := by
  have replaced : ∀ c : ScopeConfig,
      (c.override lookup).controls = distinct (commaSeparated text) := by
    intro c
    rw [ScopeConfig.override, given]
  constructor
  · intro c expected unset named
    have kept : (c.override lookup).framework = c.framework := by
      rw [ScopeConfig.override, unset]
      rfl
    have listed := replaced c ▸ listedIn_commaSeparated text
    have clean : ∀ id ∈ (c.override lookup).controls, ¬Text.Blank id ∧ Text.trim id = id := by
      intro id member
      have same := listed.trimmed id member
      refine ⟨fun blank => listed.filled id member ?_, same⟩
      rw [← same, Text.trim_eq_empty.mpr blank]
    have sound := ScopeConfig.defects_eq_nil.mpr ⟨kept ▸ named, clean⟩
    exact ⟨kept, listed, ScopeConfig.validate_eq_ok.mpr ⟨sound, rfl⟩⟩
  · rintro c expected warnings pieces accepted nodup plain spells rfl before
    obtain ⟨sound, _⟩ := ScopeConfig.validate_eq_ok.mp accepted
    obtain ⟨_, clean⟩ := ScopeConfig.defects_eq_nil.mp sound
    rw [replaced, spells.commaSeparated clean plain]
    exact distinctBy_eq_self nodup

/-- The second of two controls has white space around it, and two pieces are empty. -/
def spacedPieces : List String := ["" ++ "1.1" ++ "", "", "\t" ++ "1.2" ++ " ", " "]

def spacedControls (name : String) : Option String :=
  if name = ScopeConfig.controlsVariable then some "1.1,,\t1.2 , " else none

theorem controls_given_as_text_spaced :
    ((ScopeConfig.mk "cis" ["2.1"]).override spacedControls).controls = ["1.1", "1.2"] ∧
      ((ScopeConfig.mk "cis" ["2.1"]).override spacedControls).validate (some "cis") = .ok [] := by
  have empty : Text.Blank "" := by decide
  have tab : Text.Blank "\t" := by decide
  have space : Text.Blank " " := by decide
  have spells : Spells spacedPieces ["1.1", "1.2"] :=
    .id empty empty (.blank empty (.id tab space (.blank space .nil)))
  obtain ⟨accepted, read⟩ := controls_given_as_text spacedControls "1.1,,\t1.2 , " (by decide +kernel)
  have same := read ⟨"cis", ["1.1", "1.2"]⟩ none [] spacedPieces (by decide +kernel)
    (by decide +kernel) (by decide +kernel) spells (by decide +kernel) ⟨"cis", ["2.1"]⟩
  obtain ⟨_, _, sound⟩ := accepted ⟨"cis", ["2.1"]⟩ (some "cis") (by decide +kernel) (by decide +kernel)
  exact ⟨same, sound.trans (by decide +kernel)⟩

end AssessmentPlans
