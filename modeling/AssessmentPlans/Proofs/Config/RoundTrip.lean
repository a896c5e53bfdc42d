import AssessmentPlans.Config.Format
import AssessmentPlans.Proofs.Yaml.Events

/-! A configuration is read back from its text. -/
namespace AssessmentPlans
open Yaml

theorem key_framework : IsKey "frameworkId".toList := .of_all (by decide) (by decide) (by decide)

theorem key_controls : IsKey "includeControls".toList := .of_all (by decide) (by decide) (by decide)

theorem ScopeConfig.yamlChars_eq (c : ScopeConfig) : c.yamlChars =
    mappingChars "frameworkId".toList "includeControls".toList c.framework c.controls := by
  unfold yamlChars mappingChars listChars entriesChars
  cases c.controls <;> simp

/-! The events of a text. -/

namespace ScopeConfig

variable {st : Stream} {es : List Event}

theorem readText_textEvent (path text : String) (style : ScalarStyle) :
    readText st path (textEvent text style :: es) = .ok (text, es) := rfl

/-- A sequence of texts is read up to its end. -/
theorem readItems_texts {path : String} {fuel index : Nat} (ids : List String)
    (lasts : ids.length < fuel) : readItems st path fuel index
      (textEvents ids ++ .sequenceEnd :: es) = .ok (ids, es) := by
  induction ids generalizing fuel index with
  | nil =>
      obtain ⟨fuel, rfl⟩ := Nat.exists_eq_succ_of_ne_zero (Nat.ne_of_gt lasts)
      rfl
  | cons id ids ih =>
      cases fuel with
      | zero => exact absurd lasts (Nat.not_lt_zero _)
      | succ fuel =>
          have later := @ih fuel (index + 1) (Nat.lt_of_succ_lt_succ lasts)
          rw [textEvents, List.map_cons, List.cons_append, readItems]
          · rw [readText_textEvent]
            simp only [bind, Except.bind]
            rw [← textEvents, later]
            rfl
          · rintro _ ⟨⟩

theorem readTexts_texts (path : String) (ids : List String) : readTexts st path
    (.sequenceStart :: (textEvents ids ++ .sequenceEnd :: es)) = .ok (ids, es) := by
  have lasts : ids.length < (textEvents ids ++ .sequenceEnd :: es).length + 1 := by
    rw [List.length_append, textEvents, List.length_map]
    omega
  have items : readItems st path _ 0 _ = .ok (ids, es) := readItems_texts ids lasts
  rw [readTexts]
  simp only [nextEvent, followAlias, bind, Except.bind, items]
  rfl

theorem readMembers_framework {fuel : Nat} {controls : Option (List String)} (text : String)
    (style : ScalarStyle) : readMembers st (fuel + 1) ⟨none, controls⟩
      (textEvent "frameworkId" .plain :: textEvent text style :: es) =
      readMembers st fuel ⟨some text, controls⟩ es := rfl

theorem readMembers_controls {fuel : Nat} {framework : Option String} (ids : List String) :
    readMembers st (fuel + 1) ⟨framework, none⟩ (textEvent "includeControls" .plain ::
        .sequenceStart :: (textEvents ids ++ .sequenceEnd :: es)) =
      readMembers st fuel ⟨framework, some ids⟩ es := by
  have list := @readTexts_texts st es "includeControls" ids
  have step : readMembers st (fuel + 1) ⟨framework, none⟩ (textEvent "includeControls" .plain ::
      .sequenceStart :: (textEvents ids ++ .sequenceEnd :: es)) =
      (readTexts st "includeControls" (.sequenceStart :: (textEvents ids ++ .sequenceEnd :: es)) >>=
        fun read => readMembers st fuel ⟨framework, some read.1⟩ read.2) := rfl
  rw [step, list]
  rfl

theorem readMembers_end {fuel : Nat} {parts : Parts} :
    readMembers st (fuel + 1) parts (.mappingEnd :: es) = .ok (parts, es) := rfl

theorem readMembers_mapping {fuel : Nat} (c : ScopeConfig) (lasts : 3 ≤ fuel) :
    readMembers st fuel ⟨none, none⟩ (textEvent "frameworkId" .plain ::
      textEvent c.framework (styleFor c.framework) :: textEvent "includeControls" .plain ::
        .sequenceStart :: (textEvents c.controls ++ [.sequenceEnd, .mappingEnd])) =
      .ok (⟨some c.framework, some c.controls⟩, []) := by
  obtain ⟨fuel, rfl⟩ := Nat.exists_eq_add_of_le' lasts
  rw [readMembers_framework, readMembers_controls, readMembers_end]

/-- A configuration is read back from its text as it was. -/
theorem ofYaml_yaml (c : ScopeConfig) : ofYaml c.yaml = .ok c := by
  have events : ofEvents ⟨mappingEvents "frameworkId".toList "includeControls".toList c.framework
      c.controls, [], none, false⟩ = .ok c := by
    rw [ofEvents]
    simp only [mappingEvents, String.ofList_toList, nextEvent, bind, Except.bind]
    rw [readMembers_mapping c (by simp only [List.length_cons]; omega)]
    rfl
  rw [ofYaml, yaml, yamlChars_eq, tokensOf_mapping key_framework key_controls]
  simp only [ofTokens_mapping, ofStream, events]
  rfl

end ScopeConfig
end AssessmentPlans
