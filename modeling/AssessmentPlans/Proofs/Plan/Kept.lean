import AssessmentPlans.Command.Run
import AssessmentPlans.Proofs.Plan.Members

/-! Rules for the members that are no fields are kept by what is done to plans, since
nothing but fields is changed, and hold for plans that have just been built. -/
namespace AssessmentPlans

variable {R S T : Nat → List String → List (String × Json.Value) → Prop} {room : Nat}

/-! Two rules together. -/

section Both

variable (merge : ∀ room names others, R room names others → S room names others →
  T room names others)
include merge

theorem EveryProps.both {props : Option (List Property)} (h : EveryProps R room props)
    (h' : EveryProps S room props) : EveryProps T room props :=
  fun ps same p hp => merge _ _ _ (h ps same p hp) (h' ps same p hp)

theorem Selection.Every.both {s : Selection} (h : s.Every R room) (h' : s.Every S room) :
    s.Every T room :=
  ⟨h.props.both merge h'.props, merge _ _ _ h.others h'.others⟩

theorem Review.Every.both {r : Review} (h : r.Every R room) (h' : r.Every S room) :
    r.Every T room :=
  ⟨h.props.both merge h'.props, fun s hs => (h.selections s hs).both merge (h'.selections s hs),
    merge _ _ _ h.others h'.others⟩

theorem Step.Every.both {s : Step} (h : s.Every R room) (h' : s.Every S room) : s.Every T room :=
  ⟨h.props.both merge h'.props, fun r same => (h.reviewed r same).both merge (h'.reviewed r same),
    merge _ _ _ h.others h'.others⟩

theorem Activity.Every.both {a : Activity} (h : a.Every R room) (h' : a.Every S room) :
    a.Every T room :=
  ⟨h.props.both merge h'.props,
    fun ss same s hs => (h.steps ss same s hs).both merge (h'.steps ss same s hs),
    fun r same => (h.related r same).both merge (h'.related r same),
    merge _ _ _ h.others h'.others⟩

theorem LocalDefinitions.Every.both {l : LocalDefinitions} (h : l.Every R room)
    (h' : l.Every S room) : l.Every T room :=
  ⟨fun as same a ha => (h.activities as same a ha).both merge (h'.activities as same a ha),
    merge _ _ _ h.others h'.others⟩

theorem Plan.Every.both {p : Plan} (h : p.Every R room) (h' : p.Every S room) : p.Every T room :=
  ⟨merge _ _ _ h.metadata h'.metadata, merge _ _ _ h.systemPlan h'.systemPlan,
    fun l same => (h.definitions l same).both merge (h'.definitions l same),
    h.reviewed.both merge h'.reviewed, merge _ _ _ h.others h'.others⟩

end Both

/-! Tailoring. The marker is a property of its own, with no other members. -/

section Tailoring

variable (empty : ∀ room names, R room names [])

include empty in
theorem setMarker_every {ps : List Property} (h : ∀ p ∈ ps, p.Every R room) :
    ∀ p ∈ Property.setMarker ps, p.Every R room := by
  induction ps with
  | nil =>
      intro p hp
      rw [List.mem_singleton.mp hp]
      exact empty _ _
  | cons p ps ih =>
      obtain ⟨first, later⟩ := List.forall_mem_cons.mp h
      unfold Property.setMarker
      split
      · exact List.forall_mem_cons.mpr ⟨first, later⟩
      · exact List.forall_mem_cons.mpr ⟨first, ih later⟩

include empty in
theorem EveryProps.markSkipped {props : Option (List Property)} (h : EveryProps R room props) :
    EveryProps R room (Property.markSkipped props) := by
  rintro _ ⟨⟩
  apply setMarker_every empty
  cases props with
  | none => exact nofun
  | some ps => exact h ps rfl

theorem Review.Every.prune {r : Review} (h : r.Every R room) (scope : IdSet) :
    (r.prune scope).Every R room := by
  refine ⟨h.props, ?_, h.others⟩
  intro s hs
  obtain ⟨t, ht, rfl⟩ := List.mem_map.mp (List.mem_filter.mp hs).1
  exact ⟨(h.selections t ht).props, (h.selections t ht).others⟩

theorem Review.Every.narrow {r : Review} (h : r.Every R room) (scope : IdSet) :
    (r.narrow scope).Every R room := by
  refine ⟨h.props, ?_, h.others⟩
  intro s hs
  obtain ⟨t, ht, rfl⟩ := List.mem_map.mp hs
  exact ⟨(h.selections t ht).props, (h.selections t ht).others⟩

include empty in
theorem tailorBranch_every (scope : IdSet) {review : Option Review}
    {props : Option (List Property)} (h : ∀ r, review = some r → r.Every R (room - 1))
    (h' : EveryProps R room props) :
    (∀ r, (tailorBranch scope review props).1 = some r → r.Every R (room - 1)) ∧
      EveryProps R room (tailorBranch scope review props).2 := by
  cases review with
  | none => exact ⟨nofun, h'⟩
  | some r =>
      cases gone : r.vanishes scope with
      | true =>
          simp only [tailorBranch, gone, if_true]
          exact ⟨nofun, h'.markSkipped empty⟩
      | false =>
          simp only [tailorBranch, gone, Bool.false_eq_true, if_false]
          refine ⟨?_, h'⟩
          rintro _ ⟨⟩
          exact (h r rfl).prune scope

include empty in
theorem Step.Every.tailor {s : Step} (h : s.Every R room) (scope : IdSet) :
    (s.tailor scope).Every R room := by
  obtain ⟨reviewed, props⟩ := tailorBranch_every empty scope h.reviewed h.props
  exact ⟨props, reviewed, h.others⟩

include empty in
theorem Activity.Every.tailor {a : Activity} (h : a.Every R room) (scope : IdSet) :
    (a.tailor scope).Every R room := by
  obtain ⟨related, props⟩ := tailorBranch_every empty scope h.related h.props
  refine ⟨props, ?_, related, h.others⟩
  intro ss same s hs
  obtain ⟨old, before, rfl⟩ := Option.map_eq_some_iff.mp same
  obtain ⟨t, ht, rfl⟩ := List.mem_map.mp hs
  exact (h.steps old before t ht).tailor empty scope

include empty in
theorem Plan.Every.tailor {p : Plan} (h : p.Every R room) (scope : IdSet) :
    (p.tailor scope).Every R room := by
  refine ⟨h.metadata, h.systemPlan, ?_, h.reviewed.narrow scope, h.others⟩
  intro l same
  obtain ⟨old, before, rfl⟩ := Option.map_eq_some_iff.mp same
  refine ⟨?_, (h.definitions old before).others⟩
  intro as same a ha
  obtain ⟨olds, before', rfl⟩ := Option.map_eq_some_iff.mp same
  obtain ⟨b, hb, rfl⟩ := List.mem_map.mp ha
  exact ((h.definitions old before).activities olds before' b hb).tailor empty scope

end Tailoring

theorem Plan.Every.touch {p : Plan} (h : p.Every R room) (now : Instant) :
    (p.touch now).Every R room :=
  ⟨h.metadata, h.systemPlan, h.definitions, h.reviewed, h.others⟩

/-! Building. -/

section Building

variable (empty : ∀ room names, R room names [])
include empty

theorem everyProps_plain (name value : String) : EveryProps R room (some [.plain name value]) := by
  rintro _ ⟨⟩ p hp
  rw [List.mem_singleton.mp hp]
  exact empty _ _

theorem Review.ofIds_every (ids : List String) : (Review.ofIds ids).Every R room := by
  refine ⟨nofun, ?_, empty _ _⟩
  intro s hs
  rw [List.mem_singleton.mp hs]
  exact ⟨nofun, empty _ _⟩

theorem Check.step_every (uuid : String) (controls : List String) (c : Check) :
    (c.step uuid controls).Every R room := by
  refine ⟨everyProps_plain empty _ _, ?_, empty _ _⟩
  rintro _ ⟨⟩
  exact Review.ofIds_every empty controls

theorem ruleActivity_every (ds : List Definition) (ids : Nat → String) (rule : String)
    (controls : List String) : (ruleActivity ds ids rule controls).Every R room := by
  refine ⟨everyProps_plain empty _ _, ?_, ?_, empty _ _⟩
  · intro ss same s hs
    simp only [ruleActivity, ruleSteps] at same
    split at same
    · cases same
    · cases same
      obtain ⟨n, bound, rfl⟩ := List.mem_mapIdx.mp hs
      exact Check.step_every empty _ _ _
  · rintro _ ⟨⟩
    exact Review.ofIds_every empty _

theorem ruleActivities_every (ds : List Definition) (ids : Nat → String)
    (rules : List (String × List String)) :
    ∀ a ∈ ruleActivities ds ids rules, a.Every R room := by
  induction rules generalizing ids with
  | nil => exact nofun
  | cons rule rules ih =>
      exact List.forall_mem_cons.mpr ⟨ruleActivity_every empty ds ids rule.1 rule.2, ih _⟩

theorem Plan.synthesize_every {framework : String} {ds : List Definition} {ids : Nat → String}
    {now : String} {p : Plan} (h : synthesize framework ds ids now = .ok p) : p.Every R room := by
  unfold synthesize at h
  split at h
  · cases h
  · cases h
    refine ⟨empty _ _, empty _ _, ?_, Review.ofIds_every empty _, empty _ _⟩
    intro l same
    split at same
    · cases same
    · cases same
      refine ⟨?_, empty _ _⟩
      rintro _ ⟨⟩
      exact ruleActivities_every empty ds _ _

end Building
end AssessmentPlans
