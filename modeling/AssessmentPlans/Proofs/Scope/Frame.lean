import AssessmentPlans.Proofs.Scope.Rules
import AssessmentPlans.Proofs.Scope.Walk
import Mathlib.Data.List.Forall2

/-! What tailoring leaves alone. It changes which controls a selection includes, drops
selections without controls from branches, and clears the branches that lose all of theirs;
the owner of a cleared branch gets the marker. Everything else stays as it was. -/
namespace AssessmentPlans

namespace Property

/-- A property that marks a part as skipped if it is set. -/
def IsMarker (p : Property) : Prop := p.name = skipped ∧ p.ns = some toolNamespace

/-- The first marker is set and keeps its other fields, or a new one comes last. -/
inductive Marked : List Property → List Property → Prop where
  | set {before after : List Property} {p : Property} (marker : p.IsMarker)
      (first : ∀ x ∈ before, ¬x.IsMarker) :
      Marked (before ++ p :: after) (before ++ { p with value := "true" } :: after)
  | added {ps : List Property} (unmarked : ∀ x ∈ ps, ¬x.IsMarker) :
      Marked ps (ps ++ [⟨skipped, "true", some toolNamespace, none, []⟩])

end Property

section Framed

variable (scope : IdSet)

/-- Whether a selection includes a control in scope. All controls include those of the scope. -/
def Selection.meets (s : Selection) : Bool :=
  if s.includeAll then !scope.isEmpty else s.includedRefs.any (·.id ∈ scope)

/-- Selections that differ in what they include and in nothing else. -/
def Selection.Framed (s t : Selection) : Prop :=
  { t with includeAll := s.includeAll, includes := s.includes } = s

/-- Of the selections those with a control in scope are left, in their order. -/
structure Review.Framed (r q : Review) : Prop where
  rest : { q with selections := r.selections } = r
  selections : List.Forall₂ Selection.Framed (r.selections.filter (·.meets scope)) q.selections

/-- A branch has selections, and none of them includes a control in scope. -/
def Cleared (review : Option Review) : Prop :=
  ∃ r, review = some r ∧ r.selections ≠ [] ∧ ∀ s ∈ r.selections, s.meets scope = false

/-- What becomes of the review of a branch and of the properties of its owner. -/
structure OwnerFramed (review review' : Option Review) (props props' : Option (List Property)) :
    Prop where
  kept : ¬Cleared scope review →
    Option.Rel (Review.Framed scope) review review' ∧ props' = props
  cleared : Cleared scope review →
    review' = none ∧ ∃ ps, props' = some ps ∧ Property.Marked (props.getD []) ps
  skipped : Property.isSkipped props' = true ↔
    Property.isSkipped props = true ∨ Cleared scope review

structure Step.Framed (s t : Step) : Prop where
  rest : { t with reviewed := s.reviewed, props := s.props } = s
  owner : OwnerFramed scope s.reviewed t.reviewed s.props t.props

structure Activity.Framed (a b : Activity) : Prop where
  rest : { b with related := a.related, props := a.props, steps := a.steps } = a
  owner : OwnerFramed scope a.related b.related a.props b.props
  steps : Option.Rel (List.Forall₂ (Step.Framed scope)) a.steps b.steps

structure LocalDefinitions.Framed (d e : LocalDefinitions) : Prop where
  rest : { e with activities := d.activities } = d
  activities : Option.Rel (List.Forall₂ (Activity.Framed scope)) d.activities e.activities

/-- At the top no selection is dropped. -/
structure Plan.Framed (p q : Plan) : Prop where
  rest : { q with definitions := p.definitions, reviewed := p.reviewed } = p
  definitions : Option.Rel (LocalDefinitions.Framed scope) p.definitions q.definitions
  reviewed : { q.reviewed with selections := p.reviewed.selections } = p.reviewed
  selections : List.Forall₂ Selection.Framed p.reviewed.selections q.reviewed.selections

end Framed

/-! The marker. -/

theorem Property.isNamed_marker {p : Property} :
    p.isNamed skipped (some toolNamespace) = true ↔ p.IsMarker := by
  rw [isNamed, Bool.and_eq_true, beq_iff_eq, beq_iff_eq]
  rfl

theorem Property.setMarker_marked (ps : List Property) : Marked ps (setMarker ps) := by
  induction ps with
  | nil => exact .added (List.forall_mem_nil _)
  | cons p ps ih =>
      by_cases marker : p.IsMarker
      · rw [setMarker, if_pos (isNamed_marker.mpr marker)]
        exact @Marked.set [] ps p marker (List.forall_mem_nil _)
      · rw [setMarker, if_neg (mt isNamed_marker.mp marker)]
        -- the marker of the list is that of its tail, or the tail has none
        generalize setMarker ps = qs at ih
        cases ih with
        | @set before after q found first =>
            exact @Marked.set (p :: before) after q found (List.forall_mem_cons.mpr ⟨marker, first⟩)
        | added unmarked => exact .added (List.forall_mem_cons.mpr ⟨marker, unmarked⟩)

/-! Selections and branches. -/

section Tailoring

variable {scope : IdSet}

/-- What is left of a selection has a control exactly if the selection had one in scope. -/
theorem Selection.narrow_selectsAny_eq_meets (s : Selection) :
    (s.narrow scope).selectsAny = s.meets scope := by
  rw [narrow_selectsAny, keptRefs, meets]
  cases s.includeAll with
  | true => simp only [if_true, List.isEmpty_map, IdSet.isEmpty]
  | false =>
      simp only [Bool.false_eq_true, if_false]
      cases met : s.includedRefs.filter fun c => c.id ∈ scope with
      | nil =>
          have none : s.includedRefs.any (·.id ∈ scope) = false := by
            rw [List.any_eq_false]
            exact List.filter_eq_nil_iff.mp met
          rw [none]
          rfl
      | cons c cs =>
          have member : c ∈ s.includedRefs.filter fun c => c.id ∈ scope := by
            rw [met]
            exact List.mem_cons_self
          obtain ⟨listed, inside⟩ := List.mem_filter.mp member
          rw [List.any_eq_true.mpr ⟨c, listed, inside⟩]
          rfl

theorem Selection.narrow_framed (s : Selection) : s.Framed (s.narrow scope) := rfl

theorem Review.surviving_eq_map (r : Review) :
    r.surviving scope = (r.selections.filter (·.meets scope)).map (·.narrow scope) := by
  rw [surviving, List.filter_map]
  congr 1
  apply List.filter_congr
  intro s _
  exact s.narrow_selectsAny_eq_meets

theorem Selection.map_narrow_framed (ss : List Selection) :
    List.Forall₂ Framed ss (ss.map (·.narrow scope)) := by
  rw [List.forall₂_map_right_iff, List.forall₂_same]
  intro s _
  exact s.narrow_framed

theorem Review.prune_framed (r : Review) : r.Framed scope (r.prune scope) := by
  refine ⟨rfl, ?_⟩
  show List.Forall₂ _ _ (r.surviving scope)
  rw [surviving_eq_map]
  exact Selection.map_narrow_framed _

theorem Review.vanishes_iff_cleared {r : Review} :
    r.vanishes scope = true ↔ Cleared scope (some r) := by
  rw [vanishes, surviving_eq_map, Bool.and_eq_true, Bool.not_eq_true', List.isEmpty_map,
    List.isEmpty_iff, List.filter_eq_nil_iff, List.isEmpty_eq_false_iff]
  constructor
  · intro gone
    obtain ⟨filled, missed⟩ := gone
    exact ⟨r, rfl, filled, fun s member => Bool.eq_false_iff.mpr (missed s member)⟩
  · rintro ⟨_, ⟨⟩, filled, missed⟩
    exact ⟨filled, fun s member => Bool.eq_false_iff.mp (missed s member)⟩

theorem tailorBranch_framed (review : Option Review) (props : Option (List Property)) :
    OwnerFramed scope review (tailorBranch scope review props).1 props
      (tailorBranch scope review props).2 := by
  cases review with
  | none =>
      have stays : ¬Cleared scope none := fun ⟨_, absent, _⟩ => nomatch absent
      exact ⟨fun _ => ⟨.none, rfl⟩, fun gone => absurd gone stays, (or_iff_left stays).symm⟩
  | some r =>
      by_cases gone : Cleared scope (some r)
      · rw [tailorBranch, if_pos (Review.vanishes_iff_cleared.mpr gone)]
        have marked := Property.setMarker_marked (props.getD [])
        exact ⟨fun stays => absurd gone stays, fun _ => ⟨rfl, _, rfl, marked⟩,
          iff_of_true (Property.isSkipped_markSkipped props) (.inr gone)⟩
      · rw [tailorBranch, if_neg (mt Review.vanishes_iff_cleared.mp gone)]
        exact ⟨fun _ => ⟨.some r.prune_framed, rfl⟩, fun cleared => absurd cleared gone,
          (or_iff_left gone).symm⟩

/-! Whole plans. -/

/-- A part of a list that is done with item by item. -/
theorem rel_map {α : Type} {R : α → α → Prop} {f : α → α} (each : ∀ a, R a (f a))
    (as : Option (List α)) : Option.Rel (List.Forall₂ R) as (as.map (·.map f)) := by
  cases as with
  | none => exact .none
  | some as =>
      apply Option.Rel.some
      rw [List.forall₂_map_right_iff, List.forall₂_same]
      intro a _
      exact each a

theorem Step.tailor_framed (s : Step) : s.Framed scope (s.tailor scope) :=
  ⟨rfl, tailorBranch_framed s.reviewed s.props⟩

theorem Activity.tailor_framed (a : Activity) : a.Framed scope (a.tailor scope) :=
  ⟨rfl, tailorBranch_framed a.related a.props, rel_map Step.tailor_framed a.steps⟩

theorem Plan.tailor_framed (p : Plan) : p.Framed scope (p.tailor scope) := by
  refine ⟨rfl, ?_, rfl, Selection.map_narrow_framed _⟩
  show Option.Rel _ p.definitions (p.definitions.map _)
  cases p.definitions with
  | none => exact .none
  | some d => exact .some ⟨rfl, rel_map Activity.tailor_framed d.activities⟩

end Tailoring

/-- Whoever observes it, the walk that tailors a plan changes in it only what the scope asks
for, and marks exactly the owners of the branches that it clears. -/
theorem walk_framed {σ : Type} (o : Observer σ) (s : σ) (scope : IdSet) (p : Plan) :
    p.Framed scope ((p.walk o scope).run s).1 := by
  rw [p.walk_tells]
  exact p.tailor_framed

end AssessmentPlans
