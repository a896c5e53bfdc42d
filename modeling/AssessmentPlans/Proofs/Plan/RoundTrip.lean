import AssessmentPlans.Proofs.Json.Lookup
import AssessmentPlans.Proofs.Plan.Spelling

/-! A plan and each of its parts is what its written form stands for, as long as none of
the members that are no fields has the name of a field. -/
namespace AssessmentPlans
open Json Json.Value

variable {P : Value → Prop} {room : Nat}

/-- What simplification knows of the written form of a part. -/
theorem others_written {names : List String} {others : List (String × Value)}
    (h : Remainder P room names others) :
    (∀ key ∈ names, (object others).get? key = none) ∧ (object others).besides names = others :=
  ⟨get?_eq_none h.apart, besides_others h.apart⟩

theorem Property.ofValue_toValue {p : Property} (h : p.Every (Remainder P) room) :
    ofValue p.toValue = p := by
  obtain ⟨absent, rest⟩ := others_written h
  simp only [fields, Fields.ofList, Fields.names, List.forall_mem_cons] at absent rest
  simp [ofValue, toValue, getText, getText?, asText?, besides_cons, besides_optionalMember,
    fields, Fields.ofList, Fields.names, absent, rest]

theorem propsOf_eq {v : Value} {props : Option (List Property)} (h : EveryProps (Remainder P) room props)
    (member : v.get? "props" = props.map fun ps => .array (ps.map Property.toValue)) :
    propsOf v = props := by
  rw [propsOf, getItems?, member]
  exact items_write_read fun ps same p hp => Property.ofValue_toValue (h ps same p hp)

theorem Metadata.ofValue_toValue {m : Metadata} (h : m.Every (Remainder P) room) :
    ofValue m.toValue = m := by
  obtain ⟨_, rest⟩ := others_written h
  simp only [fields, Fields.ofList, Fields.names] at rest
  simp [ofValue, toValue, getText, getText?, asText?, besides_cons, fields, Fields.ofList,
    Fields.names, rest]

theorem SystemPlan.ofValue_toValue {s : SystemPlan} (h : s.Every (Remainder P) room) :
    ofValue s.toValue = s := by
  obtain ⟨_, rest⟩ := others_written h
  simp only [fields, Fields.ofList, Fields.names] at rest
  simp [ofValue, toValue, getText, getText?, asText?, besides_cons, fields, Fields.ofList,
    Fields.names, rest]

theorem ControlRef.ofValue_toValue (c : ControlRef) : ofValue c.toValue = c := by
  have texts : ∀ ids : List String, (ids.map Value.text).filterMap asText? = ids := by
    intro ids
    rw [List.filterMap_map]
    exact List.filterMap_some
  obtain ⟨id, statements⟩ := c
  cases statements with
  | none => rfl
  | some ids => exact congrArg (fun ids => (⟨id, some ids⟩ : ControlRef)) (texts ids)

theorem Selection.ofValue_toValue {s : Selection} (h : s.Every (Remainder P) room) :
    ofValue s.toValue = s := by
  obtain ⟨absent, rest⟩ := others_written h.others
  simp only [fields, Fields.ofList, Fields.names, List.forall_mem_cons] at absent rest
  have mark : (if s.includeAll then [("include-all", object [])] else []) =
      optionalMember "include-all" (if s.includeAll then some (object []) else none) := by
    cases s.includeAll <;> rfl
  have form : s.toValue = object (optionalMember "description" (s.description.map text) ++
      (optionalMember "props" (s.props.map fun ps => array (ps.map Property.toValue)) ++
      (optionalMember "include-all" (if s.includeAll then some (object []) else none) ++
      (optionalMember "include-controls" (s.includes.map fun rs => array (rs.map ControlRef.toValue)) ++
      (optionalMember "exclude-controls" (s.excludes.map fun rs => array (rs.map ControlRef.toValue)) ++
      s.others))))) := by
    rw [toValue, mark]
    simp only [textMember, propsMember, refsMember, List.append_assoc]
  have props : propsOf s.toValue = s.props := propsOf_eq h.props (by simp [form, absent])
  have all : (s.toValue.get? "include-all").isSome = s.includeAll := by
    cases on : s.includeAll <;> simp [form, absent, on]
  have refs : ∀ rs? : Option (List ControlRef),
      ((rs?.map fun rs => array (rs.map ControlRef.toValue)).map items).map
        (·.map ControlRef.ofValue) = rs? :=
    fun rs? => items_write_read fun _ _ c _ => c.ofValue_toValue
  have others : s.toValue.besides fields.names = s.others := by
    simp [form, besides_optionalMember, fields, Fields.ofList, Fields.names, rest]
  rw [ofValue, props, all, others, form]
  simp only [getText?, getItems?, get?_optionalMember, absent, String.reduceEq, if_true, if_false,
    Option.or_none, asText?_optional, refs]

theorem Review.ofValue_toValue {r : Review} (h : r.Every (Remainder P) room) :
    ofValue r.toValue = r := by
  obtain ⟨absent, rest⟩ := others_written h.others
  simp only [fields, Fields.ofList, Fields.names, List.forall_mem_cons] at absent rest
  have form : r.toValue = object (optionalMember "description" (r.description.map text) ++
      (optionalMember "props" (r.props.map fun ps => array (ps.map Property.toValue)) ++
      (("control-selections", array (r.selections.map Selection.toValue)) :: r.others))) := by
    simp only [toValue, textMember, propsMember, List.append_assoc]
  have props : propsOf r.toValue = r.props := propsOf_eq h.props (by simp [form, absent])
  have selections : (r.toValue.getItems "control-selections").map Selection.ofValue =
      r.selections := by
    have items : r.toValue.getItems "control-selections" = r.selections.map Selection.toValue := by
      simp [form, getItems, getItems?, items]
    rw [items]
    exact map_write_read fun s hs => Selection.ofValue_toValue (h.selections s hs)
  have others : r.toValue.besides fields.names = r.others := by
    simp [form, besides_cons, besides_optionalMember, fields, Fields.ofList, Fields.names, rest]
  rw [ofValue, props, selections, others, form]
  simp only [getText?, get?_optionalMember, get?_cons, absent, String.reduceEq, if_true, if_false,
    Option.or_none, asText?_optional]

theorem reviewMember_eq {key : String} {v : Value} {review : Option Review}
    (h : ∀ r, review = some r → r.Every (Remainder P) room)
    (member : v.get? key = review.map Review.toValue) :
    (v.get? key).map Review.ofValue = review := by
  rw [member]
  exact optional_write_read fun r same => Review.ofValue_toValue (h r same)

theorem Step.ofValue_toValue {s : Step} (h : s.Every (Remainder P) room) :
    ofValue s.toValue = s := by
  obtain ⟨absent, rest⟩ := others_written h.others
  simp only [fields, Fields.ofList, Fields.names, List.forall_mem_cons] at absent rest
  have form : s.toValue = object (("uuid", text s.uuid) ::
      (optionalMember "title" (s.title.map text) ++ (("description", text s.description) ::
      (optionalMember "props" (s.props.map fun ps => array (ps.map Property.toValue)) ++
      (optionalMember "reviewed-controls" (s.reviewed.map Review.toValue) ++ s.others))))) := by
    simp only [toValue, textMember, propsMember, reviewMember, List.append_assoc, List.cons_append]
  have props : propsOf s.toValue = s.props := propsOf_eq h.props (by simp [form, absent])
  have reviewed : (s.toValue.get? "reviewed-controls").map Review.ofValue = s.reviewed :=
    reviewMember_eq h.reviewed (by simp [form, absent])
  have others : s.toValue.besides fields.names = s.others := by
    simp [form, besides_cons, besides_optionalMember, fields, Fields.ofList, Fields.names, rest]
  rw [ofValue, props, reviewed, others, form]
  simp [getText, getText?, absent, asText?]

theorem Activity.ofValue_toValue {a : Activity} (h : a.Every (Remainder P) room) :
    ofValue a.toValue = a := by
  obtain ⟨absent, rest⟩ := others_written h.others
  simp only [fields, Fields.ofList, Fields.names, List.forall_mem_cons] at absent rest
  have form : a.toValue = object (("uuid", text a.uuid) ::
      (optionalMember "title" (a.title.map text) ++ (("description", text a.description) ::
      (optionalMember "props" (a.props.map fun ps => array (ps.map Property.toValue)) ++
      (optionalMember "steps" (a.steps.map fun ss => array (ss.map Step.toValue)) ++
      (optionalMember "related-controls" (a.related.map Review.toValue) ++ a.others)))))) := by
    simp only [toValue, textMember, propsMember, reviewMember, List.append_assoc, List.cons_append]
  have props : propsOf a.toValue = a.props := propsOf_eq h.props (by simp [form, absent])
  have steps : (a.toValue.getItems? "steps").map (·.map Step.ofValue) = a.steps := by
    have member : a.toValue.get? "steps" = a.steps.map fun ss => array (ss.map Step.toValue) := by
      simp [form, absent]
    rw [getItems?, member]
    exact items_write_read fun ss same s hs => Step.ofValue_toValue (h.steps ss same s hs)
  have related : (a.toValue.get? "related-controls").map Review.ofValue = a.related :=
    reviewMember_eq h.related (by simp [form, absent])
  have others : a.toValue.besides fields.names = a.others := by
    simp [form, besides_cons, besides_optionalMember, fields, Fields.ofList, Fields.names, rest]
  rw [ofValue, props, steps, related, others, form]
  simp [getText, getText?, absent, asText?]

theorem LocalDefinitions.ofValue_toValue {l : LocalDefinitions} (h : l.Every (Remainder P) room) :
    ofValue l.toValue = l := by
  obtain ⟨absent, rest⟩ := others_written h.others
  simp only [fields, Fields.ofList, Fields.names, List.forall_mem_cons] at absent rest
  have activities : (l.toValue.getItems? "activities").map (·.map Activity.ofValue) =
      l.activities := by
    have member : l.toValue.get? "activities" =
        l.activities.map fun as => array (as.map Activity.toValue) := by
      simp [toValue, absent]
    rw [getItems?, member]
    exact items_write_read fun as same a ha => Activity.ofValue_toValue (h.activities as same a ha)
  have others : l.toValue.besides fields.names = l.others := by
    simp [toValue, besides_optionalMember, fields, Fields.ofList, Fields.names, rest]
  rw [ofValue, activities, others]

theorem Plan.ofValue_toValue {p : Plan} (h : p.Every (Remainder P) room) :
    ofValue p.toValue = p := by
  obtain ⟨absent, rest⟩ := others_written h.others
  simp only [fields, Fields.ofList, Fields.names, List.forall_mem_cons] at absent rest
  have form : p.toValue = object (("uuid", Value.text p.uuid) :: ("metadata", p.metadata.toValue) ::
      ("import-ssp", p.systemPlan.toValue) ::
      (optionalMember "local-definitions" (p.definitions.map LocalDefinitions.toValue) ++
      (("reviewed-controls", p.reviewed.toValue) :: p.others))) := by
    simp only [toValue, List.cons_append]
  have definitions : (p.toValue.get? "local-definitions").map LocalDefinitions.ofValue =
      p.definitions := by
    have member : p.toValue.get? "local-definitions" =
        p.definitions.map LocalDefinitions.toValue := by
      simp [form, absent]
    rw [member]
    exact optional_write_read fun l same => LocalDefinitions.ofValue_toValue (h.definitions l same)
  have others : p.toValue.besides fields.names = p.others := by
    simp [form, besides_cons, besides_optionalMember, fields, Fields.ofList, Fields.names, rest]
  rw [ofValue, definitions, others, form]
  simp [getText, getText?, asText?, Metadata.ofValue_toValue h.metadata,
    SystemPlan.ofValue_toValue h.systemPlan, Review.ofValue_toValue h.reviewed]

theorem Plan.ofDocument_toDocument {p : Plan} (h : p.Every (Remainder P) room) :
    ofDocument p.toDocument = p := by
  simp [ofDocument, toDocument, ofValue_toValue h]

end AssessmentPlans
