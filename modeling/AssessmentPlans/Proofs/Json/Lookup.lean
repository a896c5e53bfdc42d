import AssessmentPlans.Json.Value

/-! Looking up the members of an object that has been put together from required and
optional ones, with others after them. -/
namespace AssessmentPlans.Json.Value

variable {key name : String} {v : Value} {ms others : List (String × Value)}

@[simp] theorem get?_cons :
    (object ((name, v) :: ms)).get? key = if name = key then some v else (object ms).get? key := by
  by_cases same : name = key
  · simp [get?, same]
  · simp [get?, same]

@[simp] theorem get?_optionalMember {value : Option Value} :
    (object (optionalMember name value ++ ms)).get? key =
      if name = key then value.or ((object ms).get? key) else (object ms).get? key := by
  cases value with
  | none => simp [optionalMember]
  | some v => simp [optionalMember]

theorem get?_eq_none {names : List String} (apart : ∀ m ∈ others, m.1 ∉ names) :
    ∀ key ∈ names, (object others).get? key = none := by
  intro key hk
  rw [get?, Option.map_eq_none_iff, List.find?_eq_none]
  intro m hm same
  rw [beq_iff_eq] at same
  exact apart m hm (same ▸ hk)

variable {keys : List String}

theorem besides_cons (known : name ∈ keys) :
    (object ((name, v) :: ms)).besides keys = (object ms).besides keys := by
  have dropped : ¬(!keys.contains name) = true := by simpa using known
  exact List.filter_cons_of_neg dropped

theorem besides_optionalMember {value : Option Value} (known : name ∈ keys) :
    (object (optionalMember name value ++ ms)).besides keys = (object ms).besides keys := by
  cases value with
  | none => rfl
  | some v => exact besides_cons known

theorem besides_others (apart : ∀ m ∈ others, m.1 ∉ keys) : (object others).besides keys = others := by
  refine List.filter_eq_self.mpr ?_
  intro m hm
  simpa using apart m hm

/-! Things that are read as they were written are read back from optional members. -/

variable {α : Type} {read : Value → α} {write : α → Value}

@[simp] theorem asText?_optional (text? : Option String) : (text?.map text).bind asText? = text? := by
  cases text? <;> rfl

theorem map_write_read {xs : List α} (each : ∀ x ∈ xs, read (write x) = x) :
    (xs.map write).map read = xs := by
  rw [List.map_map]
  exact (List.map_congr_left each).trans (List.map_id xs)

theorem optional_write_read {x? : Option α} (each : ∀ x, x? = some x → read (write x) = x) :
    (x?.map write).map read = x? := by
  cases x? with
  | none => rfl
  | some x => exact congrArg some (each x rfl)

theorem items_write_read {xs? : Option (List α)}
    (each : ∀ xs, xs? = some xs → ∀ x ∈ xs, read (write x) = x) :
    ((xs?.map fun xs => array (xs.map write)).map items).map (·.map read) = xs? := by
  cases xs? with
  | none => rfl
  | some xs => exact congrArg some (map_write_read (each xs rfl))

end AssessmentPlans.Json.Value
