import AssessmentPlans.Bundle
import AssessmentPlans.Proofs.Files.Directory
import AssessmentPlans.Proofs.Workspace.Saving
import Mathlib.Data.List.Sort

/-! What is found in a bundle. Of what stands in its directory only the texts count that are named
as definitions are and have one in them, in the order of their names. -/
namespace AssessmentPlans

/-- The text is a document with that definition. -/
def Definition.Reads (text : String) (d : Definition) : Prop :=
  ∃ v document, Json.parse text = .ok v ∧ documentShape.readValue v = .ok document ∧
    ofDocument document = d

/-- The text is a document whose definition is malformed. -/
def Definition.Malformed (text : String) (fault : Json.Fault) : Prop :=
  ∃ v, Json.parse text = .ok v ∧ documentShape.readValue v = .error fault

namespace Bundle

/-- The value is no object with a definition as a member. -/
def Foreign (v : Json.Value) : Prop :=
  ∀ members, v = .object members → ∀ m ∈ members, m.1 ≠ "component-definition"

/-- What stands in a directory without a word of definitions. -/
inductive Ignored : String × Entry → Prop where
  | directory {name : String} : Ignored (name, .directory)
  | otherwise {name : String} {e : Entry} (other : Path.hasExtension "json" name = false) :
      Ignored (name, e)
  | broken {name text : String} {fault : Json.Fault} (refused : Json.parse text = .error fault) :
      Ignored (name, .text text)
  | foreign {name text : String} {v : Json.Value} (parsed : Json.parse text = .ok v)
      (without : Foreign v) : Ignored (name, .text text)

/-- The fault of a malformed definition in a file of that name. -/
def unreadable (b : Bundle) (name : String) (fault : Json.Fault) : Fault :=
  .plan (.unreadable fault.message (some (b.directory.child name).text))

/-- What is found in files, given by their names and texts in order. -/
inductive Finds (b : Bundle) (files : List (String × String)) :
    Except Fault (List Definition) → Prop where
  | nothing (none : files = []) : Finds b files (.error (.plan (.noDefinitions b.directory.text)))
  | definitions {ds : List Definition} (some : files ≠ [])
      (read : List.Forall₂ (fun x d => Definition.Reads x.2 d) files ds) : Finds b files (.ok ds)
  | malformed {before after : List (String × String)} {name text : String} {fault : Json.Fault}
      (here : files = before ++ (name, text) :: after)
      (read : ∀ x ∈ before, ∃ d, Definition.Reads x.2 d) (h : Definition.Malformed text fault) :
      Finds b files (.error (b.unreadable name fault))

/-- The directory of the bundle is at that place, and its files of definitions are texts. -/
structure Stands (b : Bundle) (directory : Trail) (w : World) : Prop where
  sound : w.files.Sound
  leads : w.files.locate w.here b.directory = .ok directory
  stands : w.files.entry? directory = some .directory
  texts : ∀ name start, (name, .binary start) ∈ w.files.contents directory →
    Path.hasExtension "json" name = false

variable {b : Bundle} {directory : Trail} {w : World} {files : List (String × String)}

/-! What one file says. -/

theorem get?_eq_none {v : Json.Value} : v.get? "component-definition" = none ↔ Foreign v := by
  cases v with
  | object members =>
      rw [Json.Value.get?, Option.map_eq_none_iff, List.find?_eq_none]
      constructor
      · intro absent _ same
        cases same
        exact fun m member named => absent m member (beq_iff_eq.mpr named)
      · intro without m member named
        exact without members rfl m member (beq_iff_eq.mp named)
  | _ =>
      refine iff_of_true rfl ?_
      intro members same
      cases same

theorem definition?_eq_none {name text : String} (json : Path.hasExtension "json" name = true) :
    definition? text = none ↔ Ignored (name, .text text) := by
  unfold definition?
  cases parsed : Json.parse text with
  | error fault => exact iff_of_true rfl (.broken parsed)
  | ok v =>
      show (v.get? "component-definition").map _ = none ↔ _
      rw [Option.map_eq_none_iff, get?_eq_none]
      constructor
      · exact .foreign parsed
      · intro ignored
        cases ignored with
        | otherwise other =>
            rw [json] at other
            cases other
        | broken refused =>
            rw [parsed] at refused
            cases refused
        | foreign parsed' without =>
            rw [parsed] at parsed'
            cases parsed'
            exact without

theorem exists_of_definition? {text : String} {result : Except Json.Fault Definition}
    (h : definition? text = some result) : ∃ v, Json.parse text = .ok v ∧
      (Definition.documentShape.readValue v).map .ofDocument = result := by
  unfold definition? at h
  split at h
  · cases h
  · next v parsed =>
    obtain ⟨_, _, read⟩ := Option.map_eq_some_iff.mp h
    exact ⟨v, parsed, read⟩

theorem reads_of_definition? {text : String} {d : Definition}
    (h : definition? text = some (.ok d)) : Definition.Reads text d := by
  obtain ⟨v, parsed, read⟩ := exists_of_definition? h
  obtain ⟨document, read, same⟩ := map_eq_ok.mp read
  exact ⟨v, document, parsed, read, same⟩

theorem malformed_of_definition? {text : String} {fault : Json.Fault}
    (h : definition? text = some (.error fault)) : Definition.Malformed text fault := by
  obtain ⟨v, parsed, read⟩ := exists_of_definition? h
  refine ⟨v, parsed, ?_⟩
  cases value : Definition.documentShape.readValue v with
  | ok document =>
      rw [value] at read
      cases read
  | error own =>
      rw [value] at read
      cases read
      rfl

/-! What files say together. -/

/-- The definitions in the texts of files, up to the first that is malformed. -/
def gather (b : Bundle) : List (String × String) → Except Fault (List Definition)
  | [] => .ok []
  | (name, text) :: files =>
    match definition? text with
    | none => b.gather files
    | some (.ok d) => (b.gather files).map (d :: ·)
    | some (.error fault) => .error (b.unreadable name fault)

/-- What is made of the definitions, which must not be none. -/
def conclude (b : Bundle) : Except Fault (List Definition) → Except Fault (List Definition)
  | .ok [] => .error (.plan (.noDefinitions b.directory.text))
  | result => result

/-- The files that say something. -/
def telling (files : List (String × String)) : List (String × String) :=
  files.filter fun x => (definition? x.2).isSome

theorem gather_telling (files : List (String × String)) :
    b.gather (telling files) = b.gather files := by
  induction files with
  | nil => rfl
  | cons x files ih =>
      rw [telling, List.filter_cons]
      cases said : definition? x.2 with
      | none =>
          rw [gather, said]
          exact ih
      | some result =>
          rw [Option.isSome_some, if_pos rfl, gather, gather, said]
          cases result with
          | ok d => exact congrArg (·.map (d :: ·)) ih
          | error fault => rfl

/-- Of files that all say something, either all are read or there is a first malformed one. -/
theorem gather_cases (told : ∀ x ∈ files, (definition? x.2).isSome = true) :
    (∃ ds, b.gather files = .ok ds ∧
      List.Forall₂ (fun x d => Definition.Reads x.2 d) files ds) ∨
    ∃ before name text after fault, files = before ++ (name, text) :: after ∧
      (∀ x ∈ before, ∃ d, Definition.Reads x.2 d) ∧ Definition.Malformed text fault ∧
      b.gather files = .error (b.unreadable name fault) := by
  induction files with
  | nil => exact .inl ⟨[], rfl, .nil⟩
  | cons x files ih =>
      obtain ⟨own, others⟩ := List.forall_mem_cons.mp told
      obtain ⟨result, said⟩ := Option.isSome_iff_exists.mp own
      rw [gather, said]
      cases result with
      | error fault =>
          exact .inr ⟨[], x.1, x.2, files, fault, rfl, List.forall_mem_nil _,
            malformed_of_definition? said, rfl⟩
      | ok d =>
          have read := reads_of_definition? said
          rcases ih others with ⟨ds, gathered, rest⟩ |
            ⟨before, name, text, after, fault, rfl, earlier, malformed, gathered⟩
          · exact .inl ⟨d :: ds, by rw [gathered]; rfl, .cons read rest⟩
          · exact .inr ⟨x :: before, name, text, after, fault, rfl,
              List.forall_mem_cons.mpr ⟨⟨d, read⟩, earlier⟩, malformed, by rw [gathered]; rfl⟩

theorem finds_gather (told : ∀ x ∈ files, (definition? x.2).isSome = true) :
    b.Finds files (b.conclude (b.gather files)) := by
  rcases gather_cases told with ⟨ds, gathered, read⟩ |
    ⟨before, name, text, after, fault, here, earlier, malformed, gathered⟩
  · rw [gathered]
    cases read with
    | nil => exact .nothing rfl
    | cons first rest => exact .definitions (List.cons_ne_nil _ _) (.cons first rest)
  · rw [gathered]
    exact .malformed here earlier malformed

/-! Running. -/

theorem fileNames_run (w : World) (names : List String) :
    w.run (b.fileNames names) = (.ok (names.filter fun name =>
      Path.hasExtension "json" name && w.files.isFile w.here (b.directory.child name)), w) := by
  induction names with
  | nil => rfl
  | cons name names ih =>
      rw [fileNames, List.filter_cons]
      cases json : Path.hasExtension "json" name with
      | false => exact ih
      | true =>
          have asked : w.run (Job.perform (.isFile (b.directory.child name))) =
            (.ok (w.files.isFile w.here (b.directory.child name)), w) := rfl
          simp only [if_true, Bool.true_and]
          rw [World.run_bind_of_ok asked]
          cases w.files.isFile w.here (b.directory.child name) with
          | false => exact ih
          | true =>
              simp only [if_true]
              rw [World.run_bind_of_ok ih]
              rfl

theorem readFiles_run (seen : ∀ x ∈ files, w.Sees (b.directory.child x.1) x.2) :
    w.run (b.readFiles (files.map (·.1))) = (b.gather files, w) := by
  induction files with
  | nil => rfl
  | cons x files ih =>
      obtain ⟨own, others⟩ := List.forall_mem_cons.mp seen
      rw [List.map_cons, readFiles, gather, World.run_bind_of_ok own.run_readText,
        World.run_bind_of_ok (World.run_orFail w Job.ioFault x.2)]
      cases definition? x.2 with
      | none => exact ih others
      | some result =>
          cases result with
          | ok d =>
              simp only
              rw [World.run_bind, ih others]
              cases b.gather files <;> rfl
          | error fault => rfl

/-! The files of a directory. -/

/-- A text under the name of a definition. -/
def textOf? : String × Entry → Option (String × String)
  | (name, .text text) => if Path.hasExtension "json" name then some (name, text) else none
  | _ => none

/-- The files that say something, by their names. -/
def documents (contents : List (String × Entry)) : List (String × String) :=
  telling ((contents.filterMap textOf?).mergeSort (·.1 ≤ ·.1))

theorem map_mergeSort_fst (files : List (String × String)) :
    (files.mergeSort (·.1 ≤ ·.1)).map (·.1) = (files.map (·.1)).mergeSort (· ≤ ·) :=
  List.map_mergeSort fun _ _ _ _ => by rfl

theorem textOf?_eq_some {x : String × Entry} {name text : String} : textOf? x = some (name, text) ↔
    x = (name, .text text) ∧ Path.hasExtension "json" name = true := by
  rcases x with ⟨own, _ | content | start⟩
  · exact iff_of_false nofun (fun h => nomatch h.1)
  · rw [textOf?]
    split
    · next json =>
      constructor
      · rintro ⟨⟩
        exact ⟨rfl, json⟩
      · rintro ⟨⟨⟩, _⟩
        rfl
    · next other =>
      refine iff_of_false nofun ?_
      rintro ⟨⟨⟩, json⟩
      exact other json
  · exact iff_of_false nofun (fun h => nomatch h.1)

theorem mem_documents {contents : List (String × Entry)} {name text : String} :
    (name, text) ∈ documents contents ↔
      (name, .text text) ∈ contents ∧ ¬Ignored (name, .text text) := by
  simp only [documents, telling, List.mem_filter, List.mem_mergeSort, List.mem_filterMap,
    textOf?_eq_some]
  constructor
  · rintro ⟨⟨_, member, rfl, json⟩, said⟩
    refine ⟨member, fun ignored => ?_⟩
    rw [(definition?_eq_none json).mpr ignored] at said
    cases said
  · intro ⟨member, heard⟩
    have json : Path.hasExtension "json" name = true := by
      by_contra other
      exact heard (.otherwise (Bool.eq_false_iff.mpr other))
    refine ⟨⟨_, member, rfl, json⟩, ?_⟩
    exact Option.isSome_iff_ne_none.mpr (mt (definition?_eq_none json).mp heard)

theorem documents_sorted {contents : List (String × Entry)} (once : (contents.map (·.1)).Nodup) :
    (documents contents).Pairwise fun x y => x.1 < y.1 := by
  have ordered : ((contents.filterMap textOf?).mergeSort (·.1 ≤ ·.1)).Pairwise
      fun x y => x.1 ≤ y.1 := by
    refine (List.pairwise_mergeSort ?_ ?_ (contents.filterMap textOf?)).imp of_decide_eq_true
    · intro x y z first second
      exact decide_eq_true
        (String.le_trans (of_decide_eq_true first) (of_decide_eq_true second))
    · intro x y
      exact Bool.or_eq_true_iff.mpr
        ((String.le_total x.1 y.1).imp decide_eq_true decide_eq_true)
  -- a directory lists each name once, so those of the texts differ, in whatever order
  have apart : ((contents.filterMap textOf?).mergeSort (·.1 ≤ ·.1)).Pairwise
      fun x y => x.1 ≠ y.1 := by
    refine (List.mergeSort_perm _ _).symm.pairwise ?_ Ne.symm
    rw [List.pairwise_filterMap]
    refine (List.pairwise_map.mp once).imp ?_
    rintro _ _ ne ⟨name, text⟩ own ⟨name', text'⟩ own'
    obtain ⟨rfl, _⟩ := textOf?_eq_some.mp own
    obtain ⟨rfl, _⟩ := textOf?_eq_some.mp own'
    exact ne
  refine ((ordered.and apart).imp ?_).filter _
  intro x y both
  exact Decidable.byContradiction fun notLt =>
    both.2 (String.le_antisymm both.1 (String.not_lt.mp notLt))

/-- The same files are found wherever the same entries are not ignored. -/
theorem documents_congr {contents contents' : List (String × Entry)}
    (once : (contents.map (·.1)).Nodup) (once' : (contents'.map (·.1)).Nodup)
    (same : ∀ x, ¬Ignored x → (x ∈ contents' ↔ x ∈ contents)) :
    documents contents' = documents contents := by
  have irreflexive : Std.Irrefl fun x y : String × String => x.1 < y.1 :=
    ⟨fun x => String.lt_irrefl x.1⟩
  have antisymmetric : Std.Antisymm fun x y : String × String => x.1 < y.1 :=
    ⟨fun _ _ before after => absurd (String.lt_trans before after) (String.lt_irrefl _)⟩
  refine (documents_sorted once').eq_of_mem_iff (documents_sorted once) ?_
  intro ⟨name, text⟩
  rw [mem_documents, mem_documents]
  exact and_congr_left (same _)

namespace Stands

variable (stands : b.Stands directory w)
include stands

theorem look {name : String} {e : Entry} (member : (name, e) ∈ w.files.contents directory) :
    w.files.look w.here (b.directory.child name) = .ok e :=
  stands.sound.look_contents stands.leads stands.stands member

/-- The names that are kept are those of the texts. -/
theorem names_kept : ((w.files.contents directory).map (·.1)).filter (fun name =>
      Path.hasExtension "json" name && w.files.isFile w.here (b.directory.child name)) =
    ((w.files.contents directory).filterMap textOf?).map (·.1) := by
  rw [List.filter_map, List.map_filterMap, ← List.filterMap_eq_map, List.filterMap_filter]
  apply List.filterMap_congr
  intro ⟨name, e⟩ member
  have seen := stands.look member
  simp only [Function.comp_apply, Files.isFile, seen]
  cases json : Path.hasExtension "json" name with
  | false => cases e <;> simp [textOf?, json]
  | true =>
      cases e with
      | directory => rfl
      | text content => simp [textOf?, json]
      | binary start =>
          rw [stands.texts name start member] at json
          cases json

theorem sees : ∀ x ∈ ((w.files.contents directory).filterMap textOf?).mergeSort (·.1 ≤ ·.1),
    w.Sees (b.directory.child x.1) x.2 := by
  intro ⟨name, text⟩ member
  obtain ⟨e, standing, own⟩ := List.mem_filterMap.mp (List.mem_mergeSort.mp member)
  obtain ⟨rfl, _⟩ := textOf?_eq_some.mp own
  exact stands.look standing

theorem run_definitions : w.run b.definitions =
    (b.conclude (b.gather (documents (w.files.contents directory))), w) := by
  have listed : w.run (Job.perform (.list b.directory)) =
      (.ok (.ok ((w.files.contents directory).map (·.1))), w) :=
    congrArg (fun answer => (Except.ok answer, w)) (Files.list_eq stands.leads stands.stands)
  have kept := fileNames_run (b := b) w ((w.files.contents directory).map (·.1))
  rw [stands.names_kept] at kept
  have read := readFiles_run stands.sees
  rw [map_mergeSort_fst] at read
  rw [definitions, World.run_bind_of_ok listed, World.run_bind_of_ok (World.run_orFail w _ _),
    World.run_bind_of_ok kept, World.run_bind, read, documents, gather_telling]
  cases b.gather (((w.files.contents directory).filterMap textOf?).mergeSort (·.1 ≤ ·.1)) with
  | error fault => rfl
  | ok ds => cases ds <;> rfl

end Stands

/-- What is found in a bundle is determined by the files that say something, in the order of their
names. Neither the order in which the directory is listed matters, which is that of the entries,
nor what is ignored of it. -/
theorem definitions_found (stands : b.Stands directory w) :
    ∃ files : List (String × String),
      files.Pairwise (fun x y => x.1 < y.1) ∧
      (∀ name text, (name, text) ∈ files ↔
        (name, .text text) ∈ w.files.contents directory ∧ ¬Ignored (name, .text text)) ∧
      b.Finds files (w.run b.definitions).1 ∧ (w.run b.definitions).2 = w ∧
      ∀ {w' : World} {directory' : Trail}, b.Stands directory' w' →
        (∀ x, ¬Ignored x →
          (x ∈ w'.files.contents directory' ↔ x ∈ w.files.contents directory)) →
        (w'.run b.definitions).1 = (w.run b.definitions).1 := by
  refine ⟨documents (w.files.contents directory), documents_sorted stands.sound.contents_once,
    fun _ _ => mem_documents, ?_, ?_, ?_⟩
  · rw [stands.run_definitions]
    exact finds_gather fun x member => (List.mem_filter.mp member).2
  · rw [stands.run_definitions]
  · intro w' directory' stands' same
    rw [stands.run_definitions, stands'.run_definitions,
      documents_congr stands.sound.contents_once stands'.sound.contents_once same]

end Bundle

namespace Shelf

open AssessmentPlans.Bundle

/-- A document with a definition in which there is nothing but its metadata. -/
def documentOf (uuid : String) : String :=
  "\x7b\"component-definition\": \x7b\"uuid\": \"" ++ uuid ++ "\", \"metadata\": \x7b" ++
    "\"title\": \"Host\", \"last-modified\": \"\", \"version\": \"1.0\", " ++
    "\"oscal-version\": \"1.1.3\"\x7d\x7d\x7d"

def bundle : Bundle := .ofDirectory ⟨"bundles"⟩

def files : List (Trail × Entry) :=
  [(["bundles", "b.json"], .text (documentOf "b")), (["bundles", "a.json"], .text (documentOf "a"))]

def others : List (Trail × Entry) := [
  (["bundles", "old.json"], .directory),
  (["bundles", "old.json", "c.json"], .text (documentOf "c")),
  (["bundles", "notes.txt"], .text (documentOf "d")),
  (["bundles", "logo.png"], .binary ""),
  (["bundles", "broken.json"], .text "\x7b"),
  (["bundles", "list.json"], .text "[]")]

/-- Two definitions and nothing else. -/
def bare : World := { World.bare with files := ⟨(["bundles"], .directory) :: files⟩ }

/-- The same among other things, listed in another order. -/
def full : World := { World.bare with
  files := ⟨others ++ files.reverse ++ [(["bundles"], .directory)]⟩ }

/-- What is listed of the other things. -/
def remainder : List (String × Entry) :=
  [("old.json", .directory), ("notes.txt", .text (documentOf "d")), ("logo.png", .binary ""),
    ("broken.json", .text "\x7b"), ("list.json", .text "[]")]

theorem remainder_ignored : ∀ x ∈ remainder, Ignored x := by
  have broken : Ignored ("broken.json", .text "\x7b") :=
    (definition?_eq_none (by decide +kernel)).mp (Option.isNone_iff_eq_none.mp (by decide +kernel))
  have list : Ignored ("list.json", .text "[]") :=
    (definition?_eq_none (by decide +kernel)).mp (Option.isNone_iff_eq_none.mp (by decide +kernel))
  simp only [remainder, List.forall_mem_cons]
  exact ⟨.directory, .otherwise (by decide +kernel), .otherwise (by decide +kernel), broken, list,
    List.forall_mem_nil _⟩

theorem bare_contents : bare.files.contents ["bundles"] =
    [("b.json", .text (documentOf "b")), ("a.json", .text (documentOf "a"))] := by
  decide +kernel

theorem full_contents : full.files.contents ["bundles"] =
    remainder ++ (bare.files.contents ["bundles"]).reverse := by
  decide +kernel

theorem bare_stands : bundle.Stands ["bundles"] bare where
  sound := by decide +kernel
  leads := by decide +kernel
  stands := by decide +kernel
  texts := by
    intro name start member
    rw [bare_contents] at member
    simp at member

theorem full_stands : bundle.Stands ["bundles"] full where
  sound := by decide +kernel
  leads := by decide +kernel
  stands := by decide +kernel
  texts := by
    intro name start member
    rw [full_contents, bare_contents] at member
    obtain rfl : name = "logo.png" := by
      simp [remainder] at member
      exact member.1
    decide +kernel

theorem same_heard : ∀ x, ¬Ignored x →
    (x ∈ full.files.contents ["bundles"] ↔ x ∈ bare.files.contents ["bundles"]) := by
  intro x heard
  rw [full_contents, List.mem_append, List.mem_reverse]
  exact or_iff_right fun member => heard (remainder_ignored x member)

theorem bare_documents : documents (bare.files.contents ["bundles"]) =
    [("a.json", documentOf "a"), ("b.json", documentOf "b")] := by
  have texts : (bare.files.contents ["bundles"]).filterMap textOf? =
      [("b.json", documentOf "b"), ("a.json", documentOf "a")] := by
    decide +kernel
  have later : ¬"b.json" ≤ "a.json" := by decide +kernel
  have sorted : ([("b.json", documentOf "b"), ("a.json", documentOf "a")]).mergeSort (·.1 ≤ ·.1) =
      [("a.json", documentOf "a"), ("b.json", documentOf "b")] := by
    simp [List.mergeSort, later]
  rw [documents, texts, sorted]
  decide +kernel

/-- The two definitions are found in the order of their names, with the other things and without. -/
theorem definitions_found_shelf :
    bundle.Stands ["bundles"] bare ∧ bundle.Stands ["bundles"] full ∧
    (∀ x, ¬Ignored x →
      (x ∈ full.files.contents ["bundles"] ↔ x ∈ bare.files.contents ["bundles"])) ∧
    (∃ found, found.Pairwise (fun x y => x.1 < y.1) ∧
      (∀ name text, (name, text) ∈ found ↔
        (name, .text text) ∈ bare.files.contents ["bundles"] ∧ ¬Ignored (name, .text text)) ∧
      bundle.Finds found (bare.run bundle.definitions).1) ∧
    (full.run bundle.definitions).1 = (bare.run bundle.definitions).1 ∧
    (bare.run bundle.definitions).1.map (·.map (·.uuid)) = .ok ["a", "b"] := by
  obtain ⟨found, sorted, listed, finds, _, same⟩ := Bundle.definitions_found bare_stands
  refine ⟨bare_stands, full_stands, same_heard, ⟨found, sorted, listed, finds⟩,
    same full_stands same_heard, ?_⟩
  rw [bare_stands.run_definitions, bare_documents]
  decide +kernel

end Shelf
end AssessmentPlans
