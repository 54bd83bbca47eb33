import DeliveryPipeline.Store
import Mathlib.Data.List.Forall2

/-!
# Loading resource files

A resource file gives the resources that its text lists, unless it is not read or its text lists
none. Several files are loaded in their order. They give the resources of all of them one after
another, or else the error of the first file that gives none.
-/
namespace DeliveryPipeline.Store

/-- What comes of a resource file. -/
inductive Gives (read : FileReader) (file : String) : Except Error (List Descriptor) → Prop where
  | unread {cause : String} (read_eq : read file = .error cause) :
      Gives read file (.error (.io file cause))
  | unlisted {text : String} {fault : Toml.Fault} (read_eq : read file = .ok text)
      (list_eq : resourcesOfToml text = .error fault) :
      Gives read file (.error (.parse (.resourceFile file fault)))
  | listed {text : String} {ds : List Descriptor} (read_eq : read file = .ok text)
      (list_eq : resourcesOfToml text = .ok ds) : Gives read file (.ok ds)

/-- What comes of several resource files. -/
inductive Loads (read : FileReader) : List String → Except Error (List Descriptor) → Prop where
  | all {files : List String} {parts : List (List Descriptor)}
      (given : List.Forall₂ (fun file ds => Gives read file (.ok ds)) files parts) :
      Loads read files (.ok parts.flatten)
  | upTo (before after : List String) {file : String} {e : Error}
      (given : ∀ b ∈ before, ∃ ds, Gives read b (.ok ds)) (refused : Gives read file (.error e)) :
      Loads read (before ++ file :: after) (.error e)

variable {read : FileReader} {file : String} {files : List String}
  {r : Except Error (List Descriptor)}

theorem Gives.loadResources_eq (h : Gives read file r) : loadResources read file = r := by
  rw [loadResources]
  cases h with
  | unread read_eq => rw [read_eq]
  | unlisted read_eq list_eq => simp only [read_eq, list_eq, Except.mapError]
  | listed read_eq list_eq => simp only [read_eq, list_eq, Except.mapError]

/-- Every file comes to something. -/
theorem gives_loadResources (read : FileReader) (file : String) :
    Gives read file (loadResources read file) := by
  rw [loadResources]
  cases hread : read file with
  | error cause => exact .unread hread
  | ok text =>
    dsimp only
    cases hlist : resourcesOfToml text with
    | error fault => exact .unlisted hread hlist
    | ok ds => exact .listed hread hlist

theorem exists_loads (read : FileReader) (files : List String) : ∃ r, Loads read files r := by
  induction files with
  | nil => exact ⟨_, .all .nil⟩
  | cons file rest ih =>
    cases hfile : loadResources read file with
    | error e =>
      exact ⟨_, .upTo [] rest (by simp) (hfile ▸ gives_loadResources read file)⟩
    | ok ds =>
      have hgives : Gives read file (.ok ds) := hfile ▸ gives_loadResources read file
      obtain ⟨r, hrest⟩ := ih
      cases hrest with
      | all given => exact ⟨_, .all (.cons hgives given)⟩
      | upTo before after given refused =>
        have hgiven := List.forall_mem_cons.2 ⟨⟨ds, hgives⟩, given⟩
        exact ⟨_, .upTo (file :: before) after hgiven refused⟩

theorem Loads.ne_nil {e : Error} (h : Loads read files (.error e)) : files ≠ [] := by
  cases h with
  | upTo before after => simp

/-- A store that is extended by files in turn holds what they give behind what it held. -/
theorem Loads.foldlM_eq (h : Loads read files r) (s : Store) :
    files.foldlM (fun s file => (loadResources read file).map s.extend) s = r.map s.extend := by
  cases h with
  | all given =>
    induction given generalizing s with
    | nil => simp [extend, pure, Except.pure, Except.map]
    | cons hgives _ ih =>
      rw [List.foldlM_cons, hgives.loadResources_eq]
      refine (ih _).trans ?_
      simp [extend, Except.map]
  | upTo before after given refused =>
    induction before generalizing s with
    | nil =>
      rw [List.nil_append, List.foldlM_cons, refused.loadResources_eq]
      rfl
    | cons b before ih =>
      obtain ⟨⟨ds, hgives⟩, given⟩ := List.forall_mem_cons.1 given
      rw [List.cons_append, List.foldlM_cons, hgives.loadResources_eq]
      exact ih _ given

theorem Loads.ofFiles_eq (h : Loads read files r) : ofFiles read files = r.map Store.mk :=
  h.foldlM_eq {}

end DeliveryPipeline.Store
