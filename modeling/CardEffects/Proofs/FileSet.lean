/-
  CardEffects.Proofs.FileSet

  A set of files is a finite map from places to contents.  The places are kept with their contents
  in a list, in the order in which the files were added; as no place is listed twice, that order is
  of no account to what is found.

    * `Unambiguous`, `Unambiguous.add` — no place has two contents; adding files keeps it so.
    * `content?_add` — adding a file changes what is found at its own place alone.
    * `mem_filesIn` — the files of a directory are those one name further.
    * `find?_of_file`, `find?_of_directory`, `find?_eq_none` — what is found under a path.
-/
import CardEffects.FileSet
import Mathlib.Data.List.Nodup

namespace CardEffects.FileSet

/-! ## Sets as maps -/

/-- No place has two contents. -/
def Unambiguous (s : FileSet) : Prop := (s.files.map Prod.fst).Nodup

/-- The place that a path stands for, seen from the working directory. -/
def target (path : String) : Location := (pathSteps path).foldl Location.step Location.start

/-- Whether a path stands for a directory in any case. -/
def EndsInSlash (path : String) : Prop := path.toList.getLast? = some '/'

instance (path : String) : Decidable (EndsInSlash path) :=
  inferInstanceAs (Decidable (path.toList.getLast? = some '/'))

theorem files_add (s : FileSet) {path : String} (hfile : ¬ EndsInSlash path)
    (content : ByteArray) :
    (s.add path content).files
      = s.files.filter (fun f => f.1 ≠ target path) ++ [(target path, content)] := by
  have hpath : ¬ path.toList.getLast? = some '/' := hfile
  rw [add, if_neg hpath]
  rfl

theorem files_add_directory (s : FileSet) {path : String} (hslash : EndsInSlash path)
    (content : ByteArray) : (s.add path content).files = s.files := by
  have hpath : path.toList.getLast? = some '/' := hslash
  rw [add, if_pos hpath]

theorem unambiguous_empty : empty.Unambiguous := List.nodup_nil

theorem Unambiguous.add {s : FileSet} (h : s.Unambiguous) (path : String) (content : ByteArray) :
    (s.add path content).Unambiguous := by
  by_cases hslash : EndsInSlash path
  · rw [Unambiguous, files_add_directory s hslash]
    exact h
  rw [Unambiguous, files_add s hslash, List.map_append]
  -- the place that is added was cleared before
  have hkept : ((s.files.filter fun f => f.1 ≠ target path).map Prod.fst).Nodup :=
    h.sublist ((List.filter_sublist).map Prod.fst)
  refine hkept.append (List.nodup_singleton _) fun place hplace htarget => ?_
  obtain ⟨f, hf, rfl⟩ := List.mem_map.1 hplace
  have hne : f.1 ≠ target path := of_decide_eq_true (List.mem_filter.1 hf).2
  exact hne (List.mem_singleton.1 htarget)

theorem lookup_eq_some_iff {files : List (Location × ByteArray)}
    (h : (files.map Prod.fst).Nodup) {place : Location} {content : ByteArray} :
    files.lookup place = some content ↔ (place, content) ∈ files := by
  rw [List.lookup_eq_some_iff]
  constructor
  · rintro ⟨before, after, rfl, -⟩
    exact List.mem_append_right before List.mem_cons_self
  · intro hmem
    obtain ⟨before, after, rfl⟩ := List.append_of_mem hmem
    refine ⟨before, after, rfl, fun f hf => ?_⟩
    rw [List.map_append, List.nodup_append] at h
    have hne : f.1 ≠ place :=
      h.2.2 f.1 (List.mem_map_of_mem hf) place (List.mem_map_of_mem List.mem_cons_self)
    exact bne_iff_ne.2 hne.symm

theorem content?_eq_some_iff {s : FileSet} (h : s.Unambiguous) {place : Location}
    {content : ByteArray} : s.content? place = some content ↔ (place, content) ∈ s.files :=
  lookup_eq_some_iff h

/-- Adding a file changes what is found at its own place alone. -/
theorem content?_add {s : FileSet} (h : s.Unambiguous) {path : String}
    (hfile : ¬ EndsInSlash path) (added : ByteArray) (place : Location) (content : ByteArray) :
    (s.add path added).content? place = some content
      ↔ if place = target path then content = added else s.content? place = some content := by
  rw [content?_eq_some_iff (h.add path added), content?_eq_some_iff h, files_add s hfile,
    List.mem_append, List.mem_filter, List.mem_singleton, Prod.mk.injEq]
  by_cases hplace : place = target path
  · simp [hplace]
  · simp [hplace]

/-- Adding a directory changes no file. -/
theorem content?_add_directory (s : FileSet) {path : String} (hslash : EndsInSlash path)
    (added : ByteArray) (place : Location) :
    (s.add path added).content? place = s.content? place := by
  rw [content?, files_add_directory s hslash, content?]

/-! ## Directories -/

/-- A file is listed in a directory when its place is one name further. -/
theorem listed_eq_some_iff {place : Location} {f : Location × ByteArray}
    {g : String × ByteArray} :
    (if f.1.dropLast = place then f.1.getLast?.map fun name => (name, f.2) else none) = some g
      ↔ f = (place ++ [g.1], g.2) := by
  constructor
  · intro h
    split at h
    next hdrop =>
      obtain ⟨name, hname, rfl⟩ := Option.map_eq_some_iff.1 h
      rw [← hdrop, List.dropLast_append_getLast? name hname]
    next => cases h
  · rintro rfl
    simp

/-- The files of a directory are those one name further. -/
theorem mem_filesIn {s : FileSet} (h : s.Unambiguous) {place : Location} {name : String}
    {content : ByteArray} :
    (name, content) ∈ s.filesIn place ↔ s.content? (place ++ [name]) = some content := by
  rw [content?_eq_some_iff h, filesIn, List.mem_filterMap]
  constructor
  · rintro ⟨f, hf, hlisted⟩
    rwa [listed_eq_some_iff.1 hlisted] at hf
  · intro hf
    exact ⟨_, hf, listed_eq_some_iff.2 rfl⟩

/-- No name stands twice in a directory. -/
theorem nodup_filesIn {s : FileSet} (h : s.Unambiguous) (place : Location) :
    ((s.filesIn place).map Prod.fst).Nodup := by
  have hplaces : s.files.Pairwise fun f f' => f.1 ≠ f'.1 := List.pairwise_map.1 h
  refine List.pairwise_map.2 (hplaces.filterMap _ fun f f' hne g hg g' hg' hname => hne ?_)
  rw [listed_eq_some_iff.1 hg, listed_eq_some_iff.1 hg', hname]

/-! ## Paths -/

/-- A path leads to a place when each of its steps is taken from a directory; a path that starts
with a slash starts at the top. -/
def Leads (s : FileSet) (path : String) (place : Location) : Prop :=
  s.walk (if path.toList.head? = some '/' then .top else .start) (pathSteps path) = some place

/-- A path leads to a file with the given content. -/
def LeadsToFile (s : FileSet) (path : String) (content : ByteArray) : Prop :=
  ∃ place, s.Leads path place ∧ s.content? place = some content

/-- A path leads to a place that is a directory, and no file. -/
def LeadsToDirectory (s : FileSet) (path : String) (place : Location) : Prop :=
  s.Leads path place ∧ s.content? place = none ∧ s.isDirectory place = true

theorem find?_of_file {s : FileSet} {path : String} {content : ByteArray}
    (h : s.LeadsToFile path content) : s.find? path = some (.file content) := by
  obtain ⟨place, hleads, hcontent⟩ := h
  rw [find?, hleads]
  simp only [hcontent]

theorem find?_of_directory {s : FileSet} {path : String} {place : Location}
    (h : s.LeadsToDirectory path place) : s.find? path = some (.directory (s.filesIn place)) := by
  obtain ⟨hleads, hcontent, hdirectory⟩ := h
  rw [find?, hleads]
  simp only [hcontent, hdirectory, if_true]

/-- Nothing is found under a path that leads to no file and to no directory. -/
theorem find?_eq_none {s : FileSet} {path : String} (hfile : ∀ c, ¬ s.LeadsToFile path c)
    (hdirectory : ∀ place, ¬ s.LeadsToDirectory path place) : s.find? path = none := by
  rw [find?]
  split
  next => rfl
  next place hleads =>
    split
    next content hcontent => exact absurd ⟨place, hleads, hcontent⟩ (hfile content)
    next hcontent =>
      exact if_neg fun h => hdirectory place ⟨hleads, hcontent, h⟩

end CardEffects.FileSet
