import CallGraph.Files

/-!
# Writing a file

A file that was written holds what was written, and nothing else is different.  For paths this takes
an argument: a path leads through folders, so it leads to the same place as before because no folder
has become a file and no file a folder.

* `FileTree.Locates` — where a path leads;
* `FileTree.exists_of_write` — what writing does to a tree;
* `FileTree.read_of_write`, `FileTree.read_of_write_of_not_locates` — what is read behind it.
-/

namespace CallGraph

/-! ### The last piece of a text -/

/-- The last piece of a text is empty only behind a separator. -/
theorem Text.getLast?_of_splitAt {separator : Char} {text : List Char} (hne : text ≠ [])
    (h : (splitAt separator text).getLast? = some []) : text.getLast? = some separator := by
  induction text with
  | nil => exact absurd rfl hne
  | cons c rest ih =>
    have hpieces : splitAt separator rest ≠ [] := by
      intro hnil
      have hlength := length_splitAt separator rest
      rw [hnil] at hlength
      cases hlength
    rw [splitAt] at h
    cases rest with
    | nil =>
      by_cases hc : c = separator
      · rw [hc]
        rfl
      · rw [if_neg hc] at h
        cases h
    | cons d more =>
      rw [List.getLast?_cons_cons]
      apply ih (List.cons_ne_nil d more)
      by_cases hc : c = separator
      · rw [if_pos hc] at h
        obtain ⟨piece, pieces, hsplit⟩ := List.exists_cons_of_ne_nil hpieces
        rw [hsplit] at h ⊢
        rwa [List.getLast?_cons_cons] at h
      · rw [if_neg hc] at h
        obtain ⟨piece, pieces, hsplit⟩ := List.exists_cons_of_ne_nil hpieces
        rw [hsplit] at h ⊢
        cases pieces with
        | nil => cases h
        | cons next pieces =>
          dsimp only at h
          rwa [List.getLast?_cons_cons] at h ⊢

namespace FileTree

/-! ### Where paths lead -/

/-- A path leads to a location. -/
def Locates (t : FileTree) (path : String) (location : Location) : Prop :=
  path ≠ "" ∧ t.walk [] (names path) = .ok location

/-- A path that does not end in a slash has no names to leave out. -/
theorem trimmedNames_eq {path : String} (hne : path ≠ "")
    (h : path.toList.getLast? ≠ some '/') : trimmedNames path = names path := by
  have hlast : (names path).getLast? ≠ some "" := by
    intro hempty
    rw [names, List.getLast?_map, Option.map_eq_some_iff] at hempty
    obtain ⟨piece, hpiece, hnil⟩ := hempty
    obtain rfl : piece = [] := by
      rw [← String.toList_ofList (l := piece), hnil]
      rfl
    apply h
    apply Text.getLast?_of_splitAt _ hpiece
    intro htext
    apply hne
    rw [← String.ofList_toList (s := path), htext]
  rw [trimmedNames]
  cases hreverse : (names path).reverse with
  | nil => rw [List.dropWhile_nil, ← hreverse, List.reverse_reverse]
  | cons name more =>
    have hname : name ≠ "" := by
      rintro rfl
      apply hlast
      rw [← List.head?_reverse, hreverse]
      rfl
    rw [List.dropWhile_cons_of_neg (by simpa using hname), ← hreverse, List.reverse_reverse]

/-- Names lead nowhere without a folder to start from. -/
theorem walk_ne_ok {t : FileTree} {here : Location} (h : t.get? here ≠ some .folder) (name : String)
    (more : List String) (location : Location) : ¬ t.walk here (name :: more) = .ok location := by
  intro hok
  rw [walk] at hok
  split at hok
  · cases hok
  · cases hok
  · exact h ‹_›

/-- Names lead to the same place in trees with the same folders. -/
theorem walk_eq_ok_iff {t u : FileTree}
    (h : ∀ location, t.get? location = some .folder ↔ u.get? location = some .folder)
    (here : Location) (names : List String) (location : Location) :
    t.walk here names = .ok location ↔ u.walk here names = .ok location := by
  induction names generalizing here with
  | nil => rfl
  | cons name more ih =>
    by_cases hfolder : t.get? here = some .folder
    · rw [walk, walk, hfolder, (h here).mp hfolder]
      exact ih (step here name)
    · -- neither tree has a folder to start from
      have hother : u.get? here ≠ some .folder := by rwa [ne_eq, ← h here]
      exact iff_of_false (walk_ne_ok hfolder name more location)
        (walk_ne_ok hother name more location)

/-! ### What writing does -/

/-- What is read at a path is the content of the file that it leads to. -/
theorem read_eq_ok_iff {t : FileTree} {path : String} {content : ByteArray} :
    t.read path = .ok content
      ↔ ∃ location, t.Locates path location ∧ t.get? location = some (.file content) := by
  rw [read]
  by_cases hpath : path = ""
  · rw [if_pos hpath]
    constructor
    · intro h
      cases h
    · rintro ⟨location, ⟨hne, -⟩, -⟩
      exact absurd hpath hne
  rw [if_neg hpath]
  constructor
  · intro h
    cases hwalk : t.walk [] (names path) with
    | error fault =>
      rw [hwalk] at h
      cases h
    | ok location =>
      rw [hwalk] at h
      dsimp only at h
      refine ⟨location, ⟨hpath, hwalk⟩, ?_⟩
      split at h
      · cases h
      · cases h
      · obtain rfl := Except.ok.inj h
        assumption
  · rintro ⟨location, ⟨-, hwalk⟩, hfile⟩
    rw [hwalk]
    dsimp only
    rw [hfile]

/-- Writing puts a file where the path leads, which is no folder. -/
theorem exists_of_write {t u : FileTree} {path : String} {content : ByteArray}
    (h : t.write path content = .ok u) :
    ∃ location, t.Locates path location ∧ t.get? location ≠ some .folder
      ∧ u = t.put location (.file content) := by
  rw [write] at h
  by_cases hpath : path = ""
  · rw [if_pos hpath] at h
    cases h
  rw [if_neg hpath] at h
  cases hwalk : t.walk [] (trimmedNames path) with
  | error fault =>
    rw [hwalk] at h
    cases h
  | ok location =>
    rw [hwalk] at h
    dsimp only at h
    by_cases hrefused : path.toList.getLast? = some '/' ∨ (t.get? location).any Entry.isFolder
    · rw [if_pos hrefused] at h
      cases h
    · rw [if_neg hrefused] at h
      obtain ⟨hslash, hfolder⟩ := not_or.mp hrefused
      rw [trimmedNames_eq hpath hslash] at hwalk
      refine ⟨location, ⟨hpath, hwalk⟩, ?_, (Except.ok.inj h).symm⟩
      intro hentry
      apply hfolder
      rw [hentry]
      rfl

/-- A file in the place of no folder leaves all folders. -/
theorem get?_put_folder {t : FileTree} {location : Location} {content : ByteArray}
    (h : t.get? location ≠ some .folder) (other : Location) :
    (t.put location (.file content)).get? other = some .folder ↔ t.get? other = some .folder := by
  have hroot : location ≠ [] := by
    rintro rfl
    exact h rfl
  by_cases hother : other = location
  · rw [hother, t.get?_put_self _ hroot]
    exact iff_of_false (by simp) h
  · rw [t.get?_put_of_ne _ hother]

variable {t u : FileTree} {path : String} {content : ByteArray}

/-- Paths lead where they led before. -/
theorem locates_of_write (h : t.write path content = .ok u) (other : String)
    (location : Location) : u.Locates other location ↔ t.Locates other location := by
  obtain ⟨target, -, hfolder, rfl⟩ := exists_of_write h
  rw [Locates, Locates, walk_eq_ok_iff (get?_put_folder hfolder)]

/-- Entries elsewhere are what they were. -/
theorem get?_of_write (h : t.write path content = .ok u) {location : Location}
    (hlocation : ¬ t.Locates path location) : u.get? location = t.get? location := by
  obtain ⟨target, htarget, -, rfl⟩ := exists_of_write h
  apply t.get?_put_of_ne
  rintro rfl
  exact hlocation htarget

/-- **A file that was written holds what was written**, whatever it held before. -/
theorem read_of_write (h : t.write path content = .ok u) : u.read path = .ok content := by
  rw [read_eq_ok_iff]
  obtain ⟨location, hlocation, hfolder, hput⟩ := exists_of_write h
  refine ⟨location, (locates_of_write h path location).mpr hlocation, ?_⟩
  rw [hput]
  apply t.get?_put_self
  rintro rfl
  exact hfolder rfl

/-- **All other files are read as before.** -/
theorem read_of_write_of_not_locates (h : t.write path content = .ok u) {other : String}
    (hother : ∀ location, t.Locates path location → ¬ t.Locates other location)
    (bytes : ByteArray) : u.read other = .ok bytes ↔ t.read other = .ok bytes := by
  rw [read_eq_ok_iff, read_eq_ok_iff]
  apply exists_congr
  intro location
  rw [locates_of_write h]
  apply and_congr_right
  intro hlocation
  rw [get?_of_write h fun hpath => hother location hpath hlocation]

end FileTree

end CallGraph
