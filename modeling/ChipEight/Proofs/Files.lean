import ChipEight.FileTree

namespace ChipEight.FileTree

/-!
# What reading a path comes to

* `FileTree.read_eq_noPath_iff` — the texts that are no paths;
* `FileTree.read_of_refusal` — a path that the system refuses for a reason of its own;
* `FileTree.read_of_absolute` — a path from the root does not depend on the working folder.
-/

/-! ### Texts that are no paths -/

/-- Following a name of a path never finds that the text is no path. -/
theorem follow_ne_noPath (p : Place) (name : String) :
    p.follow (.error .missing) name ≠ .error .noPath := by
  unfold Place.follow
  split
  · simp
  · split
    · simp
    · split
      · simp
      · split
        · simp
        · split <;> simp [Except.map]

/-- So a list of names is followed without finding it either. -/
theorem foldlM_follow_ne_noPath (names : List String) (p : Place) :
    names.foldlM (Place.follow (.error .missing)) p ≠ .error .noPath := by
  induction names generalizing p with
  | nil => simp [pure, Except.pure]
  | cons name names ih =>
    rw [List.foldlM_cons]
    cases followed : p.follow (.error .missing) name with
    | ok q => exact ih q
    | error fault =>
      rintro ⟨⟩
      exact follow_ne_noPath p name followed

/-- The way to the folder where a path starts does not find it. -/
theorem start_ne_noPath (tree : FileTree) (path : String) : tree.start path ≠ .error .noPath := by
  unfold start
  split
  · exact nofun
  · exact foldlM_follow_ne_noPath tree.working _

/-- The check of a text as a whole finds it. -/
theorem names_eq_noPath_iff (path : String) :
    names path = .error .noPath ↔ '\x00' ∈ path.toList := by
  unfold names
  split
  · next nul => simpa using nul
  · next clean =>
    have clean : '\x00' ∉ path.toList := by simpa using clean
    split
    · simp [clean]
    · split <;> simp [clean]

/-- The same of what is at a path. -/
theorem find_eq_noPath_iff (tree : FileTree) (path : String) :
    tree.find path = .error .noPath ↔ '\x00' ∈ path.toList := by
  rw [← names_eq_noPath_iff, find]
  cases names path with
  | error fault => simp [bind, Except.bind]
  | ok parts =>
    refine iff_of_false ?_ nofun
    cases started : tree.start path with
    | error fault =>
      rintro ⟨⟩
      exact start_ne_noPath tree path started
    | ok place =>
      show (parts.foldlM (Place.follow (.error .missing)) place >>= _) ≠ _
      cases led : parts.foldlM (Place.follow (.error .missing)) place with
      | error fault =>
        rintro ⟨⟩
        exact foldlM_follow_ne_noPath parts place led
      | ok there => exact nofun

/-- The texts that are no paths are those with a NUL. -/
theorem read_eq_noPath_iff (tree : FileTree) (path : String) :
    tree.read path = .error .noPath ↔ '\x00' ∈ path.toList := by
  rw [← find_eq_noPath_iff tree, read]
  split <;> simp_all

/-! ### Paths -/

/-- A path that the system refuses for a reason of its own is refused with that reason,
    whatever is in the tree. -/
theorem read_of_refusal {tree : FileTree} {path reason : String} (clean : '\x00' ∉ path.toList)
    (refused : tree.refusal? path = some reason) :
    tree.read path = .error (.refused reason) := by
  rw [← find_eq_noPath_iff tree] at clean
  rw [read]
  split <;> simp_all

/-- A path from the root does not depend on the working folder. -/
theorem read_of_absolute (tree : FileTree) {path : String} (absolute : path.startsWith "/" = true)
    (working : List String) : { tree with working := working }.read path = tree.read path := by
  have start : start { tree with working := working } path = tree.start path := by
    rw [FileTree.start, FileTree.start, if_pos absolute, if_pos absolute]
  rw [read, read, find, find, start]

example :
    let tree : FileTree := { top := .folder [("a", .file #[0x12])], working := ["b"] }
    tree.read "/a" = .ok #[0x12] := by
  cbv

end ChipEight.FileTree
