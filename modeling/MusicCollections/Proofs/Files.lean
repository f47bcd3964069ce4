/-
# What a file system keeps

`LawfulFiles` says what each step does to a file that it takes a text to: a draft is empty,
it grows by what is written to its end, and it brings its text along when it takes the place
of a file.  A file that is replaced therefore has the text that its parts make
(`Files.of_replace_eq_ok`), and a tree of files is lawful.

In a tree the path is walked before and after.  A change that turns no directory into
something else leaves the way to a path as it is (`Keeps.walk_eq`), and putting a file does
not, since it takes the place of a file alone.
-/

import Mathlib.Data.List.Basic
import Mathlib.Tactic.SplitIfs
import MusicCollections.Files.Tree
import MusicCollections.Proofs.Cache

namespace MusicCollections

/-- A file system in which the steps that succeed do what they are for. -/
class LawfulFiles (φ : Type) [Files φ] : Prop where
  createDraft_ok {path draft : Path} {files files' : φ}
    (h : Files.createDraft path files = (.ok draft, files')) :
    Files.read files' draft = .ok (.text "")
  append_ok {path : Path} {before text : String} {files files' : φ}
    (hread : Files.read files path = .ok (.text before))
    (h : Files.append text path files = (.ok (), files')) :
    Files.read files' path = .ok (.text (before ++ text))
  flush_ok {path : Path} {files files' : φ} (h : Files.flush path files = (.ok (), files')) :
    Files.read files' path = Files.read files path
  rename_ok {draft path : Path} {text : String} {files files' : φ}
    (hread : Files.read files draft = .ok (.text text))
    (h : Files.rename draft path files = (.ok (), files')) :
    (∃ time, Files.modified files' path = .ok time) ∧ Files.read files' path = .ok (.text text)

namespace Files

variable {φ : Type} [Files φ] {path draft : Path} {texts : List String} {files files' : φ}

/-- What every step of replacing a file keeps, whether or not it succeeds. -/
structure Kept (P : φ → Prop) : Prop where
  createDraft (path : Path) (files : φ) : P files → P (Files.createDraft path files).2
  append (text : String) (path : Path) (files : φ) : P files → P (Files.append text path files).2
  flush (path : Path) (files : φ) : P files → P (Files.flush path files).2
  rename (draft path : Path) (files : φ) : P files → P (Files.rename draft path files).2
  discard (path : Path) (files : φ) : P files → P (Files.discard path files)

namespace Kept

variable {P : φ → Prop}

/-- What creating, appending and flushing keep is kept by all the appends of a save, whether
or not one of them fails. -/
theorem appendAll (h : Kept P) (path : Path) (texts : List String) (hfiles : P files) :
    P (Files.appendAll path texts files).2 := by
  induction texts generalizing files with
  | nil => exact hfiles
  | cons text rest ih =>
    have happended := h.append text path files hfiles
    rw [Files.appendAll]
    split
    · rename_i happend
      rwa [happend] at happended
    · rename_i happend
      rw [happend] at happended
      exact ih happended

/-- What each step keeps is kept by a whole save, broken off at any step. -/
theorem publish (h : Kept P) (draft path : Path) (texts : List String) (hfiles : P files) :
    P (Files.publish draft path texts files).2 := by
  have hfilled := h.appendAll draft texts hfiles
  rw [Files.publish]
  split
  · rename_i hfill
    rwa [hfill] at hfilled
  · rename_i filled hfill
    rw [hfill] at hfilled
    have hflushed := h.flush draft filled hfilled
    split
    · rename_i hflush
      rwa [hflush] at hflushed
    · rename_i flushed hflush
      rw [hflush] at hflushed
      exact h.rename draft path flushed hflushed

/-- **What every step keeps is kept when a file is replaced.** -/
theorem replace (h : Kept P) (path : Path) (texts : List String) (hfiles : P files) :
    P (Files.replace path texts files).2 := by
  have hcreated := h.createDraft path files hfiles
  rw [Files.replace]
  split
  · rename_i hcreate
    rwa [hcreate] at hcreated
  · rename_i draft created hcreate
    rw [hcreate] at hcreated
    have hpublished := h.publish draft path texts hcreated
    split
    · rename_i left hpublish
      rw [hpublish] at hpublished
      exact h.discard draft left hpublished
    · rename_i hpublish
      rwa [hpublish] at hpublished

end Kept

/-- What it takes to replace a file: every step succeeds. -/
theorem steps_of_replace_eq_ok (h : Files.replace path texts files = (.ok (), files')) :
    ∃ draft created filled flushed, Files.createDraft path files = (.ok draft, created) ∧
      Files.appendAll draft texts created = (.ok (), filled) ∧
      Files.flush draft filled = (.ok (), flushed) ∧
      Files.rename draft path flushed = (.ok (), files') := by
  rw [replace] at h
  rcases hcreate : Files.createDraft path files with ⟨_ | draft, created⟩
  · rw [hcreate] at h
    cases h
  rw [hcreate] at h
  simp only [publish] at h
  rcases hfill : Files.appendAll draft texts created with ⟨_ | _, filled⟩
  · rw [hfill] at h
    cases h
  rw [hfill] at h
  dsimp only at h
  rcases hflush : Files.flush draft filled with ⟨_ | _, flushed⟩
  · rw [hflush] at h
    cases h
  rw [hflush] at h
  dsimp only at h
  rcases hrename : Files.rename draft path flushed with ⟨_ | _, renamed⟩
  · rw [hrename] at h
    cases h
  rw [hrename] at h
  obtain ⟨-, rfl⟩ := Prod.mk.inj h
  exact ⟨draft, created, filled, flushed, rfl, hfill, hflush, hrename⟩

variable [LawfulFiles φ]

/-- A file grows by all texts that are written to its end. -/
theorem read_of_appendAll {before : String} (hread : Files.read files path = .ok (.text before))
    (h : Files.appendAll path texts files = (.ok (), files')) :
    Files.read files' path = .ok (.text (before ++ String.join texts)) := by
  induction texts generalizing before files with
  | nil =>
    obtain ⟨-, rfl⟩ := Prod.mk.inj h
    simpa using hread
  | cons text rest ih =>
    rw [appendAll] at h
    split at h
    · cases h
    · rename_i appended happend
      rw [ih (LawfulFiles.append_ok hread happend) h, String.join_cons, String.append_assoc]

/-- **A file that was replaced is there and has the text that its parts make.** -/
theorem of_replace_eq_ok (h : Files.replace path texts files = (.ok (), files')) :
    (∃ time, Files.modified files' path = .ok time) ∧
      Files.read files' path = .ok (.text (String.join texts)) := by
  obtain ⟨draft, created, filled, flushed, hcreate, hfill, hflush, hrename⟩ :=
    steps_of_replace_eq_ok h
  have hfilled := read_of_appendAll (LawfulFiles.createDraft_ok hcreate) hfill
  rw [String.empty_append] at hfilled
  exact LawfulFiles.rename_ok ((LawfulFiles.flush_ok hflush).trans hfilled) hrename

/-- A file that was replaced has the text. -/
theorem readText_of_replace (h : Files.replace path texts files = (.ok (), files')) :
    Files.readText files' path = .ok (String.join texts) :=
  readText_eq_ok_iff.2 (of_replace_eq_ok h).2

end Files

namespace FileTree

variable {tree tree' : FileTree} {names other : List String} {node : Node}

/-! ## Nodes -/

/-- A node that was put under a name is found under it. -/
theorem node?_put_self (h : names ≠ []) : (tree.put names node).node? names = some node := by
  rw [node?, if_neg (by simpa using h), put, List.lookup_cons_self]

/-- Every other name keeps its node. -/
theorem node?_put_of_ne (h : other ≠ names) :
    (tree.put names node).node? other = tree.node? other := by
  rw [node?, node?, put, lookup_cons_of_ne h, lookup_filter_of_ne h]

/-- Erasing one name leaves the nodes of all others. -/
theorem node?_erase_of_ne (h : other ≠ names) :
    (tree.erase names).node? other = tree.node? other := by
  rw [node?, node?, erase, lookup_filter_of_ne h]

/-- No node below the root is left where one was taken away. -/
theorem node?_erase_self (h : names ≠ []) : (tree.erase names).node? names = none := by
  rw [node?, if_neg (by simpa using h), erase, List.lookup_eq_none_iff]
  intro entry hentry
  have hne : entry.1 ≠ names := by simpa using (List.mem_filter.1 hentry).2
  simpa using hne.symm

/-- Whether the names lead to a directory. -/
def IsDirectory (tree : FileTree) (names : List String) : Prop :=
  ∃ time, tree.node? names = some (.directory time)

/-- Every directory stays one. -/
def Keeps (tree tree' : FileTree) : Prop :=
  ∀ names, tree.IsDirectory names → tree'.IsDirectory names

/-- A directory may be put anywhere. -/
theorem keeps_put_directory (tree : FileTree) (names : List String) (time : Time) :
    tree.Keeps (tree.put names (.directory time)) := by
  rintro other ⟨was, hother⟩
  by_cases h : other = names
  · subst h
    by_cases hroot : other = []
    · subst hroot
      exact ⟨0, rfl⟩
    · exact ⟨time, node?_put_self hroot⟩
  · exact ⟨was, by rw [node?_put_of_ne h, hother]⟩

/-- A new modification time of a directory takes no directory away. -/
theorem keeps_touchDirectory (tree : FileTree) (names : List String) :
    tree.Keeps (tree.touchDirectory names) := by
  unfold touchDirectory
  split
  · split
    · exact fun _ h => h
    · exact keeps_put_directory tree names tree.clock
  · exact fun _ h => h

/-- Nothing becomes a directory when the change of one is noted. -/
theorem isDirectory_of_touchDirectory (h : (tree.touchDirectory names).IsDirectory other) :
    tree.IsDirectory other := by
  unfold touchDirectory at h
  split at h
  · rename_i time hnames
    split at h
    · exact h
    · by_cases heq : other = names
      · exact heq ▸ ⟨time, hnames⟩
      · obtain ⟨was, hother⟩ := h
        exact ⟨was, by rwa [node?_put_of_ne heq] at hother⟩
  · exact h

/-- Nothing becomes a directory when a node is taken away. -/
theorem isDirectory_of_erase (h : (tree.erase names).IsDirectory other) :
    tree.IsDirectory other := by
  obtain ⟨time, hnode⟩ := h
  by_cases heq : other = names
  · subst heq
    by_cases hroot : other = []
    · subst hroot
      exact ⟨0, rfl⟩
    · cases (node?_erase_self hroot).symm.trans hnode
  · exact ⟨time, by rwa [node?_erase_of_ne heq] at hnode⟩

/-- Anything may be put where no directory is. -/
theorem keeps_put (h : ¬tree.IsDirectory names) : tree.Keeps (tree.put names node) := by
  rintro other ⟨time, hother⟩
  have hne : other ≠ names := by
    rintro rfl
    exact h ⟨time, hother⟩
  exact ⟨time, by rw [node?_put_of_ne hne, hother]⟩

/-- Writing where no directory stands keeps every directory a directory. -/
theorem keeps_putContents (h : ¬tree.IsDirectory names) (contents : Contents) :
    tree.Keeps (tree.putContents names contents) := by
  unfold putContents
  split
  · exact keeps_put h
  · intro other hother
    have hnames : ¬(tree.touchDirectory names.dropLast).IsDirectory names :=
      fun hnames => h (isDirectory_of_touchDirectory hnames)
    exact keeps_put hnames other (keeps_touchDirectory tree _ other hother)

/-- The written file holds the contents, with some modification time. -/
theorem node?_putContents (h : names ≠ []) (contents : Contents) :
    ∃ time, (tree.putContents names contents).node? names = some (.file contents time) :=
  ⟨_, node?_put_self h⟩

/-! ## Walks -/

section Walk

variable {here there : List String} {name : String}

/-- A way may be walked in two parts. -/
theorem walk_append (here names more : List String) :
    tree.walk here (names ++ more) =
      (tree.walk here names).bind fun there => tree.walk there more := by
  induction names generalizing here with
  | nil => rfl
  | cons component rest ih =>
    rw [List.cons_append, walk, walk]
    cases tree.node? here with
    | none => rfl
    | some node =>
      cases node with
      | file => rfl
      | directory =>
        dsimp only
        split_ifs
        · exact ih here
        · exact ih here.dropLast
        · rfl
        · exact ih (here ++ [component])

/-- **What keeps the directories keeps the ways through them.** -/
theorem Keeps.walk_eq (h : tree.Keeps tree') (hwalk : tree.walk here names = .ok there) :
    tree'.walk here names = .ok there := by
  induction names generalizing here with
  | nil => exact hwalk
  | cons component rest ih =>
    rw [walk] at hwalk ⊢
    cases hnode : tree.node? here with
    | none =>
      rw [hnode] at hwalk
      cases hwalk
    | some node =>
      rw [hnode] at hwalk
      cases node with
      | file => cases hwalk
      | directory time =>
        -- The directory may have another time, which does not matter to the walk.
        obtain ⟨time', hnode'⟩ := h here ⟨time, hnode⟩
        rw [hnode']
        dsimp only at hwalk ⊢
        split_ifs at hwalk ⊢
        · exact ih hwalk
        · exact ih hwalk
        · exact ih hwalk

/-- In a directory a name leads to its entry. -/
theorem walk_name (hhere : tree.IsDirectory here) (hdot : name ≠ ".") (hdots : name ≠ "..")
    (hlong : isTooLong name = false) : tree.walk here [name] = .ok (here ++ [name]) := by
  obtain ⟨time, hnode⟩ := hhere
  simp [walk, hnode, hdot, hdots, hlong]

end Walk

/-! ## Writing a file -/

section Write

variable {path draft : Path} {directory : List String} {name text : String} {contents : Contents}

/-- An entry stands in a directory that is there, under the last name of its path. -/
theorem of_place_eq_ok (h : tree.place path = .ok ⟨directory, some name⟩) :
    pathFault? path = none ∧ name ≠ "." ∧ name ≠ ".." ∧ tree.IsDirectory directory ∧
      ∃ before, steps path = before ++ [name] ∧ tree.walk [] before = .ok directory := by
  unfold place at h
  split at h
  · cases h
  · rename_i hfault
    split at h
    · cases h
    · rename_i there hwalk
      split at h
      · cases h
      · cases h
      · rename_i time hnode
        obtain ⟨rfl, hname⟩ := Place.mk.inj (Except.ok.inj h)
        obtain ⟨hlast, hdots⟩ := Option.filter_eq_some_iff.1 hname
        have hsteps : steps path = (steps path).dropLast ++ [name] :=
          (List.dropLast_append_getLast? name hlast).symm
        simp only [Bool.and_eq_true, bne_iff_ne] at hdots
        exact ⟨hfault, hdots.1, hdots.2, ⟨time, hnode⟩, _, hsteps, hwalk⟩

/-- A path leads to its entry as long as the directories stay. -/
theorem Keeps.locate_eq (h : tree.Keeps tree')
    (hplace : tree.place path = .ok ⟨directory, some name⟩) (hlong : isTooLong name = false)
    (hopen : endsOpen path = false) : tree'.locate path = .ok (directory ++ [name]) := by
  obtain ⟨hfault, hdot, hdots, hdirectory, before, hsteps, hwalk⟩ := of_place_eq_ok hplace
  have hname := walk_name (h directory hdirectory) hdot hdots hlong
  simp only [locate, hfault, hopen, hsteps, Bool.false_eq_true, if_false, List.append_nil]
  rw [walk_append, h.walk_eq hwalk]
  exact hname

/-- What is at a path that leads to a file. -/
theorem find_eq_ok (h : tree.locate path = .ok names) (hnode : tree.node? names = some node) :
    tree.find path = .ok node := by
  simp only [find, h, hnode]

/-- A file can be put at a path, under a name in a directory. -/
structure Takes (tree : FileTree) (path : Path) (directory : List String) (name : String) :
    Prop where
  place_eq : tree.place path = .ok ⟨directory, some name⟩
  not_long : isTooLong name = false
  not_open : endsOpen path = false
  not_directory : ¬tree.IsDirectory (directory ++ [name])

/-- **What was put in the place of a file is found there.** -/
theorem Takes.find_putContents (h : tree.Takes path directory name) {changed : FileTree}
    (hkeeps : tree.Keeps changed) (hfile : ¬changed.IsDirectory (directory ++ [name]))
    (contents : Contents) :
    ∃ time, (changed.putContents (directory ++ [name]) contents).find path =
      .ok (.file contents time) := by
  have hput : tree.Keeps (changed.putContents (directory ++ [name]) contents) :=
    fun other hother => keeps_putContents hfile _ other (hkeeps other hother)
  obtain ⟨time, hnode⟩ : ∃ time,
      (changed.putContents (directory ++ [name]) contents).node? (directory ++ [name]) =
        some (.file contents time) := node?_putContents (by simp) _
  exact ⟨time, find_eq_ok (hput.locate_eq h.place_eq h.not_long h.not_open) hnode⟩

/-- What is written is written where an entry stands that is no directory. -/
theorem of_write_eq_ok (h : tree.write path contents = (.ok (), tree')) :
    ∃ directory name, tree.Takes path directory name ∧
      tree' = tree.putContents (directory ++ [name]) contents := by
  unfold write at h
  split at h
  · cases h
  · cases h
  rename_i directory name hplace
  split at h
  · cases h
  rename_i hlong
  split at h
  · cases h
  · cases h
  · cases h
  · rename_i hopen hdirectory
    obtain ⟨-, rfl⟩ := Prod.mk.inj h
    exact ⟨directory, name, ⟨hplace, by simpa using hlong, hopen,
      fun ⟨time, hnode⟩ => hdirectory time hnode⟩, rfl⟩

/-- A write that fails changes nothing. -/
theorem of_write_eq_error {e : IoError} (h : tree.write path contents = (.error e, tree')) :
    tree' = tree := by
  unfold write at h
  repeat' split at h
  all_goals cases h
  all_goals rfl

/-- What was written is read. -/
theorem read_of_write (h : tree.write path contents = (.ok (), tree')) :
    tree'.read path = .ok contents := by
  obtain ⟨directory, name, htakes, rfl⟩ := of_write_eq_ok h
  obtain ⟨time, hfind⟩ := htakes.find_putContents (fun _ h => h) htakes.not_directory contents
  rw [read, hfind]

end Write

/-! ## Drafts -/

section Draft

variable {path draft : Path} {text : String}

/-- A draft is made by writing an empty file where nothing is. -/
theorem of_createDraft_eq_ok (h : tree.createDraft path = (.ok draft, tree')) :
    tree.isFree path draft = true ∧ tree.write draft (.text "") = (.ok (), tree') := by
  unfold createDraft at h
  split at h
  · cases h
  · rename_i found hfound
    split at h
    · cases h
    · rename_i hwrite
      obtain ⟨hdraft, rfl⟩ := Prod.mk.inj h
      obtain rfl := Except.ok.inj hdraft
      exact ⟨List.find?_some hfound, hwrite⟩

/-- What it takes to put a draft in the place of a file, and what is there then. -/
theorem of_rename_eq_ok (h : tree.rename draft path = (.ok (), tree')) :
    ∃ directory name contents, tree.Takes path directory name ∧ tree.read draft = .ok contents ∧
      tree' = ((tree.discard draft).touchDirectory directory).putContents (directory ++ [name])
        contents := by
  unfold rename at h
  split at h
  · cases h
  split at h
  · cases h
  · cases h
  rename_i directory name hplace
  split at h
  · cases h
  rename_i hlong
  split at h
  · cases h
  rename_i hopen
  split at h
  · cases h
  · cases h
  · rename_i contents hread hdirectory
    obtain ⟨-, rfl⟩ := Prod.mk.inj h
    exact ⟨directory, name, contents, ⟨hplace, by simpa using hlong, by simpa using hopen,
      fun ⟨time, hnode⟩ => hdirectory time hnode⟩, hread, rfl⟩

/-- A rename that fails changes nothing. -/
theorem of_rename_eq_error {e : IoError} (h : tree.rename draft path = (.error e, tree')) :
    tree' = tree := by
  unfold rename at h
  repeat' split at h
  all_goals cases h
  all_goals rfl

/-- Throwing a draft away does nothing, or erases the one file it names and touches the
directory that held it. -/
theorem discard_cases (path : Path) (tree : FileTree) :
    tree.discard path = tree ∨ ∃ names contents time, tree.locate path = .ok names ∧
      tree.node? names = some (.file contents time) ∧
      tree.discard path = (tree.erase names).touchDirectory names.dropLast := by
  unfold discard
  split
  · rename_i names contents time hlocate hfind
    simp only [find, hlocate] at hfind
    split at hfind
    · cases hfind
    · rename_i hnode
      obtain rfl := Except.ok.inj hfind
      exact .inr ⟨names, contents, time, hlocate, hnode, rfl⟩
  · exact .inl rfl

/-- No directory is discarded. -/
theorem keeps_discard (path : Path) (tree : FileTree) : tree.Keeps (tree.discard path) := by
  rcases discard_cases path tree with hkept | ⟨names, contents, time, -, hnode, hdiscard⟩
  · rw [hkept]
    exact fun _ h => h
  · rw [hdiscard]
    intro other hother
    refine keeps_touchDirectory _ _ other ?_
    -- What is erased is a file, so it is not the directory.
    have hne : other ≠ names := by
      rintro rfl
      obtain ⟨was, hwas⟩ := hother
      cases hwas.symm.trans hnode
    obtain ⟨was, hwas⟩ := hother
    exact ⟨was, by rwa [node?_erase_of_ne hne]⟩

/-- Nothing becomes a directory when a file is discarded. -/
theorem isDirectory_of_discard (h : (tree.discard path).IsDirectory other) :
    tree.IsDirectory other := by
  rcases discard_cases path tree with hkept | ⟨names, -, -, -, -, hdiscard⟩
  · rwa [hkept] at h
  · rw [hdiscard] at h
    exact isDirectory_of_erase (isDirectory_of_touchDirectory h)

instance : LawfulFiles FileTree where
  createDraft_ok h := read_of_write (of_createDraft_eq_ok h).2
  append_ok {path before text tree tree'} hread h := by
    change tree.append text path = (.ok (), tree') at h
    rw [append, show tree.read path = .ok (.text before) from hread] at h
    exact read_of_write h
  flush_ok h := by
    obtain ⟨-, rfl⟩ := Prod.mk.inj h
    rfl
  rename_ok {draft path text tree tree'} hread h := by
    obtain ⟨directory, name, contents, htakes, hcontents, rfl⟩ := of_rename_eq_ok h
    obtain rfl := Except.ok.inj (hcontents.symm.trans hread)
    -- The draft is gone before the file is put, and the way to the path is still there.
    have hkeeps : tree.Keeps ((tree.discard draft).touchDirectory directory) := fun other h =>
      keeps_touchDirectory _ directory other (keeps_discard draft tree other h)
    have hfile : ¬((tree.discard draft).touchDirectory directory).IsDirectory
        (directory ++ [name]) := fun h =>
      htakes.not_directory (isDirectory_of_discard (isDirectory_of_touchDirectory h))
    obtain ⟨time, hfind⟩ := htakes.find_putContents hkeeps hfile (.text text)
    refine ⟨⟨time, ?_⟩, ?_⟩
    · change (find _ path).map Node.modified = .ok time
      rw [hfind]
      rfl
    · change read _ path = .ok (.text text)
      rw [read, hfind]

end Draft
end FileTree
end MusicCollections
