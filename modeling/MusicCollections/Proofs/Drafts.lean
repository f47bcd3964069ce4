/-
# Files that are replaced by way of a draft

A file gets a new text in steps (`Files.replace`), and any of them may fail.  What they do to
other files than the draft is in `DraftsApart`: making, filling and discarding a draft leave
the file that it is for, and so does a rename that fails.  Then a replacement that fails leaves
it (`DraftsApart.read_of_replace_error`).

In a tree of files a draft is made where nothing is, and where the path of the file does not
go through.  What a path reads depends on the nodes on its way alone
(`FileTree.read_congr_of_held`), and nothing that is done to a draft changes another node, but
for the times of directories.
A device without space left is a tree whose drafts take no more bytes (`Metered`).
-/

import Mathlib.Data.Prod.Basic
import MusicCollections.Proofs.Files

namespace MusicCollections

/-- What is done to the drafts for a file leaves the file, apart from a rename that succeeds.
`Beside draft path` holds of the drafts that are made for the file at a path. -/
structure DraftsApart (φ : Type) [Files φ] (Beside : Path → Path → Prop) : Prop where
  createDraft_ok {path draft : Path} {files files' : φ} :
    Files.createDraft path files = (.ok draft, files') → Beside draft path
  read_createDraft (path : Path) (files : φ) :
    Files.read (Files.createDraft path files).2 path = Files.read files path
  read_append {draft path : Path} (text : String) (files : φ) : Beside draft path →
    Files.read (Files.append text draft files).2 path = Files.read files path
  read_flush {draft path : Path} (files : φ) : Beside draft path →
    Files.read (Files.flush draft files).2 path = Files.read files path
  read_discard {draft path : Path} (files : φ) : Beside draft path →
    Files.read (Files.discard draft files) path = Files.read files path
  /-- A rename does all of it or nothing. -/
  rename_error {draft path : Path} {files files' : φ} {e : IoError} :
    Files.rename draft path files = (.error e, files') →
      Files.read files' path = Files.read files path

namespace DraftsApart

variable {φ : Type} [Files φ] {Beside : Path → Path → Prop} {draft path : Path}
  {texts : List String} {files files' : φ} {e : IoError}

/-- Filling a draft leaves the file. -/
theorem read_appendAll (h : DraftsApart φ Beside) (hbeside : Beside draft path)
    (texts : List String) (files : φ) :
    Files.read (Files.appendAll draft texts files).2 path = Files.read files path := by
  induction texts generalizing files with
  | nil => rfl
  | cons text rest ih =>
    have happended := h.read_append text files hbeside
    rw [Files.appendAll]
    rcases happend : Files.append text draft files with ⟨_ | _, appended⟩
    · rw [happend] at happended
      exact happended
    · rw [happend] at happended
      exact (ih appended).trans happended

/-- A draft that does not take the place of the file leaves it. -/
theorem read_of_publish_error (h : DraftsApart φ Beside) (hbeside : Beside draft path)
    (hpublish : Files.publish draft path texts files = (.error e, files')) :
    Files.read files' path = Files.read files path := by
  have hfilled := h.read_appendAll hbeside texts files
  rw [Files.publish] at hpublish
  rcases hfill : Files.appendAll draft texts files with ⟨_ | _, filled⟩
  · rw [hfill] at hpublish hfilled
    obtain ⟨-, rfl⟩ := Prod.mk.inj hpublish
    exact hfilled
  rw [hfill] at hpublish hfilled
  have hflushed := h.read_flush filled hbeside
  dsimp only at hpublish
  rcases hflush : Files.flush draft filled with ⟨_ | _, flushed⟩
  · rw [hflush] at hpublish hflushed
    obtain ⟨-, rfl⟩ := Prod.mk.inj hpublish
    exact hflushed.trans hfilled
  · rw [hflush] at hpublish hflushed
    exact (h.rename_error hpublish).trans (hflushed.trans hfilled)

/-- **A replacement that fails leaves the file**, whichever step fails. -/
theorem read_of_replace_error (h : DraftsApart φ Beside)
    (hreplace : Files.replace path texts files = (.error e, files')) :
    Files.read files' path = Files.read files path := by
  have hcreated := h.read_createDraft path files
  rw [Files.replace] at hreplace
  rcases hcreate : Files.createDraft path files with ⟨_ | draft, created⟩
  · rw [hcreate] at hreplace hcreated
    obtain ⟨-, rfl⟩ := Prod.mk.inj hreplace
    exact hcreated
  rw [hcreate] at hreplace hcreated
  have hbeside := h.createDraft_ok hcreate
  dsimp only at hreplace
  rcases hpublish : Files.publish draft path texts created with ⟨_ | _, left⟩
  · rw [hpublish] at hreplace
    obtain ⟨-, rfl⟩ := Prod.mk.inj hreplace
    -- What was made of the draft is thrown away, which the file does not notice either.
    exact (h.read_discard left hbeside).trans
      ((h.read_of_publish_error hbeside hpublish).trans hcreated)
  · rw [hpublish] at hreplace
    cases hreplace

end DraftsApart

/-! ## Drafts in a tree of files -/

namespace FileTree

variable {tree tree' : FileTree} {here there names other components : List String} {node : Node}
  {draft path : Path} {text : String} {contents : Contents}

/-- What a file holds; a directory holds nothing. -/
def Node.contents? : Node → Option Contents
  | .directory _ => none
  | .file contents _ => some contents

/-- What is where the names lead: nothing, a directory or a file with its contents. -/
def held (tree : FileTree) (names : List String) : Option (Option Contents) :=
  (tree.node? names).map Node.contents?

/-- A way of one component more is walked through the directory the walk has come to:
nothing else can be gone through. -/
theorem walk_cons (tree : FileTree) (here : List String) (component : String)
    (rest : List String) :
    tree.walk here (component :: rest) =
      match tree.held here with
      | none => .error .notFound
      | some (some _) => .error .notADirectory
      | some none =>
        if component ≠ "." ∧ component ≠ ".." ∧ isTooLong component then .error .nameTooLong
        else tree.walk (onward here component) rest := by
  rw [walk, held]
  cases tree.node? here with
  | none => rfl
  | some node =>
    cases node with
    | file => rfl
    | directory =>
      simp only [Option.map_some, Node.contents?, onward]
      split_ifs <;> simp_all

/-- **A walk depends on what is held on its way.** -/
theorem walk_congr (h : ∀ names ∈ wayFrom here components, tree'.held names = tree.held names) :
    tree'.walk here components = tree.walk here components := by
  induction components generalizing here with
  | nil => rfl
  | cons component rest ih =>
    -- The way begins here: the same is held here, so the step leads to the same place.
    rw [wayFrom, List.forall_mem_cons] at h
    rw [walk_cons, walk_cons, h.1, ih h.2]

/-- A way begins where it is walked from. -/
theorem self_mem_wayFrom (here components : List String) : here ∈ wayFrom here components := by
  cases components <;> simp [wayFrom]

/-- **Where a walk ends is a matter of the components alone**, and is the end of its way. -/
theorem of_walk_eq_ok (h : tree.walk here components = .ok there) :
    there = components.foldl onward here ∧ there ∈ wayFrom here components := by
  induction components generalizing here with
  | nil =>
    obtain rfl := Except.ok.inj h
    exact ⟨rfl, self_mem_wayFrom here []⟩
  | cons component rest ih =>
    rw [walk_cons] at h
    split at h
    · cases h
    · cases h
    · split at h
      · cases h
      · exact ⟨(ih h).1, List.mem_cons_of_mem here (ih h).2⟩

/-- A path leads to its destination, if it leads anywhere. -/
theorem of_locate_eq_ok (h : tree.locate path = .ok names) :
    names = destination path ∧ names ∈ way path := by
  unfold locate at h
  split at h
  · cases h
  · obtain ⟨hend, hway⟩ := of_walk_eq_ok h
    refine ⟨?_, hway⟩
    rw [hend, List.foldl_append, destination]
    split <;> rfl

/-- **What a path reads depends on what is held on its way.** -/
theorem read_congr_of_held (h : ∀ names ∈ way path, tree'.held names = tree.held names) :
    tree'.read path = tree.read path := by
  have hlocate : tree'.locate path = tree.locate path := by
    rw [locate, locate, walk_congr h]
  simp only [read, find, hlocate]
  cases hnames : tree.locate path with
  | error e => rfl
  | ok names =>
    -- Where the path leads is the last place on its way.
    have hheld := h names (of_locate_eq_ok hnames).2
    simp only [held] at hheld
    dsimp only
    cases hnode : tree.node? names with
    | none =>
      rw [hnode, Option.map_none, Option.map_eq_none_iff] at hheld
      rw [hheld]
    | some node =>
      rw [hnode, Option.map_some, Option.map_eq_some_iff] at hheld
      obtain ⟨node', hnode', hsame⟩ := hheld
      rw [hnode']
      cases node <;> cases node' <;> simp_all [Node.contents?]

/-! ### What the steps change -/

/-- The time of a directory is not part of what is held. -/
theorem held_touchDirectory (tree : FileTree) (names other : List String) :
    (tree.touchDirectory names).held other = tree.held other := by
  unfold touchDirectory
  split
  · rename_i time hnode
    split
    · rfl
    · rename_i hroot
      by_cases h : other = names
      · subst h
        rw [held, held, hnode, node?_put_self (by simpa using hroot)]
        rfl
      · rw [held, held, node?_put_of_ne h]
  · rfl

/-- Writing one file leaves what every other place holds. -/
theorem held_putContents_of_ne (h : other ≠ names) :
    (tree.putContents names contents).held other = tree.held other := by
  unfold putContents
  split
  · rw [held, held, node?_put_of_ne h]
  · rw [held, node?_put_of_ne h]
    exact held_touchDirectory tree names.dropLast other

/-- The place of an entry is the destination of its path. -/
theorem Takes.destination_eq {directory : List String} {name : String}
    (h : tree.Takes path directory name) : directory ++ [name] = destination path := by
  obtain ⟨-, hdot, hdots, -, before, hsteps, hwalk⟩ := of_place_eq_ok h.place_eq
  rw [destination, hsteps, List.foldl_append, ← (of_walk_eq_ok hwalk).1, List.foldl_cons,
    List.foldl_nil, onward, if_neg hdot, if_neg hdots]

/-- A write changes its destination alone. -/
theorem held_write (h : other ≠ destination path) :
    (tree.write path contents).2.held other = tree.held other := by
  rcases hwrite : tree.write path contents with ⟨_ | _, tree'⟩
  · rw [of_write_eq_error hwrite]
  · obtain ⟨directory, name, htakes, rfl⟩ := of_write_eq_ok hwrite
    exact held_putContents_of_ne (htakes.destination_eq ▸ h)

/-- Throwing a draft away leaves what every other place holds. -/
theorem held_discard (h : other ≠ destination path) :
    (tree.discard path).held other = tree.held other := by
  rcases discard_cases path tree with hkept | ⟨names, -, -, hlocate, -, hdiscard⟩
  · rw [hkept]
  · rw [hdiscard, held_touchDirectory, held, held,
      node?_erase_of_ne ((of_locate_eq_ok hlocate).1 ▸ h)]

/-- A path does not go through the destination of a draft. -/
def Beside (draft path : Path) : Prop := destination draft ∉ way path

/-- Of a tree that holds the same at every place but the draft's, the file beside the draft
reads the same. -/
theorem Beside.read_eq (h : Beside draft path)
    (hheld : ∀ other, other ≠ destination draft → tree'.held other = tree.held other) :
    tree'.read path = tree.read path :=
  read_congr_of_held fun other hother => hheld other fun heq => h (heq ▸ hother)

/-- Writing the draft is not seen by a reader of the file it stands beside. -/
theorem Beside.read_write (h : Beside draft path) (contents : Contents) (tree : FileTree) :
    (tree.write draft contents).2.read path = tree.read path :=
  h.read_eq fun _ => held_write

/-- The free names that a save takes for its draft are beside the file. -/
theorem beside_of_isFree (h : tree.isFree path draft = true) : Beside draft path := by
  simp only [isFree, Bool.and_eq_true, Bool.not_eq_true', List.contains_eq_mem,
    decide_eq_false_iff_not] at h
  exact h.2

/-- **In a tree of files drafts are apart from the files that they are for.** -/
theorem draftsApart : DraftsApart FileTree Beside where
  createDraft_ok h := beside_of_isFree (of_createDraft_eq_ok h).1
  read_createDraft path tree := by
    change (tree.createDraft path).2.read path = tree.read path
    unfold createDraft
    split
    · rfl
    · rename_i draft hfree
      have hread := (beside_of_isFree (List.find?_some hfree)).read_write (.text "") tree
      split
      · rename_i hwrite
        rwa [hwrite] at hread
      · rename_i hwrite
        rwa [hwrite] at hread
  read_append {draft path} text tree h := by
    change (tree.append text draft).2.read path = tree.read path
    unfold append
    split
    · rfl
    · exact h.read_write _ tree
  read_flush _ _ := rfl
  read_discard _ h := h.read_eq fun _ => held_discard
  rename_error h := by rw [of_rename_eq_error h]

end FileTree

/-! ## A device that is full -/

/-- Files on a device that takes so many bytes more. -/
structure Metered (φ : Type) where
  files : φ
  left : Nat

namespace Metered

variable {φ : Type} [Files φ]

/-- The error of a device that is full. -/
def full : IoError := .other "No space left on device (os error 28)"

/-- Changes the files. -/
def onFiles {α : Type} (change : φ → α × φ) (device : Metered φ) : α × Metered φ :=
  ((change device.files).1, { device with files := (change device.files).2 })

/-- Drafts take no more bytes than are left. -/
instance : Files (Metered φ) where
  modified device := Files.modified device.files
  read device := Files.read device.files
  createDraft path := onFiles (Files.createDraft path)
  append text path device :=
    if device.left < text.utf8ByteSize then (.error full, device)
    else onFiles (Files.append text path) { device with left := device.left - text.utf8ByteSize }
  flush path := onFiles (Files.flush path)
  rename draft path := onFiles (Files.rename draft path)
  discard path device := { device with files := Files.discard path device.files }
  write path contents := onFiles (Files.write path contents)
  makeDirectories path := onFiles (Files.makeDirectories path)

end Metered

/-- Drafts are as much apart on a device that is full. -/
theorem DraftsApart.metered {φ : Type} [Files φ] {Beside : Path → Path → Prop}
    (h : DraftsApart φ Beside) : DraftsApart (Metered φ) Beside where
  createDraft_ok {path draft device device'} hcreate := by
    have houtcome := congrArg Prod.fst hcreate
    exact h.createDraft_ok (Prod.fst_eq_iff.1 houtcome)
  read_createDraft path device := h.read_createDraft path device.files
  read_append {draft path} text device hbeside := by
    change Files.read (if device.left < text.utf8ByteSize then _ else _ : _ × Metered φ).2.files
      path = Files.read device.files path
    split
    · rfl
    · exact h.read_append text device.files hbeside
  read_flush device := h.read_flush device.files
  read_discard device := h.read_discard device.files
  rename_error {draft path device device' e} hrename := by
    have houtcome := congrArg Prod.fst hrename
    obtain rfl := congrArg Prod.snd hrename
    exact h.rename_error (Prod.fst_eq_iff.1 houtcome)

end MusicCollections
