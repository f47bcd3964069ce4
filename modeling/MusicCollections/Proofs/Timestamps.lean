/-
# Modification times

A file that changed is told from what it was by a later time: `Files.ChangesLater` says so
of two states of a file system, for every file that both of them have and however its path
is written.  That two spellings of a path lead to the same file is `LawfulPaths`.

In a tree of files a path leads to names by its components alone, whatever the tree holds
(`FileTree.destination_eq`).  So a tree is lawful, and two trees are compared node by node
(`NodesLater`).  Each step of replacing a file gives the time of the clock to what it changes
(`FileTree.keptSince`), which makes it later than all that was there before the clock showed
it (`NodesLater.replace`).
-/

import MusicCollections.Proofs.Drafts

namespace MusicCollections

/-- A file system in which paths with the same components lead to the same file. -/
class LawfulPaths (φ : Type) [Files φ] : Prop where
  same_ok {files : φ} {p q : Path} {time time' : Time} (h : Path.same p q = true)
    (hp : Files.modified files p = .ok time) (hq : Files.modified files q = .ok time') :
    time' = time ∧ Files.read files q = Files.read files p

/-- What changed from `files` to `files'` has a later time there. -/
def Files.ChangesLater {φ : Type} [Files φ] (files files' : φ) : Prop :=
  ∀ ⦃p q : Path⦄ ⦃time time' : Time⦄, Path.same p q = true →
    Files.modified files p = .ok time → Files.modified files' q = .ok time' →
      time < time' ∨ time' = time ∧ Files.read files' q = Files.read files p

/-- From files to the same files nothing changes: paths that are known alike read alike. -/
theorem Files.changesLater_refl {φ : Type} [Files φ] [LawfulPaths φ] (files : φ) :
    Files.ChangesLater files files :=
  fun _ _ _ _ h hp hq => .inr (LawfulPaths.same_ok h hp hq)

namespace Path

/-- The separator at the beginning of a path is that of an empty part. -/
theorem parts_of_isAbsolute {path : Path} (h : isAbsolute path = true) :
    ∃ rest, Text.parts '/' path = "" :: rest := by
  obtain ⟨chars, hchars⟩ : ∃ chars, path.toList = '/' :: chars := by
    unfold isAbsolute at h
    cases hpath : path.toList with
    | nil => simp [hpath] at h
    | cons c chars =>
      obtain rfl : c = '/' := by simpa [hpath] using h
      exact ⟨chars, rfl⟩
  refine ⟨(Text.partsAfter '/' [] chars).map String.ofList, ?_⟩
  rw [Text.parts, hchars, Text.partsAfter, if_pos rfl]
  rfl

/-- The components of a path are its parts that count, and one at its beginning. -/
theorem filter_components (path : Path) :
    (components path).filter counts = (Text.parts '/' path).filter counts := by
  have hempty : counts "" = false := rfl
  unfold components
  cases hparts : Text.parts '/' path with
  | nil => rfl
  | cons first rest =>
    dsimp only
    split
    · rename_i habsolute
      obtain ⟨rest', hrest⟩ := parts_of_isAbsolute habsolute
      obtain ⟨rfl, rfl⟩ := List.cons.inj (hparts.symm.trans hrest)
      simp [hempty]
    split
    · rename_i hfirst
      obtain rfl : first = "" := by simpa using hfirst
      simp [hempty]
    · simp [List.filter_cons]

end Path

namespace FileTree

variable {tree tree' earlier : FileTree} {here there names names' : List String}
  {components : List String} {p q path : Path} {node : Node} {time time' : Time}

/-! ## Paths and the names that they lead to -/

/-- A component `.` leads nowhere else. -/
theorem foldl_onward_filter (here components : List String) :
    (components.filter (· != ".")).foldl onward here = components.foldl onward here := by
  induction components generalizing here with
  | nil => rfl
  | cons c rest ih =>
    by_cases hdot : c = "."
    · rw [List.filter_cons_of_neg (by simp [hdot]), List.foldl_cons, onward, if_pos hdot, ih]
    · rw [List.filter_cons_of_pos (by simp [hdot]), List.foldl_cons, List.foldl_cons, ih]

/-- A path leads to names by the components by which it is known. -/
theorem destination_eq (path : Path) :
    destination path = ((Path.components path).filter Path.counts).foldl onward [] := by
  have hcounts : (steps path).filter (· != ".") = (Text.parts '/' path).filter Path.counts := by
    rw [steps, List.filter_filter]
    refine List.filter_congr fun part _ => ?_
    rw [Path.counts, Bool.and_comm]
  rw [destination, ← foldl_onward_filter, hcounts, Path.filter_components]

/-- A path with a modification time leads to a node, and the time is the node's. -/
theorem of_modified_eq_ok (h : Files.modified tree path = .ok time) :
    ∃ names node, tree.locate path = .ok names ∧ tree.node? names = some node ∧
      tree.find path = .ok node ∧ node.modified = time := by
  have hfound : (tree.find path).map Node.modified = .ok time := h
  cases hfind : tree.find path with
  | error e =>
    rw [hfind] at hfound
    cases hfound
  | ok node =>
    rw [hfind] at hfound
    have hlooked := hfind
    unfold find at hlooked
    split at hlooked
    · cases hlooked
    rename_i names hlocate
    split at hlooked
    · cases hlooked
    · rename_i hnode
      obtain rfl := Except.ok.inj hlooked
      exact ⟨names, _, hlocate, hnode, rfl, Except.ok.inj hfound⟩

/-- **Paths with the same components lead to the same names**, in one tree or in two. -/
theorem of_same (h : Path.same p q = true) (hp : Files.modified tree p = .ok time)
    (hq : Files.modified tree' q = .ok time') :
    ∃ names node node', tree.node? names = some node ∧ tree'.node? names = some node' ∧
      tree.find p = .ok node ∧ tree'.find q = .ok node' ∧
      node.modified = time ∧ node'.modified = time' := by
  obtain ⟨names, node, hlocate, hnode, hfind, htime⟩ := of_modified_eq_ok hp
  obtain ⟨names', node', hlocate', hnode', hfind', htime'⟩ := of_modified_eq_ok hq
  have hcomponents : Path.components p = Path.components q := by simpa [Path.same] using h
  obtain rfl : names' = names := by
    rw [(of_locate_eq_ok hlocate).1, (of_locate_eq_ok hlocate').1, destination_eq, destination_eq,
      hcomponents]
  exact ⟨names', node, node', hnode, hnode', hfind, hfind', htime, htime'⟩

/-- What is read at a path is what the node there holds. -/
theorem read_congr (hp : tree.find p = .ok node) (hq : tree'.find q = .ok node) :
    Files.read tree' q = Files.read tree p := by
  change read tree' q = read tree p
  rw [read, read, hp, hq]

instance : LawfulPaths FileTree where
  same_ok h hp hq := by
    obtain ⟨names, node, node', hnode, hnode', hfind, hfind', rfl, rfl⟩ := of_same h hp hq
    obtain rfl := Option.some.inj (hnode.symm.trans hnode')
    exact ⟨rfl, read_congr hfind hfind'⟩

/-! ## Nodes that change -/

/-- What changed from one tree to the other has a later time there, node by node. -/
def NodesLater (tree tree' : FileTree) : Prop :=
  ∀ ⦃names node node'⦄, tree.node? names = some node → tree'.node? names = some node' →
    node.modified < node'.modified ∨ node' = node

/-- **Files that change are later if the nodes that change are.** -/
theorem NodesLater.changesLater (h : tree.NodesLater tree') : Files.ChangesLater tree tree' := by
  intro p q time time' hsame hp hq
  obtain ⟨names, node, node', hnode, hnode', hfind, hfind', rfl, rfl⟩ := of_same hsame hp hq
  rcases h hnode hnode' with hlater | rfl
  · exact .inl hlater
  · exact .inr ⟨rfl, read_congr hfind hfind'⟩

theorem nodesLater_refl (tree : FileTree) : tree.NodesLater tree := by
  intro names node node' hnode hnode'
  exact .inr (Option.some.inj (hnode'.symm.trans hnode))

/-- What the clock shows is not part of any node. -/
theorem NodesLater.atClock (h : earlier.NodesLater tree) (time : Time) :
    earlier.NodesLater { tree with clock := time } := h

/-- All nodes below the root are from before a time. -/
def Before (tree : FileTree) (time : Time) : Prop :=
  ∀ entry ∈ tree.nodes, entry.2.modified < time

instance (tree : FileTree) (time : Time) : Decidable (tree.Before time) :=
  inferInstanceAs (Decidable (∀ entry ∈ tree.nodes, entry.2.modified < time))

/-- A node below the root of a tree from before a time has an earlier one. -/
theorem Before.modified_lt (h : tree.Before time) (hnames : names ≠ [])
    (hnode : tree.node? names = some node) : node.modified < time := by
  rw [node?, if_neg (by simpa using hnames)] at hnode
  obtain ⟨before, after, hnodes, -⟩ := List.lookup_eq_some_iff.1 hnode
  exact h (names, node) (by simp [hnodes])

/-- What changed since `earlier` is later, and so is what the clock shows. -/
structure Since (earlier tree : FileTree) : Prop where
  nodesLater : earlier.NodesLater tree
  before : earlier.Before tree.clock

/-- A node may be put that is later than all there was. -/
theorem NodesLater.put (h : earlier.NodesLater tree) (hbefore : earlier.Before node.modified) :
    earlier.NodesLater (tree.put names node) := by
  intro other was is hwas his
  by_cases hother : other = names
  · subst hother
    by_cases hroot : other = []
    · subst hroot
      exact .inr (Option.some.inj (his.symm.trans hwas))
    · obtain rfl := Option.some.inj ((node?_put_self hroot).symm.trans his)
      exact .inl (hbefore.modified_lt hroot hwas)
  · rw [node?_put_of_ne hother] at his
    exact h hwas his

/-- A node that is taken away has no time. -/
theorem NodesLater.erase (h : earlier.NodesLater tree) (names : List String) :
    earlier.NodesLater (tree.erase names) := by
  intro other was is hwas his
  by_cases hother : other = names
  · subst hother
    by_cases hroot : other = []
    · subst hroot
      exact .inr (Option.some.inj (his.symm.trans hwas))
    · cases (node?_erase_self hroot).symm.trans his
  · rw [node?_erase_of_ne hother] at his
    exact h hwas his

namespace Since

/-- Touching a directory changes it at the time of the clock, which is later than all there
was. -/
theorem touchDirectory (h : earlier.Since tree) (names : List String) :
    earlier.Since (tree.touchDirectory names) := by
  unfold FileTree.touchDirectory
  split
  · split
    · exact h
    · exact ⟨h.nodesLater.put h.before, h.before⟩
  · exact h

/-- Writing changes the file, and the directory of a new file, at the time of the clock. -/
theorem putContents (h : earlier.Since tree) (names : List String) (contents : Contents) :
    earlier.Since (tree.putContents names contents) := by
  unfold FileTree.putContents
  split
  · exact ⟨h.nodesLater.put h.before, h.before⟩
  · have htouched := h.touchDirectory names.dropLast
    exact ⟨htouched.nodesLater.put htouched.before, htouched.before⟩

/-- A write that is refused changes nothing, and any other only at the time of the clock. -/
theorem write (h : earlier.Since tree) (path : Path) (contents : Contents) :
    earlier.Since (tree.write path contents).2 := by
  rcases hwrite : tree.write path contents with ⟨_ | _, tree'⟩
  · exact of_write_eq_error hwrite ▸ h
  · obtain ⟨directory, name, -, rfl⟩ := of_write_eq_ok hwrite
    exact h.putContents _ contents

/-- Throwing a draft away touches its directory at the time of the clock. -/
theorem discard (h : earlier.Since tree) (path : Path) : earlier.Since (tree.discard path) := by
  rcases discard_cases path tree with hkept | ⟨names, -, -, -, -, hdiscard⟩
  · exact hkept.symm ▸ h
  · have herased : earlier.Since (tree.erase names) := ⟨h.nodesLater.erase names, h.before⟩
    exact hdiscard.symm ▸ herased.touchDirectory names.dropLast

end Since

/-- **Every step of replacing a file gives what it changes the time of the clock.** -/
theorem keptSince (earlier : FileTree) : Files.Kept (Since earlier) where
  createDraft path tree h := by
    change earlier.Since (tree.createDraft path).2
    unfold createDraft
    split
    · exact h
    · rename_i draft _
      have hwritten := h.write draft (.text "")
      split
      · rename_i hwrite
        rwa [hwrite] at hwritten
      · rename_i hwrite
        rwa [hwrite] at hwritten
  append text path tree h := by
    change earlier.Since (tree.append text path).2
    unfold append
    split
    · exact h
    · exact h.write path _
  flush _ _ h := h
  rename draft path tree h := by
    change earlier.Since (tree.rename draft path).2
    rcases hrename : tree.rename draft path with ⟨_ | _, tree'⟩
    · exact of_rename_eq_error hrename ▸ h
    · obtain ⟨directory, name, contents, -, -, rfl⟩ := of_rename_eq_ok hrename
      exact ((h.discard draft).touchDirectory directory).putContents _ contents
  discard path _ h := h.discard path

/-- **Replacing a file makes it later than all there was before the clock showed its time**,
and if that fails, what it changed is later too. -/
theorem NodesLater.replace (h : earlier.NodesLater tree) (hbefore : earlier.Before tree.clock)
    (path : Path) (texts : List String) :
    earlier.NodesLater (Files.replace path texts tree).2 :=
  ((keptSince earlier).replace path texts ⟨h, hbefore⟩).nodesLater

end FileTree
end MusicCollections
