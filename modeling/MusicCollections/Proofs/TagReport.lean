/-
# What the tag report says

The tracks are filed one by one under their tags.  A step puts a track at the end of its own
group and leaves the files of all other groups as they are (`filesOf_fileUnder`), so after a
run each group has the files of the tracks with its tags, in their order
(`grouped_groups`), and the groups ascend by their tags, which keeps any tags from heading
two.

So the report tells of every track in one place at most: among those that lack tags, in a
group of tracks with the same five, or nowhere if it has all tags and shares them with none
(`TagReport.Classifies`).
-/

import Mathlib.Data.List.Induction
import Mathlib.Data.List.Lex
import Mathlib.Data.String.Basic
import MusicCollections.Command.TagReport
import MusicCollections.Proofs.Catalog

namespace MusicCollections

namespace Catalog

variable {catalog : Catalog} {file : String} {tags tags' : Tags}

/-- The catalog knows the file, with these tags. -/
def Tagged (catalog : Catalog) (file : String) (tags : Tags) : Prop :=
  ∃ t ∈ catalog.tracks, t.file = file ∧ t.tags = tags

/-- A file that the catalog knows has one list of tags. -/
theorem Tagged.unique (h : catalog.Tagged file tags) (h' : catalog.Tagged file tags') :
    tags = tags' := by
  obtain ⟨t, ht, hfile, rfl⟩ := h
  obtain ⟨u, hu, hfile', rfl⟩ := h'
  rw [track_unique ht hu (hfile.trans hfile'.symm)]

end Catalog

/-! ## Empty tags -/

namespace Tags

variable {tags : Tags} {name : String}

/-- The tags that are missing are those without a value. -/
theorem mem_missing_iff : name ∈ tags.missing ↔ (name, "") ∈ tags.fields := by
  simp only [missing, List.mem_map, List.mem_filter, String.isEmpty_iff]
  constructor
  · rintro ⟨⟨_, _⟩, ⟨hmem, rfl⟩, rfl⟩
    exact hmem
  · exact fun h => ⟨_, ⟨h, rfl⟩, rfl⟩

/-- They are named in the order of the report. -/
theorem missing_sublist (tags : Tags) :
    tags.missing.Sublist ["artist", "albumartist", "album", "title", "track"] :=
  List.filter_sublist.map Prod.fst

/-- No tag is missing exactly if no value is empty. -/
theorem missing_eq_nil_iff : tags.missing = [] ↔ "" ∉ tags.values := by
  rw [List.eq_nil_iff_forall_not_mem]
  simp only [mem_missing_iff, values, List.mem_map, Prod.exists, exists_eq_right, not_exists]

end Tags

namespace TagReport

variable {group : TagConflict} {groups : List TagConflict} {track : Track} {tracks : List Track}
  {tags : Tags}

/-! ## Filing a track -/

/-- The groups ascend by the values of their tags. -/
def Ascending (groups : List TagConflict) : Prop :=
  groups.Pairwise fun g g' => g.tags.values < g'.tags.values

/-- The files that are filed under the tags. -/
def filesOf (tags : Tags) (groups : List TagConflict) : List String :=
  ((groups.find? (·.tags = tags)).map TagConflict.files).getD []

/-- The files of the tags are those of the first group that has them. -/
theorem filesOf_cons : filesOf tags (group :: groups) =
    if group.tags = tags then group.files else filesOf tags groups := by
  unfold filesOf
  rw [List.find?_cons]
  by_cases h : group.tags = tags <;> simp [h]

/-- There are none under tags that no group has. -/
theorem filesOf_eq_nil (h : ∀ g ∈ groups, g.tags ≠ tags) : filesOf tags groups = [] := by
  have hnone : groups.find? (·.tags = tags) = none := by
    rw [List.find?_eq_none]
    simpa using h
  rw [filesOf, hnone]
  rfl

/-- In ascending groups each is found by its own tags. -/
theorem Ascending.filesOf_of_mem (h : Ascending groups) (hg : group ∈ groups) :
    filesOf group.tags groups = group.files := by
  induction groups with
  | nil => cases hg
  | cons g groups ih =>
    obtain ⟨hlt, hrest⟩ := List.pairwise_cons.1 h
    rw [filesOf_cons]
    rcases List.mem_cons.1 hg with rfl | hg
    · rw [if_pos rfl]
    · rw [if_neg, ih hrest hg]
      intro htags
      have hself := hlt group hg
      rw [htags] at hself
      exact lt_irrefl _ hself

/-- Filing brings no tags but those of the track. -/
theorem tags_fileUnder (h : group ∈ fileUnder track groups) :
    group.tags = track.tags ∨ ∃ g ∈ groups, g.tags = group.tags := by
  induction groups with
  | nil =>
    rw [List.mem_singleton.1 h]
    exact .inl rfl
  | cons g groups ih =>
    rw [fileUnder] at h
    split_ifs at h with heq hlt
    · rcases List.mem_cons.1 h with rfl | h
      · exact .inl heq.symm
      · exact .inr ⟨group, List.mem_cons_of_mem g h, rfl⟩
    · rcases List.mem_cons.1 h with rfl | h
      · exact .inl rfl
      · exact .inr ⟨group, h, rfl⟩
    · rcases List.mem_cons.1 h with rfl | h
      · exact .inr ⟨group, List.mem_cons_self, rfl⟩
      · exact (ih h).imp_right fun ⟨g', hg', htags⟩ => ⟨g', List.mem_cons_of_mem g hg', htags⟩

/-- Tags that are not the same and not before others come after them. -/
theorem values_lt_of_not_lt {s t : Tags} (hne : s ≠ t) (h : ¬s.values < t.values) :
    t.values < s.values :=
  (lt_or_gt_of_ne fun heq => hne (Tags.values_injective heq)).resolve_left h

/-- **Filing a track keeps the groups in ascending order.** -/
theorem ascending_fileUnder (h : Ascending groups) (track : Track) :
    Ascending (fileUnder track groups) := by
  induction groups with
  | nil => exact List.pairwise_singleton _ _
  | cons g groups ih =>
    obtain ⟨hlt, hrest⟩ := List.pairwise_cons.1 h
    rw [fileUnder]
    split_ifs with heq hbefore
    · exact List.pairwise_cons.2 ⟨hlt, hrest⟩
    · refine List.pairwise_cons.2 ⟨fun g' hg' => ?_, h⟩
      rcases List.mem_cons.1 hg' with rfl | hg'
      · exact hbefore
      · exact lt_trans hbefore (hlt g' hg')
    · refine List.pairwise_cons.2 ⟨fun g' hg' => ?_, ih hrest⟩
      rcases tags_fileUnder hg' with htags | ⟨g'', hg'', htags⟩
      · rw [htags]
        exact values_lt_of_not_lt heq hbefore
      · rw [← htags]
        exact hlt g'' hg''

/-- **A track is filed at the end of its own group**, and all others stay as they are. -/
theorem filesOf_fileUnder (h : Ascending groups) (track : Track) (tags : Tags) :
    filesOf tags (fileUnder track groups) =
      filesOf tags groups ++ if track.tags = tags then [track.file] else [] := by
  induction groups with
  | nil =>
    rw [fileUnder, filesOf_cons]
    rfl
  | cons g groups ih =>
    obtain ⟨hlt, hrest⟩ := List.pairwise_cons.1 h
    rw [fileUnder]
    by_cases heq : track.tags = g.tags
    · rw [if_pos heq, filesOf_cons, filesOf_cons, ← heq]
      by_cases htags : track.tags = tags <;> simp [htags]
    rw [if_neg heq]
    by_cases hbefore : track.tags.values < g.tags.values
    · rw [if_pos hbefore, filesOf_cons]
      by_cases htags : track.tags = tags
      · -- The group is new: none of those after it has its tags.
        have hnew : ∀ g' ∈ g :: groups, g'.tags ≠ tags := by
          intro g' hg' htags'
          have hself : track.tags.values < g'.tags.values := by
            rcases List.mem_cons.1 hg' with rfl | hg'
            · exact hbefore
            · exact lt_trans hbefore (hlt g' hg')
          rw [htags, htags'] at hself
          exact lt_irrefl _ hself
        rw [if_pos htags, if_pos htags, filesOf_eq_nil hnew, List.nil_append]
      · rw [if_neg htags, if_neg htags, List.append_nil]
    · rw [if_neg hbefore, filesOf_cons, filesOf_cons, ih hrest]
      by_cases hg : g.tags = tags
      · have htags : track.tags ≠ tags := fun htags => heq (htags.trans hg.symm)
        simp [hg, htags]
      · simp [hg]

/-- No group is empty after a track is filed if none was before. -/
theorem files_fileUnder_ne_nil (h : ∀ g ∈ groups, g.files ≠ []) (track : Track) :
    ∀ g ∈ fileUnder track groups, g.files ≠ [] := by
  induction groups with
  | nil => simp [fileUnder]
  | cons g groups ih =>
    obtain ⟨hg, hrest⟩ := List.forall_mem_cons.1 h
    rw [fileUnder]
    split_ifs
    · exact List.forall_mem_cons.2 ⟨by simp, hrest⟩
    · exact List.forall_mem_cons.2 ⟨by simp, h⟩
    · exact List.forall_mem_cons.2 ⟨hg, ih hrest⟩

/-! ## Filing all tracks -/

/-- The groups have the tracks: those of the same tags, in their order, and no others. -/
structure Grouped (tracks : List Track) (groups : List TagConflict) : Prop where
  ascending : Ascending groups
  files_ne_nil : ∀ g ∈ groups, g.files ≠ []
  filesOf_eq : ∀ tags, filesOf tags groups = (tracks.filter (·.tags = tags)).map Track.file

/-- Filing one track more keeps the groups those of all the tracks. -/
theorem Grouped.fileUnder (h : Grouped tracks groups) (track : Track) :
    Grouped (tracks ++ [track]) (fileUnder track groups) where
  ascending := ascending_fileUnder h.ascending track
  files_ne_nil := files_fileUnder_ne_nil h.files_ne_nil track
  filesOf_eq tags := by
    rw [filesOf_fileUnder h.ascending, h.filesOf_eq, List.filter_append, List.map_append]
    by_cases htags : track.tags = tags <;> simp [htags]

/-- **Filing the tracks one by one groups them.** -/
theorem grouped_foldl (tracks : List Track) :
    Grouped tracks (tracks.foldl (fun groups track => TagReport.fileUnder track groups) []) := by
  induction tracks using List.reverseRecOn with
  | nil => exact ⟨List.Pairwise.nil, nofun, fun _ => rfl⟩
  | append_singleton tracks track ih =>
    rw [List.foldl_append]
    exact ih.fileUnder track

/-- **The groups are those of tracks that share their tags**, each whole. -/
theorem Grouped.mem_iff (h : Grouped tracks groups) : group ∈ groups ↔
    group.files = (tracks.filter (·.tags = group.tags)).map Track.file ∧ group.files ≠ [] := by
  constructor
  · intro hg
    rw [← h.filesOf_eq, h.ascending.filesOf_of_mem hg]
    exact ⟨rfl, h.files_ne_nil group hg⟩
  · rintro ⟨hfiles, hne⟩
    rw [← h.filesOf_eq] at hfiles
    -- Something is filed under the tags, so a group has them, with the same files.
    by_contra hg
    refine hne (hfiles.trans (filesOf_eq_nil fun g hg' htags => hg ?_))
    have hsame := h.ascending.filesOf_of_mem hg'
    rw [htags, ← hfiles] at hsame
    obtain ⟨tags, files⟩ := g
    obtain ⟨tags', files'⟩ := group
    simp only at htags hsame
    rwa [← htags, hsame]

/-! ## The report -/

variable {catalog : Catalog} {files : List String} {file : String} {c : TagConflict}

/-- The known tracks of a list are the catalog's tracks whose files it holds. -/
theorem mem_known_iff : track ∈ files.filterMap catalog.get? ↔
    track ∈ catalog.tracks ∧ track.file ∈ files := by
  rw [List.mem_filterMap]
  constructor
  · rintro ⟨file, hfile, hget⟩
    obtain ⟨hmem, rfl⟩ := Catalog.get?_eq_some_iff.1 hget
    exact ⟨hmem, hfile⟩
  · exact fun h => ⟨track.file, h.2, Catalog.get?_eq_some_iff.2 ⟨h.1, rfl⟩⟩

/-- The files of the known tracks are among the files, in their order. -/
theorem known_sublist (catalog : Catalog) (files : List String) :
    ((files.filterMap catalog.get?).map Track.file).Sublist files := by
  induction files with
  | nil => exact List.Sublist.refl []
  | cons file files ih =>
    cases hget : catalog.get? file with
    | none =>
      rw [List.filterMap_cons_none hget]
      exact ih.cons file
    | some t =>
      rw [List.filterMap_cons_some hget, List.map_cons, (Catalog.get?_eq_some_iff.1 hget).2]
      exact ih.cons_cons file

/-- **Which files lack tags**, and which tags those are. -/
theorem missing_ofFiles (catalog : Catalog) (files : List String) :
    (ofFiles catalog files).missing =
      ((files.filterMap catalog.get?).filter (!·.tags.missing.isEmpty)).map
        fun track => (track.file, track.tags.missing) := by
  simp only [ofFiles, List.filter_map]
  rfl

/-- Files with tags missing are listed in the order in which they were given. -/
theorem missing_files_sublist (catalog : Catalog) (files : List String) :
    ((ofFiles catalog files).missing.map Prod.fst).Sublist files := by
  rw [missing_ofFiles, List.map_map]
  exact (List.filter_sublist.map Track.file).trans (known_sublist catalog files)

/-- A file is listed with the tags that it lacks, if it lacks any. -/
theorem mem_missing_ofFiles_iff {names : List String} :
    (file, names) ∈ (ofFiles catalog files).missing ↔
      file ∈ files ∧
        ∃ tags, catalog.Tagged file tags ∧ "" ∈ tags.values ∧ names = tags.missing := by
  rw [missing_ofFiles, List.mem_map]
  simp only [List.mem_filter, mem_known_iff, Prod.mk.injEq]
  constructor
  · rintro ⟨t, ⟨⟨ht, hfile⟩, hmissing⟩, rfl, rfl⟩
    have hempty : "" ∈ t.tags.values := by
      by_contra hnot
      simp [Tags.missing_eq_nil_iff.2 hnot] at hmissing
    exact ⟨hfile, t.tags, ⟨t, ht, rfl, rfl⟩, hempty, rfl⟩
  · rintro ⟨hfile, _, ⟨t, ht, rfl, rfl⟩, hempty, rfl⟩
    refine ⟨t, ⟨⟨ht, hfile⟩, ?_⟩, rfl, rfl⟩
    have hne : t.tags.missing ≠ [] := fun h => Tags.missing_eq_nil_iff.1 h hempty
    simpa using hne

/-- The files with the tags, if none of these is empty. -/
def sharing (catalog : Catalog) (files : List String) (tags : Tags) : List String :=
  (((files.filterMap catalog.get?).filter (·.tags.missing.isEmpty)).filter
    (·.tags = tags)).map Track.file

/-- The files that share their tags come in the order in which they were given. -/
theorem sharing_sublist (catalog : Catalog) (files : List String) (tags : Tags) :
    (sharing catalog files tags).Sublist files :=
  ((List.filter_sublist.trans List.filter_sublist).map Track.file).trans
    (known_sublist catalog files)

/-- A file shares tags if it was given, has these tags, and none of them is empty. -/
theorem mem_sharing_iff : file ∈ sharing catalog files tags ↔
    file ∈ files ∧ catalog.Tagged file tags ∧ "" ∉ tags.values := by
  simp only [sharing, List.mem_map, List.mem_filter, mem_known_iff, List.isEmpty_iff,
    Tags.missing_eq_nil_iff, decide_eq_true_iff]
  constructor
  · rintro ⟨t, ⟨⟨⟨ht, hfile⟩, hfull⟩, rfl⟩, rfl⟩
    exact ⟨hfile, ⟨t, ht, rfl, rfl⟩, hfull⟩
  · rintro ⟨hfile, ⟨t, ht, rfl, rfl⟩, hfull⟩
    exact ⟨t, ⟨⟨⟨ht, hfile⟩, hfull⟩, rfl⟩, rfl⟩

/-- The groups are those of the tracks that lack no tag. -/
theorem grouped_groups (tracks : List Track) :
    Grouped (tracks.filter (·.tags.missing.isEmpty)) (TagReport.groups tracks) :=
  grouped_foldl _

/-- **The conflicts are the tags that two files or more share**, with all of these files. -/
theorem mem_conflicts_iff : c ∈ (ofFiles catalog files).conflicts ↔
    c.files = sharing catalog files c.tags ∧ 2 ≤ c.files.length := by
  have hmem : c ∈ TagReport.groups (files.filterMap catalog.get?) ↔
      c.files = sharing catalog files c.tags ∧ c.files ≠ [] := (grouped_groups _).mem_iff
  rw [ofFiles, List.mem_filter, hmem, decide_eq_true_iff, and_assoc]
  refine and_congr_right fun _ => ⟨And.right, fun htwo => ⟨?_, htwo⟩⟩
  intro hnil
  rw [hnil] at htwo
  cases htwo

/-- A conflict holds all the files given with its tags. -/
theorem mem_conflict_files_iff (h : c ∈ (ofFiles catalog files).conflicts) :
    file ∈ c.files ↔ file ∈ files ∧ catalog.Tagged file c.tags ∧ "" ∉ c.tags.values := by
  rw [(mem_conflicts_iff.1 h).1, mem_sharing_iff]

/-- Conflicts ascend by their tags. -/
theorem conflicts_ascending (catalog : Catalog) (files : List String) :
    (ofFiles catalog files).conflicts.Pairwise fun c c' => c.tags.values < c'.tags.values :=
  (grouped_groups _).ascending.sublist List.filter_sublist

/-- **Two files of the same tags make a conflict**, if no tag is empty. -/
theorem exists_conflict {file' : String} {tags : Tags} (hne : file ≠ file') (hfile : file ∈ files)
    (hfile' : file' ∈ files) (htags : catalog.Tagged file tags) (htags' : catalog.Tagged file' tags)
    (hfull : "" ∉ tags.values) : ∃ c ∈ (ofFiles catalog files).conflicts, c.tags = tags := by
  have hin : file ∈ sharing catalog files tags := mem_sharing_iff.2 ⟨hfile, htags, hfull⟩
  have hin' : file' ∈ sharing catalog files tags := mem_sharing_iff.2 ⟨hfile', htags', hfull⟩
  refine ⟨⟨tags, sharing catalog files tags⟩, mem_conflicts_iff.2 ⟨rfl, ?_⟩, rfl⟩
  match sharing catalog files tags, hin, hin' with
  | [a], hin, hin' =>
    exact absurd ((List.mem_singleton.1 hin).trans (List.mem_singleton.1 hin').symm) hne
  | a :: b :: rest, _, _ => exact Nat.le_add_left 2 rest.length

/-- What a report tells of the files, each of which is given once. -/
structure Classifies (catalog : Catalog) (files : List String) (report : TagReport) : Prop where
  /-- Files that the catalog does not know are in neither list. -/
  unknown : ∀ file, (∀ tags, ¬catalog.Tagged file tags) →
    file ∉ report.missing.map Prod.fst ∧ ∀ c ∈ report.conflicts, file ∉ c.files
  /-- A file lacks tags if one of its five is empty. -/
  missing_iff : ∀ file, file ∈ report.missing.map Prod.fst ↔
    file ∈ files ∧ ∃ tags, catalog.Tagged file tags ∧ "" ∈ tags.values
  missing_in_order : (report.missing.map Prod.fst).Sublist files
  missing_nodup : (report.missing.map Prod.fst).Nodup
  /-- The tags that are named are the empty ones, in the order of all five. -/
  names : ∀ file names tags, (file, names) ∈ report.missing → catalog.Tagged file tags →
    names.Sublist ["artist", "albumartist", "album", "title", "track"] ∧
      ∀ name, name ∈ names ↔ (name, "") ∈ tags.fields
  /-- Two files with all tags are in one conflict exactly if they have the same. -/
  together_iff : ∀ file ∈ files, ∀ file' ∈ files, file ≠ file' → ∀ tags tags',
    catalog.Tagged file tags → catalog.Tagged file' tags' → "" ∉ tags.values → "" ∉ tags'.values →
      ((∃ c ∈ report.conflicts, file ∈ c.files ∧ file' ∈ c.files) ↔ tags = tags')
  /-- A conflict has its files in order, all with its tags. -/
  conflict : ∀ c ∈ report.conflicts, 2 ≤ c.files.length ∧ c.files.Nodup ∧ c.files.Sublist files ∧
    "" ∉ c.tags.values ∧ ∀ file ∈ c.files, catalog.Tagged file c.tags
  apart : report.conflicts.Pairwise fun c c' => c.files.Disjoint c'.files
  separate : ∀ c ∈ report.conflicts, c.files.Disjoint (report.missing.map Prod.fst)
  ascending : report.conflicts.Pairwise fun c c' => c.tags.values < c'.tags.values

/-- A file is listed exactly if it was given and lacks a tag. -/
theorem mem_missing_files_iff : file ∈ (ofFiles catalog files).missing.map Prod.fst ↔
    file ∈ files ∧ ∃ tags, catalog.Tagged file tags ∧ "" ∈ tags.values := by
  simp only [List.mem_map, Prod.exists, exists_and_right, exists_eq_right, mem_missing_ofFiles_iff]
  constructor
  · rintro ⟨_, hfile, tags, htags, hempty, -⟩
    exact ⟨hfile, tags, htags, hempty⟩
  · rintro ⟨hfile, tags, htags, hempty⟩
    exact ⟨tags.missing, hfile, tags, htags, hempty, rfl⟩

/-- **The report classifies every track once.** -/
theorem ofFiles_classifies (catalog : Catalog) {files : List String} (h : files.Nodup) :
    Classifies catalog files (ofFiles catalog files) where
  unknown file hunknown := by
    refine ⟨fun hmissing => ?_, fun c hc hfile => ?_⟩
    · obtain ⟨-, tags, htags, -⟩ := mem_missing_files_iff.1 hmissing
      exact hunknown tags htags
    · exact hunknown c.tags ((mem_conflict_files_iff hc).1 hfile).2.1
  missing_iff _ := mem_missing_files_iff
  missing_in_order := missing_files_sublist catalog files
  missing_nodup := h.sublist (missing_files_sublist catalog files)
  names file names tags hmissing htags := by
    obtain ⟨-, tags', htags', -, rfl⟩ := mem_missing_ofFiles_iff.1 hmissing
    obtain rfl := htags.unique htags'
    exact ⟨tags.missing_sublist, fun _ => Tags.mem_missing_iff⟩
  together_iff file hfile file' hfile' hne tags tags' htags htags' hfull _ := by
    constructor
    · rintro ⟨c, hc, hin, hin'⟩
      rw [htags.unique ((mem_conflict_files_iff hc).1 hin).2.1,
        htags'.unique ((mem_conflict_files_iff hc).1 hin').2.1]
    · rintro rfl
      obtain ⟨c, hc, rfl⟩ := exists_conflict hne hfile hfile' htags htags' hfull
      exact ⟨c, hc, (mem_conflict_files_iff hc).2 ⟨hfile, htags, hfull⟩,
        (mem_conflict_files_iff hc).2 ⟨hfile', htags', hfull⟩⟩
  conflict c hc := by
    obtain ⟨hfiles, htwo⟩ := mem_conflicts_iff.1 hc
    have horder : c.files.Sublist files := hfiles ▸ sharing_sublist catalog files c.tags
    have hfull : "" ∉ c.tags.values := by
      obtain ⟨file, hfile⟩ := List.exists_mem_of_length_pos (Nat.lt_of_lt_of_le Nat.two_pos htwo)
      exact ((mem_conflict_files_iff hc).1 hfile).2.2
    exact ⟨htwo, h.sublist horder, horder, hfull,
      fun file hfile => ((mem_conflict_files_iff hc).1 hfile).2.1⟩
  apart := by
    refine (conflicts_ascending catalog files).imp_of_mem fun {c c'} hc hc' hlt file hin hin' => ?_
    -- The file has one list of tags, and the tags of two conflicts differ.
    have htags := ((mem_conflict_files_iff hc).1 hin).2.1.unique
      ((mem_conflict_files_iff hc').1 hin').2.1
    rw [htags] at hlt
    exact lt_irrefl _ hlt
  separate c hc file hin hmissing := by
    obtain ⟨-, htags, hfull⟩ := (mem_conflict_files_iff hc).1 hin
    obtain ⟨-, tags, htags', hempty⟩ := mem_missing_files_iff.1 hmissing
    rw [htags.unique htags'] at hfull
    exact hfull hempty
  ascending := conflicts_ascending catalog files

/-- One track lacks its title, two share all tags, and one differs from these in its number. -/
def smallLibrary : Catalog :=
  let tags : Tags := ⟨"A", "A", "B", "C", "1"⟩
  Catalog.ofTracks [⟨"a", { tags with title := "" }⟩, ⟨"b", tags⟩,
    ⟨"c", { tags with number := "2" }⟩, ⟨"d", tags⟩] []

/-- The file without a title is listed, the equal two are one conflict, and the third is
apart. -/
theorem ofFiles_smallLibrary :
    ["d", "x", "a", "b", "c"].Nodup ∧
      Classifies smallLibrary ["d", "x", "a", "b", "c"]
        (ofFiles smallLibrary ["d", "x", "a", "b", "c"]) ∧
      (∃ c ∈ (ofFiles smallLibrary ["d", "x", "a", "b", "c"]).conflicts,
        "d" ∈ c.files ∧ "b" ∈ c.files) ∧
      (¬∃ c ∈ (ofFiles smallLibrary ["d", "x", "a", "b", "c"]).conflicts,
        "d" ∈ c.files ∧ "c" ∈ c.files) ∧
      "a" ∈ (ofFiles smallLibrary ["d", "x", "a", "b", "c"]).missing.map Prod.fst := by
  have htracks : smallLibrary.tracks = #[⟨"a", ⟨"A", "A", "B", "", "1"⟩⟩,
      ⟨"b", ⟨"A", "A", "B", "C", "1"⟩⟩, ⟨"c", ⟨"A", "A", "B", "C", "2"⟩⟩,
      ⟨"d", ⟨"A", "A", "B", "C", "1"⟩⟩] := by
    simp [smallLibrary, Catalog.ofTracks, Catalog.push, Catalog.ofPlaylists]
  have htagged : ∀ t : Track, t ∈ smallLibrary.tracks → smallLibrary.Tagged t.file t.tags :=
    fun t ht => ⟨t, ht, rfl, rfl⟩
  rw [htracks] at htagged
  have ha := htagged ⟨"a", ⟨"A", "A", "B", "", "1"⟩⟩ (by simp)
  have hb := htagged ⟨"b", ⟨"A", "A", "B", "C", "1"⟩⟩ (by simp)
  have hc := htagged ⟨"c", ⟨"A", "A", "B", "C", "2"⟩⟩ (by simp)
  have hd := htagged ⟨"d", ⟨"A", "A", "B", "C", "1"⟩⟩ (by simp)
  have hnodup : ["d", "x", "a", "b", "c"].Nodup := by decide
  have hreport := ofFiles_classifies smallLibrary hnodup
  refine ⟨hnodup, hreport, ?_, ?_, ?_⟩
  · exact (hreport.together_iff "d" (by simp) "b" (by simp) (by decide) _ _ hd hb (by decide)
      (by decide)).2 rfl
  · rw [hreport.together_iff "d" (by simp) "c" (by simp) (by decide) _ _ hd hc (by decide)
      (by decide)]
    decide
  · exact (hreport.missing_iff "a").2 ⟨by simp, _, ha, by decide⟩

end TagReport
end MusicCollections
