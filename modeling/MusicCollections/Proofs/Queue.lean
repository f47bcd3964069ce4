/-
# What edits make of the queue

A daemon that does with its queue what it is asked to (`QueueDaemon`) is left with the queue
that an edit is to make of it (`QueueEdit.Makes`), and is not asked for anything if the
expression does not resolve (`edit_makes_queue`).

Positions are taken from one listing and removed in one call.  They are those of all entries
that are picked, so the others stay, in their order, however often a file is queued
(`withoutPositions_queuePositions`).
-/

import MusicCollections.Cache.Memory
import MusicCollections.Command.Queue
import MusicCollections.Daemon.InMemory
import MusicCollections.Files.Tree
import MusicCollections.Proofs.Evaluation.Answers

namespace MusicCollections

/-! ## Positions in a queue -/

section Positions

variable {queue left : List String} {chosen : String → Bool} {file : String}
  {position : Nat}

/-- The positions, counted from one, are those of the entries that are picked. -/
theorem mem_queuePositions_iff : position ∈ queuePositions queue chosen ↔
    ∃ i file, position = i + 1 ∧ queue[i]? = some file ∧ chosen file = true := by
  rw [queuePositions, List.mem_map]
  constructor
  · rintro ⟨⟨file, i⟩, hmem, rfl⟩
    obtain ⟨hqueued, hchosen⟩ := List.mem_filter.1 hmem
    exact ⟨i, file, rfl, List.mem_zipIdx_iff_getElem?.1 hqueued, hchosen⟩
  · rintro ⟨i, file, rfl, hqueued, hchosen⟩
    exact ⟨(file, i), List.mem_filter.2 ⟨List.mem_zipIdx_iff_getElem?.2 hqueued, hchosen⟩, rfl⟩

/-- They are positions in the queue. -/
theorem bounds_of_mem_queuePositions (h : position ∈ queuePositions queue chosen) :
    1 ≤ position ∧ position ≤ queue.length := by
  obtain ⟨i, file, rfl, hqueued, -⟩ := mem_queuePositions_iff.1 h
  obtain ⟨hlt, -⟩ := List.getElem?_eq_some_iff.1 hqueued
  omega

/-- **Without the positions of what is picked, the rest is left**, in its order. -/
theorem withoutPositions_queuePositions (queue : List String) (chosen : String → Bool) :
    Daemon.withoutPositions (queuePositions queue chosen) queue =
      queue.filter fun file => !chosen file := by
  have hkept : ∀ entry ∈ queue.zipIdx,
      (!(queuePositions queue chosen).contains (entry.2 + 1)) = !chosen entry.1 := by
    rintro ⟨file, i⟩ hmem
    have hqueued := List.mem_zipIdx_iff_getElem?.1 hmem
    congr 1
    rw [Bool.eq_iff_iff, List.contains_iff_mem, mem_queuePositions_iff]
    constructor
    · rintro ⟨j, other, hj, hother, hchosen⟩
      obtain rfl := Nat.succ.inj hj
      rwa [Option.some.inj (hqueued.symm.trans hother)]
    · exact fun hchosen => ⟨i, file, rfl, hqueued, hchosen⟩
  have hfiles : queue = queue.zipIdx.map Prod.fst := (List.zipIdx_map_fst 0 queue).symm
  rw [Daemon.withoutPositions, List.filter_congr hkept]
  conv_rhs => rw [hfiles, List.filter_map]
  rfl

/-- Where nothing is picked there are no positions. -/
theorem queuePositions_eq_nil (h : ∀ file ∈ queue, chosen file = false) :
    queuePositions queue chosen = [] := by
  refine List.map_eq_nil_iff.2 (List.filter_eq_nil_iff.2 fun entry hentry => ?_)
  exact Bool.eq_false_iff.1 (h entry.1 (List.fst_mem_of_mem_zipIdx hentry))

/-- The first position is that of the first entry that is picked. -/
theorem queuePositions_eq_cons (right : List String) (hleft : ∀ file ∈ left, chosen file = false)
    (hfile : chosen file = true) : ∃ positions,
      queuePositions (left ++ file :: right) chosen = (left.length + 1) :: positions := by
  have hnone := queuePositions_eq_nil hleft
  rw [queuePositions, List.zipIdx_append, List.filter_append, List.map_append, ← queuePositions,
    hnone, List.zipIdx_cons]
  simp [hfile]

end Positions

/-! ## Daemons with a queue -/

/-- A queue and the position of its current entry. -/
structure Queue where
  files : List String
  playing : Option Nat
  deriving DecidableEq, Repr

/-- The files come right after the current entry. -/
def Queue.Inserts (files : List String) (before after : Queue) : Prop :=
  ∃ left right, before.files = left ++ right ∧ after.files = left ++ (files ++ right) ∧
    ∀ position ∈ before.playing, position ≤ before.files.length → left.length = position

/-- A daemon that does with its queue what it is asked to, as long as it is ready. -/
class QueueDaemon (δ : Type) [Daemon δ] where
  queue : δ → Queue
  /-- No call is refused. -/
  Ready : δ → Prop
  queueFiles {d : δ} : Ready d → ∃ d', Daemon.queueFiles d = (.ok (queue d).files, d') ∧
    Ready d' ∧ queue d' = queue d
  add {d : δ} (files : List String) : Ready d → ∃ d', Daemon.add files d = (.ok (), d') ∧
    Ready d' ∧ (queue d').files = (queue d).files ++ files
  insert {d : δ} (files : List String) : Ready d → ∃ d', Daemon.insert files d = (.ok (), d') ∧
    Ready d' ∧ (queue d).Inserts files (queue d')
  clear {d : δ} : Ready d → ∃ d', Daemon.clear d = (.ok (), d') ∧
    Ready d' ∧ (queue d').files = []
  removePositions {d : δ} (positions : List Nat) : Ready d → ∃ d',
    Daemon.removePositions positions d = (.ok (), d') ∧
      Ready d' ∧ (queue d').files = Daemon.withoutPositions positions (queue d).files
  /-- Only what stands in the queue can be played. -/
  playPosition {d : δ} {position : Nat} : Ready d → 1 ≤ position →
    position ≤ (queue d).files.length → ∃ d', Daemon.playPosition position d = (.ok (), d') ∧
      Ready d' ∧ queue d' = { queue d with playing := some position }

namespace InMemoryDaemon

/-- Whatever was asked before, no call is refused. -/
def RefusesNothing (d : InMemoryDaemon) : Prop := ∀ journal call, d.refuses journal call = false

/-- A daemon that refuses nothing answers every call, and only takes note of it. -/
theorem answer_of_refusesNothing {α : Type} {d : InMemoryDaemon} (h : d.RefusesNothing)
    (call : DaemonCall) (reply : InMemoryDaemon → Except DaemonFault α × InMemoryDaemon) :
    answer call reply d =
      ((reply { d with journal := d.journal ++ [call] }).1.mapError fun fault =>
        .ofCause (.daemon fault), (reply { d with journal := d.journal ++ [call] }).2) := by
  rw [answer, if_neg (by simp [h d.journal call])]

/-- Files are put after the entry that plays, or at the front where none does. -/
theorem inserts_inserted (files : List String) (d : InMemoryDaemon) (playing : Option Nat) :
    Queue.Inserts files ⟨d.queue, d.playing⟩ ⟨d.inserted files, playing⟩ := by
  refine ⟨d.queue.take (min (d.playing.getD 0) d.queue.length), d.queue.drop _,
    (List.take_append_drop _ _).symm, List.append_assoc _ _ _, fun position hplaying hle => ?_⟩
  have hcurrent : d.playing = some position := hplaying
  rw [hcurrent, Option.getD_some, Nat.min_eq_left hle, List.length_take_of_le hle]

instance : QueueDaemon InMemoryDaemon where
  queue d := ⟨d.queue, d.playing⟩
  Ready := RefusesNothing
  queueFiles h :=
    ⟨_, answer_of_refusesNothing h .queueFiles fun d => (.ok d.queue, d), h, rfl⟩
  add files h :=
    ⟨_, answer_of_refusesNothing h (.add files) fun d =>
      (.ok (), { d with queue := d.queue ++ files }), h, rfl⟩
  insert {d} files h :=
    ⟨_, answer_of_refusesNothing h (.insert files) fun d =>
      (.ok (), { d with queue := d.inserted files }), h, inserts_inserted files d d.playing⟩
  clear h :=
    ⟨_, answer_of_refusesNothing h .clear fun d =>
      (.ok (), { d with queue := [], playing := none }), h, rfl⟩
  removePositions positions h :=
    ⟨_, answer_of_refusesNothing h (.removePositions positions) fun d =>
      (.ok (), { d with queue := Daemon.withoutPositions positions d.queue }), h, rfl⟩
  playPosition {d position} h hfirst hlast := by
    have hrun := answer_of_refusesNothing h (.playPosition position) fun d =>
      if 1 ≤ position ∧ position ≤ d.queue.length then
        (.ok (), { d with playing := some position })
      else (.error (.badPosition position), d)
    rw [if_pos ⟨hfirst, hlast⟩] at hrun
    exact ⟨_, hrun, h, rfl⟩

end InMemoryDaemon

/-! ## Edits -/

/-- What an edit makes of a queue with the files that its expression selects. -/
def QueueEdit.Makes (files : List String) (before after : Queue) : QueueEdit → Prop
  | .add => after.files = before.files ++ files
  | .addAndPlay =>
    (files = [] → after = before) ∧
    ∀ first rest, files = first :: rest → after.files = before.files ++ first :: rest ∧
      after.playing = some (before.files.length + 1)
  | .insert => before.Inserts files after
  | .replace => after.files = files
  | .remove => after.files = before.files.filter (· ∉ files)
  | .keep => after.files = before.files.filter (· ∈ files)
  | .play =>
    ((∀ file ∈ before.files, file ∉ files) → after = before) ∧
    ∀ left file right, before.files = left ++ file :: right → (∀ other ∈ left, other ∉ files) →
      file ∈ files → after = { before with playing := some (left.length + 1) }

namespace Session

open QueueDaemon (queue Ready)

/-- A call that the daemon answers changes nothing of a session but the daemon. -/
theorem runOn_ask {φ κ δ α : Type} {s : Session φ κ δ} {call : Daemon.Call δ α} {a : α} {d : δ}
    (h : call s.daemon = (.ok a, d)) : (ask call).runOn s = (.ok a, { s with daemon := d }) := by
  rw [ask, onWorld, Effect.runOn_onPart, World.runOn_ask, h]

variable {φ κ δ : Type} [Daemon δ] [QueueDaemon δ] {s : Session φ κ δ}

/-- Removing what is picked leaves the rest of the queue, in its order. -/
theorem runOn_removeQueued (hready : Ready s.daemon) (chosen : String → Bool) : ∃ d,
    (removeQueued chosen).runOn s = (.ok (), { s with daemon := d }) ∧
      (queue d).files = (queue s.daemon).files.filter fun file => !chosen file := by
  obtain ⟨listed, hlist, hready', hqueue⟩ := QueueDaemon.queueFiles hready
  obtain ⟨d, hremove, -, hfiles⟩ := QueueDaemon.removePositions
    (queuePositions (queue s.daemon).files chosen) hready'
  refine ⟨d, ?_, ?_⟩
  · rw [removeQueued, Effect.runOn_bind_ok (runOn_ask hlist), runOn_ask hremove]
  · rw [hfiles, hqueue, withoutPositions_queuePositions]

/-- The first entry that is picked is played, and nothing changes without one. -/
theorem runOn_playQueued (hready : Ready s.daemon) (chosen : String → Bool) : ∃ d,
    (playQueued chosen).runOn s = (.ok (), { s with daemon := d }) ∧
      ((∀ file ∈ (queue s.daemon).files, chosen file = false) → queue d = queue s.daemon) ∧
      ∀ left file right, (queue s.daemon).files = left ++ file :: right →
        (∀ other ∈ left, chosen other = false) → chosen file = true →
        queue d = { queue s.daemon with playing := some (left.length + 1) } := by
  obtain ⟨listed, hlist, hready', hqueue⟩ := QueueDaemon.queueFiles hready
  cases hpositions : queuePositions (queue s.daemon).files chosen with
  | nil =>
    refine ⟨listed, ?_, fun _ => hqueue, fun left file right hsplit hleft hfile => ?_⟩
    · rw [playQueued, Effect.runOn_bind_ok (runOn_ask hlist), hpositions]
      rfl
    · obtain ⟨positions, hcons⟩ := queuePositions_eq_cons right hleft hfile
      cases hpositions.symm.trans (hsplit ▸ hcons)
  | cons position positions =>
    have hmem : position ∈ queuePositions (queue s.daemon).files chosen := by
      rw [hpositions]
      exact List.mem_cons_self
    obtain ⟨hfirst, hlast⟩ := bounds_of_mem_queuePositions hmem
    obtain ⟨d, hplay, -, hplayed⟩ := QueueDaemon.playPosition hready' hfirst (hqueue ▸ hlast)
    refine ⟨d, ?_, fun hnone => ?_, fun left file right hsplit hleft hfile => ?_⟩
    · rw [playQueued, Effect.runOn_bind_ok (runOn_ask hlist), hpositions]
      exact runOn_ask hplay
    · cases hpositions.symm.trans (queuePositions_eq_nil hnone)
    · obtain ⟨rest, hcons⟩ := queuePositions_eq_cons right hleft hfile
      rw [← hsplit, hpositions] at hcons
      rw [hplayed, hqueue, (List.cons.inj hcons).1]

/-- The files are added and the first of them is played. -/
theorem runOn_addAndPlay (hready : Ready s.daemon) {files : List String} (hne : files ≠ []) :
    ∃ d, (editQueue files .addAndPlay).runOn s = (.ok (), { s with daemon := d }) ∧
      (queue d).files = (queue s.daemon).files ++ files ∧
      (queue d).playing = some ((queue s.daemon).files.length + 1) := by
  obtain ⟨listed, hlist, hready₁, hlisted⟩ := QueueDaemon.queueFiles hready
  obtain ⟨added, hadd, hready₂, hadded⟩ := QueueDaemon.add files hready₁
  have hlength : (queue s.daemon).files.length + 1 ≤ (queue added).files.length := by
    have hpos := List.length_pos_iff.2 hne
    rw [hadded, hlisted, List.length_append]
    omega
  obtain ⟨d, hplay, -, hplayed⟩ :=
    QueueDaemon.playPosition hready₂ (Nat.succ_le_succ (Nat.zero_le _)) hlength
  refine ⟨d, ?_, by rw [hplayed, hadded, hlisted], by rw [hplayed]⟩
  rw [editQueue, if_neg (by simpa using hne), Effect.runOn_bind_ok (runOn_ask hlist),
    Effect.runOn_bind_ok (runOn_ask hadd), runOn_ask hplay]

/-- The queue is emptied, and the files are added. -/
theorem runOn_replace (hready : Ready s.daemon) (files : List String) :
    ∃ d, (editQueue files .replace).runOn s = (.ok (), { s with daemon := d }) ∧
      (queue d).files = files := by
  obtain ⟨cleared, hclear, hready', hempty⟩ := QueueDaemon.clear hready
  obtain ⟨d, hadd, -, hadded⟩ := QueueDaemon.add files hready'
  refine ⟨d, ?_, by rw [hadded, hempty, List.nil_append]⟩
  rw [editQueue, Effect.runOn_bind_ok (runOn_ask hclear), runOn_ask hadd]

/-- The quick test whether a file is among the files is membership. -/
theorem memberOf_eq_decide (files : List String) :
    memberOf files = fun file => decide (file ∈ files) := by
  funext file
  rw [memberOf_eq_contains, List.contains_eq_mem]

/-- **A daemon that is ready is left with the queue that the edit makes.** -/
theorem runOn_editQueue (hready : Ready s.daemon) (files : List String) (how : QueueEdit) :
    ∃ d, (editQueue files how).runOn s = (.ok (), { s with daemon := d }) ∧
      how.Makes files (queue s.daemon) (queue d) := by
  cases how with
  | add =>
    obtain ⟨d, hadd, -, hadded⟩ := QueueDaemon.add files hready
    exact ⟨d, runOn_ask hadd, hadded⟩
  | addAndPlay =>
    by_cases hne : files = []
    · subst hne
      exact ⟨s.daemon, rfl, fun _ => rfl, nofun⟩
    · obtain ⟨d, hrun, hadded, hplaying⟩ := runOn_addAndPlay hready hne
      refine ⟨d, hrun, fun hnil => absurd hnil hne, fun first rest hfiles => ?_⟩
      rw [← hfiles]
      exact ⟨hadded, hplaying⟩
  | insert =>
    obtain ⟨d, hinsert, -, hinserted⟩ := QueueDaemon.insert files hready
    exact ⟨d, runOn_ask hinsert, hinserted⟩
  | replace => exact runOn_replace hready files
  | remove =>
    obtain ⟨d, hrun, hfiles⟩ := runOn_removeQueued hready (memberOf files)
    refine ⟨d, hrun, ?_⟩
    rw [QueueEdit.Makes, hfiles, memberOf_eq_decide]
    simp
  | keep =>
    obtain ⟨d, hrun, hfiles⟩ := runOn_removeQueued hready fun file => !memberOf files file
    refine ⟨d, hrun, ?_⟩
    rw [QueueEdit.Makes, hfiles, memberOf_eq_decide]
    simp
  | play =>
    obtain ⟨d, hrun, hnone, hplays⟩ := runOn_playQueued hready (memberOf files)
    rw [memberOf_eq_decide] at hnone hplays
    simp only [decide_eq_false_iff_not, decide_eq_true_iff] at hnone hplays
    exact ⟨d, hrun, hnone, hplays⟩

/-- **An expression that selects files has its edit made of the queue, and one that does not
resolve leaves everything as it was.**  Nothing but the daemon is touched, and nothing is
asked of that either if there are no files to add and play. -/
theorem edit_makes_queue (s : Session φ κ δ) (how : QueueEdit) (words : Words) :
    (∀ files, Ready s.daemon → s.resolve words.text = .ok files →
      ∃ d, (actOnQueue (.edit how words)).runOn s = (.ok (), { s with daemon := d }) ∧
        how.Makes files (queue s.daemon) (queue d)) ∧
    (s.resolve words.text = .ok [] → how = .addAndPlay →
      (actOnQueue (.edit how words)).runOn s = (.ok (), s)) ∧
    ∀ f, s.resolve words.text = .error f →
      (actOnQueue (.edit how words)).runOn s = (.error f, s) := by
  have hresolved : ∀ files, s.resolve words.text = .ok files →
      (actOnQueue (.edit how words)).runOn s = (editQueue files how).runOn s := by
    intro files hfiles
    rw [actOnQueue, Effect.runOn_bind_ok (by rw [Effect.runOn_ofState, hfiles])]
  refine ⟨fun files hready hfiles => ?_, ?_, fun f hfails => ?_⟩
  · rw [hresolved files hfiles]
    exact runOn_editQueue hready files how
  · rintro hfiles rfl
    rw [hresolved [] hfiles]
    rfl
  · rw [actOnQueue]
    exact Effect.runOn_bind_error (by rw [Effect.runOn_ofState, hfails])

/-- A track with a title and no other tags. -/
def titled (file title : String) : Track := { file, tags := { title } }

@[simp] theorem file_titled (file title : String) : (titled file title).file = file := rfl

/-- A session with two tracks of one title, and a queue with a file that it does not know. -/
def queuedSession : Session FileTree MemoryCache InMemoryDaemon where
  files := {}
  cache := {}
  daemon := { queue := ["x.mp3", "c.mp3", "b.mp3", "c.mp3", "a.mp3"] }
  now := 1
  catalog := .ofTracks [titled "a.mp3" "One", titled "b.mp3" "Two", titled "c.mp3" "One"] []
  store := .empty
  path := "notes"

/-- Both tracks of the title are found, in the order of the catalog. -/
theorem resolve_queuedSession : queuedSession.resolve "title:one" = .ok ["a.mp3", "c.mp3"] := by
  have hparse : parseExpression "title:one" = .ok (.filter .title "one") := by decide +kernel
  have htracks : queuedSession.catalog.tracks =
      #[titled "a.mp3" "One", titled "b.mp3" "Two", titled "c.mp3" "One"] := by
    simp [queuedSession, Catalog.ofTracks, Catalog.push, Catalog.ofPlaylists]
  have hlisting : queuedSession.catalog.listing
      {t | t ∈ queuedSession.catalog.tracks ∧ Tag.matches .title t "one" = true} =
        ["a.mp3", "c.mp3"] := by
    have hfirst : Tag.matches .title (titled "a.mp3" "One") "one" = true := rfl
    have hsecond : Tag.matches .title (titled "b.mp3" "Two") "one" = false := rfl
    have hthird : Tag.matches .title (titled "c.mp3" "One") "one" = true := rfl
    simp [Catalog.listing, htracks, hfirst, hsecond, hthird]
  have hread : queuedSession.store.AsRead := Store.asRead_empty
  have hanswers := Evaluation.answers_evaluate (hread.resultsRight queuedSession.catalog)
    (.filter .title "one")
  have hevaluate := (hanswers.ok_iff (.expression _ _ _)).2 ⟨_, .filter, hlisting.symm⟩
  rw [resolve, hparse]
  dsimp only
  rw [hevaluate]
  rfl

/-- Removing takes both entries of the file that is queued twice, playing starts at the
first entry that is selected, and half an expression leaves the queue. -/
theorem queuedSession_edits :
    Ready queuedSession.daemon ∧
      queuedSession.resolve (Words.text ["title:one"]) = .ok ["a.mp3", "c.mp3"] ∧
      (∃ d, (actOnQueue (.edit .remove ["title:one"])).runOn queuedSession =
          (.ok (), { queuedSession with daemon := d }) ∧ d.queue = ["x.mp3", "b.mp3"]) ∧
      (∃ d, (actOnQueue (.edit .play ["title:one"])).runOn queuedSession =
          (.ok (), { queuedSession with daemon := d }) ∧
        d.queue = queuedSession.daemon.queue ∧ d.playing = some 2) ∧
      ∃ f, queuedSession.resolve (Words.text ["title:one", "AND"]) = .error f ∧
        (actOnQueue (.edit .replace ["title:one", "AND"])).runOn queuedSession =
          (.error f, queuedSession) := by
  have hready : Ready queuedSession.daemon := fun _ _ => rfl
  have hfiles : queuedSession.resolve (Words.text ["title:one"]) = .ok ["a.mp3", "c.mp3"] :=
    resolve_queuedSession
  have hparse : parseExpression (Words.text ["title:one", "AND"]) =
      .error (.parse ⟨13, Parser.expectedOperand, "end of input"⟩) := by decide +kernel
  have hfails : queuedSession.resolve (Words.text ["title:one", "AND"]) =
      .error (.ofCause (.expression (.parse ⟨13, Parser.expectedOperand, "end of input"⟩))) := by
    rw [resolve, hparse]
  obtain ⟨removed, hremove, hleft⟩ :=
    (edit_makes_queue queuedSession .remove ["title:one"]).1 _ hready hfiles
  obtain ⟨played, hplay, -, hplayed⟩ :=
    (edit_makes_queue queuedSession .play ["title:one"]).1 _ hready hfiles
  have hsecond : queue played = { queue queuedSession.daemon with playing := some 2 } :=
    hplayed ["x.mp3"] "c.mp3" ["b.mp3", "c.mp3", "a.mp3"] rfl (by decide) (by decide)
  refine ⟨hready, hfiles, ⟨removed, hremove, hleft⟩, ⟨played, hplay, ?_, ?_⟩, _, hfails, ?_⟩
  · exact congrArg Queue.files hsecond
  · exact congrArg Queue.playing hsecond
  · exact (edit_makes_queue queuedSession .replace ["title:one", "AND"]).2.2 _ hfails

end Session

end MusicCollections
