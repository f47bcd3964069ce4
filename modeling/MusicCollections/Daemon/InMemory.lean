/-
# A daemon in memory

A daemon as a value: its library, its playlists, its queue, a journal of the
calls made, and which calls it refuses.  A refused call is journalled and does
nothing else.
-/

import MusicCollections.Daemon.Basic

namespace MusicCollections

/-- A call with its argument. -/
inductive DaemonCall where
  | connect
  | databaseStamp
  | listTracks
  | storedPlaylists
  | storedPlaylistTracks (name : String)
  | queueFiles
  | add (files : List String)
  | insert (files : List String)
  | removePositions (positions : List Nat)
  | playPosition (position : Nat)
  | clear
  | crop
  | update
  deriving DecidableEq, Repr

/-- The name of the method called. -/
def DaemonCall.method : DaemonCall → String
  | .connect => "connect"
  | .databaseStamp => "database_stamp"
  | .listTracks => "list_tracks"
  | .storedPlaylists => "stored_playlists"
  | .storedPlaylistTracks _ => "stored_playlist_tracks"
  | .queueFiles => "queue_files"
  | .add _ => "add"
  | .insert _ => "insert"
  | .removePositions _ => "remove_positions"
  | .playPosition _ => "play_position"
  | .clear => "clear"
  | .crop => "crop"
  | .update => "update"

structure InMemoryDaemon where
  tracks : List Track := []
  /-- Stored playlists in the order in which they are listed. -/
  playlists : List (String × List String) := []
  stamp : String := ""
  queue : List String := []
  /-- The position of the current track. -/
  playing : Option Nat := none
  /-- Whether a call is refused, after the calls journalled so far. -/
  refuses : List DaemonCall → DaemonCall → Bool := fun _ _ => false
  /-- The calls made. -/
  journal : List DaemonCall := []

namespace InMemoryDaemon

/-- Journals a call, and answers it unless it is refused. -/
def answer {α : Type} (call : DaemonCall)
    (reply : InMemoryDaemon → Except DaemonFault α × InMemoryDaemon) :
    Daemon.Call InMemoryDaemon α := fun d =>
  let noted := { d with journal := d.journal ++ [call] }
  if d.refuses d.journal call then
    (.error (.ofCause (.daemon (.refused call.method))), noted)
  else
    let (outcome, d) := reply noted
    (outcome.mapError fun fault => .ofCause (.daemon fault), d)

/-- Answers with what the daemon holds. -/
def tell {α : Type} (call : DaemonCall) (value : InMemoryDaemon → α) :
    Daemon.Call InMemoryDaemon α := answer call fun d => (.ok (value d), d)

/-- Changes the daemon. -/
def perform (call : DaemonCall) (change : InMemoryDaemon → InMemoryDaemon) :
    Daemon.Call InMemoryDaemon Unit := answer call fun d => (.ok (), change d)

/-- The queue with files inserted after the current track. -/
def inserted (files : List String) (d : InMemoryDaemon) : List String :=
  let place := min (d.playing.getD 0) d.queue.length
  d.queue.take place ++ files ++ d.queue.drop place

/-- The current track, if it is in the queue. -/
def current? (d : InMemoryDaemon) : Option String :=
  match d.playing with
  | some (i + 1) => d.queue[i]?
  | _ => none

/-- Keeps the current track alone. -/
def cropped (d : InMemoryDaemon) : InMemoryDaemon :=
  match d.current? with
  | some file => { d with queue := [file], playing := some 1 }
  | none => { d with queue := [], playing := none }

instance : Daemon InMemoryDaemon where
  connect := perform .connect id
  databaseStamp := tell .databaseStamp (·.stamp)
  listTracks := tell .listTracks (·.tracks)
  storedPlaylists := tell .storedPlaylists (·.playlists.map Prod.fst)
  storedPlaylistTracks name :=
    tell (.storedPlaylistTracks name) fun d => (d.playlists.lookup name).getD []
  queueFiles := tell .queueFiles (·.queue)
  add files := perform (.add files) fun d => { d with queue := d.queue ++ files }
  insert files := perform (.insert files) fun d => { d with queue := d.inserted files }
  removePositions positions :=
    perform (.removePositions positions) fun d =>
      { d with queue := Daemon.withoutPositions positions d.queue }
  playPosition position := answer (.playPosition position) fun d =>
    if 1 ≤ position ∧ position ≤ d.queue.length then
      (.ok (), { d with playing := some position })
    else (.error (.badPosition position), d)
  clear := perform .clear fun d => { d with queue := [], playing := none }
  crop := perform .crop cropped
  update := perform .update id

end InMemoryDaemon

end MusicCollections
