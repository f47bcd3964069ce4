/-
# Refreshing a session

The daemon rescans its music directory, and everything is fetched from it again.
What was defined since the start is saved first, so that reading the definitions
file loses nothing.  If a step fails, the steps before it stay done.
-/

import MusicCollections.Session.Basic

namespace MusicCollections
namespace Session

variable {φ κ δ α : Type} [Files φ] [Cache κ] [Daemon δ]

/-- Runs a computation on the world of the session. -/
def onWorld (act : Effect (World φ κ δ) α) : Effect (Session φ κ δ) α :=
  .onPart (·.toWorld) (fun w s => { s with toWorld := w }) act

/-- A call of the daemon. -/
def ask (call : Daemon.Call δ α) : Effect (Session φ κ δ) α := onWorld (World.ask call)

/-- Runs a store operation. -/
def storing (f : Session φ κ δ → Except StoreError α × Session φ κ δ) :
    Effect (Session φ κ δ) α :=
  .ofFunction fun s =>
    let (outcome, s) := f s
    (outcome.mapError fun e => .ofCause (.store e), s)

/-- Rescans, fetches everything and writes every cache entry anew. -/
def refresh : Effect (Session φ κ δ) Unit := do
  ask Daemon.update
  let (catalog, _) ← onWorld (World.loadCatalog true)
  .change fun s => { s with catalog }
  storing flush
  let _ ← (storing (feed true)).attempting .reloadingCollections
  .change updateCache

end Session
end MusicCollections
