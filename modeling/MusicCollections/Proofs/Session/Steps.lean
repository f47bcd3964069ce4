/-
# What the steps of a computation keep

What every step of a computation keeps, the computation keeps, however it ends.
`Effect.Ensures` says so with conditions before and after it.  A relation between worlds
that each step of loading a catalog leads along (`World.Steps`) relates the world before
loading to the one after it (`Steps.loadCatalog`); that loading leaves the files is one
(`steps_files`).
-/

import MusicCollections.Proofs.Session.Loading

namespace MusicCollections

/-! ## Conditions before and after -/

namespace Effect

variable {σ α τ : Type} {pre : σ → Prop} {post : α → σ → Prop} {kept : σ → Prop}

/-- A computation that starts where `pre` holds ends where `post` does, or, if it fails,
where `kept` does. -/
def Ensures (pre : σ → Prop) (act : Effect σ α) (post : α → σ → Prop) (kept : σ → Prop) : Prop :=
  ∀ s, pre s → match act.runOn s with
    | (.ok a, s') => post a s'
    | (.error _, s') => kept s'

/-- What the first computation ensures is what the next one starts from. -/
theorem Ensures.bind {act : Effect σ α} {next : α → Effect σ τ} {last : τ → σ → Prop}
    (h : Ensures pre act post kept) (hnext : ∀ a, Ensures (post a) (next a) last kept) :
    Ensures pre (act >>= next) last kept := by
  intro s hs
  have hact := h s hs
  rw [runOn_bind]
  rcases hrun : act.runOn s with ⟨f | a, middle⟩
  · rw [hrun] at hact
    exact hact
  · rw [hrun] at hact
    exact hnext a middle hact

/-- A change ensures what it does, and cannot fail. -/
theorem ensures_change {f : σ → σ} {post : Unit → σ → Prop} (h : ∀ s, pre s → post () (f s)) :
    Ensures pre (change f) post kept := h

/-- Naming what is attempted changes nothing but the failure. -/
theorem Ensures.attempting {act : Effect σ α} (h : Ensures pre act post kept)
    (context : Context) : Ensures pre (act.attempting context) post kept := by
  intro s hs
  have hact := h s hs
  rw [runOn_attempting]
  rcases hrun : act.runOn s with ⟨f | a, s'⟩ <;>
  · rw [hrun] at hact
    exact hact

/-- A condition holds on either way out exactly if every run keeps it. -/
theorem ensures_keeps_iff {act : Effect σ α} :
    Ensures pre act (fun _ => pre) pre ↔ ∀ s, pre s → pre (act.runOn s).2 := by
  refine forall₂_congr fun s _ => ?_
  rcases act.runOn s with ⟨f | a, s'⟩ <;> exact Iff.rfl

end Effect

/-! ## Along the steps of loading -/

namespace World

variable {φ κ δ α β : Type} {R : World φ κ δ → World φ κ δ → Prop}

/-- However it ends, a computation leads along the relation. -/
def Along (R : World φ κ δ → World φ κ δ → Prop) (act : Effect (World φ κ δ) α) : Prop :=
  ∀ w, R w (act.runOn w).2

/-- Two computations, one after the other, lead along a relation that can be chained. -/
theorem Along.bind (htrans : ∀ u v w, R u v → R v w → R u w) {act : Effect (World φ κ δ) α}
    {next : α → Effect (World φ κ δ) β} (hact : Along R act) (hnext : ∀ a, Along R (next a)) :
    Along R (act >>= next) := by
  intro w
  have hfirst := hact w
  rw [Effect.runOn_bind]
  rcases hrun : act.runOn w with ⟨f | a, middle⟩
  · rw [hrun] at hfirst
    exact hfirst
  · rw [hrun] at hfirst
    exact htrans _ _ _ hfirst (hnext a middle)

variable [Cache κ] [Daemon δ]

/-- A relation that each step of loading a catalog leads along. -/
structure Steps (R : World φ κ δ → World φ κ δ → Prop) : Prop where
  refl : ∀ w, R w w
  trans : ∀ {u v w}, R u v → R v w → R u w
  databaseStamp : Along R (ask Daemon.databaseStamp)
  listTracks : Along R (ask Daemon.listTracks)
  storedPlaylists : Along R (ask Daemon.storedPlaylists)
  storedPlaylistTracks : ∀ name, Along R (ask (Daemon.storedPlaylistTracks name))
  cached : ∀ {α} (shape? : Json → Option α) key, Along R (cached shape? key)
  keep : ∀ key value, Along R (keep key value)

namespace Steps

theorem pure (h : Steps R) (a : α) : Along R (Pure.pure a) := h.refl

theorem bind (h : Steps R) {act : Effect (World φ κ δ) α} {next : α → Effect (World φ κ δ) β}
    (hact : Along R act) (hnext : ∀ a, Along R (next a)) : Along R (act >>= next) :=
  Along.bind (R := R) (fun _ _ _ => h.trans) hact hnext

/-- Fetching tracks lists them and keeps two entries. -/
theorem fetchTracks (h : Steps R) (stamp : String) : Along R (fetchTracks stamp) := by
  refine h.bind h.listTracks fun listed => ?_
  refine h.bind (h.keep _ _) fun _ => ?_
  exact h.bind (h.keep _ _) fun _ => h.pure _

/-- Looking for cached tracks reads one entry, or two. -/
theorem cachedTracks (h : Steps R) (stamp : String) : Along R (cachedTracks stamp) := by
  refine h.bind (h.cached _ _) fun known => ?_
  split
  · exact h.cached _ _
  · exact h.pure _

/-- Loading tracks asks for the stamp, and then takes what is cached or fetches. -/
theorem loadTracks (h : Steps R) (force : Bool) : Along R (loadTracks force) := by
  rw [loadTracks_eq]
  refine h.bind h.databaseStamp fun stamp => h.bind ?_ fun known => ?_
  · cases force with
    | true => exact h.pure _
    | false => exact h.cachedTracks stamp
  · cases known with
    | none => exact h.bind (h.fetchTracks stamp) fun _ => h.pure _
    | some tracks => exact h.pure _

/-- Playlists are fetched one by one. -/
theorem fetchPlaylists (h : Steps R) (done : Playlists) (names : List String) :
    Along R (fetchPlaylists done names) := by
  induction names generalizing done with
  | nil => exact h.pure _
  | cons name names ih => exact h.bind (h.storedPlaylistTracks name) fun files => ih _

/-- Loading playlists fetches them all, and keeps them if they differ from the cached ones. -/
theorem loadPlaylists (h : Steps R) : Along R loadPlaylists := by
  refine h.bind h.storedPlaylists fun names => ?_
  refine h.bind (h.fetchPlaylists [] names) fun playlists => ?_
  refine h.bind (h.cached _ _) fun known => ?_
  split
  · exact h.pure _
  · exact h.bind (h.keep _ _) fun _ => h.pure _

/-- **Loading a catalog leads along what its steps lead along.** -/
theorem loadCatalog (h : Steps R) (force : Bool) : Along R (loadCatalog force) :=
  h.bind (h.loadTracks force) fun _ => h.bind h.loadPlaylists fun _ => h.pure _

end Steps

/-- Every step leaves the files. -/
theorem steps_files : Steps fun w w' : World φ κ δ => w'.files = w.files where
  refl _ := rfl
  trans h h' := h'.trans h
  databaseStamp _ := rfl
  listTracks _ := rfl
  storedPlaylists _ := rfl
  storedPlaylistTracks _ _ := rfl
  cached _ _ _ := rfl
  keep _ _ _ := rfl

end World
end MusicCollections
