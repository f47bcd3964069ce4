/-
# Effects on a state that outlives failures

A computation on a state may fail, and what it did to the state before stays
done.
-/

import MusicCollections.Failure

namespace MusicCollections

/-- A computation that changes a state and may fail. -/
abbrev Effect (σ α : Type) := ExceptT Failure (StateM σ) α

namespace Effect

variable {σ τ α : Type}

/-- The outcome of a computation and the state after it. -/
def runOn (act : Effect σ α) (s : σ) : Except Failure α × σ := act.run.run s

/-- The computation with a given outcome and a given effect on the state. -/
def ofFunction (f : σ → Except Failure α × σ) : Effect σ α := ExceptT.mk f

/-- Runs a computation on a part of the state. -/
def onPart (get : σ → τ) (set : τ → σ → σ) (act : Effect τ α) : Effect σ α :=
  ofFunction fun s =>
    let (outcome, part) := act.runOn (get s)
    (outcome, set part s)

/-- Names what a computation attempts in its failure. -/
def attempting (context : Context) (act : Effect σ α) : Effect σ α :=
  ofFunction fun s =>
    let (outcome, s) := act.runOn s
    (outcome.mapError (Failure.within context), s)

/-- Fails for a cause. -/
def fail (cause : Cause) : Effect σ α := ofFunction fun s => (.error (.ofCause cause), s)

/-- Changes the state. -/
def change (f : σ → σ) : Effect σ Unit := ofFunction fun s => (.ok (), f s)

/-- What a function tells of the state. -/
def ofState (f : σ → Except Failure α) : Effect σ α := ofFunction fun s => (f s, s)

@[simp] theorem runOn_pure (a : α) (s : σ) : (pure a : Effect σ α).runOn s = (.ok a, s) := rfl

@[simp] theorem runOn_change (f : σ → σ) (s : σ) : (change f).runOn s = (.ok (), f s) := rfl

@[simp] theorem runOn_ofState (f : σ → Except Failure α) (s : σ) :
    (ofState f).runOn s = (f s, s) := rfl

/-- What is done on a part leaves the rest. -/
@[simp] theorem runOn_onPart (get : σ → τ) (set : τ → σ → σ) (act : Effect τ α) (s : σ) :
    (onPart get set act).runOn s = ((act.runOn (get s)).1, set (act.runOn (get s)).2 s) := rfl

/-- Naming what is attempted changes nothing but the failure. -/
@[simp] theorem runOn_attempting (context : Context) (act : Effect σ α) (s : σ) :
    (act.attempting context).runOn s =
      ((act.runOn s).1.mapError (Failure.within context), (act.runOn s).2) := rfl

/-- A sequence of two computations: the second starts where the first succeeded,
and after a failure the state stays as it was left. -/
theorem runOn_bind (act : Effect σ α) (next : α → Effect σ τ) (s : σ) :
    (act >>= next).runOn s =
      match act.runOn s with
      | (.ok a, s) => (next a).runOn s
      | (.error f, s) => (.error f, s) := by
  simp only [runOn, ExceptT.run, StateT.run, bind, ExceptT.bind, ExceptT.mk, StateT.bind,
    ExceptT.bindCont]
  rcases act s with ⟨_ | _, _⟩ <;> rfl

/-- **What happens after a failure: nothing.** -/
theorem runOn_bind_error {act : Effect σ α} {next : α → Effect σ τ} {s s' : σ} {f : Failure}
    (h : act.runOn s = (.error f, s')) : (act >>= next).runOn s = (.error f, s') := by
  rw [runOn_bind, h]

/-- The next computation goes on from where a successful one ended. -/
theorem runOn_bind_ok {act : Effect σ α} {next : α → Effect σ τ} {s s' : σ} {a : α}
    (h : act.runOn s = (.ok a, s')) : (act >>= next).runOn s = (next a).runOn s' := by
  rw [runOn_bind, h]

end Effect

end MusicCollections
