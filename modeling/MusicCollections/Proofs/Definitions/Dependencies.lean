/-
# Definitions that close no cycle

A store whose definitions were all checked when they were made has no cycle of
dependencies (`Guarded.acyclic`), in whatever order its names were defined, referred to
and deleted.  The check sees the dependencies that were recorded; a store that is read from
a file that such a store was saved to records the same.

Evaluation follows no reference that was not recorded, so it meets no cycle either
(`guarded_meets_no_cycle`).
-/

import MusicCollections.Proofs.Definitions.Cycles
import MusicCollections.Proofs.Definitions.Saving
import MusicCollections.Proofs.Evaluation.Answers

namespace MusicCollections

open Relation

/-! ## Evaluation without cycles -/

namespace Evaluation

variable {catalog : Catalog} {store : Store} {a b : String} {path : List String}

/-- **What a collection refers to is recorded among its dependencies.** -/
theorem Refers.dependsOn (hread : store.AsRead) (h : Refers catalog store.texts a b) :
    Collection.DependsOn store.collections a b := by
  obtain ⟨text, e, htext, hparse, hb, -⟩ := h
  obtain ⟨c, hc, rfl⟩ := Option.map_eq_some_iff.1 htext
  refine ⟨c, hc, ?_⟩
  rw [hread c (List.mem_of_find?_eq_some hc), Collection.ofText, hparse]
  exact NameSet.mem_ofList.2 hb

/-- The first name of a cycle refers to itself over the others. -/
theorem IsCycle.transGen {texts : Texts} (h : IsCycle catalog texts path) :
    ∃ n, TransGen (Refers catalog texts) n n := by
  obtain ⟨htwo, hcloses, -, -, hrefers⟩ := h
  match path, htwo with
  | n :: m :: rest, _ =>
    obtain ⟨hstep, hrest⟩ := List.isChain_cons_cons.1 hrefers
    have hlast : (m :: rest).getLast (List.cons_ne_nil m rest) = n := by
      rw [List.getLast?_cons_cons, List.getLast?_eq_some_getLast (List.cons_ne_nil m rest)]
        at hcloses
      exact (Option.some.inj hcloses).symm
    exact ⟨n, .head' hstep (List.relationReflTransGen_of_exists_isChain_cons rest hrest hlast)⟩

/-- **Without a cycle of dependencies, evaluation reports none.** -/
theorem not_cycle_of_acyclic {start : Place} {outcome : Except EvalError (List String)}
    (hread : store.AsRead) (hacyclic : Collection.Acyclic store.collections)
    (h : Answers catalog store.texts start outcome)
    (ht : Trail catalog store.texts start [] start) : outcome ≠ .error (.store (.cycle path)) := by
  intro hcycle
  obtain ⟨htrue, -⟩ := (h.reported ht).isTrue _ hcycle
  obtain ⟨n, hn⟩ := htrue.transGen
  exact hacyclic n (TransGen.mono (fun _ _ => Refers.dependsOn hread) n n hn)

end Evaluation

namespace Store

variable {store : Store} {name expression : String}

/-! ## Guarded stores -/

/-- **A checked definition closes no cycle.** -/
theorem acyclic_define (h : Collection.Acyclic store.collections) :
    Collection.Acyclic (store.define name expression).2.collections := by
  rcases collections_define_cases store name expression with hkept | ⟨c, hc, hdefined⟩
  · rwa [hkept]
  · have hname : c.name = name := by
      rw [hc.eq_ofText]
      rfl
    rw [hdefined]
    exact (h.put (hname ▸ hc.closes_no_cycle)).map_forget

/-- A deletion closes no cycle. -/
theorem acyclic_delete (h : Collection.Acyclic store.collections)
    (hnames : (store.collections.map Collection.name).Nodup) :
    Collection.Acyclic (store.delete name).2.collections := by
  rcases collections_delete_cases store name with hkept | hdeleted
  · rwa [hkept]
  · rw [hdeleted]
    exact (h.sublist hnames List.eraseP_sublist).map_forget

/-- The stores that checked definitions, deletions and saves lead to from the empty one,
whether or not they succeed, and the stores that read a file that one of them was saved to,
whatever they had before. -/
inductive Guarded (φ : Type) [Files φ] : Store → Prop
  | empty : Guarded φ .empty
  | define {store : Store} (name expression : String) :
      Guarded φ store → Guarded φ (store.define name expression).2
  | delete {store : Store} (name : String) : Guarded φ store → Guarded φ (store.delete name).2
  | persist {store : Store} (now : Time) (path : Path) (files : φ) :
      Guarded φ store → Guarded φ (store.persist now path files).2.1
  | load {store saved before loaded : Store} {now : Time} {path : Path} {force : Bool}
      {count : Nat} {files files' : φ} :
      Guarded φ store → store.persist now path files = (.ok (), saved, files') →
      before.load files' path force = (.ok (.loaded count), loaded) → Guarded φ loaded

section Guarded

variable {φ : Type} [Files φ] [LawfulFiles φ]

/-- The file keeps what checked definitions make. -/
theorem Guarded.savable (h : Guarded φ store) : Collection.Savable store.collections := by
  induction h with
  | empty => exact .nil
  | define name expression _ ih => exact savable_define ih
  | delete name _ ih => exact savable_delete ih
  | persist now path files _ ih => rwa [collections_persist]
  | load _ hsave hload ih => rwa [collections_load_of_persist ih hsave hload]

/-- **Every collection of checked definitions was admitted once**, as it is. -/
theorem Guarded.admitted (h : Guarded φ store) : ∀ c ∈ store.collections,
    ∃ before text, Admitted before c.name text c := by
  induction h with
  | empty => exact nofun
  | @define store name text hstore ih =>
    rcases collections_define_cases store name text with hkept | ⟨d, hd, hdefined⟩
    · rwa [hkept]
    · rw [hdefined, Collection.map_forget_eq_self]
      · intro c hc
        rcases Collection.mem_put hc with rfl | hc
        · have hname : c.name = name := by
            rw [hd.eq_ofText]
            rfl
          exact ⟨store, text, hname ▸ hd⟩
        · exact ih c hc
      · intro c hc
        rcases Collection.mem_put hc with rfl | hc
        · rw [hd.eq_ofText]
          rfl
        · exact hstore.savable.as_read c hc
  | @delete store name hstore ih =>
    rcases collections_delete_cases store name with hkept | hdeleted
    · rwa [hkept]
    · rw [hdeleted, Collection.map_forget_eq_self
        (hstore.savable.sublist List.eraseP_sublist).as_read]
      exact fun c hc => ih c (List.mem_of_mem_eraseP hc)
  | persist now path files _ ih => rwa [collections_persist]
  | load hstore hsave hload ih => rwa [collections_load_of_persist hstore.savable hsave hload]

/-- **Checked definitions have no cycle of dependencies.** -/
theorem Guarded.acyclic (h : Guarded φ store) : Collection.Acyclic store.collections := by
  induction h with
  | empty => exact .nil
  | define name expression _ ih => exact acyclic_define ih
  | delete name hstore ih => exact acyclic_delete ih hstore.savable.nodup
  | persist now path files _ ih => rwa [collections_persist]
  | load hstore hsave hload ih => rwa [collections_load_of_persist hstore.savable hsave hload]

end Guarded

/-- **Checked definitions close no cycle.**  The dependencies of the collections are
acyclic, and no expression and no collection, against whatever tracks and playlists, is
evaluated into one. -/
theorem guarded_meets_no_cycle {φ : Type} [Files φ] [LawfulFiles φ] {store : Store}
    (h : Guarded φ store) : Collection.Acyclic store.collections ∧ ∀ (catalog : Catalog) path,
      (∀ e, evaluate catalog store e ≠ .error (.store (.cycle path))) ∧
      ∀ name, store.resolve catalog name ≠ .error (.store (.cycle path)) := by
  have hread : store.AsRead := h.savable.as_read
  refine ⟨h.acyclic, fun catalog path => ⟨fun e => ?_, fun name => ?_⟩⟩
  · exact Evaluation.not_cycle_of_acyclic hread h.acyclic
      (Evaluation.answers_evaluate (hread.resultsRight catalog) e)
      (.expression catalog store.texts e)
  · cases ht : store.texts name with
    | none =>
      rw [Evaluation.resolve_of_texts_eq_none ht]
      nofun
    | some text =>
      obtain ⟨c, hfind, rfl⟩ := Option.map_eq_some_iff.1 ht
      exact Evaluation.not_cycle_of_acyclic hread h.acyclic
        (Evaluation.answers_resolve (hread.resultsRight catalog) hfind
          (hread.right (List.mem_of_find?_eq_some hfind))) (.collection ht)

/-- A collection that refers to one that is missing. -/
def danglingStore : Store := (Store.empty.define "a" "b").2

/-- The file that it was saved to. -/
def danglingFile : FileTree := (danglingStore.persist 1 "notes" ({} : FileTree)).2.2

/-- What is missing is defined after the file was loaded. -/
def mendedStore : Store := ((Store.empty.load danglingFile "notes" true).2.define "b" "all").2

/-- The missing collection is defined after the file was loaded, and then a definition that
would close a cycle is rejected. -/
theorem mendedStore_meets_no_cycle :
    Guarded FileTree mendedStore ∧ mendedStore.definitions = [("a", "b"), ("b", "all")] ∧
      (mendedStore.define "b" "NOT a").1 = .error (.cycle ["b", "a", "b"]) ∧
      Collection.Acyclic mendedStore.collections ∧
      ∀ catalog path, evaluate catalog mendedStore (.ref "a") ≠ .error (.store (.cycle path)) := by
  have hsaved : (danglingStore.persist 1 "notes" ({} : FileTree)).1 = .ok () := by decide +kernel
  have hloaded : (Store.empty.load danglingFile "notes" true).1 = .ok (.loaded 1) := by
    decide +kernel
  have hsave : danglingStore.persist 1 "notes" ({} : FileTree) =
      (.ok (), (danglingStore.persist 1 "notes" ({} : FileTree)).2.1, danglingFile) :=
    persist_eq_of_fst hsaved
  have hload : Store.empty.load danglingFile "notes" true =
      (.ok (.loaded 1), (Store.empty.load danglingFile "notes" true).2) :=
    Prod.fst_eq_iff.1 hloaded
  have hguarded : Guarded FileTree mendedStore :=
    .define "b" "all" (.load (.define "a" "b" .empty) hsave hload)
  obtain ⟨hacyclic, hmeets⟩ := guarded_meets_no_cycle hguarded
  exact ⟨hguarded, by decide +kernel, by decide +kernel, hacyclic,
    fun catalog path => (hmeets catalog path).1 (.ref "a")⟩

end Store
end MusicCollections
