/-
# Answers

The answer to a start is the files of the set that it denotes, in catalog order, or
the first fault of the walk from it.  A start has one answer (`Answers.unique`), so
evaluations that give answers agree, whatever they remember and whichever results
they use.

Evaluation of an expression and of a collection by its name gives the answer
(`answers_evaluate`, `answers_resolve`), on every store whose results are right, and
with that on every store that is as its texts were read (`Store.AsRead`).  From this
come the two theorems on such stores: evaluation succeeds with the tracks denoted
(`evaluate_eq_ok_iff_denotes`), and it ends and reports the first fault, which is a
true one (`evaluation_reported`).
-/

import MusicCollections.Proofs.Collections
import MusicCollections.Proofs.Evaluation.Evaluator

namespace MusicCollections
namespace Evaluation

/-- The answer to a start. -/
inductive Answers (catalog : Catalog) (texts : Texts) (start : Place) :
    Except EvalError (List String) → Prop
  | ok {s} : start.Denotes catalog texts s → Answers catalog texts start (.ok (catalog.listing s))
  | error {err} : Walk catalog texts [] start (some err) → Answers catalog texts start (.error err)

variable {catalog : Catalog} {texts : Texts} {start : Place} {collections : List Collection}
  {store : Store}

/-- A start has one meaning at most. -/
theorem Place.Denotes.unique {s u : Set Track} (h : start.Denotes catalog texts s)
    (h' : start.Denotes catalog texts u) : s = u := by
  cases start with
  | expression e => exact Evaluation.Denotes.unique h h'
  | collection name text =>
    obtain ⟨e, he, hs⟩ := h
    obtain ⟨e', he', hu⟩ := h'
    obtain rfl := Except.ok.inj (he.symm.trans he')
    exact hs.unique hu

/-- A start means tracks of the catalog only. -/
theorem Place.Denotes.subset {s : Set Track} (h : start.Denotes catalog texts s) :
    ∀ t ∈ s, t ∈ catalog.tracks := by
  cases start with
  | expression e => exact Evaluation.Denotes.subset h
  | collection name text =>
    obtain ⟨e, -, hs⟩ := h
    exact hs.subset

/-- The walk from a start that has a meaning ends without a fault. -/
theorem Place.Denotes.walk {s : Set Track} (h : start.Denotes catalog texts s)
    (ht : Trail catalog texts start [] start) : Walk catalog texts [] start none := by
  cases start with
  | expression e => exact Evaluation.Denotes.walk h ht
  | collection name text =>
    obtain ⟨e, he, hs⟩ := h
    have hname : name ∉ [] := List.not_mem_nil
    exact .inside hname he (hs.walk (ht.inside hname he))

/-- Nothing that a start with a meaning reaches refers back to itself. -/
theorem Place.Denotes.not_cyclic {s : Set Track} (h : start.Denotes catalog texts s)
    (ht : Trail catalog texts start [] start) {n : String} (hn : Reaches catalog texts start n) :
    ¬Relation.TransGen (Refers catalog texts) n n := by
  obtain ⟨a, ha, han⟩ := hn
  have hacc : Acc (fun b a => Refers catalog texts a b) a := by
    cases start with
    | expression e => exact Evaluation.Denotes.acc h ha
    | collection name text =>
      obtain ⟨e, he, hs⟩ := h
      obtain rfl : a = name := ha
      refine Acc.intro _ fun b ⟨text', e', ht', he', hb⟩ => ?_
      obtain rfl := Option.some.inj ((ht.text a text rfl).symm.trans ht')
      obtain rfl := Except.ok.inj (he.symm.trans he')
      exact hs.acc hb
  refine not_cyclic_of_acc ?_
  induction han with
  | refl => exact hacc
  | tail _ hbc ih => exact ih.inv hbc

namespace Answers

variable {outcome outcome' : Except EvalError (List String)}

/-- **A start has one answer.** -/
theorem unique (ht : Trail catalog texts start [] start) (h : Answers catalog texts start outcome)
    (h' : Answers catalog texts start outcome') : outcome = outcome' := by
  cases h with
  | ok hs =>
    cases h' with
    | ok hu => rw [hs.unique hu]
    | error hwalk => cases (hs.walk ht).unique hwalk
  | error hwalk =>
    cases h' with
    | ok hu => cases (hu.walk ht).unique hwalk
    | error hwalk' => rw [Option.some.inj (hwalk.unique hwalk')]

/-- An answer is a list of files exactly if the start has a meaning, and the list is of the
tracks meant. -/
theorem ok_iff (ht : Trail catalog texts start [] start) (h : Answers catalog texts start outcome)
    {files : List String} :
    outcome = .ok files ↔ ∃ s, start.Denotes catalog texts s ∧ files = catalog.listing s := by
  constructor
  · rintro rfl
    obtain ⟨hs⟩ := h
    exact ⟨_, hs, rfl⟩
  · rintro ⟨s, hs, rfl⟩
    exact h.unique ht (.ok hs)

/-- An answer is an error exactly if the walk from the start meets it first. -/
theorem error_iff (ht : Trail catalog texts start [] start)
    (h : Answers catalog texts start outcome) {err : EvalError} :
    outcome = .error err ↔ Walk catalog texts [] start (some err) := by
  constructor
  · rintro rfl
    obtain ⟨⟩ | hwalk := h
    exact hwalk
  · exact fun hwalk => h.unique ht (.error hwalk)

end Answers

/-! ## Evaluation gives the answer -/

/-- The files of positions that meet a start are its answer. -/
theorem Meets.answers {act : EvalM PositionSet} (h : Meets catalog texts [] start act)
    {evaluator left : Evaluator} {outcome : Except EvalError (List String)}
    (hstands : evaluator.Stands catalog texts [])
    (hrun : runFrom (do let set ← act; pure (catalog.filesAt set)) evaluator = (outcome, left)) :
    Answers catalog texts start outcome ∧ left.Stands catalog texts [] := by
  rw [runFrom_bind] at hrun
  rcases hact : runFrom act evaluator with ⟨first, middle⟩
  rw [hact] at hrun
  obtain ⟨hfirst, hmiddle⟩ := h evaluator first middle hstands hact
  cases hfirst with
  | ok hs hset =>
    obtain ⟨rfl, rfl⟩ := Prod.mk.inj hrun
    rw [hset.filesAt_eq]
    exact ⟨.ok hs, hmiddle⟩
  | error hwalk =>
    obtain ⟨rfl, rfl⟩ := Prod.mk.inj hrun
    exact ⟨.error hwalk, hmiddle⟩

/-- A start is inside of nothing, so that all the depth is left. -/
theorem depthFor_eq (collections : List Collection) :
    ([] : List String).length + depthFor collections = depthFor collections := by simp

/-- **Evaluating an expression gives its answer**, where results are right. -/
theorem answers_evaluate (hright : ResultsRight catalog store.collections) (e : Expression) :
    Answers catalog store.texts (.expression e) (evaluate catalog store e) := by
  have hmeets : Meets catalog store.texts [] (.expression e)
      (select catalog (selectName catalog store.collections
        (selectCollection catalog store.collections (depthFor store.collections))) e) := by
    refine meets_select (.expression catalog store.texts e) fun name htn => ?_
    refine meets_selectName htn fun c hall hp hfind htc => ?_
    exact meets_selectCollection hright _ htc (hright name c hall hp hfind) (depthFor_eq _)
  exact (hmeets.answers (.new catalog store.texts) rfl).1

/-- **Evaluating a collection gives its answer**, after whatever was evaluated before. -/
theorem answers_collectionFiles (hright : ResultsRight catalog collections) {name : String}
    {c : Collection} (hfind : Collection.find? collections name = some c)
    (hc : Right catalog (Collection.texts collections) c) {evaluator left : Evaluator}
    {outcome : Except EvalError (List String)}
    (hstands : evaluator.Stands catalog (Collection.texts collections) [])
    (hrun : runFrom (collectionFiles catalog collections name) evaluator = (outcome, left)) :
    Answers catalog (Collection.texts collections) (.collection name c.expression) outcome ∧
      left.Stands catalog (Collection.texts collections) [] := by
  have htext := texts_of_find? hfind
  rw [collectionFiles, hfind] at hrun
  obtain rfl := name_of_find? hfind
  have hmeets := meets_selectCollection hright (depthFor collections) (.collection htext) hc
    (depthFor_eq _)
  exact hmeets.answers hstands hrun

/-- **Resolving a collection of a store gives its answer**, where results are right. -/
theorem answers_resolve (hright : ResultsRight catalog store.collections) {name : String}
    {c : Collection} (hfind : store.get? name = some c) (hc : Right catalog store.texts c) :
    Answers catalog store.texts (.collection name c.expression) (store.resolve catalog name) :=
  (answers_collectionFiles hright hfind hc (.new catalog store.texts) rfl).1

/-- There is no answer under a name that the store does not have. -/
theorem resolve_of_texts_eq_none {name : String} (h : store.texts name = none) :
    store.resolve catalog name = .error (.store (.notFound name)) := by
  have hfind : Collection.find? store.collections name = none := Option.map_eq_none_iff.1 h
  rw [Store.resolve, collectionFiles, hfind]
  rfl

end Evaluation

/-! ## Stores as read -/

namespace Store

/-- Every collection is what its text makes it and has no result. -/
def AsRead (store : Store) : Prop :=
  ∀ c ∈ store.collections, c = Collection.ofText c.name c.expression

/-- The store without collections is as read. -/
theorem asRead_empty : Store.empty.AsRead := fun _ h => nomatch h

/-- Setting definitions unchecked keeps a store as read. -/
theorem AsRead.insertUnchecked {store : Store} (h : store.AsRead) (d : Definition) :
    (store.insertUnchecked d).AsRead := by
  intro c hc
  rcases Collection.mem_put hc with rfl | hc
  · rfl
  · exact h c hc

/-- A collection without a result cannot have a wrong one. -/
theorem AsRead.right {store : Store} (h : store.AsRead) {catalog : Catalog} {c : Collection}
    (hc : c ∈ store.collections) : Evaluation.Right catalog store.texts c where
  derived := by
    rw [h c hc]
    rfl
  result files hfiles := by
    rw [h c hc] at hfiles
    cases hfiles

/-- The results of a store as read are right in any catalog. -/
theorem AsRead.resultsRight {store : Store} (h : store.AsRead) (catalog : Catalog) :
    Evaluation.ResultsRight catalog store.collections :=
  fun _ _ _ _ hfind => h.right (List.mem_of_find?_eq_some hfind)

end Store

namespace Evaluation

/-- **Evaluation computes the set denoted.**  It succeeds if and only if the
expression denotes a set, and then with the files of the tracks in it, in catalog
order and each once. -/
theorem evaluate_eq_ok_iff_denotes {catalog : Catalog} {store : Store} (h : store.AsRead)
    (e : Expression) (files : List String) :
    evaluate catalog store e = .ok files ↔
      ∃ s, Denotes catalog store.texts e s ∧ files = catalog.listing s ∧ files.Nodup := by
  have hanswers := answers_evaluate (h.resultsRight catalog) e
  rw [hanswers.ok_iff (.expression catalog store.texts e)]
  constructor
  · rintro ⟨s, hs, rfl⟩
    exact ⟨s, hs, rfl, Catalog.nodup_listing s⟩
  · rintro ⟨s, hs, hfiles, -⟩
    exact ⟨s, hs, hfiles⟩

/-- Three tracks, and a playlist of the last of them and a file that is gone. -/
def smallCatalog : Catalog :=
  .ofTracks [⟨"a.mp3", { artist := "Ayo" }⟩, ⟨"b.mp3", {}⟩, ⟨"c.mp3", { artist := "Ayo" }⟩]
    [("p", ["c.mp3", "gone.mp3"])]

/-- Two collections that share a third, which names the playlist, and one that the
playlist hides. -/
def sharingStore : Store :=
  (((Store.empty.insertUnchecked ("base", "NOT p")).insertUnchecked
    ("left", "base AND artist:ayo")).insertUnchecked ("right", "(NOT base)")).insertUnchecked
    ("p", "all")

/-- The first track is in the one operand and the last in the other; the track in
between is in the collection that both share and in neither of them. -/
theorem evaluate_sharingStore :
    sharingStore.AsRead ∧
      evaluate smallCatalog sharingStore (.either (.ref "left") (.ref "right")) =
        .ok ["a.mp3", "c.mp3"] := by
  have hread : sharingStore.AsRead := (((Store.asRead_empty.insertUnchecked
    ("base", "NOT p")).insertUnchecked ("left", "base AND artist:ayo")).insertUnchecked
    ("right", "(NOT base)")).insertUnchecked ("p", "all")
  have htracks : smallCatalog.tracks =
      #[⟨"a.mp3", { artist := "Ayo" }⟩, ⟨"b.mp3", {}⟩, ⟨"c.mp3", { artist := "Ayo" }⟩] := by
    simp [smallCatalog, Catalog.ofTracks, Catalog.push, Catalog.ofPlaylists]
  have hplaylist : ∀ name, smallCatalog.playlist? name =
      if name = "p" then some ["c.mp3", "gone.mp3"] else none := by
    intro name
    by_cases h : name = "p" <;>
      simp [smallCatalog, Catalog.ofTracks, Catalog.push, Catalog.ofPlaylists, Catalog.playlist?,
        Dictionary.get?, h]
  have hbase : parseExpression "NOT p" = .ok (.complement (.ref "p")) := by decide +kernel
  have hleft : parseExpression "base AND artist:ayo" =
      .ok (.both (.ref "base") (.filter .artist "ayo")) := by decide +kernel
  have hright : parseExpression "(NOT base)" = .ok (.complement (.ref "base")) := by
    decide +kernel
  have hshared : Denotes smallCatalog sharingStore.texts (.ref "base") _ :=
    .collection (by decide) (hplaylist "base") rfl hbase
      (.complement (.playlist (by decide) (hplaylist "p")))
  have hmeaning : Denotes smallCatalog sharingStore.texts
      (.either (.ref "left") (.ref "right")) _ :=
    .either (.collection (by decide) (hplaylist "left") rfl hleft (.both hshared .filter))
      (.collection (by decide) (hplaylist "right") rfl hright (.complement hshared))
  have hayo : Tag.artist.matches ⟨"a.mp3", { artist := "Ayo" }⟩ "ayo" = true := rfl
  have hnone : Tag.artist.matches ⟨"b.mp3", {}⟩ "ayo" = false := rfl
  refine ⟨hread, (evaluate_eq_ok_iff_denotes hread _ _).2 ⟨_, hmeaning, ?_, by decide⟩⟩
  simp [Catalog.listing, htracks, hayo, hnone]

/-- What an outcome reports of the walk from its start. -/
structure Reported (catalog : Catalog) (texts : Texts) (start : Place)
    (outcome : Except EvalError (List String)) : Prop where
  /-- The walk ends, with one first fault or none. -/
  ends : ∃! fault, Walk catalog texts [] start fault
  /-- The error is the first fault. -/
  first : ∀ err, outcome = .error err ↔ Walk catalog texts [] start (some err)
  /-- The first fault is a true one. -/
  isTrue : ∀ err, outcome = .error err → FaultIsTrue catalog texts start err
  /-- A cycle within reach is no success. -/
  fails : (∃ n, Reaches catalog texts start n ∧ Relation.TransGen (Refers catalog texts) n n) →
    ∃ err, outcome = .error err
  /-- A cycle within reach is reported where there is nothing else to report. -/
  cycle : (∃ n, Reaches catalog texts start n ∧ Relation.TransGen (Refers catalog texts) n n) →
    (∀ n, Reaches catalog texts start n →
      ∃ text e, texts n = some text ∧ parseExpression text = .ok e) →
    ∃ path, outcome = .error (.store (.cycle path))

/-- Answers report. -/
theorem Answers.reported {catalog : Catalog} {texts : Texts} {start : Place}
    {outcome : Except EvalError (List String)} (ht : Trail catalog texts start [] start)
    (h : Answers catalog texts start outcome) : Reported catalog texts start outcome := by
  have hfirst : ∀ err, outcome = .error err ↔ Walk catalog texts [] start (some err) :=
    fun err => h.error_iff ht
  have htrue : ∀ err, outcome = .error err → FaultIsTrue catalog texts start err :=
    fun err herr => ((hfirst err).1 herr).faultIsTrue ht rfl
  have hfails : (∃ n, Reaches catalog texts start n ∧
      Relation.TransGen (Refers catalog texts) n n) → ∃ err, outcome = .error err := by
    rintro ⟨n, hn, hcycle⟩
    cases h with
    | ok hs => exact absurd hcycle (hs.not_cyclic ht hn)
    | error _ => exact ⟨_, rfl⟩
  refine ⟨?_, hfirst, htrue, hfails, fun hcycle hknown => ?_⟩
  · cases h with
    | ok hs => exact ⟨none, hs.walk ht, fun fault hwalk => hwalk.unique (hs.walk ht)⟩
    | error hwalk => exact ⟨_, hwalk, fun fault hwalk' => hwalk'.unique hwalk⟩
  · obtain ⟨err, rfl⟩ := hfails hcycle
    have herr := htrue err rfl
    match err with
    | .unknownReference n =>
      obtain ⟨hn, -, -, hnone⟩ := herr
      obtain ⟨text, -, ht, -⟩ := hknown n hn
      cases hnone.symm.trans ht
    | .store (.invalidExpression n cause) =>
      obtain ⟨hn, text, ht, hparse⟩ := herr
      obtain ⟨text', e, ht', hparse'⟩ := hknown n hn
      obtain rfl := Option.some.inj (ht.symm.trans ht')
      cases hparse.symm.trans hparse'
    | .store (.cycle path) => exact ⟨path, rfl⟩

/-- **Evaluation ends and reports the first fault, which is a true one.**  So does
evaluation of a collection by its name, if there is a collection of that name. -/
theorem evaluation_reported {catalog : Catalog} {store : Store} (h : store.AsRead) :
    (∀ e, Reported catalog store.texts (.expression e) (evaluate catalog store e)) ∧
      (∀ name, store.texts name = none →
        store.resolve catalog name = .error (.store (.notFound name))) ∧
      ∀ name text, store.texts name = some text →
        Reported catalog store.texts (.collection name text) (store.resolve catalog name) := by
  have hright := h.resultsRight catalog
  refine ⟨fun e => ?_, fun name => resolve_of_texts_eq_none, fun name text ht => ?_⟩
  · exact (answers_evaluate hright e).reported (.expression catalog store.texts e)
  · obtain ⟨c, hfind, rfl⟩ := Option.map_eq_some_iff.1 ht
    have hc : Right catalog store.texts c := h.right (List.mem_of_find?_eq_some hfind)
    exact (answers_resolve hright hfind hc).reported (.collection ht)

/-- Two collections that refer to each other. -/
def mutualStore : Store := (Store.empty.insertUnchecked ("c", "d")).insertUnchecked ("d", "NOT c")

/-- The cycle through both is reported from the collection that was asked for. -/
theorem mutualStore_reported :
    mutualStore.AsRead ∧ evaluate (Catalog.ofPlaylists []) mutualStore (.ref "c") =
      .error (.store (.cycle ["c", "d", "c"])) := by
  have hread : mutualStore.AsRead :=
    (Store.asRead_empty.insertUnchecked ("c", "d")).insertUnchecked ("d", "NOT c")
  have hc : parseExpression "d" = .ok (.ref "d") := rfl
  have hd : parseExpression "NOT c" = .ok (.complement (.ref "c")) := by decide +kernel
  refine ⟨hread, (((evaluation_reported hread).1 (.ref "c")).first _).2 ?_⟩
  refine .named (by decide) rfl rfl (.inside (by decide) hc ?_)
  refine .named (by decide) rfl rfl (.inside (by decide) hd (.complement ?_))
  exact .named (by decide) rfl rfl (.cycle List.not_mem_nil)

end Evaluation
end MusicCollections
