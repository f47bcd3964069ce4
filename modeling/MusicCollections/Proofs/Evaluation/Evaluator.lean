/-
# What evaluation computes

Evaluation works on positions, remembers the collections that it has evaluated and
keeps those in progress on a stack.  None of this shows: an evaluator that stands where
a walk does, and has resolved what is right (`Evaluator.Stands`), gives the positions of
the set denoted or fails with the fault of the walk (`Meets`), and stands there
afterwards.  The induction is on the depth, and the stack is the trail of the walk; since
the collections on a trail are distinct, the depth is never used up.

Collections may have results that stand for their expressions, as long as these are
right (`ResultsRight`).
-/

import MusicCollections.Proofs.Evaluation.Walk

namespace MusicCollections
namespace Evaluation

/-! ## Running a computation -/

section RunFrom

variable {α β : Type}

/-- The outcome of a computation and the evaluator after it. -/
def runFrom (act : EvalM α) (evaluator : Evaluator) : Except EvalError α × Evaluator :=
  act.run.run evaluator

@[simp] theorem runFrom_pure (a : α) (evaluator : Evaluator) :
    runFrom (pure a : EvalM α) evaluator = (.ok a, evaluator) := rfl

/-- One computation after another goes on from the evaluator that the first one left, unless
the first one failed. -/
theorem runFrom_bind (act : EvalM α) (next : α → EvalM β) (evaluator : Evaluator) :
    runFrom (act >>= next) evaluator =
      match runFrom act evaluator with
      | (.ok a, left) => runFrom (next a) left
      | (.error err, left) => (.error err, left) := by
  simp only [runFrom, ExceptT.run, StateT.run, bind, ExceptT.bind, ExceptT.mk, StateT.bind,
    ExceptT.bindCont]
  rcases act evaluator with ⟨_ | _, _⟩ <;> rfl

/-- The collection is left whether or not the computation inside it fails. -/
theorem runFrom_within (name : String) (act : EvalM α) (evaluator : Evaluator) :
    runFrom (within name act) evaluator =
      match runFrom act { evaluator with inProgress := evaluator.inProgress ++ [name] } with
      | (outcome, left) => (outcome, { left with inProgress := left.inProgress.dropLast }) := rfl

end RunFrom

/-- The positions of a collection that is neither resolved nor in progress. -/
def selectFresh (catalog : Catalog) (collections : List Collection) (depth : Nat)
    (c : Collection) : EvalM PositionSet :=
  match c.result with
  | some files => pure (catalog.positionsOf files)
  | none =>
    match c.parsed with
    | .error e => throw (.store (.invalidExpression c.name e))
    | .ok tree =>
      within c.name (select catalog (selectName catalog collections
        (selectCollection catalog collections depth)) tree)

/-- Selecting a collection takes what is resolved already, then reports one in progress, and
only then selects anew and keeps what it found. -/
theorem runFrom_selectCollection (catalog : Catalog) (collections : List Collection) (depth : Nat)
    (c : Collection) (evaluator : Evaluator) :
    runFrom (selectCollection catalog collections (depth + 1) c) evaluator =
      match evaluator.resolved.lookup c.name with
      | some set => (.ok set, evaluator)
      | none =>
        if evaluator.inProgress.contains c.name then
          (.error (.store (.cycle (closeCycle evaluator.inProgress c.name))), evaluator)
        else
          match runFrom (selectFresh catalog collections depth c) evaluator with
          | (.ok set, left) => (.ok set, { left with resolved := (c.name, set) :: left.resolved })
          | (.error err, left) => (.error err, left) := by
  rw [selectCollection, runFrom_bind]
  change runFrom _ evaluator = _
  cases evaluator.resolved.lookup c.name with
  | some set => rfl
  | none =>
    by_cases habove : evaluator.inProgress.contains c.name = true
    · simp only [habove, if_true]
      rfl
    · simp only [habove, if_false, Bool.false_eq_true]
      unfold selectFresh
      cases c.result with
      | some files => rfl
      | none =>
        cases c.parsed with
        | error cause => rfl
        | ok tree =>
          simp only [runFrom_bind]
          rcases runFrom (within c.name (select catalog _ tree)) evaluator with ⟨_ | _, _⟩ <;> rfl

/-! ## Results and memos that are right -/

/-- The collection is what its text makes it, and a result that it has selects the
tracks that its text denotes. -/
structure Right (catalog : Catalog) (texts : Texts) (c : Collection) : Prop where
  derived : c.forget = Collection.ofText c.name c.expression
  result : ∀ files, c.result = some files → ∃ s,
    (Place.collection c.name c.expression).Denotes catalog texts s ∧
      catalog.Represents (catalog.positionsOf files) s

/-- The collections that names in expressions stand for are right. -/
def ResultsRight (catalog : Catalog) (collections : List Collection) : Prop :=
  ∀ name c, name ≠ Expression.allName → catalog.playlist? name = none →
    Collection.find? collections name = some c → Right catalog (Collection.texts collections) c

/-- What is remembered of a collection represents what its text denotes. -/
def MemoRight (catalog : Catalog) (texts : Texts) (memo : Memo) : Prop :=
  ∀ name set, memo.lookup name = some set → ∃ text s, texts name = some text ∧
    (Place.collection name text).Denotes catalog texts s ∧ catalog.Represents set s

/-- What the evaluation of a place is to give. -/
inductive Outcome (catalog : Catalog) (texts : Texts) (above : List String) (place : Place) :
    Except EvalError PositionSet → Prop
  | ok {set s} : place.Denotes catalog texts s → catalog.Represents set s →
      Outcome catalog texts above place (.ok set)
  | error {err} : Walk catalog texts above place (some err) →
      Outcome catalog texts above place (.error err)

/-- An evaluator stands inside the collections `above`, and what it resolved is right. -/
structure Evaluator.Stands (catalog : Catalog) (texts : Texts) (above : List String)
    (evaluator : Evaluator) : Prop where
  inProgress : evaluator.inProgress = above
  resolved : MemoRight catalog texts evaluator.resolved

/-- From an evaluator that stands at the place, the computation gives the outcome of the
place, and the evaluator stands there again. -/
def Meets (catalog : Catalog) (texts : Texts) (above : List String) (place : Place)
    (act : EvalM PositionSet) : Prop :=
  ∀ evaluator outcome left, evaluator.Stands catalog texts above →
    runFrom act evaluator = (outcome, left) →
    Outcome catalog texts above place outcome ∧ left.Stands catalog texts above

theorem memoRight_nil (catalog : Catalog) (texts : Texts) : MemoRight catalog texts [] :=
  fun _ _ h => nomatch h

/-- An evaluator that has done nothing yet stands at a start. -/
theorem Evaluator.Stands.new (catalog : Catalog) (texts : Texts) :
    ({} : Evaluator).Stands catalog texts [] := ⟨rfl, memoRight_nil catalog texts⟩

variable {catalog : Catalog} {texts : Texts} {start place : Place} {above : List String}

/-- A memo stays right when a collection is added with the positions of its meaning. -/
theorem MemoRight.cons {memo : Memo} {name text : String} {set : PositionSet} {s : Set Track}
    (h : MemoRight catalog texts memo) (ht : texts name = some text)
    (hs : (Place.collection name text).Denotes catalog texts s)
    (hset : catalog.Represents set s) : MemoRight catalog texts ((name, set) :: memo) := by
  intro n found hfound
  by_cases hn : n = name
  · subst hn
    rw [List.lookup_cons_self] at hfound
    obtain rfl := Option.some.inj hfound
    exact ⟨text, s, ht, hs, hset⟩
  · rw [List.lookup_cons, beq_eq_false_iff_ne.2 hn] at hfound
    exact h n found hfound

/-- Positions that represent the meaning of a place meet it. -/
theorem Meets.done {set : PositionSet} {s : Set Track} (hs : place.Denotes catalog texts s)
    (hset : catalog.Represents set s) : Meets catalog texts above place (pure set) := by
  rintro evaluator outcome left hstands ⟨⟩
  exact ⟨.ok hs hset, hstands⟩

/-- The first fault of the walk meets the place. -/
theorem Meets.fails {err : EvalError} (h : Walk catalog texts above place (some err)) :
    Meets catalog texts above place (throw err) := by
  rintro evaluator outcome left hstands ⟨⟩
  exact ⟨.error h, hstands⟩

/-- What an outcome is for one place it is for another that denotes the same and meets the
same faults. -/
theorem Outcome.imp {above' : List String} {place' : Place}
    {outcome : Except EvalError PositionSet} (h : Outcome catalog texts above place outcome)
    (hs : ∀ s, place.Denotes catalog texts s → place'.Denotes catalog texts s)
    (herr : ∀ err, Walk catalog texts above place (some err) →
      Walk catalog texts above' place' (some err)) :
    Outcome catalog texts above' place' outcome := by
  cases h with
  | ok hdenotes hset => exact .ok (hs _ hdenotes) hset
  | error hwalk => exact .error (herr _ hwalk)

/-- What meets one place meets another that denotes the same and meets the same faults. -/
theorem Meets.imp {place' : Place} {act : EvalM PositionSet}
    (h : Meets catalog texts above place act)
    (hs : ∀ s, place.Denotes catalog texts s → place'.Denotes catalog texts s)
    (herr : ∀ err, Walk catalog texts above place (some err) →
      Walk catalog texts above place' (some err)) :
    Meets catalog texts above place' act := by
  intro evaluator outcome left hstands hrun
  obtain ⟨hout, hleft⟩ := h evaluator outcome left hstands hrun
  exact ⟨hout.imp hs herr, hleft⟩

/-- **A computation inside a collection leaves nothing on the stack**, whether or not it
fails. -/
theorem Meets.within {name : String} {place' : Place} {act : EvalM PositionSet}
    (h : Meets catalog texts (above ++ [name]) place act)
    (hs : ∀ s, place.Denotes catalog texts s → place'.Denotes catalog texts s)
    (herr : ∀ err, Walk catalog texts (above ++ [name]) place (some err) →
      Walk catalog texts above place' (some err)) :
    Meets catalog texts above place' (within name act) := by
  intro evaluator outcome left hstands hrun
  rw [runFrom_within, hstands.inProgress] at hrun
  have hentered : Evaluator.Stands catalog texts (above ++ [name])
      { evaluator with inProgress := above ++ [name] } := ⟨rfl, hstands.resolved⟩
  rcases hact : runFrom act { evaluator with inProgress := above ++ [name] } with ⟨first, middle⟩
  rw [hact] at hrun
  obtain ⟨rfl, rfl⟩ := Prod.mk.inj hrun
  obtain ⟨hout, hmiddle⟩ := h _ first middle hentered hact
  refine ⟨hout.imp hs herr, ?_, hmiddle.resolved⟩
  dsimp only
  rw [hmiddle.inProgress, List.dropLast_concat]

/-- A computation that goes on with the positions of an operand, whose faults are
faults of the whole. -/
theorem Meets.bind {place' : Place} {act : EvalM PositionSet}
    {next : PositionSet → EvalM PositionSet} (h : Meets catalog texts above place act)
    (herr : ∀ err, Walk catalog texts above place (some err) →
      Walk catalog texts above place' (some err))
    (hnext : ∀ set s, place.Denotes catalog texts s → catalog.Represents set s →
      Meets catalog texts above place' (next set)) :
    Meets catalog texts above place' (act >>= next) := by
  intro evaluator outcome left hstands hrun
  rw [runFrom_bind] at hrun
  rcases hact : runFrom act evaluator with ⟨first, middle⟩
  rw [hact] at hrun
  obtain ⟨hfirst, hmiddle⟩ := h evaluator first middle hstands hact
  cases hfirst with
  | ok hs hset => exact hnext _ _ hs hset middle outcome left hmiddle hrun
  | error hwalk =>
    obtain ⟨rfl, rfl⟩ := Prod.mk.inj hrun
    exact ⟨.error (herr _ hwalk), hmiddle⟩

/-! ## The evaluator -/

/-- **Selecting by an expression**, where names in it are selected as they should be. -/
theorem meets_select {ofName : String → EvalM PositionSet} {e : Expression}
    (ht : Trail catalog texts start above (.expression e))
    (h : ∀ name, Trail catalog texts start above (.expression (.ref name)) →
      Meets catalog texts above (.expression (.ref name)) (ofName name)) :
    Meets catalog texts above (.expression e) (select catalog ofName e) := by
  induction e with
  | ref name => exact h name ht
  | filter tag pattern => exact .done .filter (Catalog.represents_select catalog tag pattern)
  | complement e ih =>
    refine (ih (ht.operand fun _ => id)).bind (fun _ => .complement) fun set s hs hset => ?_
    exact .done (.complement hs) hset.complement
  | both l r ihl ihr =>
    have htl := ht.operand (d := l) fun _ hn => looksUp_both.2 (.inl hn)
    have htr := ht.operand (d := r) fun _ hn => looksUp_both.2 (.inr hn)
    refine (ihl htl).bind (fun _ => .bothLeft) fun left s hs hleft => ?_
    refine (ihr htr).bind (fun _ => .bothRight (hs.walk htl)) fun right u hu hright => ?_
    exact .done (.both hs hu) (hleft.inter hright)
  | either l r ihl ihr =>
    have htl := ht.operand (d := l) fun _ hn => looksUp_either.2 (.inl hn)
    have htr := ht.operand (d := r) fun _ hn => looksUp_either.2 (.inr hn)
    refine (ihl htl).bind (fun _ => .eitherLeft) fun left s hs hleft => ?_
    refine (ihr htr).bind (fun _ => .eitherRight (hs.walk htl)) fun right u hu hright => ?_
    exact .done (.either hs hu) (hleft.union hright)
  | group e ih => exact (ih (ht.operand fun _ => id)).imp (fun _ => .group) fun _ => .group

/-- The collection found under a name has the text of that name. -/
theorem texts_of_find? {collections : List Collection} {name : String} {c : Collection}
    (h : Collection.find? collections name = some c) :
    Collection.texts collections name = some c.expression := by
  rw [Collection.texts, h]
  rfl

/-- The collection found under a name is called so. -/
theorem name_of_find? {collections : List Collection} {name : String} {c : Collection}
    (h : Collection.find? collections name = some c) : c.name = name := by
  simpa using List.find?_some h

/-- **Selecting by a name**, where collections are selected as they should be. -/
theorem meets_selectName {collections : List Collection} {name : String}
    {ofCollection : Collection → EvalM PositionSet}
    (ht : Trail catalog (Collection.texts collections) start above (.expression (.ref name)))
    (h : ∀ c, name ≠ Expression.allName → catalog.playlist? name = none →
      Collection.find? collections name = some c →
      Trail catalog (Collection.texts collections) start above (.collection c.name c.expression) →
      Meets catalog (Collection.texts collections) above (.collection c.name c.expression)
        (ofCollection c)) :
    Meets catalog (Collection.texts collections) above (.expression (.ref name))
      (selectName catalog collections ofCollection name) := by
  unfold selectName
  split
  · rename_i hall
    rw [hall]
    exact .done .all (Catalog.represents_full catalog)
  · rename_i hall
    cases hp : catalog.playlist? name with
    | some files => exact .done (.playlist hall hp) (Catalog.represents_positionsOf catalog files)
    | none =>
      cases hfind : Collection.find? collections name with
      | some c =>
        have htext := texts_of_find? hfind
        obtain rfl := name_of_find? hfind
        refine (h c hall hp hfind (ht.named hall hp htext)).imp (fun s ⟨e, he, hs⟩ => ?_)
          fun _ => .named hall hp htext
        exact .collection hall hp htext he hs
      | none =>
        refine .fails (.unknown hall hp ?_)
        rw [Collection.texts, hfind]
        rfl

/-- The expression of a collection that is what its text makes it. -/
theorem Right.parsed_eq {c : Collection} (h : Right catalog texts c) :
    c.parsed = parseExpression c.expression := by
  have htree : c.tree = (parseExpression c.expression).toOption :=
    congrArg Collection.tree h.derived
  rw [Collection.parsed, htree]
  cases parseExpression c.expression <;> rfl

/-- Where a walk stands, it is inside at most as many collections as there are. -/
theorem Trail.length_le {collections : List Collection}
    (h : Trail catalog (Collection.texts collections) start above place) :
    above.length ≤ collections.length := by
  have hsub : above ⊆ collections.map Collection.name := by
    intro n hn
    obtain ⟨-, text, ht⟩ := h.known n hn
    rw [Collection.texts, Option.map_eq_some_iff] at ht
    obtain ⟨c, hc, -⟩ := ht
    exact List.mem_map.2 ⟨c, List.mem_of_find?_eq_some hc, name_of_find? hc⟩
  have hle := h.nodup.length_le_of_subset hsub
  rwa [List.length_map] at hle

/-- The names from the first place of `name` on close the cycle. -/
theorem walk_closeCycle {name text : String} (h : name ∈ above) :
    Walk catalog texts above (.collection name text)
      (some (.store (.cycle (closeCycle above name)))) := by
  obtain ⟨before, after, rfl, hbefore⟩ := List.eq_append_cons_of_mem h
  have hclose : closeCycle (before ++ name :: after) name = name :: after ++ [name] := by
    rw [closeCycle, List.dropWhile_append_of_pos]
    · simp
    · exact fun a ha => bne_iff_ne.2 fun hab => hbefore (hab ▸ ha)
  rw [hclose]
  exact .cycle hbefore

/-- **Selecting by a collection.** -/
theorem meets_selectCollection {collections : List Collection}
    (hright : ResultsRight catalog collections) (depth : Nat) {above : List String} {c : Collection}
    (ht : Trail catalog (Collection.texts collections) start above
      (.collection c.name c.expression))
    (hc : Right catalog (Collection.texts collections) c)
    (hdepth : above.length + depth = depthFor collections) :
    Meets catalog (Collection.texts collections) above (.collection c.name c.expression)
      (selectCollection catalog collections depth c) := by
  induction depth generalizing above c with
  | zero =>
    -- The names above are distinct collections, so they cannot be as many as the depth allows.
    have hle := ht.length_le
    rw [depthFor] at hdepth
    omega
  | succ depth ih =>
    have htext := ht.text _ _ rfl
    -- The collections that the expression names are one level further down.
    have hfresh (habove : c.name ∉ above) :
        Meets catalog (Collection.texts collections) above (.collection c.name c.expression)
          (selectFresh catalog collections depth c) := by
      unfold selectFresh
      cases hresult : c.result with
      | some files =>
        obtain ⟨s, hs, hset⟩ := hc.result files hresult
        exact .done hs hset
      | none =>
        rw [hc.parsed_eq]
        cases he : parseExpression c.expression with
        | error cause => exact .fails (.invalid habove he)
        | ok e =>
          have hinside := ht.inside habove he
          refine Meets.within (meets_select hinside fun name htn => ?_) (fun s hs => ⟨e, he, hs⟩)
            fun _ => .inside habove he
          refine meets_selectName htn fun d hall hp hfind htd => ?_
          refine ih htd (hright name d hall hp hfind) ?_
          rw [List.length_append, List.length_singleton]
          omega
    intro evaluator outcome left hstands hrun
    rw [runFrom_selectCollection, hstands.inProgress] at hrun
    cases hlookup : evaluator.resolved.lookup c.name with
    | some set =>
      -- It was resolved before, to the positions of its meaning.
      rw [hlookup] at hrun
      obtain ⟨rfl, rfl⟩ := Prod.mk.inj hrun
      obtain ⟨text, s, htext', hs, hset⟩ := hstands.resolved c.name set hlookup
      obtain rfl := Option.some.inj (htext.symm.trans htext')
      exact ⟨.ok hs hset, hstands⟩
    | none =>
      rw [hlookup] at hrun
      by_cases habove : c.name ∈ above
      · simp only [List.contains_iff_mem.2 habove, if_true] at hrun
        obtain ⟨rfl, rfl⟩ := Prod.mk.inj hrun
        exact ⟨.error (walk_closeCycle habove), hstands⟩
      · simp only [List.contains_iff_mem, habove, if_false] at hrun
        rcases hact : runFrom (selectFresh catalog collections depth c) evaluator with
          ⟨first, middle⟩
        rw [hact] at hrun
        obtain ⟨hfirst, hmiddle⟩ := hfresh habove evaluator first middle hstands hact
        cases hfirst with
        | ok hs hset =>
          obtain ⟨rfl, rfl⟩ := Prod.mk.inj hrun
          exact ⟨.ok hs hset, hmiddle.inProgress, hmiddle.resolved.cons htext hs hset⟩
        | error hwalk =>
          obtain ⟨rfl, rfl⟩ := Prod.mk.inj hrun
          exact ⟨.error hwalk, hmiddle⟩

end Evaluation
end MusicCollections
