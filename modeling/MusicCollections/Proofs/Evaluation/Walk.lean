/-
# Walks through expressions and collections

A walk visits an expression depth first, operands from left to right, and enters
the collections that it names.  Its outcome is the first fault that it meets:

| met | fault |
| --- | --- |
| a name that nothing has | `unknownReference` |
| a collection whose text spells no expression | `invalidExpression` |
| a collection that the walk is inside of | `cycle`, with the names since then |

`Walk` has one rule for each thing met and remembers nothing between siblings.
`Trail` is what holds wherever a walk stands; with it every fault of a walk is a
true one (`Walk.faultIsTrue`), and what denotes a set is walked without a fault
(`Denotes.walk`).
-/

import Mathlib.Data.List.Chain
import MusicCollections.Proofs.Evaluation.Meaning

namespace MusicCollections
namespace Evaluation

/-- What a walk stands at. -/
inductive Place where
  | expression (e : Expression)
  | collection (name text : String)

/-- The names of collections that a walk goes to next. -/
def Place.LooksUp (catalog : Catalog) : Place → String → Prop
  | .expression e, n => Evaluation.LooksUp catalog e n
  | .collection name _, n => n = name

/-- What stands at a place denotes the set. -/
def Place.Denotes (catalog : Catalog) (texts : Texts) : Place → Set Track → Prop
  | .expression e, s => Evaluation.Denotes catalog texts e s
  | .collection _ text, s =>
    ∃ e, parseExpression text = .ok e ∧ Evaluation.Denotes catalog texts e s

/-- A walk inside the collections `above`, the outermost first, and the first fault
that it meets. -/
inductive Walk (catalog : Catalog) (texts : Texts) :
    List String → Place → Option EvalError → Prop
  | all {above} : Walk catalog texts above (.expression (.ref Expression.allName)) none
  | playlist {above name files} :
      name ≠ Expression.allName → catalog.playlist? name = some files →
      Walk catalog texts above (.expression (.ref name)) none
  | unknown {above name} :
      name ≠ Expression.allName → catalog.playlist? name = none → texts name = none →
      Walk catalog texts above (.expression (.ref name)) (some (.unknownReference name))
  | named {above name text fault} :
      name ≠ Expression.allName → catalog.playlist? name = none → texts name = some text →
      Walk catalog texts above (.collection name text) fault →
      Walk catalog texts above (.expression (.ref name)) fault
  | filter {above tag pattern} : Walk catalog texts above (.expression (.filter tag pattern)) none
  | complement {above e fault} :
      Walk catalog texts above (.expression e) fault →
      Walk catalog texts above (.expression (.complement e)) fault
  | bothLeft {above l r err} :
      Walk catalog texts above (.expression l) (some err) →
      Walk catalog texts above (.expression (.both l r)) (some err)
  | bothRight {above l r fault} :
      Walk catalog texts above (.expression l) none →
      Walk catalog texts above (.expression r) fault →
      Walk catalog texts above (.expression (.both l r)) fault
  | eitherLeft {above l r err} :
      Walk catalog texts above (.expression l) (some err) →
      Walk catalog texts above (.expression (.either l r)) (some err)
  | eitherRight {above l r fault} :
      Walk catalog texts above (.expression l) none →
      Walk catalog texts above (.expression r) fault →
      Walk catalog texts above (.expression (.either l r)) fault
  | group {above e fault} :
      Walk catalog texts above (.expression e) fault →
      Walk catalog texts above (.expression (.group e)) fault
  | cycle {before after name text} :
      name ∉ before →
      Walk catalog texts (before ++ name :: after) (.collection name text)
        (some (.store (.cycle (name :: after ++ [name]))))
  | invalid {above name text cause} :
      name ∉ above → parseExpression text = .error cause →
      Walk catalog texts above (.collection name text)
        (some (.store (.invalidExpression name cause)))
  | inside {above name text e fault} :
      name ∉ above → parseExpression text = .ok e →
      Walk catalog texts (above ++ [name]) (.expression e) fault →
      Walk catalog texts above (.collection name text) fault

/-- A collection that is reached from a place. -/
def Reaches (catalog : Catalog) (texts : Texts) (start : Place) (n : String) : Prop :=
  ∃ a, start.LooksUp catalog a ∧ Relation.ReflTransGen (Refers catalog texts) a n

/-- Collections that each refer to the next, of which the last is the first and no
other is there twice. -/
structure IsCycle (catalog : Catalog) (texts : Texts) (path : List String) : Prop where
  two_le : 2 ≤ path.length
  closes : path.head? = path.getLast?
  nodup : path.dropLast.Nodup
  known : ∀ n ∈ path, ∃ text, texts n = some text
  refers : path.IsChain (Refers catalog texts)

/-- What an error says is so: of names and collections that the start reaches. -/
def FaultIsTrue (catalog : Catalog) (texts : Texts) (start : Place) : EvalError → Prop
  | .unknownReference n =>
    Reaches catalog texts start n ∧ n ≠ Expression.allName ∧ catalog.playlist? n = none ∧
      texts n = none
  | .store (.invalidExpression n cause) =>
    Reaches catalog texts start n ∧
      ∃ text, texts n = some text ∧ parseExpression text = .error cause
  | .store (.cycle path) =>
    IsCycle catalog texts path ∧ ∀ n ∈ path, Reaches catalog texts start n
  | _ => False

/-- What holds where a walk stands: the collections that it is inside of are
distinct, each refers to the next, and the start reaches what comes next. -/
structure Trail (catalog : Catalog) (texts : Texts) (start : Place) (above : List String)
    (place : Place) : Prop where
  nodup : above.Nodup
  known : ∀ n ∈ above, Reaches catalog texts start n ∧ ∃ text, texts n = some text
  refers : ∀ n, place.LooksUp catalog n → (above ++ [n]).IsChain (Refers catalog texts)
  reached : ∀ n, place.LooksUp catalog n → Reaches catalog texts start n
  text : ∀ name text, place = .collection name text → texts name = some text

variable {catalog : Catalog} {texts : Texts} {start place : Place} {above : List String}

/-- A start reaches what is referred to by what it reaches. -/
theorem Reaches.tail {a b : String} (h : Reaches catalog texts start a)
    (hab : Refers catalog texts a b) : Reaches catalog texts start b := by
  obtain ⟨c, hc, hca⟩ := h
  exact ⟨c, hc, hca.tail hab⟩

/-! ## Steps of a trail -/

namespace Trail

/-- A walk that starts at an expression is inside of nothing yet. -/
theorem expression (catalog : Catalog) (texts : Texts) (e : Expression) :
    Trail catalog texts (.expression e) [] (.expression e) where
  nodup := List.nodup_nil
  known _ h := absurd h List.not_mem_nil
  refers n _ := List.isChain_singleton n
  reached n h := ⟨n, h, .refl⟩
  text _ _ h := nomatch h

/-- Neither is one that starts at a collection. -/
theorem collection {name text : String} (h : texts name = some text) :
    Trail catalog texts (.collection name text) [] (.collection name text) where
  nodup := List.nodup_nil
  known _ h := absurd h List.not_mem_nil
  refers n _ := List.isChain_singleton n
  reached n h := ⟨n, h, .refl⟩
  text _ _ he := by
    obtain ⟨rfl, rfl⟩ := Place.collection.inj he
    exact h

/-- An operand names less. -/
theorem operand {d e : Expression}
    (h : Trail catalog texts start above (.expression e))
    (hsub : ∀ n, LooksUp catalog d n → LooksUp catalog e n) :
    Trail catalog texts start above (.expression d) where
  nodup := h.nodup
  known := h.known
  refers n hn := h.refers n (hsub n hn)
  reached n hn := h.reached n (hsub n hn)
  text _ _ he := nomatch he

/-- A name that is neither `all` nor a playlist leads to the collection of that name. -/
theorem named {name text : String} (h : Trail catalog texts start above (.expression (.ref name)))
    (hall : name ≠ Expression.allName) (hp : catalog.playlist? name = none)
    (ht : texts name = some text) :
    Trail catalog texts start above (.collection name text) where
  nodup := h.nodup
  known := h.known
  refers n hn := h.refers n (looksUp_ref.2 ⟨hn, hall, hp⟩)
  reached n hn := h.reached n (looksUp_ref.2 ⟨hn, hall, hp⟩)
  text _ _ he := by
    obtain ⟨rfl, rfl⟩ := Place.collection.inj he
    exact ht

/-- A collection that is not in progress is entered, and the walk goes on in its expression. -/
theorem inside {name text : String} {e : Expression}
    (h : Trail catalog texts start above (.collection name text)) (hname : name ∉ above)
    (he : parseExpression text = .ok e) :
    Trail catalog texts start (above ++ [name]) (.expression e) where
  nodup := by
    rw [List.nodup_append]
    refine ⟨h.nodup, List.pairwise_singleton _ name, fun a ha b hb => ?_⟩
    rw [List.mem_singleton.1 hb]
    exact fun hab => hname (hab ▸ ha)
  known n hn := by
    rcases List.mem_append.1 hn with hn | hn
    · exact h.known n hn
    · obtain rfl := List.mem_singleton.1 hn
      exact ⟨h.reached n rfl, text, h.text n text rfl⟩
  refers n hn := by
    have hrefers : Refers catalog texts name n := ⟨text, e, h.text name text rfl, he, hn⟩
    rw [List.append_assoc, List.singleton_append, List.isChain_split]
    exact ⟨h.refers name rfl, List.isChain_pair.2 hrefers⟩
  reached n hn := (h.reached name rfl).tail ⟨text, e, h.text name text rfl, he, hn⟩
  text _ _ he := nomatch he

end Trail

/-! ## Outcomes of walks -/

/-- Two ways to split a list at the first place of one name are the same. -/
theorem split_unique {name : String} {before before' after after' : List String}
    (h : before ++ name :: after = before' ++ name :: after') (hb : name ∉ before)
    (hb' : name ∉ before') : after = after' := by
  have hdrop := congrArg (List.dropWhile (· != name)) h
  rw [List.dropWhile_append_of_pos, List.dropWhile_append_of_pos] at hdrop
  · simpa using hdrop
  · exact fun a ha => bne_iff_ne.2 fun hab => hb' (hab ▸ ha)
  · exact fun a ha => bne_iff_ne.2 fun hab => hb (hab ▸ ha)

/-- **A walk has one outcome.** -/
theorem Walk.unique {fault fault' : Option EvalError} (h : Walk catalog texts above place fault) :
    Walk catalog texts above place fault' → fault = fault' := by
  induction h generalizing fault' with
  | all =>
    intro h'
    cases h' with
    | all => rfl
    | playlist => rfl
    | unknown hall => exact absurd rfl hall
    | named hall => exact absurd rfl hall
  | playlist _ hp =>
    intro h'
    cases h' with
    | all => rfl
    | playlist => rfl
    | unknown _ hp' => cases hp.symm.trans hp'
    | named _ hp' => cases hp.symm.trans hp'
  | unknown hall hp ht =>
    intro h'
    cases h' with
    | all => exact absurd rfl hall
    | playlist _ hp' => cases hp.symm.trans hp'
    | unknown => rfl
    | named _ _ ht' => cases ht.symm.trans ht'
  | named hall hp ht _ ih =>
    intro h'
    cases h' with
    | all => exact absurd rfl hall
    | playlist _ hp' => cases hp.symm.trans hp'
    | unknown _ _ ht' => cases ht.symm.trans ht'
    | named _ _ ht' h' =>
      obtain rfl := Option.some.inj (ht.symm.trans ht')
      exact ih h'
  | filter =>
    intro h'
    cases h'
    rfl
  | complement _ ih =>
    intro h'
    cases h' with
    | complement h' => exact ih h'
  | group _ ih =>
    intro h'
    cases h' with
    | group h' => exact ih h'
  | bothLeft _ ih =>
    intro h'
    cases h' with
    | bothLeft h' => exact ih h'
    | bothRight h' => cases ih h'
  | bothRight _ _ ihl ihr =>
    intro h'
    cases h' with
    | bothLeft h' => cases ihl h'
    | bothRight _ h' => exact ihr h'
  | eitherLeft _ ih =>
    intro h'
    cases h' with
    | eitherLeft h' => exact ih h'
    | eitherRight h' => cases ih h'
  | eitherRight _ _ ihl ihr =>
    intro h'
    cases h' with
    | eitherLeft h' => cases ihl h'
    | eitherRight _ h' => exact ihr h'
  | cycle hb =>
    intro h'
    -- Where a cycle was closed is known from the stack: the name stands on it once, at its
    -- first place.
    generalize habove : _ ++ _ :: _ = above at h'
    cases h' with
    | cycle hb' => rw [split_unique habove hb hb']
    | invalid hname => exact absurd (habove ▸ List.mem_append_right _ List.mem_cons_self) hname
    | inside hname => exact absurd (habove ▸ List.mem_append_right _ List.mem_cons_self) hname
  | invalid hname he =>
    intro h'
    cases h' with
    | cycle => exact absurd (List.mem_append_right _ List.mem_cons_self) hname
    | invalid _ he' => rw [Except.error.inj (he.symm.trans he')]
    | inside _ he' => cases he.symm.trans he'
  | inside hname he _ ih =>
    intro h'
    cases h' with
    | cycle => exact absurd (List.mem_append_right _ List.mem_cons_self) hname
    | invalid _ he' => cases he.symm.trans he'
    | inside _ he' h' =>
      obtain rfl := Except.ok.inj (he.symm.trans he')
      exact ih h'

/-- **The fault of a walk is a true one.** -/
theorem Walk.faultIsTrue {fault : Option EvalError} (h : Walk catalog texts above place fault)
    (ht : Trail catalog texts start above place) {err : EvalError} (herr : fault = some err) :
    FaultIsTrue catalog texts start err := by
  induction h with
  | all | playlist | filter => cases herr
  | unknown hall hp hn =>
    obtain rfl := Option.some.inj herr
    exact ⟨ht.reached _ (looksUp_ref.2 ⟨rfl, hall, hp⟩), hall, hp, hn⟩
  | named hall hp hn _ ih => exact ih (ht.named hall hp hn) herr
  | complement _ ih | group _ ih => exact ih (ht.operand fun _ => id) herr
  | bothLeft _ ih => exact ih (ht.operand fun _ hn => looksUp_both.2 (.inl hn)) herr
  | bothRight _ _ _ ih => exact ih (ht.operand fun _ hn => looksUp_both.2 (.inr hn)) herr
  | eitherLeft _ ih => exact ih (ht.operand fun _ hn => looksUp_either.2 (.inl hn)) herr
  | eitherRight _ _ _ ih => exact ih (ht.operand fun _ hn => looksUp_either.2 (.inr hn)) herr
  | @cycle before after name text _ =>
    obtain rfl := Option.some.inj herr
    have hpath : ∀ n ∈ name :: after ++ [name],
        Reaches catalog texts start n ∧ ∃ text, texts n = some text := by
      intro n hn
      rcases List.mem_append.1 hn with hn | hn
      · exact ht.known n (List.mem_append_right _ hn)
      · exact ht.known n (List.mem_append_right _ (List.mem_singleton.1 hn ▸ List.mem_cons_self))
    refine ⟨⟨?_, ?_, ?_, fun n hn => (hpath n hn).2, ?_⟩, fun n hn => (hpath n hn).1⟩
    · simp
    · rw [List.getLast?_concat]
      rfl
    · rw [List.dropLast_concat]
      exact (List.nodup_append.1 ht.nodup).2.1
    · have hrefers := ht.refers name rfl
      rw [List.append_assoc] at hrefers
      exact hrefers.right_of_append
  | invalid _ he =>
    obtain rfl := Option.some.inj herr
    exact ⟨ht.reached _ rfl, _, ht.text _ _ rfl, he⟩
  | inside hname he _ ih => exact ih (ht.inside hname he) herr

/-- A collection inside of itself refers back to itself. -/
theorem Trail.cyclic {name text : String}
    (h : Trail catalog texts start above (.collection name text)) (hname : name ∈ above) :
    Relation.TransGen (Refers catalog texts) name name := by
  have hchain := (h.refers name rfl).imp fun _ _ => Relation.TransGen.single
  rw [List.isChain_iff_pairwise, List.pairwise_append] at hchain
  exact hchain.2.2 name hname name (List.mem_singleton_self name)

/-- **What denotes a set is walked without a fault.** -/
theorem Denotes.walk {e : Expression} {s : Set Track} (h : Denotes catalog texts e s) :
    ∀ {above}, Trail catalog texts start above (.expression e) →
      Walk catalog texts above (.expression e) none := by
  induction h with
  | all => exact fun _ => .all
  | playlist hall hp => exact fun _ => .playlist hall hp
  | @collection name text e s hall hp hn he hs ih =>
    intro above ht
    have htrail := ht.named hall hp hn
    have hacyclic :=
      (Denotes.collection hall hp hn he hs).not_cyclic (looksUp_ref.2 ⟨rfl, hall, hp⟩)
    have hname : name ∉ above := fun h => hacyclic (htrail.cyclic h)
    exact .named hall hp hn (.inside hname he (ih (htrail.inside hname he)))
  | filter => exact fun _ => .filter
  | complement _ ih => exact fun ht => .complement (ih (ht.operand fun _ => id))
  | both _ _ ihl ihr =>
    exact fun ht => .bothRight (ihl (ht.operand fun _ hn => looksUp_both.2 (.inl hn)))
      (ihr (ht.operand fun _ hn => looksUp_both.2 (.inr hn)))
  | either _ _ ihl ihr =>
    exact fun ht => .eitherRight (ihl (ht.operand fun _ hn => looksUp_either.2 (.inl hn)))
      (ihr (ht.operand fun _ hn => looksUp_either.2 (.inr hn)))
  | group _ ih => exact fun ht => .group (ih (ht.operand fun _ => id))

end Evaluation
end MusicCollections
