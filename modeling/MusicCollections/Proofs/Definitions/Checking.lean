/-
# What the check of a definition finds

A definition is checked against the expressions that the names would have with it in place:
the new one for its own name, and for all others the ones they have (`Store.RefersWith`).
It is rejected for a cycle if and only if its name leads back to itself there, also where
other collections refer to each other in a ring (`Store.define_rejects_iff_leads_back`).
The cycle that is reported leads there, and what is accepted adds none.
-/

import MusicCollections.Proofs.Definitions.Cycles
import MusicCollections.Proofs.Results

namespace MusicCollections

open Relation

namespace Collection

variable {r r' : String → String → Prop} {name n : String} {cycle : List String}

/-- A way back over a name leads from the name back to it. -/
theorem LeadsBack.transGen_of_mem (h : LeadsBack r n cycle) (hname : name ∈ cycle) :
    TransGen r name name := by
  have hback := h.transGen
  obtain ⟨⟨between, rfl, -⟩, hchain⟩ := h
  by_cases hn : name = n
  · rwa [hn]
  have hbetween : name ∈ between := by simpa [hn] using hname
  have hpairs : (n :: (between ++ [n])).Pairwise (TransGen r) :=
    (hchain.imp fun _ _ => TransGen.single).pairwise
  obtain ⟨hfrom, hrest⟩ := List.pairwise_cons.1 hpairs
  have hto : TransGen r name n :=
    (List.pairwise_append.1 hrest).2.2 name hbetween n (List.mem_singleton_self n)
  exact hto.trans (hfrom name (List.mem_append_left _ hbetween))

/-- A way back that keeps clear of what is redirected was there before. -/
theorem LeadsBack.of_redirected (h : LeadsBack r' n cycle)
    (hsame : ∀ a b, a ≠ name → r' a b → r a b) (hname : ¬TransGen r' name name) :
    LeadsBack r n cycle where
  ends := h.ends
  chain := by
    have hclear : ∀ a ∈ cycle, a ≠ name := by
      rintro a ha rfl
      exact hname (h.transGen_of_mem ha)
    exact h.chain.imp_of_mem_imp fun a b ha _ => hsame a b (hclear a ha)

end Collection

namespace Store

open Collection

variable {store : Store} {name expression a b : String} {e : Expression}

/-- The text of a name spells an expression that refers to another name. -/
def RefersTo (store : Store) (a b : String) : Prop :=
  ∃ text e, store.texts a = some text ∧ parseExpression text = .ok e ∧ b ∈ e.references

/-- The same with `e` in the place of the expression of `name`. -/
def RefersWith (store : Store) (name : String) (e : Expression) (a b : String) : Prop :=
  a = name ∧ b ∈ e.references ∨ a ≠ name ∧ store.RefersTo a b

/-- **What a text refers to is recorded**, and nothing else. -/
theorem Derived.dependsOn_iff (h : store.Derived) :
    DependsOn store.collections a b ↔ store.RefersTo a b := by
  have hdependencies : ∀ c, store.get? a = some c →
      c.dependencies =
        ((parseExpression c.expression).toOption.map Expression.references).getD [] := by
    intro c hc
    have hforget := h c.forget (List.mem_map_of_mem (List.mem_of_find?_eq_some hc))
    exact congrArg Collection.dependencies hforget
  constructor
  · rintro ⟨c, hc, hb⟩
    rw [hdependencies c hc] at hb
    cases hparse : parseExpression c.expression with
    | error fault =>
      rw [hparse] at hb
      cases hb
    | ok e =>
      rw [hparse] at hb
      exact ⟨c.expression, e, Evaluation.texts_of_find? hc, hparse, hb⟩
  · rintro ⟨text, e, htext, hparse, hb⟩
    obtain ⟨c, hc, rfl⟩ := Option.map_eq_some_iff.1 htext
    refine ⟨c, hc, ?_⟩
    rw [hdependencies c hc, hparse]
    exact hb

/-- What refers to what after a definition is what depends on what before it, with the
references of the definition in the place of those that its name had. -/
theorem Derived.redirected (h : store.Derived) (name : String) (e : Expression) :
    Redirected store.collections name e.references (store.RefersWith name e) where
  here b := by simp [RefersWith]
  elsewhere a b ha := by simp [RefersWith, ha, h.dependsOn_iff]

/-- What a definition of a good name and text comes to is up to the search. -/
theorem define_of_parseExpression (hname : Definitions.nameFault? name = none)
    (hline : Definitions.hasLineBreak (Text.trim expression) = false)
    (hparse : parseExpression (Text.trim expression) = .ok e) :
    (∃ path, cycleThrough store.collections name e.references = some path ∧
      store.define name expression = (.error (.cycle path), store)) ∨
    (cycleThrough store.collections name e.references = none ∧
      store.define name expression = (.ok (), { store with
        collections := ((ofTree name (Text.trim expression) (some e)).put
          store.collections).map forget
        dirty := true })) := by
  have hreferences :
      (ofTree name (Text.trim expression) (some e)).dependencies = e.references := rfl
  cases hcycle : cycleThrough store.collections name e.references with
  | some path =>
    have hadmitted : store.admitted name expression = .error (.cycle path) := by
      simp [admitted, hname, hline, hparse, hreferences, hcycle]
    refine .inl ⟨path, rfl, ?_⟩
    rw [define, hadmitted]
  | none =>
    have hadmitted : store.admitted name expression =
        .ok (ofTree name (Text.trim expression) (some e)) := by
      simp [admitted, hname, hline, hparse, hreferences, hcycle]
    refine .inr ⟨rfl, ?_⟩
    rw [define, hadmitted]

/-- With a definition in place its name has the new text, and all others have theirs. -/
theorem texts_define (h : (store.define name expression).1 = .ok ()) :
    (store.define name expression).2.texts a =
      if a = name then some (Text.trim expression) else store.texts a := by
  rcases define_cases store name expression with ⟨fault, hdefine⟩ | ⟨c, hc, hdefine⟩
  · rw [hdefine] at h
    cases h
  have htexts : (store.define name expression).2.texts =
      Collection.texts (c.put store.collections) := by
    rw [hdefine]
    exact texts_map_forget _
  have hname : c.name = name := by
    rw [hc.eq_ofText]
    rfl
  rw [htexts, Collection.texts]
  split
  · rename_i ha
    rw [ha, ← hname, find?_put_self, hc.eq_ofText]
    rfl
  · rename_i ha
    rw [find?_put_of_ne (hname ▸ ha)]
    rfl

/-- A definition that succeeds changes only what its name refers to. -/
theorem refersTo_define (hparse : parseExpression (Text.trim expression) = .ok e)
    (h : (store.define name expression).1 = .ok ()) :
    (store.define name expression).2.RefersTo a b ↔ store.RefersWith name e a b := by
  unfold RefersTo RefersWith
  rw [texts_define h]
  by_cases ha : a = name
  · simp [ha, hparse]
  · simp [ha, RefersTo]

/-- **The check of a definition is exact.**  A definition of a good name and text is
rejected for a cycle if and only if its name would lead back to itself; what is reported is a
way back, over the new expression first and over those that the other names have after
that.  Otherwise it is accepted, and then nothing leads from the name back to it, and
every way back to a name is one that was there before. -/
theorem define_rejects_iff_leads_back (hderived : store.Derived)
    (hname : Definitions.nameFault? name = none)
    (hline : Definitions.hasLineBreak (Text.trim expression) = false)
    (hparse : parseExpression (Text.trim expression) = .ok e) :
    ((∃ path, (store.define name expression).1 = .error (.cycle path)) ↔
      TransGen (store.RefersWith name e) name name) ∧
    (∀ path, (store.define name expression).1 = .error (.cycle path) →
      LeadsBack (store.RefersWith name e) name path) ∧
    ((∀ path, (store.define name expression).1 ≠ .error (.cycle path)) →
      (store.define name expression).1 = .ok ()) ∧
    ((store.define name expression).1 = .ok () →
      (∀ a b, (store.define name expression).2.RefersTo a b ↔ store.RefersWith name e a b) ∧
      ¬TransGen (store.define name expression).2.RefersTo name name ∧
      ∀ n cycle, LeadsBack (store.define name expression).2.RefersTo n cycle →
        LeadsBack store.RefersTo n cycle) := by
  have hr := hderived.redirected name e
  rcases @define_of_parseExpression store _ _ _ hname hline hparse with
    ⟨path, hsearch, hdefine⟩ | ⟨hsearch, hdefine⟩
  · have hback := leadsBack_of_cycleThrough_eq_some hr hsearch
    rw [hdefine]
    refine ⟨⟨fun _ => hback.transGen, fun _ => ⟨path, rfl⟩⟩, ?_, fun h => absurd rfl (h path),
      nofun⟩
    rintro _ ⟨⟩
    exact hback
  · have hnone := (cycleThrough_eq_none_iff hr).1 hsearch
    have hok : (store.define name expression).1 = .ok () := by rw [hdefine]
    have hrefers : ∀ a b, (store.define name expression).2.RefersTo a b ↔
        store.RefersWith name e a b := fun a b => refersTo_define hparse hok
    have hclear : ¬TransGen (store.define name expression).2.RefersTo name name :=
      fun h => hnone (TransGen.mono (fun a b => (hrefers a b).1) name name h)
    -- Every way back avoids the name that was defined, so it only takes old references.
    have hsame : ∀ a b, a ≠ name → (store.define name expression).2.RefersTo a b →
        store.RefersTo a b := by
      intro a b ha hab
      rcases (hrefers a b).1 hab with ⟨ha', -⟩ | ⟨-, hold⟩
      · exact absurd ha' ha
      · exact hold
    refine ⟨⟨?_, fun h => absurd h hnone⟩, ?_, fun _ => hok, fun _ => ⟨hrefers, hclear,
      fun n cycle h => h.of_redirected hsame hclear⟩⟩
    · rintro ⟨path, hpath⟩
      cases hok.symm.trans hpath
    · intro path hpath
      cases hok.symm.trans hpath

/-- Collections that refer to each other, and one that refers to them and, over another, to a
name that is not defined yet. -/
def tangledStore : Store :=
  (Evaluation.mutualStore.insertUnchecked ("b", "c OR e")).insertUnchecked ("e", "a")

/-- The search passes the ring of `c` and `d` on its way. -/
theorem tangledStore_define :
    tangledStore.Derived ∧
      (tangledStore.define "a" " b ").1 = .error (.cycle ["a", "b", "e", "a"]) ∧
      LeadsBack (tangledStore.RefersWith "a" (.ref "b")) "a" ["a", "b", "e", "a"] ∧
      (tangledStore.define "a" "c").1 = .ok () ∧
      ¬TransGen (tangledStore.define "a" "c").2.RefersTo "a" "a" := by
  have hread : tangledStore.AsRead :=
    (((asRead_empty.insertUnchecked ("c", "d")).insertUnchecked ("d", "NOT c")).insertUnchecked
      ("b", "c OR e")).insertUnchecked ("e", "a")
  have hrejected : (tangledStore.define "a" " b ").1 = .error (.cycle ["a", "b", "e", "a"]) := by
    decide +kernel
  have haccepted : (tangledStore.define "a" "c").1 = .ok () := by decide +kernel
  obtain ⟨-, hback, -, -⟩ := @define_rejects_iff_leads_back tangledStore "a" " b " (.ref "b")
    hread.derived rfl rfl rfl
  obtain ⟨-, -, -, hclear⟩ := @define_rejects_iff_leads_back tangledStore "a" "c" (.ref "c")
    hread.derived rfl rfl rfl
  exact ⟨hread.derived, hrejected, hback _ hrejected, haccepted, (hclear haccepted).2.1⟩

end Store
end MusicCollections
