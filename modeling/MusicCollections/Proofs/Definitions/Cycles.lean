/-
# The search for cycles

Collections depend on the names in their dependencies (`DependsOn`).  What a step of the
search does is said once (`Search.Stepped`), and two things hold for as long as it goes on.
Its path leads from the target along dependencies over names that it visited, each one once
(`Search.OnTrack`), so what it finds is a way back (`leadsBack_of_cycleThrough_eq_some`).
And whatever the target or a visited name depends on was visited or is left to look at
(`Search.Covers`), so where it finds nothing there is no way back
(`cycleThrough_eq_none_iff`).

A collection that the search let pass leads nowhere back to its name.  Putting it in place
changes what its name alone depends on, so no cycle comes of it (`Acyclic.put`).
-/

import Mathlib.Data.List.Chain
import Mathlib.Data.List.Nodup
import Mathlib.Logic.Relation
import MusicCollections.Proofs.Collections
import MusicCollections.Store.Cycle

namespace MusicCollections
namespace Collection

open Relation

variable {collections : List Collection} {target name a b : String} {c : Collection}

/-- A collection of the first name has the second name among its dependencies. -/
def DependsOn (collections : List Collection) (a b : String) : Prop :=
  ∃ c, find? collections a = some c ∧ b ∈ c.dependencies

/-- No collection depends on itself, over however many others. -/
def Acyclic (collections : List Collection) : Prop :=
  ∀ name, ¬TransGen (DependsOn collections) name name

/-! ## Ways back -/

/-- A way back to a name: it stands first and last, no other name stands there twice, and
each one leads to the next. -/
structure LeadsBack (r : String → String → Prop) (name : String) (cycle : List String) :
    Prop where
  ends : ∃ between, cycle = name :: (between ++ [name]) ∧ (name :: between).Nodup
  chain : cycle.IsChain r

/-- A path that leads back shows that its name is on a cycle. -/
theorem LeadsBack.transGen {r : String → String → Prop} {cycle : List String}
    (h : LeadsBack r name cycle) : TransGen r name name := by
  obtain ⟨⟨between, rfl, -⟩, hchain⟩ := h
  cases between with
  | nil => exact .single (List.isChain_pair.1 hchain)
  | cons b rest =>
    obtain ⟨hstep, hrest⟩ := List.isChain_cons_cons.1 hchain
    refine .head' hstep (List.relationReflTransGen_of_exists_isChain_cons _ hrest ?_)
    simp

/-- What the names depend on when `target` refers to `dependencies` and all others are as
they are. -/
structure Redirected (collections : List Collection) (target : String) (dependencies : NameSet)
    (r : String → String → Prop) : Prop where
  here : ∀ b, r target b ↔ b ∈ dependencies
  elsewhere : ∀ a b, a ≠ target → (r a b ↔ DependsOn collections a b)

/-- A collection that is put changes only what its name depends on. -/
theorem redirected_put (c : Collection) (collections : List Collection) :
    Redirected collections c.name c.dependencies (DependsOn (c.put collections)) where
  here b := by simp [DependsOn, find?_put_self]
  elsewhere a b ha := by simp only [DependsOn, find?_put_of_ne ha]

/-! ## The search -/

namespace Search

variable {s s' : Search} {r : String → String → Prop} {dependencies : NameSet}
  {cycle : List String}

/-- What a step of a search does. -/
inductive Stepped (collections : List Collection) (target : String) : Search → Next → Prop
  | exhausted {path visited} : Stepped collections target ⟨path, [], visited⟩ .exhausted
  /-- Nothing is left of the last collection on the path. -/
  | back {path pending visited} :
      Stepped collections target ⟨path, [] :: pending, visited⟩
        (.ongoing ⟨path.tail, pending, visited⟩)
  | found {path names pending visited} :
      Stepped collections target ⟨path, (target :: names) :: pending, visited⟩
        (.found (target :: path).reverse)
  | again {path name names pending visited} : name ≠ target → name ∈ visited →
      Stepped collections target ⟨path, (name :: names) :: pending, visited⟩
        (.ongoing ⟨path, names :: pending, visited⟩)
  /-- No collection has the name. -/
  | missing {path name names pending visited} : name ≠ target → name ∉ visited →
      find? collections name = none →
      Stepped collections target ⟨path, (name :: names) :: pending, visited⟩
        (.ongoing ⟨path, names :: pending, name :: visited⟩)
  | entered {path name names pending visited c} : name ≠ target → name ∉ visited →
      find? collections name = some c →
      Stepped collections target ⟨path, (name :: names) :: pending, visited⟩
        (.ongoing ⟨name :: path, c.dependencies :: names :: pending, name :: visited⟩)

/-- Each step of the search is one of these. -/
theorem stepped_next (collections : List Collection) (target : String) (s : Search) :
    Stepped collections target s (s.next collections target) := by
  obtain ⟨path, pending, visited⟩ := s
  match pending with
  | [] => exact .exhausted
  | [] :: pending => exact .back
  | (name :: names) :: pending =>
    simp only [next, List.contains_iff_mem]
    split
    · rename_i hname
      subst hname
      exact .found
    · rename_i hname
      split
      · rename_i hvisited
        exact .again hname hvisited
      · rename_i hvisited
        split
        · rename_i hfind
          exact .missing hname hvisited hfind
        · rename_i c hfind
          exact .entered hname hvisited hfind

/-- **What holds of every step of a search holds where it ends.** -/
theorem run_of_stepped (Inv : Search → Prop) (Found : Option (List String) → Prop)
    (hongoing : ∀ s s', Inv s → Stepped collections target s (.ongoing s') → Inv s')
    (hfound : ∀ s cycle, Inv s → Stepped collections target s (.found cycle) →
      Found (some cycle))
    (hexhausted : ∀ s, Inv s → Stepped collections target s .exhausted → Found none)
    (h : Inv s) : Found (s.run collections target) := by
  induction s using Search.run.induct collections target with
  | case1 s cycle hnext =>
    rw [run, hnext]
    exact hfound s cycle h (hnext ▸ stepped_next collections target s)
  | case2 s hnext =>
    rw [run, hnext]
    exact hexhausted s h (hnext ▸ stepped_next collections target s)
  | case3 s s' hnext ih =>
    rw [run, hnext]
    exact ih (hongoing s s' h (hnext ▸ stepped_next collections target s))

/-! ### What is found -/

/-- The path of a search leads along `r` from the target over names that were visited, each
one once, and to the names that are left. -/
structure OnTrack (r : String → String → Prop) (target : String) (s : Search) : Prop where
  leads : List.Forall₂ (fun a names => ∀ b ∈ names, r a b) s.path s.pending
  start : ∀ a ∈ s.path.getLast?, a = target
  chain : s.path.IsChain fun b a => r a b
  nodup : s.path.Nodup
  visited : ∀ a ∈ s.path, a = target ∨ a ∈ s.visited

/-- A step that goes on keeps the path. -/
theorem OnTrack.ongoing (hr : Redirected collections target dependencies r)
    (h : OnTrack r target s) (hstep : Stepped collections target s (.ongoing s')) :
    OnTrack r target s' := by
  obtain ⟨hleads, hstart, hchain, hnodup, hvisited⟩ := h
  cases hstep with
  | back =>
    cases hleads with
    | cons _ hleads =>
      refine ⟨hleads, fun a ha => hstart a ?_, hchain.tail, hnodup.tail,
        fun a ha => hvisited a (List.mem_cons_of_mem _ ha)⟩
      simp only [List.tail_cons, Option.mem_def] at ha
      simp [List.getLast?_cons, ha]
  | again =>
    cases hleads with
    | cons hnames hleads =>
      exact ⟨.cons (fun b hb => hnames b (List.mem_cons_of_mem _ hb)) hleads, hstart, hchain,
        hnodup, hvisited⟩
  | missing =>
    cases hleads with
    | cons hnames hleads =>
      exact ⟨.cons (fun b hb => hnames b (List.mem_cons_of_mem _ hb)) hleads, hstart, hchain,
        hnodup, fun a ha => (hvisited a ha).imp_right (List.mem_cons_of_mem _)⟩
  | @entered _ name _ _ _ c hname hnew hfind =>
    cases hleads with
    | @cons a _ path _ hnames hleads =>
      -- Names on the path were visited, and this one was not.
      have hon : name ∉ a :: path := fun hmem => (hvisited name hmem).elim hname hnew
      have hdependencies : ∀ b ∈ c.dependencies, r name b :=
        fun b hb => (hr.elsewhere name b hname).2 ⟨c, hfind, hb⟩
      refine ⟨.cons hdependencies
        (.cons (fun b hb => hnames b (List.mem_cons_of_mem _ hb)) hleads), hstart,
        List.isChain_cons_cons.2 ⟨hnames name List.mem_cons_self, hchain⟩,
        List.nodup_cons.2 ⟨hon, hnodup⟩, ?_⟩
      rintro b (_ | ⟨_, hb⟩)
      · exact .inr List.mem_cons_self
      · exact (hvisited b hb).imp_right (List.mem_cons_of_mem _)

/-- **What the search finds leads back to the target.** -/
theorem OnTrack.found (h : OnTrack r target s)
    (hstep : Stepped collections target s (.found cycle)) : LeadsBack r target cycle := by
  obtain ⟨hleads, hstart, hchain, hnodup, -⟩ := h
  cases hstep with
  | found =>
    cases hleads with
    | @cons a _ path _ hnames _ =>
      obtain ⟨between, hpath⟩ : ∃ between, (a :: path).reverse = target :: between := by
        rw [← List.head?_eq_some_iff, List.head?_reverse, List.getLast?_cons]
        exact congrArg some (hstart _ List.getLast?_cons)
      refine ⟨⟨between, ?_, ?_⟩, List.isChain_reverse.2 ?_⟩
      · rw [List.reverse_cons, hpath]
        rfl
      · rw [← hpath]
        exact List.nodup_reverse.2 hnodup
      · exact List.isChain_cons_cons.2 ⟨hnames target List.mem_cons_self, hchain⟩

/-! ### What is not missed -/

/-- The search came to the name, or it is left to look at. -/
def Noted (s : Search) (name : String) : Prop :=
  name ∈ s.visited ∨ ∃ names ∈ s.pending, name ∈ names

/-- A step that goes on forgets no name. -/
theorem Noted.ongoing (h : s.Noted name) (hstep : Stepped collections target s (.ongoing s')) :
    s'.Noted name := by
  unfold Noted at h ⊢
  cases hstep with
  | back => simpa only [List.mem_cons, exists_eq_or_imp, List.not_mem_nil, false_or] using h
  | again | missing | entered =>
    simp only [List.mem_cons, exists_eq_or_imp] at h ⊢
    grind

/-- What the target and the visited names lead to is noted. -/
structure Covers (r : String → String → Prop) (target : String) (s : Search) : Prop where
  onward : ∀ a, a = target ∨ a ∈ s.visited → ∀ b, r a b → s.Noted b
  fresh : target ∉ s.visited

/-- A step that goes on misses nothing. -/
theorem Covers.ongoing (hr : Redirected collections target dependencies r)
    (h : Covers r target s) (hstep : Stepped collections target s (.ongoing s')) :
    Covers r target s' := by
  have hkept : ∀ a, a = target ∨ a ∈ s.visited → ∀ b, r a b → s'.Noted b :=
    fun a ha b hb => (h.onward a ha b hb).ongoing hstep
  obtain ⟨-, hfresh⟩ := h
  cases hstep with
  | back => exact ⟨hkept, hfresh⟩
  | again => exact ⟨hkept, hfresh⟩
  | @missing _ name _ _ _ hname hnew hfind =>
    refine ⟨?_, List.not_mem_cons_of_ne_of_not_mem (Ne.symm hname) hfresh⟩
    rintro a (ha | _ | ⟨_, ha⟩) b hb
    · exact hkept a (.inl ha) b hb
    -- A name that is missing leads nowhere.
    · obtain ⟨c, hc, -⟩ := (hr.elsewhere name b hname).1 hb
      cases hfind.symm.trans hc
    · exact hkept a (.inr ha) b hb
  | @entered _ name _ _ _ c hname hnew hfind =>
    refine ⟨?_, List.not_mem_cons_of_ne_of_not_mem (Ne.symm hname) hfresh⟩
    rintro a (ha | _ | ⟨_, ha⟩) b hb
    · exact hkept a (.inl ha) b hb
    · obtain ⟨d, hd, hmem⟩ := (hr.elsewhere name b hname).1 hb
      obtain rfl := Option.some.inj (hfind.symm.trans hd)
      exact .inr ⟨c.dependencies, List.mem_cons_self, hmem⟩
    · exact hkept a (.inr ha) b hb

/-- **A search that comes to its end has missed no cycle.** -/
theorem Covers.exhausted (h : Covers r target s)
    (hstep : Stepped collections target s .exhausted) : ¬TransGen r target target := by
  obtain ⟨honward, hfresh⟩ := h
  cases hstep with
  | @exhausted path visited =>
    have hnoted : ∀ b, Noted ⟨path, [], visited⟩ b → b ∈ visited := by simp [Noted]
    -- Nothing is left to look at, so whatever the target leads to was visited.
    have hvisited : ∀ b, TransGen r target b → b ∈ visited := by
      intro b hb
      induction hb with
      | single hstep => exact hnoted _ (honward _ (.inl rfl) _ hstep)
      | tail _ hstep ih => exact hnoted _ (honward _ (.inr ih) _ hstep)
    exact fun hback => hfresh (hvisited target hback)

end Search

variable {dependencies : NameSet} {r : String → String → Prop} {cycle : List String}

/-- **What the search finds leads back.** -/
theorem leadsBack_of_cycleThrough_eq_some (hr : Redirected collections name dependencies r)
    (h : cycleThrough collections name dependencies = some cycle) : LeadsBack r name cycle := by
  have hstart : Search.OnTrack r name ⟨[name], [dependencies], []⟩ :=
    ⟨.cons (fun b hb => (hr.here b).2 hb) .nil, by simp, .singleton name, List.nodup_singleton name,
      by simp⟩
  refine Search.run_of_stepped (Search.OnTrack r name)
    (fun found => found = some cycle → LeadsBack r name cycle)
    (fun s s' => Search.OnTrack.ongoing hr) ?_ nofun hstart h
  rintro s _ htrack hstep ⟨⟩
  exact htrack.found hstep

/-- **Where the search finds nothing, nothing leads back.** -/
theorem not_transGen_of_cycleThrough_eq_none (hr : Redirected collections name dependencies r)
    (h : cycleThrough collections name dependencies = none) : ¬TransGen r name name := by
  have hstart : Search.Covers r name ⟨[name], [dependencies], []⟩ := by
    refine ⟨?_, List.not_mem_nil⟩
    rintro a (rfl | ha) b hb
    · exact .inr ⟨dependencies, List.mem_singleton_self _, (hr.here b).1 hb⟩
    · cases ha
  exact Search.run_of_stepped (Search.Covers r name)
    (fun found => found = none → ¬TransGen r name name) (fun s s' => Search.Covers.ongoing hr)
    nofun (fun s hcovers hstep _ => hcovers.exhausted hstep) hstart h

/-- **The search is exact**: it finds nothing where nothing leads back, and only there. -/
theorem cycleThrough_eq_none_iff (hr : Redirected collections name dependencies r) :
    cycleThrough collections name dependencies = none ↔ ¬TransGen r name name := by
  refine ⟨not_transGen_of_cycleThrough_eq_none hr, fun hback => ?_⟩
  cases hsearch : cycleThrough collections name dependencies with
  | none => rfl
  | some cycle => exact absurd (leadsBack_of_cycleThrough_eq_some hr hsearch).transGen hback

/-! ## Changes of the dependencies -/

section Relations

variable {α : Type} {r r' : α → α → Prop} {n x y : α}

/-- A way either keeps clear of what is redirected or leads on from there. -/
theorem transGen_or_of_redirected (hsame : ∀ a b, a ≠ n → r' a b → r a b)
    (h : TransGen r' x y) : TransGen r x y ∨ ReflTransGen r' x n ∧ TransGen r' n y := by
  induction h with
  | @single b hstep =>
    by_cases hx : x = n
    · exact .inr ⟨hx ▸ .refl, hx ▸ .single hstep⟩
    · exact .inl (.single (hsame x b hx hstep))
  | @tail b c hxy hstep ih =>
    rcases ih with hold | ⟨hxn, hny⟩
    · by_cases hb : b = n
      · exact .inr ⟨hb ▸ hxy.to_reflTransGen, hb ▸ .single hstep⟩
      · exact .inl (hold.tail (hsame b c hb hstep))
    · exact .inr ⟨hxn, hny.tail hstep⟩

/-- **Redirecting one element closes no cycle** if it does not lead back to itself. -/
theorem transGen_of_redirected (hsame : ∀ a b, a ≠ n → r' a b → r a b)
    (hn : ¬TransGen r' n n) (h : TransGen r' x x) : TransGen r x x := by
  rcases transGen_or_of_redirected hsame h with hold | ⟨hxn, hnx⟩
  · exact hold
  · exact absurd (hnx.trans_left hxn) hn

end Relations

/-- Results make no difference to dependencies. -/
theorem dependsOn_map_forget :
    DependsOn (collections.map forget) a b ↔ DependsOn collections a b := by
  constructor
  · rintro ⟨c, hc, hb⟩
    rw [find?_map_forget] at hc
    obtain ⟨d, hd, rfl⟩ := Option.map_eq_some_iff.1 hc
    exact ⟨d, hd, hb⟩
  · rintro ⟨c, hc, hb⟩
    exact ⟨c.forget, by rw [find?_map_forget, hc]; rfl, hb⟩

/-- Without collections there is no cycle. -/
theorem Acyclic.nil : Acyclic [] := by
  intro name h
  obtain ⟨b, ⟨c, hc, -⟩, -⟩ := TransGen.head'_iff.1 h
  cases hc

/-- Fewer dependencies close no cycle. -/
theorem Acyclic.mono {left : List Collection} (h : Acyclic collections)
    (hleft : ∀ a b, DependsOn left a b → DependsOn collections a b) : Acyclic left :=
  fun name hcycle => h name (TransGen.mono hleft name name hcycle)

/-- Results make no difference to cycles. -/
theorem Acyclic.map_forget (h : Acyclic collections) : Acyclic (collections.map forget) :=
  h.mono fun _ _ => dependsOn_map_forget.1

/-- Collections that are taken out close no cycle. -/
theorem Acyclic.sublist {left : List Collection} (h : Acyclic collections)
    (hnames : (collections.map Collection.name).Nodup) (hleft : left.Sublist collections) :
    Acyclic left := by
  refine h.mono ?_
  rintro a b ⟨c, hc, hb⟩
  obtain rfl : c.name = a := by simpa using List.find?_some hc
  exact ⟨c, find?_of_mem hnames (hleft.subset (List.mem_of_find?_eq_some hc)), hb⟩

/-- **What the search lets pass closes no cycle.** -/
theorem Acyclic.put (h : Acyclic collections)
    (hcycle : cycleThrough collections c.name c.dependencies = none) :
    Acyclic (c.put collections) := by
  have hr := redirected_put c collections
  exact fun name hname => h name
    (transGen_of_redirected (fun a b ha => (hr.elsewhere a b ha).1)
      ((cycleThrough_eq_none_iff hr).1 hcycle) hname)

end Collection
end MusicCollections
