/-
# Completed names

What passes the checks on a name is a bare word if it holds no white space, and so a
reference when it is completed as it is.  With white space it is completed between quotes,
where nothing in it is escaped: it refers to itself exactly if no backslash takes the
meaning from what follows it (`parseExpression_spell_iff`).

The completions of a file that checked definitions were saved to are, in ascending order,
those of the names, one for each (`names_of_persist`).
-/

import MusicCollections.Completion.Names
import MusicCollections.Proofs.Definitions.Dependencies
import MusicCollections.Proofs.Expression.Spelling
import MusicCollections.Proofs.Expression.Tiling
import MusicCollections.Proofs.Operations.Pool
import MusicCollections.Proofs.Results

namespace MusicCollections

open Token

/-! ## Names that pass the checks -/

/-- What passes the checks on a name can be referred to. -/
structure Definitions.Nameable (name : String) : Prop where
  ne_empty : name ≠ ""
  ne_all : name ≠ Expression.allName
  apart : ∀ c ∈ name.toList, isSeparator c = false
  tokens : ∃ tokens, tokenize name = .ok tokens ∧ isOperator tokens = false

namespace Definitions.Nameable

variable {name : String}

/-- A name without a fault passes the checks. -/
theorem of_nameFault? (h : nameFault? name = none) : Nameable name := by
  simp only [nameFault?] at h
  split_ifs at h with hempty hpadded hcomment hall hseparator
  have hname : Text.trim name = name := (not_not.1 hpadded).symm
  refine ⟨?_, hall, ?_, ?_⟩
  · rintro rfl
    exact hempty (by rw [hname]; rfl)
  · intro c hc
    simpa using fun hsep => hseparator (List.any_eq_true.2 ⟨c, hc, hsep⟩)
  · split at h
    · cases h
    · rename_i tokens htokens
      split at h
      · cases h
      · rename_i hoperator
        exact ⟨tokens, htokens, by simpa using hoperator⟩

/-- No separator stands in a name. -/
theorem not_mem (h : Nameable name) {c : Char} (hc : isSeparator c = true) : c ∉ name.toList := by
  intro hmem
  rw [h.apart c hmem] at hc
  cases hc

/-- Without a quote in it, no quotation is open anywhere in a name. -/
theorem closed_take (h : Nameable name) (n : Nat) : Closed (name.toList.take n) := by
  have hquote : '"' ∉ name.toList.take n := fun hmem =>
    h.not_mem (by decide) (List.mem_of_mem_take hmem)
  rw [← List.append_nil (name.toList.take n)]
  exact (closed_append_iff hquote).2 .nil

/-- **Without white space, a name is a bare word.** -/
theorem isWordChar (h : Nameable name) (hblank : ∀ c ∈ name.toList, Text.isBlank c = false) :
    ∀ c ∈ name.toList, isWordChar c = true := by
  intro c hc
  obtain ⟨tokens, htokens, -⟩ := h.tokens
  by_contra hword
  -- Otherwise the character is a fault of the name, which has none.
  have hne : ∀ d, isSeparator d = true → c ≠ d := fun d hd heq => h.not_mem hd (heq ▸ hc)
  have hforeign : Foreign c := ⟨hblank c hc, by simpa using hword, hne '(' (by decide),
    hne ')' (by decide), hne '"' (by decide)⟩
  obtain ⟨i, hi, rfl⟩ := List.getElem_of_mem hc
  have hfault : FaultAt name.toList (.unexpectedChar name.toList[i] i) :=
    ⟨h.closed_take i, List.getElem?_eq_getElem hi, hforeign⟩
  exact not_faultAt_of_tokenize htokens hfault

/-- A name is no operator, in whatever case. -/
theorem operator?_eq_none (h : Nameable name)
    (hblank : ∀ c ∈ name.toList, Text.isBlank c = false) : operator? name = none := by
  have hne : name.toList ≠ [] := by simpa using h.ne_empty
  have htokens := tokenize_of_lexeme (.word hne (h.isWordChar hblank))
  obtain ⟨tokens, hread, hoperator⟩ := h.tokens
  obtain rfl := Except.ok.inj (htokens.symm.trans hread)
  rw [isOperator, kindOfWord, String.ofList_toList] at hoperator
  cases hop : operator? name with
  | none => rfl
  | some kind =>
    rw [hop] at hoperator
    rw [operator?] at hop
    split_ifs at hop <;> cases hop <;> cases hoperator

/-- **Without white space, a name refers to itself.** -/
theorem parseExpression_eq (h : Nameable name)
    (hblank : ∀ c ∈ name.toList, Text.isBlank c = false) :
    parseExpression name = .ok (.ref name) := by
  have hne : name.toList ≠ [] := by simpa using h.ne_empty
  have htokens := tokenize_of_lexeme (.word hne (h.isWordChar hblank))
  rw [kindOfWord_eq_word (h.operator?_eq_none hblank)] at htokens
  have hcolon : ':' ∉ name.toList := h.not_mem (by decide)
  have hspells : Grammar.Spells ([(⟨.word name, name, 0⟩ : Token)].map Token.kind) (.ref name) :=
    .ofConjunction (.ofUnary (.ofPrimary (.name hcolon)))
  have hparse : parseTokens [⟨.word name, name, 0⟩, ⟨.finish, "", name.toList.length⟩] =
      .ok (.ref name) := parseTokens_of_spells rfl hspells
  rw [parseExpression, htokens]
  dsimp only
  rw [hparse]

end Definitions.Nameable

/-! ## Names between quotes -/

namespace Completion

variable {name : String}

/-- **A name without quotes refers to itself between quotes if and only if no backslash
takes the meaning from what follows.** -/
theorem parseExpression_quotes_iff (hquote : '"' ∉ name.toList) :
    parseExpression ("\"" ++ name ++ "\"") = .ok (.ref name) ↔ Verbatim name.toList := by
  have hchars : ("\"" ++ name ++ "\"").toList = '"' :: (name.toList ++ ['"']) := by simp
  rw [← Quotation.verbatim_iff hquote]
  constructor
  · intro h
    cases hread : readQuoted (name.toList ++ ['"']) with
    | none =>
      have herror := Stops.tokensFrom (.inr ⟨rfl, hread⟩) 0
      rw [parseExpression, tokenize, hchars, herror] at h
      cases h
    | some found =>
      obtain ⟨body, rest, hbody, -, hquotation⟩ := quotation_of_readQuoted hread
      obtain ⟨rfl, -, -⟩ := (List.append_cons_inj_of_notMem hquote List.not_mem_nil).1 hbody
      have hparse := parseExpression_of_lexeme (hchars ▸ Lexeme.quoted hquotation)
      obtain hvalue := Expression.ref.inj (Except.ok.inj (hparse.symm.trans h))
      rwa [← hvalue, String.toList_ofList] at hquotation ⊢
  · intro h
    have hlexeme := Lexeme.quoted h
    rw [String.ofList_toList, ← hchars] at hlexeme
    exact parseExpression_of_lexeme hlexeme

/-- A name with white space is spelled between quotes. -/
theorem spell_of_blank (h : ∃ c ∈ name.toList, Text.isBlank c = true) :
    spell name = "\"" ++ name ++ "\"" := if_pos (List.any_eq_true.2 h)

/-- A name without white space is spelled as it is. -/
theorem spell_of_not_blank (h : ¬∃ c ∈ name.toList, Text.isBlank c = true) :
    spell name = name := if_neg fun hany => h (List.any_eq_true.1 hany)

/-- **A completed name refers to itself if and only if it holds no white space, or no
backslash in it takes the meaning from what follows.** -/
theorem parseExpression_spell_iff (h : Definitions.Nameable name) :
    parseExpression (spell name) = .ok (.ref name) ↔
      (∀ c ∈ name.toList, Text.isBlank c = false) ∨ Verbatim name.toList := by
  by_cases hblank : ∃ c ∈ name.toList, Text.isBlank c = true
  · rw [spell_of_blank hblank, parseExpression_quotes_iff (h.not_mem (by decide))]
    obtain ⟨c, hc, hcblank⟩ := hblank
    refine ⟨.inr, fun hor => hor.resolve_left fun hnone => ?_⟩
    cases hcblank.symm.trans (hnone c hc)
  · rw [spell_of_not_blank hblank]
    have hnone : ∀ c ∈ name.toList, Text.isBlank c = false := by simpa using hblank
    exact iff_of_true (h.parseExpression_eq hnone) (.inl hnone)

/-- Names without quotes are completed differently. -/
theorem spell_injOn {other : String} (hname : '"' ∉ name.toList) (hother : '"' ∉ other.toList)
    (h : spell name = spell other) : name = other := by
  have hquoted : ∀ s : String, '"' ∈ ("\"" ++ s ++ "\"").toList := by simp
  by_cases hblank : ∃ c ∈ name.toList, Text.isBlank c = true <;>
    by_cases hblank' : ∃ c ∈ other.toList, Text.isBlank c = true
  · rw [spell_of_blank hblank, spell_of_blank hblank'] at h
    simpa using h
  · rw [spell_of_blank hblank, spell_of_not_blank hblank'] at h
    exact absurd (h ▸ hquoted name) hother
  · rw [spell_of_not_blank hblank, spell_of_blank hblank'] at h
    exact absurd (h ▸ hquoted other) hname
  · rwa [spell_of_not_blank hblank, spell_of_not_blank hblank'] at h

end Completion

/-! ## Names in a file -/

namespace Store

variable {φ : Type} [Files φ] [LawfulFiles φ] {store saved : Store} {now : Time} {path : Path}
  {files files' : φ}

/-- **Every name of checked definitions passes the checks.** -/
theorem Guarded.nameable (h : Guarded φ store) :
    ∀ c ∈ store.collections, Definitions.Nameable c.name := by
  intro c hc
  obtain ⟨_, _, hadmitted⟩ := h.admitted c hc
  exact .of_nameFault? hadmitted.name_ok

end Store

namespace Completion

open Store

variable {φ : Type} [Files φ] [LawfulFiles φ] {store saved : Store} {now : Time} {path : Path}
  {files files' : φ}

/-- The names in a file are those of the store that was saved to it. -/
theorem names_of_savable (h : Collection.Savable store.collections)
    (hsave : store.persist now path files = (.ok (), saved, files')) :
    names files' path = .ok (NameSet.ofList (store.names.map spell)) := by
  have hwrite := replace_of_persist hsave
  obtain ⟨time, htime⟩ := (Files.of_replace_eq_ok hwrite).1
  have hpresent : Files.present files' path = true := by
    rw [Files.present, htime]
    rfl
  rw [names, if_pos hpresent, Definitions.readText_of_replace hwrite]
  dsimp only
  rw [namesIn, parse_render_definitions h, Store.definitions, Store.names, List.map_map,
    List.map_map]
  rfl

/-- **A file that checked definitions were saved to completes each of their names once, in
ascending order.**  What a name is completed to is an expression that refers to it, and is
evaluated to what the collection selects unless a playlist has the name: always if it holds
no white space, and else if and only if no backslash in it takes the meaning from what
follows. -/
theorem names_of_persist (h : Guarded φ store)
    (hsave : store.persist now path files = (.ok (), saved, files')) :
    ∃ texts, names files' path = .ok texts ∧ texts.Pairwise (· < ·) ∧
      texts.Perm (store.names.map spell) ∧ ∀ name ∈ store.names,
        (parseExpression (spell name) = .ok (.ref name) ↔
          (∀ c ∈ name.toList, Text.isBlank c = false) ∨ Verbatim name.toList) ∧
        ∀ catalog : Catalog, catalog.playlist? name = none →
          evaluate catalog saved (.ref name) = saved.resolve catalog name := by
  have hnameable : ∀ name ∈ store.names, Definitions.Nameable name := by
    intro name hname
    obtain ⟨c, hc, rfl⟩ := List.mem_map.1 hname
    exact h.nameable c hc
  have hquote : ∀ name ∈ store.names, '"' ∉ name.toList := fun name hname =>
    (hnameable name hname).not_mem (by decide)
  have hsorted := NameSet.pairwise_ofList (store.names.map spell)
  -- Two names are not completed to the same text, since neither holds a quote.
  have hnodup : (store.names.map spell).Nodup := h.savable.nodup.map_on
    fun a ha b hb => spell_injOn (hquote a ha) (hquote b hb)
  have hsaved : saved.collections = store.collections := by
    rw [← collections_persist now path store files, hsave]
  refine ⟨_, names_of_savable h.savable hsave, hsorted, ?_, fun name hname => ⟨?_, ?_⟩⟩
  · exact (List.perm_ext_iff_of_nodup (hsorted.imp String.ne_of_lt) hnodup).2
      fun text => NameSet.mem_ofList
  · exact parseExpression_spell_iff (hnameable name hname)
  · intro catalog hplaylist
    have hread : saved.AsRead := by
      rw [Store.AsRead, hsaved]
      exact h.savable.as_read
    obtain ⟨c, hc, rfl⟩ := List.mem_map.1 hname
    have hfound : saved.get? c.name = some c := by
      rw [Store.get?, hsaved]
      exact Collection.find?_of_mem h.savable.nodup hc
    have heval := hread.derived.evaluate_ref_eq_resolve (hnameable c.name hname).ne_all hplaylist
      hfound
    rwa [hread.clearResults_eq] at heval

/-- Names with and without white space, some with backslashes. -/
def nightStore : Store :=
  ((((Store.empty.define "zen" "all").2.define "late night" "zen").2.define
    "night\\day mix\\" "zen").2.define "night\\day mix" "zen").2

/-- The file that they were saved to. -/
def nightFile : FileTree := (nightStore.persist 1 "notes" ({} : FileTree)).2.2

/-- Of the two names with backslashes, the one that ends in a backslash does not read back. -/
theorem names_of_nightFile :
    Guarded FileTree nightStore ∧
      (nightStore.persist 1 "notes" ({} : FileTree)).1 = .ok () ∧
      nightStore.names = ["zen", "late night", "night\\day mix\\", "night\\day mix"] ∧
      (∃ texts, names nightFile "notes" = .ok texts ∧ texts.Pairwise (· < ·) ∧
        texts.Perm ["zen", "\"late night\"", "\"night\\day mix\\\"", "\"night\\day mix\""]) ∧
      parseExpression "\"night\\day mix\"" = .ok (.ref "night\\day mix") ∧
      (∀ catalog : Catalog, catalog.playlist? "night\\day mix" = none →
        evaluate catalog (nightStore.persist 1 "notes" ({} : FileTree)).2.1
            (.ref "night\\day mix") =
          (nightStore.persist 1 "notes" ({} : FileTree)).2.1.resolve catalog "night\\day mix") ∧
      parseExpression "\"night\\day mix\\\"" ≠ .ok (.ref "night\\day mix\\") := by
  have hguarded : Guarded FileTree nightStore :=
    .define _ _ (.define _ _ (.define _ _ (.define _ _ .empty)))
  have hsaved : (nightStore.persist 1 "notes" ({} : FileTree)).1 = .ok () := by decide +kernel
  have hnames : nightStore.names = ["zen", "late night", "night\\day mix\\", "night\\day mix"] := by
    decide +kernel
  have hsave : nightStore.persist 1 "notes" ({} : FileTree) =
      (.ok (), (nightStore.persist 1 "notes" ({} : FileTree)).2.1, nightFile) :=
    persist_eq_of_fst hsaved
  obtain ⟨texts, htexts, hsorted, hperm, hready⟩ := names_of_persist hguarded hsave
  rw [hnames] at hperm hready
  obtain ⟨hparse, hevaluate⟩ := hready "night\\day mix" (by simp)
  refine ⟨hguarded, hsaved, hnames, ⟨texts, htexts, hsorted, hperm⟩, ?_, hevaluate, ?_⟩
  · exact hparse.2 (.inr (by decide +kernel))
  · intro hparse
    rcases (hready "night\\day mix\\" (by simp)).1.1 hparse with hblank | hverbatim
    · exact absurd (hblank ' ' (by decide)) (by decide)
    · exact absurd hverbatim (by decide +kernel)

/-- A name that ends in a backslash takes the meaning from the quote that should end it. -/
theorem completed_name_unterminated :
    (Store.empty.define "late night\\" "all").1 = .ok () ∧
      ((Store.empty.define "late night\\" "all").2.persist 1 "notes" ({} : FileTree)).1 = .ok () ∧
      names ((Store.empty.define "late night\\" "all").2.persist 1 "notes" ({} : FileTree)).2.2
        "notes" = .ok ["\"late night\\\""] ∧
      parseExpression "\"late night\\\"" = .error (.token (.unterminatedString 0)) := by
  refine ⟨?_, ?_, ?_, ?_⟩ <;> decide +kernel

end Completion

end MusicCollections
