/-
# Messages of one line

The message of an error is one line unless it cites, as it is, a quoted text with a line
break in it.  Two of them can: a fault of reading, at a quoted token, and an unknown
reference, to a name that the evaluated expression itself has between quotes
(`message_breaks_line_iff`).  Collections that definitions made hold no line break in their
names and texts, so nothing that is reached through them does (`Store.Guarded.one_line`),
and what a definition is rejected for is always said in one line.
-/

import MusicCollections.Proofs.Completion
import MusicCollections.Proofs.Definitions.Checking
import MusicCollections.Proofs.Expression.Citations
import MusicCollections.Proofs.LineBreaks

namespace MusicCollections

open Definitions

/-! ## Faults of reading -/

namespace SyntaxError

variable {text : String} {err : SyntaxError}

/-- A fault of the tokens is said in one line: a character is cited with escapes. -/
theorem hasLineBreak_token (e : TokenError) : hasLineBreak e.message = false := by
  unfold TokenError.message
  split
  · have hopened : hasLineBreak "unterminated quoted string starting at position " = false := by
      simp [hasLineBreak]
    simp [hopened]
  · have hchar : hasLineBreak "unexpected character " = false := by simp [hasLineBreak]
    have hat : hasLineBreak " at position " = false := by simp [hasLineBreak]
    simp [hchar, hat]

/-- What a message expects holds no line break, so the token that it cites decides. -/
theorem hasLineBreak_parse {position : Nat} {expected found : String}
    (h : hasLineBreak expected = false) :
    hasLineBreak (ParseError.message ⟨position, expected, found⟩) = hasLineBreak found := by
  have hexpected : hasLineBreak "expected " = false := by simp [hasLineBreak]
  have hat : hasLineBreak " at position " = false := by simp [hasLineBreak]
  have hfound : hasLineBreak ", found " = false := by simp [hasLineBreak]
  simp [ParseError.message, h, hexpected, hat, hfound]

/-- The cited token breaks the line if it is a quoted text that does. -/
theorem breaks_line_of_cites {tokens : List Token} {e : ParseError}
    (htokens : tokenize text = .ok tokens) (h : Cites tokens e) :
    ∃ t ∈ tokens, t.position = e.position ∧
      (hasLineBreak e.message = true ↔ ∃ s, t.kind = .quoted s ∧ hasLineBreak s = true) := by
  cases h with
  | @token t expected ht hexpected =>
    have hline : ∀ s ∈ Parser.expectations, hasLineBreak s = false := by decide +kernel
    refine ⟨t, ht, rfl, ?_⟩
    rw [hasLineBreak_parse (hline _ hexpected), hasLineBreak_shown_iff htokens ht]
  | @tag t word tagName pattern ht hword hsplit =>
    refine ⟨t, ht, rfl, ?_⟩
    have hexpected : hasLineBreak Parser.expectedTag = false := by decide +kernel
    have hquote : hasLineBreak "`" = false := by decide
    have htagName : hasLineBreak tagName = false := by
      have hsubset : tagName.toList ⊆ word.toList := by
        rw [(Text.splitAtFirst_eq_some_iff.1 hsplit).1]
        exact List.subset_append_left _ _
      rcases lexeme_of_mem_tokens htokens ht with hfinish | ⟨hlexeme, -⟩
      · cases hfinish.symm.trans hword
      · rw [hword] at hlexeme
        exact hasLineBreak_of_subset hsubset hlexeme.hasLineBreak_of_word
    rw [hasLineBreak_parse hexpected]
    simp [hword, hquote, htagName]

/-- **A fault of reading breaks the line exactly where it is at a quoted text that does.** -/
theorem hasLineBreak_message_iff (h : parseExpression text = .error err) :
    hasLineBreak err.message = true ↔ ∃ tokens, tokenize text = .ok tokens ∧ ∃ t ∈ tokens,
      t.position = err.position ∧ ∃ s, t.kind = .quoted s ∧ hasLineBreak s = true := by
  rw [parseExpression] at h
  split at h
  · rename_i e htokens
    obtain rfl := Except.error.inj h
    simp [message, hasLineBreak_token, htokens]
  rename_i tokens htokens
  split at h
  · rename_i e hread
    obtain rfl := Except.error.inj h
    have hne : tokens ≠ [] := by
      obtain ⟨ts, rfl, -⟩ := tiles_of_tokenize htokens
      simp
    obtain ⟨t, ht, hposition, hiff⟩ := breaks_line_of_cites htokens
      (cites_of_parseTokens hne hread)
    rw [message, hiff]
    constructor
    · exact fun hs => ⟨tokens, htokens, t, ht, hposition, hs⟩
    · rintro ⟨tokens', htokens', u, hu, huposition, hs⟩
      obtain rfl := Except.ok.inj (htokens.symm.trans htokens')
      -- Positions are distinct, so the token at the position of the error is the one cited.
      have hdistinct : (tokens.map Token.position).Nodup :=
        List.pairwise_map.2 ((ascending_of_tokenize htokens).imp Nat.ne_of_lt)
      obtain rfl := List.inj_on_of_nodup_map hdistinct hu ht (huposition.trans hposition.symm)
      exact hs
  · cases h

/-- A fault of reading a text of one line is said in one line. -/
theorem one_line (h : parseExpression text = .error err) (htext : hasLineBreak text = false) :
    hasLineBreak err.message = false := by
  rw [Bool.eq_false_iff]
  intro hbreak
  obtain ⟨tokens, htokens, t, ht, -, s, hkind, hs⟩ := (hasLineBreak_message_iff h).1 hbreak
  rw [hasLineBreak_of_quoted htokens ht hkind htext] at hs
  cases hs

end SyntaxError

/-! ## Collections that definitions made -/

/-- A name that definitions give holds no line break. -/
theorem Definitions.Nameable.one_line {name : String} (h : Nameable name) :
    hasLineBreak name = false := by
  rw [hasLineBreak_eq_false_iff]
  intro c hc
  constructor <;>
    · rintro rfl
      exact h.not_mem (by decide) hc

namespace Store

variable {φ : Type} [Files φ] [LawfulFiles φ] {store : Store} {catalog : Catalog}
  {name expression text a b : String} {e : Expression}

/-- **Definitions leave texts of one line**, and they spell expressions. -/
theorem Guarded.one_line (h : Guarded φ store) (htext : store.texts name = some text) :
    hasLineBreak text = false ∧ ∃ tree, parseExpression text = .ok tree := by
  obtain ⟨c, hfind, rfl⟩ := Option.map_eq_some_iff.1 htext
  obtain ⟨before, original, hadmitted⟩ := h.admitted c (List.mem_of_find?_eq_some hfind)
  have hexpression : c.expression = Text.trim original := by
    rw [hadmitted.eq_ofText]
    rfl
  rw [hexpression]
  exact ⟨hadmitted.one_line, hadmitted.parsed⟩

/-- What a collection refers to holds no line break. -/
theorem Guarded.refers_one_line (h : Guarded φ store) (htext : store.texts a = some text)
    (hparse : parseExpression text = .ok e) (hb : b ∈ e.namesIn) : hasLineBreak b = false :=
  hasLineBreak_of_mem_namesIn hparse hb (h.one_line htext).1

/-- The message of an unknown reference breaks exactly if the name does. -/
theorem hasLineBreak_unknownReference (name : String) :
    hasLineBreak (EvalError.unknownReference name).message = hasLineBreak name := by
  have hlead : hasLineBreak "unknown reference `" = false := by simp [hasLineBreak]
  have htail : hasLineBreak "`: not a playlist or collection" = false := by simp [hasLineBreak]
  unfold EvalError.message
  simp [hlead, htail]

/-- **Only an unknown reference is reported**, and one that the expression does not have
itself holds no line break. -/
theorem Guarded.evaluate_error {err : EvalError} (h : Guarded φ store)
    (herr : evaluate catalog store e = .error err) : ∃ name, err = .unknownReference name ∧
      (name ∈ e.namesIn ∨ hasLineBreak name = false) := by
  have hread : store.AsRead := h.savable.as_read
  have hanswers := Evaluation.answers_evaluate (hread.resultsRight catalog) e
  have htrail := Evaluation.Trail.expression catalog store.texts e
  have htrue := (hanswers.reported htrail).isTrue err herr
  match err with
  | .unknownReference name =>
    obtain ⟨⟨a, ha, hreach⟩, -⟩ := htrue
    refine ⟨name, rfl, ?_⟩
    rcases Relation.ReflTransGen.cases_tail hreach with rfl | ⟨b, -, text, e', htext, hparse, hb⟩
    · exact .inl ha.1
    · exact .inr (h.refers_one_line htext hparse hb.1)
  | .store (.invalidExpression name cause) =>
    obtain ⟨-, text, htext, hparse⟩ := htrue
    obtain ⟨tree, htree⟩ := (h.one_line htext).2
    cases hparse.symm.trans htree
  | .store (.cycle path) =>
    exact absurd herr (Evaluation.not_cycle_of_acyclic hread h.acyclic hanswers htrail)

/-- The names on a reported cycle hold no line break. -/
theorem Guarded.cycle_one_line {path : List String} (h : Guarded φ store)
    (hline : hasLineBreak (Text.trim expression) = false)
    (hparse : parseExpression (Text.trim expression) = .ok e)
    (hcycle : Collection.cycleThrough store.collections name e.references = some path) :
    ∀ n ∈ path, hasLineBreak n = false := by
  intro n hn
  have hderived : store.Derived := AsRead.derived h.savable.as_read
  have hback := Collection.leadsBack_of_cycleThrough_eq_some (hderived.redirected name e) hcycle
  -- Each name on the way is one that the text before it refers to.
  obtain ⟨a, -, hrefers⟩ := Relation.TransGen.tail'_iff.1 (hback.transGen_of_mem hn)
  rcases hrefers with ⟨-, hn⟩ | ⟨-, text, e', htext, hparse', hn⟩
  · exact hasLineBreak_of_mem_namesIn hparse (NameSet.mem_ofList.1 hn) hline
  · exact h.refers_one_line htext hparse' (NameSet.mem_ofList.1 hn)

/-- Why a definition is not admitted. -/
inductive Rejected (store : Store) (name expression : String) : StoreError → Prop
  | name {fault} : nameFault? name = some fault →
      Rejected store name expression (.invalidName name fault)
  | lineBreak : nameFault? name = none → hasLineBreak (Text.trim expression) = true →
      Rejected store name expression (.multilineExpression name)
  | parse {cause} : nameFault? name = none → hasLineBreak (Text.trim expression) = false →
      parseExpression (Text.trim expression) = .error cause →
      Rejected store name expression (.invalidExpression name cause)
  | cycle {e path} : nameFault? name = none → hasLineBreak (Text.trim expression) = false →
      parseExpression (Text.trim expression) = .ok e →
      Collection.cycleThrough store.collections name e.references = some path →
      Rejected store name expression (.cycle path)

/-- **A definition is refused for the first of its faults**, in the order of the checks. -/
theorem rejected_of_define_eq_error {err : StoreError}
    (h : (store.define name expression).1 = .error err) : Rejected store name expression err := by
  have hadmitted : store.admitted name expression = .error err := by
    rw [define] at h
    split at h
    · rename_i hadmitted
      rw [hadmitted, Except.error.inj h]
    · cases h
  simp only [admitted] at hadmitted
  split at hadmitted
  · rename_i hname
    obtain rfl := Except.error.inj hadmitted
    exact .name hname
  rename_i hname
  split at hadmitted
  · rename_i hbreak
    obtain rfl := Except.error.inj hadmitted
    exact .lineBreak hname hbreak
  rename_i hbreak
  rw [Bool.not_eq_true] at hbreak
  split at hadmitted
  · rename_i hparse
    obtain rfl := Except.error.inj hadmitted
    exact .parse hname hbreak hparse
  rename_i hparse
  split at hadmitted
  · rename_i hcycle
    obtain rfl := Except.error.inj hadmitted
    exact .cycle hname hbreak hparse hcycle
  · cases hadmitted

/-- **What a definition is rejected for is said in one line.** -/
theorem Guarded.one_line_of_rejected {err : StoreError} (h : Guarded φ store)
    (hrejected : Rejected store name expression err) : hasLineBreak err.message = false := by
  have hlead : hasLineBreak "collection `" = false := by simp [hasLineBreak]
  unfold StoreError.message
  cases hrejected with
  | @name fault _ =>
    have hinvalid : hasLineBreak "invalid collection name " = false := by simp [hasLineBreak]
    have hcolon : hasLineBreak ": " = false := by decide
    have hreason : hasLineBreak fault.reason = false := by
      cases fault <;> simp [NameFault.reason, hasLineBreak]
    simp [hinvalid, hcolon, hreason]
  | lineBreak hname _ =>
    have htail : hasLineBreak "` has a line break in its expression" = false := by
      simp [hasLineBreak]
    simp [hlead, htail, (Nameable.of_nameFault? hname).one_line]
  | parse hname hline hparse =>
    have htail : hasLineBreak "` has an invalid expression: " = false := by simp [hasLineBreak]
    simp [hlead, htail, (Nameable.of_nameFault? hname).one_line, SyntaxError.one_line hparse hline]
  | cycle _ hline hparse hcycle =>
    have hring : hasLineBreak "collection cycle: " = false := by simp [hasLineBreak]
    have hsep : hasLineBreak " -> " = false := by decide
    have hpath := hasLineBreak_join_sep hsep (h.cycle_one_line hline hparse hcycle)
    rw [hasLineBreak_append, hring, hpath]
    rfl

/-- **Which messages break a line.**  The error of reading a text has a line break in its
message if and only if the token at the position at fault is a quoted text with one.  The error
of an evaluation against collections that definitions made has one if and only if it is an
unknown reference to a name of the expression itself, with a line break in the name.  The error
of a definition has none, and texts without line breaks lead to none at all. -/
theorem message_breaks_line_iff (h : Guarded φ store) :
    (∀ text err, parseExpression text = .error err →
      (hasLineBreak err.message = true ↔ ∃ tokens, tokenize text = .ok tokens ∧ ∃ t ∈ tokens,
        t.position = err.position ∧ ∃ s, t.kind = .quoted s ∧ hasLineBreak s = true)) ∧
    (∀ catalog e err, evaluate catalog store e = .error err →
      (hasLineBreak err.message = true ↔ ∃ name ∈ e.namesIn,
        err = .unknownReference name ∧ hasLineBreak name = true)) ∧
    (∀ name expression err, (store.define name expression).1 = .error err →
      hasLineBreak err.message = false) ∧
    ∀ text, hasLineBreak text = false →
      (∀ err, parseExpression text = .error err → hasLineBreak err.message = false) ∧
      ∀ e catalog err, parseExpression text = .ok e → evaluate catalog store e = .error err →
        hasLineBreak err.message = false := by
  have hevaluate : ∀ catalog e err, evaluate catalog store e = .error err →
      (hasLineBreak err.message = true ↔ ∃ name ∈ e.namesIn,
        err = .unknownReference name ∧ hasLineBreak name = true) := by
    intro catalog e err herr
    obtain ⟨name, rfl, hname⟩ := h.evaluate_error herr
    rw [hasLineBreak_unknownReference]
    constructor
    · intro hbreak
      refine ⟨name, hname.resolve_right ?_, rfl, hbreak⟩
      rw [hbreak]
      nofun
    · rintro ⟨other, -, hother, hbreak⟩
      rwa [EvalError.unknownReference.inj hother]
  refine ⟨fun text err => SyntaxError.hasLineBreak_message_iff, hevaluate,
    fun name expression err herr => h.one_line_of_rejected (rejected_of_define_eq_error herr),
    fun text htext => ⟨fun err herr => SyntaxError.one_line herr htext, ?_⟩⟩
  intro e catalog err hparse herr
  rw [Bool.eq_false_iff]
  intro hbreak
  obtain ⟨name, hname, -, hbreak'⟩ := (hevaluate catalog e err herr).1 hbreak
  rw [hasLineBreak_of_mem_namesIn hparse hname htext] at hbreak'
  cases hbreak'

/-- What the collection of the store refers to is unknown, and so is a name with a line feed;
its message alone breaks the line. -/
theorem danglingStore_messages : Guarded FileTree danglingStore ∧
    evaluate (Catalog.ofPlaylists []) danglingStore (.ref "a") =
      .error (.unknownReference "b") ∧
    hasLineBreak (EvalError.unknownReference "b").message = false ∧
    evaluate (Catalog.ofPlaylists []) danglingStore (.ref "x\ny") =
      .error (.unknownReference "x\ny") ∧
    hasLineBreak (EvalError.unknownReference "x\ny").message = true := by
  have hstore : Guarded FileTree danglingStore := .define "a" "b" .empty
  have hknown : evaluate (Catalog.ofPlaylists []) danglingStore (.ref "a") =
      .error (.unknownReference "b") := by decide +kernel
  have hunknown : evaluate (Catalog.ofPlaylists []) danglingStore (.ref "x\ny") =
      .error (.unknownReference "x\ny") := by decide +kernel
  obtain ⟨-, hevaluate, -, hclean⟩ := message_breaks_line_iff hstore
  refine ⟨hstore, hknown, ?_, hunknown, ?_⟩
  · exact (hclean "a" (by decide)).2 _ _ _ (by decide +kernel) hknown
  · exact (hevaluate _ _ _ hunknown).2 ⟨"x\ny", by decide, rfl, by decide⟩

/-- **Quoted texts are cited as they are.**  A line feed between quotes goes into the message
of a fault at the quoted text, and into that of an unknown reference to it. -/
theorem quoted_line_break_cited : Guarded FileTree danglingStore ∧
    (∃ err, parseExpression "a \"x\ny\"" = .error err ∧ hasLineBreak err.message = true) ∧
    ∃ e err, parseExpression "\"x\ny\"" = .ok e ∧
      evaluate (Catalog.ofPlaylists []) danglingStore e = .error err ∧
      hasLineBreak err.message = true := by
  refine ⟨.define "a" "b" .empty,
    ⟨.parse ⟨2, "AND, OR or end of input", "\"x\ny\""⟩, ?_, ?_⟩,
    .ref "x\ny", .unknownReference "x\ny", ?_, ?_, ?_⟩ <;> decide +kernel

end Store

end MusicCollections
